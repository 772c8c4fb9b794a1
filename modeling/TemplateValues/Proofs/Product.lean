import Mathlib.Data.List.Basic
import TemplateValues.Template.Combinations

/-!
# Combinations are the bounded product

`combinations` goes through the variables depth first and stops as soon as there is no more room.
What it finds is the front of the product of the kept values in lexicographic order, and it reports a
cut just if values were left out or the product is longer than the room
(`combinations_eq_take_product`).

The one invariant is that of the loop over the values of a variable: after some of them, the output is
the front of what they give, and the loop is full just if they give more than there is room for.
-/

namespace TemplateValues.Template

/-! ## The product -/

/-- All choices of one element of each list, in lexicographic order: the first list varies slowest. -/
def product {α : Type} : List (List α) → List (List α)
  | [] => [[]]
  | values :: rest => values.flatMap fun value => (product rest).map (value :: ·)

def Part.expression? : Part → Option String
  | .static _ => none
  | .hole e _ => some e

def Known.valuesOf (known : Known) (expression : String) : List String :=
  ((known.lookup expression).map LiteralSet.values).getD []

/-- The expressions with known values, each once, in order of first appearance. -/
def branchingVariables (parts : List Part) (known : Known) : List String :=
  (parts.filterMap Part.expression?).eraseDups.filter fun e => known.valuesOf e ≠ []

/-- The text of a part if each of `names` takes the value at its place in `tuple`. -/
def Part.textIn (names tuple : List String) : Part → String
  | .static text => text
  | .hole e _ => ((names.idxOf? e).bind fun i => tuple[i]?).getD ("\x7b" ++ e ++ "\x7d")

def textOfTuple (parts : List Part) (names tuple : List String) : String :=
  String.join (parts.map (Part.textIn names tuple))

/-! ## Variables and texts -/

theorem map_fst_variablesFrom (seen : List String) (parts : List Part) :
    (variablesFrom seen parts).map Prod.fst =
      ((parts.filterMap Part.expression?).filter fun e => !seen.contains e).eraseDups := by
  induction parts generalizing seen with
  | nil => rfl
  | cons part parts ih =>
    cases part with
    | static text => exact ih seen
    | hole e p =>
      have first : (Part.hole e p :: parts).filterMap Part.expression? =
          e :: parts.filterMap Part.expression? := rfl
      rw [first, variablesFrom]
      by_cases old : seen.contains e
      · rw [if_pos old, ih, List.filter_cons_of_neg (by simpa using old)]
      · have both : ∀ f, (!(e :: seen).contains f) = (!(f == e) && !seen.contains f) := by
          intro f
          rw [List.contains_cons, Bool.not_or]
        rw [if_neg old, List.map_cons, ih, List.filter_cons_of_pos (by simpa using old),
          List.eraseDups_cons, List.filter_filter]
        simp only [both]

theorem Known.map_values? (known : Known) (e : String) :
    (known.values? e).map LiteralSet.values =
      if known.valuesOf e = [] then none else some (known.valuesOf e) := by
  unfold Known.values? Known.valuesOf
  cases known.lookup e with
  | none => rfl
  | some s => by_cases empty : s.values = [] <;> simp [LiteralSet.isEmpty, empty, Option.filter]

/-- The loop leaves out a variable that it has kept, and `variablesFrom` one that it has seen.  What was
seen but not kept has no values, so it is left out at every appearance. -/
theorem branchingFrom_eq {known : Known} {kept : List (String × LiteralSet)} {seen : List String}
    (old : ∀ x ∈ kept, x.1 ∈ seen)
    (unknown : ∀ e ∈ seen, e ∉ kept.map Prod.fst → known.values? e = none) (parts : List Part) :
    branchingFrom known kept parts =
      kept ++ (variablesFrom seen parts).filterMap fun x => (known.values? x.1).map fun s => (x.1, s) := by
  induction parts generalizing kept seen with
  | nil => exact (List.append_nil kept).symm
  | cons part parts ih =>
    cases part with
    | static text => exact ih old unknown
    | hole e p =>
      rw [branchingFrom, variablesFrom]
      by_cases again : kept.any fun x => x.1 = e
      · obtain ⟨x, member, rfl⟩ : ∃ x ∈ kept, x.1 = e := by simpa using again
        rw [if_pos again, if_pos (List.contains_iff_mem.mpr (old x member))]
        exact ih old unknown
      · have new : e ∉ kept.map Prod.fst := by simpa using again
        rw [if_neg again]
        cases values : known.values? e with
        | none =>
          -- whether it is seen from here on or was before, nothing comes of it
          by_cases before : seen.contains e
          · rw [if_pos before]
            exact ih old unknown
          · rw [if_neg before, List.filterMap_cons, values]
            refine ih (fun x member => List.mem_cons_of_mem e (old x member)) fun f member missing => ?_
            rcases List.mem_cons.mp member with rfl | member
            · exact values
            · exact unknown f member missing
        | some s =>
          have fresh : ¬ seen.contains e := by
            intro before
            rw [unknown e (List.contains_iff_mem.mp before) new] at values
            cases values
          have old' : ∀ x ∈ kept ++ [(e, s)], x.1 ∈ e :: seen := by
            intro x member
            rcases List.mem_append.mp member with member | last
            · exact List.mem_cons_of_mem e (old x member)
            · rw [List.mem_singleton.mp last]
              exact List.mem_cons_self
          have unknown' : ∀ f ∈ e :: seen, f ∉ (kept ++ [(e, s)]).map Prod.fst →
              known.values? f = none := by
            intro f member missing
            simp only [List.map_append, List.map_cons, List.map_nil, List.mem_append,
              List.mem_singleton, not_or] at missing
            rcases List.mem_cons.mp member with rfl | member
            · exact absurd rfl missing.2
            · exact unknown f member missing.1
          rw [if_neg fresh, List.filterMap_cons, values]
          simp only [Option.map_some]
          rw [ih old' unknown', List.append_assoc, List.singleton_append]

/-- The variables that branch are the variables of the template that have values. -/
theorem branching_eq (parts : List Part) (known : Known) :
    branching parts known =
      (variablesFrom [] parts).filterMap fun x => (known.values? x.1).map fun s => (x.1, s) := by
  have none : ∀ x ∈ ([] : List (String × LiteralSet)), x.1 ∈ ([] : List String) := by simp
  exact branchingFrom_eq none (by simp) parts

theorem map_branching (parts : List Part) (known : Known) :
    (branching parts known).map (fun x => (x.1, x.2.values)) =
      (branchingVariables parts known).map fun e => (e, known.valuesOf e) := by
  have names : (variablesFrom [] parts).map Prod.fst =
      (parts.filterMap Part.expression?).eraseDups := by
    simpa using map_fst_variablesFrom [] parts
  have pointwise : ∀ es : List String,
      es.filterMap (fun e => ((known.values? e).map LiteralSet.values).map fun vs => (e, vs)) =
        (es.filter fun e => known.valuesOf e ≠ []).map fun e => (e, known.valuesOf e) := by
    intro es
    induction es with
    | nil => rfl
    | cons e es ih =>
      rw [List.filterMap_cons, ih, Known.map_values?]
      by_cases empty : known.valuesOf e = [] <;> simp [empty]
  rw [branchingVariables, ← names, ← pointwise, List.filterMap_map, branching_eq, List.map_filterMap]
  simp only [Option.map_map, Function.comp_def]

theorem lookup_zip (names tuple : List String) (e : String) :
    (names.zip tuple).lookup e = (names.idxOf? e).bind fun i => tuple[i]? := by
  induction names generalizing tuple with
  | nil => rfl
  | cons v vs ih =>
    cases tuple with
    | nil => simp
    | cons x xs =>
      rw [List.zip_cons_cons, List.lookup_cons, List.idxOf?_cons]
      by_cases same : v = e
      · simp [same]
      · have other : (e == v) = false := beq_false_of_ne fun equal => same equal.symm
        have other' : (v == e) = false := beq_false_of_ne same
        simp only [other, other', Bool.false_eq_true, if_false, ih, Option.bind_map]
        rfl

theorem render_zip (parts : List Part) (names tuple : List String) :
    render parts (names.zip tuple) = textOfTuple parts names tuple := by
  unfold render textOfTuple
  congr 2
  funext part
  cases part with
  | static text => rfl
  | hole e p => simp only [Part.textIn, lookup_zip]

/-! ## The search -/

/-- What a loop over `values` has found, and whether it is full: the front of what the values give. -/
theorem foldl_expand_eq {leaf : List (String × String) → String} {name : String}
    {branches : List (String × List String)} {chosen : List (String × String)} (room : Nat)
    {texts : String → List String}
    (each : ∀ value room, expand leaf branches (chosen ++ [(name, value)]) room =
      ((texts value).take room, decide (room < (texts value).length)))
    (before : List String) (values : List String) :
    values.foldl (fun (out, full) value =>
      if full then (out, full)
      else
        let (more, full) := expand leaf branches (chosen ++ [(name, value)]) (room - out.length)
        (out ++ more, full)) (before.take room, decide (room < before.length)) =
      ((before ++ values.flatMap texts).take room,
        decide (room < (before ++ values.flatMap texts).length)) := by
  induction values generalizing before with
  | nil => simp
  | cons value values ih =>
    rw [List.foldl_cons, List.flatMap_cons, ← List.append_assoc, ← ih]
    congr 1
    by_cases full : room < before.length
    · have front : (before ++ texts value).take room = before.take room :=
        List.take_append_of_le_length (Nat.le_of_lt full)
      simp [full, front]
      omega
    · have all : before.take room = before := List.take_of_length_le (Nat.le_of_not_lt full)
      have front : (before ++ texts value).take room =
          before ++ (texts value).take (room - before.length) := by
        rw [List.take_append, all]
      simp [full, all, each, front]
      omega

theorem expand_eq (leaf : List (String × String) → String)
    (branches : List (String × List String)) (chosen : List (String × String)) (room : Nat) :
    expand leaf branches chosen room =
      (((product (branches.map Prod.snd)).map fun tuple =>
          leaf (chosen ++ (branches.map Prod.fst).zip tuple)).take room,
        decide (room < (product (branches.map Prod.snd)).length)) := by
  induction branches generalizing chosen room with
  | nil =>
    cases room <;> simp [expand, product]
  | cons branch branches ih =>
    obtain ⟨name, values⟩ := branch
    let texts (value : String) : List String := (product (branches.map Prod.snd)).map fun tuple =>
      leaf (chosen ++ (name, value) :: (branches.map Prod.fst).zip tuple)
    have each : ∀ value room, expand leaf branches (chosen ++ [(name, value)]) room =
        ((texts value).take room, decide (room < (texts value).length)) := by
      intro value room
      simp [ih, texts]
    have loop := foldl_expand_eq room each [] values
    simp only [List.take_nil, List.length_nil, Nat.not_lt_zero, decide_false, List.nil_append] at loop
    rw [expand, loop]
    simp [product, texts, List.map_flatMap, List.length_flatMap, Function.comp_def]

/-! ## The main statement -/

/-- **Combinations are the front of the product.**  The variables with known values branch, each on
its first values, `maxValues` of them but at least one.  The texts are the first `maxCombinations` of
those that the tuples of the product give, in lexicographic order.  A cut is reported just if some
variable has more values than are kept or there are more tuples than there is room for. -/
theorem combinations_eq_take_product (parts : List Part) (known : Known)
    (maxValues maxCombinations : Nat) :
    let names := branchingVariables parts known
    let tuples := product (names.map fun e => (known.valuesOf e).take (max maxValues 1))
    let result := combinations parts known maxValues maxCombinations
    result.values = (tuples.map (textOfTuple parts names)).take maxCombinations ∧
    (result.truncated = true ↔
      (∃ e ∈ names, max maxValues 1 < (known.valuesOf e).length) ∨
        maxCombinations < tuples.length) := by
  intro names tuples result
  have found := expand_eq (render parts)
    ((branchingVariables parts known).map fun e => (e, (known.valuesOf e).take (max maxValues 1)))
    [] maxCombinations
  simp only [List.map_map, Function.comp_def, List.nil_append, List.map_id', render_zip] at found
  have shown : result = ⟨(tuples.map (textOfTuple parts names)).take maxCombinations,
      decide (maxCombinations < tuples.length) ||
        names.any fun e => max maxValues 1 < (known.valuesOf e).length⟩ := by
    have kept := congrArg (List.map fun x => (x.1, x.2.take (max maxValues 1)))
      (map_branching parts known)
    have cut := congrArg (List.any · fun x => max maxValues 1 < x.2.length) (map_branching parts known)
    simp only [List.map_map, List.any_map, Function.comp_def] at kept cut
    simp only [result, combinations, kept, found]
    exact congrArg _ (congrArg _ cut)
  rw [shown]
  refine ⟨rfl, ?_⟩
  rw [Bool.or_eq_true, decide_eq_true_eq, or_comm, List.any_eq_true]
  exact or_congr_left (exists_congr fun e => and_congr_right fun _ => decide_eq_true_iff)

end TemplateValues.Template
