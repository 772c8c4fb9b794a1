import Mathlib.Algebra.BigOperators.Group.List.Basic
import TemplateValues.Proofs.Consultation
import TemplateValues.Proofs.Product

/-!
# What becomes of a site

A site is resolved variable by variable, and what is known of the variables is then multiplied out.  Both
halves of this work go through the parts of the template and leave out repetitions, each on its own.  Here
they are brought together: the variables that branch in the product are just those that were resolved to
something, each with the set that its first appearance was resolved to (`branching_resolved`).

The main statement is `site_expanded`.
-/

namespace TemplateValues

open Template

namespace Template

/-! ## Variables in order of appearance -/

def Part.place? (e : String) : Part → Option Position
  | .static _ => none
  | .hole f p => if f = e then some p else none

/-- The distinct expressions of a template, in order of first appearance. -/
def expressions (parts : List Part) : List String := (parts.filterMap Part.expression?).eraseDups

/-- The distinct expressions of a template, each with the place of its first appearance. -/
def firstPlaces (parts : List Part) : List (String × Position) :=
  (expressions parts).filterMap fun e => (parts.findSome? (Part.place? e)).map fun p => (e, p)

theorem map_fst_variables (site : Site) : site.variables.map Prod.fst = expressions site.parts := by
  rw [Site.variables, map_fst_variablesFrom, expressions]
  simp

theorem findSome?_place_of_mem {seen : List String} {parts : List Part} {x : String × Position}
    (member : x ∈ variablesFrom seen parts) :
    x.1 ∉ seen ∧ parts.findSome? (Part.place? x.1) = some x.2 := by
  -- that it was not seen before is needed to pass over the parts in front of it
  induction parts generalizing seen with
  | nil => cases member
  | cons part parts ih =>
    cases part with
    | static text => exact ih member
    | hole e p =>
      rw [variablesFrom] at member
      by_cases old : seen.contains e
      · rw [if_pos old] at member
        obtain ⟨new, place⟩ := ih member
        have other : e ≠ x.1 := by
          rintro rfl
          exact new (List.contains_iff_mem.mp old)
        exact ⟨new, by simpa [Part.place?, other] using place⟩
      · rw [if_neg old] at member
        rcases List.mem_cons.mp member with rfl | member
        · exact ⟨fun there => old (List.contains_iff_mem.mpr there), by simp [Part.place?]⟩
        · obtain ⟨new, place⟩ := ih member
          have other : e ≠ x.1 := by
            rintro rfl
            exact new List.mem_cons_self
          refine ⟨fun there => new (List.mem_cons_of_mem e there), ?_⟩
          simpa [Part.place?, other] using place

theorem nodup_variablesFrom (seen : List String) (parts : List Part) :
    ((variablesFrom seen parts).map Prod.fst).Nodup := by
  induction parts generalizing seen with
  | nil => exact List.nodup_nil
  | cons part parts ih =>
    cases part with
    | static text => exact ih seen
    | hole e p =>
      rw [variablesFrom]
      split
      · exact ih seen
      · refine List.nodup_cons.mpr ⟨fun again => ?_, ih (e :: seen)⟩
        obtain ⟨x, member, same⟩ := List.mem_map.mp again
        exact (findSome?_place_of_mem member).1 (same ▸ List.mem_cons_self)

theorem nodup_expressions (parts : List Part) : (expressions parts).Nodup := by
  rw [← map_fst_variables ⟨parts, default, default⟩]
  exact nodup_variablesFrom [] parts

theorem variables_eq_firstPlaces (site : Site) : site.variables = firstPlaces site.parts := by
  rw [firstPlaces, ← map_fst_variables, List.filterMap_map]
  have each : ∀ x ∈ site.variables,
      (site.parts.findSome? (Part.place? x.1)).map (fun p => (x.1, p)) = some x := by
    intro x member
    rw [(findSome?_place_of_mem member).2]
    rfl
  exact ((List.filterMap_congr each).trans List.filterMap_some).symm

/-! ## The product of what is resolved -/

def resolved (answers : List (String × LiteralSet)) : Known := answers.filter fun x => !x.2.isEmpty

theorem resolved_cons (x : String × LiteralSet) (answers : List (String × LiteralSet)) :
    resolved (x :: answers) = if x.2.isEmpty then resolved answers else x :: resolved answers := by
  cases empty : x.2.isEmpty <;> simp [resolved, empty]

theorem values?_of_mem {answers : List (String × LiteralSet)}
    (distinct : (answers.map Prod.fst).Nodup) {e : String} {values : LiteralSet}
    (member : (e, values) ∈ answers) :
    (resolved answers).values? e = if values.isEmpty then none else some values := by
  induction answers with
  | nil => cases member
  | cons y answers ih =>
    obtain ⟨new, distinct'⟩ := List.nodup_cons.mp distinct
    rw [resolved_cons]
    rcases List.mem_cons.mp member with rfl | later
    · cases empty : values.isEmpty with
      | true =>
        -- no other answer is about the same expression
        have missing : (resolved answers).lookup e = none := by
          rw [List.lookup_eq_none_iff]
          intro z among
          have there : z.1 ∈ answers.map Prod.fst := List.mem_map_of_mem (List.mem_filter.mp among).1
          exact bne_iff_ne.mpr fun same => new (same ▸ there)
        simp [Known.values?, missing]
      | false => simp [Known.values?, empty]
    · obtain ⟨f, others⟩ := y
      have other : (e == f) = false := by
        refine beq_false_of_ne fun same => new ?_
        exact List.mem_map.mpr ⟨(e, values), later, same⟩
      rw [← ih distinct' later]
      split
      · rfl
      · simp [Known.values?, List.lookup_cons, other]

/-- The variables that branch are those that were resolved to something, in the order in which they were
resolved. -/
theorem branching_resolved {parts : List Part} {answers : List (String × LiteralSet)}
    (names : answers.map Prod.fst = expressions parts) :
    branching parts (resolved answers) = resolved answers := by
  have distinct : (answers.map Prod.fst).Nodup := by
    rw [names]
    exact nodup_expressions parts
  have each : ∀ x ∈ answers,
      ((resolved answers).values? x.1).map (fun values => (x.1, values)) =
        Option.guard (fun x => !x.2.isEmpty) x := by
    intro x member
    rw [values?_of_mem distinct member]
    cases empty : x.2.isEmpty <;> simp [Option.guard, empty]
  calc branching parts (resolved answers)
    _ = (expressions parts).filterMap fun e =>
        ((resolved answers).values? e).map fun values => (e, values) := by
      rw [← map_fst_variables ⟨parts, default, default⟩, List.filterMap_map, branching_eq]
      rfl
    _ = answers.filterMap fun x =>
        ((resolved answers).values? x.1).map fun values => (x.1, values) := by
      rw [← names, List.filterMap_map]
      rfl
    _ = resolved answers := by
      rw [List.filterMap_congr each, resolved]
      exact congrFun List.filterMap_eq_filter answers

theorem length_product {α : Type} (lists : List (List α)) :
    (product lists).length = (lists.map List.length).prod := by
  induction lists with
  | nil => rfl
  | cons values rest ih => simp [product, List.length_flatMap, ih]

/-- What a template becomes with the variables that were resolved. -/
theorem combinations_resolved {parts : List Part} {answers : List (String × LiteralSet)}
    (names : answers.map Prod.fst = expressions parts) (maxValues maxCombinations : Nat) :
    let known := resolved answers
    let tuples := product (known.map fun x => x.2.values.take (max maxValues 1))
    let result := combinations parts known maxValues maxCombinations
    result.values = (tuples.map (textOfTuple parts (known.map Prod.fst))).take maxCombinations ∧
    (result.truncated = true ↔
      (∃ x ∈ known, max maxValues 1 < x.2.size) ∨ maxCombinations < tuples.length) ∧
    result.values.length =
      min maxCombinations (known.map fun x => min (max maxValues 1) x.2.size).prod := by
  intro known tuples result
  have found := expand_eq (render parts)
    (known.map fun x => (x.1, x.2.values.take (max maxValues 1))) [] maxCombinations
  simp only [List.map_map, Function.comp_def, List.nil_append, render_zip] at found
  have shown : result = ⟨(tuples.map (textOfTuple parts (known.map Prod.fst))).take maxCombinations,
      decide (maxCombinations < tuples.length) || known.any fun x => max maxValues 1 < x.2.size⟩ := by
    simp only [result, combinations, known, branching_resolved names]
    rw [found]
  have count : tuples.length = (known.map fun x => min (max maxValues 1) x.2.size).prod := by
    simp [tuples, length_product, Function.comp_def, LiteralSet.size]
  rw [shown]
  refine ⟨rfl, ?_, ?_⟩
  · rw [Bool.or_eq_true, decide_eq_true_eq, or_comm, List.any_eq_true]
    exact or_congr_left (exists_congr fun x => and_congr_right fun _ => decide_eq_true_iff)
  · simp only [List.length_take, List.length_map, count]

/-- The resolution of a site is the bounded product of the sets of its variables, where `sets` are those of
the distinct expressions in order of first appearance. -/
structure Resolution.Multiplies (limits : Limits) (site : Site) (sets : List LiteralSet)
    (result : Resolution) : Prop where
  anchor : result.anchor = site.anchor
  start : result.start = site.start
  total : result.totalVariables = (expressions site.parts).length
  resolved : result.resolvedVariables = sets.countP fun values => !values.isEmpty
  some_resolved : 1 ≤ result.resolvedVariables
  at_most_all : result.resolvedVariables ≤ result.totalVariables
  combinations :
    let known := Template.resolved ((expressions site.parts).zip sets)
    let tuples := product (known.map fun x => x.2.values.take (max limits.maxValuesPerVariable 1))
    result.combinations =
        (tuples.map (textOfTuple site.parts (known.map Prod.fst))).take limits.maxCombinations ∧
      (result.truncated = true ↔
        (∃ x ∈ known, max limits.maxValuesPerVariable 1 < x.2.size) ∨
          limits.maxCombinations < tuples.length) ∧
      result.combinations.length = min limits.maxCombinations
        (known.map fun x => min (max limits.maxValuesPerVariable 1) x.2.size).prod

def Site.resolution? (limits : Limits) (site : Site) (sets : List LiteralSet) : Option Resolution :=
  let known := resolved ((expressions site.parts).zip sets)
  let combined := combinations site.parts known limits.maxValuesPerVariable limits.maxCombinations
  if known.isEmpty then none
  else some
    { anchor := site.anchor
      start := site.start
      combinations := combined.values
      truncated := combined.truncated
      resolvedVariables := known.length
      totalVariables := (expressions site.parts).length }

section Resolution

variable {limits : Limits} {site : Site} {sets : List LiteralSet}

/-- As many variables are resolved as there are sets with values. -/
theorem length_resolved {names : List String} (lengths : sets.length = names.length) :
    (resolved (names.zip sets)).length = sets.countP fun values => !values.isEmpty := by
  calc (resolved (names.zip sets)).length
    _ = (names.zip sets).countP fun x => !x.2.isEmpty := List.countP_eq_length_filter.symm
    _ = ((names.zip sets).map Prod.snd).countP fun values => !values.isEmpty := by
      rw [List.countP_map]
      rfl
    _ = sets.countP fun values => !values.isEmpty := by
      rw [List.map_snd_zip lengths.le]

theorem resolution?_eq_none (lengths : sets.length = (expressions site.parts).length) :
    site.resolution? limits sets = none ↔ ∀ values ∈ sets, values.isEmpty := by
  have nothing : (resolved ((expressions site.parts).zip sets)).isEmpty ↔
      ∀ values ∈ sets, values.isEmpty := by
    rw [List.isEmpty_iff_length_eq_zero, length_resolved lengths, List.countP_eq_zero]
    simp
  rw [← nothing]
  simp [Site.resolution?]

theorem multiplies_of_mem (lengths : sets.length = (expressions site.parts).length)
    {result : Resolution} (member : result ∈ site.resolution? limits sets) :
    result.Multiplies limits site sets := by
  obtain ⟨known, shown⟩ := Option.mem_ite_none_left.mp member
  obtain rfl := Option.mem_some.mp shown
  refine ⟨rfl, rfl, rfl, length_resolved lengths, ?_, ?_, ?_⟩
  · exact List.length_pos_of_ne_nil fun nothing => known (List.isEmpty_iff.mpr nothing)
  · calc (resolved ((expressions site.parts).zip sets)).length
      _ = sets.countP fun values => !values.isEmpty := length_resolved lengths
      _ ≤ sets.length := List.countP_le_length
      _ = (expressions site.parts).length := lengths
  · exact combinations_resolved (List.map_fst_zip lengths.ge) limits.maxValuesPerVariable
      limits.maxCombinations

end Resolution

end Template

/-! ## One variable after the other -/

section Run

variable {σ : Type} (r : Resolver σ) (s : Source)

def Resolver.answers (asked : List (String × Position)) : Work σ (List LiteralSet) :=
  asked.mapM fun x => r.resolveVariable s x.1 x.2

section Answers

variable {r s} {e : String} {p : Position} {o o' : σ}

theorem answers_of_none (first : r.resolveVariable s e p o = (none, o'))
    (asked : List (String × Position)) : r.answers s ((e, p) :: asked) o = (none, o') := by
  rw [Resolver.answers, List.mapM_cons, Work.bind_of_none first]

theorem answers_of_some {values : LiteralSet} (first : r.resolveVariable s e p o = (some values, o'))
    (asked : List (String × Position)) :
    r.answers s ((e, p) :: asked) o =
      ((r.answers s asked o').1.map (values :: ·), (r.answers s asked o').2) := by
  rw [Resolver.answers, List.mapM_cons, Work.bind_of_some first, Work.bind_return, Resolver.answers]

end Answers

theorem length_answers (asked : List (String × Position)) (o : σ) :
    ∀ sets ∈ (r.answers s asked o).1, sets.length = asked.length := by
  induction asked generalizing o with
  | nil =>
    rintro sets ⟨⟩
    rfl
  | cons x asked ih =>
    rcases first : r.resolveVariable s x.1 x.2 o with ⟨_ | values, o'⟩
    · rw [answers_of_none first]
      rintro sets ⟨⟩
    · rw [answers_of_some first]
      intro sets member
      obtain ⟨others, member', rfl⟩ := Option.map_eq_some_iff.mp member
      rw [List.length_cons, List.length_cons, ih o' others member']

theorem resolveVariables_eq (asked : List (String × Position)) (o : σ) :
    r.resolveVariables s asked o =
      ((r.answers s asked o).1.map fun sets => resolved ((asked.map Prod.fst).zip sets),
        (r.answers s asked o).2) := by
  induction asked generalizing o with
  | nil => rfl
  | cons x asked ih =>
    rcases first : r.resolveVariable s x.1 x.2 o with ⟨_ | values, o'⟩
    · rw [answers_of_none first, Resolver.resolveVariables, Work.bind_of_none first]
      rfl
    · rw [answers_of_some first, Resolver.resolveVariables, Work.bind_of_some first, Work.bind_return, ih]
      simp only [Option.map_map, List.map_cons]
      congr 2
      funext sets
      simp only [Function.comp_apply, List.zip_cons_cons, resolved_cons]

/-- Resolving a variable puts questions about its place only. -/
theorem resolveVariable_asks (expression : String) (p : Position) (o : σ) (log : List LogEntry) :
    ∃ questions : List LogEntry,
      (∀ entry ∈ questions, entry.path = s.path ∧ entry.position = p) ∧
      r.logged.resolveVariable s expression p (o, log) =
        ((r.resolveVariable s expression p o).1, (r.resolveVariable s expression p o).2,
          questions.reverse ++ log) := by
  obtain ⟨values, state⟩ := resolveVariable_logged r s expression p o log
  -- only what happens to the log is left to be seen
  suffices logged : ∃ questions : List LogEntry,
      (∀ entry ∈ questions, entry.path = s.path ∧ entry.position = p) ∧
      (r.logged.resolveVariable s expression p (o, log)).2.2 = questions.reverse ++ log by
    obtain ⟨questions, about, logged⟩ := logged
    exact ⟨questions, about, Prod.ext values (Prod.ext state logged)⟩
  rw [resolveVariable_eq]
  split
  · -- nothing else has values, so the oracle is consulted
    simp only [Resolver.byOracle, Resolver.logged]
    cases r.oracle with
    | none => exact ⟨[], by simp, rfl⟩
    | some service =>
      obtain ⟨records, w, o', -, consulted⟩ := Oracle.course_logged service r.codebase s p
        (.start r.limits.maxResolutionDepth) o log
      refine ⟨(Oracle.questions s.path p records).reverse, ?_, ?_⟩
      · intro entry member
        simp only [Oracle.questions, List.reverse_reverse, List.mem_flatMap, List.mem_replicate] at member
        obtain ⟨record, -, -, rfl⟩ := member
        exact ⟨rfl, rfl⟩
      · simp only [Option.map_some, consulted, List.reverse_reverse]
  · exact ⟨[], by simp, rfl⟩

theorem answers_asks (asked : List (String × Position)) (o : σ) (log : List LogEntry) :
    ∃ questions : List (List LogEntry),
      List.Forall₂ (fun x own => ∀ entry ∈ own, entry.path = s.path ∧ entry.position = x.2)
        asked questions ∧
      r.logged.answers s asked (o, log) =
        ((r.answers s asked o).1, (r.answers s asked o).2, questions.flatten.reverse ++ log) := by
  induction asked generalizing o log with
  | nil => exact ⟨[], .nil, rfl⟩
  | cons x asked ih =>
    obtain ⟨own, about, logged⟩ := resolveVariable_asks r s x.1 x.2 o log
    rcases first : r.resolveVariable s x.1 x.2 o with ⟨_ | values, o'⟩ <;> rw [first] at logged
    · -- there is no end to the first, so nothing is asked for the others
      refine ⟨own :: asked.map fun _ => [], .cons about ?_, ?_⟩
      · exact List.forall₂_map_right_iff.mpr (List.forall₂_same.mpr (by simp))
      · rw [answers_of_none first, answers_of_none logged]
        simp
    · obtain ⟨others, each, rest⟩ := ih o' (own.reverse ++ log)
      refine ⟨own :: others, .cons about each, ?_⟩
      -- the log has the last question first
      rw [answers_of_some first, answers_of_some logged, rest]
      simp only [List.flatten_cons, List.reverse_append, List.append_assoc]

theorem resolveSite_eq (site : Site) (o : σ) :
    r.resolveSite s site o =
      ((r.answers s (firstPlaces site.parts) o).1.map (site.resolution? r.limits),
        (r.answers s (firstPlaces site.parts) o).2) := by
  have first := resolveVariables_eq r s site.variables o
  rw [map_fst_variables, variables_eq_firstPlaces] at first
  rw [Resolver.resolveSite, variables_eq_firstPlaces]
  rcases answered : r.answers s (firstPlaces site.parts) o with ⟨_ | sets, o'⟩ <;> rw [answered] at first
  · rw [Work.bind_of_none first]
    rfl
  · rw [Work.bind_of_some first]
    simp only [Option.map_some, Site.resolution?, ← map_fst_variables, ← variables_eq_firstPlaces,
      List.length_map]
    split <;> rfl

/-! ## The site as a whole -/

/-- Each distinct expression of a site is resolved once, in order of first appearance and at the place of
its first appearance, and what is put to an oracle comes in this order.  The site is left out if nothing is
known about any of them, and otherwise becomes the bounded product of what is known. -/
theorem site_expanded (site : Site) (o : σ) :
    let asked := firstPlaces site.parts
    let answers := r.answers s asked o
    asked.map Prod.fst = expressions site.parts ∧
    (r.resolveSite s site o).2 = answers.2 ∧
    (∀ log, ∃ questions : List (List LogEntry),
      List.Forall₂ (fun x own => ∀ entry ∈ own, entry.path = s.path ∧ entry.position = x.2)
        asked questions ∧
      r.logged.resolveSite s site (o, log) =
        ((r.resolveSite s site o).1, (r.resolveSite s site o).2,
          questions.flatten.reverse ++ log)) ∧
    ((r.resolveSite s site o).1 = none ↔ answers.1 = none) ∧
    ∀ sets ∈ answers.1, ∃ result, (r.resolveSite s site o).1 = some result ∧
      (result = none ↔ ∀ values ∈ sets, values.isEmpty) ∧
      ∀ resolution ∈ result, resolution.Multiplies r.limits site sets := by
  intro asked answers
  have names : asked.map Prod.fst = expressions site.parts := by
    rw [← map_fst_variables, variables_eq_firstPlaces]
  rw [resolveSite_eq]
  refine ⟨names, rfl, ?_, Option.map_eq_none_iff, ?_⟩
  · intro log
    obtain ⟨questions, each, logged⟩ := answers_asks r s asked o log
    refine ⟨questions, each, ?_⟩
    rw [resolveSite_eq, logged]
    rfl
  · intro sets answered
    have lengths : sets.length = (expressions site.parts).length := by
      rw [← names, List.length_map]
      exact length_answers r s asked o sets answered
    exact ⟨_, Option.map_eq_some_iff.mpr ⟨sets, answered, rfl⟩, resolution?_eq_none lengths,
      fun _ => multiplies_of_mem lengths⟩

end Run

end TemplateValues
