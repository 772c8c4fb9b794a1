import Mathlib.Data.List.Forall2
import Mathlib.Data.List.TakeWhile
import TemplateValues.Proofs.Json.Reading

/-!
# Reading records

What readers of strings, arrays, objects and records make of the values they expect, from the text of a
value alone (`Takes`).  A value of no interest is passed over, whatever it is (`takes_ignore`).
-/

namespace TemplateValues.Json

theorem isBlank_nil : IsBlank [] := by simp [IsBlank]

/-- A number is written with or without a sign in front of its first digit. -/
theorem Numeral.split {n : Reader.Number} {cs : List Char} (numeral : Numeral n cs) :
    ∃ d ds fraction exponent, n.whole = d :: ds ∧ d.isDigit ∧ Fraction n.fraction fraction ∧
      Exponent n.exponent exponent ∧
      (cs = '-' :: (n.whole ++ (fraction ++ exponent)) ∨ cs = d :: (ds ++ (fraction ++ exponent))) := by
  obtain ⟨⟨isDigits, -⟩, fraction, exponent, isFraction, isExponent, rfl⟩ := numeral
  obtain ⟨d, ds, whole⟩ := List.exists_cons_of_ne_nil isDigits.1
  refine ⟨d, ds, fraction, exponent, whole, isDigits.2 d (by simp [whole]), isFraction, isExponent, ?_⟩
  cases sign : n.negative with
  | true => exact .inl (by simp)
  | false => exact .inr (by simp [whole])

namespace Reader

/-- The reader takes texts of the value, shorter than `n`, as `a`: blanks in front go too, and all that
follows is left. -/
def TakesBelow {α : Type} (n : Nat) (p : Reader α) (v : Value) (a : α) : Prop :=
  ∀ w c rest, IsBlank w → Bare v c → c.length < n → Ends rest → p.run (w ++ (c ++ rest)) = .ok (a, rest)

def Takes {α : Type} (p : Reader α) (v : Value) (a : α) : Prop := ∀ n, TakesBelow n p v a

/-! ## Arrays -/

section Arrays

variable {α : Type} {p : Reader α} {n : Nat}

theorem run_elements {vs : List Value} {as : List α} (takes : List.Forall₂ (TakesBelow n p) vs as)
    {first : Bool} {k : Nat} {cs w : List Char} (items : Items Bare first vs cs) (blank : IsBlank w)
    (room : cs.length < k) (short : cs.length < n) (rest : List Char) :
    (elements p k first).run (cs ++ (w ++ ']' :: rest)) = .ok (as, rest) := by
  induction takes generalizing first cs k with
  | nil =>
    obtain ⟨k, rfl⟩ : ∃ j, k = j + 1 := ⟨k - 1, by omega⟩
    cases items
    rw [elements, List.nil_append, run_bind_of_ok (run_anotherElement_end blank first rest),
      if_neg Bool.false_ne_true]
    exact run_bind_of_ok (run_close isBlank_nil (by decide) rest)
  | cons take _ ih =>
    obtain ⟨k, rfl⟩ : ∃ j, k = j + 1 := ⟨k - 1, by omega⟩
    cases items with
    | @cons _ s _ c _ cs separator bare items =>
      obtain ⟨x, c', rfl, ink, open'⟩ := bare.front
      simp only [List.length_append, List.length_cons] at room short
      have ends : Ends (cs ++ (w ++ ']' :: rest)) := items.ends blank (by simp [IsNumeric]) rest
      have taken := take [] (x :: c') _ isBlank_nil bare (by rw [List.length_cons]; omega) ends
      have others := ih (k := k) items (by omega) (by omega)
      simp only [List.append_assoc, List.cons_append, List.nil_append] at taken ⊢
      rw [elements, run_bind_of_ok (run_anotherElement separator ink open' _), if_pos rfl,
        run_bind_of_ok taken, run_bind_of_ok others]
      rfl

theorem takes_array {vs : List Value} {as : List α} (takes : List.Forall₂ (Takes p) vs as) :
    Takes (array p) (.array vs) as := by
  intro n w c rest blank bare short ends
  obtain ⟨inner, w', items, blank', rfl⟩ := bare_array bare
  have inside := run_elements (takes.imp fun _ _ take => take (inner.length + 1)) items blank'
    (length_lt_append inner (w' ++ ']' :: rest)) (by omega) rest
  simp only [List.cons_append, List.append_assoc, List.nil_append]
  rw [array, run_bind_of_ok (run_peekValue blank (by decide) _), if_pos rfl,
    run_bind_of_ok (run_skip _ _), run_bind_of_ok (run_get _), inside]

end Arrays

/-! ## Objects -/

/-- The key that a reader finds ahead, and what stands behind it. -/
theorem run_anotherKey_member {first : Bool} {key : List Nat} {v : Value} {ms : List (List Nat × Value)}
    {cs w : List Char} (items : Items Member first ((key, v) :: ms) cs) (blank : IsBlank w)
    (rest : List Char) :
    ∃ k u u' c others, Quotes key k ∧ IsBlank u ∧ IsBlank u' ∧ Bare v c ∧ Items Member false ms others ∧
      c.length + others.length < cs.length ∧ Ends (others ++ (w ++ '}' :: rest)) ∧
      (anotherKey first).run (cs ++ (w ++ '}' :: rest)) =
        .ok (true, '"' :: (k ++ '"' :: (u ++ ':' :: (u' ++ (c ++ (others ++ (w ++ '}' :: rest))))))) := by
  cases items with
  | @cons _ s _ _ _ others separator member items =>
    cases member with
    | @mk _ _ k u u' c quotes blank₁ blank₂ bare =>
      refine ⟨k, u, u', c, others, quotes, blank₁, blank₂, bare, items, ?_,
        items.ends blank (by simp [IsNumeric]) rest, ?_⟩
      · simp only [List.length_append, List.length_cons]
        omega
      · simp only [List.cons_append, List.append_assoc]
        exact run_anotherKey separator _

section Objects

variable {α : Type} {p : Reader α}

theorem run_members {ms : List (List Nat × Value)} {es : List (String × α)}
    (takes : List.Forall₂ (fun m e => m.1 = units e.1 ∧ Takes p m.2 e.2) ms es) {first : Bool}
    {k : Nat} {cs w : List Char} (items : Items Member first ms cs) (blank : IsBlank w)
    (room : cs.length < k) (rest : List Char) :
    (members p k first).run (cs ++ (w ++ '}' :: rest)) = .ok (es, rest) := by
  induction takes generalizing first cs k with
  | nil =>
    obtain ⟨k, rfl⟩ : ∃ j, k = j + 1 := ⟨k - 1, by omega⟩
    cases items
    rw [members, List.nil_append, run_bind_of_ok (run_anotherKey_end blank first rest),
      if_neg Bool.false_ne_true]
    exact run_bind_of_ok (run_close isBlank_nil (by decide) rest)
  | @cons m e ms es take _ ih =>
    obtain ⟨k, rfl⟩ : ∃ j, k = j + 1 := ⟨k - 1, by omega⟩
    obtain ⟨key, v⟩ := m
    obtain ⟨rfl, take⟩ := take
    obtain ⟨q, u, u', c, cs', quotes, blank₁, blank₂, bare, items, shorter, ends, found⟩ :=
      run_anotherKey_member items blank rest
    have taken := take (c.length + 1) u' c _ blank₂ bare (by omega) ends
    have others := ih (k := k) items (by omega)
    rw [members, run_bind_of_ok found, if_pos rfl, run_bind_of_ok (run_skip _ _),
      run_bind_of_ok (run_stringTail quotes _), run_bind_of_ok (run_colon blank₁ _),
      run_bind_of_ok taken, run_bind_of_ok others]
    rfl

theorem takes_object {ms : List (List Nat × Value)} {es : List (String × α)}
    (takes : List.Forall₂ (fun m e => m.1 = units e.1 ∧ Takes p m.2 e.2) ms es) :
    Takes (object p) (.object ms) es := by
  intro n w c rest blank bare short ends
  obtain ⟨inner, w', items, blank', rfl⟩ := bare_object bare
  have inside := run_members takes items blank' (length_lt_append inner (w' ++ '}' :: rest)) rest
  simp only [List.cons_append, List.append_assoc, List.nil_append]
  rw [object, run_bind_of_ok (run_peekValue blank (by decide) _), if_pos rfl,
    run_bind_of_ok (run_skip _ _), run_bind_of_ok (run_get _), inside]

end Objects

/-! ## Strings and null -/

theorem takes_string (text : String) : Takes string (.string (units text)) text := by
  intro n w c rest blank bare _ _
  obtain ⟨q, quotes, rfl⟩ := bare_string bare
  simp only [List.cons_append, List.append_assoc, List.nil_append]
  rw [string, run_bind_of_ok (run_peekValue blank (by decide) _), if_pos rfl,
    run_bind_of_ok (run_skip _ _), run_stringTail quotes]

theorem takes_nullable_null {α : Type} (p : Reader α) : Takes (nullable p) .null none := by
  intro n w c rest blank bare _ _
  obtain rfl := bare_null bare
  simp only [List.cons_append]
  rw [nullable, run_bind_of_ok (run_peekValue blank (by decide) _), if_pos rfl,
    run_bind_of_ok (run_skip _ _)]
  exact run_bind_of_ok (run_letters ['u', 'l', 'l'] rest)

/-- Only `null` starts with its first letter. -/
theorem front_ne {v : Value} (other : v ≠ .null) {x : Char} {cs : List Char} (bare : Bare v (x :: cs)) :
    x ≠ 'n' := by
  rintro rfl
  cases v with
  | null => exact other rfl
  | bool b => cases b <;> simpa using bare_bool bare
  | number m =>
    obtain ⟨d, ds, fraction, exponent, -, digit, -, -, split | split⟩ := (bare_number bare).split
    · cases split
    · obtain ⟨rfl, -⟩ := List.cons.inj split
      exact absurd digit (by decide)
  | string us => obtain ⟨q, -, split⟩ := bare_string bare; cases split
  | array vs => obtain ⟨inner, w, -, -, split⟩ := bare_array bare; cases split
  | object ms => obtain ⟨inner, w, -, -, split⟩ := bare_object bare; cases split

theorem Takes.map {α β : Type} {p : Reader α} {v : Value} {a : α} (takes : Takes p v a) (f : α → β) :
    Takes (do return f (← p)) v (f a) :=
  fun n w c rest blank bare short ends => run_bind_of_ok (takes n w c rest blank bare short ends)

theorem takes_nullable {α : Type} {p : Reader α} {v : Value} {a : α} (takes : Takes p v a)
    (other : v ≠ .null) : Takes (nullable p) v (some a) := by
  intro n w c rest blank bare short ends
  obtain ⟨x, c, rfl, ink, -⟩ := bare.front
  have taken := takes n [] (x :: c) rest isBlank_nil bare short ends
  rw [List.nil_append, List.cons_append] at taken
  rw [List.cons_append, nullable, run_bind_of_ok (run_peekValue blank ink _),
    if_neg (front_ne other bare), run_bind_of_ok taken]
  rfl

/-! ## Values passed over -/

theorem run_ignoreMembers {n : Nat} (takes : ∀ v, TakesBelow n (ignoreUpTo n) v ())
    {ms : List (List Nat × Value)} {first : Bool} {k : Nat} {cs w : List Char}
    (items : Items Member first ms cs) (blank : IsBlank w) (room : cs.length < k)
    (short : cs.length < n) (rest : List Char) :
    (ignoreUpTo.ignoreMembers n k first).run (cs ++ (w ++ '}' :: rest)) = .ok ((), rest) := by
  induction ms generalizing first cs k with
  | nil =>
    obtain ⟨k, rfl⟩ : ∃ j, k = j + 1 := ⟨k - 1, by omega⟩
    cases items
    rw [ignoreUpTo.ignoreMembers, List.nil_append, run_bind_of_ok (run_anotherKey_end blank first rest),
      if_neg Bool.false_ne_true]
    exact run_close isBlank_nil (by decide) rest
  | cons m ms ih =>
    obtain ⟨k, rfl⟩ : ∃ j, k = j + 1 := ⟨k - 1, by omega⟩
    obtain ⟨q, u, u', c, cs', quotes, blank₁, blank₂, bare, items, shorter, ends, found⟩ :=
      run_anotherKey_member items blank rest
    have taken := takes m.2 u' c _ blank₂ bare (by omega) ends
    have others := ih (k := k) items (by omega) (by omega)
    rw [ignoreUpTo.ignoreMembers, run_bind_of_ok found, if_pos rfl, run_bind_of_ok (run_skip _ _),
      run_bind_of_ok (run_get _), run_bind_of_ok (run_ignoreString quotes (length_lt_append q _) _),
      run_bind_of_ok (run_colon blank₁ _), run_bind_of_ok taken, others]

theorem takesBelow_ignoreUpTo (n : Nat) (v : Value) : TakesBelow n (ignoreUpTo n) v () := by
  -- One depth for each character is enough: what stands in brackets is shorter than the whole.
  induction n generalizing v with
  | zero => intro w c rest _ _ short; omega
  | succ n ih =>
    intro w c rest blank bare short ends
    obtain ⟨x, others, rfl, ink, -⟩ := bare.front
    rw [ignoreUpTo, List.cons_append, run_bind_of_ok (run_peekValue blank ink _)]
    cases v with
    | null =>
      obtain ⟨rfl, rfl⟩ := List.cons.inj (bare_null bare)
      exact (run_bind_of_ok (run_skip _ _)).trans (run_letters ['u', 'l', 'l'] rest)
    | bool b =>
      cases b with
      | true =>
        obtain ⟨rfl, rfl⟩ := List.cons.inj (bare_bool bare)
        exact (run_bind_of_ok (run_skip _ _)).trans (run_letters ['r', 'u', 'e'] rest)
      | false =>
        obtain ⟨rfl, rfl⟩ := List.cons.inj (bare_bool bare)
        exact (run_bind_of_ok (run_skip _ _)).trans (run_letters ['a', 'l', 's', 'e'] rest)
    | number m =>
      have numeral := bare_number bare
      obtain ⟨d, ds, fraction, exponent, whole, digit, isFraction, isExponent, split⟩ := numeral.split
      have passed := run_ignoreNumber isFraction isExponent ends numeral.whole
      rcases split with split | split
      · obtain ⟨rfl, rfl⟩ := List.cons.inj split
        simp only [List.append_assoc]
        exact (run_bind_of_ok (run_skip _ _)).trans passed
      · obtain ⟨rfl, rfl⟩ := List.cons.inj split
        simp only [whole, List.cons_append] at passed
        simp only [List.append_assoc]
        -- No letter, quote or bracket is a digit.
        split
        case h_8 => rw [if_pos digit, passed]
        all_goals exact absurd digit (by decide)
    | string us =>
      obtain ⟨q, quotes, split⟩ := bare_string bare
      obtain ⟨rfl, rfl⟩ := List.cons.inj split
      simp only [List.append_assoc, List.cons_append, List.nil_append]
      rw [run_bind_of_ok (run_skip _ _), run_bind_of_ok (run_get _),
        run_ignoreString quotes (length_lt_append q _)]
    | array vs =>
      obtain ⟨inner, w', items, blank', split⟩ := bare_array bare
      obtain ⟨rfl, rfl⟩ := List.cons.inj split
      have takes : List.Forall₂ (TakesBelow n (ignoreUpTo n)) vs (vs.map fun _ => ()) := by
        rw [List.forall₂_map_right_iff, List.forall₂_same]
        exact fun v _ => ih v
      simp only [List.length_cons, List.length_append] at short
      have inside := run_elements takes items blank' (length_lt_append inner (w' ++ ']' :: rest)) (by omega)
        rest
      simp only [List.append_assoc, List.cons_append, List.nil_append]
      rw [run_bind_of_ok (run_skip _ _), run_bind_of_ok (run_get _), run_bind_of_ok inside]
      rfl
    | object ms =>
      obtain ⟨inner, w', items, blank', split⟩ := bare_object bare
      obtain ⟨rfl, rfl⟩ := List.cons.inj split
      simp only [List.length_cons, List.length_append] at short
      have inside := run_ignoreMembers ih items blank' (length_lt_append inner (w' ++ '}' :: rest))
        (by omega) rest
      simp only [List.append_assoc, List.cons_append, List.nil_append]
      rw [run_bind_of_ok (run_skip _ _), run_bind_of_ok (run_get _), inside]

theorem takes_ignore (v : Value) : Takes ignore v () := by
  intro n w c rest blank bare _ ends
  rw [ignore, run_bind_of_ok (run_get _)]
  refine takesBelow_ignoreUpTo _ v w c rest blank bare ?_ ends
  simp only [List.length_append]
  omega

/-! ## Records -/

section Records

variable {α : Type} {fields : List (FieldReader α)}

/-- The members of an object, in order, turn one record into another; `seen` are the names of the fields
that came before. -/
inductive Fills (fields : List (FieldReader α)) :
    List String → α → List (List Nat × Value) → α → Prop where
  | nil {seen a} : Fills fields seen a [] a
  | known {seen a name f v a' ms a''} : fields.find? (·.name = name) = some f → name ∉ seen →
      Takes (f.read a) v a' → Fills fields (name :: seen) a' ms a'' →
      Fills fields seen a ((units name, v) :: ms) a''
  | unknown {seen a name v ms a'} : fields.find? (·.name = name) = none → Fills fields seen a ms a' →
      Fills fields seen a ((units name, v) :: ms) a'

theorem run_recordMembers {seen : List String} {a a' : α} {ms : List (List Nat × Value)}
    (fills : Fills fields seen a ms a') {first : Bool} {k : Nat} {cs w : List Char}
    (items : Items Member first ms cs) (blank : IsBlank w) (room : cs.length < k) (rest : List Char) :
    (recordMembers fields k first seen a).run (cs ++ (w ++ '}' :: rest)) = .ok (a', rest) := by
  induction fills generalizing first cs k with
  | nil =>
    obtain ⟨k, rfl⟩ : ∃ j, k = j + 1 := ⟨k - 1, by omega⟩
    cases items
    rw [recordMembers, List.nil_append, run_bind_of_ok (run_anotherKey_end blank first rest),
      if_neg Bool.false_ne_true]
    exact run_bind_of_ok (run_close isBlank_nil (by decide) rest)
  | @known seen a name f v a' ms a'' field new take _ ih =>
    obtain ⟨k, rfl⟩ : ∃ j, k = j + 1 := ⟨k - 1, by omega⟩
    obtain ⟨q, u, u', c, cs', quotes, blank₁, blank₂, bare, items, shorter, ends, found⟩ :=
      run_anotherKey_member items blank rest
    have taken := take (c.length + 1) u' c _ blank₂ bare (by omega) ends
    have others := ih (k := k) items (by omega)
    rw [recordMembers, run_bind_of_ok found, if_pos rfl, run_bind_of_ok (run_skip _ _),
      run_bind_of_ok (run_stringTail quotes _), field]
    dsimp only
    rw [if_neg (by simpa using new), run_bind_of_ok (run_colon blank₁ _), run_bind_of_ok taken, others]
  | @unknown seen a name v ms a' field _ ih =>
    obtain ⟨k, rfl⟩ : ∃ j, k = j + 1 := ⟨k - 1, by omega⟩
    obtain ⟨q, u, u', c, cs', quotes, blank₁, blank₂, bare, items, shorter, ends, found⟩ :=
      run_anotherKey_member items blank rest
    have passed := takes_ignore v (c.length + 1) u' c _ blank₂ bare (by omega) ends
    have others := ih (k := k) items (by omega)
    rw [recordMembers, run_bind_of_ok found, if_pos rfl, run_bind_of_ok (run_skip _ _),
      run_bind_of_ok (run_stringTail quotes _), field]
    dsimp only
    rw [run_bind_of_ok (run_colon blank₁ _), run_bind_of_ok passed, others]

/-- The elements of an array turn one record into another, one field each. -/
inductive FillsInOrder : List (FieldReader α) → α → List Value → α → Prop where
  | nil {fields a} : FillsInOrder fields a [] a
  | cons {f fields a v a' vs a''} : Takes (f.read a) v a' → FillsInOrder fields a' vs a'' →
      FillsInOrder (f :: fields) a (v :: vs) a''

theorem run_recordElements {a a' : α} {vs : List Value} (fills : FillsInOrder fields a vs a')
    {first : Bool} {cs w : List Char} (items : Items Bare first vs cs) (blank : IsBlank w)
    (rest : List Char) :
    (recordElements fields first a).run (cs ++ (w ++ ']' :: rest)) = .ok (a', rest) := by
  induction fills generalizing first cs with
  | @nil fields a =>
    cases items
    cases fields with
    | nil => exact run_bind_of_ok (run_close blank (by decide) rest)
    | cons f fields =>
      rw [recordElements, List.nil_append, run_bind_of_ok (run_anotherElement_end blank first rest),
        if_neg Bool.false_ne_true]
      exact run_bind_of_ok (run_close isBlank_nil (by decide) rest)
  | cons take _ ih =>
    cases items with
    | @cons _ s _ c _ cs separator bare items =>
      obtain ⟨x, c', rfl, ink, open'⟩ := bare.front
      have ends : Ends (cs ++ (w ++ ']' :: rest)) := items.ends blank (by simp [IsNumeric]) rest
      have taken := take _ [] (x :: c') _ isBlank_nil bare (Nat.lt_succ_self _) ends
      simp only [List.append_assoc, List.cons_append, List.nil_append] at taken ⊢
      rw [recordElements, run_bind_of_ok (run_anotherElement separator ink open' _), if_pos rfl,
        run_bind_of_ok taken, ih items]

theorem takes_record_object {missing a : α} {ms : List (List Nat × Value)}
    (fills : Fills fields [] missing ms a) : Takes (record fields missing) (.object ms) a := by
  intro n w c rest blank bare short ends
  obtain ⟨inner, w', items, blank', rfl⟩ := bare_object bare
  have inside := run_recordMembers fills items blank' (length_lt_append inner (w' ++ '}' :: rest)) rest
  simp only [List.cons_append, List.append_assoc, List.nil_append]
  rw [record, run_bind_of_ok (run_peekValue blank (by decide) _)]
  refine (run_bind_of_ok (run_skip _ _)).trans ?_
  rw [run_bind_of_ok (run_get _), inside]

theorem takes_record_array {missing a : α} {vs : List Value}
    (fills : FillsInOrder fields missing vs a) : Takes (record fields missing) (.array vs) a := by
  intro n w c rest blank bare short ends
  obtain ⟨inner, w', items, blank', rfl⟩ := bare_array bare
  simp only [List.cons_append, List.append_assoc, List.nil_append]
  rw [record, run_bind_of_ok (run_peekValue blank (by decide) _)]
  exact (run_bind_of_ok (run_skip _ _)).trans (run_recordElements fills items blank' rest)

end Records

end Reader

/-! ## What values say -/

def IsString (v : Value) (text : String) : Prop := v = .string (units text)

/-- The object has the entries, in order, as lists of texts under their names. -/
def IsEntries (v : Value) (entries : List (String × List String)) : Prop :=
  v = .object (entries.map fun e => (units e.1, .array (e.2.map fun text => .string (units text))))

/-- The value is `null` and says nothing, or it says something. -/
inductive OrNull {α : Type} (holds : Value → α → Prop) : Value → Option α → Prop where
  | null : OrNull holds .null none
  | some {v a} : holds v a → OrNull holds v (some a)

/-- What the member of the given name says: it stands there once, or else it counts as `missing`. -/
inductive Setting {α : Type} (name : String) (holds : Value → α → Prop) (missing : α) :
    List (List Nat × Value) → α → Prop where
  | missing : Setting name holds missing [] missing
  | given {v a ms} : holds v a → (∀ m ∈ ms, m.1 ≠ units name) →
      Setting name holds missing ((units name, v) :: ms) a
  | other {m ms a} : m.1 ≠ units name → Setting name holds missing ms a →
      Setting name holds missing (m :: ms) a

/-- The value says two things, under their names or else in this order; other members may have any
names that are texts. -/
inductive IsPair {β γ : Type} (name : String) (holds : Value → β → Prop) (missing : β)
    (name' : String) (holds' : Value → γ → Prop) (missing' : γ) : Value → β → γ → Prop where
  | named {ms b c} : (∀ m ∈ ms, ∃ key, m.1 = units key) → Setting name holds missing ms b →
      Setting name' holds' missing' ms c →
      IsPair name holds missing name' holds' missing' (.object ms) b c
  | none : IsPair name holds missing name' holds' missing' (.array []) missing missing'
  | one {v b} : holds v b → IsPair name holds missing name' holds' missing' (.array [v]) b missing'
  | both {v v' b c} : holds v b → holds' v' c →
      IsPair name holds missing name' holds' missing' (.array [v, v']) b c

theorem units_inj {s t : String} (same : units s = units t) : s = t := by
  have chars : ∀ cs ds : List Char, cs.flatMap unitsOf = ds.flatMap unitsOf → cs = ds := by
    intro cs ds
    induction cs generalizing ds with
    | nil =>
      intro same
      cases ds with
      | nil => rfl
      | cons d ds => rcases unitsOf_cases d with ⟨one, -⟩ | ⟨h, l, two, -⟩ <;> simp_all
    | cons c cs ih =>
      intro same
      rw [List.flatMap_cons] at same
      obtain ⟨others, rfl, behind⟩ := exists_of_flatMap_unitsOf same
      rw [ih others behind]
  exact String.toList_injective (chars _ _ same)

section Setting

variable {α : Type} {name : String} {holds : Value → α → Prop} {missing a : α} {v : Value}
  {ms : List (List Nat × Value)}

theorem Setting.head (setting : Setting name holds missing ((units name, v) :: ms) a) :
    holds v a ∧ ∀ m ∈ ms, m.1 ≠ units name := by
  cases setting with
  | given value others => exact ⟨value, others⟩
  | other different => exact absurd rfl different

theorem Setting.tail {key : List Nat} (setting : Setting name holds missing ((key, v) :: ms) a)
    (different : key ≠ units name) : Setting name holds missing ms a := by
  cases setting with
  | given => exact absurd rfl different
  | other _ setting => exact setting

theorem Setting.absent (absent : ∀ m ∈ ms, m.1 ≠ units name) : Setting name holds a ms a := by
  induction ms with
  | nil => exact .missing
  | cons m ms ih =>
    obtain ⟨different, absent⟩ := List.forall_mem_cons.mp absent
    exact .other different (ih absent)

end Setting

namespace Reader

theorem takes_isString {v : Value} {text : String} (value : IsString v text) : Takes string v text := by
  rw [value]
  exact takes_string text

theorem takes_isEntries {v : Value} {entries : List (String × List String)} (value : IsEntries v entries) :
    Takes (object (array string)) v entries := by
  rw [value]
  refine takes_object ?_
  rw [List.forall₂_map_left_iff, List.forall₂_same]
  refine fun e _ => ⟨rfl, takes_array ?_⟩
  rw [List.forall₂_map_left_iff, List.forall₂_same]
  exact fun text _ => takes_string text

theorem takes_orNull {α : Type} {p : Reader α} {holds : Value → α → Prop}
    (takes : ∀ {v a}, holds v a → Takes p v a) (other : ∀ {a}, ¬ holds .null a) {v : Value}
    {a : Option α} (value : OrNull holds v a) : Takes (nullable p) v a := by
  cases value with
  | null => exact takes_nullable_null p
  | some value =>
    refine takes_nullable (takes value) ?_
    rintro rfl
    exact other value

theorem takes_stringOrNull {v : Value} {text : Option String} (value : OrNull IsString v text) :
    Takes (nullable string) v text :=
  takes_orNull takes_isString (fun value => by cases value) value

theorem takes_entriesOrNull {v : Value} {entries : Option (List (String × List String))}
    (value : OrNull IsEntries v entries) : Takes (nullable (object (array string))) v entries :=
  takes_orNull takes_isEntries (fun value => by cases value) value

section Pair

variable {α β γ : Type} (mk : β → γ → α) {name name' : String} {read read' : α → Reader α}
  {holds : Value → β → Prop} {holds' : Value → γ → Prop}
  (takes : ∀ {v b'} b c, holds v b' → Takes (read (mk b c)) v (mk b' c))
  (takes' : ∀ {v c'} b c, holds' v c' → Takes (read' (mk b c)) v (mk b c'))
include takes takes'

theorem fills_pair (different : name ≠ name') {ms : List (List Nat × Value)}
    (named : ∀ m ∈ ms, ∃ key, m.1 = units key) {b b' : β} {c c' : γ}
    (setting : Setting name holds b ms b') (setting' : Setting name' holds' c ms c')
    {seen : List String} (fresh : ∀ key ∈ seen, ∀ m ∈ ms, m.1 ≠ units key) :
    Fills [⟨name, read⟩, ⟨name', read'⟩] seen (mk b c) ms (mk b' c') := by
  induction ms generalizing b c seen with
  | nil =>
    cases setting
    cases setting'
    exact .nil
  | cons m ms ih =>
    obtain ⟨key, v⟩ := m
    obtain ⟨⟨key, rfl⟩, keys⟩ := List.forall_mem_cons.mp named
    have new : key ∉ seen := fun mem => fresh key mem _ List.mem_cons_self rfl
    have later : ∀ key ∈ seen, ∀ m ∈ ms, m.1 ≠ units key :=
      fun key mem => (List.forall_mem_cons.mp (fresh key mem)).2
    by_cases first : key = name
    · -- The value that was read is what counts as missing from here on.
      subst first
      obtain ⟨value, absent⟩ := setting.head
      have rest' := setting'.tail (mt units_inj different)
      refine .known (f := ⟨key, read⟩) (by simp) new (takes b c value) ?_
      exact ih keys (.absent absent) rest' (List.forall_mem_cons.mpr ⟨absent, later⟩)
    · have rest := setting.tail (mt units_inj first)
      by_cases second : key = name'
      · subst second
        obtain ⟨value, absent⟩ := setting'.head
        refine .known (f := ⟨key, read'⟩) (by simp [Ne.symm first]) new (takes' b c value) ?_
        exact ih keys rest (.absent absent) (List.forall_mem_cons.mpr ⟨absent, later⟩)
      · have rest' := setting'.tail (mt units_inj second)
        exact .unknown (by simp [Ne.symm first, Ne.symm second]) (ih keys rest rest' later)

theorem takes_isPair (different : name ≠ name') {missing b : β} {missing' c : γ} {v : Value}
    (value : IsPair name holds missing name' holds' missing' v b c) :
    Takes (record [⟨name, read⟩, ⟨name', read'⟩] (mk missing missing')) v (mk b c) := by
  cases value with
  | named keys setting setting' =>
    exact takes_record_object (fills_pair mk takes takes' different keys setting setting' (by simp))
  | none => exact takes_record_array .nil
  | one value => exact takes_record_array (.cons (takes _ _ value) .nil)
  | both value value' =>
    exact takes_record_array (.cons (takes _ _ value) (.cons (takes' _ _ value') .nil))

end Pair

/-! ## Whole texts -/

theorem read_of_takes {α : Type} {p : Reader α} {v : Value} {a : α} (takes : Takes p v a) {text : String}
    (denotes : Denotes text v) : read p text = .ok a := by
  obtain ⟨ts, reads, spaced⟩ := denotes
  rw [← List.append_nil ts] at spaced
  obtain ⟨front, w', split, inside, behind⟩ := spaced_append spaced
  obtain ⟨w, c, blank, rfl, bare⟩ := Phrase.Text.bare ⟨ts, reads, inside⟩
  -- Nothing but blanks is left behind the last token.
  cases behind with
  | nil blank' =>
    have taken := takes _ w c w' blank bare (Nat.lt_succ_self _) (ends_of_isBlank blank')
    have passed : w'.dropWhile isSpace = [] := List.dropWhile_eq_nil_iff.mpr blank'
    rw [← List.append_assoc, ← split] at taken
    rw [Json.read, taken]
    show (if (w'.dropWhile isSpace).isEmpty then Except.ok a else Except.error Fault.malformed) = .ok a
    rw [passed, if_pos List.isEmpty_nil]

/-- Comments and trailing commas do not matter. -/
theorem read_cleaned {α : Type} {p : Reader α} {v : Value} {a : α} (takes : Takes p v a) {text : String}
    (denotes : DenotesWithComments text v) : read p (stripCommas (stripComments text)) = .ok a := by
  obtain ⟨ts, reads, spaced⟩ := denotes
  obtain ⟨us, strict, -, cleaned⟩ := reads.untrailed
  have tokens : untrailed ts = us := by simpa [untrailed] using cleaned []
  refine read_of_takes takes ⟨us, strict, ?_⟩
  simpa [stripCommas, stripComments, tokens] using spaced.withoutComments.withoutCommas

end Reader

end TemplateValues.Json
