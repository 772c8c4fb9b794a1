import TemplateValues.Proofs.Json.Cleaning

/-!
# Reading what is written

A reader that expects the value that a strict text spells takes the text of this value and nothing else.

Readers look at characters, and the grammar of documents is about tokens.  Between the two stand texts
of values without blanks in front (`Bare`) and texts of items with commas between them (`Items`): that
is what a reader finds ahead.  What a reader does is then stated by `Takes`.
-/

namespace TemplateValues.Json

/-! ## Texts of phrases -/

/-- The characters are the phrase in strict JSON, with blanks in front of it but none behind. -/
def Phrase.Text (p : Phrase) (cs : List Char) : Prop :=
  ∃ ts, Reads false p ts ∧ Spaced IsBlank (· = []) ts cs

def Bare (v : Value) (cs : List Char) : Prop :=
  (Phrase.value v).Text cs ∧ ∃ c rest, cs = c :: rest ∧ Reader.isSpace c = false

/-- What stands in front of an item: blanks, and in front of all but the first a comma. -/
inductive Separator : Bool → List Char → Prop where
  | first {w} : IsBlank w → Separator true w
  | next {w w'} : IsBlank w → IsBlank w' → Separator false (w ++ ',' :: w')

/-- Items with commas between them; the flag says that none came before. -/
inductive Items {β : Type} (item : β → List Char → Prop) : Bool → List β → List Char → Prop where
  | nil {first} : Items item first [] []
  | cons {first s b c bs cs} : Separator first s → item b c → Items item false bs cs →
      Items item first (b :: bs) (s ++ (c ++ cs))

inductive Member : List Nat × Value → List Char → Prop where
  | mk {key v k w w' c} : Quotes key k → IsBlank w → IsBlank w' → Bare v c →
      Member (key, v) ('"' :: (k ++ '"' :: (w ++ ':' :: (w' ++ c))))

theorem isSpace_front {t : Token} {cs : List Char} (spells : t.Spells cs) :
    ∃ c rest, cs = c :: rest ∧ Reader.isSpace c = false := by
  obtain ⟨c, rest, split, ink, -⟩ := spells.front
  refine ⟨c, rest, split, ?_⟩
  by_contra space
  simp [isBlank_of_isSpace (by simpa using space)] at ink

theorem spaced_append {last : List Char → Prop} {ts us : List Token} {cs : List Char}
    (spaced : Spaced IsBlank last (ts ++ us) cs) :
    ∃ front back, cs = front ++ back ∧ Spaced IsBlank (· = []) ts front ∧ Spaced IsBlank last us back := by
  induction ts generalizing cs with
  | nil => exact ⟨[], cs, rfl, .nil rfl, spaced⟩
  | cons t ts ih =>
    cases spaced with
    | cons blank spells rest =>
      obtain ⟨front, back, rfl, before, behind⟩ := ih rest
      exact ⟨_, back, by simp, .cons blank spells before, behind⟩

theorem Phrase.Text.bare {v : Value} {cs : List Char} (text : (Phrase.value v).Text cs) :
    ∃ w c, IsBlank w ∧ cs = w ++ c ∧ Bare v c := by
  obtain ⟨ts, reads, spaced⟩ := text
  cases spaced with
  | nil => exact absurd reads.front (by simp)
  | @cons w t c ts rest blank spells spaced =>
    obtain ⟨x, others, rfl, ink⟩ := isSpace_front spells
    refine ⟨w, _, blank, rfl, ⟨_, reads, ?_⟩, x, _, rfl, ink⟩
    have none : IsBlank [] := by simp [IsBlank]
    exact .cons none spells spaced

theorem Items.next {β : Type} {item : β → List Char → Prop} {b : β} {bs : List β} {w cs : List Char}
    (blank : IsBlank w) (items : Items item true (b :: bs) cs) :
    Items item false (b :: bs) (w ++ ',' :: cs) := by
  cases items with
  | cons separator first others =>
    cases separator with
    | first blank' =>
      have together := Items.cons (.next blank blank') first others
      simpa using together

theorem text_elements {vs : List Value} {cs : List Char} (text : (Phrase.elements vs).Text cs) :
    Items Bare true vs cs ∧ vs ≠ [] := by
  induction vs generalizing cs with
  | nil => obtain ⟨ts, reads, -⟩ := text; cases reads
  | cons v vs ih =>
    refine ⟨?_, List.cons_ne_nil v vs⟩
    obtain ⟨ts, reads, spaced⟩ := text
    cases reads with
    | lastElement reads =>
      obtain ⟨w, c, blank, rfl, bare⟩ := Phrase.Text.bare ⟨ts, reads, spaced⟩
      simpa using Items.cons (.first blank) bare .nil
    | element reads others =>
      obtain ⟨front, back, rfl, spaced, behind⟩ := spaced_append spaced
      obtain ⟨w, c, blank, rfl, bare⟩ := Phrase.Text.bare ⟨_, reads, spaced⟩
      cases behind with
      | @cons w' _ _ _ rest blank' spells behind =>
        cases spells
        obtain ⟨items, some⟩ := ih ⟨_, others, behind⟩
        obtain ⟨u, us, rfl⟩ := List.exists_cons_of_ne_nil some
        simpa using Items.cons (.first blank) bare (items.next blank')

/-- A member in front of what follows it. -/
theorem text_member {key : List Nat} {v : Value} {ts us : List Token} {last : List Char → Prop}
    {cs : List Char} (reads : Reads false (.value v) ts)
    (spaced : Spaced IsBlank last (.string key :: .colon :: (ts ++ us)) cs) :
    ∃ w c rest, IsBlank w ∧ Member (key, v) c ∧ Spaced IsBlank last us rest ∧ cs = w ++ (c ++ rest) := by
  cases spaced with
  | @cons w _ _ _ _ blank spells spaced =>
    cases spells with
    | string quotes =>
      cases spaced with
      | @cons w' _ _ _ _ blank' spells spaced =>
        cases spells
        obtain ⟨front, rest, rfl, spaced, behind⟩ := spaced_append spaced
        obtain ⟨w'', c, blank'', rfl, bare⟩ := Phrase.Text.bare ⟨_, reads, spaced⟩
        exact ⟨w, _, rest, blank, .mk quotes blank' blank'' bare, behind, by simp⟩

theorem text_members {ms : List (List Nat × Value)} {cs : List Char}
    (text : (Phrase.members ms).Text cs) : Items Member true ms cs ∧ ms ≠ [] := by
  induction ms generalizing cs with
  | nil => obtain ⟨ts, reads, -⟩ := text; cases reads
  | cons m ms ih =>
    refine ⟨?_, List.cons_ne_nil m ms⟩
    obtain ⟨ts, reads, spaced⟩ := text
    cases reads with
    | @lastMember key v ts reads =>
      rw [← List.append_nil ts] at spaced
      obtain ⟨w, c, rest, blank, member, behind, rfl⟩ := text_member reads spaced
      cases behind with
      | nil nothing =>
        subst nothing
        exact .cons (.first blank) member .nil
    | member reads others =>
      obtain ⟨w, c, rest, blank, member, behind, rfl⟩ := text_member reads spaced
      cases behind with
      | @cons w' _ _ _ rest blank' spells behind =>
        cases spells
        obtain ⟨items, some⟩ := ih ⟨_, others, behind⟩
        obtain ⟨m', ms', rfl⟩ := List.exists_cons_of_ne_nil some
        exact .cons (.first blank) member (items.next blank')

/-! ## Texts of values by their kind -/

/-- The tokens of a value without blanks in front begin right away. -/
theorem Bare.tokens {v : Value} {cs : List Char} (bare : Bare v cs) :
    ∃ t ts c rest, Reads false (.value v) (t :: ts) ∧ t.Spells c ∧
      Spaced IsBlank (· = []) ts rest ∧ cs = c ++ rest := by
  obtain ⟨⟨ts, reads, spaced⟩, x, others, split, ink⟩ := bare
  cases spaced with
  | nil => exact absurd reads.front (by simp)
  | @cons w t c ts rest blank spells spaced =>
    cases w with
    | nil => exact ⟨t, ts, c, rest, reads, spells, spaced, rfl⟩
    | cons y w =>
      obtain ⟨rfl, -⟩ := List.cons.inj split
      simp [blank y List.mem_cons_self] at ink

theorem Ending.eq_nil {last : List Token} (ending : Ending false last) : last = [] := by
  cases ending with
  | plain => rfl
  | comma strict => cases strict

theorem spaced_nil {cs : List Char} (spaced : Spaced IsBlank (· = []) [] cs) : cs = [] := by
  cases spaced with
  | nil nothing => exact nothing

/-- The text of one token behind blanks. -/
theorem spaced_last {t : Token} {cs : List Char} (spaced : Spaced IsBlank (· = []) [t] cs) :
    ∃ w c, IsBlank w ∧ t.Spells c ∧ cs = w ++ c := by
  cases spaced with
  | @cons w _ c _ rest blank spells spaced =>
    exact ⟨w, c, blank, spells, by rw [spaced_nil spaced, List.append_nil]⟩

theorem bare_array {vs : List Value} {cs : List Char} (bare : Bare (.array vs) cs) :
    ∃ inner w, Items Bare true vs inner ∧ IsBlank w ∧ cs = '[' :: (inner ++ (w ++ [']'])) := by
  obtain ⟨t, ts, c, rest, reads, spells, spaced, rfl⟩ := bare.tokens
  cases reads with
  | emptyArray =>
    obtain ⟨w, c', blank, closing, rfl⟩ := spaced_last spaced
    cases spells
    cases closing
    exact ⟨[], w, .nil, blank, rfl⟩
  | array reads ending =>
    cases spells
    rw [ending.eq_nil] at spaced
    obtain ⟨inner, back, rfl, inside, behind⟩ := spaced_append spaced
    obtain ⟨w, c', blank, closing, rfl⟩ := spaced_last behind
    cases closing
    exact ⟨inner, w, (text_elements ⟨_, reads, inside⟩).1, blank, rfl⟩

theorem bare_object {ms : List (List Nat × Value)} {cs : List Char} (bare : Bare (.object ms) cs) :
    ∃ inner w, Items Member true ms inner ∧ IsBlank w ∧ cs = '{' :: (inner ++ (w ++ ['}'])) := by
  obtain ⟨t, ts, c, rest, reads, spells, spaced, rfl⟩ := bare.tokens
  cases reads with
  | emptyObject =>
    obtain ⟨w, c', blank, closing, rfl⟩ := spaced_last spaced
    cases spells
    cases closing
    exact ⟨[], w, .nil, blank, rfl⟩
  | object reads ending =>
    cases spells
    rw [ending.eq_nil] at spaced
    obtain ⟨inner, back, rfl, inside, behind⟩ := spaced_append spaced
    obtain ⟨w, c', blank, closing, rfl⟩ := spaced_last behind
    cases closing
    exact ⟨inner, w, (text_members ⟨_, reads, inside⟩).1, blank, rfl⟩

/-- A value of one token is spelled as that token is. -/
theorem bare_scalar {v : Value} {t : Token} (single : ∀ ts, Reads false (.value v) ts → ts = [t])
    {cs : List Char} (bare : Bare v cs) : t.Spells cs := by
  obtain ⟨u, ts, c, rest, reads, spells, spaced, rfl⟩ := bare.tokens
  obtain ⟨rfl, rfl⟩ := List.cons.inj (single _ reads)
  rwa [spaced_nil spaced, List.append_nil]

theorem bare_null {cs : List Char} (bare : Bare .null cs) : cs = ['n', 'u', 'l', 'l'] := by
  have spells : Token.null.Spells cs := bare_scalar (fun ts reads => by cases reads; rfl) bare
  cases spells
  rfl

theorem bare_string {units : List Nat} {cs : List Char} (bare : Bare (.string units) cs) :
    ∃ q, Quotes units q ∧ cs = '"' :: (q ++ ['"']) := by
  have spells : (Token.string units).Spells cs := bare_scalar (fun ts reads => by cases reads; rfl) bare
  cases spells with
  | string quotes => exact ⟨_, quotes, rfl⟩

theorem bare_bool {b : Bool} {cs : List Char} (bare : Bare (.bool b) cs) :
    cs = if b then ['t', 'r', 'u', 'e'] else ['f', 'a', 'l', 's', 'e'] := by
  have spells : (Token.bool b).Spells cs := bare_scalar (fun ts reads => by cases reads; rfl) bare
  cases spells <;> rfl

theorem bare_number {n : Reader.Number} {cs : List Char} (bare : Bare (.number n) cs) : Numeral n cs := by
  have spells : (Token.number n).Spells cs := bare_scalar (fun ts reads => by cases reads; rfl) bare
  cases spells with
  | number numeral => exact numeral

/-- The first character of a value is not blank, and no comma and no closing bracket. -/
theorem Bare.front {v : Value} {cs : List Char} (bare : Bare v cs) :
    ∃ c rest, cs = c :: rest ∧ Reader.isSpace c = false ∧ c ≠ ']' := by
  obtain ⟨t, ts, c, rest, reads, spells, -, rfl⟩ := bare.tokens
  obtain ⟨u, us, same, opens⟩ := reads.front
  obtain ⟨rfl, rfl⟩ := List.cons.inj same
  obtain ⟨x, others, rfl, -, closes⟩ := spells.front
  obtain ⟨y, others', same, space⟩ := isSpace_front spells
  obtain ⟨rfl, rfl⟩ := List.cons.inj same
  refine ⟨x, others ++ rest, rfl, space, ?_⟩
  rintro rfl
  simp [opens] at closes

/-! ## Code units -/

def units (text : String) : List Nat := text.toList.flatMap unitsOf

def IsHigh (u : Nat) : Prop := 0xD800 ≤ u ∧ u ≤ 0xDBFF

def IsLow (u : Nat) : Prop := 0xDC00 ≤ u ∧ u ≤ 0xDFFF

def paired (high low : Nat) : Char := Char.ofNat (0x10000 + (high - 0xD800) * 0x400 + (low - 0xDC00))

/-- A character is one unit of its own, or one of each half. -/
theorem unitsOf_cases (c : Char) :
    (unitsOf c = [c.toNat] ∧ ¬ IsHigh c.toNat ∧ ¬ IsLow c.toNat) ∨
      ∃ high low, unitsOf c = [high, low] ∧ IsHigh high ∧ IsLow low ∧ paired high low = c := by
  have valid : c.toNat < 0xD800 ∨ 0xDFFF < c.toNat ∧ c.toNat < 0x110000 := c.valid
  by_cases small : c.toNat < 0x10000
  · refine .inl ⟨if_pos small, ?_, ?_⟩
    · rintro ⟨low, high⟩
      omega
    · rintro ⟨low, high⟩
      omega
  · refine .inr ⟨_, _, if_neg small, ⟨by omega, by omega⟩, ⟨by omega, by omega⟩, ?_⟩
    have whole : 0x10000 + (0xD800 + (c.toNat - 0x10000) / 0x400 - 0xD800) * 0x400 +
        (0xDC00 + (c.toNat - 0x10000) % 0x400 - 0xDC00) = c.toNat := by omega
    rw [paired, whole, Char.ofNat_toNat]

theorem unitsOf_append_inj {c d : Char} {us vs : List Nat} (same : unitsOf c ++ us = unitsOf d ++ vs) :
    c = d ∧ us = vs := by
  rcases unitsOf_cases c with ⟨one, high, -⟩ | ⟨h, l, two, high, -, rfl⟩ <;>
    rcases unitsOf_cases d with ⟨one', high', -⟩ | ⟨h', l', two', high', -, rfl⟩ <;>
      simp_all [Char.toNat_inj]

theorem exists_of_flatMap_unitsOf {c : Char} {us : List Nat} {chars : List Char}
    (same : unitsOf c ++ us = chars.flatMap unitsOf) :
    ∃ others, chars = c :: others ∧ us = others.flatMap unitsOf := by
  cases chars with
  | nil => rcases unitsOf_cases c with ⟨one, -⟩ | ⟨h, l, two, -⟩ <;> simp_all
  | cons d chars =>
    obtain ⟨rfl, rfl⟩ := unitsOf_append_inj same
    exact ⟨chars, rfl, rfl⟩

/-! ## What may follow a value -/

/-- No number goes on here. -/
def Ends (rest : List Char) : Prop := ∀ c cs, rest = c :: cs → ¬ IsNumeric c

theorem Ends.isDigit {rest : List Char} (ends : Ends rest) :
    ∀ c cs, rest = c :: cs → c.isDigit = false := by
  intro c cs split
  by_contra digit
  exact ends c cs split (.inl (by simpa using digit))

theorem Ends.head? {rest : List Char} (ends : Ends rest) {c : Char} (sign : c ∈ ['-', '+', '.', 'e', 'E']) :
    rest.head? ≠ some c := by
  intro front
  obtain ⟨cs, split⟩ := List.head?_eq_some_iff.mp front
  exact ends c cs split (.inr sign)

theorem not_isNumeric_of_isSpace {c : Char} (space : Reader.isSpace c) : ¬ IsNumeric c := by
  intro numeric
  have blank := isBlank_of_isSpace space
  simp [numeric.ink.2.2.2] at blank

theorem ends_of_isBlank {w : List Char} (blank : IsBlank w) : Ends w := by
  rintro c cs rfl
  exact not_isNumeric_of_isSpace (blank c List.mem_cons_self)

theorem ends_blanks {w : List Char} (blank : IsBlank w) {c : Char} (other : ¬ IsNumeric c)
    (rest : List Char) : Ends (w ++ c :: rest) := by
  intro d cs split
  cases w with
  | nil => exact (List.cons.inj split).1 ▸ other
  | cons x w =>
    obtain ⟨rfl, -⟩ := List.cons.inj split
    exact not_isNumeric_of_isSpace (blank x List.mem_cons_self)

theorem Items.ends {β : Type} {item : β → List Char → Prop} {bs : List β} {cs w : List Char}
    (items : Items item false bs cs) (blank : IsBlank w) {c : Char} (other : ¬ IsNumeric c)
    (rest : List Char) : Ends (cs ++ (w ++ c :: rest)) := by
  cases items with
  | nil => exact ends_blanks blank other rest
  | cons separator =>
    cases separator with
    | next blank' =>
      simp only [List.append_assoc, List.cons_append]
      exact ends_blanks blank' (by simp [IsNumeric]) _

namespace Reader

/-! ## Steps of readers -/

theorem run_bind_of_ok {α β : Type} {p : Reader α} {f : α → Reader β} {s s' : List Char} {a : α}
    (ok : p.run s = .ok (a, s')) : (p >>= f).run s = (f a).run s' := by
  rw [StateT.run_bind, ok]
  rfl

theorem run_skip (c : Char) (cs : List Char) : skip.run (c :: cs) = .ok ((), cs) := rfl

theorem dropWhile_blanks {w : List Char} (blank : IsBlank w) {c : Char} (ink : isSpace c = false)
    (cs : List Char) : (w ++ c :: cs).dropWhile isSpace = c :: cs := by
  rw [List.dropWhile_append_of_pos blank]
  exact List.dropWhile_cons_of_neg (by simp [ink])

section Front

variable {w : List Char} (blank : IsBlank w) {c : Char}
include blank

theorem run_peek (ink : isSpace c = false) (cs : List Char) :
    peek.run (w ++ c :: cs) = .ok (some c, c :: cs) := by
  have dropped := dropWhile_blanks blank ink cs
  show Except.ok (((w ++ c :: cs).dropWhile isSpace).head?, (w ++ c :: cs).dropWhile isSpace) = _
  rw [dropped]
  rfl

theorem run_peekValue (ink : isSpace c = false) (cs : List Char) :
    peekValue.run (w ++ c :: cs) = .ok (c, c :: cs) :=
  run_bind_of_ok (run_peek blank ink cs)

theorem run_colon (cs : List Char) : colon.run (w ++ ':' :: cs) = .ok ((), cs) :=
  run_bind_of_ok (run_peek blank (by decide) cs)

theorem run_close (ink : isSpace c = false) (cs : List Char) :
    (close c).run (w ++ c :: cs) = .ok ((), cs) := by
  rw [close, run_bind_of_ok (run_peek blank ink cs)]
  exact (congrArg (StateT.run · (c :: cs)) (if_pos rfl)).trans (run_skip c cs)

theorem run_anotherElement_end (first : Bool) (cs : List Char) :
    (anotherElement first).run (w ++ ']' :: cs) = .ok (false, ']' :: cs) :=
  run_bind_of_ok (run_peek blank (by decide) cs)

theorem run_anotherKey_end (first : Bool) (cs : List Char) :
    (anotherKey first).run (w ++ '}' :: cs) = .ok (false, '}' :: cs) :=
  run_bind_of_ok (run_peek blank (by decide) cs)

end Front

theorem run_anotherElement {first : Bool} {s : List Char} (separator : Separator first s) {c : Char}
    (ink : isSpace c = false) (open' : c ≠ ']') (cs : List Char) :
    (anotherElement first).run (s ++ c :: cs) = .ok (true, c :: cs) := by
  cases separator with
  | first blank =>
    rw [anotherElement, run_bind_of_ok (run_peek blank ink cs)]
    split
    case h_1 same => exact absurd (Option.some.inj same) open'
    case h_2 => rfl
    case h_3 => rfl
    case h_4 none => cases none
  | next blank blank' =>
    rw [List.append_assoc, List.cons_append, anotherElement, run_bind_of_ok (run_peek blank (by decide) _)]
    refine (run_bind_of_ok (run_skip ',' _)).trans ?_
    rw [run_bind_of_ok (run_peek blank' ink cs)]
    split
    case h_1 same => exact absurd (Option.some.inj same) open'
    case h_2 => rfl
    case h_3 none => cases none

theorem run_anotherKey {first : Bool} {s : List Char} (separator : Separator first s) (cs : List Char) :
    (anotherKey first).run (s ++ '"' :: cs) = .ok (true, '"' :: cs) := by
  cases separator with
  | first blank => exact run_bind_of_ok (run_peek blank (by decide) cs)
  | next blank blank' =>
    rw [List.append_assoc, List.cons_append, anotherKey, run_bind_of_ok (run_peek blank (by decide) _)]
    refine (run_bind_of_ok (run_skip ',' _)).trans ?_
    exact run_bind_of_ok (run_peek blank' (by decide) cs)

theorem run_letters (cs rest : List Char) : (letters cs).run (cs ++ rest) = .ok ((), rest) := by
  induction cs with
  | nil => rfl
  | cons c cs ih =>
    have taken : next.run (c :: (cs ++ rest)) = .ok (c, cs ++ rest) := rfl
    rw [letters, List.cons_append, run_bind_of_ok taken, if_pos rfl]
    exact ih

/-! ## Strings -/

theorem run_next (c : Char) (cs : List Char) : next.run (c :: cs) = .ok (c, cs) := rfl

def fourDigits (a b c d : Nat) : Nat := ((a * 16 + b) * 16 + c) * 16 + d

structure IsUnit (u : Nat) (cs : List Char) : Prop where
  digits : ∃ a b c d a' b' c' d', hexDigit? a = some a' ∧ hexDigit? b = some b' ∧
    hexDigit? c = some c' ∧ hexDigit? d = some d' ∧ cs = [a, b, c, d] ∧ u = fourDigits a' b' c' d'

theorem run_fourHex {u : Nat} {cs : List Char} (unit : IsUnit u cs) (rest : List Char) :
    fourHex.run (cs ++ rest) = .ok (u, rest) := by
  obtain ⟨a, b, c, d, a', b', c', d', first, second, third, fourth, rfl, rfl⟩ := unit.digits
  have four : hasFourBytes (a :: b :: c :: d :: rest) = true := by
    have := a.utf8Size_pos
    have := b.utf8Size_pos
    have := c.utf8Size_pos
    have := d.utf8Size_pos
    refine decide_eq_true ?_
    simp only [List.take_succ_cons, List.take_zero, List.foldl_cons, List.foldl_nil]
    omega
  have got : (get : Reader (List Char)).run (a :: b :: c :: d :: rest) =
      .ok (a :: b :: c :: d :: rest, a :: b :: c :: d :: rest) := rfl
  rw [fourHex, List.cons_append, List.cons_append, List.cons_append, List.cons_append,
    List.nil_append, run_bind_of_ok got, four]
  simp [first, second, third, fourth]
  rfl

theorem run_codePoint_single {u : Nat} {cs : List Char} (unit : IsUnit u cs) (high : ¬ IsHigh u)
    (low : ¬ IsLow u) (rest : List Char) : codePoint.run (cs ++ rest) = .ok (Char.ofNat u, rest) := by
  rw [codePoint, run_bind_of_ok (run_fourHex unit rest), if_neg (by simpa [IsLow] using low),
    if_neg (by simpa [IsHigh] using high)]
  rfl

theorem run_codePoint_pair {u v : Nat} {cs ds : List Char} (unit : IsUnit u cs) (high : IsHigh u)
    (unit' : IsUnit v ds) (low : IsLow v) (rest : List Char) :
    codePoint.run (cs ++ '\\' :: 'u' :: (ds ++ rest)) = .ok (paired u v, rest) := by
  have notLow : ¬ (0xDC00 ≤ u ∧ u ≤ 0xDFFF) := by
    have := high.2
    omega
  rw [codePoint, run_bind_of_ok (run_fourHex unit _), if_neg (by simpa using notLow),
    if_pos (by simpa [IsHigh] using high), run_bind_of_ok (run_next '\\' _)]
  dsimp only
  rw [if_pos rfl, run_bind_of_ok (run_next 'u' _), if_pos rfl, run_bind_of_ok (run_fourHex unit' rest),
    if_pos (by simpa [IsLow] using low)]
  rfl

/-- What an escape stands for is a unit of its own. -/
theorem unitsOf_escape {c d : Char} (escape : escape? c = some d) : unitsOf d = [d.toNat] ∧ c ≠ 'u' := by
  unfold escape? at escape
  split at escape <;> cases escape <;> decide

/-- A half alone can only be written by its digits. -/
theorem quotes_low {u : Nat} {us : List Nat} {cs : List Char} (low : IsLow u) (quotes : Quotes (u :: us) cs) :
    ∃ ds rest, IsUnit u ds ∧ Quotes us rest ∧ cs = '\\' :: 'u' :: (ds ++ rest) := by
  generalize whole : u :: us = units at quotes
  cases quotes with
  | nil => cases whole
  | @plain c =>
    rcases unitsOf_cases c with ⟨one, -, notLow⟩ | ⟨h, l, two, high, -, -⟩
    · rw [one] at whole
      obtain ⟨rfl, -⟩ := List.cons.inj whole
      exact absurd low notLow
    · rw [two] at whole
      obtain ⟨rfl, -⟩ := List.cons.inj whole
      have := low.1
      have := high.2
      omega
  | @escape c d _ _ escape =>
    obtain ⟨rfl, -⟩ := List.cons.inj whole
    rcases unitsOf_cases d with ⟨-, -, notLow⟩ | ⟨h, l, two, -⟩
    · exact absurd low notLow
    · simp [(unitsOf_escape escape).1] at two
  | unit first second third fourth quotes =>
    obtain ⟨rfl, rfl⟩ := List.cons.inj whole
    exact ⟨_, _, ⟨_, _, _, _, _, _, _, _, first, second, third, fourth, rfl, rfl⟩, quotes, rfl⟩

theorem run_stringRest_unit {n : Nat} {out cs cs' : List Char} {c : Char}
    (point : codePoint.run cs = .ok (c, cs')) :
    (stringRest (n + 1) out).run ('\\' :: 'u' :: cs) = (stringRest n (c :: out)).run cs' := by
  rw [stringRest, run_bind_of_ok (run_next '\\' _), if_neg (by decide), if_pos rfl,
    run_bind_of_ok (run_next 'u' _), if_pos rfl, run_bind_of_ok point]

theorem run_stringRest {n : Nat} {chars cs : List Char} (quotes : Quotes (chars.flatMap unitsOf) cs)
    (room : cs.length < n) (out rest : List Char) :
    (stringRest n out).run (cs ++ '"' :: rest) = .ok (String.ofList (out.reverse ++ chars), rest) := by
  induction n generalizing chars cs out with
  | zero => omega
  | succ n ih =>
    generalize whole : chars.flatMap unitsOf = us at quotes
    rw [stringRest]
    cases quotes with
    | nil =>
      have nothing : chars = [] := by
        cases chars with
        | nil => rfl
        | cons c chars => rcases unitsOf_cases c with ⟨one, -⟩ | ⟨h, l, two, -⟩ <;> simp_all
      rw [List.nil_append, run_bind_of_ok (run_next '"' _), if_pos rfl, nothing, List.append_nil]
      rfl
    | @plain c _ cs quote backslash printed quotes =>
      obtain ⟨others, rfl, rfl⟩ := exists_of_flatMap_unitsOf whole.symm
      have further := ih quotes (by simp at room; omega) (c :: out)
      rw [List.cons_append, run_bind_of_ok (run_next c _), if_neg quote, if_neg backslash,
        if_neg (by omega), further]
      simp
    | @escape c d us cs escape quotes =>
      obtain ⟨one, notUnit⟩ := unitsOf_escape escape
      have front : unitsOf d ++ us = chars.flatMap unitsOf := by rw [one, List.singleton_append, whole]
      obtain ⟨others, rfl, rfl⟩ := exists_of_flatMap_unitsOf front
      have further := ih quotes (by simp at room; omega) (d :: out)
      rw [List.cons_append, List.cons_append, run_bind_of_ok (run_next '\\' _), if_neg (by decide),
        if_pos rfl, run_bind_of_ok (run_next c _), if_neg notUnit]
      simp only [escape, further]
      simp
    | @unit a b c d a' b' c' d' us cs first second third fourth quotes =>
      have unit : IsUnit (((a' * 16 + b') * 16 + c') * 16 + d') [a, b, c, d] :=
        ⟨a, b, c, d, a', b', c', d', first, second, third, fourth, rfl, rfl⟩
      -- whether the unit stands alone or is the first of a pair is told by the character
      rw [← stringRest]
      cases chars with
      | nil => cases whole
      | cons x chars =>
        rcases unitsOf_cases x with ⟨one, notHigh, notLow⟩ | ⟨high, low, two, isHigh, isLow, rfl⟩
        · rw [List.flatMap_cons, one] at whole
          obtain ⟨same, rfl⟩ := List.cons.inj whole
          rw [← same] at unit
          have point := run_codePoint_single unit notHigh notLow (cs ++ '"' :: rest)
          rw [Char.ofNat_toNat] at point
          have further := ih quotes (by simp at room; omega) (x :: out)
          refine (run_stringRest_unit point).trans (further.trans ?_)
          simp
        · rw [List.flatMap_cons, two] at whole
          obtain ⟨same, rfl⟩ := List.cons.inj whole
          obtain ⟨ds, back, unit', quotes', rfl⟩ := quotes_low isLow quotes
          rw [← same] at unit
          have point := run_codePoint_pair unit isHigh unit' isLow (back ++ '"' :: rest)
          have further := ih quotes' (by simp at room; omega) (paired high low :: out)
          simp only [List.cons_append, List.append_assoc]
          refine (run_stringRest_unit point).trans (further.trans ?_)
          simp

/-- Readers that count go on for as long as the text does. -/
theorem length_lt_append (cs rest : List Char) : cs.length < (cs ++ rest).length + 1 := by
  rw [List.length_append]
  omega

theorem run_get (s : List Char) : (get : Reader (List Char)).run s = .ok (s, s) := rfl

theorem run_stringTail {text : String} {q : List Char} (quotes : Quotes (units text) q) (rest : List Char) :
    stringTail.run (q ++ '"' :: rest) = .ok (text, rest) := by
  rw [stringTail, run_bind_of_ok (run_get _), run_stringRest quotes (length_lt_append q _)]
  simp

theorem run_ignoreString {n : Nat} {us : List Nat} {q : List Char} (quotes : Quotes us q)
    (room : q.length < n) (rest : List Char) :
    (ignoreString n).run (q ++ '"' :: rest) = .ok ((), rest) := by
  induction quotes generalizing n with
  | nil =>
    obtain ⟨n, rfl⟩ : ∃ k, n = k + 1 := ⟨n - 1, by omega⟩
    rw [List.nil_append, ignoreString, run_bind_of_ok (run_next '"' _), if_pos rfl]
    rfl
  | @plain c us q quote backslash printed _ ih =>
    obtain ⟨n, rfl⟩ : ∃ k, n = k + 1 := ⟨n - 1, by omega⟩
    rw [List.cons_append, ignoreString, run_bind_of_ok (run_next c _), if_neg quote, if_neg backslash,
      if_neg (by omega), ih (by simp at room; omega)]
  | @escape c d us q escape _ ih =>
    obtain ⟨n, rfl⟩ : ∃ k, n = k + 1 := ⟨n - 1, by omega⟩
    rw [List.cons_append, List.cons_append, ignoreString, run_bind_of_ok (run_next '\\' _),
      if_neg (by decide), if_pos rfl, run_bind_of_ok (run_next c _), if_neg (unitsOf_escape escape).2,
      if_pos (by simp [escape]), ih (by simp at room; omega)]
  | @unit a b c d a' b' c' d' us q first second third fourth _ ih =>
    obtain ⟨n, rfl⟩ : ∃ k, n = k + 1 := ⟨n - 1, by omega⟩
    have unit : IsUnit (fourDigits a' b' c' d') [a, b, c, d] :=
      ⟨a, b, c, d, a', b', c', d', first, second, third, fourth, rfl, rfl⟩
    have digits := run_fourHex unit (q ++ '"' :: rest)
    simp only [List.cons_append, List.nil_append] at digits ⊢
    rw [ignoreString, run_bind_of_ok (run_next '\\' _), if_neg (by decide), if_pos rfl,
      run_bind_of_ok (run_next 'u' _), if_pos rfl, run_bind_of_ok digits, ih (by simp at room; omega)]

/-! ## Numbers -/

theorem run_digits {ds : List Char} (isDigits : ∀ d ∈ ds, d.isDigit) {rest : List Char}
    (other : ∀ c cs, rest = c :: cs → c.isDigit = false) :
    digits.run (ds ++ rest) = .ok (ds, rest) := by
  have stops : rest.takeWhile Char.isDigit = [] ∧ rest.dropWhile Char.isDigit = rest := by
    cases rest with
    | nil => exact ⟨rfl, rfl⟩
    | cons c cs => simp [other c cs rfl]
  show Except.ok ((ds ++ rest).takeWhile Char.isDigit, (ds ++ rest).dropWhile Char.isDigit) = _
  rw [List.takeWhile_append_of_pos isDigits, List.dropWhile_append_of_pos isDigits, stops.1, stops.2,
    List.append_nil]

def ignoreExponent : Reader Unit := do
  if (← get).head? = some 'e' || (← get).head? = some 'E' then
    skip
    if (← get).head? = some '-' || (← get).head? = some '+' then skip
    if (← digits).isEmpty then throw .malformed

theorem run_ignoreExponent {e : Option (Bool × List Char)} {exponent : List Char}
    (isExponent : Exponent e exponent) {rest : List Char} (ends : Ends rest) :
    ignoreExponent.run (exponent ++ rest) = .ok ((), rest) := by
  rw [ignoreExponent, run_bind_of_ok (run_get _), run_bind_of_ok (run_get _)]
  -- Digits behind the sign, whichever it is.
  have tail : ∀ {ds : List Char}, IsDigits ds →
      (do if (← digits).isEmpty then throw .malformed else pure () : Reader Unit).run (ds ++ rest) =
        .ok ((), rest) := by
    intro ds isDigits
    rw [run_bind_of_ok (run_digits isDigits.2 ends.isDigit), if_neg (by simpa using isDigits.1)]
    rfl
  cases isExponent with
  | none =>
    have none : ¬ (rest.head? = some 'e' ∨ rest.head? = some 'E') :=
      not_or.mpr ⟨ends.head? (by simp), ends.head? (by simp)⟩
    rw [if_neg (by simpa using none)]
    rfl
  | @up e ds mark isDigits =>
    obtain ⟨d, ds, rfl⟩ := List.exists_cons_of_ne_nil isDigits.1
    have unsigned : ¬ (d = '-' ∨ d = '+') := by
      have := isDigits.2 d List.mem_cons_self
      rintro (rfl | rfl) <;> simp at this
    rw [if_pos (by rcases mark with rfl | rfl <;> simp), List.cons_append, run_bind_of_ok (run_skip _ _),
      run_bind_of_ok (run_get _), run_bind_of_ok (run_get _)]
    dsimp only
    rw [if_neg (by simpa using unsigned)]
    exact tail isDigits
  | plus mark isDigits | minus mark isDigits =>
    rw [if_pos (by rcases mark with rfl | rfl <;> simp), List.cons_append, run_bind_of_ok (run_skip _ _),
      run_bind_of_ok (run_get _), run_bind_of_ok (run_get _)]
    dsimp only
    rw [if_pos (by simp), List.cons_append, run_bind_of_ok (run_skip _ _)]
    exact tail isDigits

/-- An exponent does not go on with a digit or a point. -/
theorem exponent_front {e : Option (Bool × List Char)} {exponent : List Char}
    (isExponent : Exponent e exponent) {rest : List Char} (ends : Ends rest) :
    ∀ c cs, exponent ++ rest = c :: cs → c.isDigit = false ∧ c ≠ '.' := by
  intro c cs split
  cases isExponent with
  | none =>
    have point := ends.head? (c := '.') (by simp)
    refine ⟨ends.isDigit c cs split, ?_⟩
    rintro rfl
    exact point (by simpa using congrArg List.head? split)
  | up mark | plus mark | minus mark =>
    obtain ⟨rfl, -⟩ := List.cons.inj split
    rcases mark with rfl | rfl <;> decide

def ignoreFraction : Reader Unit := do
  if (← get).head? = some '.' then
    skip
    if (← digits).isEmpty then throw .malformed
  ignoreExponent

section Fraction

variable {f : Option (List Char)} {e : Option (Bool × List Char)} {fraction exponent rest : List Char}
  (isFraction : Fraction f fraction) (isExponent : Exponent e exponent) (ends : Ends rest)
include isFraction isExponent ends

theorem run_ignoreFraction : ignoreFraction.run (fraction ++ (exponent ++ rest)) = .ok ((), rest) := by
  have front := exponent_front isExponent ends
  rw [ignoreFraction, run_bind_of_ok (run_get _)]
  dsimp only
  cases isFraction with
  | none =>
    have point : (exponent ++ rest).head? ≠ some '.' := by
      intro point
      obtain ⟨cs, split⟩ := List.head?_eq_some_iff.mp point
      exact (front _ cs split).2 rfl
    rw [List.nil_append, if_neg point]
    exact run_ignoreExponent isExponent ends
  | @some ds isDigits =>
    rw [List.cons_append, if_pos List.head?_cons, run_bind_of_ok (run_skip _ _),
      run_bind_of_ok (run_digits isDigits.2 fun c cs split => (front c cs split).1),
      if_neg (by simpa using isDigits.1)]
    exact run_ignoreExponent isExponent ends

theorem run_ignoreNumber {whole : List Char} (isWhole : IsWhole whole) :
    ignoreNumber.run (whole ++ (fraction ++ (exponent ++ rest))) = .ok ((), rest) := by
  obtain ⟨first, more, rfl⟩ := List.exists_cons_of_ne_nil isWhole.1.1
  obtain ⟨digit, digits⟩ := List.forall_mem_cons.mp isWhole.1.2
  have other : ∀ c cs, fraction ++ (exponent ++ rest) = c :: cs → c.isDigit = false := by
    intro c cs split
    cases isFraction with
    | none => exact (exponent_front isExponent ends c cs split).1
    | some =>
      obtain ⟨rfl, -⟩ := List.cons.inj split
      decide
  rw [ignoreNumber, run_bind_of_ok (run_get _)]
  dsimp only [List.cons_append, List.head?_cons]
  rw [if_pos digit, run_bind_of_ok (run_skip _ _)]
  by_cases zero : first = '0'
  · obtain rfl : more = [] := by
      have alone := isWhole.2 (by simp [zero])
      exact (List.cons.inj alone).2
    have further : ¬ (fraction ++ (exponent ++ rest)).head?.any Char.isDigit = true := by
      cases text : fraction ++ (exponent ++ rest) with
      | nil => simp
      | cons c cs => simp [other c cs text]
    rw [if_pos zero, run_bind_of_ok (run_get _), List.nil_append, if_neg further]
    exact run_ignoreFraction isFraction isExponent ends
  · rw [if_neg zero, run_bind_of_ok (run_digits digits other)]
    exact run_ignoreFraction isFraction isExponent ends

end Fraction

end Reader

end TemplateValues.Json
