import TemplateValues.Proofs.Spelling
import TemplateValues.Values.Idiom

/-!
# Types read off a value, as they are written

`keyof typeof X` and `(typeof X)[keyof typeof X]` may be written with any blanks between their words and
signs, as long as words stay apart.  All these spellings are recognised (`ofText?_keys`,
`ofText?_values`).

A spelling is read from left to right.  Each reader is stated before any rest of the text, and a word or a
name ends where the rest starts with something else.
-/

namespace TemplateValues.Idiom

open TemplateValues.Text TemplateValues.Chain

/-! ## Spellings -/

/-- Is the text a name of unaccented letters, digits, underscores and dollar signs? -/
def isPlain (x : String) : Bool :=
  match x.toList with
  | c :: cs => (c.isAlpha || c = '_' || c = '$') && cs.all fun c => c.isAlphanum || c = '_' || c = '$'
  | [] => false

structure Blanks where
  chars : List Char
  blank : ∀ c ∈ chars, isBlank c

structure Gap extends Blanks where
  some : chars ≠ []

/-- A way to write `keyof typeof X`: the blanks behind the two words. -/
structure KeysSpelling where
  afterKeyof : Gap
  afterTypeof : Gap

def KeysSpelling.before (k : KeysSpelling) (x : String) (rest : List Char) : List Char :=
  "keyof".toList ++ (k.afterKeyof.chars ++ ("typeof".toList ++ (k.afterTypeof.chars ++ (x.toList ++ rest))))

/-- A way to write `(typeof X)[keyof typeof X]`: the blanks behind the signs and the words, and before the
closing signs. -/
structure ValuesSpelling where
  afterOpening : Blanks
  afterTypeof : Gap
  beforeClosing : Blanks
  between : Blanks
  beforeKeys : Blanks
  keys : KeysSpelling
  afterKeys : Blanks

def ValuesSpelling.chars (v : ValuesSpelling) (x : String) : List Char :=
  '(' :: (v.afterOpening.chars ++ ("typeof".toList ++ (v.afterTypeof.chars ++ (x.toList ++
    (v.beforeClosing.chars ++ ')' :: (v.between.chars ++ '[' :: (v.beforeKeys.chars ++
      v.keys.before x (v.afterKeys.chars ++ [']']))))))))

/-! ## Characters -/

/-- The text does not go on with what a name may go on with. -/
def Parts (rest : List Char) : Prop := ∀ c ∈ rest.head?, isWordPart c = false

theorem isWordPart_of_blank {c : Char} (blank : isBlank c) : isWordPart c = false := by
  have notWord : isWordChar c = false := by
    rw [Bool.eq_false_iff]
    intro word
    unfold isWordChar at word
    split at word
    · have either : ((c.isAlpha || c.isDigit) || decide (c = '_')) = true := word
      simp only [Bool.or_eq_true, decide_eq_true_eq] at either
      simp only [isBlank, Bool.or_eq_true, Bool.and_eq_true, decide_eq_true_eq] at blank
      obtain (letter | digit) | rfl := either
      · have bounds := toNat_of_isAlpha letter
        omega
      · have bounds := toNat_of_isDigit digit
        omega
      · revert blank
        decide
    · rename_i wide
      exact not_inRanges_of_blank (by decide +kernel) blank (Nat.le_of_not_lt wide) word
  have notDollar : c ≠ '$' := by
    rintro rfl
    exact absurd blank (by decide)
  simp [isWordPart, notWord, notDollar]

theorem Blanks.parts (b : Blanks) {rest : List Char} (parts : Parts rest) : Parts (b.chars ++ rest) := by
  intro c first
  cases chars : b.chars with
  | nil =>
    rw [chars] at first
    exact parts c first
  | cons c' cs =>
    rw [chars] at first
    cases first
    exact isWordPart_of_blank (b.blank c (by simp [chars]))

theorem Gap.parts (g : Gap) (rest : List Char) : Parts (g.chars ++ rest) := by
  intro c first
  obtain ⟨c', cs, chars⟩ := List.exists_cons_of_ne_nil g.some
  rw [chars] at first
  cases first
  exact isWordPart_of_blank (g.blank c (by simp [chars]))

theorem isWordPart_of_plain {c : Char} (plain : ((c.isAlpha ∨ c.isDigit) ∨ c = '_') ∨ c = '$') :
    isWordPart c := by
  obtain (alphanumeric | rfl) | rfl := plain
  · have ascii : c.toNat < 0x80 := by
      have bounds := alphanumeric.imp toNat_of_isAlpha toNat_of_isDigit
      omega
    have either : (c.isAlpha || c.isDigit) = true := Bool.or_eq_true_iff.mpr alphanumeric
    have word : (c.isAlphanum || decide (c = '_')) = true := Bool.or_eq_true_iff.mpr (.inl either)
    rw [isWordPart, isWordChar, if_pos ascii, word, Bool.true_or]
  · decide
  · decide

/-- The characters of a plain name. -/
theorem exists_chars {x : String} (plain : isPlain x) :
    ∃ c cs, x.toList = c :: cs ∧ (c.isAlpha || c = '_' || c = '$') ∧ (∀ d ∈ c :: cs, isWordPart d) := by
  unfold isPlain at plain
  split at plain
  · rename_i c cs chars
    obtain ⟨start, parts⟩ := Bool.and_eq_true_iff.mp plain
    refine ⟨c, cs, chars, start, List.forall_mem_cons.mpr ⟨?_, fun d member => ?_⟩⟩
    · simp only [Bool.or_eq_true, decide_eq_true_eq] at start
      exact isWordPart_of_plain (start.imp_left (Or.imp_left .inl))
    · have part : ((d.isAlpha || d.isDigit) || decide (d = '_') || decide (d = '$')) = true :=
        List.all_eq_true.mp parts d member
      simp only [Bool.or_eq_true, decide_eq_true_eq] at part
      exact isWordPart_of_plain part
  · cases plain

/-! ## Readers -/

variable {α β : Type} {x : String} {rest : List Char}

/-- A reader goes on where another one left off. -/
theorem run_bind_of {r : Reading α} {f : α → Reading β} {cs : List Char} {a : α}
    (reads : r.run cs = some (a, rest)) : (r >>= f).run cs = (f a).run rest := by
  rw [StateT.run_bind, reads]
  rfl

theorem run_word (w : String) (rest : List Char) : (word w).run (w.toList ++ rest) = some ((), rest) := by
  have starts : w.toList.isPrefixOf (w.toList ++ rest) := List.isPrefixOf_iff_prefix.mpr ⟨rest, rfl⟩
  have left : (w.toList ++ rest).drop w.length = rest := List.drop_left' rfl
  rw [StateT.run, word, if_pos starts, left]

theorem run_sign {w : String} {c : Char} (sign : w.toList = [c]) (rest : List Char) :
    (word w).run (c :: rest) = some ((), rest) := by
  rw [← List.singleton_append, ← sign, run_word]

theorem run_maybe (c : Char) (rest : List Char) : (maybe c).run (c :: rest) = some ((), rest) := by
  simp [StateT.run, maybe]

theorem run_blanks (b : Blanks) (starts : StartsSolid rest) :
    blanks.run (b.chars ++ rest) = some ((), rest) := by
  rw [StateT.run, blanks, ← trimFront, trimFront_append b.blank starts]

theorem run_gap (g : Gap) (starts : StartsSolid rest) : gap.run (g.chars ++ rest) = some ((), rest) := by
  have begins : (g.chars ++ rest).head?.any isBlank := by
    obtain ⟨c, cs, chars⟩ := List.exists_cons_of_ne_nil g.some
    simp [chars, g.blank c (by simp [chars])]
  rw [StateT.run, gap, if_pos begins, ← trimFront, trimFront_append g.blank starts]

theorem run_name (plain : isPlain x) (parts : Parts rest) :
    name.run (x.toList ++ rest) = some (x, rest) := by
  obtain ⟨c, cs, chars, start, inside⟩ := exists_chars plain
  have word : ∀ d ∈ cs, isWordPart d := (List.forall_mem_cons.mp inside).2
  have stops : rest.takeWhile isWordPart = [] ∧ rest.dropWhile isWordPart = rest := by
    cases rest with
    | nil => exact ⟨rfl, rfl⟩
    | cons d rest =>
      have other := parts d rfl
      simp [other]
  have taken : (cs ++ rest).takeWhile isWordPart = cs := by
    rw [List.takeWhile_append_of_pos word, stops.1, List.append_nil]
  have left : (cs ++ rest).dropWhile isWordPart = rest := by
    rw [List.dropWhile_append_of_pos word, stops.2]
  rw [chars, List.cons_append, StateT.run, name, if_pos start, taken, left, ← chars,
    String.ofList_toList]

/-! ## Whole spellings -/

theorem startsSolid_name (plain : isPlain x) (rest : List Char) : StartsSolid (x.toList ++ rest) := by
  obtain ⟨c, cs, chars, -, parts⟩ := exists_chars plain
  intro c' first
  rw [chars] at first
  cases first
  have part := parts c List.mem_cons_self
  rw [Bool.eq_false_iff]
  intro blank
  rw [isWordPart_of_blank blank] at part
  cases part

theorem startsSolid_word {w : String} (solid : w.toList.head?.any fun c => !isBlank c)
    (rest : List Char) : StartsSolid (w.toList ++ rest) := by
  cases chars : w.toList with
  | nil => simp [chars] at solid
  | cons c cs => exact startsSolid_cons (by simpa [chars] using solid) (cs ++ rest)

theorem parts_cons {c : Char} (other : isWordPart c = false) (rest : List Char) : Parts (c :: rest) := by
  intro c' first
  cases first
  exact other

theorem KeysSpelling.startsSolid (k : KeysSpelling) (x : String) (rest : List Char) :
    StartsSolid (k.before x rest) := startsSolid_word (by decide) _

/-- `keyof typeof X` is read up to where its name ends. -/
theorem KeysSpelling.run (k : KeysSpelling) (plain : isPlain x) (parts : Parts rest)
    (f : String → Reading β) :
    (do word "keyof"; gap; word "typeof"; gap; let y ← name; f y : Reading β).run (k.before x rest) =
      (f x).run rest := by
  rw [KeysSpelling.before, run_bind_of (run_word _ _),
    run_bind_of (run_gap _ (startsSolid_word (by decide) _)), run_bind_of (run_word _ _),
    run_bind_of (run_gap _ (startsSolid_name plain _)), run_bind_of (run_name plain parts)]

theorem KeysSpelling.readKeys (k : KeysSpelling) (plain : isPlain x) :
    readKeys.run (k.before x []) = some (.keys x, []) := by
  rw [Idiom.readKeys, k.run plain (by simp [Parts])]
  rfl

theorem ValuesSpelling.readValues (v : ValuesSpelling) (plain : isPlain x) :
    readValues.run (v.chars x) = some (.values x x, []) := by
  have closes : Parts (v.afterKeys.chars ++ [']']) := v.afterKeys.parts (parts_cons (by decide) _)
  rw [Idiom.readValues, ValuesSpelling.chars, run_bind_of (run_maybe _ _),
    run_bind_of (run_blanks _ (startsSolid_word (by decide) _)), run_bind_of (run_word _ _),
    run_bind_of (run_gap _ (startsSolid_name plain _)),
    run_bind_of (run_name plain (v.beforeClosing.parts (parts_cons (by decide) _))),
    run_bind_of (run_blanks _ (startsSolid_cons (by decide) _)), run_bind_of (run_maybe _ _),
    run_bind_of (run_blanks _ (startsSolid_cons (by decide) _)), run_bind_of (run_sign rfl _),
    run_bind_of (run_blanks _ (v.keys.startsSolid x _)), v.keys.run plain closes,
    run_bind_of (run_blanks _ (startsSolid_cons (by decide) _))]
  rfl

/-- `keyof typeof X` does not start like `(typeof X)[keyof typeof X]`. -/
theorem KeysSpelling.readValues (k : KeysSpelling) (x : String) (rest : List Char) :
    readValues.run (k.before x rest) = none := rfl

/-! ## Texts -/

theorem trim_of_solid {cs : List Char} (starts : StartsSolid cs) (ends : EndsSolid cs) : trim cs = cs := by
  have trimmed : trim ([] ++ (cs ++ [])) = cs :=
    trim_append (by simp) (by simp) (by rwa [List.append_nil]) ends
  rwa [List.append_nil, List.nil_append] at trimmed

theorem endsSolid_name (plain : isPlain x) : EndsSolid x.toList := by
  obtain ⟨c, cs, chars, -, parts⟩ := exists_chars plain
  intro d last
  have part := parts d (chars ▸ List.mem_of_getLast? last)
  rw [Bool.eq_false_iff]
  intro blank
  rw [isWordPart_of_blank blank] at part
  cases part

theorem endsSolid_of_suffix {cs whole : List Char} (suffix : cs <:+ whole) (some : cs ≠ [])
    (ends : EndsSolid cs) : EndsSolid whole := by
  obtain ⟨front, rfl⟩ := suffix
  exact (endsSolid_append some).mpr ends

theorem KeysSpelling.suffix (k : KeysSpelling) (x : String) (rest : List Char) :
    x.toList ++ rest <:+ k.before x rest := by
  iterate 4 refine .trans ?_ (List.suffix_append _ _)
  exact List.suffix_rfl

theorem ValuesSpelling.suffix (v : ValuesSpelling) (x : String) : [']'] <:+ v.chars x := by
  have last : [']'] <:+ v.keys.before x (v.afterKeys.chars ++ [']']) :=
    ((List.suffix_append _ _).trans (List.suffix_append x.toList _)).trans (v.keys.suffix x _)
  have inner : [']'] <:+ '[' :: (v.beforeKeys.chars ++ v.keys.before x (v.afterKeys.chars ++ [']'])) :=
    (last.trans (List.suffix_append _ _)).trans (List.suffix_cons _ _)
  refine .trans ?_ (List.suffix_cons '(' _)
  iterate 5 refine .trans ?_ (List.suffix_append _ _)
  exact (inner.trans (List.suffix_append _ _)).trans (List.suffix_cons _ _)

theorem name_ne_nil (plain : isPlain x) : x.toList ≠ [] := by
  obtain ⟨c, cs, chars, -⟩ := exists_chars plain
  rw [chars]
  exact List.cons_ne_nil c cs

/-- Every spelling of `keyof typeof X` is recognised. -/
theorem ofText?_keys (k : KeysSpelling) (plain : isPlain x) {text : String}
    (spelled : text.toList = k.before x []) : ofText? text = some (.keys x) := by
  have ends : EndsSolid (k.before x []) := by
    have suffix := k.suffix x []
    rw [List.append_nil] at suffix
    exact endsSolid_of_suffix suffix (name_ne_nil plain) (endsSolid_name plain)
  have trimmed : trim text.toList = k.before x [] := by
    rw [spelled, trim_of_solid (k.startsSolid x []) ends]
  simp only [ofText?, trimmed, List.findSome?_cons, k.readValues, k.readKeys plain, Option.map_none,
    Option.map_some]

/-- Every spelling of `(typeof X)[keyof typeof X]` is recognised. -/
theorem ofText?_values (v : ValuesSpelling) (plain : isPlain x) {text : String}
    (spelled : text.toList = v.chars x) : ofText? text = some (.values x x) := by
  have starts : StartsSolid (v.chars x) := startsSolid_cons (by decide) _
  have ends : EndsSolid (v.chars x) := endsSolid_of_suffix (v.suffix x) (by simp) (by simp [EndsSolid, isBlank])
  have trimmed : trim text.toList = v.chars x := by rw [spelled, trim_of_solid starts ends]
  simp only [ofText?, trimmed, List.findSome?_cons, v.readValues plain, Option.map_some]

end TemplateValues.Idiom
