import Mathlib.Data.List.Chain
import Mathlib.Data.List.Forall2
import TemplateValues.Chain.Normal

/-!
# What normal texts keep

The normal text of an expression has the quoted spans of the expression, each as it stands and in the same
order.  Between them, all but blanks, question marks and exclamation marks is kept, blanks are single
spaces, and there is none at either end (`normalize_keeps_quotes`).

The spans of a text are found by a reader of their own (`cut`), which knows nothing but quotes and
backslashes.  What one character makes the other reader do is said once, as a relation (`Reads`), in which
of all that is written already only the last character is left.  The proof then follows the two readers
through the text and its normal form side by side (`Reads.cutAlike`).
-/

namespace TemplateValues.Chain

open TemplateValues.Text

/-! ## Characters of names are not blank -/

def blankRanges : List (Nat × Nat) :=
  [(0x85, 0x85), (0xA0, 0xA0), (0x1680, 0x1680), (0x2000, 0x200A), (0x2028, 0x2029),
    (0x202F, 0x202F), (0x205F, 0x205F), (0x3000, 0x3000)]

theorem isBlank_iff {c : Char} : isBlank c = true ↔
    9 ≤ c.toNat ∧ c.toNat ≤ 13 ∨ c.toNat = 0x20 ∨
      ∃ range ∈ blankRanges, range.1 ≤ c.toNat ∧ c.toNat ≤ range.2 := by
  simp only [isBlank, Bool.or_eq_true, Bool.and_eq_true, decide_eq_true_eq, blankRanges,
    List.exists_mem_cons_iff, List.not_mem_nil, false_and, exists_false, or_false]
  omega

theorem not_inRanges_of_blank {ranges : Array (Nat × Nat)} {c : Char}
    (apart : ranges.toList.all fun r => blankRanges.all fun b => r.2 < b.1 || b.2 < r.1)
    (blank : isBlank c) (wide : 0x80 ≤ c.toNat) : ¬ inRanges ranges c := by
  rcases isBlank_iff.mp blank with ascii | space | ⟨b, isBlankRange, low, high⟩
  · omega
  · omega
  rw [inRanges, ← Array.any_toList, List.any_eq_true]
  rintro ⟨r, isRange, within⟩
  have far := List.all_eq_true.mp (List.all_eq_true.mp apart r isRange) b isBlankRange
  simp only [Bool.or_eq_true, Bool.and_eq_true, decide_eq_true_eq] at far within
  omega

theorem toNat_of_isAlpha {c : Char} (letter : c.isAlpha) : 65 ≤ c.toNat ∧ c.toNat ≤ 122 := by
  have either : (c.isUpper || c.isLower) = true := letter
  rcases Bool.or_eq_true_iff.mp either with upper | lower
  · have bounds : 65 ≤ c.toNat ∧ c.toNat ≤ 90 := of_decide_eq_true upper
    omega
  · have bounds : 97 ≤ c.toNat ∧ c.toNat ≤ 122 :=
      (Bool.and_eq_true_iff.mp lower).imp of_decide_eq_true of_decide_eq_true
    omega

/-- Letters and numbers are not blank. -/
theorem isBlank_of_alphanumeric {c : Char} (alphanumeric : isAlphabetic c ∨ isNumeric c) :
    isBlank c = false := by
  rw [Bool.eq_false_iff]
  intro blank
  by_cases ascii : c.toNat < 0x80
  · rw [isAlphabetic, isNumeric, if_pos ascii, if_pos ascii] at alphanumeric
    have bounds := alphanumeric.imp toNat_of_isAlpha toNat_of_isDigit
    simp only [isBlank, Bool.or_eq_true, Bool.and_eq_true, decide_eq_true_eq] at blank
    omega
  · rw [isAlphabetic, isNumeric, if_neg ascii, if_neg ascii] at alphanumeric
    have wide : 0x80 ≤ c.toNat := Nat.le_of_not_lt ascii
    rcases alphanumeric with letter | number
    · exact not_inRanges_of_blank (by decide +kernel) blank wide letter
    · exact not_inRanges_of_blank (by decide +kernel) blank wide number

theorem isBlank_of_assertsBefore {out : List Char} (asserts : assertsBefore out) :
    ∀ c ∈ out.head?, isBlank c = false := by
  intro c isLast
  rw [assertsBefore, Option.mem_def.mp isLast, Option.any_some] at asserts
  simp only [Bool.or_eq_true, decide_eq_true_eq] at asserts
  rcases asserts with ((((letter | number) | rfl) | rfl) | rfl) | rfl
  · exact isBlank_of_alphanumeric (.inl letter)
  · exact isBlank_of_alphanumeric (.inr number)
  all_goals decide

/-! ## What a character makes the reader write -/

def Scan.isOutside : Scan → Bool
  | .plain | .blank => true
  | .quoted _ | .escaped _ => false

/-- `Reads state last cs out`: from `state` on, after `last` was written, reading `cs` may write `out`.
Left open is only which blanks are skipped and which make a space, and that an equals sign keeps the mark
before it. -/
inductive Reads : Scan → Option Char → List Char → List Char → Prop where
  | done {state last} : Reads state last [] []
  | backslash {q last cs out} : Reads (.escaped q) (some '\\') cs out →
      Reads (.quoted q) last ('\\' :: cs) ('\\' :: out)
  | escaped {q last c cs out} : Reads (.quoted q) (some c) cs out →
      Reads (.escaped q) last (c :: cs) (c :: out)
  | inside {q last c cs out} : c ≠ '\\' → c ≠ q → Reads (.quoted q) (some c) cs out →
      Reads (.quoted q) last (c :: cs) (c :: out)
  | closing {q last cs out} : q ≠ '\\' → Reads .plain (some q) cs out →
      Reads (.quoted q) last (q :: cs) (q :: out)
  | opening {state last c cs out} : state.isOutside → isQuote c → Reads (.quoted c) (some c) cs out →
      Reads state last (c :: cs) (c :: out)
  | chain {state last cs out} : state.isOutside → chainsAhead cs → Reads .plain last cs out →
      Reads state last ('?' :: cs) out
  | assertion {state last cs out} : state.isOutside → assertsBefore last.toList →
      Reads .plain last cs out → Reads state last ('!' :: cs) out
  | skip {state last c cs out} : state.isOutside → isBlank c → Reads .blank last cs out →
      Reads state last (c :: cs) out
  | space {last c cs out} : isBlank c → Reads .blank (some ' ') cs out →
      Reads .plain last (c :: cs) (' ' :: out)
  | copy {state last c cs out} : state.isOutside → isQuote c = false → isBlank c = false →
      Reads .plain (some c) cs out → Reads state last (c :: cs) (c :: out)

theorem isOutside_of {state : Scan} (notQuoted : ∀ q, state = .quoted q → False)
    (notEscaped : ∀ q, state = .escaped q → False) : state.isOutside = true := by
  cases state with
  | plain | blank => rfl
  | quoted q => exact (notQuoted q rfl).elim
  | escaped q => exact (notEscaped q rfl).elim

theorem assertsBefore_head? (out : List Char) :
    assertsBefore out.head?.toList = assertsBefore out := by
  cases out <;> rfl

theorem written_cons {text out : List Char} {c : Char} {later before : List Char → Prop}
    (reads : ∀ written, later written → before (c :: written))
    (rest : ∃ written, text = (c :: out).reverse ++ written ∧ later written) :
    ∃ written, text = out.reverse ++ written ∧ before written := by
  obtain ⟨written, equal, isLater⟩ := rest
  exact ⟨c :: written, by simpa using equal, reads written isLater⟩

theorem reads_normalFrom (state : Scan) (out cs : List Char) :
    ∃ written, normalFrom state out cs = out.reverse ++ written ∧ Reads state out.head? cs written := by
  fun_induction normalFrom state out cs with
  | case1 => exact ⟨[], by simp, .done⟩
  | case2 q out cs ih => exact written_cons (fun _ => .backslash) ih
  | case3 out c cs notBackslash ih => exact written_cons (fun _ => .closing notBackslash) ih
  | case4 q out c cs notBackslash notMark ih =>
    exact written_cons (fun _ => .inside notBackslash notMark) ih
  | case5 q out c cs ih => exact written_cons (fun _ => .escaped) ih
  | case6 state out c cs notQuoted notEscaped quote ih =>
    exact written_cons (fun _ => .opening (isOutside_of notQuoted notEscaped) quote) ih
  | case7 state out c cs notQuoted notEscaped _ chains ih =>
    simp only [Bool.and_eq_true, decide_eq_true_eq] at chains
    obtain ⟨rfl, ahead⟩ := chains
    obtain ⟨written, equal, reads⟩ := ih
    exact ⟨written, equal, .chain (isOutside_of notQuoted notEscaped) ahead reads⟩
  | case8 state out c cs notQuoted notEscaped _ _ asserts ih =>
    simp only [Bool.and_eq_true, decide_eq_true_eq] at asserts
    obtain ⟨⟨rfl, before⟩, -⟩ := asserts
    rw [← assertsBefore_head?] at before
    obtain ⟨written, equal, reads⟩ := ih
    exact ⟨written, equal, .assertion (isOutside_of notQuoted notEscaped) before reads⟩
  | case9 state out c cs notQuoted notEscaped _ _ _ blank _ ih =>
    obtain ⟨written, equal, reads⟩ := ih
    exact ⟨written, equal, .skip (isOutside_of notQuoted notEscaped) blank reads⟩
  | case10 state out c cs notQuoted notEscaped _ _ _ blank apart ih =>
    -- The state is not `blank` here, and of the states outside of quotes `plain` is the other one.
    obtain rfl : state = .plain := by
      cases state with
      | plain => rfl
      | blank => simp at apart
      | quoted q => exact (notQuoted q rfl).elim
      | escaped q => exact (notEscaped q rfl).elim
    exact written_cons (fun _ => .space blank) ih
  | case11 state out c cs notQuoted notEscaped notQuote _ _ notBlank ih =>
    exact written_cons (fun _ => .copy (isOutside_of notQuoted notEscaped)
      (Bool.eq_false_iff.mpr notQuote) (Bool.eq_false_iff.mpr notBlank)) ih

theorem reads_normalChars (cs : List Char) : Reads .plain none (trim cs) (normalChars cs) := by
  obtain ⟨written, equal, reads⟩ := reads_normalFrom .plain [] (trim cs)
  rw [normalChars, equal]
  exact reads

/-! ## Quoted spans and the text between them -/

/-- A piece of a text: a quoted span with its marks, or text outside of spans. -/
inductive Piece where
  | plain (text : List Char)
  | quoted (text : List Char)
deriving DecidableEq, Repr

def Piece.text : Piece → List Char
  | .plain text | .quoted text => text

def Piece.plain? : Piece → Option (List Char)
  | .plain text => some text
  | .quoted _ => none

def Piece.quoted? : Piece → Option (List Char)
  | .plain _ => none
  | .quoted text => some text

/-- Where a reader of spans stands: between spans, in one with the given mark, or there after a
backslash that takes the meaning from the next character. -/
inductive Within where
  | between
  | span (mark : Char)
  | escape (mark : Char)

/-- The rest of the piece in which the reader stands, and the pieces after it.  A quotation mark opens a
span and the next such mark closes it, unless a backslash precedes it; a span that is not closed goes to
the end. -/
def cutFrom : Within → List Char → List Char × List Piece
  | _, [] => ([], [])
  | .between, c :: cs =>
    if isQuote c then
      let (span, pieces) := cutFrom (.span c) cs
      ([], .quoted (c :: span) :: pieces)
    else
      let (plain, pieces) := cutFrom .between cs
      (c :: plain, pieces)
  | .span mark, c :: cs =>
    if c = mark then
      let (plain, pieces) := cutFrom .between cs
      ([c], .plain plain :: pieces)
    else
      let (span, pieces) := cutFrom (if c = '\\' then .escape mark else .span mark) cs
      (c :: span, pieces)
  | .escape mark, c :: cs =>
    let (span, pieces) := cutFrom (.span mark) cs
    (c :: span, pieces)

/-- A text cut into the text before its first quoted span, that span, the text after it, and so on. -/
def cut (cs : List Char) : List Piece :=
  let (plain, pieces) := cutFrom .between cs
  .plain plain :: pieces

def spans (cs : List Char) : List (List Char) := (cut cs).filterMap Piece.quoted?

/-- The texts between the quoted spans, before the first and after the last one included. -/
def gaps (cs : List Char) : List (List Char) := (cut cs).filterMap Piece.plain?

theorem cutFrom_flatMap (within : Within) (cs : List Char) :
    (cutFrom within cs).1 ++ (cutFrom within cs).2.flatMap Piece.text = cs := by
  fun_induction cutFrom within cs <;> simp_all [Piece.text]

theorem cut_flatMap (cs : List Char) : (cut cs).flatMap Piece.text = cs :=
  cutFrom_flatMap .between cs

example : cut "a ? 'it\\'s' : `b".toList =
    [.plain "a ? ".toList, .quoted "'it\\'s'".toList, .plain " : ".toList, .quoted "`b".toList] := by
  decide

/-! ## The two readers side by side -/

def isLasting (c : Char) : Bool := !isBlank c && c ≠ '?' && c ≠ '!'

def SingleSpaced (cs : List Char) : Prop := cs.IsChain fun c d => ¬(c = ' ' ∧ d = ' ')

instance (cs : List Char) : Decidable (SingleSpaced cs) :=
  inferInstanceAs (Decidable (List.IsChain _ _))

/-- `out` is a neat form of the text between two spans, when `last` was written before it. -/
structure Neat (last : Option Char) (out text : List Char) : Prop where
  blanks : ∀ c ∈ out, isBlank c → c = ' '
  single : SingleSpaced (last.toList ++ out)
  lasting : out.filter isLasting = text.filter isLasting

theorem SingleSpaced.cons {last : Option Char} {c : Char} {out : List Char}
    (apart : last = some ' ' → c ≠ ' ') (single : SingleSpaced (c :: out)) :
    SingleSpaced (last.toList ++ c :: out) := by
  cases last with
  | none => exact single
  | some d =>
    refine List.isChain_cons_cons.mpr ⟨?_, single⟩
    rintro ⟨rfl, isSpace⟩
    exact apart rfl isSpace

namespace Neat

variable {last : Option Char} {c : Char} {out text : List Char}

theorem nil : Neat last [] [] where
  blanks := by simp
  single := by cases last <;> simp [SingleSpaced]
  lasting := rfl

theorem copy (solid : isBlank c = false) (neat : Neat (some c) out text) :
    Neat last (c :: out) (c :: text) where
  blanks := by
    refine List.forall_mem_cons.mpr ⟨fun blank => ?_, neat.blanks⟩
    rw [solid] at blank
    cases blank
  single := by
    refine neat.single.cons fun _ => ?_
    rintro rfl
    exact absurd solid (by decide)
  lasting := by simp only [List.filter_cons, neat.lasting]

theorem space (apart : last ≠ some ' ') (blank : isBlank c) (neat : Neat (some ' ') out text) :
    Neat last (' ' :: out) (c :: text) where
  blanks := List.forall_mem_cons.mpr ⟨fun _ => rfl, neat.blanks⟩
  single := neat.single.cons fun isSpace => (apart isSpace).elim
  lasting := by
    have passing : isLasting c = false := by simp [isLasting, blank]
    rw [List.filter_cons_of_neg (by decide), List.filter_cons_of_neg (by simp [passing])]
    exact neat.lasting

theorem drop (passing : isLasting c = false) (neat : Neat last out text) :
    Neat last out (c :: text) where
  blanks := neat.blanks
  single := neat.single
  lasting := by
    rw [List.filter_cons_of_neg (by simp [passing])]
    exact neat.lasting

theorem alone (neat : Neat last out text) : Neat none out text where
  blanks := neat.blanks
  single := neat.single.right_of_append
  lasting := neat.lasting

end Neat

/-- What may become of a piece: a span stays as it is, and other text becomes neat. -/
inductive Kept : Piece → Piece → Prop where
  | plain {out text} : Neat none out text → Kept (.plain out) (.plain text)
  | quoted {text} : Kept (.quoted text) (.quoted text)

inductive HeadKept (last : Option Char) : Within → List Char → List Char → Prop where
  | between {out text} : Neat last out text → HeadKept last .between out text
  | span {mark text} : HeadKept last (.span mark) text text
  | escape {mark text} : HeadKept last (.escape mark) text text

theorem HeadKept.eq {last : Option Char} {within : Within} {out text : List Char}
    (kept : HeadKept last within out text) (inside : within ≠ .between) : out = text := by
  cases kept with
  | between => exact absurd rfl inside
  | span | escape => rfl

/-- The reader of spans finds the same spans in `out` and in `cs`, and neat text between them in `out`. -/
structure CutAlike (last : Option Char) (within : Within) (out cs : List Char) : Prop where
  head : HeadKept last within (cutFrom within out).1 (cutFrom within cs).1
  later : List.Forall₂ Kept (cutFrom within out).2 (cutFrom within cs).2

theorem isQuote_of_blank {c : Char} (blank : isBlank c) : isQuote c = false := by
  rw [Bool.eq_false_iff]
  intro quote
  simp only [isQuote, Bool.or_eq_true, decide_eq_true_eq] at quote
  rcases quote with (rfl | rfl) | rfl <;> exact absurd blank (by decide)

namespace CutAlike

variable {last : Option Char} {c mark : Char} {out cs : List Char}

theorem nil {within : Within} : CutAlike last within [] [] where
  head := by
    cases within with
    | between => exact .between .nil
    | span mark => exact .span
    | escape mark => exact .escape
  later := by cases within <;> exact .nil

theorem copy (notQuote : isQuote c = false) (solid : isBlank c = false)
    (alike : CutAlike (some c) .between out cs) : CutAlike last .between (c :: out) (c :: cs) := by
  obtain ⟨⟨neat⟩, later⟩ := alike
  constructor
  · simpa [cutFrom, notQuote] using HeadKept.between (neat.copy solid)
  · simpa [cutFrom, notQuote] using later

theorem space (apart : last ≠ some ' ') (blank : isBlank c)
    (alike : CutAlike (some ' ') .between out cs) : CutAlike last .between (' ' :: out) (c :: cs) := by
  obtain ⟨⟨neat⟩, later⟩ := alike
  have noQuote : isQuote ' ' = false := by decide
  constructor
  · simpa [cutFrom, isQuote_of_blank blank, noQuote] using HeadKept.between (neat.space apart blank)
  · simpa [cutFrom, isQuote_of_blank blank, noQuote] using later

theorem drop (notQuote : isQuote c = false) (passing : isLasting c = false)
    (alike : CutAlike last .between out cs) : CutAlike last .between out (c :: cs) := by
  obtain ⟨⟨neat⟩, later⟩ := alike
  constructor
  · simpa [cutFrom, notQuote] using HeadKept.between (neat.drop passing)
  · simpa [cutFrom, notQuote] using later

theorem opening (quote : isQuote c) (alike : CutAlike (some c) (.span c) out cs) :
    CutAlike last .between (c :: out) (c :: cs) := by
  have span := alike.head.eq Within.noConfusion
  constructor
  · simpa [cutFrom, quote] using HeadKept.between Neat.nil
  · simpa [cutFrom, quote, span] using And.intro Kept.quoted alike.later

theorem closing (alike : CutAlike (some mark) .between out cs) :
    CutAlike last (.span mark) (mark :: out) (mark :: cs) := by
  obtain ⟨⟨neat⟩, later⟩ := alike
  constructor
  · simpa [cutFrom] using HeadKept.span
  · simpa [cutFrom] using And.intro (Kept.plain neat.alone) later

theorem inside (notBackslash : c ≠ '\\') (notMark : c ≠ mark)
    (alike : CutAlike (some c) (.span mark) out cs) :
    CutAlike last (.span mark) (c :: out) (c :: cs) := by
  have span := alike.head.eq Within.noConfusion
  constructor
  · simpa [cutFrom, notBackslash, notMark, span] using HeadKept.span
  · simpa [cutFrom, notBackslash, notMark] using alike.later

theorem backslash (quote : isQuote mark) (alike : CutAlike (some '\\') (.escape mark) out cs) :
    CutAlike last (.span mark) ('\\' :: out) ('\\' :: cs) := by
  have span := alike.head.eq Within.noConfusion
  have notMark : '\\' ≠ mark := by
    rintro rfl
    exact absurd quote (by decide)
  constructor
  · simpa [cutFrom, notMark, span] using HeadKept.span
  · simpa [cutFrom, notMark] using alike.later

theorem escaped (alike : CutAlike (some c) (.span mark) out cs) :
    CutAlike last (.escape mark) (c :: out) (c :: cs) := by
  have span := alike.head.eq Within.noConfusion
  constructor
  · simpa [cutFrom, span] using HeadKept.escape
  · simpa [cutFrom] using alike.later

end CutAlike

def Scan.within : Scan → Within
  | .plain | .blank => .between
  | .quoted q => .span q
  | .escaped q => .escape q

theorem within_of_isOutside {state : Scan} (outside : state.isOutside) : state.within = .between := by
  cases state with
  | plain | blank => rfl
  | quoted q | escaped q => cases outside

/-- What holds of the reader at each character: its marks are quotation marks, and if it stands after
text but wrote a space last, the question mark of a chain was left out just now and its dot follows. -/
inductive Ready (last : Option Char) (cs : List Char) : Scan → Prop where
  | plain : (last = some ' ' → cs.head? = some '.') → Ready last cs .plain
  | blank : Ready last cs .blank
  | quoted {q} : isQuote q → Ready last cs (.quoted q)
  | escaped {q} : isQuote q → Ready last cs (.escaped q)

theorem Ready.afterSolid {c : Char} {cs : List Char} (solid : isBlank c = false) :
    Ready (some c) cs .plain := by
  refine .plain fun isSpace => ?_
  obtain rfl := Option.some.inj isSpace
  exact absurd solid (by decide)

theorem isBlank_of_isQuote {c : Char} (quote : isQuote c) : isBlank c = false := by
  rw [Bool.eq_false_iff]
  intro blank
  rw [isQuote_of_blank blank] at quote
  cases quote

theorem head?_of_chainsAhead {cs : List Char} (ahead : chainsAhead cs) : cs.head? = some '.' := by
  unfold chainsAhead at ahead
  split at ahead
  · rfl
  · rfl
  · cases ahead

/-- Both readers go through the text and what is written for it in step. -/
theorem Reads.cutAlike {state : Scan} {last : Option Char} {cs out : List Char}
    (reads : Reads state last cs out) (ready : Ready last cs state) :
    CutAlike last state.within out cs := by
  induction reads with
  | done => exact .nil
  | backslash _ ih =>
    cases ready with
    | quoted quote => exact .backslash quote (ih (.escaped quote))
  | escaped _ ih =>
    cases ready with
    | escaped quote => exact .escaped (ih (.quoted quote))
  | inside notBackslash notMark _ ih =>
    cases ready with
    | quoted quote => exact .inside notBackslash notMark (ih (.quoted quote))
  | closing _ _ ih =>
    cases ready with
    | quoted quote => exact .closing (ih (.afterSolid (isBlank_of_isQuote quote)))
  | opening outside quote _ ih =>
    rw [within_of_isOutside outside]
    exact .opening quote (ih (.quoted quote))
  | chain outside ahead _ ih =>
    -- The only place where a space may have been written last though no blank was read last.
    rw [within_of_isOutside outside]
    exact .drop (by decide) (by decide) (ih (.plain fun _ => head?_of_chainsAhead ahead))
  | assertion outside asserts _ ih =>
    rw [within_of_isOutside outside]
    refine .drop (by decide) (by decide) (ih (.plain fun isSpace => ?_))
    rw [isSpace] at asserts
    exact absurd asserts (by decide)
  | skip outside blank _ ih =>
    rw [within_of_isOutside outside]
    exact .drop (isQuote_of_blank blank) (by simp [isLasting, blank]) (ih .blank)
  | space blank _ ih =>
    -- A second space would need a blank where the dot of a chain has to be.
    cases ready with
    | plain dotAhead =>
      refine .space (fun isSpace => ?_) blank (ih .blank)
      obtain rfl := Option.some.inj (dotAhead isSpace)
      exact absurd blank (by decide)
  | copy outside notQuote solid _ ih =>
    rw [within_of_isOutside outside]
    exact .copy notQuote solid (ih (.afterSolid solid))

/-! ## The two ends -/

def StartsSolid (cs : List Char) : Prop := ∀ c ∈ cs.head?, isBlank c = false

def EndsSolid (cs : List Char) : Prop := ∀ c ∈ cs.getLast?, isBlank c = false

theorem startsSolid_cons {c : Char} (solid : isBlank c = false) (cs : List Char) :
    StartsSolid (c :: cs) := by
  intro c' first
  cases first
  exact solid

theorem startsSolid_trimFront (cs : List Char) : StartsSolid (trimFront cs) := by
  intro c isFirst
  have first := List.head?_dropWhile_not isBlank cs
  rw [trimFront, Option.mem_def] at isFirst
  rwa [isFirst] at first

theorem endsSolid_trim (cs : List Char) : EndsSolid (trim cs) := by
  intro c isLast
  rw [trim, trimBack, List.getLast?_reverse] at isLast
  exact startsSolid_trimFront _ c isLast

theorem startsSolid_trim (cs : List Char) : StartsSolid (trim cs) := by
  intro c isFirst
  have front : trim cs <+: trimFront cs := by
    have back := List.reverse_prefix.mpr (List.dropWhile_suffix (l := (trimFront cs).reverse) isBlank)
    rwa [List.reverse_reverse] at back
  obtain ⟨rest, whole⟩ := front
  refine startsSolid_trimFront cs c ?_
  rw [← whole, List.head?_append, Option.mem_def.mp isFirst]
  rfl

theorem Reads.startsSolid {state : Scan} {last : Option Char} {cs out : List Char}
    (reads : Reads state last cs out) (fresh : last = none) (starts : StartsSolid cs) :
    StartsSolid out := by
  induction reads with
  | done => simp [StartsSolid]
  | backslash _ _ | escaped _ _ | inside _ _ _ _ | closing _ _ _ | opening _ _ _ _ | copy _ _ _ _ _ =>
    simpa [StartsSolid] using starts
  | chain _ ahead _ ih =>
    refine ih fresh ?_
    rw [StartsSolid, head?_of_chainsAhead ahead]
    simp [isBlank]
  | assertion _ asserts _ _ =>
    rw [fresh] at asserts
    exact absurd asserts (by decide)
  | skip _ blank _ _ | space blank _ _ =>
    have solid := starts _ rfl
    rw [blank] at solid
    cases solid

theorem endsSolid_append {l cs : List Char} (some : cs ≠ []) : EndsSolid (l ++ cs) ↔ EndsSolid cs := by
  rw [EndsSolid, List.getLast?_append_of_ne_nil l some, EndsSolid]

theorem EndsSolid.ne_nil_of_blank {l cs : List Char} {c : Char} (ends : EndsSolid (l ++ c :: cs))
    (blank : isBlank c) : cs ≠ [] := by
  rintro rfl
  have solid := ends c (by simp)
  rw [blank] at solid
  cases solid

theorem EndsSolid.tail {l l' cs : List Char} {c : Char} (ends : EndsSolid (l ++ c :: cs))
    (some : cs ≠ []) : EndsSolid (l' ++ cs) := by
  rw [endsSolid_append (List.cons_ne_nil c cs), ← List.singleton_append, endsSolid_append some] at ends
  exact (endsSolid_append some).mpr ends

/-- What is written ends as what is read does, since only marks after names are left out at the end. -/
theorem Reads.endsSolid {state : Scan} {last : Option Char} {cs out : List Char}
    (reads : Reads state last cs out) (ends : EndsSolid (last.toList ++ cs)) :
    EndsSolid (last.toList ++ out) := by
  induction reads with
  | done => exact ends
  | backslash _ ih | escaped _ ih | inside _ _ _ ih | closing _ _ ih | opening _ _ _ ih
  | copy _ _ _ _ ih =>
    rw [endsSolid_append (List.cons_ne_nil _ _)] at ends ⊢
    exact ih ends
  | chain _ ahead _ ih =>
    refine ih (ends.tail ?_)
    rintro rfl
    exact absurd ahead (by decide)
  | @assertion _ last cs _ _ asserts _ ih =>
    by_cases nothing : cs = []
    · -- What was written last is what the mark is about.
      refine ih fun c isLast => isBlank_of_assertsBefore asserts c ?_
      cases last with
      | none => simp [nothing] at isLast
      | some d => simpa [nothing] using isLast
    · exact ih (ends.tail nothing)
  | skip _ blank _ ih => exact ih (ends.tail (ends.ne_nil_of_blank blank))
  | space blank _ ih =>
    rw [endsSolid_append (List.cons_ne_nil _ _)]
    exact ih (ends.tail (ends.ne_nil_of_blank blank))

/-! ## The main statement -/

theorem forall₂_cut_normalChars (cs : List Char) :
    List.Forall₂ Kept (cut (normalChars cs)) (cut (trim cs)) := by
  have alike := (reads_normalChars cs).cutAlike (.plain (by simp))
  cases alike.head with
  | between neat => exact .cons (.plain neat) alike.later

theorem quoted?_of_kept {after before : List Piece} (kept : List.Forall₂ Kept after before) :
    after.filterMap Piece.quoted? = before.filterMap Piece.quoted? := by
  induction kept with
  | nil => rfl
  | cons first _ ih =>
    cases first with
    | plain => exact ih
    | quoted => simp [Piece.quoted?, ih]

theorem plain?_of_kept {after before : List Piece} (kept : List.Forall₂ Kept after before) :
    (after.filterMap Piece.plain?).map (List.filter isLasting) =
      (before.filterMap Piece.plain?).map (List.filter isLasting) ∧
    ∀ gap ∈ after.filterMap Piece.plain?, (∀ c ∈ gap, isBlank c → c = ' ') ∧ SingleSpaced gap := by
  induction kept with
  | nil => simp
  | cons first _ ih =>
    cases first with
    | plain neat =>
      refine ⟨?_, List.forall_mem_cons.mpr ⟨⟨neat.blanks, neat.single⟩, ih.2⟩⟩
      simp [Piece.plain?, neat.lasting, ih.1]
    | quoted => exact ih

/-- **Normal texts keep what is quoted.**  The quoted spans of a normal text are those of the trimmed
text.  Between them there are the same characters, blanks and the marks `?` and `!` apart; no blanks but
single spaces; and no blank at either end. -/
theorem normalize_keeps_quotes (text : String) :
    let before := trim text.toList
    let after := (normalize text).toList
    spans after = spans before ∧
    (gaps after).map (List.filter isLasting) = (gaps before).map (List.filter isLasting) ∧
    (∀ gap ∈ gaps after, (∀ c ∈ gap, isBlank c → c = ' ') ∧ SingleSpaced gap) ∧
    StartsSolid after ∧ EndsSolid after := by
  intro before after
  have isNormal : after = normalChars text.toList := String.toList_ofList
  have reads := reads_normalChars text.toList
  have kept := forall₂_cut_normalChars text.toList
  obtain ⟨lasting, neat⟩ := plain?_of_kept kept
  have starts := reads.startsSolid rfl (startsSolid_trim text.toList)
  have ends : EndsSolid (normalChars text.toList) := by
    simpa using reads.endsSolid (by simpa using endsSolid_trim text.toList)
  rw [isNormal]
  exact ⟨quoted?_of_kept kept, lasting, neat, starts, ends⟩

end TemplateValues.Chain
