import Mathlib.Data.List.Infix
import TemplateValues.Json.Clean
import TemplateValues.Proofs.Json.Document
import TemplateValues.Text.Numeric

/-!
# Cleaning keeps the document

Taking out comments and then trailing commas turns every document with comments into a strict document
that denotes the same value, and leaves strict documents as they are.

Each of the two passes knows strings only as what stands between quotes, so what they have in common is
stated once (`Copying`): a token other than a comma goes through unchanged.  The first pass then has to
deal with gaps and the second with commas.  What the second does to the text is what `untrailed` does to
the tokens, and that is enough, since the grammar puts a comma before a closing bracket nowhere but at
the end of an array or an object.
-/

namespace TemplateValues.Json

open Text

/-! ## Characters -/

/-- The characters that both passes copy outside of strings, and that are not blank. -/
def IsInk (c : Char) : Prop := c ≠ '"' ∧ c ≠ '/' ∧ c ≠ ',' ∧ isBlank c = false

instance (c : Char) : Decidable (IsInk c) := inferInstanceAs (Decidable (_ ∧ _))

def IsNumeric (c : Char) : Prop := c.isDigit ∨ c ∈ ['-', '+', '.', 'e', 'E']

theorem IsNumeric.ne {c : Char} (numeric : IsNumeric c) {d : Char} (digit : d.isDigit = false)
    (sign : d ∉ ['-', '+', '.', 'e', 'E']) : c ≠ d := by
  rintro rfl
  rcases numeric with isDigit | isSign
  · simp [digit] at isDigit
  · exact sign isSign

theorem IsNumeric.ink {c : Char} (numeric : IsNumeric c) : IsInk c := by
  rcases numeric with digit | sign
  · obtain ⟨low, high⟩ := toNat_of_isDigit digit
    have other : ∀ d : Char, d.isDigit = false → c ≠ d := by
      rintro d isOther rfl
      simp [isOther] at digit
    refine ⟨other _ (by decide), other _ (by decide), other _ (by decide), ?_⟩
    simp [isBlank]
    omega
  · simp only [List.mem_cons, List.not_mem_nil, or_false] at sign
    rcases sign with rfl | rfl | rfl | rfl | rfl <;> decide

theorem forall_ink {cs : List Char} (inks : cs.all fun c => IsInk c) : ∀ c ∈ cs, IsInk c := by
  simpa using inks

theorem isBlank_of_isSpace {c : Char} (space : Reader.isSpace c) : isBlank c := by
  simp only [Reader.isSpace, Bool.or_eq_true, decide_eq_true_eq] at space
  rcases space with ((rfl | rfl) | rfl) | rfl <;> decide

theorem ne_of_isSpace {c : Char} (space : Reader.isSpace c) : c ≠ '"' ∧ c ≠ '/' ∧ c ≠ ',' := by
  refine ⟨?_, ?_, ?_⟩ <;> (rintro rfl; exact absurd space (by decide))

/-- A hexadecimal digit neither ends a string nor starts an escape. -/
theorem ne_of_hexDigit? {c : Char} {n : Nat} (hex : Reader.hexDigit? c = some n) :
    c ≠ '"' ∧ c ≠ '\\' := by
  constructor <;> (rintro rfl; cases hex)

/-! ## Numbers -/

theorem IsDigits.numeric {ds : List Char} (digits : IsDigits ds) : ∀ d ∈ ds, IsNumeric d :=
  fun d member => .inl (digits.2 d member)

theorem Fraction.numeric {fraction : Option (List Char)} {cs : List Char}
    (written : Fraction fraction cs) : ∀ c ∈ cs, IsNumeric c := by
  cases written with
  | none => simp
  | some digits =>
    simp only [List.forall_mem_cons]
    exact ⟨.inr (by simp), digits.numeric⟩

theorem Exponent.numeric {exponent : Option (Bool × List Char)} {cs : List Char}
    (written : Exponent exponent cs) : ∀ c ∈ cs, IsNumeric c := by
  have mark : ∀ {e : Char}, e = 'e' ∨ e = 'E' → IsNumeric e := by
    rintro e (rfl | rfl) <;> exact .inr (by simp)
  cases written with
  | none => simp
  | up isMark digits =>
    simp only [List.forall_mem_cons]
    exact ⟨mark isMark, digits.numeric⟩
  | plus isMark digits | minus isMark digits =>
    simp only [List.forall_mem_cons]
    exact ⟨mark isMark, .inr (by simp), digits.numeric⟩

theorem Numeral.numeric {n : Reader.Number} {cs : List Char} (numeral : Numeral n cs) :
    cs ≠ [] ∧ ∀ c ∈ cs, IsNumeric c := by
  obtain ⟨fraction, exponent, isFraction, isExponent, rfl⟩ := numeral.parts
  refine ⟨by simp [numeral.whole.1.1], ?_⟩
  simp only [List.forall_mem_append]
  refine ⟨⟨⟨?_, numeral.whole.1.numeric⟩, isFraction.numeric⟩, isExponent.numeric⟩
  split
  · simp [IsNumeric]
  · simp

/-! ## Tokens go through -/

/-- What the two passes have in common. -/
structure Copying (f : Place → List Char → List Char) : Prop where
  ink {c} (cs : List Char) : IsInk c → f .outside (c :: cs) = c :: f .outside cs
  quote (cs : List Char) : f .outside ('"' :: cs) = '"' :: f .inString cs
  inString (c : Char) (cs : List Char) : f .inString (c :: cs) =
    c :: f (if c = '\\' then .escaped else if c = '"' then .outside else .inString) cs
  escaped (c : Char) (cs : List Char) : f .escaped (c :: cs) = c :: f .inString cs

theorem copying_withoutComments : Copying withoutComments where
  ink cs ink := by simp [withoutComments, ink.1, ink.2.1]
  quote cs := by simp [withoutComments]
  inString c cs := by simp [withoutComments]
  escaped c cs := by simp [withoutComments]

theorem copying_withoutCommas : Copying withoutCommas where
  ink cs ink := by simp [withoutCommas, ink.1, ink.2.2.1]
  quote cs := by simp [withoutCommas]
  inString c cs := by simp [withoutCommas]
  escaped c cs := by simp [withoutCommas]

section Copying

variable {f : Place → List Char → List Char} (copying : Copying f)
include copying

theorem Copying.inks {cs : List Char} (ink : ∀ c ∈ cs, IsInk c) (rest : List Char) :
    f .outside (cs ++ rest) = cs ++ f .outside rest := by
  induction cs with
  | nil => rfl
  | cons c cs ih =>
    rw [List.cons_append, copying.ink _ (ink c List.mem_cons_self),
      ih fun d member => ink d (List.mem_cons_of_mem c member), List.cons_append]

theorem Copying.within {c : Char} (quote : c ≠ '"') (backslash : c ≠ '\\') (cs : List Char) :
    f .inString (c :: cs) = c :: f .inString cs := by
  rw [copying.inString, if_neg backslash, if_neg quote]

theorem Copying.pair (c : Char) (cs : List Char) :
    f .inString ('\\' :: c :: cs) = '\\' :: c :: f .inString cs := by
  rw [copying.inString, if_pos rfl, copying.escaped]

/-- A string is left by its own closing quote. -/
theorem Copying.quotes {units : List Nat} {cs : List Char} (quotes : Quotes units cs)
    (rest : List Char) : f .inString (cs ++ '"' :: rest) = cs ++ '"' :: f .outside rest := by
  induction quotes with
  | nil => rw [List.nil_append, copying.inString, if_neg (by decide), if_pos rfl, List.nil_append]
  | plain quote backslash _ _ ih =>
    rw [List.cons_append, copying.within quote backslash, ih, List.cons_append]
  | escape _ _ ih => simp only [List.cons_append, copying.pair, ih]
  | unit a b c d _ ih =>
    obtain ⟨quoteA, slashA⟩ := ne_of_hexDigit? a
    obtain ⟨quoteB, slashB⟩ := ne_of_hexDigit? b
    obtain ⟨quoteC, slashC⟩ := ne_of_hexDigit? c
    obtain ⟨quoteD, slashD⟩ := ne_of_hexDigit? d
    simp only [List.cons_append, copying.pair, copying.within quoteA slashA,
      copying.within quoteB slashB, copying.within quoteC slashC, copying.within quoteD slashD, ih]

end Copying

/-- A token begins with a character that is not blank, and it is a closing bracket if and only if that
character is one. -/
theorem Token.Spells.front {t : Token} {cs : List Char} (spells : t.Spells cs) :
    ∃ c rest, cs = c :: rest ∧ isBlank c = false ∧ (c = '}' ∨ c = ']' ↔ t.closes) := by
  cases spells with
  | number numeral =>
    obtain ⟨nonempty, numeric⟩ := numeral.numeric
    obtain ⟨c, rest, rfl⟩ := List.exists_cons_of_ne_nil nonempty
    have front := numeric c List.mem_cons_self
    refine ⟨c, rest, rfl, front.ink.2.2.2, ?_⟩
    simp [Token.closes, front.ne (d := '}') (by decide) (by decide),
      front.ne (d := ']') (by decide) (by decide)]
  | _ => exact ⟨_, _, rfl, by decide, by simp [Token.closes]⟩

theorem Copying.token {f : Place → List Char → List Char} (copying : Copying f) {t : Token}
    {cs : List Char} (spells : t.Spells cs) (other : t ≠ .comma) (rest : List Char) :
    f .outside (cs ++ rest) = cs ++ f .outside rest := by
  cases spells with
  | comma => exact absurd rfl other
  | number numeral => exact copying.inks (fun c member => (numeral.numeric.2 c member).ink) rest
  | string quotes =>
    simp only [List.cons_append, List.append_assoc, List.nil_append, copying.quote, copying.quotes quotes]
  | _ => exact copying.inks (forall_ink (by decide)) rest

/-! ## The first pass: comments -/

theorem withoutComments_blanks {w : List Char} (blank : IsBlank w) (rest : List Char) :
    withoutComments .outside (w ++ rest) = w ++ withoutComments .outside rest := by
  induction w with
  | nil => rfl
  | cons c w ih =>
    obtain ⟨quote, slash, -⟩ := ne_of_isSpace (blank c List.mem_cons_self)
    have tail := ih fun d member => blank d (List.mem_cons_of_mem c member)
    simp [withoutComments, quote, slash, tail]

theorem withoutComments_token {t : Token} {cs : List Char} (spells : t.Spells cs) (rest : List Char) :
    withoutComments .outside (cs ++ rest) = cs ++ withoutComments .outside rest := by
  by_cases comma : t = .comma
  · subst comma
    cases spells
    simp [withoutComments]
  · exact copying_withoutComments.token spells comma rest

/-- A line comment goes up to the line break, which stays. -/
theorem withoutComments_line {body : List Char} (line : '\n' ∉ body) (rest : List Char) :
    withoutComments .lineComment (body ++ '\n' :: rest) = '\n' :: withoutComments .outside rest := by
  induction body with
  | nil => simp [withoutComments]
  | cons c body ih =>
    simp only [List.mem_cons, not_or] at line
    simp [withoutComments, Ne.symm line.1, ih line.2]

theorem withoutComments_lastLine {body : List Char} (line : '\n' ∉ body) :
    withoutComments .lineComment body = [] := by
  induction body with
  | nil => rfl
  | cons c body ih =>
    simp only [List.mem_cons, not_or] at line
    simp [withoutComments, Ne.symm line.1, ih line.2]

/-- A comment that was opened goes up to its end.  The character before counts too: with it the
comment must not be at its end yet. -/
theorem withoutComments_block {previous : Char} {body : List Char}
    (inside : ¬ ['*', '/'] <:+: previous :: body) (rest : List Char) :
    withoutComments (.blockComment previous) (body ++ '*' :: '/' :: rest) =
      withoutComments .outside rest := by
  induction body generalizing previous with
  | nil =>
    have star : withoutComments (.blockComment '*') ('/' :: rest) = withoutComments .outside rest := by
      simp [withoutComments]
    rw [List.nil_append, withoutComments, if_neg (by simp), star]
  | cons c body ih =>
    have open' : ¬ (previous = '*' ∧ c = '/') := by
      rintro ⟨rfl, rfl⟩
      exact inside ⟨[], body, rfl⟩
    have later : ¬ ['*', '/'] <:+: c :: body := fun found => inside (found.trans (List.infix_cons (List.infix_refl _)))
    rw [List.cons_append, withoutComments, if_neg (by simpa using open'), ih later]

/-- Of a gap only blanks are left. -/
theorem withoutComments_gap {w : List Char} (gap : Gap w) :
    ∃ blanks, IsBlank blanks ∧
      ∀ rest, withoutComments .outside (w ++ rest) = blanks ++ withoutComments .outside rest := by
  induction gap with
  | nil => exact ⟨[], by simp [IsBlank], fun rest => rfl⟩
  | @blank c w space _ ih =>
    obtain ⟨blanks, isBlank, cleaned⟩ := ih
    refine ⟨c :: blanks, ?_, fun rest => ?_⟩
    · simpa [IsBlank] using ⟨space, isBlank⟩
    · have single : IsBlank [c] := by simpa [IsBlank] using space
      have front := withoutComments_blanks single (w ++ rest)
      simpa [cleaned rest] using front
  | @line body w line _ ih =>
    obtain ⟨blanks, isBlank, cleaned⟩ := ih
    refine ⟨'\n' :: blanks, ?_, fun rest => ?_⟩
    · have space : Reader.isSpace '\n' := by decide
      simpa [IsBlank] using ⟨space, isBlank⟩
    · -- the second slash is part of the comment
      have skipped : '\n' ∉ '/' :: body := by simpa using line
      simpa [withoutComments, cleaned rest] using withoutComments_line skipped (w ++ rest)
  | @block body w block _ ih =>
    obtain ⟨blanks, isBlank, cleaned⟩ := ih
    refine ⟨blanks, isBlank, fun rest => ?_⟩
    have inside : ¬ ['*', '/'] <:+: Char.ofNat 0 :: body := by
      rw [List.infix_cons_iff]
      rintro (atFront | found)
      · simp at atFront
      · exact block found
    simpa [withoutComments, cleaned rest] using withoutComments_block inside (w ++ rest)

theorem withoutComments_lastGap {w : List Char} (gap : LastGap w) :
    IsBlank (withoutComments .outside w) := by
  cases gap with
  | gap gap =>
    obtain ⟨blanks, isBlank, cleaned⟩ := withoutComments_gap gap
    have whole := cleaned []
    simp only [List.append_nil, withoutComments] at whole
    rwa [whole]
  | @line w body gap line =>
    obtain ⟨blanks, isBlank, cleaned⟩ := withoutComments_gap gap
    have last := withoutComments_lastLine line
    rw [cleaned]
    simpa [withoutComments, last] using isBlank

/-- The first pass keeps the tokens and leaves blanks in the gaps. -/
theorem Spaced.withoutComments {ts : List Token} {text : List Char} (spaced : Spaced Gap LastGap ts text) :
    Spaced IsBlank IsBlank ts (withoutComments .outside text) := by
  induction spaced with
  | nil last => exact .nil (withoutComments_lastGap last)
  | cons gap spells _ ih =>
    obtain ⟨blanks, isBlank, cleaned⟩ := withoutComments_gap gap
    rw [cleaned, withoutComments_token spells]
    exact .cons isBlank spells ih

theorem Spaced.withoutComments_eq {ts : List Token} {text : List Char}
    (spaced : Spaced IsBlank IsBlank ts text) : Json.withoutComments .outside text = text := by
  induction spaced with
  | nil blank => simpa [Json.withoutComments] using withoutComments_blanks blank []
  | cons blank spells _ ih => rw [withoutComments_blanks blank, withoutComments_token spells, ih]

/-! ## The second pass: commas -/

/-- The tokens without commas before closing brackets. -/
def untrailed : List Token → List Token
  | [] => []
  | .comma :: ts => if ts.head?.any Token.closes then untrailed ts else .comma :: untrailed ts
  | t :: ts => t :: untrailed ts

theorem untrailed_cons {t : Token} (other : t ≠ .comma) (ts : List Token) :
    untrailed (t :: ts) = t :: untrailed ts := by
  cases t <;> first | rfl | exact absurd rfl other

theorem length_untrailed_le (ts : List Token) : (untrailed ts).length ≤ ts.length := by
  fun_induction untrailed ts with
  | case1 => simp
  | case2 | case3 | case4 => simp; omega

theorem trimFront_blanks {w : List Char} (blank : IsBlank w) (rest : List Char) :
    trimFront (w ++ rest) = trimFront rest := by
  apply List.dropWhile_append_of_pos
  exact fun c member => isBlank_of_isSpace (blank c member)

/-- What comes next in the text is a closing bracket if the next token is one. -/
theorem Spaced.closesNext {ts : List Token} {text : List Char} (spaced : Spaced IsBlank IsBlank ts text) :
    Json.closesNext text = ts.head?.any Token.closes := by
  cases spaced with
  | nil blank =>
    have nothing : trimFront text = [] := by simpa [trimFront] using trimFront_blanks blank []
    simp [Json.closesNext, nothing]
  | cons blank spells rest =>
    obtain ⟨c, cs, rfl, ink, closes⟩ := spells.front
    rw [Json.closesNext, trimFront_blanks blank]
    simp only [List.cons_append, trimFront, List.dropWhile_cons, ink]
    rw [Bool.eq_iff_iff]
    simpa using closes

theorem withoutCommas_blanks {w : List Char} (blank : IsBlank w) (rest : List Char) :
    withoutCommas .outside (w ++ rest) = w ++ withoutCommas .outside rest := by
  induction w with
  | nil => rfl
  | cons c w ih =>
    obtain ⟨quote, -, comma⟩ := ne_of_isSpace (blank c List.mem_cons_self)
    have tail := ih fun d member => blank d (List.mem_cons_of_mem c member)
    simp [withoutCommas, quote, comma, tail]

theorem withoutCommas_comma {ts : List Token} {text : List Char}
    (spaced : Spaced IsBlank IsBlank ts text) :
    withoutCommas .outside (',' :: text) =
      if ts.head?.any Token.closes then withoutCommas .outside text
      else ',' :: withoutCommas .outside text := by
  simp [withoutCommas, spaced.closesNext]

theorem Spaced.blank_append {ts : List Token} {w text : List Char} (blank : IsBlank w)
    (spaced : Spaced IsBlank IsBlank ts text) : Spaced IsBlank IsBlank ts (w ++ text) := by
  have together : ∀ {u : List Char}, IsBlank u → IsBlank (w ++ u) := by
    intro u blank'
    simpa [IsBlank, or_imp, forall_and] using ⟨blank, blank'⟩
  cases spaced with
  | nil last => exact .nil (together last)
  | cons gap spells rest =>
    rw [← List.append_assoc]
    exact .cons (together gap) spells rest

/-- The second pass takes out just the commas that are trailing among the tokens. -/
theorem Spaced.withoutCommas {ts : List Token} {text : List Char}
    (spaced : Spaced IsBlank IsBlank ts text) :
    Spaced IsBlank IsBlank (untrailed ts) (withoutCommas .outside text) := by
  induction spaced with
  | nil blank =>
    have same : Json.withoutCommas .outside _ = _ := withoutCommas_blanks blank []
    rw [List.append_nil] at same
    rw [same]
    exact .nil (by simpa [Json.withoutCommas] using blank)
  | @cons w t cs ts text blank spells rest ih =>
    rw [withoutCommas_blanks blank]
    by_cases comma : t = .comma
    · subst comma
      cases spells
      rw [List.singleton_append, withoutCommas_comma rest, untrailed]
      split
      · exact ih.blank_append blank
      · exact .cons blank .comma ih
    · rw [copying_withoutCommas.token spells comma, untrailed_cons comma]
      exact .cons blank spells ih

theorem Spaced.withoutCommas_eq {ts : List Token} {text : List Char}
    (spaced : Spaced IsBlank IsBlank ts text) (tidy : untrailed ts = ts) :
    Json.withoutCommas .outside text = text := by
  induction spaced with
  | nil blank => simpa [Json.withoutCommas] using withoutCommas_blanks blank []
  | @cons w t cs ts text blank spells rest ih =>
    rw [withoutCommas_blanks blank]
    by_cases comma : t = .comma
    · subst comma
      cases spells
      rw [List.singleton_append, withoutCommas_comma rest]
      rw [untrailed] at tidy
      split at tidy
      · -- a comma taken out would be missing in the tokens
        have shorter := length_untrailed_le ts
        rw [tidy, List.length_cons] at shorter
        omega
      · rename_i open'
        rw [if_neg open', ih (List.cons.inj tidy).2]
    · rw [untrailed_cons comma] at tidy
      rw [copying_withoutCommas.token spells comma, ih (List.cons.inj tidy).2]

/-! ## What the grammar says about commas -/

theorem Reads.front {trailing : Bool} {p : Phrase} {ts : List Token} (reads : Reads trailing p ts) :
    ∃ t us, ts = t :: us ∧ t.closes = false := by
  induction reads with
  | lastElement _ ih => exact ih
  | element _ _ ih _ =>
    obtain ⟨t, us, rfl, opens⟩ := ih
    exact ⟨t, _, rfl, opens⟩
  | _ => exact ⟨_, _, rfl, rfl⟩

theorem untrailed_comma_append {trailing : Bool} {p : Phrase} {ts : List Token}
    (reads : Reads trailing p ts) (rest : List Token) :
    untrailed (.comma :: (ts ++ rest)) = .comma :: untrailed (ts ++ rest) := by
  obtain ⟨t, us, rfl, opens⟩ := reads.front
  simp [untrailed, opens]

theorem untrailed_ending {trailing : Bool} {last : List Token} (ending : Ending trailing last) {t : Token}
    (closes : t.closes) (rest : List Token) :
    untrailed (last ++ t :: rest) = t :: untrailed rest := by
  have other : t ≠ .comma := by
    rintro rfl
    cases closes
  cases ending with
  | plain => exact untrailed_cons other rest
  | comma => simp [untrailed, closes, untrailed_cons other]

/-- Without trailing commas the tokens are the same phrase, read strictly. -/
theorem Reads.untrailed {trailing : Bool} {p : Phrase} {ts : List Token} (reads : Reads trailing p ts) :
    ∃ us, Reads false p us ∧ (trailing = false → us = ts) ∧
      ∀ rest, Json.untrailed (ts ++ rest) = us ++ Json.untrailed rest := by
  induction reads with
  | null => exact ⟨_, .null, fun _ => rfl, fun _ => rfl⟩
  | bool => exact ⟨_, .bool, fun _ => rfl, fun _ => rfl⟩
  | number => exact ⟨_, .number, fun _ => rfl, fun _ => rfl⟩
  | string => exact ⟨_, .string, fun _ => rfl, fun _ => rfl⟩
  | emptyArray => exact ⟨_, .emptyArray, fun _ => rfl, fun _ => rfl⟩
  | emptyObject => exact ⟨_, .emptyObject, fun _ => rfl, fun _ => rfl⟩
  | array _ ending ih =>
    obtain ⟨us, strict, same, cleaned⟩ := ih
    refine ⟨_, .array strict .plain, fun isStrict => ?_, fun rest => ?_⟩
    · cases ending with
      | plain => rw [same isStrict]
      | comma isTrailing => simp [isStrict] at isTrailing
    · simp [Json.untrailed, cleaned, untrailed_ending ending (t := .closeArray) rfl]
  | object _ ending ih =>
    obtain ⟨us, strict, same, cleaned⟩ := ih
    refine ⟨_, .object strict .plain, fun isStrict => ?_, fun rest => ?_⟩
    · cases ending with
      | plain => rw [same isStrict]
      | comma isTrailing => simp [isStrict] at isTrailing
    · simp [Json.untrailed, cleaned, untrailed_ending ending (t := .closeObject) rfl]
  | lastElement _ ih =>
    obtain ⟨us, strict, same, cleaned⟩ := ih
    exact ⟨us, .lastElement strict, same, cleaned⟩
  | element _ others ih ihs =>
    obtain ⟨us, strict, same, cleaned⟩ := ih
    obtain ⟨us', strict', same', cleaned'⟩ := ihs
    refine ⟨_, .element strict strict', fun isStrict => ?_, fun rest => ?_⟩
    · rw [same isStrict, same' isStrict]
    · simp [cleaned, untrailed_comma_append others, cleaned']
  | lastMember _ ih =>
    obtain ⟨us, strict, same, cleaned⟩ := ih
    refine ⟨_, .lastMember strict, fun isStrict => ?_, fun rest => ?_⟩
    · rw [same isStrict]
    · simp [Json.untrailed, cleaned]
  | member _ others ih ihs =>
    obtain ⟨us, strict, same, cleaned⟩ := ih
    obtain ⟨us', strict', same', cleaned'⟩ := ihs
    refine ⟨_, .member strict strict', fun isStrict => ?_, fun rest => ?_⟩
    · rw [same isStrict, same' isStrict]
    · simp only [List.cons_append, List.append_assoc]
      rw [untrailed_cons (by simp), untrailed_cons (by simp), cleaned, untrailed_comma_append others,
        cleaned']

/-! ## The main statement -/

/-- **Cleaning keeps the document.**  A text that spells a value with comments and trailing commas is
cleaned to a strict text that denotes the same value; a strict text is left as it is by both passes. -/
theorem denotes_cleaned (text : String) (v : Value) :
    (DenotesWithComments text v → Denotes (stripCommas (stripComments text)) v) ∧
      (Denotes text v → stripComments text = text ∧ stripCommas text = text) := by
  constructor
  · rintro ⟨ts, reads, spaced⟩
    obtain ⟨us, strict, -, cleaned⟩ := reads.untrailed
    have tokens : untrailed ts = us := by simpa [untrailed] using cleaned []
    refine ⟨us, strict, ?_⟩
    simpa [stripCommas, stripComments, tokens] using spaced.withoutComments.withoutCommas
  · rintro ⟨ts, reads, spaced⟩
    obtain ⟨us, -, same, cleaned⟩ := reads.untrailed
    have tidy : untrailed ts = ts := by simpa [untrailed, same rfl] using cleaned []
    constructor
    · rw [stripComments, spaced.withoutComments_eq, String.ofList_toList]
    · rw [stripCommas, spaced.withoutCommas_eq tidy, String.ofList_toList]

namespace Sample

def commented : String := "\x7b\"a\": [\"/*,]\", // \"\n], /*\x7d*/ \x7d"

def cleaned : String := "\x7b\"a\": [\"/*,]\" \n]  \x7d"

def value : Value := .object [([97], .array [.string [47, 42, 44, 93]])]

theorem reads_commented : Reads true (.value value)
    [.openObject, .string [97], .colon, .openArray, .string [47, 42, 44, 93], .comma, .closeArray, .comma,
      .closeObject] :=
  .object (.lastMember (.array (.lastElement .string) (.comma rfl))) (.comma rfl)

theorem spells_ascii (cs : List Char)
    (plain : cs.all fun c => c ≠ '"' ∧ c ≠ '\\' ∧ 0x20 ≤ c.toNat ∧ c.toNat < 0x10000) :
    (Token.string (cs.map Char.toNat)).Spells ('"' :: (cs ++ ['"'])) := by
  apply Token.Spells.string
  induction cs with
  | nil => exact .nil
  | cons c cs ih =>
    simp only [List.all_cons, Bool.and_eq_true, decide_eq_true_eq] at plain
    obtain ⟨⟨quote, backslash, printed, small⟩, rest⟩ := plain
    have units : unitsOf c = [c.toNat] := if_pos small
    have written := Quotes.plain quote backslash printed (ih rest)
    rwa [units] at written

theorem spaced_commented : Spaced Gap LastGap
    [.openObject, .string [97], .colon, .openArray, .string [47, 42, 44, 93], .comma, .closeArray, .comma,
      .closeObject] commented.toList := by
  have space : Gap [' '] := .blank (by decide) .nil
  have line : Gap [' ', '/', '/', ' ', '"', '\n'] :=
    .blank (by decide) (@Gap.line [' ', '"'] [] (by decide) .nil)
  have block : Gap [' ', '/', '*', '}', '*', '/', ' '] :=
    .blank (by decide) (@Gap.block ['}'] [' '] (by decide) space)
  have last : Spaced Gap LastGap [] [] := .nil (.gap .nil)
  have inner := Spaced.cons line .closeArray (.cons .nil .comma (.cons block .closeObject last))
  have element := Spaced.cons .nil (spells_ascii ['/', '*', ',', ']'] (by decide)) (.cons .nil .comma inner)
  have member := Spaced.cons .nil .colon (.cons space .openArray element)
  exact .cons .nil .openObject (.cons .nil (spells_ascii ['a'] (by decide)) member)

end Sample

/-- The comments and the trailing commas go; what stands in the string stays. -/
theorem sample_denotes_cleaned :
    DenotesWithComments Sample.commented Sample.value ∧
    stripCommas (stripComments Sample.commented) = Sample.cleaned ∧
    Denotes Sample.cleaned Sample.value ∧
    stripComments Sample.cleaned = Sample.cleaned ∧ stripCommas Sample.cleaned = Sample.cleaned := by
  have written : DenotesWithComments Sample.commented Sample.value :=
    ⟨_, Sample.reads_commented, Sample.spaced_commented⟩
  have cleaned : stripCommas (stripComments Sample.commented) = Sample.cleaned := by decide
  have denotes := (denotes_cleaned Sample.commented Sample.value).1 written
  rw [cleaned] at denotes
  exact ⟨written, cleaned, denotes, (denotes_cleaned _ Sample.value).2 denotes⟩

end TemplateValues.Json
