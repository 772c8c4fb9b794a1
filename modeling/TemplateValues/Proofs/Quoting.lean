import Mathlib.Data.String.Basic
import TemplateValues.Text.Quoted

/-!
# Quoting

A text is put in quotation marks with backslashes before the mark and before backslashes, and with letters
for line feeds, tabs and carriage returns.  Reading it back gives the text, whatever it is
(`unescape_escaped`): each character is read as a whole, so a backslash never pairs up with what stands
before it.
-/

namespace TemplateValues.Text

def quotationMarks : List Char := ['"', '\x27', '\x60']

/-- A character as it is written between two marks `q`. -/
def escaped (q c : Char) : List Char :=
  if c = '\n' then ['\\', 'n']
  else if c = '\t' then ['\\', 't']
  else if c = '\r' then ['\\', 'r']
  else if c = '\\' ∨ c = q then ['\\', c]
  else [c]

def quoted (q : Char) (text : String) : String :=
  .ofList (q :: (text.toList.flatMap (escaped q) ++ [q]))

theorem isQuote_iff {c : Char} : isQuote c ↔ c ∈ quotationMarks := by
  simp [isQuote, quotationMarks, or_assoc]

/-! ## Escapes -/

theorem unescape_backslash (c : Char) (rest : List Char) :
    unescape ('\\' :: c :: rest) = unescapedChar c :: unescape rest := by
  rw [unescape]

theorem unescape_plain {c : Char} (plain : c ≠ '\\') (rest : List Char) :
    unescape (c :: rest) = c :: unescape rest := by
  rw [unescape]
  rintro _ _ rfl
  exact absurd rfl plain

/-- A mark is none of the letters that stand for something else. -/
theorem unescapedChar_of_mark {c : Char} (mark : c ∈ '\\' :: quotationMarks) : unescapedChar c = c := by
  have all : ('\\' :: quotationMarks).all fun c => unescapedChar c = c := by decide
  exact of_decide_eq_true (List.all_eq_true.mp all c mark)

theorem unescape_escaped {q : Char} (mark : q ∈ quotationMarks) (c : Char) (rest : List Char) :
    unescape (escaped q c ++ rest) = c :: unescape rest := by
  unfold escaped
  split_ifs with feed tab back own
  · subst feed
    exact unescape_backslash 'n' rest
  · subst tab
    exact unescape_backslash 't' rest
  · subst back
    exact unescape_backslash 'r' rest
  · have itself : unescapedChar c = c := by
      apply unescapedChar_of_mark
      rcases own with rfl | rfl
      · exact List.mem_cons_self
      · exact List.mem_cons_of_mem _ mark
    exact (unescape_backslash c rest).trans (congrArg (· :: unescape rest) itself)
  · exact unescape_plain (not_or.mp own).1 rest

theorem unescape_flatMap_escaped {q : Char} (mark : q ∈ quotationMarks) (cs : List Char) :
    unescape (cs.flatMap (escaped q)) = cs := by
  induction cs with
  | nil => rfl
  | cons c cs ih => rw [List.flatMap_cons, unescape_escaped mark, ih]

/-! ## Marks -/

theorem unquote_eq_some_iff {text value : String} :
    unquote text = some value ↔ ∃ q ∈ quotationMarks, ∃ inner,
      text.toList = q :: (inner ++ [q]) ∧ value = .ofList (unescape inner) := by
  rw [unquote]
  constructor
  · intro found
    obtain ⟨chars, read, rfl⟩ := Option.map_eq_some_iff.mp found
    cases split : text.toList with
    | nil => simp [split, unquoteChars] at read
    | cons q cs =>
      rw [split, unquoteChars, Option.ite_none_right_eq_some, Bool.and_eq_true, decide_eq_true_eq] at read
      obtain ⟨⟨mark, last⟩, read⟩ := read
      obtain ⟨inner, rfl⟩ := List.getLast?_eq_some_iff.mp last
      rw [List.dropLast_concat, Option.some.injEq] at read
      exact ⟨q, isQuote_iff.mp mark, inner, rfl, read ▸ rfl⟩
  · rintro ⟨q, mark, inner, split, rfl⟩
    simp [split, unquoteChars, isQuote_iff.mpr mark]

/-- A text that starts and ends with the same mark consists of two of them if it has two bytes. -/
theorem exists_inner {text : String} {q : Char} (mark : q ∈ quotationMarks)
    (size : 2 ≤ text.utf8ByteSize) (starts : text.toList.head? = some q)
    (ends : text.toList.getLast? = some q) : ∃ inner, text.toList = q :: (inner ++ [q]) := by
  have single : q.utf8Size = 1 := by
    have all : quotationMarks.all fun c => c.utf8Size = 1 := by decide
    exact of_decide_eq_true (List.all_eq_true.mp all q mark)
  rw [← String.utf8Len_toList] at size
  obtain ⟨front, split⟩ := List.getLast?_eq_some_iff.mp ends
  rw [split] at starts size ⊢
  cases front with
  | nil =>
    -- a single mark would have to be both the first and the last, and it has one byte
    simp [single] at size
  | cons c inner =>
    obtain rfl : c = q := by simpa using starts
    exact ⟨inner, rfl⟩

theorem unquote_eq_none_iff {text : String} :
    unquote text = none ↔ text.utf8ByteSize < 2 ∨ (∀ q ∈ quotationMarks, text.toList.head? ≠ some q) ∨
      text.toList.getLast? ≠ text.toList.head? := by
  constructor
  · intro unread
    by_contra! quoted
    obtain ⟨size, ⟨q, mark, starts⟩, ends⟩ := quoted
    obtain ⟨inner, split⟩ := exists_inner mark size starts (ends.trans starts)
    rw [unquote_eq_some_iff.mpr ⟨q, mark, inner, split, rfl⟩] at unread
    cases unread
  · intro unquoted
    by_contra read
    obtain ⟨value, read⟩ := Option.ne_none_iff_exists'.mp read
    obtain ⟨q, mark, inner, split, -⟩ := unquote_eq_some_iff.mp read
    rcases unquoted with short | unmarked | differ
    · rw [← String.utf8Len_toList, split, String.utf8Len_cons, String.utf8Len_append,
        String.utf8Len_cons] at short
      have positive := q.utf8Size_pos
      omega
    · exact unmarked q mark (by rw [split, List.head?_cons])
    · apply differ
      rw [split, List.head?_cons, ← List.cons_append, List.getLast?_concat]

/-- **Reading back undoes quoting.**  A text in quotation marks of any of the three kinds, with its
escapes, is read back as the text.  Nothing is read from a text that has fewer than two bytes, that does
not start with a mark or does not end with the same one; and something is read from every other text. -/
theorem unquote_undoes_quoted :
    (∀ q ∈ quotationMarks, ∀ text, unquote (quoted q text) = some text) ∧
    ∀ text, unquote text = none ↔
      text.utf8ByteSize < 2 ∨ (∀ q ∈ quotationMarks, text.toList.head? ≠ some q) ∨
        text.toList.getLast? ≠ text.toList.head? := by
  refine ⟨fun q mark text => unquote_eq_some_iff.mpr ?_, fun text => unquote_eq_none_iff⟩
  refine ⟨q, mark, text.toList.flatMap (escaped q), String.toList_ofList, ?_⟩
  rw [unescape_flatMap_escaped mark, String.ofList_toList]

/-- A text that ends in a backslash and has a letter after another one. -/
theorem backslashes_read_back :
    quoted '"' "\\n\"\n\\" = "\"\\\\n\\\"\\n\\\\\"" ∧
    unquote (quoted '"' "\\n\"\n\\") = some "\\n\"\n\\" :=
  ⟨by decide, unquote_undoes_quoted.1 '"' (by decide) _⟩

end TemplateValues.Text
