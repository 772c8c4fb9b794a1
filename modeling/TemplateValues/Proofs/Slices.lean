import Mathlib.Data.String.Basic
import TemplateValues.Source

/-!
# Cutting a text

A text that is cut between two characters falls into pieces that make it up again (`slice_append`), and a
later byte has a later line and column (`positionAt_before`).
-/

namespace TemplateValues

namespace Text

section Slice

variable {text : String} {i j k : Nat}

/-- A place between characters cuts what follows a place before it. -/
theorem exists_split {l r : List Char} (valid : String.Pos.Raw.IsValid (String.ofList (l ++ r)) ⟨k⟩)
    (order : String.utf8Len l ≤ k) :
    ∃ m r', r = m ++ r' ∧ k = String.utf8Len l + String.utf8Len m := by
  obtain ⟨before, after, equal, place⟩ := String.Pos.Raw.isValid_iff_exists_append.mp valid
  have bytes : k = String.utf8Len before.toList := by
    simpa using congrArg String.Pos.Raw.byteIdx place
  have lists : l ++ r = before.toList ++ after.toList := by
    simpa using congrArg String.toList equal
  rcases List.append_eq_append_iff.mp lists with ⟨m, longer, rest⟩ | ⟨m, shorter, rest⟩
  · refine ⟨m, after.toList, rest, ?_⟩
    rw [bytes, longer, String.utf8Len_append]
  · -- the place does not stand before the other, so nothing is between them
    have nothing : m = [] := by
      rw [← String.utf8Len_eq_zero]
      rw [shorter, String.utf8Len_append] at order
      omega
    subst nothing
    refine ⟨[], r, rfl, ?_⟩
    rw [bytes, shorter]
    simp

/-- Two places between characters cut a text into three pieces. -/
theorem exists_pieces (first : String.Pos.Raw.IsValid text ⟨i⟩)
    (second : String.Pos.Raw.IsValid text ⟨j⟩) (order : i ≤ j) :
    ∃ l m r, text = String.ofList (l ++ (m ++ r)) ∧ i = String.utf8Len l ∧
      j = String.utf8Len l + String.utf8Len m := by
  have whole : text = String.ofList ([] ++ text.toList) := by simp
  rw [whole] at first second
  obtain ⟨l, r, cut, place⟩ := exists_split first (Nat.zero_le i)
  rw [String.utf8Len_nil, Nat.zero_add] at place
  rw [cut, List.nil_append] at second
  obtain ⟨m, r', rfl, place'⟩ := exists_split second (place ▸ order)
  refine ⟨l, m, r', ?_, place, place'⟩
  rw [← cut, String.ofList_toList]

theorem slice_pieces (l m r : List Char) :
    slice (String.ofList (l ++ (m ++ r))) (String.utf8Len l) (String.utf8Len l + String.utf8Len m) =
      String.ofList m := by
  rw [← List.append_assoc]
  exact String.extract_of_valid l m r

theorem slice_of_le (order : j ≤ i) : slice text i j = "" := by
  simp [slice, String.Pos.Raw.extract, order]

theorem utf8ByteSize_slice (first : String.Pos.Raw.IsValid text ⟨i⟩)
    (second : String.Pos.Raw.IsValid text ⟨j⟩) (order : i ≤ j) :
    (slice text i j).utf8ByteSize = j - i := by
  obtain ⟨l, m, r, rfl, rfl, rfl⟩ := exists_pieces first second order
  rw [slice_pieces, String.utf8ByteSize_ofList, Nat.add_sub_cancel_left]

theorem slice_append (first : String.Pos.Raw.IsValid text ⟨i⟩)
    (second : String.Pos.Raw.IsValid text ⟨j⟩) (third : String.Pos.Raw.IsValid text ⟨k⟩)
    (order : i ≤ j) (order' : j ≤ k) : slice text i j ++ slice text j k = slice text i k := by
  obtain ⟨l, m, r, rfl, rfl, rfl⟩ := exists_pieces first second order
  rw [← List.append_assoc] at third
  obtain ⟨n, r', rfl, rfl⟩ := exists_split third (by rwa [String.utf8Len_append])
  have left := slice_pieces l m (n ++ r')
  have right := slice_pieces (l ++ m) n r'
  have both := slice_pieces l (m ++ n) r'
  simp only [List.append_assoc, String.utf8Len_append, Nat.add_assoc] at left right both ⊢
  rw [left, right, both, String.ofList_append]

end Slice

/-! ## Lines and columns -/

theorem lineColumnFrom_ge (line column : Nat) (cs : List Char) (n : Nat) :
    line < (lineColumnFrom line column cs n).1 ∨
      line = (lineColumnFrom line column cs n).1 ∧ column ≤ (lineColumnFrom line column cs n).2 := by
  induction cs generalizing line column n with
  | nil => simp [lineColumnFrom]
  | cons c cs ih =>
    rw [lineColumnFrom]
    split
    · simp
    · split
      · have := ih (line + 1) 0 (n - c.utf8Size)
        omega
      · have := ih line (column + c.utf8Size) (n - c.utf8Size)
        omega

theorem lineColumnFrom_lt (line column : Nat) (cs : List Char) {m n : Nat} (order : m < n) :
    (lineColumnFrom line column cs m).1 < (lineColumnFrom line column cs n).1 ∨
      (lineColumnFrom line column cs m).1 = (lineColumnFrom line column cs n).1 ∧
        (lineColumnFrom line column cs m).2 < (lineColumnFrom line column cs n).2 := by
  induction cs generalizing line column m n with
  | nil => simpa [lineColumnFrom] using order
  | cons c cs ih =>
    by_cases within : n < c.utf8Size
    · have within' : m < c.utf8Size := by omega
      simp [lineColumnFrom, within, within', order]
    · by_cases within' : m < c.utf8Size
      · -- the later byte is not in this character
        simp only [lineColumnFrom, within, within', ↓reduceIte]
        split
        · have := lineColumnFrom_ge (line + 1) 0 cs (n - c.utf8Size)
          omega
        · have := lineColumnFrom_ge line (column + c.utf8Size) cs (n - c.utf8Size)
          omega
      · simp only [lineColumnFrom, within, within', ↓reduceIte]
        split <;> exact ih _ _ (by omega)

end Text

/-- A later byte is at a later position. -/
theorem Source.positionAt_before (s : Source) {i j : Nat} (order : i < j) :
    (s.positionAt i).before (s.positionAt j) := by
  have later := Text.lineColumnFrom_lt 0 0 s.text.toList order
  simp only [Template.Position.before, Bool.or_eq_true, Bool.and_eq_true, decide_eq_true_eq]
  exact later

end TemplateValues
