import Mathlib.Data.List.Basic
import TemplateValues.Text.Slice

/-!
# Texts cut at a mark

Paths are cut at slashes, texts at line feeds and chains at dots.  A text is cut as `List.splitOn` cuts
it (`splitAt_eq_splitOn`), so that nothing is lost (`intercalate_splitAt`), and what was put together from
pieces without the mark is cut into these pieces again (`splitAt_intercalate`).
-/

namespace TemplateValues.Text

variable {mark : Char}

theorem splitAt_eq_splitOn (mark : Char) (cs : List Char) : splitAt mark cs = cs.splitOn mark := by
  induction cs with
  | nil => rfl
  | cons c cs ih =>
    rw [List.splitOn_cons_eq_if_modifyHead, splitAt, ← ih]
    cases pieces : splitAt mark cs with
    | nil => exact absurd (ih.symm.trans pieces) (List.splitOn_ne_nil mark cs)
    | cons p ps => by_cases here : c = mark <;> simp [here]

theorem splitAt_ne_nil (mark : Char) (cs : List Char) : splitAt mark cs ≠ [] :=
  splitAt_eq_splitOn mark cs ▸ List.splitOn_ne_nil mark cs

theorem splitAt_append (front back : List Char) :
    splitAt mark (front ++ mark :: back) = splitAt mark front ++ splitAt mark back := by
  simp only [splitAt_eq_splitOn]
  exact List.splitOnP_append_cons front back (beq_self_eq_true mark)

/-- A text is its pieces with marks between them. -/
theorem intercalate_splitAt (mark : Char) (cs : List Char) :
    [mark].intercalate (splitAt mark cs) = cs := by
  rw [splitAt_eq_splitOn, List.intercalate_splitOn]

theorem splitAt_intercalate {pieces : List (List Char)} (some : pieces ≠ [])
    (apart : ∀ piece ∈ pieces, mark ∉ piece) : splitAt mark ([mark].intercalate pieces) = pieces := by
  rw [splitAt_eq_splitOn, List.splitOn_intercalate mark apart some]

theorem map_splitAt_intercalate {separator : String} (one : separator.toList = [mark])
    {pieces : List String} (some : pieces ≠ []) (apart : ∀ piece ∈ pieces, mark ∉ piece.toList) :
    (splitAt mark (separator.intercalate pieces).toList).map String.ofList = pieces := by
  have apart' : ∀ chars ∈ pieces.map String.toList, mark ∉ chars := by simpa using apart
  rw [String.toList_intercalate, one, splitAt_intercalate (by simpa using some) apart']
  simp

theorem notMem_of_mem_splitAt {cs piece : List Char} (member : piece ∈ splitAt mark cs) :
    mark ∉ piece := by
  induction cs generalizing piece with
  | nil =>
    rw [splitAt, List.mem_singleton] at member
    simp [member]
  | cons c cs ih =>
    rw [splitAt] at member
    cases pieces : splitAt mark cs with
    | nil => exact absurd pieces (splitAt_ne_nil mark cs)
    | cons p ps =>
      rw [pieces] at member ih
      by_cases here : c = mark
      · simp only [here, if_true, List.mem_cons] at member
        rcases member with rfl | old
        · simp
        · exact ih (by simpa using old)
      · simp only [here, if_false, List.mem_cons] at member
        rcases member with rfl | old
        · have := ih (List.mem_cons_self (a := p) (l := ps))
          simp [this, Ne.symm here]
        · exact ih (List.mem_cons_of_mem p old)

end TemplateValues.Text
