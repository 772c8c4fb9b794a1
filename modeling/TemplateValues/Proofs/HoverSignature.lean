import Mathlib.Data.List.Basic
import TemplateValues.Oracle.Hover
import TemplateValues.Proofs.Pieces

/-!
# The signature of a hover text

The signature ends where a rule `---` begins the documentation, so it does not depend on what the
documentation says.  Whether the signature is read off code fences or off the first line is a question
that is asked of the whole text, though: code samples in the documentation of a text without fences make
the signature unreadable (`documentation_unread_iff`).

Lines count without the blanks around them, and empty lines do not count at all.  So it makes no
difference whether a text ends with a line feed, or how lines end (`signature_eq`).
-/

namespace TemplateValues

/-! ## Lines -/

namespace Text

theorem isPrefix_trim (cs : List Char) : trim cs <+: trimFront cs := by
  have suffix := List.dropWhile_suffix (l := (trimFront cs).reverse) isBlank
  exact List.reverse_suffix.mp (by rwa [trim, trimBack, List.reverse_reverse])

theorem isInfix_trim (cs : List Char) : trim cs <:+: cs :=
  (isPrefix_trim cs).isInfix.trans (List.dropWhile_suffix isBlank).isInfix

theorem trim_concat_blank {b : Char} (blank : isBlank b) (cs : List Char) :
    trim (cs ++ [b]) = trim cs := by
  have none : [b].dropWhile isBlank = [] := by simp [blank]
  rw [trim, trim, trimFront, List.dropWhile_append, none]
  split
  · rename_i empty
    rw [trimFront, List.isEmpty_iff.mp empty]
  · rw [trimBack, List.reverse_append, List.reverse_singleton, List.singleton_append,
      List.dropWhile_cons_of_pos blank]
    rfl

/-- A carriage return at the end of a line is a blank. -/
theorem trim_chomp (line : List Char) : trim (chomp line) = trim line := by
  unfold chomp
  split
  · rename_i ends
    obtain ⟨front, rfl⟩ := List.getLast?_eq_some_iff.mp ends
    rw [List.dropLast_concat, trim_concat_blank (by decide)]
  · rfl

/-- The lines of a text without the blanks around them are the pieces between line feeds, but for an
empty piece at the end. -/
theorem map_trim_splitAt (cs : List Char) :
    ∃ ends, (ends = [] ∨ ends = [[]]) ∧
      (splitAt '\n' cs).map trim = (lines cs).map trim ++ ends := by
  have each : ∀ (pieces : List (List Char)) (ended : Nat),
      ((pieces.zipIdx.map fun x => if x.2 < ended then chomp x.1 else x.1).map trim) =
        pieces.map trim := by
    intro pieces ended
    rw [List.map_map, ← List.zipIdx_map_fst 0 pieces, List.map_map, List.zipIdx_map_fst]
    refine List.map_congr_left fun x _ => ?_
    by_cases inside : x.2 < ended <;> simp [inside, trim_chomp]
  unfold lines
  by_cases last : (splitAt '\n' cs).getLast? = some []
  · refine ⟨[[]], .inr rfl, ?_⟩
    obtain ⟨front, pieces⟩ := List.getLast?_eq_some_iff.mp last
    simp only [last, if_true]
    rw [each, pieces, List.dropLast_concat, List.map_append]
    rfl
  · refine ⟨[], .inl rfl, ?_⟩
    simp only [last, if_false]
    rw [each, List.append_nil]

end Text

namespace Hover

open Text

/-! ## Fences -/

theorem hasFence_iff_isInfix {cs : List Char} : hasFence cs ↔ fence <:+: cs := by
  induction cs with
  | nil => simp [hasFence, fence]
  | cons c cs ih =>
    rw [hasFence, Bool.or_eq_true_iff, ih, List.isPrefixOf_iff_prefix, List.infix_cons_iff]

/-- A fence does not go over the end of a line. -/
theorem isPrefixOf_fence_append (front back : List Char) :
    fence.isPrefixOf (front ++ '\n' :: back) = fence.isPrefixOf front := by
  match front with
  | [] | [_] | [_, _] | _ :: _ :: _ :: _ => simp [fence, List.isPrefixOf]

theorem hasFence_append (front back : List Char) :
    hasFence (front ++ '\n' :: back) = (hasFence front || hasFence back) := by
  induction front with
  | nil =>
    have none : fence.isPrefixOf ('\n' :: back) = false := isPrefixOf_fence_append [] back
    rw [List.nil_append, hasFence, hasFence, none]
  | cons c front ih =>
    have start := isPrefixOf_fence_append (c :: front) back
    rw [List.cons_append] at start ⊢
    rw [hasFence, start, ih, hasFence, Bool.or_assoc]

theorem hasFence_intercalate (lines : List (List Char)) :
    hasFence (['\n'].intercalate lines) = lines.any hasFence := by
  induction lines with
  | nil => rfl
  | cons line lines ih =>
    cases lines with
    | nil => simp
    | cons next lines =>
      rw [List.intercalate_cons_cons, List.append_assoc, List.singleton_append, hasFence_append, ih,
        List.any_cons (l := next :: lines)]

theorem hasFence_of_trim {line : List Char} (fenced : fence.isPrefixOf (trim line)) :
    hasFence line :=
  hasFence_iff_isInfix.mpr
    ((List.isPrefixOf_iff_prefix.mp fenced).isInfix.trans (isInfix_trim line))

/-- Lines before the first fence are not in fences. -/
theorem fencedLines_append_of_unfenced {ls : List (List Char)}
    (unfenced : ∀ l ∈ ls, fence.isPrefixOf l = false) (rest : List (List Char)) :
    fencedLines false (ls ++ rest) = fencedLines false rest := by
  induction ls with
  | nil => rfl
  | cons l ls ih =>
    obtain ⟨first, others⟩ := List.forall_mem_cons.mp unfenced
    simp [fencedLines, first, ih others]

/-- Without fences nothing is in fences. -/
theorem fencedLines_of_unfenced {ls : List (List Char)}
    (unfenced : ∀ l ∈ ls, fence.isPrefixOf l = false) : fencedLines false ls = [] := by
  simpa [fencedLines] using fencedLines_append_of_unfenced unfenced []

theorem fencedLines_fence {line : List Char} (fenced : fence <+: line) (inside : Bool)
    (rest : List (List Char)) : fencedLines inside (line :: rest) = fencedLines (!inside) rest := by
  rw [fencedLines, if_pos (List.isPrefixOf_iff_prefix.mpr fenced)]

theorem fencedLines_append_of_empty {ls : List (List Char)} (empty : ∀ l ∈ ls, l = []) (inside : Bool)
    (rest : List (List Char)) : fencedLines inside (ls ++ rest) = fencedLines inside rest := by
  induction ls with
  | nil => rfl
  | cons l ls ih =>
    obtain ⟨rfl, others⟩ := List.forall_mem_cons.mp empty
    simp [fencedLines, fence, ih others]

theorem fencedLines_concat_empty (inside : Bool) (ls : List (List Char)) :
    fencedLines inside (ls ++ [[]]) = fencedLines inside ls := by
  induction ls generalizing inside with
  | nil => simp [fencedLines, fence]
  | cons l ls ih => simp only [List.cons_append, fencedLines, ih]

/-! ## Rows -/

def rows (hover : List Char) : List (List Char) := (splitAt '\n' hover).map trim

def head (rows : List (List Char)) : List (List Char) := rows.takeWhile (· ≠ ['-', '-', '-'])

theorem head_concat_empty (rows : List (List Char)) :
    head (rows ++ [[]]) = head rows ∨ head (rows ++ [[]]) = head rows ++ [[]] := by
  rw [head, head, List.takeWhile_append]
  split
  · rename_i all
    right
    rw [(List.takeWhile_prefix _).eq_of_length all]
    rfl
  · exact .inl rfl

/-- The signature is what is in fences before the first rule, or the first line there if there are no
fences in the text. -/
theorem signature_eq (hover : List Char) :
    signature hover =
      if hasFence hover then fencedLines false (head (rows hover))
      else ((head (rows hover)).filter (!·.isEmpty)).take 1 := by
  obtain ⟨ends, empty, pieces⟩ := map_trim_splitAt hover
  have signed : signature hover =
      if hasFence hover then fencedLines false (head ((lines hover).map trim))
      else ((head ((lines hover).map trim)).filter (!·.isEmpty)).take 1 := rfl
  rw [signed, rows, pieces]
  obtain rfl | rfl := empty
  · rw [List.append_nil]
  · obtain same | more := head_concat_empty ((lines hover).map trim)
    · rw [same]
    · rw [more, fencedLines_concat_empty, List.filter_append]
      simp

theorem mem_rows_of_mem_lines {hover : List Char} {row : List Char} (member : row ∈ rows hover) :
    row = [] ∨ ∃ line ∈ lines hover, row = trim line := by
  obtain ⟨ends, empty, pieces⟩ := map_trim_splitAt hover
  rw [rows, pieces, List.mem_append, List.mem_map] at member
  rcases member with ⟨line, member, rfl⟩ | last
  · exact .inr ⟨line, member, rfl⟩
  · obtain rfl | rfl := empty
    · cases last
    · exact .inl (List.mem_singleton.mp last)

theorem head_append {rows : List (List Char)} (unruled : ∀ row ∈ rows, row ≠ ['-', '-', '-'])
    (rest : List (List Char)) : head (rows ++ rest) = rows ++ head rest :=
  List.takeWhile_append_of_pos (by simpa using unruled)

/-- No line of a text without fences starts with a fence. -/
theorem unfenced_rows {hover : List Char} (unfenced : hasFence hover = false) :
    ∀ row ∈ rows hover, fence.isPrefixOf row = false := by
  intro row member
  obtain ⟨line, isLine, rfl⟩ := List.mem_map.mp member
  rw [← intercalate_splitAt '\n' hover, hasFence_intercalate, List.any_eq_false] at unfenced
  exact Bool.eq_false_iff.mpr fun fenced => unfenced line isLine (hasFence_of_trim fenced)

/-! ## Documentation -/

/-- The lines of a signature: none of them is a rule. -/
def IsHead (text : String) : Prop := ∀ line ∈ lines text.toList, trim line ≠ ['-', '-', '-']

instance (text : String) : Decidable (IsHead text) :=
  inferInstanceAs (Decidable (∀ line ∈ lines text.toList, trim line ≠ ['-', '-', '-']))

def documented (signature documentation : String) : String := signature ++ "\n---\n" ++ documentation

theorem toList_documented (signature documentation : String) :
    (documented signature documentation).toList =
      signature.toList ++ '\n' :: (['-', '-', '-'] ++ '\n' :: documentation.toList) := by
  simp [documented]

theorem rows_documented (signature documentation : String) :
    rows (documented signature documentation).toList =
      rows signature.toList ++ ['-', '-', '-'] :: rows documentation.toList := by
  have rule : (splitAt '\n' ['-', '-', '-']).map trim = [['-', '-', '-']] := by decide
  rw [rows, toList_documented, splitAt_append, splitAt_append, List.map_append, List.map_append,
    rule]
  rfl

theorem hasFence_documented (signature documentation : String) :
    hasFence (documented signature documentation).toList =
      (hasFence signature.toList || hasFence documentation.toList) := by
  have rule : hasFence ['-', '-', '-'] = false := by decide
  rw [toList_documented, hasFence_append, hasFence_append, rule, Bool.false_or]

theorem IsHead.unruled {text : String} (isHead : IsHead text) :
    ∀ row ∈ rows text.toList, row ≠ ['-', '-', '-'] := by
  intro row member
  obtain rfl | ⟨line, isLine, rfl⟩ := mem_rows_of_mem_lines member
  · decide
  · exact isHead line isLine

theorem IsHead.head_rows {text : String} (isHead : IsHead text) :
    head (rows text.toList) = rows text.toList := by
  simpa [head] using head_append isHead.unruled []

theorem IsHead.head_documented {text : String} (isHead : IsHead text) (documentation : String) :
    head (rows (documented text documentation).toList) = rows text.toList := by
  have stop : head (['-', '-', '-'] :: rows documentation.toList) = [] := by simp [head]
  rw [rows_documented, head_append isHead.unruled, stop, List.append_nil]

/-- Documentation leaves a signature as it is, or if only the documentation has fences it hides it. -/
theorem IsHead.signature_documented {text : String} (isHead : IsHead text) (documentation : String) :
    signature (documented text documentation).toList =
      if hasFence text.toList || !hasFence documentation.toList then signature text.toList else [] := by
  rw [signature_eq, signature_eq text.toList, hasFence_documented, isHead.head_documented,
    isHead.head_rows]
  cases fenced : hasFence text.toList with
  | true => simp
  | false =>
    cases hasFence documentation.toList with
    | false => simp
    | true => simp [fencedLines_of_unfenced (unfenced_rows fenced)]

theorem IsHead.values_documented {text : String} (isHead : IsHead text) (documentation : String) :
    values (documented text documentation) =
      if hasFence text.toList || !hasFence documentation.toList then values text else .empty := by
  rw [values, isHead.signature_documented]
  split
  · rfl
  · rfl

/-- **What documentation can do.**  A hover text with documentation after a rule has the values of the
signature before the rule, except that it has none if there is a fence in the documentation but none in
the signature.  So two documentations of a signature make no difference if and only if the signature has
a fence, or both or neither of them do, or the signature spells no values anyway. -/
theorem documentation_unread_iff {text : String} (isHead : IsHead text) :
    (∀ documentation, fence <:+: text.toList ∨ ¬ fence <:+: documentation.toList →
      values (documented text documentation) = values text) ∧
    (∀ documentation, ¬ fence <:+: text.toList → fence <:+: documentation.toList →
      values (documented text documentation) = .empty) ∧
    ∀ d₁ d₂, values (documented text d₁) = values (documented text d₂) ↔
      fence <:+: text.toList ∨ (fence <:+: d₁.toList ↔ fence <:+: d₂.toList) ∨ values text = .empty := by
  simp only [← hasFence_iff_isInfix, isHead.values_documented]
  refine ⟨fun d visible => ?_, fun d unfenced fenced => ?_, fun d₁ d₂ => ?_⟩
  · rw [if_pos (by simpa using visible)]
  · rw [if_neg (by simp [unfenced, fenced])]
  · cases hasFence text.toList <;> cases hasFence d₁.toList <;> cases hasFence d₂.toList <;>
      simp [eq_comm]

/-- A signature in fences is read alike whether the documentation has a code sample or not. -/
theorem fenced_signature_documented :
    IsHead "```ts\nconst mode: \"a\"\n```" ∧
      values "```ts\nconst mode: \"a\"\n```" = .singleton "a" ∧
      values (documented "```ts\nconst mode: \"a\"\n```" "```ts\nlet other: 'b'\n```") =
        values (documented "```ts\nconst mode: \"a\"\n```" "") := by
  have isHead : IsHead "```ts\nconst mode: \"a\"\n```" := by decide +kernel
  refine ⟨isHead, by decide +kernel, ?_⟩
  exact ((documentation_unread_iff isHead).2.2 _ _).mpr
    (.inl (hasFence_iff_isInfix.mp (by decide +kernel)))

/-- A signature on one line without fences spells its values with prose after the rule, and none with a
code sample there. -/
theorem code_sample_hides_signature :
    IsHead "const mode: \"a\"" ∧
      values (documented "const mode: \"a\"" "See") = .singleton "a" ∧
      values (documented "const mode: \"a\"" "```ts\nx\n```") = .empty := by
  decide +kernel

end Hover

end TemplateValues
