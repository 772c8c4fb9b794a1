import TemplateValues.Proofs.PathMapping
import TemplateValues.Proofs.Slices

/-!
# Wildcards

A pattern with a star matches the names that start with what is before the first star and end with what
is behind it, and both at once only if there is room for both.  That is said here in bytes: a name that is
long enough for both ends, starts with the one and ends with the other is cut between characters at two
places, and what lies between them is what the star stands for (`Fits.slice`).

The two tests alone would not do.  In `aba` the ends of `ab*ba` overlap; it is the count of bytes that
tells overlapping ends from ends with nothing between them (`fits_iff`).
-/

namespace TemplateValues.Project

/-- A name has room for the two ends of a pattern, starts with the one and ends with the other. -/
structure Fits (front back specifier : String) : Prop where
  room : front.utf8ByteSize + back.utf8ByteSize ≤ specifier.utf8ByteSize
  starts : front.toList <+: specifier.toList
  ends : back.toList <:+ specifier.toList

section Ends

variable {front back specifier captured : String}

theorem toList_between : (front ++ captured ++ back).toList =
    front.toList ++ (captured.toList ++ back.toList) := by
  simp only [String.toList_append, List.append_assoc]

/-- There is at most one text between two ends. -/
theorem between_injective {captured' : String}
    (same : front ++ captured ++ back = front ++ captured' ++ back) : captured = captured' := by
  have lists := congrArg String.toList same
  rw [toList_between, toList_between, List.append_cancel_left_eq, List.append_cancel_right_eq] at lists
  exact String.toList_inj.mp lists

/-- Of two ends of a list that do not overlap, the second is an end of what follows the first. -/
theorem suffix_of_room {l r tail : List Char} (ends : tail <:+ l ++ r)
    (room : String.utf8Len tail ≤ String.utf8Len r) : tail <:+ r := by
  rcases List.suffix_or_suffix_of_suffix ends (List.suffix_append l r) with within | ⟨extra, rfl⟩
  · exact within
  · -- the tail goes beyond `r`, by nothing, since there is no room
    rw [String.utf8Len_append] at room
    have nothing : extra = [] := String.utf8Len_eq_zero.mp (by omega)
    rw [nothing, List.nil_append]

theorem fits_iff : Fits front back specifier ↔ ∃ captured, specifier = front ++ captured ++ back := by
  constructor
  · rintro ⟨room, ⟨rest, split⟩, ends⟩
    rw [← String.utf8Len_toList, ← String.utf8Len_toList, ← String.utf8Len_toList, ← split,
      String.utf8Len_append] at room
    rw [← split] at ends
    obtain ⟨between, rfl⟩ := suffix_of_room ends (by omega)
    refine ⟨.ofList between, String.toList_inj.mp ?_⟩
    rw [toList_between, String.toList_ofList, split]
  · rintro ⟨captured, rfl⟩
    refine ⟨?_, ?_, ?_⟩
    · simp only [String.utf8ByteSize_append]
      omega
    · exact toList_between ▸ List.prefix_append _ _
    · rw [toList_between, ← List.append_assoc]
      exact List.suffix_append _ _

/-- Between the two ends of a name there is a slice of it, which is cut between characters. -/
theorem slice_between (front captured back : String) :
    let text := front ++ captured ++ back
    let start := front.utf8ByteSize
    let stop := text.utf8ByteSize - back.utf8ByteSize
    String.Pos.Raw.IsValid text ⟨start⟩ ∧ String.Pos.Raw.IsValid text ⟨stop⟩ ∧ start ≤ stop ∧
      stop ≤ text.utf8ByteSize ∧ Text.slice text start stop = captured := by
  have stop : (front ++ captured ++ back).utf8ByteSize - back.utf8ByteSize =
      (front ++ captured).utf8ByteSize := by
    rw [String.utf8ByteSize_append, Nat.add_sub_cancel]
  simp only [stop]
  refine ⟨String.Pos.Raw.isValid_iff_exists_append.mpr ⟨front, captured ++ back, String.append_assoc, rfl⟩,
    String.Pos.Raw.isValid_iff_exists_append.mpr ⟨front ++ captured, back, rfl, rfl⟩, ?_, ?_, ?_⟩
  · rw [String.utf8ByteSize_append]
    exact Nat.le_add_right _ _
  · rw [String.utf8ByteSize_append (s := front ++ captured)]
    exact Nat.le_add_right _ _
  · have cut := Text.slice_pieces front.toList captured.toList back.toList
    simp only [← toList_between, String.utf8Len_toList, String.ofList_toList] at cut
    rw [String.utf8ByteSize_append, cut]

end Ends

/-! ## Patterns -/

section Pattern

variable {a : Alias} {specifier : String}

theorem captured?_of_starless (starless : '*' ∉ a.pattern.toList) :
    a.captured? specifier = if a.pattern = specifier then some "" else none := by
  simp only [Alias.captured?, capture, cutAtStar_eq_none_iff.mpr starless, String.toList_inj]
  split <;> rfl

variable {front back : String} (starless : '*' ∉ front.toList) (pattern : a.pattern = front ++ "*" ++ back)
include pattern

theorem toList_pattern : a.pattern.toList = front.toList ++ '*' :: back.toList := by
  rw [pattern, toList_between]
  rfl

include starless

theorem captured?_iff_between {captured : String} :
    a.captured? specifier = some captured ↔ specifier = front ++ captured ++ back := by
  rw [captured?_eq_some_iff, Captures, toList_pattern pattern, filled_starred starless,
    ← toList_between, String.toList_inj]
  simp

theorem isSome_captured?_iff_fits : (a.captured? specifier).isSome ↔ Fits front back specifier := by
  rw [Option.isSome_iff_exists, fits_iff]
  exact exists_congr fun captured => captured?_iff_between starless pattern

theorem fill_pattern (captured : String) :
    String.ofList (fill captured.toList a.pattern.toList) = front ++ captured ++ back := by
  have filled := filled_fill captured.toList a.pattern.toList
  generalize fill captured.toList a.pattern.toList = text at filled
  rw [toList_pattern pattern, filled_starred starless, ← toList_between] at filled
  rw [filled, String.ofList_toList]

end Pattern

/-- **A wildcard stands for what is between the ends.**  A pattern without star matches itself only.
A pattern with a star matches exactly the names that are its front, some text and its back, and that text
is the only one; such names are those that have room for both ends, start with the front and end with the
back.  The text is then the slice between the two ends, which starts and stops at characters of the name,
and put in place of the star it gives the name. -/
theorem captured_between_ends (a : Alias) (specifier : String) :
    ('*' ∉ a.pattern.toList →
      a.captured? specifier = if a.pattern = specifier then some "" else none) ∧
    ∀ front back : String, '*' ∉ front.toList → a.pattern = front ++ "*" ++ back →
      (∀ captured, a.captured? specifier = some captured ↔ specifier = front ++ captured ++ back) ∧
      (∀ captured captured', specifier = front ++ captured ++ back →
        specifier = front ++ captured' ++ back → captured = captured') ∧
      ((a.captured? specifier).isSome ↔ Fits front back specifier) ∧
      (specifier.utf8ByteSize < front.utf8ByteSize + back.utf8ByteSize →
        a.captured? specifier = none) ∧
      ∀ captured, a.captured? specifier = some captured →
        let start := front.utf8ByteSize
        let stop := specifier.utf8ByteSize - back.utf8ByteSize
        String.Pos.Raw.IsValid specifier ⟨start⟩ ∧ String.Pos.Raw.IsValid specifier ⟨stop⟩ ∧
          start ≤ stop ∧ stop ≤ specifier.utf8ByteSize ∧
          captured = Text.slice specifier start stop ∧
          String.ofList (fill captured.toList a.pattern.toList) = specifier := by
  refine ⟨captured?_of_starless, fun front back starless pattern => ⟨?_, ?_, ?_, ?_, ?_⟩⟩
  · exact fun captured => captured?_iff_between starless pattern
  · rintro captured captured' rfl same
    exact between_injective same
  · exact isSome_captured?_iff_fits starless pattern
  · intro short
    rw [← Option.not_isSome_iff_eq_none, isSome_captured?_iff_fits starless pattern]
    exact fun fits => Nat.not_lt.mpr fits.room short
  · intro captured found
    obtain rfl := (captured?_iff_between starless pattern).mp found
    obtain ⟨first, second, order, inside, cut⟩ := slice_between front captured back
    exact ⟨first, second, order, inside, cut.symm, fill_pattern starless pattern captured⟩

/-- The back of `ä*ö*` has a star of its own.  In `äéö*` the first star stands for `é`, bytes 2 to 4, and
in `ä*` there is no room for both ends. -/
theorem accented_name_captured :
    (⟨"ä*ö*", []⟩ : Alias).captured? "äéö*" = some "é" ∧
    (⟨"ä*ö*", []⟩ : Alias).captured? "ä*" = none ∧
    "é" = Text.slice "äéö*" 2 4 ∧ String.Pos.Raw.IsValid "äéö*" ⟨2⟩ ∧ String.Pos.Raw.IsValid "äéö*" ⟨4⟩ := by
  have starless : '*' ∉ "ä".toList := by decide
  obtain ⟨found, -, -, -, cut⟩ :=
    (captured_between_ends ⟨"ä*ö*", []⟩ "äéö*").2 "ä" "ö*" starless (by decide)
  obtain ⟨-, -, -, short, -⟩ := (captured_between_ends ⟨"ä*ö*", []⟩ "ä*").2 "ä" "ö*" starless (by decide)
  have captured := (found "é").mpr (by decide)
  obtain ⟨first, second, -, -, slice, -⟩ := cut "é" captured
  exact ⟨captured, short (by decide), slice, first, second⟩

end TemplateValues.Project
