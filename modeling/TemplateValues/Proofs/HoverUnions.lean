import TemplateValues.Proofs.HoverSignature
import TemplateValues.Proofs.LiteralSets
import TemplateValues.Proofs.Spelling

/-!
# Unions of literals in hover texts

A line of a signature may end in a union of string literals after a colon or an equals sign.  Whatever
strings are written there, in whichever quotation marks, they are read back as they are and in order, be
the line the whole hover text or the only line in a code fence (`union_read_back`).

Strings may hold bars, signs and the other quotation mark, so a line does not show at a glance where its
union begins or how it is divided.  But the first sign of the line is the one before the union, as there is
none in the text before it, and from there on each literal ends at the next mark of its own.
-/

namespace TemplateValues.Hover

open Text
open Chain (StartsSolid EndsSolid startsSolid_cons trimFront_append trim_append endsSolid_append)

/-! ## Lines with a union -/

structure Gap where
  chars : List Char
  blank : ∀ c ∈ chars, isBlank c
  oneLine : '\n' ∉ chars

theorem Gap.blank_nil : ∀ c ∈ [], isBlank c := by simp

theorem Gap.oneLine_nil : '\n' ∉ [] := by simp

def Gap.empty : Gap := ⟨[], blank_nil, oneLine_nil⟩

structure Literal where
  mark : Char
  value : String
  isMark : mark = '"' ∨ mark = '\x27'
  unmarked : mark ∉ value.toList
  oneLine : '\n' ∉ value.toList
  unescaped : '\\' ∉ value.toList

/-- A further literal of a union, with the blanks around the bar before it. -/
structure Alternative where
  before : Gap
  after : Gap
  literal : Literal

/-- A line that ends in a union of literals. -/
structure UnionLine where
  /-- What stands before the sign. -/
  lead : List Char
  sign : Char
  gap : Gap
  first : Literal
  others : List Alternative
  close : Gap
  /-- The blanks after a semicolon, if there is one. -/
  semicolon : Option Gap
  isSign : sign = ':' ∨ sign = '='
  plain : ∀ c ∈ lead, c ∉ [':', '=', '"', '\x27', '\x60', '\n']

def Literal.chars (l : Literal) : List Char := l.mark :: (l.value.toList ++ [l.mark])

def Alternative.chars (a : Alternative) : List Char :=
  a.before.chars ++ '|' :: (a.after.chars ++ a.literal.chars)

def closing : Option Gap → List Char
  | some gap => ';' :: gap.chars
  | none => []

namespace UnionLine

def union (u : UnionLine) : List Char := u.first.chars ++ u.others.flatMap Alternative.chars

def text (u : UnionLine) : List Char :=
  u.lead ++ u.sign :: (u.gap.chars ++ (u.union ++ (u.close.chars ++ closing u.semicolon)))

def strings (u : UnionLine) : List String := u.first.value :: u.others.map (·.literal.value)

end UnionLine

/-! ## Reading a union -/

theorem Gap.trimFront (gap : Gap) {rest : List Char} (starts : StartsSolid rest) :
    trimFront (gap.chars ++ rest) = rest := trimFront_append gap.blank starts

theorem Literal.isBlank_mark (l : Literal) : isBlank l.mark = false := by
  obtain mark | mark := l.isMark <;> rw [mark] <;> decide

theorem Literal.startsSolid (l : Literal) (rest : List Char) : StartsSolid (l.chars ++ rest) :=
  startsSolid_cons l.isBlank_mark _

theorem endsSolid_concat {c : Char} (solid : isBlank c = false) (cs : List Char) :
    EndsSolid (cs ++ [c]) := by
  intro d last
  rw [List.getLast?_concat] at last
  cases last
  exact solid

theorem Literal.endsSolid (l : Literal) (front : List Char) : EndsSolid (front ++ l.chars) := by
  simpa [Literal.chars] using endsSolid_concat l.isBlank_mark (front ++ l.mark :: l.value.toList)

theorem Literal.oneLine_chars (l : Literal) : '\n' ∉ l.chars := by
  have mark : '\n' ≠ l.mark := by
    obtain mark | mark := l.isMark <;> rw [mark] <;> decide
  simp [Literal.chars, mark, l.oneLine]

/-- A literal ends at the next mark of its own. -/
theorem literal?_chars (l : Literal) (rest : List Char) :
    literal? (l.chars ++ rest) = some (l.chars, rest) := by
  have inner : (l.value.toList ++ l.mark :: rest).takeWhile (fun c => c ≠ l.mark && c ≠ '\n') =
      l.value.toList := by
    rw [List.takeWhile_append_of_pos, List.takeWhile_cons_of_neg (by simp), List.append_nil]
    intro c member
    have notMark : c ≠ l.mark := fun same => l.unmarked (same ▸ member)
    have notFeed : c ≠ '\n' := fun same => l.oneLine (same ▸ member)
    simp [notMark, notFeed]
  have isMark : (l.mark = '"' || l.mark = '\x27') = true := by simpa using l.isMark
  simp only [Literal.chars, List.cons_append, List.append_assoc, List.nil_append, literal?, isMark,
    if_true, inner, List.drop_left]

theorem unescape_of_notMem {cs : List Char} (plain : '\\' ∉ cs) : unescape cs = cs := by
  induction cs with
  | nil => rfl
  | cons c cs ih =>
    obtain ⟨first, others⟩ := not_or.mp (mt List.mem_cons.mpr plain)
    rw [unescape, ih others]
    rintro d ds rfl -
    exact first rfl

theorem unquoteChars_chars (l : Literal) : unquoteChars l.chars = some l.value.toList := by
  have quote : isQuote l.mark := by
    obtain mark | mark := l.isMark <;> rw [mark] <;> decide
  simp [Literal.chars, unquoteChars, quote, unescape_of_notMem l.unescaped]

theorem moreLiterals?_closing (room : Nat) (close : Gap) (semicolon : Option Gap) :
    moreLiterals? room (close.chars ++ closing semicolon) = some [] := by
  cases semicolon with
  | none =>
    have nothing : trimFront (close.chars ++ closing none) = [] :=
      close.trimFront (by simp [closing, StartsSolid])
    unfold moreLiterals?
    rw [nothing]
  | some gap =>
    have mark : trimFront (close.chars ++ closing (some gap)) = ';' :: gap.chars :=
      close.trimFront (startsSolid_cons (by decide) _)
    have rest : trimFront (gap.chars ++ []) = [] := gap.trimFront (by simp [StartsSolid])
    rw [List.append_nil] at rest
    unfold moreLiterals?
    rw [mark]
    simp [rest]

theorem moreLiterals?_others (others : List Alternative) {room : Nat} (fits : others.length ≤ room)
    (close : Gap) (semicolon : Option Gap) :
    moreLiterals? room (others.flatMap Alternative.chars ++ (close.chars ++ closing semicolon)) =
      some (others.map (·.literal.chars)) := by
  induction others generalizing room with
  | nil => exact moreLiterals?_closing room close semicolon
  | cons a others ih =>
    obtain ⟨room, rfl⟩ : ∃ k, room = k + 1 := ⟨room - 1, by rw [List.length_cons] at fits; omega⟩
    have bar : ∀ rest, trimFront (a.chars ++ rest) = '|' :: (a.after.chars ++ (a.literal.chars ++ rest)) := by
      intro rest
      rw [Alternative.chars, List.append_assoc, List.cons_append, List.append_assoc]
      exact a.before.trimFront (startsSolid_cons (by decide) _)
    rw [List.flatMap_cons, List.append_assoc, moreLiterals?, bar]
    simp only [a.after.trimFront (a.literal.startsSolid _), literal?_chars,
      ih (Nat.le_of_succ_le_succ fits), Option.map_some, List.map_cons]

theorem length_le_length_flatMap (others : List Alternative) :
    others.length ≤ (others.flatMap Alternative.chars).length := by
  induction others with
  | nil => exact Nat.le_refl _
  | cons a others ih =>
    rw [List.flatMap_cons, List.length_append, List.length_cons, Alternative.chars, List.length_append,
      List.length_cons]
    omega

/-- A text that starts with blanks and a union and ends with it is that union. -/
theorem union?_text (u : UnionLine) :
    union? (u.gap.chars ++ (u.union ++ (u.close.chars ++ closing u.semicolon))) =
      some (u.first.chars :: u.others.map (·.literal.chars)) := by
  have fits : u.others.length ≤
      (u.others.flatMap Alternative.chars ++ (u.close.chars ++ closing u.semicolon)).length := by
    rw [List.length_append]
    exact Nat.le_add_right_of_le (length_le_length_flatMap u.others)
  rw [union?, UnionLine.union, List.append_assoc, u.gap.trimFront (u.first.startsSolid _)]
  simp only [literal?_chars, moreLiterals?_others u.others fits, Option.map_some]

/-! ## Reading a line -/

/-- Nothing before the sign reads as a union or as another sign. -/
theorem unionAfterSign?_lead {lead : List Char} (plain : ∀ c ∈ lead, c ≠ ':' ∧ c ≠ '=') {sign : Char}
    (isSign : sign = ':' ∨ sign = '=') {rest : List Char} {ls : List (List Char)}
    (read : union? rest = some ls) : unionAfterSign? (lead ++ sign :: rest) = some ls := by
  induction lead with
  | nil =>
    have sign : (sign = ':' || sign = '=') = true := by simpa using isSign
    simp [unionAfterSign?, sign, read]
  | cons c lead ih =>
    obtain ⟨first, others⟩ := List.forall_mem_cons.mp plain
    simp [unionAfterSign?, first, ih others]

theorem union?_eq_none {cs : List Char} (first : ∀ c ∈ (trimFront cs).head?, c ≠ '"' ∧ c ≠ '\x27') :
    union? cs = none := by
  unfold union?
  cases front : trimFront cs with
  | nil => rfl
  | cons c rest =>
    rw [front] at first
    obtain ⟨notDouble, notSingle⟩ := first c rfl
    simp [literal?, notDouble, notSingle]

namespace UnionLine

variable (u : UnionLine)

theorem isBlank_sign : isBlank u.sign = false := by
  obtain sign | sign := u.isSign <;> rw [sign] <;> decide

theorem trimFront_lead (rest : List Char) :
    trimFront (u.lead ++ u.sign :: rest) = trimFront u.lead ++ u.sign :: rest := by
  have solid : (u.sign :: rest).dropWhile isBlank = u.sign :: rest := by simp [u.isBlank_sign]
  rw [trimFront, List.dropWhile_append, solid]
  split
  · rename_i empty
    rw [trimFront, List.isEmpty_iff.mp empty, List.nil_append]
  · rfl

/-- No character before the literals is a quotation mark. -/
theorem unquoted_lead {c : Char} (member : c ∈ u.lead ++ [u.sign]) : c ≠ '"' ∧ c ≠ '\x27' ∧ c ≠ '\x60' := by
  rcases List.mem_append.mp member with lead | sign
  · have plain := u.plain c lead
    simp only [List.mem_cons, not_or] at plain
    exact ⟨plain.2.2.1, plain.2.2.2.1, plain.2.2.2.2.1⟩
  · rw [List.mem_singleton.mp sign]
    obtain sign | sign := u.isSign <;> rw [sign] <;> decide

theorem head?_trimFront (rest : List Char) :
    ∀ c ∈ (trimFront (u.lead ++ u.sign :: rest)).head?, c ∈ u.lead ++ [u.sign] := by
  intro c first
  rw [u.trimFront_lead] at first
  cases front : trimFront u.lead with
  | nil =>
    rw [front] at first
    cases first
    exact List.mem_append_right _ (List.mem_singleton_self _)
  | cons d ds =>
    rw [front] at first
    cases first
    have member : c ∈ trimFront u.lead := by
      rw [front]
      exact List.mem_cons_self
    exact List.mem_append_left _ ((List.dropWhile_sublist isBlank).subset member)

theorem lineLiterals_text :
    lineLiterals u.text = u.first.chars :: u.others.map (·.literal.chars) := by
  have plain : ∀ c ∈ u.lead, c ≠ ':' ∧ c ≠ '=' := by
    intro c member
    have plain := u.plain c member
    simp only [List.mem_cons, not_or] at plain
    exact ⟨plain.1, plain.2.1⟩
  have none : union? u.text = none := union?_eq_none fun c first =>
    have unquoted := u.unquoted_lead (u.head?_trimFront _ c first)
    ⟨unquoted.1, unquoted.2.1⟩
  rw [lineLiterals, none, UnionLine.text, unionAfterSign?_lead plain u.isSign (union?_text u)]
  rfl

/-! ### Blanks around a line -/

def trimmed : UnionLine where
  lead := trimFront u.lead
  sign := u.sign
  gap := u.gap
  first := u.first
  others := u.others
  close := if u.semicolon.isSome then u.close else .empty
  semicolon := u.semicolon.map fun _ => .empty
  isSign := u.isSign
  plain := fun c member => u.plain c ((List.dropWhile_sublist isBlank).subset member)

def trail : List Char := (u.semicolon.getD u.close).chars

theorem blank_trail : ∀ c ∈ u.trail, isBlank c := (u.semicolon.getD u.close).blank

theorem text_eq : u.text = u.lead.takeWhile isBlank ++ (u.trimmed.text ++ u.trail) := by
  have lead : u.lead = u.lead.takeWhile isBlank ++ trimFront u.lead :=
    List.takeWhile_append_dropWhile.symm
  have close : u.close.chars ++ closing u.semicolon =
      u.trimmed.close.chars ++ (closing u.trimmed.semicolon ++ u.trail) := by
    cases found : u.semicolon <;> simp [trimmed, trail, closing, found, Gap.empty]
  conv_lhs => rw [text, close, lead]
  simp [text, trimmed, union]

theorem startsSolid_trimmed (rest : List Char) : StartsSolid (u.trimmed.text ++ rest) := by
  have front : u.trimmed.text ++ rest =
      trimFront (u.lead ++ u.sign :: (u.gap.chars ++ (u.union ++
        (u.trimmed.close.chars ++ (closing u.trimmed.semicolon ++ rest))))) := by
    rw [u.trimFront_lead]
    simp [text, trimmed, union]
  rw [front]
  exact Chain.startsSolid_trimFront _

theorem endsSolid_union (front : List Char) : EndsSolid (front ++ u.union) := by
  rw [union]
  generalize u.first = first
  induction u.others generalizing front first with
  | nil => simpa using first.endsSolid front
  | cons a others ih =>
    have ends := ih (front ++ (first.chars ++ (a.before.chars ++ '|' :: a.after.chars))) a.literal
    simpa [Alternative.chars] using ends

theorem endsSolid_trimmed : EndsSolid u.trimmed.text := by
  cases found : u.semicolon with
  | none =>
    have ends := u.endsSolid_union (trimFront u.lead ++ u.sign :: u.gap.chars)
    simpa [text, trimmed, union, found, Gap.empty, closing] using ends
  | some gap =>
    have ends := endsSolid_concat (c := ';') (by decide)
      (trimFront u.lead ++ u.sign :: (u.gap.chars ++ (u.union ++ u.close.chars)))
    simpa [text, trimmed, union, found, Gap.empty, closing] using ends

theorem trim_text : trim u.text = u.trimmed.text := by
  rw [u.text_eq]
  refine trim_append ?_ u.blank_trail (u.startsSolid_trimmed _) u.endsSolid_trimmed
  exact List.all_eq_true.mp List.all_takeWhile

/-! ### The line as a row -/

theorem oneLine_union : '\n' ∉ u.union := by
  simp only [union, List.mem_append, List.mem_flatMap, not_or, not_exists, not_and]
  refine ⟨u.first.oneLine_chars, fun a _ => ?_⟩
  simp [Alternative.chars, a.before.oneLine, a.after.oneLine, a.literal.oneLine_chars]

theorem oneLine_text : '\n' ∉ u.text := by
  have lead : '\n' ∉ u.lead := fun member => u.plain _ member (by decide)
  have sign : '\n' ≠ u.sign := by
    obtain sign | sign := u.isSign <;> rw [sign] <;> decide
  have close : '\n' ∉ closing u.semicolon := by
    cases u.semicolon with
    | none => simp [closing]
    | some gap => simp [closing, gap.oneLine]
  simp [text, lead, sign, u.gap.oneLine, u.oneLine_union, u.close.oneLine, close]

theorem mark_mem_text : u.first.mark ∈ u.text := by
  simp [text, union, Literal.chars]

/-- A line with a union is neither empty nor a rule. -/
theorem trim_text_ne : trim u.text ≠ [] ∧ trim u.text ≠ ['-', '-', '-'] := by
  have marked : u.first.mark ∈ trim u.text := by
    rw [u.trim_text]
    exact u.trimmed.mark_mem_text
  constructor
  · intro empty
    rw [empty] at marked
    cases marked
  · intro rule
    rw [rule] at marked
    obtain mark | mark := u.first.isMark <;> rw [mark] at marked <;> exact absurd marked (by decide)

/-- A line with a union does not start with a fence. -/
theorem isPrefixOf_fence : fence.isPrefixOf (trim u.text) = false := by
  rw [Bool.eq_false_iff]
  intro fenced
  obtain ⟨rest, whole⟩ := (List.isPrefixOf_iff_prefix.mp fenced).trans (isPrefix_trim u.text)
  have first : '\x60' ∈ (trimFront u.text).head? := by
    rw [← whole]
    rfl
  exact (u.unquoted_lead (u.head?_trimFront _ _ first)).2.2 rfl

/-- A line with a union that is the whole text is its signature. -/
theorem signature_text (unfenced : ¬ fence <:+: u.text) : signature u.text = [trim u.text] := by
  have rows : rows u.text = [trim u.text] := by
    have lines : splitAt '\n' (['\n'].intercalate [u.text]) = [u.text] :=
      splitAt_intercalate (by simp) (by simpa using u.oneLine_text)
    rw [List.intercalate_singleton] at lines
    rw [rows, lines, List.map_singleton]
  obtain ⟨some, unruled⟩ := u.trim_text_ne
  rw [signature_eq, if_neg (mt hasFence_iff_isInfix.mp unfenced), rows]
  simp [head, some, unruled]

theorem values_of_signature {hover : String} (signed : signature hover.toList = [trim u.text]) :
    values hover = .ofList u.strings := by
  have unquoted : ∀ l : Literal, (unquoteChars l.chars).map String.ofList = some l.value := by
    intro l
    rw [unquoteChars_chars, Option.map_some, String.ofList_toList]
  have read : (u.first.chars :: u.others.map (·.literal.chars)).filterMap
      (fun l => (unquoteChars l).map String.ofList) = u.strings := by
    rw [List.filterMap_cons, unquoted, List.filterMap_map]
    simp [strings, unquoted]
  rw [values, signed, List.flatMap_singleton, u.trim_text, u.trimmed.lineLiterals_text]
  exact congrArg _ read

end UnionLine

/-! ## Fenced lines -/

/-- A line with a union as the only line in a code fence, with other lines before and after it. -/
structure Block where
  before : List (List Char)
  opening : List Char
  above : List (List Char)
  line : UnionLine
  below : List (List Char)
  ending : List Char
  after : List (List Char)
  opens : fence <+: trim opening
  ends : fence <+: trim ending
  blank : ∀ l ∈ above ++ below, trim l = []
  unfenced : ∀ l ∈ before ++ after, ¬ fence <+: trim l
  unruled : ∀ l ∈ before, trim l ≠ ['-', '-', '-']
  oneLine : ∀ l ∈ before ++ opening :: (above ++ (below ++ ending :: after)), '\n' ∉ l

namespace Block

variable (b : Block)

def front : List (List Char) :=
  b.before ++ b.opening :: (b.above ++ b.line.text :: (b.below ++ [b.ending]))

def text : List Char := ['\n'].intercalate (b.front ++ b.after)

theorem rows_text : rows b.text = b.front.map trim ++ b.after.map trim := by
  have oneLine : ∀ l ∈ b.front ++ b.after, '\n' ∉ l := by
    intro l member
    by_cases own : l = b.line.text
    · rw [own]
      exact b.line.oneLine_text
    · refine b.oneLine l ?_
      simp only [front, List.mem_append, List.mem_cons, own, List.not_mem_nil, or_false, false_or]
        at member ⊢
      tauto
  have some : b.front ++ b.after ≠ [] := by simp [front]
  rw [rows, text, splitAt_intercalate some oneLine, List.map_append]

theorem hasFence_text : hasFence b.text := by
  rw [text, hasFence_intercalate, List.any_eq_true]
  exact ⟨b.opening, by simp [front], hasFence_of_trim (List.isPrefixOf_iff_prefix.mpr b.opens)⟩

theorem unruled_front : ∀ row ∈ b.front.map trim, row ≠ ['-', '-', '-'] := by
  have fenced : ∀ l, fence <+: trim l → trim l ≠ ['-', '-', '-'] := by
    intro l starts rule
    rw [rule] at starts
    exact absurd starts (by decide)
  intro row member
  obtain ⟨l, inFront, rfl⟩ := List.mem_map.mp member
  simp only [front, List.mem_append, List.mem_cons, List.not_mem_nil, or_false] at inFront
  rcases inFront with before | rfl | above | rfl | below | rfl
  · exact b.unruled l before
  · exact fenced _ b.opens
  · rw [b.blank l (List.mem_append_left _ above)]
    decide
  · exact b.line.trim_text_ne.2
  · rw [b.blank l (List.mem_append_right _ below)]
    decide
  · exact fenced _ b.ends

/-- Of the lines in the fence only the one with the union is not empty. -/
theorem fencedLines_front {rest : List (List Char)} (unfenced : ∀ l ∈ rest, fence.isPrefixOf l = false) :
    fencedLines false (b.front.map trim ++ rest) = [trim b.line.text] := by
  have before : ∀ l ∈ b.before.map trim, fence.isPrefixOf l = false := by
    intro row member
    obtain ⟨l, inside, rfl⟩ := List.mem_map.mp member
    exact Bool.eq_false_iff.mpr fun starts =>
      b.unfenced l (List.mem_append_left _ inside) (List.isPrefixOf_iff_prefix.mp starts)
  have blank : ∀ ls ⊆ b.above ++ b.below, ∀ row ∈ ls.map trim, row = [] := by
    intro ls inside row member
    obtain ⟨l, isLine, rfl⟩ := List.mem_map.mp member
    exact b.blank l (inside isLine)
  have shown : fencedLines true (trim b.line.text :: ((b.below ++ [b.ending]).map trim ++ rest)) =
      trim b.line.text :: fencedLines true ((b.below ++ [b.ending]).map trim ++ rest) := by
    rw [fencedLines, if_neg (by simp [b.line.isPrefixOf_fence]),
      if_pos (by simp [b.line.trim_text_ne.1])]
  rw [front, List.map_append, List.append_assoc, fencedLines_append_of_unfenced before, List.map_cons,
    List.cons_append, fencedLines_fence b.opens, List.map_append, List.append_assoc,
    fencedLines_append_of_empty (blank _ (List.subset_append_left _ _)), List.map_cons, List.cons_append,
    Bool.not_false, shown, List.map_append, List.append_assoc,
    fencedLines_append_of_empty (blank _ (List.subset_append_right _ _))]
  rw [List.map_singleton, List.singleton_append, fencedLines_fence b.ends, Bool.not_true,
    fencedLines_of_unfenced unfenced]

theorem signature_text : signature b.text = [trim b.line.text] := by
  have unfenced : ∀ row ∈ head (b.after.map trim), fence.isPrefixOf row = false := by
    intro row member
    obtain ⟨l, after, rfl⟩ := List.mem_map.mp ((List.takeWhile_sublist _).subset member)
    exact Bool.eq_false_iff.mpr fun starts =>
      b.unfenced l (List.mem_append_right _ after) (List.isPrefixOf_iff_prefix.mp starts)
  rw [signature_eq, if_pos b.hasFence_text, rows_text, head_append b.unruled_front,
    b.fencedLines_front unfenced]

end Block

/-- **Unions are read back.**  The strings of a union that ends a line are read in order, each once: if the
line is the whole hover text, without a fence in it, and if it is the only line in a code fence. -/
theorem union_read_back :
    (∀ u : UnionLine, ¬ fence <:+: u.text →
      (values (String.ofList u.text)).values = u.strings.eraseDups) ∧
    ∀ b : Block, (values (String.ofList b.text)).values = b.line.strings.eraseDups := by
  simp only [← LiteralSet.values_ofList]
  constructor
  · intro u unfenced
    have signed : signature (String.ofList u.text).toList = [trim u.text] := by
      rw [String.toList_ofList]
      exact u.signature_text unfenced
    rw [u.values_of_signature signed]
  · intro b
    have signed : signature (String.ofList b.text).toList = [trim b.line.text] := by
      rw [String.toList_ofList]
      exact b.signature_text
    rw [b.line.values_of_signature signed]

def Gap.space : Gap := ⟨[' '], fun c member => by rw [List.mem_singleton.mp member]; rfl, by simp⟩

/-- A line of three literals, two of them the same, with signs, bars and quotation marks in them. -/
def sampleLine : UnionLine where
  lead := "(property) kind".toList
  sign := ':'
  gap := .space
  first := ⟨'"', "a|b", by decide, by decide +kernel, by decide +kernel, by decide +kernel⟩
  others := [
    ⟨.space, .space, '\x27', "c: \"d\" = e", by decide, by decide +kernel, by decide +kernel,
      by decide +kernel⟩,
    ⟨.empty, .space, '\x27', "a|b", by decide, by decide +kernel, by decide +kernel, by decide +kernel⟩]
  close := .empty
  semicolon := some .empty
  isSign := by decide
  plain c member := by
    have all : "(property) kind".toList.all fun c => c ∉ [':', '=', '"', '\x27', '\x60', '\n'] := by
      decide +kernel
    exact of_decide_eq_true (List.all_eq_true.mp all c member)

def sampleBlock : Block where
  before := ["About".toList]
  opening := "```typescript".toList
  above := [[]]
  line := sampleLine
  below := []
  ending := "```".toList
  after := ["See also: 'legacy'".toList]
  opens := by decide +kernel
  ends := by decide +kernel
  blank := by decide +kernel
  unfenced := by decide +kernel
  unruled := by decide +kernel
  oneLine := by decide +kernel

theorem sampleLine_read_back :
    ¬ fence <:+: sampleLine.text ∧
      String.ofList sampleLine.text = "(property) kind: \"a|b\" | 'c: \"d\" = e'| 'a|b';" ∧
      (values (String.ofList sampleLine.text)).values = ["a|b", "c: \"d\" = e"] ∧
      (values (String.ofList sampleBlock.text)).values = ["a|b", "c: \"d\" = e"] := by
  have unfenced : ¬ fence <:+: sampleLine.text := mt hasFence_iff_isInfix.mpr (by decide +kernel)
  have strings : sampleLine.strings.eraseDups = ["a|b", "c: \"d\" = e"] := by decide +kernel
  refine ⟨unfenced, by decide +kernel, ?_, ?_⟩
  · exact (union_read_back.1 sampleLine unfenced).trans strings
  · exact (union_read_back.2 sampleBlock).trans strings

end TemplateValues.Hover
