import TemplateValues.Proofs.Json.Cleaning

/-!
# Comments of any text

Every text, JSON or not, is cut from left to right into strings, comments and single characters
(`Cut`), and there is one way only to do so.  Taking out comments keeps the strings and the single
characters, and of a line comment the line break.

What is left has no comment in the same reading, although pieces that were apart now stand side by
side.  A slash could become part of a new marker only with what follows it, and a slash that is a
piece of its own is followed by a piece that stays (`Cut.head?_kept`).
-/

namespace TemplateValues.Json

/-! ## Pieces -/

/-- The pieces of a text.  A string and a comment hold what stands behind their opening marker, and
whether they are closed or run to the end of the text. -/
inductive Piece where
  | string (body : List Char) (closed : Bool)
  | line (body : List Char) (closed : Bool)
  | block (body : List Char) (closed : Bool)
  | single (c : Char)
deriving DecidableEq

/-- The characters between the quotes: no quote but behind a backslash.  Only what is not closed can
end with the backslash of an escape. -/
inductive Quoted (closed : Bool) : List Char → Prop where
  | nil : Quoted closed []
  | plain {c cs} : c ≠ '"' → c ≠ '\\' → Quoted closed cs → Quoted closed (c :: cs)
  | escape {c cs} : Quoted closed cs → Quoted closed ('\\' :: c :: cs)
  | broken : closed = false → Quoted closed ['\\']

def closing (closed : Bool) (marker : List Char) : List Char := if closed then marker else []

namespace Piece

def isComment : Piece → Bool
  | line .. | block .. => true
  | string .. | single _ => false

def chars : Piece → List Char
  | string body closed => '"' :: (body ++ closing closed ['"'])
  | line body closed => '/' :: '/' :: (body ++ closing closed ['\n'])
  | block body closed => '/' :: '*' :: (body ++ closing closed ['*', '/'])
  | single c => [c]

def kept : Piece → List Char
  | line _ closed => closing closed ['\n']
  | block _ _ => []
  | p => p.chars

/-- The piece comes first in a text that goes on with `rest`: a line comment goes up to the first line
break, a block comment up to the first star with a slash, and a single character opens nothing. -/
def Begins : Piece → List Char → Prop
  | string body closed, rest => Quoted closed body ∧ (closed = false → rest = [])
  | line body closed, rest => '\n' ∉ body ∧ (closed = false → rest = [])
  | block body closed, rest => ¬ ['*', '/'] <:+: body ∧ (closed = false → rest = [])
  | single c, rest => c ≠ '"' ∧ (c = '/' → rest.head? ≠ some '/' ∧ rest.head? ≠ some '*')

end Piece

inductive Cut : List Char → List Piece → Prop where
  | nil : Cut [] []
  | cons {p rest ps} : p.Begins rest → Cut rest ps → Cut (p.chars ++ rest) (p :: ps)

theorem Cut.flatMap_chars {text : List Char} {ps : List Piece} (cut : Cut text ps) :
    ps.flatMap Piece.chars = text := by
  induction cut with
  | nil => rfl
  | cons _ _ ih => rw [List.flatMap_cons, ih]

/-! ## Every text can be cut -/

theorem exists_quoted : (cs : List Char) → ∃ body closed rest,
    Quoted closed body ∧ (closed = false → rest = []) ∧ cs = body ++ closing closed ['"'] ++ rest
  | [] => ⟨[], false, [], .nil, fun _ => rfl, rfl⟩
  | [c] => by
    by_cases quote : c = '"'
    · subst quote
      exact ⟨[], true, [], .nil, fun _ => rfl, rfl⟩
    by_cases backslash : c = '\\'
    · subst backslash
      exact ⟨['\\'], false, [], .broken rfl, fun _ => rfl, rfl⟩
    · exact ⟨[c], false, [], .plain quote backslash .nil, fun _ => rfl, rfl⟩
  | c :: d :: cs => by
    by_cases quote : c = '"'
    · subst quote
      exact ⟨[], true, d :: cs, .nil, by simp, rfl⟩
    by_cases backslash : c = '\\'
    · subst backslash
      obtain ⟨body, closed, rest, quoted, last, rfl⟩ := exists_quoted cs
      exact ⟨'\\' :: d :: body, closed, rest, .escape quoted, last, rfl⟩
    · obtain ⟨body, closed, rest, quoted, last, split⟩ := exists_quoted (d :: cs)
      exact ⟨c :: body, closed, rest, .plain quote backslash quoted, last, by simp [split]⟩

theorem exists_line (cs : List Char) : ∃ body closed rest,
    '\n' ∉ body ∧ (closed = false → rest = []) ∧ cs = body ++ closing closed ['\n'] ++ rest := by
  induction cs with
  | nil => exact ⟨[], false, [], by simp, fun _ => rfl, rfl⟩
  | cons c cs ih =>
    by_cases newline : c = '\n'
    · subst newline
      exact ⟨[], true, cs, by simp, by simp, rfl⟩
    · obtain ⟨body, closed, rest, line, last, rfl⟩ := ih
      exact ⟨c :: body, closed, rest, by simp [Ne.symm newline, line], last, rfl⟩

theorem exists_block (cs : List Char) : ∃ body closed rest,
    ¬ ['*', '/'] <:+: body ∧ (closed = false → rest = []) ∧
      cs = body ++ closing closed ['*', '/'] ++ rest := by
  induction cs with
  | nil => exact ⟨[], false, [], by simp, fun _ => rfl, rfl⟩
  | cons c cs ih =>
    by_cases ends : ['*', '/'] <+: c :: cs
    · obtain ⟨rest, split⟩ := ends
      exact ⟨[], true, rest, by simp, by simp, split.symm⟩
    · obtain ⟨body, closed, rest, open', last, rfl⟩ := ih
      refine ⟨c :: body, closed, rest, ?_, last, rfl⟩
      -- The marker would stand at the front of the body, and so at the front of the text.
      rw [List.infix_cons_iff, not_or]
      refine ⟨fun front => ends ?_, open'⟩
      rw [← List.cons_append, ← List.cons_append]
      exact (front.trans (List.prefix_append _ _)).trans (List.prefix_append _ _)

theorem exists_begins (c : Char) (cs : List Char) :
    ∃ (p : Piece) (rest : List Char), p.Begins rest ∧ p.chars ++ rest = c :: cs := by
  by_cases quote : c = '"'
  · obtain ⟨body, closed, rest, quoted, last, rfl⟩ := exists_quoted cs
    exact ⟨.string body closed, rest, ⟨quoted, last⟩, by simp [Piece.chars, quote]⟩
  by_cases opens : c = '/' ∧ ∃ d ds, cs = d :: ds ∧ (d = '/' ∨ d = '*')
  · obtain ⟨rfl, d, ds, rfl, rfl | rfl⟩ := opens
    · obtain ⟨body, closed, rest, line, last, rfl⟩ := exists_line ds
      exact ⟨.line body closed, rest, ⟨line, last⟩, by simp [Piece.chars]⟩
    · obtain ⟨body, closed, rest, open', last, rfl⟩ := exists_block ds
      exact ⟨.block body closed, rest, ⟨open', last⟩, by simp [Piece.chars]⟩
  · refine ⟨.single c, cs, ⟨quote, fun slash => ?_⟩, rfl⟩
    cases cs with
    | nil => simp
    | cons d ds => simpa [slash] using opens

theorem Piece.chars_ne_nil (p : Piece) : p.chars ≠ [] := by
  cases p <;> simp [Piece.chars]

theorem exists_cut (text : List Char) : ∃ ps, Cut text ps := by
  induction size : text.length using Nat.strongRecOn generalizing text with
  | ind n ih =>
    cases text with
    | nil => exact ⟨[], .nil⟩
    | cons c cs =>
      obtain ⟨p, rest, begins, split⟩ := exists_begins c cs
      have shorter : rest.length < n := by
        have := List.length_pos_iff.mpr p.chars_ne_nil
        rw [← size, ← split, List.length_append]
        omega
      obtain ⟨ps, cut⟩ := ih _ shorter rest rfl
      exact ⟨p :: ps, split ▸ .cons begins cut⟩

/-! ## There is one way to cut a text -/

section Unique

variable {closed closed' : Bool} {body body' rest rest' : List Char}
  (last : closed = false → rest = []) (last' : closed' = false → rest' = [])
include last last'

theorem Quoted.unique (quoted : Quoted closed body) (quoted' : Quoted closed' body')
    (same : body ++ closing closed ['"'] ++ rest = body' ++ closing closed' ['"'] ++ rest') :
    body = body' ∧ closed = closed' ∧ rest = rest' := by
  induction quoted generalizing body' with
  | nil => cases quoted' <;> grind [closing]
  | plain quote backslash _ ih => cases quoted' <;> grind [closing]
  | escape _ ih => cases quoted' <;> grind [closing]
  | broken => cases quoted' <;> grind [closing]

theorem line_unique (line : '\n' ∉ body) (line' : '\n' ∉ body')
    (same : body ++ closing closed ['\n'] ++ rest = body' ++ closing closed' ['\n'] ++ rest') :
    body = body' ∧ closed = closed' ∧ rest = rest' := by
  induction body generalizing body' with
  | nil => cases body' <;> grind [closing]
  | cons c body ih => cases body' <;> grind [closing]

/-- What closes a comment does not stand in a comment that is longer. -/
theorem closing_ne_longer {c : Char} (open' : ¬ ['*', '/'] <:+: c :: body') :
    closing closed ['*', '/'] ++ rest ≠ c :: body' ++ closing closed' ['*', '/'] ++ rest' := by
  intro same
  cases closed with
  | false =>
    rw [last rfl] at same
    simp [closing] at same
  | true =>
    cases body' with
    | nil => grind [closing]
    | cons d body' =>
      have marker : ['*', '/'] = [c, d] := by simpa [closing] using congrArg (List.take 2) same
      exact open' ⟨[], body', by simp [marker]⟩

theorem block_unique (open₁ : ¬ ['*', '/'] <:+: body) (open₂ : ¬ ['*', '/'] <:+: body')
    (same : body ++ closing closed ['*', '/'] ++ rest =
      body' ++ closing closed' ['*', '/'] ++ rest') :
    body = body' ∧ closed = closed' ∧ rest = rest' := by
  induction body generalizing body' with
  | nil =>
    cases body' with
    | nil => grind [closing]
    | cons c body' => exact absurd same (closing_ne_longer last last' open₂)
  | cons c body ih =>
    cases body' with
    | nil => exact absurd same.symm (closing_ne_longer last' last open₁)
    | cons d body' =>
      obtain ⟨rfl, same'⟩ := List.cons.inj same
      rw [List.infix_cons_iff, not_or] at open₁ open₂
      obtain ⟨rfl, others⟩ := ih open₁.2 open₂.2 same'
      exact ⟨rfl, others⟩

end Unique

theorem Piece.Begins.unique {p q : Piece} {rest rest' : List Char} (begins : p.Begins rest)
    (begins' : q.Begins rest') (same : p.chars ++ rest = q.chars ++ rest') : p = q ∧ rest = rest' := by
  cases p with
  | string body closed => cases q <;> grind [Begins, chars, Quoted.unique]
  | line body closed => cases q <;> grind [Begins, chars, line_unique]
  | block body closed => cases q <;> grind [Begins, chars, block_unique]
  | single c => cases q <;> grind [Begins, chars]

theorem Cut.unique {text : List Char} {ps qs : List Piece} (cut : Cut text ps) (cut' : Cut text qs) :
    ps = qs := by
  induction cut generalizing qs with
  | nil =>
    cases qs with
    | nil => rfl
    | cons q qs =>
      have := cut'.flatMap_chars
      simp [q.chars_ne_nil] at this
  | @cons p rest ps begins _ ih =>
    generalize whole : p.chars ++ rest = text at cut'
    cases cut' with
    | nil => simp [p.chars_ne_nil] at whole
    | cons begins' cut' =>
      obtain ⟨rfl, rfl⟩ := begins.unique begins' whole
      rw [ih cut']

/-! ## What stays of the pieces -/

theorem withoutComments_quoted {closed : Bool} {body rest : List Char} (quoted : Quoted closed body)
    (last : closed = false → rest = []) :
    withoutComments .inString (body ++ closing closed ['"'] ++ rest) =
      body ++ closing closed ['"'] ++ withoutComments .outside rest := by
  have copying := copying_withoutComments
  induction quoted with
  | nil =>
    cases closed with
    | true => simp [closing, copying.inString]
    | false => simp [closing, last, withoutComments]
  | plain quote backslash _ ih => simp [copying.within quote backslash, ← ih]
  | escape _ ih => simp [copying.pair, ← ih]
  | broken isOpen => simp [isOpen, closing, last, withoutComments]

theorem withoutComments_openBlock {previous : Char} {body : List Char}
    (open' : ¬ ['*', '/'] <:+: previous :: body) :
    withoutComments (.blockComment previous) body = [] := by
  induction body generalizing previous with
  | nil => rfl
  | cons c body ih =>
    have further : ¬ (previous = '*' ∧ c = '/') := by
      rintro ⟨rfl, rfl⟩
      exact open' ⟨[], body, rfl⟩
    rw [List.infix_cons_iff, not_or] at open'
    rw [withoutComments, if_neg (by simpa using further), ih open'.2]

/-- One piece goes through, or what stays of it. -/
theorem Piece.Begins.withoutComments {p : Piece} {rest : List Char} (begins : p.Begins rest) :
    withoutComments .outside (p.chars ++ rest) = p.kept ++ withoutComments .outside rest := by
  cases p with
  | string body closed =>
    obtain ⟨quoted, last⟩ := begins
    have inside := withoutComments_quoted quoted last
    simpa [chars, kept, copying_withoutComments.quote] using inside
  | line body closed =>
    obtain ⟨line, last⟩ := begins
    -- the second slash is part of the comment
    have skipped : '\n' ∉ '/' :: body := by simpa using line
    cases closed with
    | true => simpa [chars, kept, closing, Json.withoutComments] using withoutComments_line skipped rest
    | false =>
      simpa [chars, kept, closing, last, Json.withoutComments] using withoutComments_lastLine skipped
  | block body closed =>
    obtain ⟨open', last⟩ := begins
    have opened : ¬ ['*', '/'] <:+: Char.ofNat 0 :: body := by
      rw [List.infix_cons_iff, not_or]
      exact ⟨by simp, open'⟩
    cases closed with
    | true => simpa [chars, kept, closing, Json.withoutComments] using withoutComments_block opened rest
    | false =>
      simpa [chars, kept, closing, last, Json.withoutComments] using withoutComments_openBlock opened
  | single c =>
    obtain ⟨quote, opens⟩ := begins
    by_cases slash : c = '/'
    · simp [chars, kept, Json.withoutComments, slash, opens slash]
    · simp [chars, kept, Json.withoutComments, slash, quote]

theorem Cut.withoutComments {text : List Char} {ps : List Piece} (cut : Cut text ps) :
    withoutComments .outside text = ps.flatMap Piece.kept := by
  induction cut with
  | nil => rfl
  | cons begins _ ih => rw [begins.withoutComments, ih, List.flatMap_cons]

/-! ## What is left has no comments -/

def Piece.left : Piece → List Piece
  | line _ true => [single '\n']
  | line _ false | block _ _ => []
  | p => [p]

theorem Piece.isComment_of_mem_left {p q : Piece} (member : q ∈ p.left) : q.isComment = false := by
  cases p with
  | line body closed => cases closed <;> simp_all [left, isComment]
  | string | block | single => simp_all [left, isComment]

/-- A text that does not begin with a slash begins with a piece that stays. -/
theorem Cut.head?_kept {text : List Char} {ps : List Piece} (cut : Cut text ps)
    (slash : text.head? ≠ some '/') : (ps.flatMap Piece.kept).head? = text.head? := by
  cases cut with
  | nil => rfl
  | @cons p rest ps begins _ =>
    cases p with
    | line | block => simp [Piece.chars] at slash
    | string | single => simp [Piece.kept, Piece.chars]

theorem Cut.left {text : List Char} {ps : List Piece} (cut : Cut text ps) :
    Cut (ps.flatMap Piece.kept) (ps.flatMap Piece.left) := by
  induction cut with
  | nil => exact .nil
  | @cons p rest ps begins others ih =>
    rw [List.flatMap_cons, List.flatMap_cons]
    cases p with
    | block body closed => exact ih
    | line body closed =>
      cases closed with
      | false => exact ih
      | true => exact .cons (p := .single '\n') ⟨by decide, by simp⟩ ih
    | string body closed =>
      refine .cons (p := .string body closed) ⟨begins.1, fun isOpen => ?_⟩ ih
      -- A string that is not closed is the last piece.
      have nothing : ps = [] := others.unique (begins.2 isOpen ▸ Cut.nil)
      rw [nothing, List.flatMap_nil]
    | single c =>
      refine .cons (p := .single c) ⟨begins.1, fun slash => ?_⟩ ih
      have next := begins.2 slash
      rwa [others.head?_kept next.1]

theorem kept_of_not_isComment {p : Piece} (other : p.isComment = false) : p.kept = p.chars := by
  cases p <;> simp_all [Piece.isComment, Piece.kept]

/-! ## The main statement -/

/-- **Taking out comments is a matter of lexical pieces, for any text at all.**  There is one way to cut
a text into pieces, and the text without comments is what stays of them.  It has no comment in the same
reading, so taking out comments once more changes nothing, as it changes no text without comments. -/
theorem stripComments_pieces (text : String) :
    ∃ pieces, (∀ ps, Cut text.toList ps ↔ ps = pieces) ∧
      stripComments text = String.ofList (pieces.flatMap Piece.kept) ∧
      (∀ ps, Cut (stripComments text).toList ps → ∀ p ∈ ps, p.isComment = false) ∧
      stripComments (stripComments text) = stripComments text ∧
      ((∀ p ∈ pieces, p.isComment = false) → stripComments text = text) := by
  -- Whatever has no comments is left alone; the rest follows from the pieces that are left.
  have alone : ∀ {text : String} {ps}, Cut text.toList ps → (∀ p ∈ ps, p.isComment = false) →
      stripComments text = text := by
    intro text ps cut plain
    have same : ps.flatMap Piece.kept = ps.flatMap Piece.chars :=
      List.flatMap_congr fun p member => kept_of_not_isComment (plain p member)
    rw [stripComments, cut.withoutComments, same, cut.flatMap_chars, String.ofList_toList]
  obtain ⟨pieces, cut⟩ := exists_cut text.toList
  have stays : stripComments text = String.ofList (pieces.flatMap Piece.kept) := by
    rw [stripComments, cut.withoutComments]
  have left : Cut (stripComments text).toList (pieces.flatMap Piece.left) := by
    rw [stays, String.toList_ofList]
    exact cut.left
  have plain : ∀ p ∈ pieces.flatMap Piece.left, p.isComment = false := by
    intro p member
    obtain ⟨q, -, isLeft⟩ := List.mem_flatMap.mp member
    exact Piece.isComment_of_mem_left isLeft
  refine ⟨pieces, fun ps => ⟨fun cut' => cut'.unique cut, fun same => same ▸ cut⟩, stays, ?_,
    alone left plain, alone cut⟩
  intro ps cut'
  rwa [cut'.unique left]

/-- The first comment is closed by its second star, and the second comment ends with the text; a quote in
a comment opens nothing, and a comment marker in a string is no comment. -/
example : stripComments "\"//\\\"\"/*/\"*/ / //\"\n/*/" = "\"//\\\"\" / \n" := by decide

end TemplateValues.Json
