import TemplateValues.LiteralSet
import TemplateValues.Text.Blank
import TemplateValues.Text.Quoted
import TemplateValues.Text.Slice

/-!
# Hover texts

A hover text starts with a signature and may go on with documentation after a rule `---`.  If a line
of the signature ends in a union of string literals, those are the values.

The signature is what stands in code fences, or the first line if there are no fences.
-/

namespace TemplateValues.Hover

open Text

def fence : List Char := ['\x60', '\x60', '\x60']

def hasFence : List Char → Bool
  | [] => false
  | c :: cs => fence.isPrefixOf (c :: cs) || hasFence cs

def fencedLines (inside : Bool) : List (List Char) → List (List Char)
  | [] => []
  | l :: ls =>
    if fence.isPrefixOf l then fencedLines (!inside) ls
    else if inside && !l.isEmpty then l :: fencedLines inside ls
    else fencedLines inside ls

def signature (hover : List Char) : List (List Char) :=
  let head := ((lines hover).map trim).takeWhile fun l => l ≠ ['-', '-', '-']
  -- outside of a fence the signature is one line, and what follows is prose
  if hasFence hover then fencedLines false head
  else (head.filter fun l => !l.isEmpty).take 1

def literal? : List Char → Option (List Char × List Char)
  | q :: cs =>
    if q = '"' || q = '\x27' then
      let inner := cs.takeWhile fun c => c ≠ q && c ≠ '\n'
      match cs.drop inner.length with
      | c :: rest => if c = q then some (q :: inner ++ [q], rest) else none
      | [] => none
    else none
  | [] => none

/-- The literals of a union of which at least one more follows each bar, at most `room` of them, if
nothing but a semicolon follows the last. -/
def moreLiterals? : (room : Nat) → List Char → Option (List (List Char))
  | room, cs =>
    match trimFront cs with
    | '|' :: cs =>
      match room with
      | 0 => none
      | room + 1 =>
        match literal? (trimFront cs) with
        | some (l, cs) => (moreLiterals? room cs).map (l :: ·)
        | none => none
    | ';' :: cs => if (trimFront cs).isEmpty then some [] else none
    | [] => some []
    | _ => none

def union? (cs : List Char) : Option (List (List Char)) :=
  match literal? (trimFront cs) with
  | some (l, rest) => (moreLiterals? rest.length rest).map (l :: ·)
  | none => none

/-- The literals of the longest union that ends the text after a colon or an equals sign. -/
def unionAfterSign? : List Char → Option (List (List Char))
  | [] => none
  | c :: cs => (if c = ':' || c = '=' then union? cs else none).or (unionAfterSign? cs)

def lineLiterals (line : List Char) : List (List Char) :=
  ((union? line).or (unionAfterSign? line)).getD []

def values (hover : String) : LiteralSet :=
  .ofList (((signature hover.toList).flatMap lineLiterals).filterMap fun l =>
    (unquoteChars l).map String.ofList)

end TemplateValues.Hover
