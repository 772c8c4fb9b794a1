import TemplateValues.Text.Slice

/-!
# Path aliases

A pattern of module names with at most one wildcard, and the places it stands for.  Matching and
ordering look at the pattern around its first star.
-/

namespace TemplateValues.Project

/-- A pattern of module names and the targets it maps to. -/
structure Alias where
  pattern : String
  targets : List String
deriving DecidableEq, Repr, Inhabited

def cutAtStar : List Char → Option (List Char × List Char)
  | [] => none
  | c :: cs =>
    if c = '*' then some ([], cs) else (cutAtStar cs).map fun (before, after) => (c :: before, after)

def dropFront : List Char → List Char → Option (List Char)
  | [], text => some text
  | c :: cs, d :: ds => if c = d then dropFront cs ds else none
  | _ :: _, [] => none

def dropBack (back text : List Char) : Option (List Char) :=
  (dropFront back.reverse text.reverse).map List.reverse

/-- The text that stands for the first star of a pattern; a pattern without star captures nothing. -/
def capture (pattern specifier : List Char) : Option (List Char) :=
  match cutAtStar pattern with
  | none => if pattern = specifier then some [] else none
  | some (before, after) => (dropFront before specifier).bind (dropBack after)

def fill (captured target : List Char) : List Char :=
  match cutAtStar target with
  | none => target
  | some (before, after) => before ++ captured ++ after

namespace Alias

def captured? (a : Alias) (specifier : String) : Option String :=
  (capture a.pattern.toList specifier.toList).map String.ofList

def isExact (a : Alias) : Bool := (cutAtStar a.pattern.toList).isNone

def frontSize (a : Alias) : Nat :=
  match cutAtStar a.pattern.toList with
  | some (before, _) => Text.byteCount before
  | none => Text.byteCount a.pattern.toList

/-- Exact patterns come first, then longer fronts, then smaller patterns. -/
def precedes (a b : Alias) : Bool :=
  if a.isExact ≠ b.isExact then a.isExact
  else if a.frontSize ≠ b.frontSize then b.frontSize < a.frontSize
  else a.pattern ≤ b.pattern

def expand (a : Alias) (specifier : String) : List String :=
  match capture a.pattern.toList specifier.toList with
  | some c => a.targets.map fun t => String.ofList (fill c t.toList)
  | none => []

end Alias

/-- The aliases of some entries: the last entry of a pattern counts, and more specific patterns come
first. -/
def arrange (entries : List (String × List String)) : List Alias :=
  let last := entries.foldr (fun (p, ts) kept =>
    if kept.any fun a : Alias => a.pattern = p then kept else ⟨p, ts⟩ :: kept) []
  last.mergeSort Alias.precedes

end TemplateValues.Project
