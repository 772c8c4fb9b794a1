import TemplateValues.Template.Combinations

/-!
# Hints

A resolved site shows its combinations at its anchor; the sites of one anchor are shown together.
-/

namespace TemplateValues.Template

structure Resolution where
  anchor : Position
  start : Position
  combinations : List String
  /-- There are more combinations than these. -/
  truncated : Bool
  /-- The number of variables with known values. -/
  resolvedVariables : Nat
  totalVariables : Nat
deriving DecidableEq, Repr, Inhabited

/-- The combinations in one line; an ellipsis says that there are more. -/
def Resolution.display (r : Resolution) : String :=
  ", ".intercalate r.combinations ++ (if r.truncated then ", …" else "")

structure Hint where
  anchor : Position
  text : String
deriving DecidableEq, Repr, Inhabited

def siteSeparator : String := "  |  "

/-- Puts the text of a site with those of its anchor.  A new anchor comes last. -/
def gather (r : Resolution) : List (Position × List String) → List (Position × List String)
  | [] => [(r.anchor, [r.display])]
  | (anchor, texts) :: groups =>
    if anchor = r.anchor then (anchor, texts ++ [r.display]) :: groups
    else (anchor, texts) :: gather r groups

def gathered (sites : List Resolution) : List (Position × List String) :=
  sites.foldl (fun groups r => gather r groups) []

def hints (sites : List Resolution) : List Hint :=
  (gathered sites).map fun group => ⟨group.1, siteSeparator.intercalate group.2⟩

end TemplateValues.Template
