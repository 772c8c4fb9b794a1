/-!
# Template sites

A template string is split into static text and variables.  A *site* is a template string with at
least one variable; its anchor is where what it can become is shown.
-/

namespace TemplateValues.Template

/-- A zero-based line and a zero-based byte in it. -/
structure Position where
  line : Nat
  column : Nat
deriving DecidableEq, Repr, Inhabited

def Position.before (p q : Position) : Bool :=
  p.line < q.line || (p.line = q.line && p.column < q.column)

inductive Part where
  /-- Text that stands for itself. -/
  | static (text : String)
  /-- An expression in normal text, and where an oracle is asked about it. -/
  | hole (expression : String) (position : Position)
deriving DecidableEq, Repr, Inhabited

def Part.isVariable : Part → Bool
  | .static _ => false
  | .hole .. => true

structure Site where
  parts : List Part
  /-- Where the template string starts. -/
  start : Position
  /-- The end of the last line of the statement around it. -/
  anchor : Position
deriving DecidableEq, Repr, Inhabited

/-- The variables of `parts` whose expression is not among `seen`, each at its first place. -/
def variablesFrom (seen : List String) : List Part → List (String × Position)
  | [] => []
  | .static _ :: parts => variablesFrom seen parts
  | .hole e p :: parts =>
    if seen.contains e then variablesFrom seen parts
    else (e, p) :: variablesFrom (e :: seen) parts

def Site.variables (s : Site) : List (String × Position) := variablesFrom [] s.parts

end TemplateValues.Template
