import TemplateValues.Source
import TemplateValues.Text.Blank
import TemplateValues.Text.Quoted

/-!
# Literals in a source

The text of string literals and of keys, and the expression under wrappers that do not change it:
parentheses, `as const`, `satisfies T`, `x!` and `Object.freeze(x)`.
-/

namespace TemplateValues.Source

open Syntax

variable (s : Source)

/-- The value of a string literal or of a template string without substitutions. -/
def stringValue? (n : Node) : Option String :=
  match n.kind with
  | .string => Text.unquote (s.textOf n)
  | .templateString =>
    if n.namedChildren.any fun c => c.kind = .templateSubstitution then none
    else Text.unquote (s.textOf n)
  | _ => none

def keyText? (n : Node) : Option String :=
  match n.kind with
  | .propertyIdentifier | .shorthandPropertyIdentifier | .privatePropertyIdentifier | .identifier
  | .number => some (s.textOf n)
  | .string => Text.unquote (s.textOf n)
  | .computedPropertyName => n.content.head?.bind s.stringValue?
  | _ => none

def isConstAssertion (n : Node) : Bool :=
  -- the word is no type, so it is known by its text
  n.kind = .asExpression && n.children.getLast?.any fun c => s.textOf c = "const"

/-- What a call calls, if that is a name or a member chain without blanks. -/
def callTarget? (n : Node) : Option String :=
  if n.kind = .callExpression then
    match n.child? .function with
    | some f =>
      if f.kind = .memberExpression || f.kind = .identifier then
        some (s.textOf f) |>.filter fun text => !text.toList.any Text.isBlank
      else none
    | none => none
  else none

def callArguments (n : Node) : List Node :=
  match n.child? .arguments with
  | some arguments => arguments.content
  | none => []

def wrapped? (n : Node) : Option Node :=
  match n.kind with
  | .parenthesizedExpression | .satisfiesExpression | .nonNullExpression => n.content.head?
  | .asExpression => if s.isConstAssertion n then n.content.head? else none
  | .callExpression =>
    if s.callTarget? n = some "Object.freeze" then (callArguments n).head? else none
  | _ => none

def unwrapUpTo : (depth : Nat) → Node → Node
  | 0, n => n
  | depth + 1, n =>
    match s.wrapped? n with
    | some m => unwrapUpTo depth m
    | none => n

def unwrap (n : Node) : Node := s.unwrapUpTo n.tree.height n

end TemplateValues.Source
