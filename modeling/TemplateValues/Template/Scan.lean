import TemplateValues.Chain.Normal
import TemplateValues.Source
import TemplateValues.Template.Site

/-!
# Template sites of a source

Every template string with a substitution is a site.  Its parts are the text between the substitutions
and the expressions in them.
-/

namespace TemplateValues.Source

open Syntax Template

variable (s : Source)

def staticPart (start stop : Nat) : List Part :=
  if start < stop then [.static (Text.slice s.text start stop)] else []

def peelUpTo : (depth : Nat) → Node → Node
  | 0, n => n
  | depth + 1, n =>
    if n.kind = .nonNullExpression || n.kind = .parenthesizedExpression then
      match n.content.head? with
      | some m => peelUpTo depth m
      | none => n
    else n

/-- Where an oracle is asked about an expression: a member chain at its last name, and all else at its
start. -/
def askedAt (n : Node) : Position :=
  let n := peelUpTo n.tree.height n
  if n.kind = .memberExpression then s.startOf ((n.child? .property).getD n) else s.startOf n

def holePart (substitution : Node) : List Part :=
  match substitution.content.head? with
  | some e => [.hole (Chain.normalize (s.textOf e)) (s.askedAt e)]
  | none => []

def partsFrom (stop : Nat) : (start : Nat) → List Node → List Part
  | start, [] => s.staticPart start stop
  | start, n :: ns => s.staticPart start n.start ++ s.holePart n ++ partsFrom stop n.stop ns

def templateParts (n : Node) : List Part :=
  -- the backquotes are no part of it
  s.partsFrom (n.stop - 1) (n.start + 1) (n.childrenOfKind .templateSubstitution)

def endsStatement (k : Kind) : Bool :=
  k.isStatement || [.lexicalDeclaration, .variableDeclaration, .publicFieldDefinition,
    .fieldDefinition].contains k

/-- The end of the last line of the statement around a template string. -/
def anchorOf (n : Node) : Position :=
  let around := (n.withAncestors.drop 1).find? fun m => endsStatement m.kind
  let line := (s.stopOf (around.getD n)).line
  ⟨line, s.lineEnd line⟩

def site? (n : Node) : Option Site :=
  let parts := s.templateParts n
  if parts.any Part.isVariable then some ⟨parts, s.startOf n, s.anchorOf n⟩ else none

def sites : List Site :=
  (s.root.descendants.filter fun n => n.kind = .templateString).filterMap s.site?

end TemplateValues.Source
