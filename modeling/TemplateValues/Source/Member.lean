import TemplateValues.LiteralSet
import TemplateValues.Source.Literal

/-!
# Members in a source

The members of enumerations, of objects and of object types.
-/

namespace TemplateValues

open Syntax

structure EnumMember where
  name : String
  /-- The string that the member stands for, if it is given one. -/
  value? : Option String
deriving DecidableEq, Repr, Inhabited

/-- The string that a member stands for: the one it is given, or else its name. -/
def EnumMember.value (m : EnumMember) : String := m.value?.getD m.name

namespace Source

variable (s : Source)

def enumMember? (n : Node) : Option EnumMember :=
  match n.kind with
  | .enumAssignment =>
    -- what is given need not be a string, and then the name counts
    (n.child? .name).bind s.keyText? |>.map fun name => ⟨name, (n.child? .value).bind s.stringValue?⟩
  | .propertyIdentifier | .string => (s.keyText? n).map fun name => ⟨name, none⟩
  | _ => none

def enumMembers (n : Node) : List EnumMember :=
  match n.child? .body with
  | some body => body.namedChildren.filterMap s.enumMember?
  | none => []

def enumValues (n : Node) : LiteralSet := .ofList ((s.enumMembers n).map EnumMember.value)

def enumNames (n : Node) : LiteralSet := .ofList ((s.enumMembers n).map EnumMember.name)

def enumValue (n : Node) (name : String) : LiteralSet :=
  .ofOption (((s.enumMembers n).find? fun m => m.name = name).map EnumMember.value)

def objectKey? (n : Node) : Option String :=
  match n.kind with
  | .pair => (n.child? .key).bind s.keyText?
  | .shorthandPropertyIdentifier => s.keyText? n
  | .methodDefinition => (n.child? .name).bind s.keyText?
  | _ => none

def objectKeys (n : Node) : LiteralSet := .ofList (n.namedChildren.filterMap s.objectKey?)

/-- The value of a member of an object that has a name: what stands after the key, or the name itself
if only that is written. -/
def namedMember? (name : String) (n : Node) : Option Node :=
  match n.kind with
  | .pair => if (n.child? .key).bind s.keyText? = some name then n.child? .value else none
  | .shorthandPropertyIdentifier => if s.textOf n = name then some n else none
  | _ => none

def objectMember? (n : Node) (name : String) : Option Node :=
  n.namedChildren.findSome? (s.namedMember? name)

def signature? (n : Node) (name : String) : Option Node :=
  n.namedChildren.find? fun c =>
    c.kind = .propertySignature && (c.child? .name).bind s.keyText? = some name

end Source

end TemplateValues
