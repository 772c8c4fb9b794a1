import TemplateValues.Values.Iteration
import TemplateValues.Values.Type

/-!
# Values of declarations

An enumeration stands for the strings of its members, a type alias for its type.  Elsewhere a written
type wins over a value.
-/

namespace TemplateValues.Values

open Syntax

variable {M : Type → Type} [Monad M] (c : Codebase) (ask : Goal → M LiteralSet)

def ascribed (s : Source) (d : Declaration) : M LiteralSet :=
  Eval.asked (fun t => ask (.type s t)) d.ascription?

/-- The values by the written type, or else by the value given. -/
def given (s : Source) (d : Declaration) : M LiteralSet :=
  Eval.orElse (ascribed ask s d) (Eval.asked (fun v => ask (.expression s v)) d.initializer?)

def property (s : Source) (d : Declaration) : M LiteralSet :=
  match d.node.kind with
  | .enumAssignment =>
    pure (.ofOption ((d.initializer?.bind s.stringValue?).or (s.keyText? d.name)))
  | .propertyIdentifier => pure (.ofOption (s.keyText? d.name))
  | _ => given ask s d

def declaration (s : Source) (d : Declaration) : M LiteralSet :=
  match d.kind with
  | .enumeration => pure (s.enumValues d.node)
  | .binding => given ask s d
  | .typeAlias => Eval.asked (fun t => ask (.type s t)) (d.node.child? .value)
  | .interface => Eval.unknown
  | .parameter => Eval.orElse (ascribed ask s d) (iteration c ask s d)
  | .property => property ask s d

def initializerKeys (s : Source) (d : Declaration) : M LiteralSet :=
  match d.initializer?.map s.unwrap with
  | some n =>
    match n.kind with
    | .object => pure (s.objectKeys n)
    | .identifier => named c ask s (s.textOf n) .value .keys
    | _ => Eval.unknown
  | none => Eval.unknown

def extended (d : Declaration) : List Node :=
  match d.node.childOfKind? .extendsTypeClause with
  | some clause => clause.namedChildren
  | none => []

def declarationMember (s : Source) (d : Declaration) (name : String) (rest : List String) :
    M LiteralSet :=
  let inType := fun t => ask (.typeMember s t (name :: rest))
  match d.kind with
  | .enumeration => if rest.isEmpty then pure (s.enumValue d.node name) else Eval.unknown
  | .typeAlias => Eval.asked inType (d.node.child? .value)
  | .interface =>
    -- the interface itself comes before what it extends
    Eval.orElse (Eval.asked inType (d.node.child? .body)) (Eval.firstKnown inType (extended d))
  | .binding | .parameter | .property =>
    Eval.orElse (Eval.asked inType d.ascription?)
      (Eval.asked (fun v => ask (.expressionMember s v (name :: rest))) d.initializer?)

end TemplateValues.Values
