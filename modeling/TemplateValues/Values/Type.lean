import TemplateValues.Source.Member
import TemplateValues.Values.Expression
import TemplateValues.Values.Idiom

/-!
# Values of types

A literal type is one string, a union is all of its members, a name is what it is declared to be.
-/

namespace TemplateValues.Values

open Syntax

variable {M : Type → Type} [Monad M] (c : Codebase) (ask : Goal → M LiteralSet)

def idiom (s : Source) : Idiom → M LiteralSet
  | .values x y =>
    if x = y then
      meant c s x .value fun t d =>
        -- of anything but an enumeration only the keys are known
        if d.kind = .enumeration then pure (t.enumValues d.node) else ask (.keys t d)
    else Eval.unknown
  | .keys x => named c ask s x .value .keys
  | .elements x =>
    meant c s x .value fun t d =>
      match (d.initializer?.map t.unwrap).filter fun n => n.kind = .array with
      | some array => elements ask t array
      | none => Eval.unknown

/-- The types that stand for the type of their elements. -/
def isListType (name : String) : Bool := name = "Array" || name = "ReadonlyArray"

def type (s : Source) (n : Node) : M LiteralSet :=
  match n.kind with
  | .typeAscription | .parenthesizedType | .readonlyType | .arrayType =>
    Eval.asked (fun t => ask (.type s t)) n.content.head?
  | .unionType => Eval.collect (fun t => ask (.type s t)) n.namedChildren
  | .literalType => pure (.ofOption (n.content.head?.bind s.stringValue?))
  | .string => pure (.ofOption (s.stringValue? n))
  | .templateLiteralType =>
    if (n.childOfKind? .templateType).isSome then Eval.unknown
    else pure (.ofOption (Text.unquote (s.textOf n)))
  | .typeIdentifier => named c ask s (s.textOf n) .type .declaration
  | .nestedTypeIdentifier =>
    Eval.asked (fun name => named c ask s (s.textOf name) .type .declaration) (n.child? .name)
  | .genericType =>
    match n.child? .name with
    | some name =>
      if isListType (s.textOf name) then
        Eval.asked (fun t => ask (.type s t))
          ((n.child? .typeArguments).bind fun arguments => arguments.content.head?)
      else ask (.type s name)
    | none => Eval.unknown
  | _ => Eval.asked (idiom c ask s) (Idiom.ofText? (s.textOf n))

def typeMember (s : Source) (n : Node) (name : String) (rest : List String) : M LiteralSet :=
  match n.kind with
  | .typeAscription | .parenthesizedType | .readonlyType =>
    Eval.asked (fun t => ask (.typeMember s t (name :: rest))) n.content.head?
  | .objectType | .interfaceBody =>
    Eval.asked (fun t => if rest.isEmpty then ask (.type s t) else ask (.typeMember s t rest))
      ((s.signature? n name).bind fun signature => signature.child? .type)
  | .typeIdentifier => named c ask s (s.textOf n) .type (.chain · · (name :: rest))
  | .genericType | .nestedTypeIdentifier =>
    Eval.asked (fun t => ask (.typeMember s t (name :: rest))) (n.child? .name)
  -- a union has the member of each part, an intersection that of the first part with one
  | .unionType => Eval.collect (fun t => ask (.typeMember s t (name :: rest))) n.namedChildren
  | .intersectionType =>
    Eval.firstKnown (fun t => ask (.typeMember s t (name :: rest))) n.namedChildren
  | _ => Eval.unknown

end TemplateValues.Values
