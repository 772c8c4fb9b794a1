import TemplateValues.Source.Member
import TemplateValues.Values.Chain

/-!
# Values of expressions

A string is its own value, an object stands for its keys, an array for the values of its elements, a
choice for the values of both branches, and an asserted type wins over the expression before it.
-/

namespace TemplateValues.Values

open Syntax

variable {M : Type → Type} [Monad M] (c : Codebase) (ask : Goal → M LiteralSet)

def elements (s : Source) (array : Node) : M LiteralSet :=
  Eval.collect (fun e => ask (.expression s e)) array.content

def propertyValues (s : Source) (n : Node) : M LiteralSet :=
  match n.kind with
  | .pair => Eval.asked (fun v => ask (.expression s v)) (n.child? .value)
  | .shorthandPropertyIdentifier => named c ask s (s.textOf n) .value .declaration
  | _ => Eval.unknown

def objectValues (s : Source) (object : Node) : M LiteralSet :=
  Eval.collect (propertyValues c ask s) object.namedChildren

/-- The values of `x as T`: those of the type, or else the string `x`. -/
def assertion (s : Source) (n : Node) : M LiteralSet :=
  Eval.orElse (Eval.asked (fun t => ask (.type s t)) n.content.getLast?)
    (pure (.ofOption ((n.content.head?.map s.unwrap).bind s.stringValue?)))

def expression (s : Source) (n : Node) : M LiteralSet :=
  let n := s.unwrap n
  match n.kind with
  | .string | .templateString => pure (.ofOption (s.stringValue? n))
  -- an object stands for its keys
  | .object => pure (s.objectKeys n)
  | .array => elements ask s n
  | .asExpression => assertion ask s n
  | .identifier => named c ask s (s.textOf n) .value .declaration
  | .memberExpression => dotted c ask s (chainText s n)
  | .ternaryExpression =>
    Eval.collect (fun b => ask (.expression s b))
      ((n.child? .consequence).toList ++ (n.child? .alternative).toList)
  | _ => Eval.unknown

def expressionMember (s : Source) (n : Node) (name : String) (rest : List String) :
    M LiteralSet :=
  let n := s.unwrap n
  match n.kind with
  | .object =>
    match s.objectMember? n name with
    | some m =>
      -- the short form means a variable of the same name, whatever follows
      if m.kind = .shorthandPropertyIdentifier then
        named c ask s (s.textOf m) .value (.chain · · rest)
      else if rest.isEmpty then ask (.expression s m)
      else ask (.expressionMember s m rest)
    | none => Eval.unknown
  | .identifier => named c ask s (s.textOf n) .value (.chain · · (name :: rest))
  | .asExpression =>
    Eval.orElse (Eval.asked (fun t => ask (.typeMember s t (name :: rest))) n.content.getLast?)
      (Eval.asked (fun e => ask (.expressionMember s e (name :: rest))) n.content.head?)
  | .memberExpression => dotted c ask s (Chain.extend (chainText s n) (name :: rest))
  | _ => Eval.unknown

end TemplateValues.Values
