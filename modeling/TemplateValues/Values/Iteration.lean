import TemplateValues.Values.Expression

/-!
# Values of iteration

A parameter without a type takes the elements of the collection that its function is called for, and
the variable of a loop takes those of the collection, or the keys of the object, that it runs over.
-/

namespace TemplateValues.Values

open Syntax

variable {M : Type → Type} [Monad M] (c : Codebase) (ask : Goal → M LiteralSet)

def valuesOf (s : Source) (n : Node) : M LiteralSet :=
  let n := s.unwrap n
  match n.kind with
  | .object => objectValues c ask s n
  | .identifier =>
    meant c s (s.textOf n) .value fun t d =>
      match d.kind with
      | .enumeration => pure (t.enumValues d.node)
      | .binding =>
        match (d.initializer?.map t.unwrap).filter fun m => m.kind = .object with
        | some object => objectValues c ask t object
        | none => Eval.unknown
      | _ => Eval.unknown
  | _ => Eval.unknown

def keysOf (s : Source) (n : Node) : M LiteralSet :=
  let n := s.unwrap n
  match n.kind with
  | .object => pure (s.objectKeys n)
  | .identifier => named c ask s (s.textOf n) .value .keys
  | _ => Eval.unknown

def elementsOf (s : Source) (n : Node) : M LiteralSet :=
  let n := s.unwrap n
  match n.kind with
  | .callExpression =>
    match s.callTarget? n, (Source.callArguments n).head? with
    | some "Object.values", some argument => valuesOf c ask s argument
    | some "Object.keys", some argument => keysOf c ask s argument
    | _, _ => Eval.unknown
  | .array => elements ask s n
  | .identifier => named c ask s (s.textOf n) .value .declaration
  | .memberExpression => dotted c ask s (chainText s n)
  | _ => Eval.unknown

def iterationMethods : List String :=
  ["forEach", "map", "filter", "some", "every", "flatMap", "find", "findIndex"]

/-- The collection for whose elements a function is called. -/
def collection? (s : Source) (function : Node) : Option Node := do
  let arguments ← function.parent?
  guard (arguments.kind = .arguments)
  let call ← arguments.parent?
  let first ← (Source.callArguments call).head?
  guard (first.same function)
  let callee ← call.child? .function
  guard (callee.kind = .memberExpression)
  let method ← callee.child? .property
  guard (iterationMethods.contains (s.textOf method))
  callee.child? .object

/-- The word before what a loop runs over: the child in that role, or else the first that can be it. -/
def loopWord? (s : Source) (statement : Node) : Option String :=
  ((statement.child? .operator).map s.textOf).or
    ((statement.children.map fun c => c.kind.name).find? fun word => word = "of" || word = "in")

def loop (s : Source) (statement : Node) : M LiteralSet :=
  match statement.child? .right, loopWord? s statement with
  | some right, some "of" => elementsOf c ask s right
  | some right, some "in" => keysOf c ask s right
  | _, _ => Eval.unknown

def iteration (s : Source) (d : Declaration) : M LiteralSet :=
  if d.kind = .parameter then
    match d.node.parent? with
    | some p =>
      match p.kind with
      | .forInStatement => loop c ask s p
      | .arrowFunction => Eval.asked (elementsOf c ask s) (collection? s p)
      | .formalParameters =>
        match p.parent? with
        | some f =>
          if (p.content.head?.any d.node.same) &&
              (f.kind = .arrowFunction || f.kind = .functionExpression ||
                f.kind = .token "function") then
            Eval.asked (elementsOf c ask s) (collection? s f)
          else Eval.unknown
        | none => Eval.unknown
      | _ => Eval.unknown
    | none => Eval.unknown
  else Eval.unknown

end TemplateValues.Values
