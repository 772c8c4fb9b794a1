import TemplateValues.Codebase
import TemplateValues.Visit

/-!
# Goals

Which strings something can be is asked of declarations, expressions and types, and each answer may
depend on others.  A *goal* is one such question.  Every rule answers a goal by asking others; `Ask`
is how it asks.  What a rule makes of the answers does not depend on how they are found, so the rules
are written for any monad.

A rule that goes to a declaration does so under a *guard*, which may refuse the declaration or know
the answer.  Guarding is a parameter: with visits, or not at all.
-/

namespace TemplateValues

open Syntax

/-- A question about what strings something can be. -/
inductive Goal where
  /-- The values of a declaration. -/
  | declaration (s : Source) (d : Declaration)
  /-- The keys of a declaration. -/
  | keys (s : Source) (d : Declaration)
  /-- The values of a member chain that starts at a declaration. -/
  | chain (s : Source) (d : Declaration) (path : List String)
  /-- The values of an expression. -/
  | expression (s : Source) (n : Node)
  /-- The values of a type. -/
  | type (s : Source) (n : Node)
  /-- The values of a member chain that starts at an expression. -/
  | expressionMember (s : Source) (n : Node) (path : List String)
  /-- The values of a member chain that starts at a type. -/
  | typeMember (s : Source) (n : Node) (path : List String)

inductive Halt where
  /-- The questions were nested deeper than allowed. -/
  | depth
  /-- A member was asked for without a name. -/
  | noMember
deriving DecidableEq, Repr, Inhabited

/-- A computation that keeps a state of type `σ` and may come to a halt. -/
abbrev Eval (σ : Type) := StateT σ (Except Halt)

abbrev Ask (σ : Type) := Goal → Eval σ LiteralSet

/-- How going to a declaration is guarded. -/
structure Guard (σ : Type) where
  /-- The answer that is known already. -/
  known? : Key → σ → Option LiteralSet
  /-- Start with a declaration, if that is allowed. -/
  enter : Key → σ → Bool × σ
  /-- Be done with a declaration. -/
  leave : Key → σ → σ
  /-- Be done with a declaration and keep its values; `entered` is the state after entering it. -/
  settle : Key → (entered : σ) → LiteralSet → σ → σ

/-- Guarding by a visit.  Values are kept if nothing was refused on the way to them. -/
def Guard.visit : Guard Visit where
  known? := Visit.finished?
  enter := Visit.enter
  leave := Visit.leave
  settle k entered values v :=
    let left := v.leave k
    -- a refusal on the way may have cost some values
    if left.refusals = entered.refusals then left.finish k values else left

def Guard.free : Guard Unit where
  known? _ _ := none
  enter _ u := (true, u)
  leave _ u := u
  settle _ _ _ u := u

namespace Eval

variable {M : Type → Type} [Monad M] {α : Type}

def unknown : M LiteralSet := pure .empty

def collect (f : α → M LiteralSet) (xs : List α) : M LiteralSet :=
  xs.foldlM (fun values x => return values.union (← f x)) .empty

def firstKnown (f : α → M LiteralSet) : List α → M LiteralSet
  | [] => unknown
  | x :: xs => do
    let values ← f x
    if values.isEmpty then firstKnown f xs else return values

def asked (f : α → M LiteralSet) : Option α → M LiteralSet
  | some x => f x
  | none => unknown

def orElse (first second : M LiteralSet) : M LiteralSet := do
  let values ← first
  if values.isEmpty then second else return values

end Eval

def Declaration.key (s : Source) (d : Declaration) : Key :=
  ⟨s.path.components, d.node.start, d.node.stop⟩

namespace Guard

variable {σ : Type} (g : Guard σ)

/-- The values of a declaration: those that are known, or those computed under the guard. -/
def remembering (k : Key) (compute : Eval σ LiteralSet) : Eval σ LiteralSet := do
  match g.known? k (← get) with
  | some values => return values
  | none =>
    if ← modifyGet (g.enter k) then
      let entered ← get
      let values ← compute
      modify (g.settle k entered values)
      return values
    else Eval.unknown

/-- What is computed under the guard, and not remembered. -/
def holding (k : Key) (compute : Eval σ LiteralSet) : Eval σ LiteralSet := do
  if ← modifyGet (g.enter k) then
    let values ← compute
    modify (g.leave k)
    return values
  else Eval.unknown

end Guard

end TemplateValues
