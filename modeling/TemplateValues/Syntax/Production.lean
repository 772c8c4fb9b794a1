import Std.Data.HashMap
import TemplateValues.Syntax.Rule

/-!
# Productions

A production is one way to make a symbol: a sequence of steps, each a symbol with what the rule says
about it.  `Grammar.productions` spells out the rules of a grammar as productions.

A repetition is spelled out as a symbol of its own, which is made of two of itself or of one of what
is repeated.  Equal repetitions share their symbol.
-/

namespace TemplateValues.Syntax

structure Step where
  symbol : Symbol
  strength : Strength := .plain
  side : Option Side := none
  /-- The kind under which the symbol is shown, if not its own. -/
  shown : Option Kind := none
  role : Option Field := none
deriving DecidableEq, Hashable, Repr, Inhabited

structure Alternative where
  steps : List Step
  favour : Int := 0
deriving DecidableEq, Hashable, Repr, Inhabited

structure Production where
  head : Symbol
  body : Alternative
deriving DecidableEq, Repr, Inhabited

namespace Alternative

def weightier (m n : Int) : Int := if m.natAbs < n.natAbs then n else m

def append (a b : Alternative) : Alternative :=
  ⟨a.steps ++ b.steps, weightier a.favour b.favour⟩

def mapLast (f : Step → Step) (a : Alternative) : Alternative :=
  match a.steps.getLast? with
  | some s => { a with steps := a.steps.dropLast ++ [f s] }
  | none => a

end Alternative

/-- The repetitions met so far: what is repeated in each. -/
structure Runs where
  known : Std.HashMap (List Alternative) Nat := {}
  bodies : Array (List Alternative) := #[]
deriving Inhabited

def Runs.symbol (body : List Alternative) : StateM Runs Symbol := fun runs =>
  match runs.known[body]? with
  | some n => (.run n, runs)
  | none =>
    let n := runs.bodies.size
    (.run n, ⟨runs.known.insert body n, runs.bodies.push body⟩)

mutual

/-- The alternatives of a rule.  `around` holds what the rules around it say, and `final` tells
whether it stands at the end of the production.  A strength or a side belongs to what follows each
step, so the last step of a rule in the middle of a production takes those of the rule around it. -/
def Rule.alternatives (around : Step) (final : Bool) : Rule → StateM Runs (List Alternative)
  | .empty => return [⟨[], 0⟩]
  | .symbol s => return [⟨[{ around with symbol := s }], 0⟩]
  | .seq rs => Rule.sequences around final rs
  | .choice rs => Rule.choices around final rs
  | .many1 r => do
    let body ← r.alternatives default true
    return [⟨[{ around with symbol := ← Runs.symbol body }], 0⟩]
  | .strong s r => do
    let as ← r.alternatives { around with strength := s } final
    return if final then as else as.map (·.mapLast ({ · with strength := around.strength }))
  | .sided s r => do
    let as ← r.alternatives { around with side := some s } final
    return if final then as else as.map (·.mapLast ({ · with side := around.side }))
  | .favoured n r => do
    return (← r.alternatives around final).map fun a =>
      { a with favour := Alternative.weightier n a.favour }
  | .shown k r => r.alternatives { around with shown := some k } final
  | .field f r => r.alternatives { around with role := some f } final

def Rule.sequences (around : Step) (final : Bool) : List Rule → StateM Runs (List Alternative)
  | [] => return [⟨[], 0⟩]
  | r :: rs => do
    let as ← r.alternatives around (final && rs.isEmpty)
    let bs ← Rule.sequences around final rs
    return as.flatMap fun a => bs.map a.append

def Rule.choices (around : Step) (final : Bool) : List Rule → StateM Runs (List Alternative)
  | [] => return []
  | r :: rs => return (← r.alternatives around final) ++ (← Rule.choices around final rs)

end

def distinct {α : Type} [BEq α] [Hashable α] (as : List α) : List α :=
  (as.foldl (fun (seen, out) a =>
    if seen.contains a then (seen, out) else (seen.insert a (), a :: out))
    ((∅ : Std.HashMap α Unit), ([] : List α))).2.reverse

def productionsOf (head : Symbol) (bodies : List Alternative) : List Production :=
  (distinct bodies).map (Production.mk head)

def spell (r : Symbol × Rule) : StateM Runs (List Production) :=
  return productionsOf r.1 (← r.2.alternatives default true)

/-- The productions of the rules of a grammar, those of one rule together, and the repetitions that
these have. -/
def Grammar.spelled (g : Grammar) : List (List Production) × Runs := (g.rules.mapM spell).run {}

/-- The productions of a repetition: two of itself, or one of what is repeated. -/
def repetition (body : List Alternative) (n : Nat) : List Production :=
  productionsOf (.run n) (⟨[{ symbol := .run n }, { symbol := .run n }], 0⟩ :: body)

/-- The productions of a grammar, those of one symbol together, in the order of its rules; the
productions of its repetitions come last. -/
def Grammar.productions (g : Grammar) : List Production :=
  let spelled := g.spelled
  spelled.1.flatten ++
    (spelled.2.bodies.toList.zipIdx.map fun (body, n) => repetition body n).flatten

end TemplateValues.Syntax
