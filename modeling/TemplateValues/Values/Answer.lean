import TemplateValues.Values.Declaration

/-!
# Answers

One rule for each kind of goal, and the answers that follow from them.  The rules may ask in circles;
so an answer is computed with a bound on how deep questions are nested.
-/

namespace TemplateValues.Values

variable {σ : Type} (g : Guard σ) (c : Codebase)

/-- The rule for a goal.  Declarations are gone to under the guard. -/
def rule (ask : Ask σ) : Goal → Eval σ LiteralSet
  | .declaration s d => g.remembering (d.key s) (declaration c ask s d)
  | .keys s d =>
    match d.kind with
    | .enumeration => pure (s.enumNames d.node)
    | .binding => g.holding (d.key s) (initializerKeys c ask s d)
    | _ => Eval.unknown
  | .chain s d [] => ask (.declaration s d)
  | .chain s d (name :: rest) => g.holding (d.key s) (declarationMember ask s d name rest)
  | .expression s n => expression c ask s n
  | .type s n => type c ask s n
  -- there is no name to take off the path
  | .expressionMember _ _ [] => throw .noMember
  | .expressionMember s n (name :: rest) => expressionMember c ask s n name rest
  | .typeMember _ _ [] => throw .noMember
  | .typeMember s n (name :: rest) => typeMember c ask s n name rest

/-- The answer to a goal, with questions nested at most `depth` deep. -/
def answer : (depth : Nat) → Ask σ
  | 0, _ => throw .depth
  | depth + 1, goal => rule g c (answer depth) goal

def declarationCount (s : Source) : Nat :=
  (s.root.namedDescendants.filter fun n => (Declaration.ofNode? n).isSome).length

/-- A depth that questions about `s` do not reach unless they go round in a circle.  Between two
declarations that are held, they go down a tree or to the elements of an array that is not held. -/
def depthBound (s : Source) (limit : Nat) : Nat :=
  let sources := s :: c.sources
  let declarations := (sources.map declarationCount).foldl (· + ·) 0
  let height := (sources.map fun t => t.tree.height).foldl max 0
  (min limit declarations + 2) * (declarations + 3) * (height + 4)

end TemplateValues.Values
