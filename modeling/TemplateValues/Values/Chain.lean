import TemplateValues.Chain.Normal
import TemplateValues.Chain.Segment
import TemplateValues.Values.Goal

/-!
# Values by name

What a name or a dotted chain of names stands for in a source.
-/

namespace TemplateValues.Values

open Syntax

variable {M : Type → Type} [Monad M] (c : Codebase) (ask : Goal → M LiteralSet)

def meant (s : Source) (name : String) (space : Space)
    (onward : Source → Declaration → M LiteralSet) : M LiteralSet :=
  (Option.getD · .empty) <$> c.declaredThen s name space onward

def named (s : Source) (name : String) (space : Space) (goal : Source → Declaration → Goal) :
    M LiteralSet :=
  meant c s name space fun t d => ask (goal t d)

/-- The values of a chain of at least two names.  If nothing declares the first one, it may be an
imported namespace. -/
def chained (s : Source) (root member : String) (rest : List String) : M LiteralSet := do
  match ← c.declaredThen s root .value fun t d => ask (.chain t d (member :: rest)) with
  | some values => return values
  | none =>
    (Option.getD · .empty) <$>
      c.namespaceMemberThen s root member .value fun t d => ask (.chain t d rest)

def dotted (s : Source) (expression : String) : M LiteralSet :=
  match Chain.segments expression with
  | root :: member :: rest =>
    if (root :: member :: rest).all Chain.isName then chained c ask s root member rest
    else Eval.unknown
  | _ => Eval.unknown

def chainText (s : Source) (n : Node) : String := Chain.normalize (s.textOf n)

end TemplateValues.Values
