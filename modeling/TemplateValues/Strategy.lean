import TemplateValues.Oracle.Basic

/-!
# Strategies

A variable is looked up by several strategies in turn, each with a visit of its own.  The first that
finds values decides; a strategy that fails or breaks down counts as one that finds nothing.  After one
that has no end there is no other, and no result.
-/

namespace TemplateValues

open Template (Position)

structure Request where
  source : Source
  /-- The expression in normal text. -/
  expression : String
  position : Position

inductive StrategyFault where
  | oracle (expression : String) (fault : OracleFault)
  /-- There is an import, but nothing behind it. -/
  | unlocated (expression specifier : String)
  | other (reason : String)
deriving DecidableEq, Repr, Inhabited

def StrategyFault.message : StrategyFault → String
  | oracle e f => "oracle lookup for '" ++ e ++ "': " ++ f.message
  | unlocated e m => "'" ++ e ++ "' imported from '" ++ m ++ "' could not be located"
  | other reason => reason

/-- Work with the state of an oracle.  There is no result if a part of the work has no end. -/
abbrev Work (σ : Type) := OptionT (StateM σ)

structure Strategy (σ : Type) where
  name : String
  applies : Request → Bool
  attempt : Request → Attempt σ (Outcome StrategyFault)

namespace Request

def isDotted (r : Request) : Bool := Chain.isDotted r.expression

def isName (r : Request) : Bool := Chain.isName r.expression

end Request

namespace Strategy

variable {σ : Type} (c : Codebase)

def asking (r : Request) (compute : Ask Visit → Eval Visit LiteralSet) :
    Attempt σ (Outcome StrategyFault) :=
  fun (v, o) => Values.attempt (compute (Values.answerIn c r.source v.limit)) (v, o)

def propertyAccess : Strategy σ where
  name := "property-access"
  applies := Request.isDotted
  attempt r := asking c r fun ask => Values.dotted c ask r.source r.expression

def oracle (service : Oracle σ) : Strategy σ where
  name := "oracle"
  applies _ := true
  attempt r := do
    match ← service.consult c r.source r.position with
    | .known values => return .known values
    | .failed f => return .failed (.oracle r.expression f)
    | .crashed => return .crashed
    | .endless => return .endless

def localDeclaration : Strategy σ where
  name := "local-declaration"
  applies := Request.isName
  attempt r := asking c r fun ask =>
    match r.source.find? r.expression .value with
    | some d => ask (.declaration r.source d)
    | none => Eval.unknown

def importedDeclaration : Strategy σ where
  name := "imported-declaration"
  applies := Request.isName
  attempt r :=
    match r.source.import? r.expression with
    | none => return .known .empty
    | some i => do
      let outcome ← c.importedThen r.source r.expression .value fun t d =>
        asking c r fun ask => ask (.declaration t d)
      return outcome.getD (.failed (.unlocated r.expression i.specifier))

def standard (service : Option (Oracle σ)) : List (Strategy σ) :=
  [propertyAccess c] ++ (service.map (oracle c)).toList ++
    [localDeclaration c, importedDeclaration c]

def firstKnown (limit : Nat) (r : Request) : List (Strategy σ) → Work σ LiteralSet
  | [] => return .empty
  | t :: ts =>
    if t.applies r then fun o =>
      match t.attempt r (Visit.start limit, o) with
      | (.known values, _, o) => if values.isEmpty then firstKnown limit r ts o else (some values, o)
      | (.failed _, _, o) => firstKnown limit r ts o
      | (.crashed, _, o) => firstKnown limit r ts o
      | (.endless, _, o) => (none, o)
    else firstKnown limit r ts

end Strategy

end TemplateValues
