import TemplateValues.Oracle.Hover
import TemplateValues.Values.Answer

/-!
# Oracles

An oracle is an outside service that knows about symbols.  It is asked for the hover text of a symbol,
then for where its type is defined, then for where it is defined itself.  A question that finds it not
ready is asked once more.  The first of the three that leads to values decides.

An oracle has a state of its own, which each question may change.
-/

namespace TemplateValues

open Template (Position)

structure Location where
  path : Path
  position : Position
deriving DecidableEq, Repr, Inhabited

inductive Reply (α : Type) where
  | value (a : α)
  | notReady
  | failed (reason : String)
  /-- The oracle broke down instead of an answer. -/
  | crashed
deriving Repr, Inhabited

/-- A service that answers questions about the symbol at a position of a file. -/
structure Oracle (σ : Type) where
  hover : Path → Position → σ → Reply (Option String) × σ
  typeDefinition : Path → Position → σ → Reply (List Location) × σ
  definition : Path → Position → σ → Reply (List Location) × σ

inductive OracleFault where
  | notReady
  | failed (reason : String)
deriving DecidableEq, Repr, Inhabited

def OracleFault.message : OracleFault → String
  | notReady => "symbol oracle is not ready"
  | failed reason => "symbol oracle request failed: " ++ reason

/-- How an attempt to find values ends. -/
inductive Outcome (ε : Type) where
  | known (values : LiteralSet)
  | failed (fault : ε)
  | crashed
  /-- The search for values has no end.  Nothing comes after it. -/
  | endless
deriving Repr, Inhabited

abbrev Attempt (σ : Type) := StateM (Visit × σ)

/-- A computation that breaks down can be given up; one without an end cannot. -/
def Halt.outcome {ε : Type} : Halt → Outcome ε
  | .noMember => .crashed
  | .depth => .endless

namespace Values

def attempt {σ ε : Type} (compute : Eval Visit LiteralSet) : Attempt σ (Outcome ε) := fun (v, o) =>
  match compute v with
  | .ok (values, v) => (.known values, v, o)
  | .error halt => (halt.outcome, v, o)

def answerIn (c : Codebase) (s : Source) (limit : Nat) : Ask Visit :=
  answer Guard.visit c (depthBound c s limit)

end Values

namespace Oracle

variable {σ : Type}

/-- Asks a question, and once more if the oracle was not ready. -/
def insist {α : Type} (question : σ → Reply α × σ) : StateM σ (Reply α) := fun o =>
  match question o with
  | (.notReady, o) => question o
  | answered => answered

def stage {α : Type} (question : σ → Reply α × σ) (use : α → Attempt σ (Outcome OracleFault)) :
    Attempt σ (Outcome OracleFault) := fun (v, o) =>
  match insist question o with
  | (.value a, o) => use a (v, o)
  | (.notReady, o) => (.failed .notReady, v, o)
  | (.failed reason, o) => (.failed (.failed reason), v, o)
  | (.crashed, o) => (.crashed, v, o)

/-- The outcome of the first stage that leads to values.  If there is none, it is a fault only if all
stages failed; `answered` says that one before did not, `fault` is the last fault before. -/
def firstStage (answered : Bool) (fault : Option OracleFault) :
    List (Attempt σ (Outcome OracleFault)) → Attempt σ (Outcome OracleFault)
  | [] => return match fault with
    | some f => if answered then .known .empty else .failed f
    | none => .known .empty
  | stage :: stages => do
    match ← stage with
    | .known values => if values.isEmpty then firstStage true fault stages else return .known values
    | .failed f => firstStage answered (some f) stages
    | .crashed => return .crashed
    | .endless => return .endless

/-- The source in which a location lies.  In the file of `s` that is `s`, whatever is on disk. -/
def sourceAt? (c : Codebase) (s : Source) (l : Location) : Option Source :=
  if l.path.same s.path || (c.workspace.canonical? l.path).any s.path.same then some s
  else c.source? l.path

def valuesAt (c : Codebase) (s : Source) (limit : Nat) (l : Location) : Eval Visit LiteralSet :=
  match sourceAt? c s l with
  | some t =>
    match Declaration.enclosing? (t.nodeAt l.position) with
    | some d => Values.answerIn c s limit (.declaration t d)
    | none => Eval.unknown
  | none => Eval.unknown

def atLocations (c : Codebase) (s : Source) (ls : List Location) : Attempt σ (Outcome OracleFault) :=
  fun (v, o) => Values.attempt (Eval.firstKnown (valuesAt c s v.limit) ls) (v, o)

def consult (oracle : Oracle σ) (c : Codebase) (s : Source) (p : Position) :
    Attempt σ (Outcome OracleFault) :=
  firstStage false none
    [stage (oracle.hover s.path p) fun hover =>
      return .known ((hover.map Hover.values).getD .empty),
     stage (oracle.typeDefinition s.path p) (atLocations c s),
     stage (oracle.definition s.path p) (atLocations c s)]

end Oracle

end TemplateValues
