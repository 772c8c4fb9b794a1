import TemplateValues.Proofs.Interruption

/-!
# One strategy after the other

A variable is looked up as a member chain, then by the oracle, then among the declarations of the file,
then among the imports.  Each of these starts from a new visit, so that what it finds can be said without
the others (`Resolver.byChain`, `byOracle`, `byDeclaration`, `byImport`), and the values of the variable
are the first of the four that are not empty (`resolveVariable_eq`).  An answer is missing if the search
for it has no end, and then the variable has no values either, unless an answer before it has.  Of the four
only the oracle has a state, and that state changes only if the oracle is asked.
-/

namespace TemplateValues

open Template

variable {σ : Type}

namespace LiteralSet

/-- There is an answer, and there is nothing in it. -/
def isUnknown (answer : Option LiteralSet) : Bool := answer.any isEmpty

/-- The first answer that is not empty.  A missing answer is not passed over. -/
def firstKnown (answers : List (Option LiteralSet)) : Option LiteralSet :=
  (answers.find? fun answer => !isUnknown answer).getD (some .empty)

theorem firstKnown_cons (answer : Option LiteralSet) (answers : List (Option LiteralSet)) :
    firstKnown (answer :: answers) = if isUnknown answer then firstKnown answers else answer := by
  unfold firstKnown
  cases unknown : isUnknown answer with
  | true => rw [List.find?_cons_of_neg (by simp [unknown]), if_pos rfl]
  | false =>
    rw [List.find?_cons_of_pos (by simp [unknown]), if_neg Bool.false_ne_true, Option.getD_some]

end LiteralSet

open LiteralSet (isUnknown)

/-- The answer in an outcome.  There is nothing in that of a failure or a breakdown. -/
def Outcome.answer {ε : Type} : Outcome ε → Option LiteralSet
  | .known values => some values
  | .failed _ => some .empty
  | .crashed => some .empty
  | .endless => none

/-- What a call finds in a new visit that starts from the source `s`. -/
def Call.found (c : Codebase) (s : Source) (limit : Nat) (call : Call) : Option LiteralSet :=
  let ended : Outcome Empty × Visit × Unit :=
    Values.attempt (call.answer c (Values.depthBound c s limit)) (.start limit, ())
  ended.1.answer

namespace Resolver

variable (r : Resolver σ) (s : Source)

def found (call : Call) : Option LiteralSet := call.found r.codebase s r.limits.maxResolutionDepth

def byChain (expression : String) : Option LiteralSet :=
  if Chain.isDotted expression then r.found s (.access s expression) else some .empty

/-- The values that the oracle knows about, and its state when it has been asked. -/
def byOracle (p : Position) (o : σ) : Option LiteralSet × σ :=
  match r.oracle with
  | some service =>
    let ended := service.consult r.codebase s p (.start r.limits.maxResolutionDepth, o)
    (ended.1.answer, ended.2.2)
  | none => (some .empty, o)

def byDeclaration (name : String) : Option LiteralSet :=
  match s.find? name .value with
  | some d => if Chain.isName name then r.found s (.ask (.declaration s d)) else some .empty
  | none => some .empty

def byImport (name : String) : Option LiteralSet :=
  match r.codebase.imported? s name .value with
  | some place =>
    if Chain.isName name then r.found s (.ask (.declaration place.1 place.2)) else some .empty
  | none => some .empty

def alone : Resolver σ := { r with oracle := none }

end Resolver

/-! ## Strategies -/

section Strategies

variable (c : Codebase) (limit : Nat) (r : Request) (o : σ)

/-- What a strategy finds in a new visit, and the state of the oracle then. -/
def Strategy.ended (t : Strategy σ) : Option LiteralSet × σ :=
  if t.applies r then
    ((t.attempt r (.start limit, o)).1.answer, (t.attempt r (.start limit, o)).2.2)
  else (some .empty, o)

theorem firstKnown_cons (t : Strategy σ) (ts : List (Strategy σ)) :
    Strategy.firstKnown limit r (t :: ts) o =
      if isUnknown (t.ended limit r o).1 then Strategy.firstKnown limit r ts (t.ended limit r o).2
      else t.ended limit r o := by
  rw [Strategy.firstKnown, Strategy.ended]
  by_cases applies : t.applies r
  · simp only [applies, ↓reduceIte]
    rcases t.attempt r (.start limit, o) with ⟨outcome, v, o'⟩
    cases outcome with
    | known | failed | crashed | endless => rfl
  · simp only [applies, Bool.false_eq_true, ↓reduceIte]
    rfl

/-- Asking in a new visit leaves the oracle alone. -/
theorem asking_start (compute : Ask Visit → Eval Visit LiteralSet) (call : Call)
    (asks : ∀ depth, compute (Values.answer Guard.visit c depth) = call.answer c depth) :
    ((Strategy.asking c r compute (.start limit, o)).1.answer,
      (Strategy.asking c r compute (.start limit, o)).2.2) = (call.found c r.source limit, o) := by
  simp only [Strategy.asking, Values.attempt, Values.answerIn, Visit.start, asks, Call.found]
  cases call.answer c (Values.depthBound c r.source limit) { limit } with
  | ok result => rfl
  | error halt => cases halt <;> rfl

end Strategies

/-! ## Variables -/

section Variables

variable (r : Resolver σ) (s : Source) (expression : String) (p : Position) (o : σ)

theorem ended_propertyAccess :
    (Strategy.propertyAccess r.codebase).ended r.limits.maxResolutionDepth ⟨s, expression, p⟩ o =
      (r.byChain s expression, o) := by
  rw [Strategy.ended, Resolver.byChain]
  by_cases dotted : Chain.isDotted expression
  · simp only [Strategy.propertyAccess, Request.isDotted, dotted, ↓reduceIte]
    exact asking_start r.codebase _ ⟨s, expression, p⟩ o _ (.access s expression) fun depth => rfl
  · simp only [Strategy.propertyAccess, Request.isDotted, dotted, Bool.false_eq_true, ↓reduceIte]

theorem ended_oracle {service : Oracle σ} (asked : r.oracle = some service) :
    (Strategy.oracle r.codebase service).ended r.limits.maxResolutionDepth ⟨s, expression, p⟩ o =
      r.byOracle s p o := by
  simp only [Strategy.ended, Strategy.oracle, Resolver.byOracle, asked, ↓reduceIte, bind, StateT.bind]
  rcases service.consult r.codebase s p (.start r.limits.maxResolutionDepth, o) with ⟨outcome, v, o'⟩
  cases outcome with
  | known | failed | crashed | endless => rfl

theorem ended_localDeclaration :
    (Strategy.localDeclaration r.codebase).ended r.limits.maxResolutionDepth ⟨s, expression, p⟩ o =
      (r.byDeclaration s expression, o) := by
  rw [Strategy.ended, Resolver.byDeclaration]
  by_cases name : Chain.isName expression
  · simp only [Strategy.localDeclaration, Request.isName, name, ↓reduceIte]
    cases s.find? expression .value with
    | some d =>
      exact asking_start r.codebase _ ⟨s, expression, p⟩ o _ (.ask (.declaration s d)) fun depth => rfl
    | none => rfl
  · simp only [Strategy.localDeclaration, Request.isName, name, Bool.false_eq_true, ↓reduceIte]
    cases s.find? expression .value <;> rfl

theorem ended_importedDeclaration :
    (Strategy.importedDeclaration r.codebase).ended r.limits.maxResolutionDepth ⟨s, expression, p⟩ o =
      (r.byImport s expression, o) := by
  rw [Strategy.ended, Resolver.byImport]
  by_cases name : Chain.isName expression
  · simp only [Strategy.importedDeclaration, Request.isName, name, ↓reduceIte,
      Codebase.importedThen_eq]
    cases written : s.import? expression with
    | none =>
      -- what is not imported is not behind an import either
      have unknown : r.codebase.imported? s expression .value = none := by
        rw [Codebase.imported?_eq, Codebase.importStep?, written]
        rfl
      rw [unknown]
      rfl
    | some i =>
      cases r.codebase.imported? s expression .value with
      | none => rfl
      | some place =>
        have ended := asking_start r.codebase r.limits.maxResolutionDepth ⟨s, expression, p⟩ o
          (fun ask => ask (.declaration place.1 place.2)) (.ask (.declaration place.1 place.2))
          fun depth => rfl
        exact ended
  · simp only [Strategy.importedDeclaration, Request.isName, name, Bool.false_eq_true, ↓reduceIte]
    cases r.codebase.imported? s expression .value <;> rfl

/-- Declarations are looked up without the oracle. -/
theorem firstKnown_declarations :
    Strategy.firstKnown r.limits.maxResolutionDepth ⟨s, expression, p⟩
      [Strategy.localDeclaration r.codebase, Strategy.importedDeclaration r.codebase] o =
        (LiteralSet.firstKnown [r.byDeclaration s expression, r.byImport s expression], o) := by
  simp only [firstKnown_cons, ended_localDeclaration, ended_importedDeclaration,
    LiteralSet.firstKnown_cons]
  split
  · split <;> rfl
  · rfl

/-- The values of a variable are the first of four answers, and the oracle is asked for the second only
if the first is empty. -/
theorem resolveVariable_eq :
    r.resolveVariable s expression p o =
      (LiteralSet.firstKnown [r.byChain s expression, (r.byOracle s p o).1,
          r.byDeclaration s expression, r.byImport s expression],
        if isUnknown (r.byChain s expression) then (r.byOracle s p o).2 else o) := by
  rw [Resolver.resolveVariable, Strategy.standard, List.append_assoc, List.singleton_append,
    firstKnown_cons, ended_propertyAccess, LiteralSet.firstKnown_cons]
  by_cases unknown : isUnknown (r.byChain s expression)
  · simp only [unknown, ↓reduceIte]
    cases asked : r.oracle with
    | none =>
      -- without an oracle the second answer is empty
      have silent : r.byOracle s p o = (some .empty, o) := by rw [Resolver.byOracle, asked]
      rw [silent]
      exact firstKnown_declarations r s expression p o
    | some service =>
      simp only [Option.map_some, Option.toList_some, List.singleton_append]
      rw [firstKnown_cons, ended_oracle r s expression p o asked, firstKnown_declarations,
        LiteralSet.firstKnown_cons (r.byOracle s p o).1]
      split <;> rfl
  · simp only [unknown, Bool.false_eq_true, ↓reduceIte]

/-- An oracle that finds nothing makes no difference. -/
theorem resolveVariable_of_silent (silent : isUnknown (r.byOracle s p o).1) :
    (r.resolveVariable s expression p o).1 = (r.alone.resolveVariable s expression p o).1 := by
  simp only [resolveVariable_eq, LiteralSet.firstKnown_cons, silent, ↓reduceIte]
  rfl

end Variables

/-! ## Questions noted down -/

def logging {α : Type} (q : Query) (question : Path → Position → σ → Reply α × σ) (path : Path)
    (p : Position) (x : σ × List LogEntry) : Reply α × σ × List LogEntry :=
  ((question path p x.1).1, (question path p x.1).2, ⟨q, path, p⟩ :: x.2)

/-- The oracle with the questions that it was asked, the last first. -/
def Oracle.logged (service : Oracle σ) : Oracle (σ × List LogEntry) where
  hover := logging .hover service.hover
  typeDefinition := logging .typeDefinition service.typeDefinition
  definition := logging .definition service.definition

def Resolver.logged (r : Resolver σ) : Resolver (σ × List LogEntry) where
  codebase := r.codebase
  limits := r.limits
  oracle := r.oracle.map Oracle.logged
  isCancelled x := r.isCancelled x.1

/-- Beside the oracle with a log, the oracle is in the state without the log. -/
theorem agrees_logged (service : Oracle σ) : service.Agrees (fun o x => x.1 = o) service.logged := by
  constructor
  all_goals
    rintro path p o x rfl
    exact ⟨_, _, _, rfl, rfl, rfl⟩

/-- Noting down questions makes no other difference. -/
theorem resolveVariable_logged (r : Resolver σ) (s : Source) (expression : String) (p : Position)
    (o : σ) (log : List LogEntry) :
    (r.logged.resolveVariable s expression p (o, log)).1 = (r.resolveVariable s expression p o).1 ∧
      (r.logged.resolveVariable s expression p (o, log)).2.1 =
        (r.resolveVariable s expression p o).2 := by
  have agrees : r.Agrees (fun o x => x.1 = o) r.logged := by
    refine ⟨rfl, rfl, ?_⟩
    rw [Resolver.logged]
    cases r.oracle with
    | none => exact .none
    | some service => exact .some (agrees_logged service)
  obtain ⟨values, o', x, plain, logged, rfl⟩ :=
    agrees_resolveVariable agrees s expression p o (o, log) rfl
  rw [plain, logged]
  exact ⟨rfl, rfl⟩

/-! ## Oracles that know nothing -/

/-- The oracle may answer, but there is nothing in its answers. -/
structure Oracle.Mute (service : Oracle σ) : Prop where
  hover (path : Path) (p : Position) (o : σ) (text : String) :
    (service.hover path p o).1 ≠ .value (some text)
  typeDefinition (path : Path) (p : Position) (o : σ) (l : Location) (ls : List Location) :
    (service.typeDefinition path p o).1 ≠ .value (l :: ls)
  definition (path : Path) (p : Position) (o : σ) (l : Location) (ls : List Location) :
    (service.definition path p o).1 ≠ .value (l :: ls)

section Mute

/-- The attempt ends, and never with values. -/
def Barren (x : Attempt σ (Outcome OracleFault)) : Prop := ∀ v o, isUnknown (x (v, o)).1.answer

theorem barren_stage {α : Type} {question : σ → Reply α × σ}
    {use : α → Attempt σ (Outcome OracleFault)}
    (uses : ∀ o a, (question o).1 = .value a → Barren (use a)) : Barren (Oracle.stage question use) := by
  intro v o
  -- asked once or twice, what is replied is the reply to one question
  have insisted : ∃ o', Oracle.insist question o = question o' := by
    unfold Oracle.insist
    rcases replied : question o with ⟨reply, o'⟩
    cases reply with
    | notReady => exact ⟨o', rfl⟩
    | value | failed | crashed => exact ⟨o, replied.symm⟩
  obtain ⟨o', insisted⟩ := insisted
  rw [Oracle.stage, insisted]
  rcases replied : question o' with ⟨reply, o''⟩
  cases reply with
  | value a => exact uses o' a (by rw [replied]) v o''
  | notReady | failed | crashed => rfl

theorem barren_firstStage {stages : List (Attempt σ (Outcome OracleFault))}
    (barren : ∀ stage ∈ stages, Barren stage) (answered : Bool) (fault : Option OracleFault) :
    Barren (Oracle.firstStage answered fault stages) := by
  induction stages generalizing answered fault with
  | nil =>
    intro v o
    cases fault with
    | none => rfl
    | some f => cases answered <;> rfl
  | cons stage stages ih =>
    obtain ⟨first, rest⟩ := List.forall_mem_cons.mp barren
    intro v o
    have nothing := first v o
    simp only [Oracle.firstStage, bind, StateT.bind]
    rcases ended : stage (v, o) with ⟨outcome, v', o'⟩
    rw [ended] at nothing
    cases outcome with
    | known values =>
      have empty : values.isEmpty := nothing
      simp only [empty, ↓reduceIte]
      exact ih rest true fault v' o'
    | failed f => exact ih rest answered (some f) v' o'
    | crashed => rfl
    | endless => cases nothing

theorem Oracle.Mute.barren {service : Oracle σ} (mute : service.Mute) (c : Codebase) (s : Source)
    (p : Position) : Barren (service.consult c s p) := by
  have nowhere : ∀ ls, (∀ l rest, ls ≠ l :: rest) → Barren (σ := σ) (Oracle.atLocations c s ls) := by
    intro ls none
    cases ls with
    | nil => exact fun _ _ => rfl
    | cons l rest => exact absurd rfl (none l rest)
  apply barren_firstStage
  simp only [List.forall_mem_cons, List.not_mem_nil, false_implies, implies_true, and_true]
  refine ⟨barren_stage ?_, barren_stage ?_, barren_stage ?_⟩
  · intro o hover replied
    cases hover with
    | none => exact fun _ _ => rfl
    | some text => exact absurd replied (mute.hover s.path p o text)
  · intro o ls replied
    apply nowhere
    rintro l rest rfl
    exact mute.typeDefinition s.path p o l rest replied
  · intro o ls replied
    apply nowhere
    rintro l rest rfl
    exact mute.definition s.path p o l rest replied

theorem silent_of_mute {r : Resolver σ} {service : Oracle σ} (asked : r.oracle = some service)
    (mute : service.Mute) (s : Source) (p : Position) (o : σ) : isUnknown (r.byOracle s p o).1 := by
  rw [Resolver.byOracle, asked]
  exact mute.barren r.codebase s p _ o

end Mute

/-! ## The main statement -/

/-- Beside the resolver without it, an oracle that finds nothing goes only where questions lead. -/
theorem agrees_alone {r : Resolver σ} {s : Source} {R : σ → σ → Prop}
    (silent : ∀ p o, isUnknown (r.byOracle s p o).1)
    (kept : ∀ p o o', R o o' → R (r.byOracle s p o).2 o') (expression : String) (p : Position) :
    Agrees R (r.resolveVariable s expression p) (r.alone.resolveVariable s expression p) := by
  intro o o' related
  refine ⟨(r.resolveVariable s expression p o).1, (r.resolveVariable s expression p o).2, o', rfl, ?_, ?_⟩
  · rw [resolveVariable_of_silent r s expression p o (silent p o), resolveVariable_eq r.alone,
      resolveVariable_eq r.alone]
    exact Prod.ext rfl (ite_self o')
  · rw [resolveVariable_eq]
    show R (if _ then _ else _) o'
    split
    · exact kept p o o' related
    · exact related

/-- An oracle that finds nothing makes no difference to a file, unless it has the work stopped; and then
the sites before that are resolved as without it. -/
theorem resolveSource_of_silent (r : Resolver σ) (s : Source)
    (silent : ∀ p o, isUnknown (r.byOracle s p o).1) (o : σ) :
    Begins (r.resolveSource s o).1 (r.alone.resolveSource s o).1 ∧
      ((∀ p o, r.isCancelled (r.byOracle s p o).2 = r.isCancelled o) →
        (r.resolveSource s o).1 = (r.alone.resolveSource s o).1) := by
  constructor
  · cases stopped : r.isCancelled o with
    | true =>
      rw [Resolver.resolveSource, resolveSites_of_cancelled r s _ stopped]
      exact begins_nil _
    | false =>
      -- without an oracle the flag stays down, so the other can only be the first to stop
      have each := agrees_alone (R := fun _ o' => r.isCancelled o' = false) silent
        fun _ _ _ going => going
      have flag : ∀ o o', r.isCancelled o' = false → r.alone.isCancelled o' → r.isCancelled o := by
        intro _ o' going stopped
        cases going.symm.trans stopped
      exact (resolveSites_begins (R := fun _ o' => r.isCancelled o' = false)
        (agrees_resolveSite (a := r) (b := r.alone) rfl each) flag s.sites (o := o) stopped).1
  · intro quiet
    have each := agrees_alone (R := fun o o' => r.isCancelled o = r.isCancelled o') silent
      fun p o o' same => (quiet p o).trans same
    obtain ⟨sites, _, _, left, right, -⟩ := agrees_resolveSites
      (R := fun o o' => r.isCancelled o = r.isCancelled o') (agrees_resolveSite (a := r) (b := r.alone) rfl each)
      (fun _ _ same => same) s.sites o o rfl
    rw [Resolver.resolveSource, Resolver.resolveSource, left, right]

/-- **The strategies in order.**  The values of a variable are the first that are not empty among those
of the member chain, of the oracle, of a declaration in the file and of an imported one, each found in a
new visit, as long as the search for each of them that comes before has an end.  If the member chain has
values, the oracle is asked nothing and its state stays.  If the oracle comes to no values, be it that it
fails or breaks down, the variable has the values that it has without an oracle.  So an oracle that never
comes to values and leaves the flag alone makes no difference to a file; if it has the work stopped, the
sites before that are still resolved as without it. -/
theorem variable_resolved_in_order (r : Resolver σ) (s : Source) :
    (∀ expression p o, r.resolveVariable s expression p o =
      (LiteralSet.firstKnown [r.byChain s expression, (r.byOracle s p o).1,
          r.byDeclaration s expression, r.byImport s expression],
        if isUnknown (r.byChain s expression) then (r.byOracle s p o).2 else o)) ∧
    (∀ expression p o log,
      (r.logged.resolveVariable s expression p (o, log)).1 = (r.resolveVariable s expression p o).1 ∧
      (r.logged.resolveVariable s expression p (o, log)).2.1 = (r.resolveVariable s expression p o).2 ∧
      (¬ isUnknown (r.byChain s expression) →
        r.logged.resolveVariable s expression p (o, log) = (r.byChain s expression, o, log))) ∧
    (∀ expression p o, isUnknown (r.byOracle s p o).1 →
      (r.resolveVariable s expression p o).1 = (r.alone.resolveVariable s expression p o).1) ∧
    ((∀ p o, isUnknown (r.byOracle s p o).1) → ∀ o,
      Begins (r.resolveSource s o).1 (r.alone.resolveSource s o).1 ∧
      ((∀ p o, r.isCancelled (r.byOracle s p o).2 = r.isCancelled o) →
        (r.resolveSource s o).1 = (r.alone.resolveSource s o).1)) := by
  refine ⟨resolveVariable_eq r s, ?_, resolveVariable_of_silent r s, resolveSource_of_silent r s⟩
  intro expression p o log
  obtain ⟨values, state⟩ := resolveVariable_logged r s expression p o log
  refine ⟨values, state, ?_⟩
  intro known
  have same : r.logged.byChain s expression = r.byChain s expression := rfl
  rw [resolveVariable_eq, same, if_neg known, LiteralSet.firstKnown_cons, if_neg known]

namespace Sample

open Syntax

def givenString (start : Nat) : Tree :=
  .node .string (some .value) start (start + 3)
    [.node (.token "'") none start (start + 1) [],
      .node .stringFragment none (start + 1) (start + 2) [],
      .node (.token "'") none (start + 2) (start + 3) []]

def enumeration : Tree :=
  .node .enumDeclaration none 0 13
    [.node (.token "enum") none 0 4 [], .node .identifier (some .name) 5 6 [],
      .node .enumBody (some .body) 6 13
        [.node (.token "\x7b") none 6 7 [],
          .node .enumAssignment none 7 12
            [.node .propertyIdentifier (some .name) 7 8 [], .node (.token "=") none 8 9 [],
              givenString 9],
          .node (.token "\x7d") none 12 13 []]]

def constant (start : Nat) : Tree :=
  .node .lexicalDeclaration none start (start + 12)
    [.node (.token "const") (some .kind) start (start + 5) [],
      .node .variableDeclarator none (start + 6) (start + 11)
        [.node .identifier (some .name) (start + 6) (start + 7) [],
          .node (.token "=") none (start + 7) (start + 8) [], givenString (start + 8)],
      .node (.token ";") none (start + 11) (start + 12) []]

def declared : Source where
  path := ⟨["", "a.ts"]⟩
  language := .typescript
  text := "enum E\x7bA='y'\x7dconst p='x';`$\x7bp\x7d`;"
  tree := .node .program none 0 32 [enumeration, constant 13, templateStatement 25 31 [substitution 26]]

def shownTwice : Source where
  path := ⟨["", "a.ts"]⟩
  language := .typescript
  text := "const p='x';`$\x7bp\x7d`;`$\x7bp\x7d`;"
  tree := .node .program none 0 26
    [constant 0, templateStatement 12 18 [substitution 13], templateStatement 19 25 [substitution 20]]

/-- A reply without an answer: in turn the oracle is not ready, fails, breaks down and knows nothing. -/
def refusal {α : Type} (nothing : α) (turn : Nat) : Reply α × Nat :=
  match turn % 4 with
  | 0 => (.notReady, turn + 1)
  | 1 => (.failed "offline", turn + 1)
  | 2 => (.crashed, turn + 1)
  | _ => (.value nothing, turn + 1)

def useless : Oracle Nat where
  hover _ _ := refusal none
  typeDefinition _ _ := refusal []
  definition _ _ := refusal []

def resolver : Resolver Nat := ⟨codebase, {}, some useless, fun _ => false⟩

theorem mute_useless : useless.Mute := by
  have never : ∀ {α : Type} (nothing value : α) (turn : Nat), value ≠ nothing →
      (refusal nothing turn).1 ≠ .value value := by
    intro α nothing value turn other
    unfold refusal
    split <;> simp [other.symm]
  exact ⟨fun _ _ turn _ => never _ _ turn (by simp), fun _ _ turn _ _ => never _ _ turn (by simp),
    fun _ _ turn _ _ => never _ _ turn (by simp)⟩

end Sample

/-- With an oracle that answers nothing, `E.A` is resolved without a question; for `p` it is asked until
it breaks down, and the constant is found nevertheless. -/
theorem sample_resolved_in_order :
    Sample.resolver.logged.resolveVariable Sample.declared "E.A" ⟨0, 0⟩ (0, []) =
      (some (.singleton "y"), 0, []) ∧
    Sample.resolver.resolveVariable Sample.declared "p" ⟨0, 28⟩ 0 = (some (.singleton "x"), 3) ∧
    (Sample.resolver.resolveVariable Sample.declared "p" ⟨0, 28⟩ 0).1 =
      (Sample.resolver.alone.resolveVariable Sample.declared "p" ⟨0, 28⟩ 0).1 ∧
    (Sample.resolver.resolveSource Sample.declared 0).1.map (List.map Resolution.combinations) =
      some [["x"]] ∧
    (Sample.resolver.resolveSource Sample.declared 0).1 =
      (Sample.resolver.alone.resolveSource Sample.declared 0).1 := by
  have silent := silent_of_mute (r := Sample.resolver) rfl Sample.mute_useless Sample.declared
  obtain ⟨-, chain, oracle, file⟩ := variable_resolved_in_order Sample.resolver Sample.declared
  refine ⟨?_, rfl, oracle "p" ⟨0, 28⟩ 0 (silent _ _), rfl, (file silent 0).2 fun _ _ => rfl⟩
  exact (chain "E.A" ⟨0, 0⟩ 0 []).2.2 (by decide)

/-- An oracle that knows nothing and raises the flag at its first question: the second site is not
resolved, as it is without the oracle. -/
theorem mute_oracle_stops_work :
    (Script.stoppingAt {} (some 1)).oracle.Mute ∧
    ((Resolver.scripted Sample.codebase {} {} (some 1)).resolveSource Sample.shownTwice {}).1.map
      (List.map Resolution.combinations) = some [["x"]] ∧
    ((Resolver.scripted Sample.codebase {} {} (some 1)).alone.resolveSource Sample.shownTwice {}).1.map
      (List.map Resolution.combinations) = some [["x"], ["x"]] := by
  refine ⟨⟨?_, ?_, ?_⟩, rfl, rfl⟩ <;> simp [Script.oracle, Script.answer, Script.reply, Script.stoppingAt]

end TemplateValues
