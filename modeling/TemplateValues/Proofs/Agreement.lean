import Mathlib.Data.List.Forall2
import Mathlib.Data.List.Infix
import TemplateValues.Proofs.Onward
import TemplateValues.Resolver

/-!
# Resolvers side by side

Two oracles that give the same replies make no difference to what is resolved, however different their
states are: if a relation between the states is kept by every question, it is kept by all that a
resolver does, and the results are the same (`agrees_resolveVariable` and the like).

The same statement says what one oracle keeps, if it is put beside itself (`Keeps.of_agrees`).
-/

namespace TemplateValues

open Template

variable {σ τ α β ε : Type} {R : σ → τ → Prop}

namespace Work

variable {x : Work σ α} {o o' : σ}

theorem bind_of_some {a : α} (result : x o = (some a, o')) (f : α → Work σ β) :
    (x >>= f) o = f a o' := by
  simp only [bind, OptionT.bind, OptionT.mk, StateT.bind, result]

theorem bind_of_none (result : x o = (none, o')) (f : α → Work σ β) : (x >>= f) o = (none, o') := by
  simp only [bind, OptionT.bind, OptionT.mk, StateT.bind, result]
  rfl

theorem bind_return (x : Work σ α) (f : α → β) (o : σ) :
    (x >>= fun a => return f a : Work σ β) o = ((x o).1.map f, (x o).2) := by
  rcases run : x o with ⟨_ | a, o'⟩
  · exact bind_of_none run _
  · exact bind_of_some run _

end Work

/-- From related states, the two programs come to the same result and to related states. -/
def Agrees (R : σ → τ → Prop) (x : StateM σ α) (y : StateM τ α) : Prop :=
  ∀ o p, R o p → ∃ a o' p', x o = (a, o') ∧ y p = (a, p') ∧ R o' p'

def Keeps (P : σ → Prop) (x : StateM σ α) : Prop := ∀ o, P o → P (x o).2

/-- A relation between states, next to one and the same visit. -/
def Along (R : σ → τ → Prop) (x : Visit × σ) (y : Visit × τ) : Prop := x.1 = y.1 ∧ R x.2 y.2

/-- The same state on both sides, with something that holds of it. -/
def Both (P : σ → Prop) (o p : σ) : Prop := o = p ∧ P o

theorem Keeps.of_agrees {P : σ → Prop} {x : StateM σ α} (agrees : Agrees (Both P) x x) : Keeps P x := by
  intro o holds
  obtain ⟨a, o', p', first, -, -, after⟩ := agrees o o ⟨rfl, holds⟩
  rw [first]
  exact after

namespace Agrees

theorem pure (a : α) : Agrees R (pure a) (pure a) := fun o p related => ⟨a, o, p, rfl, rfl, related⟩

theorem bind {x : StateM σ α} {y : StateM τ α} {f : α → StateM σ β} {g : α → StateM τ β}
    (first : Agrees R x y) (next : ∀ a, Agrees R (f a) (g a)) : Agrees R (x >>= f) (y >>= g) := by
  intro o p related
  obtain ⟨a, o', p', left, right, related'⟩ := first o p related
  obtain ⟨b, o'', p'', left', right', related''⟩ := next a o' p' related'
  refine ⟨b, o'', p'', ?_, ?_, related''⟩
  · simp only [Bind.bind, StateT.bind, left, left']
  · simp only [Bind.bind, StateT.bind, right, right']

theorem map {x : StateM σ α} {y : StateM τ α} (f : α → β) (agrees : Agrees R x y) :
    Agrees R (f <$> x) (f <$> y) := by
  intro o p related
  obtain ⟨a, o', p', left, right, related'⟩ := agrees o p related
  refine ⟨f a, o', p', ?_, ?_, related'⟩
  · simp only [Functor.map, StateT.map, left]; rfl
  · simp only [Functor.map, StateT.map, right]; rfl

/-- Work goes on as long as it has a result. -/
theorem andThen {x : Work σ α} {y : Work τ α} {f : α → Work σ β} {g : α → Work τ β}
    (first : Agrees R x y) (next : ∀ a, Agrees R (f a) (g a)) :
    Agrees R (x >>= f : Work σ β) (y >>= g : Work τ β) := by
  intro o p related
  obtain ⟨result, o', p', left, right, related'⟩ := first o p related
  cases result with
  | none => exact ⟨none, o', p', Work.bind_of_none left f, Work.bind_of_none right g, related'⟩
  | some a =>
    rw [Work.bind_of_some left f, Work.bind_of_some right g]
    exact next a o' p' related'

theorem done (a : α) : Agrees R (Pure.pure a : Work σ α) (Pure.pure a : Work τ α) := .pure (some a)

theorem ite {c : Prop} [Decidable c] {x x' : StateM σ α} {y y' : StateM τ α} (yes : Agrees R x y)
    (no : Agrees R x' y') : Agrees R (if c then x else x') (if c then y else y') := by
  split
  · exact yes
  · exact no

end Agrees

/-! ## Oracles -/

structure Oracle.Agrees (R : σ → τ → Prop) (a : Oracle σ) (b : Oracle τ) : Prop where
  hover (path : Path) (p : Position) : TemplateValues.Agrees R (a.hover path p) (b.hover path p)
  typeDefinition (path : Path) (p : Position) :
    TemplateValues.Agrees R (a.typeDefinition path p) (b.typeDefinition path p)
  definition (path : Path) (p : Position) :
    TemplateValues.Agrees R (a.definition path p) (b.definition path p)

theorem agrees_insist {question : σ → Reply α × σ} {question' : τ → Reply α × τ}
    (agrees : Agrees R question question') :
    Agrees R (Oracle.insist question) (Oracle.insist question') := by
  intro o p related
  obtain ⟨reply, o', p', left, right, related'⟩ := agrees o p related
  simp only [Oracle.insist, left, right]
  cases reply with
  | notReady => exact agrees o' p' related'
  | value | failed | crashed => exact ⟨_, o', p', rfl, rfl, related'⟩

theorem agrees_stage {question : σ → Reply α × σ} {question' : τ → Reply α × τ}
    (agrees : Agrees R question question') {use : α → Attempt σ (Outcome OracleFault)}
    {use' : α → Attempt τ (Outcome OracleFault)} (uses : ∀ a, Agrees (Along R) (use a) (use' a)) :
    Agrees (Along R) (Oracle.stage question use) (Oracle.stage question' use') := by
  rintro ⟨v, o⟩ ⟨_, p⟩ ⟨rfl, related⟩
  obtain ⟨reply, o', p', left, right, related'⟩ := agrees_insist agrees o p related
  simp only [Oracle.stage, left, right]
  cases reply with
  | value a => exact uses a (v, o') (v, p') ⟨rfl, related'⟩
  | notReady | failed | crashed => exact ⟨_, (v, o'), (v, p'), rfl, rfl, rfl, related'⟩

theorem agrees_firstStage {stages : List (Attempt σ (Outcome OracleFault))}
    {stages' : List (Attempt τ (Outcome OracleFault))}
    (agree : List.Forall₂ (Agrees (Along R)) stages stages') (answered : Bool)
    (fault : Option OracleFault) :
    Agrees (Along R) (Oracle.firstStage answered fault stages)
      (Oracle.firstStage answered fault stages') := by
  induction agree generalizing answered fault with
  | nil => exact .pure _
  | cons first _ ih =>
    apply first.bind
    intro outcome
    cases outcome with
    | known values => exact .ite (ih true fault) (.pure _)
    | failed f => exact ih answered (some f)
    | crashed | endless => exact .pure _

/-- A computation in a visit does not look at the state of an oracle. -/
theorem agrees_attempt (compute : Visit → Eval Visit LiteralSet) :
    Agrees (Along R) (fun x => Values.attempt (ε := ε) (compute x.1) x)
      (fun x => Values.attempt (compute x.1) x) := by
  rintro ⟨v, o⟩ ⟨_, p⟩ ⟨rfl, related⟩
  simp only [Values.attempt]
  cases compute v v with
  | error halt => cases halt <;> exact ⟨_, (v, o), (v, p), rfl, rfl, rfl, related⟩
  | ok result => exact ⟨_, (result.2, o), (result.2, p), rfl, rfl, rfl, related⟩

theorem agrees_consult {a : Oracle σ} {b : Oracle τ} (agrees : a.Agrees R b) (c : Codebase) (s : Source)
    (p : Position) : Agrees (Along R) (a.consult c s p) (b.consult c s p) := by
  have locations : ∀ ls, Agrees (Along R) (Oracle.atLocations c s ls) (Oracle.atLocations c s ls) :=
    fun ls => agrees_attempt fun v => Eval.firstKnown (Oracle.valuesAt c s v.limit) ls
  apply agrees_firstStage
  refine .cons ?_ (.cons ?_ (.cons ?_ .nil))
  · exact agrees_stage (agrees.hover s.path p) fun hover => .pure _
  · exact agrees_stage (agrees.typeDefinition s.path p) locations
  · exact agrees_stage (agrees.definition s.path p) locations

/-! ## Strategies -/

structure Strategy.Agrees (R : σ → τ → Prop) (r : Request) (a : Strategy σ) (b : Strategy τ) : Prop where
  applies : a.applies r = b.applies r
  attempt : TemplateValues.Agrees (Along R) (a.attempt r) (b.attempt r)

section Strategies

variable (c : Codebase) (r : Request)

theorem agrees_asking (compute : Ask Visit → Eval Visit LiteralSet) :
    Agrees (Along R) (Strategy.asking c r compute) (Strategy.asking c r compute) :=
  agrees_attempt fun v => compute (Values.answerIn c r.source v.limit)

theorem agrees_propertyAccess :
    Strategy.Agrees R r (Strategy.propertyAccess c) (Strategy.propertyAccess c) where
  applies := rfl
  attempt := by
    simp only [Strategy.propertyAccess]
    exact agrees_asking c r _

theorem agrees_localDeclaration :
    Strategy.Agrees R r (Strategy.localDeclaration c) (Strategy.localDeclaration c) where
  applies := rfl
  attempt := by
    simp only [Strategy.localDeclaration]
    exact agrees_asking c r _

theorem agrees_importedDeclaration :
    Strategy.Agrees R r (Strategy.importedDeclaration c) (Strategy.importedDeclaration c) where
  applies := rfl
  attempt := by
    simp only [Strategy.importedDeclaration, Codebase.importedThen_eq]
    cases r.source.import? r.expression with
    | none => exact .pure _
    | some i =>
      cases c.imported? r.source r.expression .value with
      | none => exact .pure _
      | some place => exact ((agrees_asking c r _).map some).bind fun outcome => .pure _

theorem agrees_oracle {a : Oracle σ} {b : Oracle τ} (agrees : a.Agrees R b) :
    Strategy.Agrees R r (Strategy.oracle c a) (Strategy.oracle c b) where
  applies := rfl
  attempt := by
    apply (agrees_consult agrees c r.source r.position).bind
    intro outcome
    cases outcome with
    | known | failed | crashed | endless => exact .pure _

theorem agrees_standard {a : Option (Oracle σ)} {b : Option (Oracle τ)}
    (agree : Option.Rel (Oracle.Agrees R) a b) :
    List.Forall₂ (Strategy.Agrees R r) (Strategy.standard c a) (Strategy.standard c b) := by
  have rest := List.Forall₂.cons (agrees_localDeclaration (R := R) c r)
    (.cons (agrees_importedDeclaration c r) .nil)
  cases agree with
  | none => exact .cons (agrees_propertyAccess c r) rest
  | some agrees => exact .cons (agrees_propertyAccess c r) (.cons (agrees_oracle c r agrees) rest)

theorem agrees_firstKnown (limit : Nat) {ts : List (Strategy σ)} {us : List (Strategy τ)}
    (agree : List.Forall₂ (Strategy.Agrees R r) ts us) :
    Agrees R (Strategy.firstKnown limit r ts) (Strategy.firstKnown limit r us) := by
  induction agree with
  | nil => exact .done _
  | cons first _ ih =>
    simp only [Strategy.firstKnown, first.applies]
    apply Agrees.ite _ ih
    intro o p related
    obtain ⟨outcome, ⟨v, o'⟩, ⟨_, p'⟩, left, right, rfl, related'⟩ :=
      first.attempt (.start limit, o) (.start limit, p) ⟨rfl, related⟩
    simp only [left, right]
    cases outcome with
    | known values =>
      by_cases empty : values.isEmpty
      · simpa [empty] using ih o' p' related'
      · exact ⟨some values, o', p', by simp [empty], by simp [empty], related'⟩
    | failed | crashed => exact ih o' p' related'
    | endless => exact ⟨none, o', p', rfl, rfl, related'⟩

end Strategies

/-! ## Resolvers -/

/-- The two resolvers differ in their oracles and states only, and those agree. -/
structure Resolver.Agrees (R : σ → τ → Prop) (a : Resolver σ) (b : Resolver τ) : Prop where
  codebase : a.codebase = b.codebase
  limits : a.limits = b.limits
  oracle : Option.Rel (Oracle.Agrees R) a.oracle b.oracle

section Resolvers

variable {a : Resolver σ} {b : Resolver τ} {s : Source}

theorem agrees_resolveVariable (agrees : a.Agrees R b) (s : Source) (expression : String)
    (p : Position) :
    Agrees R (a.resolveVariable s expression p) (b.resolveVariable s expression p) := by
  unfold Resolver.resolveVariable
  rw [agrees.codebase, agrees.limits]
  exact agrees_firstKnown _ _ (agrees_standard _ _ agrees.oracle)

theorem agrees_resolveVariables
    (each : ∀ e p, Agrees R (a.resolveVariable s e p) (b.resolveVariable s e p))
    (asked : List (String × Position)) :
    Agrees R (a.resolveVariables s asked) (b.resolveVariables s asked) := by
  induction asked with
  | nil => exact .done _
  | cons first rest ih =>
    exact .andThen (each first.1 first.2) fun values => .andThen ih fun known => .done _

/-- Where variables resolve alike, so do sites. -/
theorem agrees_resolveSite (limits : a.limits = b.limits)
    (each : ∀ e p, Agrees R (a.resolveVariable s e p) (b.resolveVariable s e p)) (site : Site) :
    Agrees R (a.resolveSite s site) (b.resolveSite s site) := by
  unfold Resolver.resolveSite
  rw [limits]
  exact .andThen (agrees_resolveVariables each site.variables) fun known => .ite (.done _) (.done _)

def Resolver.goOn (r : Resolver σ) (s : Source) (site : Site) (sites : List Site) :
    Work σ (List Resolution) := do
  let resolved ← r.resolveSite s site
  return resolved.toList ++ (← r.resolveSites s sites)

theorem resolveSites_cons (r : Resolver σ) (s : Source) (site : Site) (sites : List Site) (o : σ) :
    r.resolveSites s (site :: sites) o =
      if r.isCancelled o then (some [], o) else r.goOn s site sites o := by
  have looked : r.resolveSites s (site :: sites) o =
      (if r.isCancelled o then Pure.pure [] else r.goOn s site sites : Work σ (List Resolution)) o := rfl
  rw [looked]
  split <;> rfl

theorem resolveSites_of_cancelled (r : Resolver σ) (s : Source) (sites : List Site) {o : σ}
    (cancelled : r.isCancelled o) : r.resolveSites s sites o = (some [], o) := by
  cases sites with
  | nil => rfl
  | cons site sites => rw [resolveSites_cons, if_pos cancelled]

theorem goOn_of_none {r : Resolver σ} {s : Source} {site : Site} {o o' : σ}
    (first : r.resolveSite s site o = (none, o')) (sites : List Site) :
    r.goOn s site sites o = (none, o') :=
  Work.bind_of_none first _

theorem goOn_of_some {r : Resolver σ} {s : Source} {site : Site} {o o' : σ}
    {resolved : Option Resolution} (first : r.resolveSite s site o = (some resolved, o'))
    (sites : List Site) :
    r.goOn s site sites o =
      ((r.resolveSites s sites o').1.map (resolved.toList ++ ·), (r.resolveSites s sites o').2) := by
  rw [Resolver.goOn, Work.bind_of_some first, Work.bind_return]

/-- Where sites resolve alike and the work is stopped in the same states, the same sites are resolved. -/
theorem agrees_resolveSites (each : ∀ site, Agrees R (a.resolveSite s site) (b.resolveSite s site))
    (flag : ∀ o p, R o p → a.isCancelled o = b.isCancelled p) (sites : List Site) :
    Agrees R (a.resolveSites s sites) (b.resolveSites s sites) := by
  induction sites with
  | nil => exact .done _
  | cons site sites ih =>
    have going : Agrees R (a.goOn s site sites) (b.goOn s site sites) :=
      .andThen (each site) fun resolved => .andThen ih fun others => .done _
    intro o p related
    rw [resolveSites_cons, resolveSites_cons, flag o p related]
    split
    · exact ⟨some [], o, p, rfl, rfl, related⟩
    · exact going o p related

/-- If the second has come to a result, so has the first, and to the beginning of it. -/
def Begins (x y : Option (List α)) : Prop := ∀ all ∈ y, ∃ early ∈ x, early <+: all

theorem begins_nil (y : Option (List α)) : Begins (some []) y := fun _ _ => ⟨[], rfl, List.nil_prefix⟩

theorem Begins.append {x y : Option (List α)} (begins : Begins x y) (front : List α) :
    Begins (x.map (front ++ ·)) (y.map (front ++ ·)) := by
  intro all member
  obtain ⟨rest, there, rfl⟩ := Option.map_eq_some_iff.mp member
  obtain ⟨early, here, begins⟩ := begins rest there
  exact ⟨front ++ early, Option.map_eq_some_iff.mpr ⟨early, here, rfl⟩,
    (List.prefix_append_right_inj front).mpr begins⟩

/-- Where sites resolve alike and the first resolver stops whenever the second does, the first resolves
the first of the sites.  In the end it is in step with the second, which goes on with the others. -/
theorem resolveSites_begins (each : ∀ site, Agrees R (a.resolveSite s site) (b.resolveSite s site))
    (flag : ∀ o p, R o p → b.isCancelled p → a.isCancelled o) (sites : List Site) {o : σ} {p : τ}
    (related : R o p) :
    Begins (a.resolveSites s sites o).1 (b.resolveSites s sites p).1 ∧
      ∃ others p', R (a.resolveSites s sites o).2 p' ∧
        (b.resolveSites s sites p).2 = (b.resolveSites s others p').2 := by
  induction sites generalizing o p with
  | nil => exact ⟨begins_nil _, [], p, related, rfl⟩
  | cons site sites ih =>
    by_cases stopped : a.isCancelled o
    · rw [resolveSites_of_cancelled a s _ stopped]
      exact ⟨begins_nil _, site :: sites, p, related, rfl⟩
    · have going : ¬ b.isCancelled p := fun stopped' => stopped (flag o p related stopped')
      obtain ⟨result, o', p', left, right, related'⟩ := each site o p related
      rw [resolveSites_cons, resolveSites_cons b, if_neg stopped, if_neg going]
      cases result with
      | none =>
        rw [goOn_of_none left, goOn_of_none right]
        exact ⟨by simp [Begins], [], p', related', rfl⟩
      | some resolved =>
        rw [goOn_of_some left, goOn_of_some right]
        obtain ⟨begins, others⟩ := ih related'
        exact ⟨begins.append resolved.toList, others⟩

end Resolvers

end TemplateValues
