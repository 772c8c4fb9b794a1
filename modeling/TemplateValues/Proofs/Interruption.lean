import TemplateValues.Oracle.Script
import TemplateValues.Proofs.Agreement
import TemplateValues.Proofs.VisitState

/-!
# Work that is stopped

A scripted oracle can raise the flag that asks for the work to be stopped at some question, which may
come in the middle of a site.  The site under way is finished as if nothing had happened, and no other
is begun.  So what is resolved when the flag is raised at one question begins what is resolved when it
is raised at a later one, and the questions asked do too.

The flag has no influence on replies.  Two runs with the flag raised at different questions are
therefore in step as long as both go on (`InStep`), and the first to stop is the one with the earlier
question.
-/

namespace TemplateValues

open Template

namespace Session

def reached (point : Option Nat) (log : List LogEntry) : Bool := point.any (· ≤ log.length)

/-- The session in which some questions were asked, the last first, where the flag is raised at a given
one.  The question number 0 is that before the first: the flag was raised beforehand. -/
def begun (point : Option Nat) (log : List LogEntry) : Session := ⟨log, reached point log⟩

theorem reached_of_suffix {point : Option Nat} {log log' : List LogEntry} (longer : log <:+ log')
    (already : reached point log) : reached point log' := by
  cases point with
  | none => cases already
  | some n =>
    simp only [reached, Option.any_some, decide_eq_true_eq] at already ⊢
    exact Nat.le_trans already longer.length_le

end Session

def Script.stoppingAt (script : Script) (point : Option Nat) : Script := { script with cancelAt := point }

/-- The resolver that asks a scripted oracle and stops when it raises the flag at a given question. -/
def Resolver.scripted (c : Codebase) (limits : Limits) (script : Script) (point : Option Nat) :
    Resolver Session where
  codebase := c
  limits := limits
  oracle := some (script.stoppingAt point).oracle
  isCancelled := Session.cancelled

/-- The sites, each with the state in which its resolution begins and with what becomes of it, in a run
that is not stopped.  A site without end is the last. -/
def Resolver.course {σ : Type} (r : Resolver σ) (s : Source) :
    List Site → σ → List (σ × Option (Option Resolution))
  | [], _ => []
  | site :: sites, o =>
    match r.resolveSite s site o with
    | (some resolved, o') => (o, some resolved) :: r.course s sites o'
    | (none, _) => [(o, none)]

theorem Resolver.course_of_some {σ : Type} {r : Resolver σ} {s : Source} {site : Site} {o o' : σ}
    {resolved : Option Resolution} (first : r.resolveSite s site o = (some resolved, o'))
    (sites : List Site) : r.course s (site :: sites) o = (o, some resolved) :: r.course s sites o' := by
  simp only [course, first]

theorem Resolver.course_of_none {σ : Type} {r : Resolver σ} {s : Source} {site : Site} {o o' : σ}
    (first : r.resolveSite s site o = (none, o')) (sites : List Site) :
    r.course s (site :: sites) o = [(o, none)] := by
  simp only [course, first]

def resolutions {σ : Type} (course : List (σ × Option (Option Resolution))) : Option (List Resolution) :=
  (course.mapM Prod.snd).map fun found => found.filterMap id

theorem resolutions_cons {σ : Type} (o : σ) (resolved : Option Resolution)
    (course : List (σ × Option (Option Resolution))) :
    resolutions ((o, some resolved) :: course) = (resolutions course).map (resolved.toList ++ ·) := by
  rw [resolutions, resolutions, List.mapM_cons]
  cases (course.mapM Prod.snd : Option (List (Option Resolution))) with
  | none => rfl
  | some found => cases resolved <;> rfl

/-! ## Scripts -/

section Scripts

variable (script : Script) (n m : Option Nat)

/-- The same questions were asked, with the flag raised at one or at the other. -/
def InStep (o p : Session) : Prop := ∃ log, o = .begun n log ∧ p = .begun m log

theorem note_begun (e : LogEntry) (log : List LogEntry) :
    (script.stoppingAt n).note e (.begun n log) = .begun n (e :: log) := by
  cases n with
  | none => rfl
  | some k =>
    simp only [Script.note, Script.stoppingAt, Session.begun, Session.reached, Option.any_some,
      List.length_cons, Option.some.injEq, Session.mk.injEq, true_and]
    rw [Bool.eq_iff_iff]
    simp
    omega

theorem answer_begun {α : Type} (q : Query) (replies : List (Reply α)) (nothing : α) (path : Path)
    (p : Position) (log : List LogEntry) :
    (script.stoppingAt n).answer q replies nothing path p (.begun n log) =
      (Script.reply replies nothing (log.filter fun e => e.query = q).length,
        .begun n (⟨q, path, p⟩ :: log)) := by
  rw [Script.answer, note_begun]
  rfl

variable {n m} in
/-- A script answers all questions in one way. -/
theorem agrees_of_answer {R : Session → Session → Prop}
    (each : ∀ {α : Type} (q : Query) (replies : List (Reply α)) (nothing : α) (path : Path)
      (p : Position), Agrees R ((script.stoppingAt n).answer q replies nothing path p)
        ((script.stoppingAt m).answer q replies nothing path p)) :
    (script.stoppingAt n).oracle.Agrees R (script.stoppingAt m).oracle where
  hover := each .hover script.hover none
  typeDefinition := each .typeDefinition script.typeDefinition []
  definition := each .definition script.definition []

/-- The replies do not depend on when the flag is raised. -/
theorem agrees_script :
    (script.stoppingAt n).oracle.Agrees (InStep n m) (script.stoppingAt m).oracle := by
  apply agrees_of_answer
  rintro α q replies nothing path p _ _ ⟨log, rfl, rfl⟩
  rw [answer_begun, answer_begun]
  exact ⟨_, _, _, rfl, rfl, _, rfl, rfl⟩

/-- What was asked stays in the log. -/
theorem keeps_log (asked : List LogEntry) :
    (script.stoppingAt n).oracle.Agrees (Both fun o => asked <:+ o.log)
      (script.stoppingAt n).oracle := by
  apply agrees_of_answer
  rintro α q replies nothing path p o _ ⟨rfl, kept⟩
  exact ⟨_, _, _, rfl, rfl, rfl, kept.trans (List.suffix_cons _ _)⟩

end Scripts

/-! ## Sites -/

section Sites

variable (c : Codebase) (limits : Limits) (script : Script) (s : Source)

theorem agrees_scripted (n m : Option Nat) :
    (Resolver.scripted c limits script n).Agrees (InStep n m) (Resolver.scripted c limits script m) :=
  ⟨rfl, rfl, .some (agrees_script script n m)⟩

theorem keeps_log_scripted (n : Option Nat) (asked : List LogEntry) :
    (Resolver.scripted c limits script n).Agrees (Both fun o => asked <:+ o.log)
      (Resolver.scripted c limits script n) := ⟨rfl, rfl, .some (keeps_log script n asked)⟩

/-- A site that is begun in step is finished in step. -/
theorem resolveSite_inStep (n m : Option Nat) (site : Site) (log : List LogEntry) :
    ∃ resolved log', log <:+ log' ∧
      (Resolver.scripted c limits script n).resolveSite s site (.begun n log) =
        (resolved, .begun n log') ∧
      (Resolver.scripted c limits script m).resolveSite s site (.begun m log) =
        (resolved, .begun m log') := by
  have agrees := agrees_scripted c limits script n m
  have grows := keeps_log_scripted c limits script n log
  obtain ⟨resolved, _, _, left, right, log', rfl, rfl⟩ :=
    agrees_resolveSite agrees.limits (agrees_resolveVariable agrees s) site (.begun n log) (.begun m log)
      ⟨log, rfl, rfl⟩
  have kept := Keeps.of_agrees (agrees_resolveSite rfl (agrees_resolveVariable grows s) site)
    (.begun n log) (List.suffix_refl log)
  rw [left] at kept
  exact ⟨resolved, log', kept, left, right⟩

theorem resolveSites_of_reached {n : Option Nat} {sites : List Site} {log : List LogEntry}
    (stopped : Session.reached n log) :
    (Resolver.scripted c limits script n).resolveSites s sites (.begun n log) =
      (some [], .begun n log) := by
  have cancelled : (Resolver.scripted c limits script n).isCancelled (.begun n log) := stopped
  exact resolveSites_of_cancelled _ s sites cancelled

theorem resolveSites_of_not_reached {n : Option Nat} {site : Site} {sites : List Site}
    {log : List LogEntry} (going : ¬ Session.reached n log) :
    (Resolver.scripted c limits script n).resolveSites s (site :: sites) (.begun n log) =
      (Resolver.scripted c limits script n).goOn s site sites (.begun n log) := by
  have open' : ¬ (Resolver.scripted c limits script n).isCancelled (.begun n log) := going
  rw [resolveSites_cons, if_neg open']

/-- Questions are only added. -/
theorem log_suffix_resolveSites (n : Option Nat) (sites : List Site) (log : List LogEntry) :
    log <:+ ((Resolver.scripted c limits script n).resolveSites s sites (.begun n log)).2.log := by
  have grows := keeps_log_scripted c limits script n log
  refine Keeps.of_agrees (agrees_resolveSites
    (agrees_resolveSite rfl (agrees_resolveVariable grows s)) ?_ sites) (.begun n log) (List.suffix_refl log)
  rintro o _ ⟨rfl, -⟩
  rfl

/-- Of two runs in step, the one with the earlier question has less of the same. -/
theorem resolveSites_prefix {n m : Option Nat}
    (earlier : ∀ log, Session.reached m log → Session.reached n log) (sites : List Site)
    (log : List LogEntry) :
    Begins ((Resolver.scripted c limits script n).resolveSites s sites (.begun n log)).1
        ((Resolver.scripted c limits script m).resolveSites s sites (.begun m log)).1 ∧
      ((Resolver.scripted c limits script n).resolveSites s sites (.begun n log)).2.log <:+
        ((Resolver.scripted c limits script m).resolveSites s sites (.begun m log)).2.log := by
  have agrees := agrees_scripted c limits script n m
  have flag : ∀ o p, InStep n m o p → (Resolver.scripted c limits script m).isCancelled p →
      (Resolver.scripted c limits script n).isCancelled o := by
    rintro _ _ ⟨log, rfl, rfl⟩
    exact earlier log
  obtain ⟨begins, others, _, ⟨log', left, rfl⟩, right⟩ :=
    resolveSites_begins (agrees_resolveSite agrees.limits (agrees_resolveVariable agrees s)) flag sites
      ⟨log, rfl, rfl⟩
  refine ⟨begins, ?_⟩
  rw [left, right]
  exact log_suffix_resolveSites c limits script s m others log'

theorem log_suffix_of_mem_course {n : Option Nat} {sites : List Site} {log : List LogEntry}
    {x : Session × Option (Option Resolution)}
    (member : x ∈ (Resolver.scripted c limits script n).course s sites (.begun n log)) :
    log <:+ x.1.log := by
  induction sites generalizing log with
  | nil => cases member
  | cons site sites ih =>
    obtain ⟨result, log', longer, left, -⟩ := resolveSite_inStep c limits script s n n site log
    cases result with
    | none =>
      rw [Resolver.course_of_none left] at member
      rw [List.mem_singleton.mp member]
      exact List.suffix_refl log
    | some resolved =>
      rw [Resolver.course_of_some left] at member
      rcases List.mem_cons.mp member with rfl | member
      · exact List.suffix_refl log
      · exact longer.trans (ih member)

/-- What is resolved are just the sites begun before the flag was raised, each resolved as in a run that
is not stopped. -/
theorem resolveSites_eq_begun (n : Option Nat) (sites : List Site) (log : List LogEntry) :
    ((Resolver.scripted c limits script n).resolveSites s sites (.begun n log)).1 =
      resolutions (((Resolver.scripted c limits script none).course s sites (.begun none log)).filter
        fun x => !Session.reached n x.1.log) := by
  induction sites generalizing log with
  | nil => rfl
  | cons site sites ih =>
    by_cases stopped : Session.reached n log
    · rw [resolveSites_of_reached c limits script s stopped]
      -- all sites are begun after the flag was raised
      have nothing : ((Resolver.scripted c limits script none).course s (site :: sites)
          (.begun none log)).filter (fun x => !Session.reached n x.1.log) = [] := by
        rw [List.filter_eq_nil_iff]
        intro x member
        have later := log_suffix_of_mem_course c limits script s member
        simp [Session.reached_of_suffix later stopped]
      rw [nothing]
      rfl
    · obtain ⟨result, log', -, left, right⟩ := resolveSite_inStep c limits script s n none site log
      have first : ∀ rest, (((Session.begun none log, result) :: rest).filter fun x =>
          !Session.reached n x.1.log) =
            (.begun none log, result) :: rest.filter fun x => !Session.reached n x.1.log :=
        fun rest => List.filter_cons_of_pos (by simpa [Session.begun] using stopped)
      rw [resolveSites_of_not_reached c limits script s stopped]
      cases result with
      | none =>
        rw [goOn_of_none left, Resolver.course_of_none right, first]
        rfl
      | some resolved =>
        rw [goOn_of_some left, Resolver.course_of_some right, first, resolutions_cons, ih log']

end Sites

/-- **Work that is stopped is the beginning of the work.**  Let the flag be raised at one question or at a
later one, or never.  If the second run has a result, so has the first: it resolves the first of the sites
that the second resolves.  It asks the first of its questions in any case.  It resolves just the sites that
are begun before the flag is raised, each as in a run that is not stopped.  If the flag is raised
beforehand, nothing is resolved and nothing asked. -/
theorem stopped_work_begins_work (c : Codebase) (limits : Limits) (script : Script) (s : Source)
    (log : List LogEntry) {n m : Option Nat} (earlier : ∀ k, m = some k → ∃ j, n = some j ∧ j ≤ k) :
    (∀ all ∈ ((Resolver.scripted c limits script m).resolveSource s (.begun m log)).1,
      ∃ early ∈ ((Resolver.scripted c limits script n).resolveSource s (.begun n log)).1,
        early <+: all) ∧
    ((Resolver.scripted c limits script n).resolveSource s (.begun n log)).2.log.reverse <+:
      ((Resolver.scripted c limits script m).resolveSource s (.begun m log)).2.log.reverse ∧
    ((Resolver.scripted c limits script n).resolveSource s (.begun n log)).1 =
      resolutions (((Resolver.scripted c limits script none).course s s.sites (.begun none log)).filter
        fun x => !Session.reached n x.1.log) ∧
    ∀ o : Session, o.cancelled →
      (Resolver.scripted c limits script n).resolveSource s o = (some [], o) := by
  have before : ∀ log, Session.reached m log → Session.reached n log := by
    intro log late
    cases m with
    | none => cases late
    | some k =>
      obtain ⟨j, rfl, le⟩ := earlier k rfl
      simp only [Session.reached, Option.any_some, decide_eq_true_eq] at late ⊢
      omega
  obtain ⟨sites, questions⟩ := resolveSites_prefix c limits script s before s.sites log
  refine ⟨sites, List.reverse_prefix.mpr questions, resolveSites_eq_begun c limits script s n s.sites log, ?_⟩
  intro o cancelled
  exact resolveSites_of_cancelled _ s s.sites cancelled

namespace Sample

open Syntax

def substitution (start : Nat) : Tree :=
  .node .templateSubstitution none start (start + 4)
    [.node (.token "$\x7b") none start (start + 2) [],
      .node .identifier none (start + 2) (start + 3) [],
      .node (.token "\x7d") none (start + 3) (start + 4) []]

def templateStatement (start stop : Nat) (substitutions : List Tree) : Tree :=
  .node .expressionStatement none start (stop + 1)
    [.node .templateString none start stop
      (.node (.token "`") none start (start + 1) [] :: substitutions ++
        [.node (.token "`") none (stop - 1) stop []]),
      .node (.token ";") none stop (stop + 1) []]

def templates : Source where
  path := ⟨["", "a.ts"]⟩
  language := .typescript
  text := "`$\x7bp\x7d$\x7bq\x7d`;`$\x7br\x7d`;"
  tree := .node .program none 0 18
    [templateStatement 0 10 [substitution 1, substitution 5], templateStatement 11 17 [substitution 12]]

def hovers : Script where
  hover := ["x", "y", "z"].map fun value => .value (some ("\"" ++ value ++ "\""))

def shown (point : Option Nat) : Option (List (List String)) × Nat :=
  let run := (Resolver.scripted codebase {} hovers point).resolveSource templates (.begun point [])
  (run.1.map (List.map Resolution.combinations), run.2.log.length)

end Sample

/-- The flag that is raised at the first question of a site lets its second one pass, and stops the
second site. -/
theorem sample_stopped_work :
    Sample.shown (some 1) = (some [["xy"]], 2) ∧ Sample.shown none = (some [["xy"], ["z"]], 3) ∧
    (∀ all ∈ ((Resolver.scripted Sample.codebase {} Sample.hovers none).resolveSource Sample.templates
        (.begun none [])).1,
      ∃ early ∈ ((Resolver.scripted Sample.codebase {} Sample.hovers (some 1)).resolveSource
        Sample.templates (.begun (some 1) [])).1, early <+: all) ∧
    (Resolver.scripted Sample.codebase {} Sample.hovers (some 1)).resolveSource Sample.templates
      ⟨[], true⟩ = (some [], ⟨[], true⟩) := by
  have earlier : ∀ k, none = some k → ∃ j, some 1 = some j ∧ j ≤ k := by
    intro k never
    cases never
  obtain ⟨begins, -, -, beforehand⟩ :=
    stopped_work_begins_work Sample.codebase {} Sample.hovers Sample.templates [] earlier
  exact ⟨rfl, rfl, begins, beforehand ⟨[], true⟩ rfl⟩

end TemplateValues
