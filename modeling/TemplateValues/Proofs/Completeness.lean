import Mathlib.Data.List.Nodup
import TemplateValues.Proofs.Rules
import TemplateValues.Proofs.VisitState

/-!
# Answers without refusals are complete

A visit may refuse to enter a declaration, and then values are missing.  If nothing is refused on the
way to an answer, nothing is missing: the answer is the one that is found with no guarding at all
(`Returns.faithfully`).

Answers are also taken from what the visit knows about declarations that are done.  So all that it
knows has to be complete as well (`Visit.Faithful`), and this is kept up by every rule: values are
kept only if nothing was refused since the declaration was entered.  A visit knows declarations by
where they are; so no two of them may be at the same place (`Distinct`).
-/

namespace TemplateValues

/-- Sources at the same place are the same, and so are declarations of a source at the same place. -/
structure Distinct (sources : List Source) : Prop where
  source : ∀ s ∈ sources, ∀ t ∈ sources, s.path.components = t.path.components → s = t
  declaration : ∀ s ∈ sources, ∀ d ∈ s.declarations, ∀ e ∈ s.declarations,
    d.node.start = e.node.start → d.node.stop = e.node.stop → d = e

theorem Distinct.key_inj {sources : List Source} (distinct : Distinct sources) {s t : Source}
    {d e : Declaration} (source : s ∈ sources) (source' : t ∈ sources) (declared : d ∈ s.declarations)
    (declared' : e ∈ t.declarations) (same : d.key s = e.key t) : s = t ∧ d = e := by
  simp only [Declaration.key, Key.mk.injEq] at same
  obtain ⟨file, start, stop⟩ := same
  obtain rfl := distinct.source s source t source' file
  exact ⟨rfl, distinct.declaration s source d declared e declared' start stop⟩

/-- In a single source, only the places of its declarations have to differ. -/
theorem Distinct.singleton {s : Source}
    (places : (s.declarations.map fun d => (d.node.start, d.node.stop)).Nodup) : Distinct [s] where
  source := by
    intro t source t' source' _
    rw [List.mem_singleton.mp source, List.mem_singleton.mp source']
  declaration := by
    intro t source d declared e declared' start stop
    obtain rfl := List.mem_singleton.mp source
    exact List.inj_on_of_nodup_map places declared declared' (Prod.ext start stop)

namespace Sample

theorem inner_mem : innerDeclaration ∈ source.declarations := List.mem_cons_of_mem _ List.mem_cons_self

theorem distinct : Distinct [source] := .singleton (by decide +kernel)

/-- In a new visit the values of `B` are found, and nothing else changes. -/
theorem inner_returns : Returns Guard.visit codebase (.declaration source innerDeclaration) (.start 48)
    (.singleton "y") ((Visit.start 48).finish (innerDeclaration.key source) (.singleton "y")) := ⟨10, rfl⟩

end Sample

/-! ## Answers with no guarding -/

section Free

variable {c : Codebase}

theorem free_opens (gate : Gate) : Guard.free.Opens gate () () := by
  cases gate with
  | free => exact .free
  | held k => exact .held rfl
  | remembered k => exact .remembered rfl rfl

/-- Without guarding the answer to a goal is that of its inquiry. -/
theorem free_returns_iff {goal : Goal} {values : LiteralSet} :
    Returns Guard.free c goal () values () ↔
      (goal.inquiry c).Run (Returns Guard.free c) () values () := by
  rw [returns_iff]
  constructor
  · rintro (turned | ⟨u, u', -, run, -⟩)
    · exact absurd (free_opens goal.gate) turned.not_opens
    · exact run
  · intro run
    exact .inr ⟨(), (), free_opens goal.gate, run, rfl⟩

end Free

/-! ## What a visit knows -/

/-- All that the visit knows about declarations is what is found with no guarding. -/
def Visit.Faithful (c : Codebase) (sources : List Source) (v : Visit) : Prop :=
  ∀ k values, (k, values) ∈ v.finished → ∃ t d, t ∈ sources ∧ d ∈ t.declarations ∧ d.key t = k ∧
    Returns Guard.free c (.declaration t d) () values ()

theorem Goal.gate_eq_remembered {goal : Goal} {k : Key} (gate : goal.gate = .remembered k) :
    ∃ t d, goal = .declaration t d ∧ d.key t = k := by
  match goal with
  | .declaration t d =>
    cases gate
    exact ⟨t, d, rfl, rfl⟩
  | .keys t d =>
    simp only [Goal.gate] at gate
    split at gate <;> cases gate
  | .chain _ _ [] | .chain _ _ (_ :: _) | .expression .. | .type .. | .expressionMember ..
  | .typeMember .. => cases gate

section Faithful

variable {c : Codebase} {sources : List Source}

theorem Visit.Faithful.of_eq {v w : Visit} (faithful : v.Faithful c sources)
    (same : w.finished = v.finished) : w.Faithful c sources := by
  intro k values entry
  exact faithful k values (same ▸ entry)

theorem Visit.Faithful.known {v : Visit} (faithful : v.Faithful c sources)
    (distinct : Distinct sources) {t : Source} {d : Declaration} (source : t ∈ sources)
    (declared : d ∈ t.declarations) {values : LiteralSet}
    (known : v.finished? (d.key t) = some values) :
    Returns Guard.free c (.declaration t d) () values () := by
  obtain ⟨before, after, entries, -⟩ := List.lookup_eq_some_iff.mp known
  have entry : (d.key t, values) ∈ v.finished := by
    rw [entries]
    exact List.mem_append_right before List.mem_cons_self
  obtain ⟨t', d', source', declared', same, complete⟩ := faithful _ _ entry
  obtain ⟨rfl, rfl⟩ := distinct.key_inj source' source declared' declared same
  exact complete

theorem Guard.Opens.finished_eq {gate : Gate} {v u : Visit} (opened : Guard.visit.Opens gate v u) :
    u.finished = v.finished := by
  rcases visit_opens opened with ⟨-, rfl⟩ | ⟨k, -, -, -, rfl⟩ <;> rfl

theorem Guard.Opens.refusals_eq {gate : Gate} {v u : Visit} (opened : Guard.visit.Opens gate v u) :
    u.refusals = v.refusals := by
  rcases visit_opens opened with ⟨-, rfl⟩ | ⟨k, -, -, -, rfl⟩ <;> rfl

theorem Guard.close_refusals (gate : Gate) (u : Visit) (values : LiteralSet) (u' : Visit) :
    (Guard.visit.close gate u values u').refusals = u'.refusals := by
  cases gate with
  | free => rfl
  | held k => exact Visit.leave_refusals k u'
  | remembered k =>
    change (if _ then _ else _ : Visit).refusals = _
    split
    · exact Visit.leave_refusals k u'
    · exact Visit.leave_refusals k u'

/-- What a visit knows after a gate is closed: as much as before, and the values of the goal if nothing
was refused on the way to them. -/
theorem Guard.mem_close_finished {gate : Gate} {u u' : Visit} {values : LiteralSet}
    {entry : Key × LiteralSet} :
    entry ∈ (Guard.visit.close gate u values u').finished ↔
      entry ∈ u'.finished ∨
        gate = .remembered entry.1 ∧ values = entry.2 ∧ u'.refusals = u.refusals := by
  cases gate with
  | free =>
    change entry ∈ u'.finished ↔ _
    simp only [reduceCtorEq, false_and, or_false]
  | held k =>
    change entry ∈ (u'.leave k).finished ↔ _
    simp only [Visit.leave_finished, reduceCtorEq, false_and, or_false]
  | remembered k =>
    change entry ∈ (if (u'.leave k).refusals = u.refusals then (u'.leave k).finish k values
      else u'.leave k).finished ↔ _
    rw [Visit.leave_refusals]
    obtain ⟨key, known⟩ := entry
    split
    · rename_i unrefused
      simp only [Visit.finish, Visit.leave_finished, List.mem_cons, Prod.mk.injEq,
        Gate.remembered.injEq, unrefused, and_true]
      rw [or_comm, eq_comm, eq_comm (a := known)]
    · rename_i refused
      simp only [Visit.leave_finished, refused, and_false, or_false]

/-- What there is to know about an answer in a visit that knows only what is right: so does the visit
afterwards, and if nothing was refused the answer is right. -/
def Faithfully (c : Codebase) (sources : List Source) (goal : Goal) (v : Visit) (values : LiteralSet)
    (w : Visit) : Prop :=
  goal.Within sources → v.Faithful c sources →
    w.Faithful c sources ∧
      (w.refusals = v.refusals → Returns Guard.free c goal () values ())

theorem Inquiry.Run.faithfully {α : Type} {q : Inquiry α} {v w : Visit} {a : α}
    (run : q.Run (fun h v values w => Returns Guard.visit c h v values w ∧
      Faithfully c sources h v values w) v a w)
    (only : q.Only (Goal.Within sources)) (faithful : v.Faithful c sources) :
    w.Faithful c sources ∧ (w.refusals = v.refusals → q.Run (Returns Guard.free c) () a ()) := by
  induction run with
  | done => exact ⟨faithful, fun _ => .done⟩
  | ask answered rest ih =>
    obtain ⟨between, first⟩ := answered.2 only.1 faithful
    obtain ⟨after, later⟩ := ih (only.2 _) between
    refine ⟨after, fun unrefused => ?_⟩
    obtain ⟨start, finish⟩ := answered.1.extends.unrefused
      (rest.extends fun _ _ _ _ answered => answered.1.extends) unrefused
    exact .ask (first start) (later finish)

/-- **Answers without refusals are complete**, and what a visit knows stays complete. -/
theorem Returns.faithfully (all : c.sources ⊆ sources) (distinct : Distinct sources) {goal : Goal}
    {v w : Visit} {values : LiteralSet} (returned : Returns Guard.visit c goal v values w) :
    Faithfully c sources goal v values w := by
  refine Returns.induct (P := Faithfully c sources) ?_ ?_ returned
  · intro goal v values w turned within faithful
    rcases visit_turns turned with ⟨rfl, k, gate, known⟩ | ⟨rfl, -⟩
    · obtain ⟨t, d, rfl, rfl⟩ := Goal.gate_eq_remembered gate
      exact ⟨faithful, fun _ => faithful.known distinct within.1 within.2 known⟩
    · refine ⟨faithful.of_eq rfl, fun unrefused => ?_⟩
      exact absurd unrefused (Nat.succ_ne_self _)
  · intro goal v u values u' opened run within faithful
    obtain ⟨after, complete⟩ :=
      run.faithfully (within.inquiry all) (faithful.of_eq opened.finished_eq)
    refine ⟨?_, fun unrefused => ?_⟩
    · intro k known entry
      rcases Guard.mem_close_finished.mp entry with old | ⟨gate, rfl, unrefused⟩
      · exact after k known old
      · obtain ⟨t, d, rfl, rfl⟩ := Goal.gate_eq_remembered gate
        exact ⟨t, d, within.1, within.2, rfl, free_returns_iff.mpr (complete unrefused)⟩
    · rw [Guard.close_refusals, ← opened.refusals_eq] at unrefused
      exact free_returns_iff.mpr (complete unrefused)

theorem Inquiry.AsksAt.faithful (all : c.sources ⊆ sources) (distinct : Distinct sources) {α : Type}
    {q : Inquiry α} {v w : Visit} {goal : Goal} (asks : q.AsksAt (Returns Guard.visit c) v goal w)
    (only : q.Only (Goal.Within sources)) (faithful : v.Faithful c sources) :
    w.Faithful c sources := by
  induction asks with
  | now => exact faithful
  | later answered _ ih => exact ih (only.2 _) (answered.faithfully all distinct only.1 faithful).1

theorem Stage.faithful (all : c.sources ⊆ sources) (distinct : Distinct sources) {goal : Goal}
    {v w : Visit} (stage : Stage Guard.visit c goal v w) (within : goal.Within sources)
    (faithful : v.Faithful c sources) : w.Faithful c sources := by
  have behind : ∀ {u values u'}, Guard.visit.Opens goal.gate v u →
      (goal.inquiry c).Run (Returns Guard.visit c) u values u' → u'.Faithful c sources := by
    intro u values u' opened run
    have run' := run.mono fun _ _ _ _ returned => And.intro returned (returned.faithfully all distinct)
    exact (run'.faithfully (within.inquiry all) (faithful.of_eq opened.finished_eq)).1
  cases stage with
  | begun => exact faithful
  | turned turned =>
    exact (Returns.faithfully all distinct (returns_iff.mpr (.inl turned)) within faithful).1
  | opened opened => exact faithful.of_eq opened.finished_eq
  | answered opened run => exact behind opened run
  | left opened run => exact (behind opened run).of_eq (Visit.leave_finished _ _)
  | closed opened run =>
    have returned := returns_iff.mpr (.inr ⟨_, _, opened, run, rfl⟩)
    exact (Returns.faithfully all distinct returned within faithful).1

/-- What occurs while a goal is answered knows only what is complete. -/
theorem Occurs.faithful (all : c.sources ⊆ sources) (distinct : Distinct sources) {goal : Goal}
    {v w : Visit} (occurs : Occurs Guard.visit c goal v w) (within : goal.Within sources)
    (faithful : v.Faithful c sources) : w.Faithful c sources := by
  refine occurs.invariant (P := fun goal v => goal.Within sources ∧ v.Faithful c sources) ?_ ?_
    ⟨within, faithful⟩
  · rintro x y ⟨u, opened, asks⟩ ⟨within, faithful⟩
    have only := within.inquiry all
    exact ⟨only.mayAsk asks.mayAsk, asks.faithful all distinct only (faithful.of_eq opened.finished_eq)⟩
  · rintro goal v w stage ⟨within, faithful⟩
    exact stage.faithful all distinct within faithful

end Faithful

/-! ## The main statement -/

/-- The visits that occur while goals are answered or afterwards, one in the course of the other or
one after the other, from a new visit on. -/
inductive Visit.Arises (c : Codebase) (sources : List Source) : Visit → Prop where
  | fresh (limit : Nat) : Arises c sources (.start limit)
  | course {v w} (goal : Goal) : Arises c sources v → goal.Within sources →
      Occurs Guard.visit c goal v w → Arises c sources w

theorem Visit.Arises.faithful {c : Codebase} {sources : List Source} (all : c.sources ⊆ sources)
    (distinct : Distinct sources) {v : Visit} (arises : v.Arises c sources) :
    v.Faithful c sources := by
  induction arises with
  | fresh limit =>
    intro k values entry
    cases entry
  | course goal _ within occurs ih => exact occurs.faithful all distinct within ih

/-- **Answers without refusals are complete.**  In every visit that arises, if the values of a
declaration are found and nothing is refused on the way, they are found with no guarding as well, the
same and in the same order.  So what a visit knows about a declaration is what is found with no
guarding. -/
theorem values_complete_of_unrefused (c : Codebase) {sources : List Source}
    (all : c.sources ⊆ sources) (distinct : Distinct sources) {v : Visit}
    (arises : v.Arises c sources) :
    (∀ t ∈ sources, ∀ d ∈ t.declarations, ∀ values w,
      Returns Guard.visit c (.declaration t d) v values w → w.refusals = v.refusals →
        Returns Guard.free c (.declaration t d) () values ()) ∧
    ∀ k values, (k, values) ∈ v.finished →
      (∃ t ∈ sources, ∃ d ∈ t.declarations, d.key t = k) ∧
      ∀ t ∈ sources, ∀ d ∈ t.declarations, d.key t = k →
        Returns Guard.free c (.declaration t d) () values () := by
  have faithful := arises.faithful all distinct
  constructor
  · intro t source d declared values w returned unrefused
    exact (returned.faithfully all distinct ⟨source, declared⟩ faithful).2 unrefused
  · intro k values entry
    obtain ⟨t, d, source, declared, rfl, complete⟩ := faithful k values entry
    refine ⟨⟨t, source, d, declared, rfl⟩, fun t' source' d' declared' same => ?_⟩
    obtain ⟨rfl, rfl⟩ := distinct.key_inj source' source declared' declared same
    exact complete

/-- In `type A = 'x' | B; type B = 'y';`, the values of `A` are complete also if those of `B` are known
already. -/
theorem sample_values_complete :
    Sample.codebase.sources ⊆ [Sample.source] ∧ Distinct [Sample.source] ∧
    ∃ v : Visit, v.Arises Sample.codebase [Sample.source] ∧
      v.finished = [(Sample.innerDeclaration.key Sample.source, .singleton "y")] ∧
      Returns Guard.free Sample.codebase (.declaration Sample.source Sample.outerDeclaration) ()
        (.ofList ["x", "y"]) () ∧
      Returns Guard.free Sample.codebase (.declaration Sample.source Sample.innerDeclaration) ()
        (.singleton "y") () := by
  have all : Sample.codebase.sources ⊆ [Sample.source] := List.Subset.refl _
  have within : (Goal.declaration Sample.source Sample.innerDeclaration).Within [Sample.source] :=
    ⟨List.mem_cons_self, Sample.inner_mem⟩
  have arises := Visit.Arises.course _ (.fresh 48) within Sample.inner_returns.occurs
  obtain ⟨complete, stored⟩ := values_complete_of_unrefused Sample.codebase all Sample.distinct arises
  refine ⟨all, Sample.distinct, _, arises, rfl, ?_, ?_⟩
  · exact complete Sample.source List.mem_cons_self Sample.outerDeclaration List.mem_cons_self
      (.ofList ["x", "y"]) _ ⟨10, rfl⟩ rfl
  · exact (stored _ _ List.mem_cons_self).2 Sample.source List.mem_cons_self _ Sample.inner_mem rfl

end TemplateValues
