import TemplateValues.Proofs.Completeness

/-!
# Visits that are used again

If the values of a declaration are found in a new visit and nothing is refused on the way, then they
are found in a visit that was used before as well, the same and again with nothing refused.

The two visits do not go the same way, since the one that was used before knows some of the
declarations already.  What makes them meet again is that a visit knows a declaration only together
with all declarations that its values rest on (`Visit.Rounded`): an answer with nothing refused adds
just the declarations that it rests on (`Returns.roundly`).  So where the used visit skips a
declaration that it knows, it misses nothing that the new visit comes to know there.
-/

namespace TemplateValues

section Rests

variable {c : Codebase} {α : Type}

/-! ## What values rest on -/

/-- The goals that the answer to a goal rests on, with no guarding; the goal itself is one of them. -/
def RestsOn (c : Codebase) (goal far : Goal) : Prop := AsksEventually Guard.free c (goal, ()) (far, ())

def Goal.Rests (c : Codebase) (goal : Goal) (k : Key) : Prop :=
  ∃ t d, RestsOn c goal (.declaration t d) ∧ d.key t = k

def Inquiry.Rests (c : Codebase) (q : Inquiry α) (k : Key) : Prop :=
  ∃ goal, q.AsksAt (Returns Guard.free c) () goal () ∧ goal.Rests c k

theorem Goal.rests_iff {goal : Goal} {k : Key} :
    goal.Rests c k ↔ goal.gate = .remembered k ∨ (goal.inquiry c).Rests c k := by
  constructor
  · rintro ⟨t, d, rests, rfl⟩
    rcases Relation.ReflTransGen.cases_head rests with same | ⟨next, ⟨u, -, asks⟩, rests⟩
    · cases same
      exact .inl rfl
    · exact .inr ⟨next.1, asks, t, d, rests, rfl⟩
  · rintro (gate | ⟨next, asks, t, d, rests, rfl⟩)
    · obtain ⟨t, d, rfl, rfl⟩ := Goal.gate_eq_remembered gate
      exact ⟨t, d, .refl, rfl⟩
    · exact ⟨t, d, .head ⟨(), free_opens goal.gate, asks⟩ rests, rfl⟩

theorem Inquiry.not_rests_done {a : α} {k : Key} : ¬ (Inquiry.done a).Rests c k := by
  rintro ⟨goal, asks, -⟩
  cases asks

theorem Inquiry.rests_ask_iff {goal : Goal} {next : LiteralSet → Inquiry α} {values : LiteralSet}
    (answered : Returns Guard.free c goal () values ()) {k : Key} :
    (Inquiry.ask goal next).Rests c k ↔ goal.Rests c k ∨ (next values).Rests c k := by
  constructor
  · rintro ⟨far, asks, rests⟩
    cases asks with
    | now => exact .inl rests
    | later answered' asks =>
      obtain ⟨rfl, -⟩ := answered.unique answered'
      exact .inr ⟨far, asks, rests⟩
  · rintro (rests | ⟨far, asks, rests⟩)
    · exact ⟨goal, .now, rests⟩
    · exact ⟨far, .later answered asks, rests⟩

end Rests

/-! ## What a visit comes to know -/

/-- A declaration is known only together with all declarations that its values rest on. -/
def Visit.Rounded (c : Codebase) (sources : List Source) (v : Visit) : Prop :=
  ∀ t ∈ sources, ∀ d ∈ t.declarations, d.key t ∈ v.doneKeys →
    ∀ k, (Goal.declaration t d).Rests c k → k ∈ v.doneKeys

/-- The visit knows only complete values, each with all that they rest on. -/
structure Visit.Settled (c : Codebase) (sources : List Source) (v : Visit) : Prop where
  faithful : v.Faithful c sources
  rounded : v.Rounded c sources

theorem Visit.Settled.of_eq {c : Codebase} {sources : List Source} {v w : Visit}
    (settled : v.Settled c sources) (same : w.finished = v.finished) : w.Settled c sources where
  faithful := settled.faithful.of_eq same
  rounded := by
    intro t source d declared
    rw [doneKeys, same]
    exact settled.rounded t source d declared

/-- Closing a gate adds the key of the gate if nothing was refused behind it. -/
theorem Guard.mem_close_doneKeys {gate : Gate} {u u' : Visit} {values : LiteralSet} {k : Key} :
    k ∈ (Guard.visit.close gate u values u').doneKeys ↔
      k ∈ u'.doneKeys ∨ gate = .remembered k ∧ u'.refusals = u.refusals := by
  simp only [Visit.mem_doneKeys, Guard.mem_close_finished, exists_or]
  refine or_congr_right ⟨?_, ?_⟩
  · rintro ⟨_, gate, -, unrefused⟩
    exact ⟨gate, unrefused⟩
  · rintro ⟨gate, unrefused⟩
    exact ⟨values, gate, rfl, unrefused⟩

section Settled

variable {c : Codebase} {sources : List Source}

/-- What an answer does to what a settled visit knows: the visit is rounded afterwards, and if nothing
was refused it has come to know just the declarations that the answer rests on. -/
def Roundly (c : Codebase) (sources : List Source) (goal : Goal) (v w : Visit) : Prop :=
  goal.Within sources → v.Settled c sources →
    w.Rounded c sources ∧
      (w.refusals = v.refusals → ∀ k, k ∈ w.doneKeys ↔ k ∈ v.doneKeys ∨ goal.Rests c k)

theorem Inquiry.Run.roundly (all : c.sources ⊆ sources) (distinct : Distinct sources) {α : Type}
    {q : Inquiry α} {v w : Visit} {a : α}
    (run : q.Run (fun h v values w => Returns Guard.visit c h v values w ∧
      Roundly c sources h v w) v a w)
    (only : q.Only (Goal.Within sources)) (settled : v.Settled c sources) :
    w.Rounded c sources ∧
      (w.refusals = v.refusals → ∀ k, k ∈ w.doneKeys ↔ k ∈ v.doneKeys ∨ q.Rests c k) := by
  induction run with
  | done =>
    refine ⟨settled.rounded, fun _ k => ?_⟩
    rw [or_iff_left Inquiry.not_rests_done]
  | ask answered rest ih =>
    obtain ⟨faithful, complete⟩ :=
      answered.1.faithfully all distinct only.1 settled.faithful
    obtain ⟨rounded, first⟩ := answered.2 only.1 settled
    obtain ⟨rounded', later⟩ := ih (only.2 _) ⟨faithful, rounded⟩
    refine ⟨rounded', fun unrefused k => ?_⟩
    obtain ⟨start, finish⟩ := answered.1.extends.unrefused
      (rest.extends fun _ _ _ _ answered => answered.1.extends) unrefused
    rw [later finish, first start, Inquiry.rests_ask_iff (complete start), or_assoc]

/-- An answer with nothing refused makes a visit know just the declarations that it rests on. -/
theorem Returns.roundly (all : c.sources ⊆ sources) (distinct : Distinct sources) {goal : Goal}
    {v w : Visit} {values : LiteralSet} (returned : Returns Guard.visit c goal v values w) :
    Roundly c sources goal v w := by
  refine Returns.induct (P := fun goal v _ w => Roundly c sources goal v w) ?_ ?_ returned
  · intro goal v values w turned within settled
    rcases visit_turns turned with ⟨rfl, k, gate, known⟩ | ⟨rfl, -⟩
    · obtain ⟨t, d, rfl, rfl⟩ := Goal.gate_eq_remembered gate
      refine ⟨settled.rounded, fun _ k => ⟨.inl, fun either => either.elim id fun rests => ?_⟩⟩
      exact settled.rounded t within.1 d within.2 (Visit.mem_doneKeys_iff_finished?.mpr ⟨values, known⟩) k rests
    · exact ⟨(settled.of_eq rfl).rounded, fun unrefused => absurd unrefused (Nat.succ_ne_self _)⟩
  · intro goal v u values u' opened run within settled
    have same : u.doneKeys = v.doneKeys := by rw [Visit.doneKeys, opened.finished_eq, Visit.doneKeys]
    obtain ⟨rounded, known⟩ :=
      run.roundly all distinct (within.inquiry all) (settled.of_eq opened.finished_eq)
    have exact' : u'.refusals = u.refusals → ∀ k,
        k ∈ (Guard.visit.close goal.gate u values u').doneKeys ↔ k ∈ v.doneKeys ∨ goal.Rests c k := by
      intro unrefused k
      rw [Guard.mem_close_doneKeys, known unrefused, same, Goal.rests_iff]
      simp only [unrefused, and_true]
      rw [or_assoc, or_comm (a := goal.gate = .remembered k)]
    refine ⟨?_, fun unrefused => exact' (by rwa [Guard.close_refusals, ← opened.refusals_eq] at unrefused)⟩
    intro t source d declared done k rests
    rcases Guard.mem_close_doneKeys.mp done with old | ⟨gate, unrefused⟩
    · exact Guard.mem_close_doneKeys.mpr (.inl (rounded t source d declared old k rests))
    · -- the declaration itself was added, and with it all that it rests on
      obtain ⟨t', d', rfl, key⟩ := Goal.gate_eq_remembered gate
      obtain ⟨rfl, rfl⟩ := distinct.key_inj within.1 source within.2 declared key
      exact (exact' unrefused k).mpr (.inr rests)

theorem Returns.settled (all : c.sources ⊆ sources) (distinct : Distinct sources) {goal : Goal}
    {v w : Visit} {values : LiteralSet} (returned : Returns Guard.visit c goal v values w)
    (within : goal.Within sources) (settled : v.Settled c sources) : w.Settled c sources where
  faithful := (returned.faithfully all distinct within settled.faithful).1
  rounded := (returned.roundly all distinct within settled).1

end Settled

/-! ## Two visits side by side -/

/-- The second visit holds the same declarations as the first and knows all that the first knows. -/
structure Visit.Ahead (v x : Visit) : Prop where
  limit : x.limit = v.limit
  held : x.held = v.held
  depth : x.depth = v.depth
  known : ∀ k ∈ v.doneKeys, k ∈ x.doneKeys

section Ahead

variable {c : Codebase} {sources : List Source}

theorem Visit.Ahead.of_extends {v w x y : Visit} (ahead : v.Ahead x) (first : v.Extends w)
    (second : x.Extends y) (known : ∀ k ∈ w.doneKeys, k ∈ y.doneKeys) : w.Ahead y where
  limit := by rw [second.limit, ahead.limit, first.limit]
  held := by rw [second.held, ahead.held, first.held]
  depth := by rw [second.depth, ahead.depth, first.depth]
  known := known

/-- Where the first visit enters a declaration, so does the second, unless it knows the values. -/
theorem Visit.Ahead.opens {v x u : Visit} (ahead : v.Ahead x) {gate : Gate}
    (opened : Guard.visit.Opens gate v u) :
    (∃ k, gate = .remembered k ∧ k ∈ x.doneKeys) ∨
      ∃ u', Guard.visit.Opens gate x u' ∧ u.Ahead u' := by
  have entered : ∀ k, v.depth < v.limit → k ∉ v.held → x.enter k = (true, x.hold k) := by
    intro k below absent
    exact Visit.enter_of_allowed (by rw [ahead.depth, ahead.limit]; exact below)
      (by rw [ahead.held]; exact absent)
  have holding : ∀ k, (v.hold k).Ahead (x.hold k) := by
    intro k
    exact ⟨ahead.limit, congrArg (k :: ·) ahead.held, congrArg (· + 1) ahead.depth, ahead.known⟩
  rcases visit_opens opened with ⟨rfl, rfl⟩ | ⟨k, rfl | ⟨rfl, -⟩, below, absent, rfl⟩
  · exact .inr ⟨x, .free, ahead⟩
  · exact .inr ⟨x.hold k, .held (entered k below absent), holding k⟩
  · by_cases known : k ∈ x.doneKeys
    · exact .inl ⟨k, rfl, known⟩
    · exact .inr ⟨x.hold k, .remembered (Visit.finished?_eq_none_iff.mpr known)
        (entered k below absent), holding k⟩

/-- The answer is found with nothing refused in every settled visit that is ahead. -/
def Repeats (c : Codebase) (sources : List Source) (goal : Goal) (v : Visit) (values : LiteralSet)
    (w : Visit) : Prop :=
  goal.Within sources → v.Settled c sources → w.refusals = v.refusals →
    ∀ x, v.Ahead x → x.Settled c sources →
      ∃ y, Returns Guard.visit c goal x values y ∧ y.refusals = x.refusals ∧ w.Ahead y

theorem Inquiry.Run.repeats (all : c.sources ⊆ sources) (distinct : Distinct sources) {α : Type}
    {q : Inquiry α} {v w : Visit} {a : α}
    (run : q.Run (fun h v values w => Returns Guard.visit c h v values w ∧
      Repeats c sources h v values w) v a w)
    (only : q.Only (Goal.Within sources)) (settled : v.Settled c sources)
    (unrefused : w.refusals = v.refusals) {x : Visit} (ahead : v.Ahead x)
    (settled' : x.Settled c sources) :
    ∃ y, q.Run (Returns Guard.visit c) x a y ∧ y.refusals = x.refusals ∧ w.Ahead y := by
  induction run generalizing x with
  | done => exact ⟨x, .done, rfl, ahead⟩
  | ask answered rest ih =>
    obtain ⟨start, finish⟩ := answered.1.extends.unrefused
      (rest.extends fun _ _ _ _ answered => answered.1.extends) unrefused
    obtain ⟨y, returned, unrefused', ahead'⟩ := answered.2 only.1 settled start x ahead settled'
    obtain ⟨z, run, unrefused'', ahead''⟩ := ih (only.2 _)
      (answered.1.settled all distinct only.1 settled) finish ahead'
      (returned.settled all distinct only.1 settled')
    exact ⟨z, .ask returned run, unrefused''.trans unrefused', ahead''⟩

/-- Answers with nothing refused are found again in visits that know more. -/
theorem Returns.repeats (all : c.sources ⊆ sources) (distinct : Distinct sources) {goal : Goal}
    {v w : Visit} {values : LiteralSet} (returned : Returns Guard.visit c goal v values w) :
    Repeats c sources goal v values w := by
  refine Returns.induct (P := Repeats c sources) ?_ ?_ returned
  · intro goal v values w turned within settled unrefused x ahead settled'
    rcases visit_turns turned with ⟨rfl, k, gate, known⟩ | ⟨rfl, -⟩
    · obtain ⟨t, d, rfl, rfl⟩ := Goal.gate_eq_remembered gate
      obtain ⟨values', known'⟩ := Visit.mem_doneKeys_iff_finished?.mp
        (ahead.known _ (Visit.mem_doneKeys_iff_finished?.mpr ⟨values, known⟩))
      have first := settled.faithful.known distinct within.1 within.2 known
      have second := settled'.faithful.known distinct within.1 within.2 known'
      obtain ⟨rfl, -⟩ := first.unique second
      exact ⟨x, returns_iff.mpr (.inl (.known known')), rfl, ahead⟩
    · exact absurd unrefused (Nat.succ_ne_self _)
  · intro goal v u values u' opened run within settled unrefused x ahead settled'
    have returned : Returns Guard.visit c goal v values (Guard.visit.close goal.gate u values u') :=
      returns_iff.mpr (.inr ⟨u, u', opened, run.mono fun _ _ _ _ answered => answered.1, rfl⟩)
    have behind : u'.refusals = u.refusals := by
      rwa [Guard.close_refusals, ← opened.refusals_eq] at unrefused
    rcases ahead.opens opened with ⟨k, gate, known⟩ | ⟨x', opened', ahead'⟩
    · -- the second visit knows the values, and all that the first one comes to know on the way to them
      obtain ⟨t, d, rfl, rfl⟩ := Goal.gate_eq_remembered gate
      obtain ⟨values', known'⟩ := Visit.mem_doneKeys_iff_finished?.mp known
      have first := (returned.faithfully all distinct within settled.faithful).2 unrefused
      have second := settled'.faithful.known distinct within.1 within.2 known'
      obtain ⟨rfl, -⟩ := first.unique second
      refine ⟨x, returns_iff.mpr (.inl (.known known')), rfl, ?_⟩
      refine ahead.of_extends returned.extends (.refl x) fun k' member => ?_
      rcases ((returned.roundly all distinct within settled).2 unrefused k').mp member with old | rests
      · exact ahead.known k' old
      · exact settled'.rounded t within.1 d within.2 known k' rests
    · obtain ⟨y, run', unrefused', ahead''⟩ := run.repeats all distinct (within.inquiry all)
        (settled.of_eq opened.finished_eq) behind ahead' (settled'.of_eq opened'.finished_eq)
      have returned' : Returns Guard.visit c goal x values (Guard.visit.close goal.gate x' values y) :=
        returns_iff.mpr (.inr ⟨x', y, opened', run', rfl⟩)
      refine ⟨_, returned', ?_, ?_⟩
      · rw [Guard.close_refusals, unrefused', opened'.refusals_eq]
      · refine ahead.of_extends returned.extends returned'.extends fun k member => ?_
        rw [Guard.mem_close_doneKeys] at member ⊢
        rcases member with old | ⟨gate, -⟩
        · exact .inl (ahead''.known k old)
        · exact .inr ⟨gate, unrefused'⟩

end Ahead

/-! ## The main statement -/

/-- The visits in which the values of some declarations were found, one after the other, the last
first, from a new visit on. -/
inductive Visit.Used (c : Codebase) (sources : List Source) (limit : Nat) :
    List (Source × Declaration) → Visit → Prop where
  | fresh : Used c sources limit [] (.start limit)
  | found {before v t d values w} : Used c sources limit before v → t ∈ sources →
      d ∈ t.declarations → Returns Guard.visit c (.declaration t d) v values w →
      Used c sources limit ((t, d) :: before) w

theorem Visit.Used.settled {c : Codebase} {sources : List Source} (all : c.sources ⊆ sources)
    (distinct : Distinct sources) {limit : Nat} {before : List (Source × Declaration)} {v : Visit}
    (used : v.Used c sources limit before) : v.Settled c sources := by
  induction used with
  | fresh =>
    constructor
    · intro k values entry
      cases entry
    · intro t source d declared done
      cases done
  | found _ source declared returned ih =>
    exact returned.settled all distinct ⟨source, declared⟩ ih

theorem Visit.Used.ahead {c : Codebase} {sources : List Source} {limit : Nat}
    {before : List (Source × Declaration)} {v : Visit} (used : v.Used c sources limit before) :
    (Visit.start limit).Ahead v := by
  induction used with
  | fresh => exact ⟨rfl, rfl, rfl, fun _ done => done⟩
  | found _ _ _ returned ih => exact ih.of_extends (.refl _) returned.extends nofun

/-- **Earlier work does not change complete answers.**  If the values of a declaration are found in a
new visit with nothing refused, then the same values, in the same order, are found in a visit that was
used for any declarations before, and nothing is refused there either. -/
theorem values_same_in_used_visit (c : Codebase) {sources : List Source}
    (all : c.sources ⊆ sources) (distinct : Distinct sources) {limit : Nat}
    {before : List (Source × Declaration)} {v : Visit} (used : v.Used c sources limit before)
    {t : Source} {d : Declaration} (source : t ∈ sources) (declared : d ∈ t.declarations)
    {values : LiteralSet} {w : Visit}
    (found : Returns Guard.visit c (.declaration t d) (.start limit) values w)
    (unrefused : w.refusals = 0) :
    ∃ w', Returns Guard.visit c (.declaration t d) v values w' ∧ w'.refusals = v.refusals := by
  have new : (Visit.start limit).Settled c sources := Visit.Used.fresh.settled all distinct
  obtain ⟨w', returned, unrefused', -⟩ := found.repeats all distinct ⟨source, declared⟩ new unrefused v
    used.ahead (used.settled all distinct)
  exact ⟨w', returned, unrefused'⟩

/-- In `type A = 'x' | B; type B = 'y';`, the values of `A` are the same after those of `B` were found. -/
theorem sample_values_same :
    ∃ v w : Visit,
      v.Used Sample.codebase [Sample.source] 48 [(Sample.source, Sample.innerDeclaration)] ∧
      Returns Guard.visit Sample.codebase (.declaration Sample.source Sample.outerDeclaration)
        (.start 48) (.ofList ["x", "y"]) w ∧
      w.refusals = 0 ∧
      ∃ w', Returns Guard.visit Sample.codebase (.declaration Sample.source Sample.outerDeclaration)
        v (.ofList ["x", "y"]) w' ∧ w'.refusals = v.refusals := by
  have all : Sample.codebase.sources ⊆ [Sample.source] := List.Subset.refl _
  have used := Visit.Used.found .fresh (List.mem_singleton_self Sample.source) Sample.inner_mem
    Sample.inner_returns
  refine ⟨_, _, used, ⟨10, rfl⟩, rfl, ?_⟩
  exact values_same_in_used_visit Sample.codebase all Sample.distinct used List.mem_cons_self
    List.mem_cons_self ⟨10, rfl⟩ rfl

end TemplateValues
