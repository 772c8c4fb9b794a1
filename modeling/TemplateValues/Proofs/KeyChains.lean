import TemplateValues.Proofs.Completeness
import TemplateValues.Proofs.EnumMembers
import TemplateValues.Proofs.MemberChains

/-!
# From the keys of one variable to those of another

The keys of a variable may be those of another variable, and so on from one to the next, each of them held
meanwhile.  Which variable the way started at makes a difference only if the way comes back to it.  But
then it comes round, and there are no keys, wherever it started.  So two variables that are answered by
the same inquiry have the same keys (`returns_keys_alike`).
-/

namespace TemplateValues

variable {c : Codebase} {r s t : Source} {d d' x y : Declaration}

/-- The keys of a declaration are there to read, or it is a variable and they are those of another
declaration. -/
theorem Goal.inquiry_keys_cases (c : Codebase) (s : Source) (d : Declaration) :
    (∃ values, (Goal.keys s d).inquiry c = .done values) ∨
      d.kind = .binding ∧ ∃ t x, c.Provides s t x ∧ (Goal.keys s d).inquiry c = .one (.keys t x) := by
  rw [Goal.inquiry]
  split
  · exact .inl ⟨_, rfl⟩
  · rename_i kind
    rw [Values.initializerKeys]
    split
    · rename_i n _
      split
      · exact .inl ⟨_, rfl⟩
      · rw [Values.named, Values.meant_eq]
        cases means : c.declared? s (s.textOf n) .value with
        | none => exact .inl ⟨_, rfl⟩
        | some found => exact .inr ⟨kind, found.1, found.2, Codebase.provides_of_declared? means, rfl⟩
      · exact .inl ⟨_, rfl⟩
    · exact .inl ⟨_, rfl⟩
  · exact .inl ⟨_, rfl⟩

/-! ## One variable -/

def Visit.refuseTimes (n : Nat) (v : Visit) : Visit := { v with refusals := v.refusals + n }

theorem Visit.leave_refuseTimes_hold (k : Key) (n : Nat) (v : Visit) :
    ((v.hold k).refuseTimes n).leave k = v.refuseTimes n := by
  simp [hold, refuseTimes, leave]

section Variable

variable {v : Visit} {values : LiteralSet}

theorem returns_keys_of_refused (kind : d.kind = .binding)
    (refused : v.limit ≤ v.depth ∨ d.key s ∈ v.held) :
    Returns Guard.visit c (.keys s d) v .empty v.refuse := by
  refine returns_iff.mpr (.inl ?_)
  rw [Goal.gate, if_pos kind]
  exact .unheld (Visit.enter_of_refused refused)

theorem returns_keys_of_run {n : Nat} (kind : d.kind = .binding) (allowed : v.depth < v.limit)
    (absent : d.key s ∉ v.held)
    (run : ((Goal.keys s d).inquiry c).Run (Returns Guard.visit c) (v.hold (d.key s)) values
      ((v.hold (d.key s)).refuseTimes n)) :
    Returns Guard.visit c (.keys s d) v values (v.refuseTimes n) := by
  refine returns_iff.mpr (.inr ⟨_, _, ?_, run, ?_⟩)
  · rw [Goal.gate, if_pos kind]
    exact .held (Visit.enter_of_allowed allowed absent)
  · rw [Goal.gate, if_pos kind]
    exact (Visit.leave_refuseTimes_hold ..).symm

/-- Without a variable there is nothing to hold. -/
theorem returns_keys_of_free (kind : d.kind ≠ .binding) :
    ∃ values, ∀ v, Returns Guard.visit c (.keys s d) v values v := by
  rcases Goal.inquiry_keys_cases c s d with ⟨values, known⟩ | ⟨isBinding, -⟩
  · refine ⟨values, fun v => (returns_iff_of_done known).mpr (.inr ⟨v, ?_, rfl, ?_⟩)⟩
    · rw [Goal.gate, if_neg kind]
      exact .free
    · rw [Goal.gate, if_neg kind]
      rfl
  · exact absurd isBinding kind

/-- There are no keys for a variable if those of the next one are being asked for, be it on the way here or
by this very variable. -/
theorem returns_keys_of_round (kind : d.kind = .binding) (kind' : x.kind = .binding)
    (asks : (Goal.keys s d).inquiry c = .one (.keys t x)) (round : x.key t ∈ d.key s :: v.held) :
    Returns Guard.visit c (.keys s d) v .empty v.refuse := by
  by_cases refused : v.limit ≤ v.depth ∨ d.key s ∈ v.held
  · exact returns_keys_of_refused kind refused
  · obtain ⟨allowed, absent⟩ := not_or.mp refused
    refine returns_keys_of_run (n := 1) kind (Nat.lt_of_not_le allowed) absent ?_
    rw [asks, Inquiry.run_one_iff]
    exact returns_keys_of_refused kind' (.inr round)

end Variable

/-! ## Two variables -/

/-- The visits are alike but for two keys, of which the first visit holds the first and the second the
second. -/
structure Visit.Swapped (k k' : Key) (v v' : Visit) : Prop where
  limit : v'.limit = v.limit
  depth : v'.depth = v.depth
  first : k ∈ v.held
  second : k' ∈ v'.held
  others : ∀ j, j ≠ k → j ≠ k' → (j ∈ v.held ↔ j ∈ v'.held)

namespace Visit.Swapped

variable {k k' : Key} {v v' : Visit}

theorem start (k k' : Key) (v : Visit) : Swapped k k' (v.hold k) (v.hold k') where
  limit := rfl
  depth := rfl
  first := List.mem_cons_self
  second := List.mem_cons_self
  others j other other' := by simp [Visit.hold, other, other']

theorem hold (swapped : Swapped k k' v v') (j : Key) : Swapped k k' (v.hold j) (v'.hold j) where
  limit := swapped.limit
  depth := congrArg (· + 1) swapped.depth
  first := List.mem_cons_of_mem j swapped.first
  second := List.mem_cons_of_mem j swapped.second
  others i other other' := by simp [Visit.hold, swapped.others i other other']

/-- Both visits refuse what is none of the two keys, or none does. -/
theorem refused_iff (swapped : Swapped k k' v v') {j : Key} (other : j ≠ k) (other' : j ≠ k') :
    (v'.limit ≤ v'.depth ∨ j ∈ v'.held) ↔ (v.limit ≤ v.depth ∨ j ∈ v.held) := by
  rw [swapped.limit, swapped.depth, swapped.others j other other']

end Visit.Swapped

variable {sources : List Source}

/-- On the way from two variables, which both lead to the variable `x`, the keys of every declaration are
the same.  Here `x` is being asked about already, or is just asked about. -/
theorem returns_keys_of_swapped (all : c.sources ⊆ sources) (distinct : Distinct sources)
    (source : s ∈ sources) (declared : d ∈ s.declarations) (declared' : d' ∈ s.declarations)
    (kind : d.kind = .binding) (kind' : d'.kind = .binding) (next : x.kind = .binding)
    (asks : (Goal.keys s d).inquiry c = .one (.keys t x))
    (asks' : (Goal.keys s d').inquiry c = .one (.keys t x)) {v v' : Visit}
    (swapped : Visit.Swapped (d.key s) (d'.key s) v v') (within : r ∈ sources ∧ y ∈ r.declarations)
    (round : x.key t ∈ y.key r :: v.held) (round' : x.key t ∈ y.key r :: v'.held) :
    ∃ values n, Returns Guard.visit c (.keys r y) v values (v.refuseTimes n) ∧
      Returns Guard.visit c (.keys r y) v' values (v'.refuseTimes n) := by
  -- by induction on how many declarations may still be held
  induction room : v.limit - v.depth using Nat.strong_induction_on generalizing r y v v' with
  | _ room ih =>
  by_cases isBinding : y.kind = .binding
  case neg =>
    obtain ⟨values, known⟩ := returns_keys_of_free (c := c) (s := r) isBinding
    exact ⟨values, 0, known v, known v'⟩
  by_cases first : y.key r = d.key s
  · -- the first visit holds it, and the second holds `x`, which it leads to
    obtain ⟨rfl, rfl⟩ := distinct.key_inj within.1 source within.2 declared first
    exact ⟨.empty, 1, returns_keys_of_refused kind (.inr swapped.first),
      returns_keys_of_round kind next asks round'⟩
  by_cases second : y.key r = d'.key s
  · obtain ⟨rfl, rfl⟩ := distinct.key_inj within.1 source within.2 declared' second
    exact ⟨.empty, 1, returns_keys_of_round kind' next asks' round,
      returns_keys_of_refused kind' (.inr swapped.second)⟩
  have same := swapped.refused_iff first second
  by_cases refused : v.limit ≤ v.depth ∨ y.key r ∈ v.held
  · exact ⟨.empty, 1, returns_keys_of_refused isBinding refused,
      returns_keys_of_refused isBinding (same.mpr refused)⟩
  obtain ⟨allowed, absent⟩ := not_or.mp refused
  obtain ⟨allowed', absent'⟩ := not_or.mp (mt same.mp refused)
  rw [Nat.not_le] at allowed allowed'
  rcases Goal.inquiry_keys_cases c r y with ⟨values, known⟩ | ⟨-, t', x', provides, onward⟩
  · refine ⟨values, 0, returns_keys_of_run isBinding allowed absent ?_,
      returns_keys_of_run isBinding allowed' absent' ?_⟩ <;> exact known ▸ .done
  · obtain ⟨values, n, returned, returned'⟩ := ih _ (by simp only [Visit.hold]; omega)
      (swapped.hold (y.key r)) (provides.within all within.1) (List.mem_cons_of_mem _ round)
      (List.mem_cons_of_mem _ round') rfl
    refine ⟨values, n, returns_keys_of_run isBinding allowed absent ?_,
      returns_keys_of_run isBinding allowed' absent' ?_⟩
    · rwa [onward, Inquiry.run_one_iff]
    · rwa [onward, Inquiry.run_one_iff]

/-- Two variables that are answered by the same inquiry have the same keys, unless only one of them is being
asked about already. -/
theorem returns_keys_alike (all : c.sources ⊆ sources) (distinct : Distinct sources)
    (source : s ∈ sources) (declared : d ∈ s.declarations) (declared' : d' ∈ s.declarations)
    (kind : d.kind = .binding) (kind' : d'.kind = .binding)
    (same : (Goal.keys s d).inquiry c = (Goal.keys s d').inquiry c) {v : Visit}
    (held : d.key s ∈ v.held ↔ d'.key s ∈ v.held) :
    ∃ values w, Returns Guard.visit c (.keys s d) v values w ∧
      Returns Guard.visit c (.keys s d') v values w := by
  by_cases refused : v.limit ≤ v.depth ∨ d.key s ∈ v.held
  · exact ⟨.empty, v.refuse, returns_keys_of_refused kind refused,
      returns_keys_of_refused kind' (refused.imp_right held.mp)⟩
  obtain ⟨allowed, absent⟩ := not_or.mp refused
  suffices run : ∃ values n, ((Goal.keys s d).inquiry c).Run (Returns Guard.visit c) (v.hold (d.key s))
        values ((v.hold (d.key s)).refuseTimes n) ∧
      ((Goal.keys s d').inquiry c).Run (Returns Guard.visit c) (v.hold (d'.key s)) values
        ((v.hold (d'.key s)).refuseTimes n) by
    obtain ⟨values, n, run, run'⟩ := run
    exact ⟨values, v.refuseTimes n, returns_keys_of_run kind (Nat.lt_of_not_le allowed) absent run,
      returns_keys_of_run kind' (Nat.lt_of_not_le allowed) (mt held.mpr absent) run'⟩
  rcases Goal.inquiry_keys_cases c s d with ⟨values, known⟩ | ⟨-, t, x, provides, asks⟩
  · refine ⟨values, 0, ?_, ?_⟩
    · exact known ▸ .done
    · exact same ▸ known ▸ .done
  have asks' := same.symm.trans asks
  simp only [asks, asks', Inquiry.run_one_iff]
  by_cases next : x.kind = .binding
  · exact returns_keys_of_swapped all distinct source declared declared' kind kind' next asks asks'
      (.start _ _ v) (provides.within all source) List.mem_cons_self List.mem_cons_self
  · obtain ⟨values, known⟩ := returns_keys_of_free (c := c) (s := t) next
    exact ⟨values, 0, known _, known _⟩

end TemplateValues
