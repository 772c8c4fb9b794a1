import Mathlib.Data.List.Perm.Subperm
import TemplateValues.Proofs.Termination

/-!
# A declaration that is held besides

A declaration that is held is refused wherever it comes up, and it takes up a place.  If there is a
place for every declaration and this one never comes up (`Avoids`), then holding it makes no difference:
the answer is the same, and what is left of the visit differs in that declaration only
(`answer_beside`).
-/

namespace TemplateValues

def Gate.key? : Gate → Option Key
  | .free => none
  | .held k => some k
  | .remembered k => some k

/-- No question about the declaration with the key comes up on the way to an answer, not even the first. -/
def Avoids (c : Codebase) (k : Key) (goal : Goal) (v : Visit) : Prop :=
  ∀ y, AsksEventually Guard.visit c (goal, v) y → y.1.gate.key? ≠ some k

namespace Visit

/-- The visit while one more declaration is held, and has been from the beginning. -/
def beside (k : Key) (v : Visit) : Visit := { v with held := v.held ++ [k], depth := v.depth + 1 }

/-- The declarations that are held are pairwise different, are among those of the sources and leave room,
and so does one more. -/
structure Leaves (sources : List Source) (k : Key) (v : Visit) : Prop where
  nodup : (k :: v.held).Nodup
  declared : k :: v.held ⊆ (declared sources).map fun p => p.2.key p.1
  depth : v.depth = v.held.length
  limit : (TemplateValues.declared sources).length < v.limit

namespace Leaves

variable {sources : List Source} {k : Key} {v : Visit}

theorem start {t : Source} {d : Declaration} {limit : Nat} (source : t ∈ sources)
    (member : d ∈ t.declarations) (limit' : (TemplateValues.declared sources).length < limit) :
    (Visit.start limit).Leaves sources (d.key t) where
  nodup := List.nodup_cons.mpr ⟨List.not_mem_nil, List.nodup_nil⟩
  declared := by
    refine List.cons_subset.mpr ⟨?_, List.nil_subset _⟩
    exact List.mem_map.mpr ⟨(t, d), mem_declared source member, rfl⟩
  depth := rfl
  limit := limit'

theorem room (leaves : v.Leaves sources k) : v.depth + 1 < v.limit := by
  -- different declarations among those of the sources, the one besides included
  have few := (List.subperm_of_subset leaves.nodup leaves.declared).length_le
  have limit := leaves.limit
  rw [List.length_cons, List.length_map, ← leaves.depth] at few
  omega

theorem of_extends {w : Visit} (leaves : v.Leaves sources k) (extends' : v.Extends w) :
    w.Leaves sources k where
  nodup := by rw [extends'.held]; exact leaves.nodup
  declared := by rw [extends'.held]; exact leaves.declared
  depth := by rw [extends'.held, extends'.depth]; exact leaves.depth
  limit := by rw [extends'.limit]; exact leaves.limit

theorem hold {t : Source} {d : Declaration} (leaves : v.Leaves sources k) (source : t ∈ sources)
    (member : d ∈ t.declarations) (other : d.key t ≠ k) (absent : d.key t ∉ v.held) :
    (v.hold (d.key t)).Leaves sources k where
  nodup := by
    obtain ⟨absent', nodup⟩ := List.nodup_cons.mp leaves.nodup
    refine List.nodup_cons.mpr ⟨?_, List.nodup_cons.mpr ⟨absent, nodup⟩⟩
    exact List.not_mem_cons_of_ne_of_not_mem other.symm absent'
  declared := by
    obtain ⟨declared, others⟩ := List.cons_subset.mp leaves.declared
    refine List.cons_subset.mpr ⟨declared, List.cons_subset.mpr ⟨?_, others⟩⟩
    exact List.mem_map.mpr ⟨(t, d), mem_declared source member, rfl⟩
  depth := congrArg (· + 1) leaves.depth
  limit := leaves.limit

end Leaves

end Visit

/-! ## Gates -/

section Gates

variable {sources : List Source} {k : Key} {v u : Visit} {gate : Gate}

theorem enter_beside {k' : Key} (leaves : v.Leaves sources k) (other : k' ≠ k) :
    (v.beside k).enter k' = ((v.enter k').1, (v.enter k').2.beside k) := by
  have room := leaves.room
  have below : ¬ v.limit ≤ v.depth := by omega
  have below' : ¬ v.limit ≤ v.depth + 1 := by omega
  by_cases held : k' ∈ v.held
  · simp [Visit.enter, Visit.beside, below, below', held]
  · simp [Visit.enter, Visit.beside, below, below', held, other]

theorem turns_beside {values : LiteralSet} {w : Visit} (turned : Guard.visit.Turns gate v values w)
    (leaves : v.Leaves sources k) (other : gate.key? ≠ some k) :
    Guard.visit.Turns gate (v.beside k) values (w.beside k) := by
  have refuses : ∀ {k'}, k' ≠ k → v.enter k' = (false, w) →
      (v.beside k).enter k' = (false, w.beside k) := by
    intro k' other refused
    rw [enter_beside leaves other, refused]
  cases turned with
  | known known => exact .known known
  | unheld refused => exact .unheld (refuses (fun same => other (congrArg some same)) refused)
  | unentered unknown refused =>
    exact .unentered unknown (refuses (fun same => other (congrArg some same)) refused)

theorem opens_beside (opened : Guard.visit.Opens gate v u) (leaves : v.Leaves sources k)
    (other : gate.key? ≠ some k) : Guard.visit.Opens gate (v.beside k) (u.beside k) := by
  have enters : ∀ {k'}, k' ≠ k → v.enter k' = (true, u) →
      (v.beside k).enter k' = (true, u.beside k) := by
    intro k' other entered
    rw [enter_beside leaves other, entered]
  cases opened with
  | free => exact .free
  | held entered => exact .held (enters (fun same => other (congrArg some same)) entered)
  | remembered unknown entered =>
    exact .remembered unknown (enters (fun same => other (congrArg some same)) entered)

theorem leave_beside {k' : Key} {u' : Visit} (between : (v.hold k').Extends u') :
    (u'.beside k).leave k' = (u'.leave k').beside k := by
  have held : u'.held = k' :: v.held := between.held
  have depth : u'.depth = v.depth + 1 := between.depth
  simp [Visit.leave, Visit.beside, held, depth]

/-- Closing a gate does not touch the declaration that is held besides. -/
theorem close_beside {u' : Visit} (opened : Guard.visit.Opens gate v u) (between : u.Extends u')
    (values : LiteralSet) :
    Guard.visit.close gate (u.beside k) values (u'.beside k) =
      (Guard.visit.close gate u values u').beside k := by
  rcases visit_opens opened with ⟨rfl, rfl⟩ | ⟨k', rfl | ⟨rfl, -⟩, -, -, rfl⟩
  · rfl
  · exact leave_beside between
  · simp only [Guard.close, Guard.visit, leave_beside between]
    show (if (u'.leave k').refusals = (v.hold k').refusals then _ else _) = _
    split <;> rfl

end Gates

/-! ## Answers -/

section Answers

variable {c : Codebase} {sources : List Source} {k : Key}

theorem Avoids.of_asks {goal next : Goal} {v w : Visit} (avoids : Avoids c k goal v)
    (asks : Asks Guard.visit c (goal, v) (next, w)) : Avoids c k next w :=
  fun y eventually => avoids y (.head asks eventually)

theorem Avoids.of_done {goal : Goal} {v : Visit} {values : LiteralSet}
    (ends : goal.inquiry c = .done values) (other : goal.gate.key? ≠ some k) : Avoids c k goal v := by
  intro y eventually
  rcases Relation.ReflTransGen.cases_head eventually with rfl | ⟨_, ⟨u, -, asked⟩, -⟩
  · exact other
  · rw [ends] at asked
    cases asked

theorem Avoids.of_one {goal next : Goal} {v u : Visit} (passes : goal.inquiry c = .one next)
    (other : goal.gate.key? ≠ some k) (opened : Guard.visit.Opens goal.gate v u)
    (avoids : Avoids c k next u) : Avoids c k goal v := by
  intro y eventually
  rcases Relation.ReflTransGen.cases_head eventually with rfl | ⟨⟨_, w⟩, ⟨u', opened', asked⟩, rest⟩
  · exact other
  · cases opened.unique opened'
    rw [passes] at asked
    cases asked with
    | now => exact avoids y rest
    | later _ further => cases further

/-- If holding the declaration makes no difference to what an inquiry comes to ask, it makes none to the
inquiry. -/
theorem run_beside {α : Type} {ask : Ask Visit} {R : Goal → Visit → LiteralSet → Visit → Prop}
    (implies : ∀ goal v values w, ask goal v = .ok (values, w) → R goal v values w) {q : Inquiry α}
    {v : Visit} (each : ∀ goal w, q.AsksAt R v goal w →
      ask goal (w.beside k) = (ask goal w).map fun x => (x.1, x.2.beside k)) :
    q.run ask (v.beside k) = (q.run ask v).map fun x => (x.1, x.2.beside k) := by
  induction q generalizing v with
  | done a => rfl
  | halt h => rfl
  | ask goal next ih =>
    simp only [Inquiry.run, bind, StateT.bind, Except.bind, each goal v .now]
    cases answered : ask goal v with
    | error h => rfl
    | ok result =>
      apply ih
      intro later w asks
      exact each later w (.later (implies _ _ _ _ answered) asks)

theorem Visit.Leaves.of_opens {goal : Goal} {v u : Visit} (leaves : v.Leaves sources k)
    (within : goal.Within sources) (other : goal.gate.key? ≠ some k)
    (opened : Guard.visit.Opens goal.gate v u) : u.Leaves sources k := by
  rcases visit_opens opened with ⟨-, rfl⟩ | ⟨k', gate, -, absent, rfl⟩
  · exact leaves
  · obtain ⟨t, d, source, member, rfl⟩ := within.gate (gate.imp_right And.left)
    have different : d.key t ≠ k := by
      intro same
      apply other
      rcases gate with gate | ⟨gate, -⟩ <;> simp [gate, Gate.key?, same]
    exact leaves.hold source member different absent

/-- **Holding a declaration that does not come up makes no difference.** -/
theorem answer_beside (all : c.sources ⊆ sources) (depth : Nat) {goal : Goal} {v : Visit}
    (within : goal.Within sources) (leaves : v.Leaves sources k) (avoids : Avoids c k goal v) :
    Values.answer Guard.visit c depth goal (v.beside k) =
      (Values.answer Guard.visit c depth goal v).map fun x => (x.1, x.2.beside k) := by
  induction depth generalizing goal v with
  | zero => rfl
  | succ depth ih =>
    have other : goal.gate.key? ≠ some k := avoids (goal, v) .refl
    simp only [Values.answer, rule_eq_through]
    rcases Guard.turns_or_opens (g := Guard.visit) goal.gate v with ⟨values, w, turned⟩ | ⟨u, opened⟩
    · rw [Guard.through_of_turns turned, Guard.through_of_turns (turns_beside turned leaves other)]
      rfl
    · have answered : ∀ goal v values w, Values.answer Guard.visit c depth goal v = .ok (values, w) →
          Returns Guard.visit c goal v values w := fun _ _ _ _ answered => ⟨depth, answered⟩
      have behind : u.Leaves sources k := leaves.of_opens within other opened
      -- all that the rule comes to ask is within the sources and avoids the key, too
      have run := run_beside (k := k) answered (q := goal.inquiry c) (v := u) fun next w asks =>
        ih ((within.inquiry all).mayAsk asks.mayAsk) (behind.of_extends asks.extends)
          (avoids.of_asks ⟨u, opened, asks⟩)
      rw [Guard.through_of_opens opened, Guard.through_of_opens (opens_beside opened leaves other), run]
      cases ran : (goal.inquiry c).run (Values.answer Guard.visit c depth) u with
      | error h => rfl
      | ok result =>
        have between : u.Extends result.2 :=
          (Inquiry.run_ok_iff.mp ran).extends fun _ _ _ _ returned => Returns.extends ⟨depth, returned⟩
        simp only [Except.map, close_beside opened between]

/-- An answer is found with the declaration held if and only if it is found without. -/
theorem returns_beside_iff (all : c.sources ⊆ sources) {goal : Goal} {v : Visit}
    (within : goal.Within sources) (leaves : v.Leaves sources k) (avoids : Avoids c k goal v)
    (values : LiteralSet) :
    (∃ w, Returns Guard.visit c goal (v.beside k) values w) ↔
      ∃ w, Returns Guard.visit c goal v values w := by
  constructor
  · rintro ⟨w, depth, returned⟩
    rw [answer_beside all depth within leaves avoids] at returned
    cases answered : Values.answer Guard.visit c depth goal v with
    | error h => rw [answered] at returned; cases returned
    | ok result =>
      rw [answered] at returned
      cases returned
      exact ⟨result.2, depth, answered⟩
  · rintro ⟨w, depth, returned⟩
    refine ⟨w.beside k, depth, ?_⟩
    rw [answer_beside all depth within leaves avoids, returned]
    rfl

end Answers

end TemplateValues
