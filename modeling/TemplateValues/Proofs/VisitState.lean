import TemplateValues.Proofs.Evaluation

/-!
# The state of a visit

Whatever is asked in a visit, in the end the same declarations are held as before.  In between they
are pairwise different, they are counted right, and there are never more of them than the limit allows
or than there were in the beginning.  What is known about declarations that are done is only added to.

A key is entered and left by the same rule, so the argument is about brackets: `Visit.Extends` says
what an answer may do to a visit, and closing a gate behind an answer undoes what opening it did.  The
one thing to watch is that an answer is not kept twice: a key is entered only if it is not held, so
while a declaration is held, no other question can be done with it (`Extends.finished`).
-/

namespace TemplateValues

namespace Visit

/-! ## Operations -/

def hold (k : Key) (v : Visit) : Visit := { v with held := k :: v.held, depth := v.depth + 1 }

def refuse (v : Visit) : Visit := { v with refusals := v.refusals + 1 }

theorem enter_of_allowed {k : Key} {v : Visit} (below : v.depth < v.limit) (absent : k ∉ v.held) :
    v.enter k = (true, v.hold k) := by
  simp [enter, hold, Nat.not_le.mpr below, absent]

theorem enter_of_refused {k : Key} {v : Visit} (refused : v.limit ≤ v.depth ∨ k ∈ v.held) :
    v.enter k = (false, v.refuse) := by
  by_cases reached : v.limit ≤ v.depth
  · simp [enter, refuse, reached]
  · simp [enter, refuse, reached, refused.resolve_left reached]

theorem enter_true_iff {k : Key} {v u : Visit} :
    v.enter k = (true, u) ↔ v.depth < v.limit ∧ k ∉ v.held ∧ u = v.hold k := by
  by_cases refused : v.limit ≤ v.depth ∨ k ∈ v.held
  · rw [enter_of_refused refused]
    constructor
    · intro entered
      cases entered
    · rintro ⟨below, absent, -⟩
      rcases refused with reached | member
      · omega
      · exact absurd member absent
  · obtain ⟨below, absent⟩ := not_or.mp refused
    rw [enter_of_allowed (Nat.lt_of_not_le below) absent]
    constructor
    · intro entered
      cases entered
      exact ⟨Nat.lt_of_not_le below, absent, rfl⟩
    · rintro ⟨-, -, rfl⟩
      rfl

theorem enter_false_iff {k : Key} {v w : Visit} :
    v.enter k = (false, w) ↔ (v.limit ≤ v.depth ∨ k ∈ v.held) ∧ w = v.refuse := by
  by_cases refused : v.limit ≤ v.depth ∨ k ∈ v.held
  · rw [enter_of_refused refused]
    constructor
    · intro entered
      cases entered
      exact ⟨refused, rfl⟩
    · rintro ⟨-, rfl⟩
      rfl
  · obtain ⟨below, absent⟩ := not_or.mp refused
    rw [enter_of_allowed (Nat.lt_of_not_le below) absent]
    constructor
    · intro entered
      cases entered
    · rintro ⟨refused', -⟩
      exact absurd refused' refused

theorem leave_held_of_cons {k : Key} {ks : List Key} {v : Visit} (held : v.held = k :: ks) :
    (v.leave k).held = ks := by
  simp [leave, held]

theorem leave_depth_of_cons {k : Key} {ks : List Key} {v : Visit} (held : v.held = k :: ks) :
    (v.leave k).depth = v.depth - 1 := by
  simp [leave, held]

@[simp] theorem leave_limit (k : Key) (v : Visit) : (v.leave k).limit = v.limit := by
  unfold leave
  split <;> rfl

@[simp] theorem leave_refusals (k : Key) (v : Visit) : (v.leave k).refusals = v.refusals := by
  unfold leave
  split <;> rfl

@[simp] theorem leave_finished (k : Key) (v : Visit) : (v.leave k).finished = v.finished := by
  unfold leave
  split <;> rfl

def doneKeys (v : Visit) : List Key := v.finished.map Prod.fst

theorem lookup_eq_none_iff_not_mem {k : Key} {entries : List (Key × LiteralSet)} :
    entries.lookup k = none ↔ k ∉ entries.map Prod.fst := by
  rw [List.lookup_eq_none_iff, List.mem_map]
  constructor
  · rintro unequal ⟨entry, member, rfl⟩
    simpa using unequal entry member
  · intro absent entry member
    refine bne_iff_ne.mpr ?_
    rintro rfl
    exact absent ⟨entry, member, rfl⟩

theorem finished?_eq_none_iff {k : Key} {v : Visit} : v.finished? k = none ↔ k ∉ v.doneKeys :=
  lookup_eq_none_iff_not_mem

theorem mem_doneKeys {k : Key} {v : Visit} : k ∈ v.doneKeys ↔ ∃ values, (k, values) ∈ v.finished := by
  simp only [doneKeys, List.mem_map, Prod.exists, exists_and_right, exists_eq_right]

theorem mem_doneKeys_iff_finished? {k : Key} {v : Visit} :
    k ∈ v.doneKeys ↔ ∃ values, v.finished? k = some values := by
  rw [← Option.ne_none_iff_exists', Ne, finished?_eq_none_iff, Decidable.not_not]

/-! ## What an answer does to a visit -/

/-- The second visit holds the same declarations as the first, and what it knows beyond is about
declarations that were not done and are not held. -/
structure Extends (v w : Visit) : Prop where
  limit : w.limit = v.limit
  held : w.held = v.held
  depth : w.depth = v.depth
  refusals : v.refusals ≤ w.refusals
  finished : ∃ added, w.finished = added ++ v.finished ∧ (added.map Prod.fst).Nodup ∧
    ∀ k ∈ added.map Prod.fst, k ∉ v.held ∧ k ∉ v.doneKeys

namespace Extends

theorem refl (v : Visit) : v.Extends v where
  limit := rfl
  held := rfl
  depth := rfl
  refusals := Nat.le_refl _
  finished := ⟨[], rfl, List.nodup_nil, by simp⟩

theorem trans {u v w : Visit} (first : u.Extends v) (second : v.Extends w) : u.Extends w where
  limit := second.limit.trans first.limit
  held := second.held.trans first.held
  depth := second.depth.trans first.depth
  refusals := Nat.le_trans first.refusals second.refusals
  finished := by
    obtain ⟨early, earlyEq, earlyNodup, earlyNew⟩ := first.finished
    obtain ⟨late, lateEq, lateNodup, lateNew⟩ := second.finished
    -- what comes later is new against what came earlier, since that is done by then
    have done : v.doneKeys = early.map Prod.fst ++ u.doneKeys := by
      rw [doneKeys, earlyEq, List.map_append, doneKeys]
    have lateFresh : ∀ k ∈ late.map Prod.fst, k ∉ early.map Prod.fst ∧ k ∉ u.held ∧ k ∉ u.doneKeys := by
      intro k member
      obtain ⟨unheld, undone⟩ := lateNew k member
      rw [done, List.mem_append, not_or] at undone
      exact ⟨undone.1, first.held ▸ unheld, undone.2⟩
    refine ⟨late ++ early, by rw [lateEq, earlyEq, List.append_assoc], ?_, ?_⟩
    · rw [List.map_append]
      refine List.nodup_append.mpr ⟨lateNodup, earlyNodup, ?_⟩
      rintro k lateMember _ earlyMember rfl
      exact (lateFresh k lateMember).1 earlyMember
    · intro k member
      rw [List.map_append, List.mem_append] at member
      rcases member with lateMember | earlyMember
      · exact (lateFresh k lateMember).2
      · exact earlyNew k earlyMember

/-- If nothing is refused on the whole way, nothing is refused on either part of it. -/
theorem unrefused {u v w : Visit} (first : u.Extends v) (second : v.Extends w)
    (whole : w.refusals = u.refusals) : v.refusals = u.refusals ∧ w.refusals = v.refusals := by
  have before := first.refusals
  have after := second.refusals
  omega

/-- What is known stays known. -/
theorem finished?_eq {v w : Visit} (extends' : v.Extends w) {k : Key} {values : LiteralSet}
    (known : v.finished? k = some values) : w.finished? k = some values := by
  obtain ⟨added, equal, -, new⟩ := extends'.finished
  have absent : k ∉ added.map Prod.fst := by
    intro member
    have unknown := finished?_eq_none_iff.mpr (new k member).2
    rw [known] at unknown
    cases unknown
  rw [finished?, equal, List.lookup_append, lookup_eq_none_iff_not_mem.mpr absent]
  exact known

theorem refuse (v : Visit) : v.Extends v.refuse where
  limit := rfl
  held := rfl
  depth := rfl
  refusals := Nat.le_succ _
  finished := ⟨[], rfl, List.nodup_nil, by simp⟩

/-- A key that was entered is left with nothing changed but what happened in between. -/
theorem leave {v u : Visit} {k : Key} (extends' : (v.hold k).Extends u) : v.Extends (u.leave k) where
  limit := (leave_limit k u).trans extends'.limit
  held := leave_held_of_cons extends'.held
  depth := by
    rw [leave_depth_of_cons extends'.held, extends'.depth]
    rfl
  refusals := by
    rw [leave_refusals]
    exact extends'.refusals
  finished := by
    obtain ⟨added, equal, nodup, new⟩ := extends'.finished
    refine ⟨added, by rw [leave_finished, equal]; rfl, nodup, ?_⟩
    intro k' member
    obtain ⟨unheld, undone⟩ := new k' member
    exact ⟨fun held => unheld (List.mem_cons_of_mem k held), undone⟩

/-- While a key is held nothing is kept for it, so keeping something for it as it is left is new. -/
theorem leave_finish {v u : Visit} {k : Key} (values : LiteralSet) (absent : k ∉ v.held)
    (undone : k ∉ v.doneKeys) (extends' : (v.hold k).Extends u) :
    v.Extends ((u.leave k).finish k values) where
  limit := extends'.leave.limit
  held := extends'.leave.held
  depth := extends'.leave.depth
  refusals := extends'.leave.refusals
  finished := by
    obtain ⟨added, equal, nodup, new⟩ := extends'.finished
    refine ⟨(k, values) :: added, ?_, ?_, ?_⟩
    · rw [finish, leave_finished, equal]
      rfl
    · refine List.nodup_cons.mpr ⟨fun member => ?_, nodup⟩
      exact (new k member).1 List.mem_cons_self
    · intro k' member
      rw [List.map_cons, List.mem_cons] at member
      rcases member with rfl | member
      · exact ⟨absent, undone⟩
      · obtain ⟨unheld, undone'⟩ := new k' member
        exact ⟨fun held => unheld (List.mem_cons_of_mem k held), undone'⟩

end Extends

end Visit

/-! ## Answers and what they rest on -/

/-- What a visit does to a question that its gate turns away: it has the answer, or it counts a
refusal. -/
theorem visit_turns {gate : Gate} {v w : Visit} {values : LiteralSet}
    (turned : Guard.visit.Turns gate v values w) :
    (w = v ∧ ∃ k, gate = .remembered k ∧ v.finished? k = some values) ∨
      (w = v.refuse ∧ values = .empty) := by
  cases turned with
  | known known => exact .inl ⟨rfl, _, rfl, known⟩
  | unheld refused => exact .inr ⟨(Visit.enter_false_iff.mp refused).2, rfl⟩
  | unentered _ refused => exact .inr ⟨(Visit.enter_false_iff.mp refused).2, rfl⟩

/-- What a visit does to a question that its gate opens for. -/
theorem visit_opens {gate : Gate} {v u : Visit} (opened : Guard.visit.Opens gate v u) :
    (gate = .free ∧ u = v) ∨
      ∃ k, (gate = .held k ∨ gate = .remembered k ∧ v.finished? k = none) ∧
        v.depth < v.limit ∧ k ∉ v.held ∧ u = v.hold k := by
  cases opened with
  | free => exact .inl ⟨rfl, rfl⟩
  | held entered => exact .inr ⟨_, .inl rfl, Visit.enter_true_iff.mp entered⟩
  | remembered unknown entered =>
    exact .inr ⟨_, .inr ⟨rfl, unknown⟩, Visit.enter_true_iff.mp entered⟩

theorem Guard.Turns.extends {gate : Gate} {v w : Visit} {values : LiteralSet}
    (turned : Guard.visit.Turns gate v values w) : v.Extends w := by
  rcases visit_turns turned with ⟨rfl, -⟩ | ⟨rfl, -⟩
  · exact .refl w
  · exact .refuse v

/-- Closing a gate undoes what opening it did. -/
theorem Guard.Opens.extends_close {gate : Gate} {v u u' : Visit}
    (opened : Guard.visit.Opens gate v u) (between : u.Extends u') (values : LiteralSet) :
    v.Extends (Guard.visit.close gate u values u') := by
  rcases visit_opens opened with ⟨rfl, rfl⟩ | ⟨k, rfl | ⟨rfl, unknown⟩, -, absent, rfl⟩
  · exact between
  · exact between.leave
  · change v.Extends (if (u'.leave k).refusals = (v.hold k).refusals then _ else _)
    split
    · exact between.leave_finish values absent (Visit.finished?_eq_none_iff.mp unknown)
    · exact between.leave

section

variable {c : Codebase}

theorem Inquiry.Run.extends {α : Type} {R : Goal → Visit → LiteralSet → Visit → Prop}
    (implies : ∀ goal v values w, R goal v values w → v.Extends w) {q : Inquiry α} {v w : Visit}
    {a : α} (run : q.Run R v a w) : v.Extends w := by
  induction run with
  | done => exact .refl _
  | ask answered _ ih => exact (implies _ _ _ _ answered).trans ih

/-- An answer holds what was held and only adds to what is known. -/
theorem Returns.extends {goal : Goal} {v w : Visit} {values : LiteralSet}
    (returned : Returns Guard.visit c goal v values w) : v.Extends w := by
  refine Returns.induct (P := fun _ v _ w => v.Extends w) ?_ ?_ returned
  · exact fun turned => turned.extends
  · intro goal v u values u' opened run
    exact opened.extends_close (run.extends fun _ _ _ _ answered => answered.2) values

theorem Inquiry.AsksAt.extends {α : Type} {q : Inquiry α} {v w : Visit} {goal : Goal}
    (asks : q.AsksAt (Returns Guard.visit c) v goal w) : v.Extends w := by
  induction asks with
  | now => exact .refl _
  | later answered _ ih => exact answered.extends.trans ih

end

/-! ## Counting what is held -/

/-- The declarations that are held are different and counted right. -/
structure Visit.Sound (v : Visit) : Prop where
  nodup : v.held.Nodup
  depth : v.depth = v.held.length

/-- The visits that entering, leaving and finishing declarations, in any order, make of new ones. -/
inductive Visit.Reached : Visit → Prop where
  | start (limit : Nat) : Reached (.start limit)
  | enter {v} (k : Key) : Reached v → Reached (v.enter k).2
  | leave {v} (k : Key) : Reached v → Reached (v.leave k)
  | finish {v} (k : Key) (values : LiteralSet) : Reached v → Reached (v.finish k values)

namespace Visit.Sound

theorem hold {v : Visit} {k : Key} (sound : v.Sound) (absent : k ∉ v.held) : (v.hold k).Sound where
  nodup := List.nodup_cons.mpr ⟨absent, sound.nodup⟩
  depth := congrArg (· + 1) sound.depth

theorem leave {v : Visit} (k : Key) (sound : v.Sound) : (v.leave k).Sound := by
  unfold Visit.leave
  split
  · rename_i member
    simp only [List.contains_eq_mem, decide_eq_true_eq] at member
    refine ⟨sound.nodup.erase k, ?_⟩
    rw [List.length_erase_of_mem member, sound.depth]
  · exact sound

theorem enter {v : Visit} (k : Key) (sound : v.Sound) : (v.enter k).2.Sound := by
  rcases entered : v.enter k with ⟨_ | _, u⟩
  · obtain ⟨-, rfl⟩ := enter_false_iff.mp entered
    exact ⟨sound.nodup, sound.depth⟩
  · obtain ⟨-, absent, rfl⟩ := enter_true_iff.mp entered
    exact sound.hold absent

theorem of_extends {v w : Visit} (sound : v.Sound) (extends' : v.Extends w) : w.Sound where
  nodup := extends'.held ▸ sound.nodup
  depth := by rw [extends'.depth, extends'.held, sound.depth]

end Visit.Sound

theorem Visit.Reached.sound {v : Visit} (reached : v.Reached) : v.Sound := by
  induction reached with
  | start limit => exact ⟨List.nodup_nil, rfl⟩
  | enter k _ ih => exact ih.enter k
  | leave k _ ih => exact ih.leave k
  | finish k values _ ih => exact ⟨ih.nodup, ih.depth⟩

/-- The visit is sound and holds at most as much as its limit or as a bound allows. -/
structure Visit.Bounded (limit bound : Nat) (v : Visit) : Prop where
  sound : v.Sound
  depth : v.depth ≤ max bound limit
  limit : v.limit = limit

namespace Visit.Bounded

variable {limit bound : Nat}

theorem of_extends {v w : Visit} (bounded : v.Bounded limit bound) (extends' : v.Extends w) :
    w.Bounded limit bound where
  sound := bounded.sound.of_extends extends'
  depth := extends'.depth ▸ bounded.depth
  limit := extends'.limit.trans bounded.limit

theorem of_opens {gate : Gate} {v u : Visit} (bounded : v.Bounded limit bound)
    (opened : Guard.visit.Opens gate v u) : u.Bounded limit bound := by
  rcases visit_opens opened with ⟨-, rfl⟩ | ⟨k, -, below, absent, rfl⟩
  · exact bounded
  · refine ⟨bounded.sound.hold absent, ?_, bounded.limit⟩
    have room : v.depth + 1 ≤ limit := bounded.limit ▸ below
    exact Nat.le_trans room (Nat.le_max_right _ _)

theorem of_asks {c : Codebase} {x y : Goal × Visit} (bounded : x.2.Bounded limit bound)
    (asks : Asks Guard.visit c x y) : y.2.Bounded limit bound := by
  obtain ⟨u, opened, asked⟩ := asks
  exact (bounded.of_opens opened).of_extends asked.extends

theorem of_stage {c : Codebase} {goal : Goal} {v w : Visit} (bounded : v.Bounded limit bound)
    (stage : Stage Guard.visit c goal v w) : w.Bounded limit bound := by
  cases stage with
  | begun => exact bounded
  | turned turned => exact bounded.of_extends turned.extends
  | opened opened => exact bounded.of_opens opened
  | answered opened run =>
    exact (bounded.of_opens opened).of_extends (run.extends fun _ _ _ _ => Returns.extends)
  | closed opened run =>
    exact bounded.of_extends (opened.extends_close (run.extends fun _ _ _ _ => Returns.extends) _)
  | left opened run gate =>
    -- the gate holds a key, so leaving it undoes the opening as closing it does
    rename_i u values u' k
    have between : u.Extends u' := run.extends fun _ _ _ _ => Returns.extends
    rcases visit_opens opened with ⟨free, -⟩ | ⟨k', held | ⟨remembered, -⟩, -, -, rfl⟩
    · rw [gate] at free; cases free
    · rw [gate] at held; cases held
    · rw [gate] at remembered
      cases remembered
      exact bounded.of_extends between.leave

theorem of_occurs {c : Codebase} {goal : Goal} {v w : Visit} (bounded : v.Bounded limit bound)
    (occurs : Occurs Guard.visit c goal v w) : w.Bounded limit bound :=
  occurs.invariant (P := fun _ v => v.Bounded limit bound)
    (fun _ _ asks bounded => bounded.of_asks asks) (fun _ _ _ stage bounded => bounded.of_stage stage)
    bounded

end Visit.Bounded

/-! ## Calls -/

/-- What can be asked of a codebase: a goal, the values of a member chain written as text, and the
values that a parameter takes from what it runs over. -/
inductive Call where
  | ask (goal : Goal)
  | access (s : Source) (expression : String)
  | iteration (s : Source) (d : Declaration)

namespace Call

def answer (c : Codebase) (depth : Nat) : Call → Eval Visit LiteralSet
  | .ask goal => Values.answer Guard.visit c depth goal
  | .access s expression => Values.dotted c (Values.answer Guard.visit c depth) s expression
  | .iteration s d => Values.iteration c (Values.answer Guard.visit c depth) s d

def inquiry (c : Codebase) : Call → Inquiry LiteralSet
  | .ask goal => .one goal
  | .access s expression => Values.dotted c .one s expression
  | .iteration s d => Values.iteration c .one s d

def Returns (c : Codebase) (call : Call) (v : Visit) (values : LiteralSet) (w : Visit) : Prop :=
  ∃ depth, call.answer c depth v = .ok (values, w)

def Occurs (c : Codebase) (call : Call) (v w : Visit) : Prop :=
  w = v ∨ ∃ goal u, (call.inquiry c).AsksAt (TemplateValues.Returns Guard.visit c) v goal u ∧
    TemplateValues.Occurs Guard.visit c goal u w

variable {c : Codebase}

theorem answer_eq_run (depth : Nat) (call : Call) :
    call.answer c depth = (call.inquiry c).run (Values.answer Guard.visit c depth) := by
  cases call with
  | ask goal => exact (Inquiry.run_one _ _).symm
  | access s expression => exact (Inquiry.run_dotted _ c s expression).symm
  | iteration s d => exact (Inquiry.run_iteration _ c s d).symm

theorem Returns.extends {call : Call} {v w : Visit} {values : LiteralSet}
    (returned : call.Returns c v values w) : v.Extends w := by
  obtain ⟨depth, returned⟩ := returned
  rw [answer_eq_run, Inquiry.run_ok_iff] at returned
  exact returned.extends fun _ _ _ _ answered => TemplateValues.Returns.extends ⟨depth, answered⟩

end Call

/-! ## Two types, the one used in the other -/

namespace Sample

open Syntax

def literal (role : Option Field) (start : Nat) : Tree :=
  .node .literalType role start (start + 3)
    [.node .string none start (start + 3)
      [.node (.token "'") none start (start + 1) [],
        .node .stringFragment none (start + 1) (start + 2) [],
        .node (.token "'") none (start + 2) (start + 3) []]]

def typeAlias (start : Nat) (value : Tree) : Tree :=
  .node .typeAliasDeclaration none start (value.stop + 1)
    [.node (.token "type") none start (start + 4) [],
      .node .typeIdentifier (some .name) (start + 5) (start + 6) [],
      .node (.token "=") none (start + 7) (start + 8) [], value,
      .node (.token ";") none value.stop (value.stop + 1) []]

def outer : Tree :=
  typeAlias 0 (.node .unionType (some .value) 9 16
    [literal none 9, .node (.token "|") none 13 14 [], .node .typeIdentifier none 15 16 []])

def inner : Tree := typeAlias 18 (literal (some .value) 27)

def source : Source where
  path := ⟨["", "a.ts"]⟩
  language := .typescript
  text := "type A = 'x' | B;\ntype B = 'y';"
  tree := .node .program none 0 31 [outer, inner]

def codebase : Codebase := ⟨⟨[], []⟩, [source], .relativeOnly, 8⟩

def outerDeclaration : Declaration where
  kind := .typeAlias
  node := ⟨outer, [(source.tree, 0)]⟩
  name := ⟨.node .typeIdentifier (some .name) 5 6 [], [(outer, 1), (source.tree, 0)]⟩

def innerDeclaration : Declaration where
  kind := .typeAlias
  node := ⟨inner, [(source.tree, 1)]⟩
  name := ⟨.node .typeIdentifier (some .name) 23 24 [], [(inner, 1), (source.tree, 1)]⟩

end Sample

/-- **Calls keep the state of a visit.**  A call that returns holds what was held before, has not lost
count of refusals, and has only added to what is known.  While it goes on, whether it returns or not,
the declarations held are pairwise different and counted right, and there are at most as many as the
limit allows or as there were before. -/
theorem call_keeps_visit (c : Codebase) (call : Call) {v : Visit} (context : v.Reached) :
    (∀ values w, call.Returns c v values w →
      w.held = v.held ∧ w.depth = v.depth ∧ v.refusals ≤ w.refusals ∧
        (∀ k known, v.finished? k = some known → w.finished? k = some known) ∧
        ∃ added, w.finished = added ++ v.finished ∧ (added.map Prod.fst).Nodup ∧
          ∀ k ∈ added.map Prod.fst, v.finished? k = none) ∧
    ∀ w, call.Occurs c v w →
      w.held.Nodup ∧ w.depth = w.held.length ∧ w.depth ≤ max v.depth v.limit := by
  constructor
  · intro values w returned
    have extends' := returned.extends
    obtain ⟨added, equal, nodup, new⟩ := extends'.finished
    refine ⟨extends'.held, extends'.depth, extends'.refusals, fun _ _ => extends'.finished?_eq,
      added, equal, nodup, fun k member => Visit.finished?_eq_none_iff.mpr (new k member).2⟩
  · have start : v.Bounded v.limit v.depth := ⟨context.sound, Nat.le_max_left _ _, rfl⟩
    rintro w (rfl | ⟨goal, u, asked, occurs⟩)
    · exact ⟨start.sound.nodup, start.sound.depth, start.depth⟩
    · have bounded := (start.of_extends asked.extends).of_occurs occurs
      exact ⟨bounded.sound.nodup, bounded.sound.depth, bounded.depth⟩

/-- In `type A = 'x' | B; type B = 'y';`, the values of `A` are found with at most 48 declarations held
at once, and none in the end. -/
theorem sample_call_keeps_visit :
    (Visit.start 48).Reached ∧
    ∃ w, (Call.ask (.declaration Sample.source Sample.outerDeclaration)).Returns Sample.codebase
        (.start 48) (.ofList ["x", "y"]) w ∧
      w.held = [] ∧ w.depth = 0 ∧
      ∀ u, (Call.ask (.declaration Sample.source Sample.outerDeclaration)).Occurs Sample.codebase
        (.start 48) u → u.held.Nodup ∧ u.depth = u.held.length ∧ u.depth ≤ 48 := by
  refine ⟨.start 48, _, ⟨10, rfl⟩, ?_⟩
  obtain ⟨returned, occurs⟩ := call_keeps_visit Sample.codebase
    (.ask (.declaration Sample.source Sample.outerDeclaration)) (.start 48)
  obtain ⟨held, depth, -⟩ := returned _ _ ⟨10, rfl⟩
  exact ⟨held, depth, occurs⟩

end TemplateValues
