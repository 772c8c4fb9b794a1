import Mathlib.Data.List.DropRight
import TemplateValues.Proofs.VisitState

/-!
# A visit as its trace tells

A visit is used in steps: declarations are entered, left and done with, what is known about one is asked
for, and the visit is started afresh.  Nothing makes the steps come in a sensible order.  What happened is
kept as a trace, and from the trace alone it is clear what the visit holds, how often it refused, and what
it knows (`Told`).

All that matters of a trace is what came after the last fresh start; and whether a declaration is held, or
what is known about it, is decided by the last event that touches it.  `Since` says this for both.
-/

namespace TemplateValues

/-- Where a declaration is: the bytes it spans in the file that a path leads to. -/
structure Spot where
  file : Path
  start : Nat
  stop : Nat

namespace Spot

def key (p : Spot) : Key := ⟨p.file.components, p.start, p.stop⟩

structure Same (p q : Spot) : Prop where
  file : p.file.components = q.file.components
  start : p.start = q.start
  stop : p.stop = q.stop

theorem same_iff_key {p q : Spot} : p.Same q ↔ p.key = q.key := by
  constructor
  · rintro ⟨file, start, stop⟩
    simp only [key, file, start, stop]
  · intro equal
    exact ⟨congrArg Key.file equal, congrArg Key.start equal, congrArg Key.stop equal⟩

end Spot

namespace Visit

/-! ## Steps and events -/

inductive Step where
  | enter (p : Spot)
  | leave (p : Spot)
  | finish (p : Spot) (values : LiteralSet)
  | finished (p : Spot)
  | fresh

inductive Event where
  | entered (p : Spot)
  | refused (p : Spot)
  | left (p : Spot)
  | done (p : Spot) (values : LiteralSet)
  | asked (p : Spot) (known : Option LiteralSet)
  | renewed

def step (v : Visit) : Step → Event × Visit
  | .enter p => (if (v.enter p.key).1 then .entered p else .refused p, (v.enter p.key).2)
  | .leave p => (.left p, v.leave p.key)
  | .finish p values => (.done p values, v.finish p.key values)
  | .finished p => (.asked p (v.finished? p.key), v)
  | .fresh => (.renewed, v.fresh)

structure Traced where
  events : List Event
  visit : Visit

namespace Traced

def start (limit : Nat) : Traced := ⟨[], .start limit⟩

def next (t : Traced) (s : Step) : Traced := ⟨t.events ++ [(t.visit.step s).1], (t.visit.step s).2⟩

def run (limit : Nat) (steps : List Step) : Traced := steps.foldl next (start limit)

end Traced

/-! ## What events tell -/

namespace Event

def Enters (p : Spot) : Event → Prop
  | entered q => q.Same p
  | _ => False

def Leaves (p : Spot) : Event → Prop
  | left q => q.Same p
  | _ => False

def Yields (p : Spot) (values : LiteralSet) : Event → Prop
  | done q known => q.Same p ∧ known = values
  | _ => False

def isFresh : Event → Bool
  | renewed => true
  | _ => false

def isRefusal : Event → Bool
  | refused _ => true
  | _ => false

end Event

def sinceFresh (events : List Event) : List Event := events.rtakeWhile fun e => !e.isFresh

/-- There was an event that satisfies `P`, and all events after it satisfy `Q`. -/
def Since (P Q : Event → Prop) (events : List Event) : Prop :=
  ∃ before e after, events = before ++ e :: after ∧ P e ∧ ∀ x ∈ after, Q x

/-- The declaration was entered, and after the last time that it was, it has not been left. -/
def Holds (p : Spot) : List Event → Prop := Since (Event.Enters p) fun x => ¬ x.Enters p ∧ ¬ x.Leaves p

/-- The declaration was done, and the last time that it was, these were its values. -/
def Knows (p : Spot) (values : LiteralSet) : List Event → Prop :=
  Since (Event.Yields p values) fun x => ∀ other, ¬ x.Yields p other

theorem not_since_nil {P Q : Event → Prop} : ¬ Since P Q [] := by
  rintro ⟨before, e, after, split, -⟩
  simp at split

/-- What a trace tells by its last event, or else by the events before it. -/
theorem since_concat {P Q : Event → Prop} {events : List Event} {last : Event} :
    Since P Q (events ++ [last]) ↔ P last ∨ Q last ∧ Since P Q events := by
  constructor
  · rintro ⟨before, e, after, split, holds, rest⟩
    -- either the event is the last one, or the last one is among those after it
    rcases after.eq_nil_or_concat' with rfl | ⟨after, x, rfl⟩
    · obtain ⟨-, same⟩ := List.append_inj' split rfl
      cases same
      exact .inl holds
    · rw [← List.cons_append, ← List.append_assoc] at split
      obtain ⟨rfl, same⟩ := List.append_inj' split rfl
      cases same
      refine .inr ⟨rest last List.mem_concat_self, before, e, after, rfl, holds, ?_⟩
      exact fun x member => rest x (List.mem_append_left _ member)
  · rintro (holds | ⟨holds, before, e, after, rfl, first, rest⟩)
    · exact ⟨events, last, [], rfl, holds, by simp⟩
    · refine ⟨before, e, after ++ [last], by simp, first, ?_⟩
      intro x member
      rcases List.mem_append.mp member with member | member
      · exact rest x member
      · exact List.mem_singleton.mp member ▸ holds

theorem sinceFresh_concat {events : List Event} {last : Event} (going : last.isFresh = false) :
    sinceFresh (events ++ [last]) = sinceFresh events ++ [last] :=
  List.rtakeWhile_concat_pos _ _ _ (by simp [going])

theorem sinceFresh_renewed (events : List Event) : sinceFresh (events ++ [.renewed]) = [] :=
  List.rtakeWhile_concat_neg _ _ _ (by simp [Event.isFresh])

theorem holds_concat {p : Spot} {events : List Event} {last : Event} :
    Holds p (events ++ [last]) ↔
      last.Enters p ∨ (¬ last.Enters p ∧ ¬ last.Leaves p) ∧ Holds p events :=
  since_concat

theorem knows_concat {p : Spot} {values : LiteralSet} {events : List Event} {last : Event} :
    Knows p values (events ++ [last]) ↔
      last.Yields p values ∨ (∀ other, ¬ last.Yields p other) ∧ Knows p values events :=
  since_concat

/-- A declaration that was done has values. -/
theorem exists_knows_iff {p : Spot} {events : List Event} :
    (∃ values, Knows p values events) ↔ ∃ e ∈ events, ∃ values, e.Yields p values := by
  induction events using List.reverseRecOn with
  | nil => simp [Knows, not_since_nil]
  | append_singleton events last ih =>
    simp only [knows_concat, exists_or, exists_and_left, ih, List.mem_append, List.mem_singleton,
      or_and_right, exists_eq_left]
    grind

/-! ## One step -/

/-- A visit that is as its trace tells. -/
structure Told (limit : Nat) (t : Traced) : Prop where
  kept : t.visit.limit = limit
  sound : t.visit.Sound
  room : t.visit.depth ≤ limit
  held : ∀ p, p.key ∈ t.visit.held ↔ Holds p (sinceFresh t.events)
  refusals : t.visit.refusals = (sinceFresh t.events).countP Event.isRefusal
  known : ∀ p values, t.visit.finished? p.key = some values ↔ Knows p values (sinceFresh t.events)

theorem mem_held_leave {v : Visit} (sound : v.Sound) {k k' : Key} :
    k' ∈ (v.leave k).held ↔ k' ≠ k ∧ k' ∈ v.held := by
  by_cases member : k ∈ v.held
  · simp only [leave, List.contains_eq_mem, member, decide_true, if_true]
    exact sound.nodup.mem_erase_iff
  · simp only [leave, List.contains_eq_mem, member, decide_false, Bool.false_eq_true, if_false]
    refine ⟨fun other => ⟨?_, other⟩, And.right⟩
    rintro rfl
    exact member other

theorem leave_of_not_mem {v : Visit} {k : Key} (absent : k ∉ v.held) : v.leave k = v := by
  simp [leave, absent]

/-- The count of what is held is never zero when something is left. -/
theorem leave_depth_succ {v : Visit} (sound : v.Sound) {k : Key} (member : k ∈ v.held) :
    (v.leave k).depth + 1 = v.depth := by
  have positive : 0 < v.depth := sound.depth ▸ List.length_pos_of_mem member
  simp only [leave, List.contains_eq_mem, member, decide_true, if_true]
  omega

theorem leave_depth_le (v : Visit) (k : Key) : (v.leave k).depth ≤ v.depth := by
  unfold leave
  split
  · exact Nat.sub_le _ _
  · exact Nat.le_refl _

theorem finished?_finish {v : Visit} {k k' : Key} {values : LiteralSet} :
    (v.finish k values).finished? k' = if k' = k then some values else v.finished? k' := by
  rw [finish, finished?, List.lookup_cons]
  by_cases same : k' = k
  · simp [same]
  · simp [same, beq_false_of_ne same, finished?]

namespace Told

variable {limit : Nat} {events : List Event} {v : Visit} (told : Told limit ⟨events, v⟩) (p : Spot)
include told

/-- One more event in the trace, and what has to be said of the visit after it. -/
theorem concat {last : Event} {w : Visit} (going : last.isFresh = false) (kept : w.limit = v.limit)
    (sound : w.Sound) (room : w.depth ≤ limit)
    (held : ∀ q, q.key ∈ w.held ↔ last.Enters q ∨ (¬ last.Enters q ∧ ¬ last.Leaves q) ∧ q.key ∈ v.held)
    (refusals : w.refusals = v.refusals + [last].countP Event.isRefusal)
    (known : ∀ q values, w.finished? q.key = some values ↔
      last.Yields q values ∨ (∀ other, ¬ last.Yields q other) ∧ v.finished? q.key = some values) :
    Told limit ⟨events ++ [last], w⟩ where
  kept := kept.trans told.kept
  sound := sound
  room := room
  held q := by rw [sinceFresh_concat going, holds_concat, ← told.held q, held q]
  refusals := by rw [sinceFresh_concat going, List.countP_append, ← told.refusals, refusals]
  known q values := by rw [sinceFresh_concat going, knows_concat, ← told.known q, known q]

theorem hold (below : v.depth < v.limit) (absent : p.key ∉ v.held) :
    Told limit ⟨events ++ [.entered p], v.hold p.key⟩ := by
  refine told.concat rfl rfl (told.sound.hold absent) (told.kept ▸ below) (fun q => ?_) rfl fun q values => ?_
  · simp only [Visit.hold, List.mem_cons, Event.Enters, Event.Leaves, Spot.same_iff_key]
    grind
  · simp [Event.Yields, Visit.hold, finished?]

theorem refuse : Told limit ⟨events ++ [.refused p], v.refuse⟩ := by
  refine told.concat rfl rfl ⟨told.sound.nodup, told.sound.depth⟩ told.room (fun q => ?_) rfl fun q values => ?_
  · simp [Event.Enters, Event.Leaves, Visit.refuse]
  · simp [Event.Yields, Visit.refuse, finished?]

theorem leave : Told limit ⟨events ++ [.left p], v.leave p.key⟩ := by
  refine told.concat rfl (leave_limit _ _) (told.sound.leave p.key)
    ((leave_depth_le v p.key).trans told.room) (fun q => ?_) (leave_refusals _ _) fun q values => ?_
  · rw [mem_held_leave told.sound]
    simp only [Event.Enters, Event.Leaves, Spot.same_iff_key]
    grind
  · simp [Event.Yields, finished?]

theorem finish (values : LiteralSet) :
    Told limit ⟨events ++ [.done p values], v.finish p.key values⟩ := by
  refine told.concat rfl rfl ⟨told.sound.nodup, told.sound.depth⟩ told.room (fun q => ?_) rfl fun q other => ?_
  · simp [Event.Enters, Event.Leaves, Visit.finish]
  · rw [finished?_finish]
    simp only [Event.Yields, Spot.same_iff_key]
    grind

theorem ask (known : Option LiteralSet) : Told limit ⟨events ++ [.asked p known], v⟩ := by
  refine told.concat rfl rfl told.sound told.room (fun q => ?_) rfl fun q values => ?_
  · simp [Event.Enters, Event.Leaves]
  · simp [Event.Yields]

theorem enter_iff : (v.enter p.key).1 = true ↔ v.depth < limit ∧ ¬ Holds p (sinceFresh events) := by
  rw [← told.held p, ← told.kept]
  constructor
  · intro entered
    obtain ⟨below, absent, -⟩ := enter_true_iff.mp (Prod.ext entered rfl)
    exact ⟨below, absent⟩
  · rintro ⟨below, absent⟩
    rw [enter_of_allowed below absent]

theorem finished?_eq_none_iff : v.finished? p.key = none ↔
    ¬ ∃ e ∈ sinceFresh events, ∃ values, e.Yields p values := by
  rw [← exists_knows_iff, ← Option.not_isSome_iff_eq_none, Option.isSome_iff_exists]
  exact not_congr (exists_congr fun values => told.known p values)

omit told in
theorem initial {events : List Event} (nothing : sinceFresh events = []) :
    Told limit ⟨events, .start limit⟩ where
  kept := rfl
  sound := ⟨List.nodup_nil, rfl⟩
  room := Nat.zero_le _
  held q := by simp [nothing, Holds, not_since_nil, Visit.start]
  refusals := by simp [nothing, Visit.start]
  known q values := by simp [nothing, Knows, not_since_nil, Visit.start, finished?]

end Told

theorem Told.next {limit : Nat} {t : Traced} (told : Told limit t) (s : Step) : Told limit (t.next s) := by
  obtain ⟨events, v⟩ := t
  cases s with
  | enter p =>
    rcases entered : v.enter p.key with ⟨_ | _, w⟩
    · obtain ⟨-, rfl⟩ := enter_false_iff.mp entered
      simpa [Traced.next, step, entered] using told.refuse p
    · obtain ⟨below, absent, rfl⟩ := enter_true_iff.mp entered
      simpa [Traced.next, step, entered] using told.hold p below absent
  | leave p => exact told.leave p
  | finish p values => exact told.finish p values
  | finished p => exact told.ask p _
  | fresh =>
    have same : v.fresh = .start limit := congrArg Visit.start told.kept
    simpa [Traced.next, step, same] using Told.initial (sinceFresh_renewed events)

/-- A visit is as its trace tells, whatever the steps are. -/
theorem told_run (limit : Nat) (steps : List Step) : Told limit (Traced.run limit steps) :=
  List.foldlRecOn steps Traced.next (Told.initial (List.rtakeWhile_nil _)) fun _ told s _ => told.next s

end Visit

/-- **A visit is as its trace tells.**  After any steps in any order, a declaration is held exactly if it
was entered since the last fresh start and has not been left after the last time that it was.  The held
declarations are different, and the depth is their number, at most the limit; so leaving a held one takes
one off a depth that is not zero, and leaving another one does nothing.  A declaration is let in exactly
if the depth is below the limit and it is not held; one more refusal is all that changes otherwise.  The
refusals are counted since the last fresh start, and what is known about a declaration is what was last
said of it since then.  Declarations count as the same if the components of their paths and their bytes
are. -/
theorem visit_as_traced (limit : Nat) (steps : List Visit.Step) :
    let v := (Visit.Traced.run limit steps).visit
    let events := Visit.sinceFresh (Visit.Traced.run limit steps).events
    (∀ p : Spot, p.key ∈ v.held ↔ Visit.Holds p events) ∧
    (v.held.Nodup ∧ v.depth = v.held.length ∧ v.depth ≤ limit) ∧
    (∀ p : Spot, if p.key ∈ v.held then (v.leave p.key).depth + 1 = v.depth else v.leave p.key = v) ∧
    (∀ p : Spot, (v.enter p.key).1 = true ↔ v.depth < limit ∧ ¬ Visit.Holds p events) ∧
    (∀ p : Spot, (v.enter p.key).1 = true ∨
      v.enter p.key = (false, { v with refusals := v.refusals + 1 })) ∧
    v.refusals = events.countP Visit.Event.isRefusal ∧
    (∀ (p : Spot) values, v.finished? p.key = some values ↔ Visit.Knows p values events) ∧
    (∀ p : Spot, v.finished? p.key = none ↔ ¬ ∃ e ∈ events, ∃ values, e.Yields p values) ∧
    ∀ p q : Spot, p.key = q.key ↔
      p.file.components = q.file.components ∧ p.start = q.start ∧ p.stop = q.stop := by
  intro v events
  have told : Visit.Told limit (Visit.Traced.run limit steps) := Visit.told_run limit steps
  refine ⟨told.held, ⟨told.sound.nodup, told.sound.depth, told.room⟩, ?_, told.enter_iff, ?_, told.refusals,
    told.known, told.finished?_eq_none_iff, ?_⟩
  · intro p
    split
    · exact Visit.leave_depth_succ told.sound ‹_›
    · exact Visit.leave_of_not_mem ‹_›
  · intro p
    rcases entered : v.enter p.key with ⟨_ | _, w⟩
    · exact .inr (Prod.ext rfl (Visit.enter_false_iff.mp entered).2)
    · exact .inl rfl
  · intro p q
    rw [← Spot.same_iff_key]
    exact ⟨fun same => ⟨same.file, same.start, same.stop⟩, fun ⟨file, start, stop⟩ => ⟨file, start, stop⟩⟩

/-- With room for one declaration, the same one by another path is refused while it is held, leaving it twice
counts once, and then there is room again. -/
example :
    let p : Spot := ⟨⟨["p", "a.ts"]⟩, 0, 9⟩
    let q : Spot := ⟨⟨["p", "", "a.ts"]⟩, 0, 9⟩
    let r : Spot := ⟨⟨["p", "a.ts"]⟩, 10, 19⟩
    let v := (Visit.Traced.run 1 [.leave p, .enter p, .enter q, .leave q, .leave p, .enter r]).visit
    v.held = [r.key] ∧ v.depth = 1 ∧ v.refusals = 1 := by decide

end TemplateValues
