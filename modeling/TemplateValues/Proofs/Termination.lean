import Mathlib.Data.List.Basic
import TemplateValues.Oracle.Basic
import TemplateValues.Proofs.Rules
import TemplateValues.Proofs.VisitState

/-!
# Termination

Names may lead round in a circle, and then a visit refuses to go on, since a declaration that is held
is not entered again.  There is one way round the gates.  A type that is read off an array, as in
`(typeof X)[number]`, asks about the elements of the array and does not enter `X`; so an element whose
own type is read off the same array is asked about again, and so on without end.

`Circular` describes just these circles.  Nothing else keeps the rules from coming to an end: a goal
that comes to no circle is answered within the depth that `Values.depthBound` allows, from whatever
visit.  For this the goals are ranked.  Entering a declaration leaves room for one less to be held
(`room`).  Between two declarations that are entered, expressions and types are asked that lie lower
in a tree, or elements of an array; but then that array cannot be read off again (`jumps`).
-/

namespace TemplateValues

open Syntax

/-! ## Circles -/

def Goal.IsTerm : Goal → Prop
  | .expression .. | .type .. => True
  | _ => False

/-- The rule for the one expression or type asks about the other. -/
structure Passes (c : Codebase) (goal next : Goal) : Prop where
  term : goal.IsTerm
  nextTerm : next.IsTerm
  asks : (goal.inquiry c).MayAsk next

/-- Expressions and types, with no declaration entered between them, lead from the goal back to
itself. -/
def Circular (c : Codebase) (goal : Goal) : Prop := Relation.TransGen (Passes c) goal goal

/-- On the way to an answer, a goal is asked that expressions and types lead back to. -/
def ComesRound (c : Codebase) (goal : Goal) (v : Visit) : Prop :=
  ∃ y, AsksEventually Guard.visit c (goal, v) y ∧ Circular c y.1

section Circles

variable {c : Codebase}

theorem Circular.next {goal : Goal} (circular : Circular c goal) :
    ∃ next, Passes c goal next ∧ Circular c next := by
  obtain ⟨next, step, back⟩ := Relation.TransGen.head'_iff.mp circular
  exact ⟨next, step, .tail' back step⟩

theorem ComesRound.of_asks {x y : Goal × Visit} (asks : Asks Guard.visit c x y)
    (round : ComesRound c y.1 y.2) : ComesRound c x.1 x.2 := by
  obtain ⟨z, eventually, circular⟩ := round
  exact ⟨z, .head asks eventually, circular⟩

theorem Goal.IsTerm.gate {goal : Goal} (term : goal.IsTerm) : goal.gate = .free := by
  cases goal with
  | expression | type => rfl
  | _ => cases term

/-- Expressions and types are asked about whatever the answers before them are. -/
theorem Goal.IsTerm.listed {goal : Goal} (term : goal.IsTerm) : (goal.inquiry c).Listed := by
  cases goal with
  | expression s n => exact Inquiry.listed_expression n
  | type s n => exact Inquiry.listed_type n
  | _ => cases term

/-- No depth is enough for a circle. -/
theorem Circular.answer_ne_ok {σ : Type} {g : Guard σ} (depth : Nat) {goal : Goal}
    (circular : Circular c goal) (v : σ) (values : LiteralSet) (w : σ) :
    Values.answer g c depth goal v ≠ .ok (values, w) := by
  induction depth generalizing goal v values w with
  | zero => nofun
  | succ depth ih =>
    intro returned
    -- the next goal round the circle is asked in any case, so it would be answered one level down
    obtain ⟨next, step, circular⟩ := circular.next
    have gate := step.term.gate
    rcases answer_succ_ok_iff.mp returned with turned | ⟨u, u', -, run, -⟩
    · rw [gate] at turned
      cases turned
    · obtain ⟨goals, lists⟩ := step.term.listed (c := c)
      obtain ⟨x, values', y, answered⟩ := lists.answered run (lists.mem_of_mayAsk step.asks)
      exact ih circular x values' y answered

/-- Nothing that comes to a circle has an answer. -/
theorem ComesRound.not_returns {goal : Goal} {v : Visit} (round : ComesRound c goal v)
    (values : LiteralSet) (w : Visit) : ¬ Returns Guard.visit c goal v values w := by
  intro returned
  obtain ⟨y, eventually, circular⟩ := round
  obtain ⟨values', w', depth, answered⟩ := Returns.of_asksEventually eventually ⟨values, w, returned⟩
  exact circular.answer_ne_ok depth y.2 values' w' answered

end Circles

/-! ## Ranks -/

theorem countP_lt_countP {α : Type} {p q : α → Bool} {xs : List α} (implies : ∀ x, p x → q x) {x : α}
    (member : x ∈ xs) (gained : q x) (lost : ¬ p x) : xs.countP p < xs.countP q := by
  have twice : xs.filter p = (xs.filter q).filter p := by
    rw [List.filter_filter]
    refine List.filter_congr fun y _ => ?_
    cases holds : p y with
    | false => rfl
    | true => rw [implies y holds, Bool.and_self]
  rw [List.countP_eq_length_filter, List.countP_eq_length_filter, twice]
  exact List.length_filter_lt_length_iff_exists.mpr ⟨x, List.mem_filter.mpr ⟨member, gained⟩, lost⟩

def declared (sources : List Source) : List (Source × Declaration) :=
  sources.flatMap fun t => t.declarations.map fun d => (t, d)

theorem mem_declared {sources : List Source} {t : Source} {d : Declaration} (source : t ∈ sources)
    (member : d ∈ t.declarations) : (t, d) ∈ declared sources :=
  List.mem_flatMap.mpr ⟨t, source, List.mem_map.mpr ⟨d, member, rfl⟩⟩

def highest (sources : List Source) : Nat := (sources.map fun t => t.tree.height).foldl max 0

theorem height_le_highest {sources : List Source} {t : Source} (source : t ∈ sources) {n : Node}
    (inside : t.root.Under n) : n.tree.height ≤ highest sources := by
  refine Nat.le_trans inside.height_le ?_
  suffices bound : ∀ (hs : List Nat) (h : Nat), h ∈ hs → h ≤ hs.foldl max 0 by
    exact bound _ _ (List.mem_map.mpr ⟨t, source, rfl⟩)
  intro hs h member
  rw [List.foldl_max]
  have known : hs.max? = some (hs.max (List.ne_nil_of_mem member)) := List.max?_eq_some_max _
  rw [known]
  exact Nat.le_trans (List.le_max_of_mem member) (Nat.le_max_right _ _)

/-- How many more of the declarations can be held. -/
def room (sources : List Source) (v : Visit) : Nat :=
  min (v.limit - v.depth) ((declared sources).countP fun p => p.2.key p.1 ∉ v.held)

theorem room_of_extends (sources : List Source) {v w : Visit} (extends' : v.Extends w) :
    room sources w = room sources v := by
  rw [room, extends'.limit, extends'.depth, extends'.held, room]

theorem room_hold_lt {sources : List Source} {v : Visit} {t : Source} {d : Declaration}
    (source : t ∈ sources) (member : d ∈ t.declarations) (below : v.depth < v.limit)
    (absent : d.key t ∉ v.held) : room sources (v.hold (d.key t)) < room sources v := by
  have fewer : (declared sources).countP (fun p => p.2.key p.1 ∉ (v.hold (d.key t)).held) <
      (declared sources).countP fun p => p.2.key p.1 ∉ v.held := by
    refine countP_lt_countP (fun p unheld => ?_) (mem_declared source member) ?_ ?_
    · simp only [decide_eq_true_eq] at unheld ⊢
      exact fun held => unheld (List.mem_cons_of_mem _ held)
    · exact decide_eq_true absent
    · simp [Visit.hold]
  have lower : (v.hold (d.key t)).limit - (v.hold (d.key t)).depth < v.limit - v.depth := by
    change v.limit - (v.depth + 1) < v.limit - v.depth
    omega
  unfold room
  omega

section Jumps

open Classical

variable {c : Codebase} {sources : List Source}

/-- The goal asks about the elements of the array that the declaration is given. -/
def ReadsOff (c : Codebase) (goal : Goal) (p : Source × Declaration) : Prop :=
  ∃ array, p.1.arrayOf? p.2 = some array ∧
    goal.inquiry c = Values.elements Inquiry.one p.1 array

/-- Expressions and types lead from the goal to one that is read off the array of the declaration. -/
def LeadsTo (c : Codebase) (goal : Goal) (p : Source × Declaration) : Prop :=
  ∃ far, Relation.ReflTransGen (Passes c) goal far ∧ ReadsOff c far p

/-- How many of the declarations have arrays that can still be read off. -/
noncomputable def jumps (c : Codebase) (sources : List Source) (goal : Goal) : Nat :=
  (declared sources).countP fun p => LeadsTo c goal p

theorem jumps_le (goal : Goal) : jumps c sources goal ≤ (declared sources).length :=
  List.countP_le_length

theorem LeadsTo.of_passes {goal next : Goal} (passes : Passes c goal next) {p : Source × Declaration}
    (leads : LeadsTo c next p) : LeadsTo c goal p := by
  obtain ⟨far, way, reads⟩ := leads
  exact ⟨far, .head passes way, reads⟩

theorem jumps_le_of_passes (sources : List Source) {goal next : Goal} (passes : Passes c goal next) :
    jumps c sources next ≤ jumps c sources goal := by
  refine List.countP_mono_left fun p _ leads => ?_
  exact decide_eq_true ((of_decide_eq_true leads).of_passes passes)

theorem Goal.IsTerm.of_passes {goal far : Goal} (term : goal.IsTerm)
    (way : Relation.ReflTransGen (Passes c) goal far) : far.IsTerm := by
  cases way with
  | refl => exact term
  | tail _ step => exact step.nextTerm

/-- Once an element of an array is asked about, the array is not read off again, unless in a
circle. -/
theorem jumps_lt_of_element {goal : Goal} {t : Source} {d : Declaration} {array e : Node}
    (source : t ∈ sources) (declared' : d ∈ t.declarations) (found : t.arrayOf? d = some array)
    (reads : goal.inquiry c = Values.elements Inquiry.one t array)
    (passes : Passes c goal (.expression t e)) (round : ¬ Circular c (.expression t e)) :
    jumps c sources (.expression t e) < jumps c sources goal := by
  refine countP_lt_countP (fun p leads => ?_) (mem_declared source declared') ?_ ?_
  · exact decide_eq_true ((of_decide_eq_true leads).of_passes passes)
  · exact decide_eq_true ⟨goal, .refl, array, found, reads⟩
  · intro leads
    obtain ⟨far, way, array', found', reads'⟩ := of_decide_eq_true leads
    cases found.symm.trans found'
    -- what is read off the same array asks about the element again
    have again : Passes c far (.expression t e) :=
      ⟨passes.nextTerm.of_passes way, passes.nextTerm, reads'.trans reads.symm ▸ passes.asks⟩
    exact round (.tail' way again)

def Goal.height : Goal → Nat
  | .expression _ n | .type _ n => n.tree.height
  | _ => 0

/-- Expressions and types lead down a tree, except for types that are read off an array. -/
theorem Passes.height_lt_or_readsOff {goal next : Goal} (passes : Passes c goal next) :
    next.height < goal.height ∨ ∃ p, ReadsOff c goal p := by
  obtain ⟨term, nextTerm, may⟩ := passes
  have cases' : ∀ {s n}, TermAsks c s n (goal.inquiry c) next →
      next.height < n.tree.height ∨ ∃ p, ReadsOff c goal p := by
    intro s n asks
    cases asks with
    | expression below | type below => exact .inl below.height_lt
    | element _ found reads => exact .inr ⟨(_, _), _, found, reads⟩
    | declaration | keys | chain => cases nextTerm
  cases goal with
  | expression s n => exact cases' ((Inquiry.only_expression n).mayAsk may)
  | type s n => exact cases' ((Inquiry.only_type n).mayAsk may)
  | _ => cases term

/-- A circle leads through a type that is read off an array. -/
theorem Circular.leadsTo {goal : Goal} (circular : Circular c goal) : ∃ p, LeadsTo c goal p := by
  by_contra nowhere
  have down : ∀ far, Relation.TransGen (Passes c) goal far → far.height < goal.height := by
    intro far way
    induction way with
    | single step =>
      refine step.height_lt_or_readsOff.resolve_right ?_
      rintro ⟨p, reads⟩
      exact nowhere ⟨p, goal, .refl, reads⟩
    | tail before step ih =>
      refine Nat.lt_trans (step.height_lt_or_readsOff.resolve_right ?_) ih
      rintro ⟨p, reads⟩
      exact nowhere ⟨p, _, before.to_reflTransGen, reads⟩
  exact Nat.lt_irrefl _ (down goal circular)

end Jumps

section Weights

variable {c : Codebase} {sources : List Source}

def heaviest (sources : List Source) : Nat :=
  ((declared sources).length + 2) * highest sources + 2

/-- What a goal adds to the room that is left.  An array that can still be read off weighs as much as
a whole tree, and a member chain as much as all arrays. -/
noncomputable def weight (c : Codebase) (sources : List Source) : Goal → Nat
  | .declaration .. | .keys .. => 1
  | .chain .. => 2
  | .expression s n => 2 + jumps c sources (.expression s n) * highest sources + n.tree.height
  | .type s n => 2 + jumps c sources (.type s n) * highest sources + n.tree.height
  | .expressionMember _ n _ | .typeMember _ n _ =>
    2 + ((declared sources).length + 1) * highest sources + n.tree.height

theorem term_weight_le (c : Codebase) (goal : Goal) {s : Source} {n : Node} (source : s ∈ sources)
    (inside : s.root.Under n) :
    2 + jumps c sources goal * highest sources + n.tree.height ≤
      2 + ((declared sources).length + 1) * highest sources := by
  have arrays : jumps c sources goal * highest sources ≤ (declared sources).length * highest sources :=
    Nat.mul_le_mul_right _ (jumps_le goal)
  have tree := height_le_highest source inside
  rw [Nat.add_mul, Nat.one_mul]
  omega

theorem weight_le {goal : Goal} (within : goal.Within sources) :
    weight c sources goal ≤ heaviest sources := by
  have split : heaviest sources =
      2 + ((declared sources).length + 1) * highest sources + highest sources := by
    rw [heaviest, Nat.add_mul, Nat.add_mul]
    omega
  rw [split]
  match goal, within with
  | .declaration .., _ | .keys .., _ | .chain .., _ => simp only [weight]; omega
  | .expression s n, ⟨source, inside⟩ | .type s n, ⟨source, inside⟩ =>
    exact Nat.le_trans (term_weight_le c _ source inside) (Nat.le_add_right _ _)
  | .expressionMember s n _, ⟨source, inside, _⟩ | .typeMember s n _, ⟨source, inside, _⟩ =>
    exact Nat.add_le_add_left (height_le_highest source inside) _

theorem height_pos (n : Node) : 0 < n.tree.height := by
  rcases n with ⟨⟨k, f, s, e, cs⟩, above⟩
  exact Nat.succ_pos _

/-- An expression or a type weighs more than what its rule asks, unless in a circle. -/
theorem weight_lt_of_termAsks (all : c.sources ⊆ sources) {s : Source} {n : Node} {goal next : Goal}
    (source : s ∈ sources) (term : goal.IsTerm) (asks : TermAsks c s n (goal.inquiry c) next)
    (may : (goal.inquiry c).MayAsk next) (round : ¬ Circular c next) :
    weight c sources next < 2 + jumps c sources goal * highest sources + n.tree.height := by
  cases asks with
  | expression below | type below =>
    have passes : Passes c goal _ := ⟨term, by trivial, may⟩
    have fewer := Nat.mul_le_mul_right (highest sources) (jumps_le_of_passes sources passes)
    have lower := below.height_lt
    simp only [weight]
    omega
  | element provides found reads member =>
    obtain ⟨source', declared'⟩ := provides.within all source
    have passes : Passes c goal _ := ⟨term, by trivial, may⟩
    have fewer := jumps_lt_of_element source' declared' found reads passes round
    have paid := Nat.mul_le_mul_right (highest sources) (Nat.succ_le_of_lt fewer)
    rw [Nat.succ_mul] at paid
    have tree := height_le_highest source'
      ((Source.under_of_unwrapped provides.under found).trans (Node.below_of_mem_content member).under)
    have positive := height_pos n
    simp only [weight]
    omega
  | declaration | keys | chain =>
    have positive := height_pos n
    simp only [weight]
    omega

/-- A member chain weighs more than what its rule asks. -/
theorem weight_lt_of_memberAsks {s : Source} {n : Node} {next : Goal} (source : s ∈ sources)
    (inside : s.root.Under n) (asks : MemberAsks c s n next) :
    weight c sources next <
      2 + ((declared sources).length + 1) * highest sources + n.tree.height := by
  have positive := height_pos n
  cases asks with
  | expression below | type below =>
    refine Nat.lt_of_le_of_lt (term_weight_le c _ source (inside.trans below.under)) ?_
    exact Nat.lt_add_of_pos_right positive
  | expressionMember below | typeMember below => exact Nat.add_lt_add_left below.height_lt _
  | chain =>
    simp only [weight]
    omega

/-- A rule that asks without entering a declaration asks goals that weigh less. -/
theorem weight_lt_of_free (all : c.sources ⊆ sources) {goal next : Goal}
    (within : goal.Within sources) (free : goal.gate = .free) (may : (goal.inquiry c).MayAsk next)
    (round : ¬ Circular c next) : weight c sources next < weight c sources goal := by
  match goal, within with
  | .declaration s d, _ | .chain s d (_ :: _), _ => cases free
  | .keys s d, _ =>
    -- only the keys of a variable ask anything, and then the variable is entered
    unfold Goal.inquiry at may
    unfold Goal.gate at free
    cases kind : d.kind <;> simp only [kind, reduceCtorEq, ↓reduceIte] at free may <;> cases may
  | .chain s d [], _ =>
    rcases may with rfl | ⟨_, may⟩
    · exact Nat.lt_succ_self 1
    · cases may
  | .expression s n, ⟨source, _⟩ =>
    exact weight_lt_of_termAsks all source trivial ((Inquiry.only_expression n).mayAsk may) may round
  | .type s n, ⟨source, _⟩ =>
    exact weight_lt_of_termAsks all source trivial ((Inquiry.only_type n).mayAsk may) may round
  | .expressionMember s n [], ⟨_, _, more⟩ | .typeMember s n [], ⟨_, _, more⟩ => exact absurd rfl more
  | .expressionMember s n (name :: rest), ⟨source, inside, _⟩ =>
    exact weight_lt_of_memberAsks source inside ((Inquiry.only_expressionMember n name rest).mayAsk may)
  | .typeMember s n (name :: rest), ⟨source, inside, _⟩ =>
    exact weight_lt_of_memberAsks source inside ((Inquiry.only_typeMember n name rest).mayAsk may)

theorem weight_pos (goal : Goal) : 0 < weight c sources goal := by
  cases goal <;> simp only [weight] <;> omega

/-- What a key that a gate holds stands for. -/
theorem Goal.Within.gate {goal : Goal} (within : goal.Within sources) {k : Key}
    (gate : goal.gate = .held k ∨ goal.gate = .remembered k) :
    ∃ t d, t ∈ sources ∧ d ∈ t.declarations ∧ k = d.key t := by
  match goal, within with
  | .declaration t d, ⟨source, member⟩ | .chain t d (_ :: _), ⟨source, member⟩ =>
    rcases gate with gate | gate <;> cases gate
    exact ⟨t, d, source, member, rfl⟩
  | .keys t d, ⟨source, member⟩ =>
    simp only [Goal.gate] at gate
    split at gate
    · rcases gate with gate | gate <;> cases gate
      exact ⟨t, d, source, member, rfl⟩
    · rcases gate with gate | gate <;> cases gate
  | .chain _ _ [], _ | .expression .., _ | .type .., _ | .expressionMember .., _
  | .typeMember .., _ => rcases gate with gate | gate <;> cases gate

noncomputable def rank (c : Codebase) (sources : List Source) (goal : Goal) (v : Visit) : Nat :=
  room sources v * heaviest sources + weight c sources goal

theorem rank_le {goal : Goal} (within : goal.Within sources) (v : Visit) :
    rank c sources goal v ≤ (room sources v + 1) * heaviest sources := by
  rw [Nat.succ_mul]
  exact Nat.add_le_add_left (weight_le within) _

/-- A goal ranks above what its rule asks, unless in a circle. -/
theorem rank_lt (all : c.sources ⊆ sources) {goal next : Goal} {v u w : Visit}
    (within : goal.Within sources) (opened : Guard.visit.Opens goal.gate v u)
    (between : u.Extends w) (may : (goal.inquiry c).MayAsk next) (round : ¬ Circular c next) :
    rank c sources next w < rank c sources goal v := by
  have nextWithin : next.Within sources := (within.inquiry all).mayAsk may
  rcases visit_opens opened with ⟨free, rfl⟩ | ⟨k, gate, below, absent, rfl⟩
  · rw [rank, room_of_extends sources between]
    exact Nat.add_lt_add_left (weight_lt_of_free all within free may round) _
  · obtain ⟨t, d, source, member, rfl⟩ := within.gate (gate.imp_right And.left)
    -- one place less to hold a declaration pays for the heaviest goal
    have less := room_hold_lt source member below absent
    rw [← room_of_extends sources between] at less
    calc rank c sources next w
      _ ≤ (room sources w + 1) * heaviest sources := rank_le nextWithin w
      _ ≤ room sources v * heaviest sources := Nat.mul_le_mul_right _ less
      _ < rank c sources goal v := Nat.lt_add_of_pos_right (weight_pos goal)

end Weights

/-! ## Answers within the bound -/

namespace Inquiry

variable {α σ : Type} {R S : Goal → σ → LiteralSet → σ → Prop} {P : Goal → Prop}

/-- An inquiry comes to an end if all that it comes to ask is answered. -/
theorem Only.exists_run {q : Inquiry α} (only : q.Only P)
    (implies : ∀ goal v values w, R goal v values w → S goal v values w) {v : σ}
    (answers : ∀ goal u, q.AsksAt S v goal u → ∃ values u', R goal u values u') :
    ∃ a w, q.Run R v a w := by
  induction q generalizing v with
  | done a => exact ⟨a, v, .done⟩
  | ask goal next ih =>
    obtain ⟨values, u, answered⟩ := answers goal v .now
    obtain ⟨a, w, rest⟩ := ih values (only.2 values) fun later x asks =>
      answers later x (.later (implies _ _ _ _ answered) asks)
    exact ⟨a, w, .ask answered rest⟩
  | halt h => exact only.elim

/-- An inquiry halts only where the answer to a goal does. -/
theorem Only.halts {ask : Ask σ} {h : Halt} {q : Inquiry α} (only : q.Only P)
    (answers : ∀ goal v h', P goal → ask goal v = .error h' → h' = h) {v : σ} {h' : Halt}
    (halted : q.run ask v = .error h') : h' = h := by
  induction q generalizing v with
  | done a => cases halted
  | ask goal next ih =>
    simp only [Inquiry.run, bind, StateT.bind, Except.bind] at halted
    cases answered : ask goal v with
    | error h'' =>
      rw [answered] at halted
      cases halted
      exact answers goal v h' only.1 answered
    | ok result =>
      rw [answered] at halted
      exact ih _ (only.2 _) halted
  | halt h'' => exact only.elim

end Inquiry

section Bound

variable {c : Codebase} {sources : List Source}

/-- Nothing but the depth keeps a goal from being answered. -/
theorem halt_eq_depth (all : c.sources ⊆ sources) (depth : Nat) {goal : Goal}
    (within : goal.Within sources) {v : Visit} {h : Halt}
    (halted : Values.answer Guard.visit c depth goal v = .error h) : h = .depth := by
  induction depth generalizing goal v h with
  | zero =>
    cases halted
    rfl
  | succ depth ih =>
    rw [Values.answer, rule_eq_through] at halted
    rcases Guard.turns_or_opens (g := Guard.visit) goal.gate v with ⟨values, w, turned⟩ | ⟨u, opened⟩
    · rw [Guard.through_of_turns turned] at halted
      cases halted
    · rw [Guard.through_of_opens opened] at halted
      cases run : (goal.inquiry c).run (Values.answer Guard.visit c depth) u with
      | error h' =>
        rw [run] at halted
        cases halted
        exact (within.inquiry all).halts (fun _ _ _ within halted => ih within halted) run
      | ok result =>
        rw [run] at halted
        cases halted

/-- A goal that comes to no circle is answered at every depth above its rank. -/
theorem answer_ok_of_rank_lt (all : c.sources ⊆ sources) (depth : Nat) {goal : Goal} {v : Visit}
    (within : goal.Within sources) (round : ¬ ComesRound c goal v)
    (deep : rank c sources goal v < depth) :
    ∃ values w, Values.answer Guard.visit c depth goal v = .ok (values, w) := by
  induction depth generalizing goal v with
  | zero => cases deep
  | succ depth ih =>
    rcases Guard.turns_or_opens (g := Guard.visit) goal.gate v with ⟨values, w, turned⟩ | ⟨u, opened⟩
    · exact ⟨values, w, answer_succ_ok_iff.mpr (.inl turned)⟩
    · have only := within.inquiry all
      have answers : ∀ next w, (goal.inquiry c).AsksAt (Returns Guard.visit c) u next w →
          ∃ values w', Values.answer Guard.visit c depth next w = .ok (values, w') := by
        intro next w asks
        -- what the rule asks ranks lower, and comes to no circle either
        have asked : Asks Guard.visit c (goal, v) (next, w) := ⟨u, opened, asks⟩
        have nextRound : ¬ ComesRound c next w := fun again => round (again.of_asks asked)
        have notCircular : ¬ Circular c next := fun circular => nextRound ⟨_, .refl, circular⟩
        have lower := rank_lt all within opened asks.extends asks.mayAsk notCircular
        exact ih (only.mayAsk asks.mayAsk) nextRound (by omega)
      obtain ⟨values, u', run⟩ := only.exists_run (fun _ _ _ _ answered => ⟨depth, answered⟩) answers
      exact ⟨values, _, answer_succ_ok_iff.mpr (.inr ⟨u, u', opened, run, rfl⟩)⟩

theorem length_declared (sources : List Source) :
    (declared sources).length = (sources.map Values.declarationCount).foldl (· + ·) 0 := by
  rw [← List.sum_eq_foldl, declared, List.length_flatMap]
  congr 1
  refine List.map_congr_left fun t _ => ?_
  rw [List.length_map, Source.declarations, List.length_filterMap_eq_countP,
    List.countP_eq_length_filter, Values.declarationCount]

theorem rank_lt_depthBound {s : Source} {goal : Goal} (within : goal.Within (s :: c.sources))
    (v : Visit) : rank c (s :: c.sources) goal v < Values.depthBound c s v.limit := by
  have room_le : room (s :: c.sources) v ≤ min v.limit (declared (s :: c.sources)).length := by
    have fewer : (declared (s :: c.sources)).countP (fun p => p.2.key p.1 ∉ v.held) ≤
      (declared (s :: c.sources)).length := List.countP_le_length
    unfold room
    omega
  have bound : Values.depthBound c s v.limit =
      (min v.limit (declared (s :: c.sources)).length + 2) *
        ((declared (s :: c.sources)).length + 3) * (highest (s :: c.sources) + 4) := by
    rw [length_declared]
    rfl
  refine Nat.lt_of_le_of_lt (rank_le within v) ?_
  rw [bound, heaviest]
  generalize (declared (s :: c.sources)).length = count at room_le ⊢
  generalize highest (s :: c.sources) = height
  generalize min v.limit count = most at room_le ⊢
  have lap : (count + 2) * height + 2 ≤ (count + 3) * (height + 4) := by
    have wider : (count + 2) * height ≤ (count + 3) * height :=
      Nat.mul_le_mul_right height (Nat.le_succ _)
    rw [Nat.mul_add]
    omega
  calc (room (s :: c.sources) v + 1) * ((count + 2) * height + 2)
    _ ≤ (most + 1) * ((count + 3) * (height + 4)) := Nat.mul_le_mul (Nat.succ_le_succ room_le) lap
    _ < (most + 2) * ((count + 3) * (height + 4)) :=
      Nat.mul_lt_mul_of_pos_right (Nat.lt_succ_self _) (Nat.mul_pos (by omega) (by omega))
    _ = (most + 2) * (count + 3) * (height + 4) := (Nat.mul_assoc _ _ _).symm

end Bound

/-! ## An array that is read off itself -/

namespace ReadOffItself

/-- The type `(typeof X)[number]` in `const X = [y as (typeof X)[number]];`. -/
def readOff : Tree :=
  .node .lookupType none 16 34
    [.node .parenthesizedType none 16 26
        [.node (.token "(") none 16 17 [],
          .node .typeQuery none 17 25
            [.node (.token "typeof") none 17 23 [], .node .identifier none 24 25 []],
          .node (.token ")") none 25 26 []],
      .node (.token "[") none 26 27 [],
      .node .predefinedType none 27 33 [.node (.token "number") none 27 33 []],
      .node (.token "]") none 33 34 []]

def element : Tree :=
  .node .asExpression none 11 34
    [.node .identifier none 11 12 [], .node (.token "as") none 13 15 [], readOff]

def array : Tree :=
  .node .array (some .value) 10 35
    [.node (.token "[") none 10 11 [], element, .node (.token "]") none 34 35 []]

def declarator : Tree :=
  .node .variableDeclarator none 6 35
    [.node .identifier (some .name) 6 7 [], .node (.token "=") none 8 9 [], array]

def statement : Tree :=
  .node .lexicalDeclaration none 0 36
    [.node (.token "const") (some .kind) 0 5 [], declarator, .node (.token ";") none 35 36 []]

def source : Source where
  path := ⟨["", "a.ts"]⟩
  language := .typescript
  text := "const X = [y as (typeof X)[number]];"
  tree := .node .program none 0 36 [statement]

def codebase : Codebase := ⟨⟨[], []⟩, [source], .relativeOnly, 8⟩

def declaration : Declaration where
  kind := .binding
  node := ⟨declarator, [(statement, 1), (source.tree, 0)]⟩
  name := ⟨.node .identifier (some .name) 6 7 [], [(declarator, 0), (statement, 1), (source.tree, 0)]⟩

def elementNode : Node :=
  ⟨element, [(array, 1), (declarator, 2), (statement, 1), (source.tree, 0)]⟩

theorem circular : Circular codebase (.expression source elementNode) := by
  have down : Passes codebase (.expression source elementNode)
      (.type source ⟨readOff, (element, 2) :: elementNode.above⟩) := ⟨trivial, trivial, .inl rfl⟩
  have back : Passes codebase (.type source ⟨readOff, (element, 2) :: elementNode.above⟩)
      (.expression source elementNode) := ⟨trivial, trivial, .inl rfl⟩
  exact .tail (.single down) back

/-- The declaration of `X` asks about the array, and the array about its element. -/
theorem comesRound : ComesRound codebase (.declaration source declaration) (.start 48) := by
  have first : Asks Guard.visit codebase (.declaration source declaration, .start 48)
      (.expression source ⟨array, elementNode.above.tail⟩,
        (Visit.start 48).hold (declaration.key source)) :=
    ⟨_, .remembered rfl rfl, .now⟩
  have second : Asks Guard.visit codebase
      (.expression source ⟨array, elementNode.above.tail⟩,
        (Visit.start 48).hold (declaration.key source))
      (.expression source elementNode, (Visit.start 48).hold (declaration.key source)) :=
    ⟨_, .free, .now⟩
  exact ⟨_, .tail (.single first) second, circular⟩

end ReadOffItself

/-! ## The main statement -/

/-- **When questions come to an end.**  A goal about the source `s` or the codebase is answered, within
the depth that the sizes of the sources and the limit of the visit allow, if and only if it does not
come to a circle of expressions and types.  If it does, no depth is enough.  All such circles lead
through a type that is read off an array. -/
theorem answered_iff_not_comesRound (c : Codebase) (s : Source) {goal : Goal}
    (within : goal.Within (s :: c.sources)) (v : Visit) :
    ((∃ values w, Values.answerIn c s v.limit goal v = .ok (values, w)) ↔ ¬ ComesRound c goal v) ∧
    (ComesRound c goal v → ∀ depth, Values.answer Guard.visit c depth goal v = .error .depth) ∧
    ∀ circle, Circular c circle → ∃ p, LeadsTo c circle p := by
  have all : c.sources ⊆ s :: c.sources := List.subset_cons_self s c.sources
  refine ⟨⟨?_, ?_⟩, ?_, fun _ => Circular.leadsTo⟩
  · rintro ⟨values, w, answered⟩ round
    exact round.not_returns values w ⟨_, answered⟩
  · intro round
    exact answer_ok_of_rank_lt all _ within round (rank_lt_depthBound within v)
  · intro round depth
    cases answered : Values.answer Guard.visit c depth goal v with
    | ok result => exact absurd ⟨depth, answered⟩ (round.not_returns result.1 result.2)
    | error h => rw [halt_eq_depth all depth within answered]

/-- The values of `A` in `type A = 'x' | B; type B = 'y';` are found within the bound. -/
theorem sample_answered_iff :
    (Goal.declaration Sample.source Sample.outerDeclaration).Within
      (Sample.source :: Sample.codebase.sources) ∧
    (∃ values w, Values.answerIn Sample.codebase Sample.source 48
      (.declaration Sample.source Sample.outerDeclaration) (.start 48) = .ok (values, w)) ∧
    ¬ ComesRound Sample.codebase (.declaration Sample.source Sample.outerDeclaration) (.start 48) := by
  have within : (Goal.declaration Sample.source Sample.outerDeclaration).Within
      (Sample.source :: Sample.codebase.sources) := ⟨List.mem_cons_self, List.mem_cons_self⟩
  have answered : ∃ values w, Values.answerIn Sample.codebase Sample.source 48
      (.declaration Sample.source Sample.outerDeclaration) (.start 48) = .ok (values, w) :=
    ⟨_, _, rfl⟩
  refine ⟨within, answered, ?_⟩
  exact (answered_iff_not_comesRound Sample.codebase Sample.source within (.start 48)).1.mp answered

/-- The variable in `const X = [y as (typeof X)[number]];` has no answer at any depth. -/
theorem array_read_off_itself_not_answered :
    ReadOffItself.declaration ∈ ReadOffItself.source.declarations ∧
    ¬ ∃ depth values w, Values.answer Guard.visit ReadOffItself.codebase depth
      (.declaration ReadOffItself.source ReadOffItself.declaration) (.start 48) = .ok (values, w) := by
  refine ⟨List.mem_singleton.mpr rfl, ?_⟩
  rintro ⟨depth, values, w, answered⟩
  exact ReadOffItself.comesRound.not_returns values w ⟨depth, answered⟩

end TemplateValues
