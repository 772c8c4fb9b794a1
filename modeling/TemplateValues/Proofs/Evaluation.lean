import Mathlib.Logic.Relation
import TemplateValues.Proofs.Inquiry

/-!
# The evaluation of goals

The rule for a goal is an inquiry behind a *gate*: some goals are asked freely, some hold a key while
they are answered, and some remember their answer as well (`rule_eq_through`).  A gate either turns
the question away, with an answer that is known or with none, or it opens, and then it is closed again
behind the answer.

`Returns` says that a goal has an answer at some depth.  It is functional (`Returns.unique`), and it
is what the rules say it is (`returns_iff`), so that facts about all answers are proved by one
induction (`Returns.induct`).  `Asks` and `Occurs` say which goals are asked and which states occur on
the way, whether an answer is ever found or not.
-/

namespace TemplateValues

variable {σ α : Type}

/-! ## Gates -/

/-- How the question for a goal is guarded. -/
inductive Gate where
  | free
  | held (k : Key)
  | remembered (k : Key)

namespace Guard

variable (g : Guard σ)

def through : Gate → Eval σ LiteralSet → Eval σ LiteralSet
  | .free, compute => compute
  | .held k, compute => g.holding k compute
  | .remembered k, compute => g.remembering k compute

/-- The gate turns the question away with an answer. -/
inductive Turns : Gate → σ → LiteralSet → σ → Prop where
  | known {k v values} : g.known? k v = some values → Turns (.remembered k) v values v
  | unheld {k v w} : g.enter k v = (false, w) → Turns (.held k) v .empty w
  | unentered {k v w} : g.known? k v = none → g.enter k v = (false, w) →
      Turns (.remembered k) v .empty w

inductive Opens : Gate → σ → σ → Prop where
  | free {v} : Opens .free v v
  | held {k v u} : g.enter k v = (true, u) → Opens (.held k) v u
  | remembered {k v u} : g.known? k v = none → g.enter k v = (true, u) → Opens (.remembered k) v u

def close : Gate → (entered : σ) → LiteralSet → σ → σ
  | .free, _, _, v => v
  | .held k, _, _, v => g.leave k v
  | .remembered k, entered, values, v => g.settle k entered values v

variable {g}

theorem holding_of_refused {k : Key} {v w : σ} (refused : g.enter k v = (false, w))
    (compute : Eval σ LiteralSet) : g.holding k compute v = .ok (.empty, w) := by
  simp only [holding, bind, StateT.bind, Except.bind, modifyGet, MonadStateOf.modifyGet,
    StateT.modifyGet, pure, Except.pure, refused]
  rfl

theorem holding_of_entered {k : Key} {v u : σ} (entered : g.enter k v = (true, u))
    (compute : Eval σ LiteralSet) :
    g.holding k compute v = (compute u).map fun (values, u') => (values, g.leave k u') := by
  simp only [holding, bind, StateT.bind, Except.bind, modifyGet, MonadStateOf.modifyGet,
    StateT.modifyGet, pure, Except.pure, entered, ↓reduceIte]
  cases compute u <;> rfl

theorem remembering_of_known {k : Key} {v : σ} {values : LiteralSet}
    (known : g.known? k v = some values) (compute : Eval σ LiteralSet) :
    g.remembering k compute v = .ok (values, v) := by
  simp only [remembering, bind, StateT.bind, Except.bind, get, getThe, MonadStateOf.get, StateT.get,
    pure, Except.pure, known]
  rfl

theorem remembering_of_refused {k : Key} {v w : σ} (unknown : g.known? k v = none)
    (refused : g.enter k v = (false, w)) (compute : Eval σ LiteralSet) :
    g.remembering k compute v = .ok (.empty, w) := by
  simp only [remembering, bind, StateT.bind, Except.bind, get, getThe, MonadStateOf.get, StateT.get,
    modifyGet, MonadStateOf.modifyGet, StateT.modifyGet, pure, Except.pure, unknown, refused]
  rfl

theorem remembering_of_entered {k : Key} {v u : σ} (unknown : g.known? k v = none)
    (entered : g.enter k v = (true, u)) (compute : Eval σ LiteralSet) :
    g.remembering k compute v =
      (compute u).map fun (values, u') => (values, g.settle k u values u') := by
  simp only [remembering, bind, StateT.bind, Except.bind, get, getThe, MonadStateOf.get, StateT.get,
    modifyGet, MonadStateOf.modifyGet, StateT.modifyGet, pure, Except.pure, unknown, entered,
    ↓reduceIte]
  cases compute u <;> rfl

theorem through_of_turns {gate : Gate} {v w : σ} {values : LiteralSet}
    (turned : g.Turns gate v values w) (compute : Eval σ LiteralSet) :
    g.through gate compute v = .ok (values, w) := by
  cases turned with
  | known known => exact remembering_of_known known compute
  | unheld refused => exact holding_of_refused refused compute
  | unentered unknown refused => exact remembering_of_refused unknown refused compute

theorem through_of_opens {gate : Gate} {v u : σ} (opened : g.Opens gate v u)
    (compute : Eval σ LiteralSet) :
    g.through gate compute v =
      (compute u).map fun (values, u') => (values, g.close gate u values u') := by
  cases opened with
  | free =>
    change compute v = _
    cases compute v <;> rfl
  | held entered => exact holding_of_entered entered compute
  | remembered unknown entered => exact remembering_of_entered unknown entered compute

/-- A gate turns every question away or opens. -/
theorem turns_or_opens (gate : Gate) (v : σ) :
    (∃ values w, g.Turns gate v values w) ∨ ∃ u, g.Opens gate v u := by
  cases gate with
  | free => exact .inr ⟨v, .free⟩
  | held k =>
    rcases entered : g.enter k v with ⟨_ | _, u⟩
    · exact .inl ⟨_, u, .unheld entered⟩
    · exact .inr ⟨u, .held entered⟩
  | remembered k =>
    cases known : g.known? k v with
    | some values => exact .inl ⟨values, v, .known known⟩
    | none =>
      rcases entered : g.enter k v with ⟨_ | _, u⟩
      · exact .inl ⟨_, u, .unentered known entered⟩
      · exact .inr ⟨u, .remembered known entered⟩

theorem Opens.unique {gate : Gate} {v u u' : σ} (first : g.Opens gate v u)
    (second : g.Opens gate v u') : u = u' := by
  cases first with
  | free => cases second; rfl
  | held entered =>
    cases second with
    | held entered' =>
      rw [entered] at entered'
      cases entered'
      rfl
  | remembered _ entered =>
    cases second with
    | remembered _ entered' =>
      rw [entered] at entered'
      cases entered'
      rfl

theorem Turns.not_opens {gate : Gate} {v u w : σ} {values : LiteralSet}
    (turned : g.Turns gate v values w) : ¬ g.Opens gate v u := by
  intro opened
  cases turned with
  | known known =>
    cases opened with
    | remembered unknown _ => rw [known] at unknown; cases unknown
  | unheld refused =>
    cases opened with
    | held entered => rw [refused] at entered; cases entered
  | unentered _ refused =>
    cases opened with
    | remembered _ entered => rw [refused] at entered; cases entered

/-- A computation behind a gate has an answer if the gate has one or the computation does. -/
theorem through_ok_iff {gate : Gate} {compute : Eval σ LiteralSet} {v w : σ} {values : LiteralSet} :
    g.through gate compute v = .ok (values, w) ↔
      g.Turns gate v values w ∨
        ∃ u u', g.Opens gate v u ∧ compute u = .ok (values, u') ∧ w = g.close gate u values u' := by
  constructor
  · intro returned
    rcases turns_or_opens gate v with ⟨values', w', turned⟩ | ⟨u, opened⟩
    · rw [through_of_turns turned] at returned
      cases returned
      exact .inl turned
    · rw [through_of_opens opened] at returned
      cases computed : compute u with
      | error halt => rw [computed] at returned; cases returned
      | ok result =>
        rw [computed] at returned
        cases returned
        exact .inr ⟨u, _, opened, computed, rfl⟩
  · rintro (turned | ⟨u, u', opened, computed, rfl⟩)
    · exact through_of_turns turned compute
    · rw [through_of_opens opened, computed]
      rfl

end Guard

/-! ## Rules as inquiries behind gates -/

namespace Goal

open Values

def gate : Goal → Gate
  | .declaration s d => .remembered (d.key s)
  | .keys s d => if d.kind = .binding then .held (d.key s) else .free
  | .chain s d (_ :: _) => .held (d.key s)
  | .chain _ _ [] | .expression .. | .type .. | .expressionMember .. | .typeMember .. => .free

def inquiry (c : Codebase) : Goal → Inquiry LiteralSet
  | .declaration s d => Values.declaration c .one s d
  | .keys s d =>
    match d.kind with
    | .enumeration => pure (s.enumNames d.node)
    | .binding => initializerKeys c .one s d
    | _ => Eval.unknown
  | .chain s d [] => .one (.declaration s d)
  | .chain s d (name :: rest) => declarationMember .one s d name rest
  | .expression s n => Values.expression c .one s n
  | .type s n => Values.type c .one s n
  | .expressionMember _ _ [] => .halt .noMember
  | .expressionMember s n (name :: rest) => Values.expressionMember c .one s n name rest
  | .typeMember _ _ [] => .halt .noMember
  | .typeMember s n (name :: rest) => Values.typeMember c .one s n name rest

end Goal

theorem rule_eq_through (g : Guard σ) (c : Codebase) (ask : Ask σ) (goal : Goal) :
    Values.rule g c ask goal = g.through goal.gate ((goal.inquiry c).run ask) := by
  match goal with
  | .declaration s d => simp only [Values.rule, Goal.gate, Goal.inquiry, Guard.through,
      Inquiry.run_declaration]
  | .keys s d =>
    cases kind : d.kind <;>
      simp only [Values.rule, Goal.gate, Goal.inquiry, Guard.through, kind, Inquiry.run_initializerKeys,
        Inquiry.run_pure, Inquiry.run_unknown, reduceCtorEq, ↓reduceIte]
  | .chain s d [] => simp only [Values.rule, Goal.gate, Goal.inquiry, Guard.through, Inquiry.run_one]
  | .chain s d (name :: rest) => simp only [Values.rule, Goal.gate, Goal.inquiry, Guard.through,
      Inquiry.run_declarationMember]
  | .expression s n => simp only [Values.rule, Goal.gate, Goal.inquiry, Guard.through,
      Inquiry.run_expression]
  | .type s n => simp only [Values.rule, Goal.gate, Goal.inquiry, Guard.through, Inquiry.run_type]
  | .expressionMember _ _ [] | .typeMember _ _ [] => rfl
  | .expressionMember s n (name :: rest) => simp only [Values.rule, Goal.gate, Goal.inquiry,
      Guard.through, Inquiry.run_expressionMember]
  | .typeMember s n (name :: rest) => simp only [Values.rule, Goal.gate, Goal.inquiry,
      Guard.through, Inquiry.run_typeMember]

/-! ## Runs of an inquiry -/

namespace Inquiry

/-- The inquiry comes to an end with `a` if every goal is answered as `R` says. -/
inductive Run (R : Goal → σ → LiteralSet → σ → Prop) : Inquiry α → σ → α → σ → Prop where
  | done {a v} : Run R (.done a) v a v
  | ask {goal next v values u a w} : R goal v values u → Run R (next values) u a w →
      Run R (.ask goal next) v a w

/-- The inquiry comes to ask a goal if the goals before are answered as `R` says. -/
inductive AsksAt (R : Goal → σ → LiteralSet → σ → Prop) : Inquiry α → σ → Goal → σ → Prop where
  | now {goal next v} : AsksAt R (.ask goal next) v goal v
  | later {goal next v values u later w} : R goal v values u → AsksAt R (next values) u later w →
      AsksAt R (.ask goal next) v later w

variable {R S : Goal → σ → LiteralSet → σ → Prop}

theorem Run.mono (implies : ∀ goal v values w, R goal v values w → S goal v values w)
    {q : Inquiry α} {v : σ} {a : α} {w : σ} (run : Run R q v a w) : Run S q v a w := by
  induction run with
  | done => exact .done
  | ask answered _ ih => exact .ask (implies _ _ _ _ answered) ih

theorem run_one_iff {goal : Goal} {v : σ} {values : LiteralSet} {w : σ} :
    Run R (.one goal) v values w ↔ R goal v values w := by
  constructor
  · intro run
    cases run with
    | ask answered rest =>
      cases rest
      exact answered
  · exact fun answered => .ask answered .done

theorem run_done_iff {a b : α} {v w : σ} : Run R (.done a) v b w ↔ b = a ∧ w = v := by
  constructor
  · intro run
    cases run
    exact ⟨rfl, rfl⟩
  · rintro ⟨rfl, rfl⟩
    exact .done

theorem run_ok_iff {ask : Ask σ} {q : Inquiry α} {v : σ} {a : α} {w : σ} :
    q.run ask v = .ok (a, w) ↔
      Run (fun goal v values w => ask goal v = .ok (values, w)) q v a w := by
  constructor
  · intro returned
    induction q generalizing v with
    | done b =>
      cases returned
      exact .done
    | ask goal next ih =>
      simp only [Inquiry.run, bind, StateT.bind, Except.bind] at returned
      cases answered : ask goal v with
      | error halt => rw [answered] at returned; cases returned
      | ok result =>
        rw [answered] at returned
        exact .ask answered (ih _ returned)
    | halt h => cases returned
  · intro run
    induction run with
    | done => rfl
    | ask answered _ ih =>
      simp only [Inquiry.run, bind, StateT.bind, Except.bind, answered]
      exact ih

/-- Where answers are unique, so are the ends of an inquiry. -/
theorem Run.unique (unique : ∀ goal v a b w x, R goal v a w → R goal v b x → a = b ∧ w = x)
    {q : Inquiry α} {v : σ} {a b : α} {w x : σ} (first : Run R q v a w) (second : Run R q v b x) :
    a = b ∧ w = x := by
  induction first with
  | done =>
    cases second
    exact ⟨rfl, rfl⟩
  | ask answered _ ih =>
    cases second with
    | ask answered' rest =>
      obtain ⟨rfl, rfl⟩ := unique _ _ _ _ _ _ answered answered'
      exact ih rest

/-- A goal that comes to be asked on the way to the end of an inquiry is answered there. -/
theorem Run.answered (unique : ∀ goal v a b w x, R goal v a w → R goal v b x → a = b ∧ w = x)
    {q : Inquiry α} {v : σ} {a : α} {w : σ} (run : Run S q v a w)
    (implies : ∀ goal v values w, S goal v values w → R goal v values w)
    {goal : Goal} {u : σ} (asks : AsksAt R q v goal u) : ∃ values u', S goal u values u' := by
  induction asks with
  | now =>
    cases run with
    | ask answered _ => exact ⟨_, _, answered⟩
  | later before _ ih =>
    cases run with
    | ask answered rest =>
      obtain ⟨rfl, rfl⟩ := unique _ _ _ _ _ _ before (implies _ _ _ _ answered)
      exact ih rest

end Inquiry

/-! ## Answers -/

section Answers

variable (g : Guard σ) (c : Codebase)

def Returns (goal : Goal) (v : σ) (values : LiteralSet) (w : σ) : Prop :=
  ∃ depth, Values.answer g c depth goal v = .ok (values, w)

variable {g c}

theorem answer_succ_ok_iff {depth : Nat} {goal : Goal} {v w : σ} {values : LiteralSet} :
    Values.answer g c (depth + 1) goal v = .ok (values, w) ↔
      g.Turns goal.gate v values w ∨
        ∃ u u', g.Opens goal.gate v u ∧
          (goal.inquiry c).Run (fun h v values w => Values.answer g c depth h v = .ok (values, w))
            u values u' ∧
          w = g.close goal.gate u values u' := by
  rw [Values.answer, rule_eq_through, Guard.through_ok_iff]
  simp only [Inquiry.run_ok_iff]

/-- More depth keeps an answer. -/
theorem answer_mono {m n : Nat} (le : m ≤ n) {goal : Goal} {v w : σ} {values : LiteralSet}
    (returned : Values.answer g c m goal v = .ok (values, w)) :
    Values.answer g c n goal v = .ok (values, w) := by
  induction m generalizing n goal v values w with
  | zero => cases returned
  | succ m ih =>
    -- an answer at a positive depth needs a positive depth
    obtain ⟨n, rfl⟩ : ∃ k, n = k + 1 := ⟨n - 1, by omega⟩
    rw [answer_succ_ok_iff] at returned ⊢
    rcases returned with turned | ⟨u, u', opened, run, closed⟩
    · exact .inl turned
    · exact .inr ⟨u, u', opened, run.mono fun _ _ _ _ answered => ih (by omega) answered, closed⟩

/-- A goal has at most one answer. -/
theorem Returns.unique {goal : Goal} {v w w' : σ} {values values' : LiteralSet}
    (first : Returns g c goal v values w) (second : Returns g c goal v values' w') :
    values = values' ∧ w = w' := by
  obtain ⟨m, first⟩ := first
  obtain ⟨n, second⟩ := second
  have first' := answer_mono (Nat.le_max_left m n) first
  have second' := answer_mono (Nat.le_max_right m n) second
  rw [first'] at second'
  cases second'
  exact ⟨rfl, rfl⟩

theorem returns_unique (goal : Goal) (v : σ) (a b : LiteralSet) (w x : σ)
    (first : Returns g c goal v a w) (second : Returns g c goal v b x) : a = b ∧ w = x :=
  first.unique second

/-- Finitely many answers are found at one depth. -/
theorem exists_depth_of_run {q : Inquiry α} {v w : σ} {a : α} (run : q.Run (Returns g c) v a w) :
    ∃ depth, q.Run (fun h v values w => Values.answer g c depth h v = .ok (values, w)) v a w := by
  induction run with
  | done => exact ⟨0, .done⟩
  | ask answered _ ih =>
    obtain ⟨m, answered⟩ := answered
    obtain ⟨n, rest⟩ := ih
    refine ⟨max m n, .ask (answer_mono (Nat.le_max_left m n) answered) ?_⟩
    exact rest.mono fun _ _ _ _ answered => answer_mono (Nat.le_max_right m n) answered

/-- The answer to a goal is that of its gate, or that of its inquiry behind the gate. -/
theorem returns_iff {goal : Goal} {v w : σ} {values : LiteralSet} :
    Returns g c goal v values w ↔
      g.Turns goal.gate v values w ∨
        ∃ u u', g.Opens goal.gate v u ∧ (goal.inquiry c).Run (Returns g c) u values u' ∧
          w = g.close goal.gate u values u' := by
  constructor
  · rintro ⟨_ | depth, returned⟩
    · cases returned
    · rcases answer_succ_ok_iff.mp returned with turned | ⟨u, u', opened, run, closed⟩
      · exact .inl turned
      · exact .inr ⟨u, u', opened, run.mono fun _ _ _ _ answered => ⟨depth, answered⟩, closed⟩
  · rintro (turned | ⟨u, u', opened, run, closed⟩)
    · exact ⟨1, answer_succ_ok_iff.mpr (.inl turned)⟩
    · obtain ⟨depth, run⟩ := exists_depth_of_run run
      exact ⟨depth + 1, answer_succ_ok_iff.mpr (.inr ⟨u, u', opened, run, closed⟩)⟩

/-- What holds of answers at the gate, and of answers behind it if it holds of the answers that they
rest on, holds of all answers. -/
theorem Returns.induct {P : Goal → σ → LiteralSet → σ → Prop}
    (turned : ∀ {goal v values w}, g.Turns goal.gate v values w → P goal v values w)
    (opened : ∀ {goal v u values u'}, g.Opens goal.gate v u →
      (goal.inquiry c).Run (fun h v values w => Returns g c h v values w ∧ P h v values w)
        u values u' →
      P goal v values (g.close goal.gate u values u'))
    {goal : Goal} {v w : σ} {values : LiteralSet} (returned : Returns g c goal v values w) :
    P goal v values w := by
  obtain ⟨depth, returned⟩ := returned
  induction depth generalizing goal v values w with
  | zero => cases returned
  | succ depth ih =>
    rcases answer_succ_ok_iff.mp returned with gone | ⟨u, u', entered, run, rfl⟩
    · exact turned gone
    · exact opened entered (run.mono fun _ _ _ _ answered => ⟨⟨depth, answered⟩, ih answered⟩)

end Answers

/-! ## What happens on the way -/

section Course

variable (g : Guard σ) (c : Codebase)

/-- On the way to an answer to `x.1` in the state `x.2`, the goal `y.1` is asked in the state `y.2`
by the rule itself. -/
def Asks (x y : Goal × σ) : Prop :=
  ∃ u, g.Opens x.1.gate x.2 u ∧ (x.1.inquiry c).AsksAt (Returns g c) u y.1 y.2

/-- The goal and the goals that are asked on the way to an answer to it, each with the state that it
is asked in. -/
def AsksEventually : Goal × σ → Goal × σ → Prop := Relation.ReflTransGen (Asks g c)

/-- The states in which the rule for a goal finds itself, the states in which other rules do left
out: as it begins, behind the gate, with the answer, as it leaves the gate and in the end. -/
inductive Stage (goal : Goal) (v : σ) : σ → Prop where
  | begun : Stage goal v v
  | turned {values w} : g.Turns goal.gate v values w → Stage goal v w
  | opened {u} : g.Opens goal.gate v u → Stage goal v u
  | answered {u values u'} : g.Opens goal.gate v u →
      (goal.inquiry c).Run (Returns g c) u values u' → Stage goal v u'
  | left {u values u' k} : g.Opens goal.gate v u →
      (goal.inquiry c).Run (Returns g c) u values u' → goal.gate = .remembered k →
      Stage goal v (g.leave k u')
  | closed {u values u'} : g.Opens goal.gate v u →
      (goal.inquiry c).Run (Returns g c) u values u' →
      Stage goal v (g.close goal.gate u values u')

/-- The states that occur while a goal is answered, or on and on if it has no answer. -/
def Occurs (goal : Goal) (v w : σ) : Prop :=
  ∃ y, AsksEventually g c (goal, v) y ∧ Stage g c y.1 y.2 w

variable {g c}

/-- An answer to a goal rests on answers to the goals that its rule asks. -/
theorem Returns.of_asks {x y : Goal × σ} (asks : Asks g c x y)
    (returned : ∃ values w, Returns g c x.1 x.2 values w) :
    ∃ values w, Returns g c y.1 y.2 values w := by
  obtain ⟨u, opened, asked⟩ := asks
  obtain ⟨values, w, returned⟩ := returned
  rcases returns_iff.mp returned with turned | ⟨u₁, u', opened', run, -⟩
  · exact absurd opened turned.not_opens
  · cases opened.unique opened'
    exact run.answered returns_unique (fun _ _ _ _ answered => answered) asked

theorem Returns.of_asksEventually {x y : Goal × σ} (asks : AsksEventually g c x y)
    (returned : ∃ values w, Returns g c x.1 x.2 values w) :
    ∃ values w, Returns g c y.1 y.2 values w := by
  induction asks with
  | refl => exact returned
  | tail _ step ih => exact Returns.of_asks step ih

/-- The state that an answer ends in occurs on the way. -/
theorem Returns.occurs {goal : Goal} {v w : σ} {values : LiteralSet}
    (returned : Returns g c goal v values w) : Occurs g c goal v w := by
  refine ⟨(goal, v), .refl, ?_⟩
  rcases returns_iff.mp returned with turned | ⟨u, u', opened, run, rfl⟩
  · exact .turned turned
  · exact .closed opened run

/-- What holds of all goals that are asked and the states they are asked in holds in all states of the
evaluation if it does in all states of a rule. -/
theorem Occurs.invariant {P : Goal → σ → Prop} {Q : σ → Prop}
    (asks : ∀ x y, Asks g c x y → P x.1 x.2 → P y.1 y.2)
    (stage : ∀ goal v w, Stage g c goal v w → P goal v → Q w) {goal : Goal} {v w : σ}
    (occurs : Occurs g c goal v w) (start : P goal v) : Q w := by
  obtain ⟨y, eventually, final⟩ := occurs
  have before : P y.1 y.2 := by
    clear final
    induction eventually with
    | refl => exact start
    | tail _ step ih => exact asks _ _ step ih
  exact stage _ _ _ final before

end Course

end TemplateValues
