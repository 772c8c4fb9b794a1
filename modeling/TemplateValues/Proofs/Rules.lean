import TemplateValues.Proofs.Evaluation
import TemplateValues.Proofs.Scope

/-!
# What rules ask

For each rule, all goals that it may ask, whatever the answers are.  The rules for expressions and
types and those for member chains go down a tree or to a declaration (`TermAsks`, `MemberAsks`), with
one exception: a type that is read off an array asks about the elements of the array.  Whatever a rule
asks, it stays within the sources that it starts in and those of the codebase (`Goal.Within.inquiry`).

The rules for expressions and types ask the same goals whatever the answers are (`listed_expression`,
`listed_type`).  The other rules do not: a written type that has values keeps the value from being
looked at.
-/

namespace TemplateValues

open Syntax

variable {α β : Type}

namespace Inquiry

/-! ## Goals that an inquiry may ask -/

/-- Whatever the answers are, the inquiry asks only goals that satisfy `P` and does not halt. -/
def Only (P : Goal → Prop) : Inquiry α → Prop
  | .done _ => True
  | .ask goal next => P goal ∧ ∀ values, (next values).Only P
  | .halt _ => False

/-- With some answers, the inquiry asks the goal. -/
def MayAsk (goal : Goal) : Inquiry α → Prop
  | .done _ => False
  | .ask first next => first = goal ∨ ∃ values, (next values).MayAsk goal
  | .halt _ => False

/-- Whatever the answers are, the inquiry asks the listed goals in their order and no others. -/
inductive Lists : Inquiry α → List Goal → Prop where
  | done {a} : Lists (.done a) []
  | ask {goal next goals} : (∀ values, Lists (next values) goals) →
      Lists (.ask goal next) (goal :: goals)

section Only

variable {P : Goal → Prop}

theorem Only.mayAsk {q : Inquiry α} (only : q.Only P) {goal : Goal} (may : q.MayAsk goal) :
    P goal := by
  induction q with
  | done a => cases may
  | ask first next ih =>
    rcases may with rfl | ⟨values, may⟩
    · exact only.1
    · exact ih values (only.2 values) may
  | halt h => cases may

theorem only_pure (a : α) : (pure a : Inquiry α).Only P := trivial

theorem only_one {goal : Goal} (holds : P goal) : (one goal).Only P := ⟨holds, fun _ => trivial⟩

theorem only_bind {q : Inquiry α} {f : α → Inquiry β} (first : q.Only P)
    (rest : ∀ a, (f a).Only P) : (q >>= f).Only P := by
  induction q with
  | done a => exact rest a
  | ask goal next ih => exact ⟨first.1, fun values => ih values (first.2 values)⟩
  | halt h => exact first

theorem only_ite {p : Prop} [Decidable p] {q r : Inquiry α} (yes : p → q.Only P)
    (no : ¬ p → r.Only P) : (if p then q else r).Only P := by
  split
  · exact yes ‹_›
  · exact no ‹_›

theorem only_unknown : (Eval.unknown : Inquiry LiteralSet).Only P := trivial

theorem only_collect {f : α → Inquiry LiteralSet} {xs : List α} (each : ∀ x ∈ xs, (f x).Only P) :
    (Eval.collect f xs).Only P := by
  unfold Eval.collect
  generalize LiteralSet.empty = start
  induction xs generalizing start with
  | nil => exact only_pure _
  | cons x xs ih =>
    rw [List.foldlM_cons]
    refine only_bind (only_bind (each x List.mem_cons_self) fun _ => only_pure _) fun values => ?_
    exact ih (fun y member => each y (List.mem_cons_of_mem x member)) values

theorem only_firstKnown {f : α → Inquiry LiteralSet} {xs : List α}
    (each : ∀ x ∈ xs, (f x).Only P) : (Eval.firstKnown f xs).Only P := by
  induction xs with
  | nil => exact only_unknown
  | cons x xs ih =>
    refine only_bind (each x List.mem_cons_self) fun values => only_ite (fun _ => ?_) fun _ => only_pure _
    exact ih fun y member => each y (List.mem_cons_of_mem x member)

theorem only_asked {f : α → Inquiry LiteralSet} {x? : Option α}
    (each : ∀ x, x? = some x → (f x).Only P) : (Eval.asked f x?).Only P := by
  cases x? with
  | none => exact only_unknown
  | some x => exact each x rfl

theorem only_orElse {first second : Inquiry LiteralSet} (left : first.Only P)
    (right : second.Only P) : (Eval.orElse first second).Only P :=
  only_bind left fun _ => only_ite (fun _ => right) fun _ => only_pure _

end Only

theorem AsksAt.mayAsk {σ : Type} {R : Goal → σ → LiteralSet → σ → Prop} {q : Inquiry α} {v w : σ}
    {goal : Goal} (asks : q.AsksAt R v goal w) : q.MayAsk goal := by
  induction asks with
  | now => exact .inl rfl
  | later _ _ ih => exact .inr ⟨_, ih⟩

section Lists

/-- What is asked does not depend on the answers. -/
def Listed (q : Inquiry α) : Prop := ∃ goals, q.Lists goals

theorem Lists.mem_of_mayAsk {q : Inquiry α} {goals : List Goal} (lists : q.Lists goals)
    {goal : Goal} (may : q.MayAsk goal) : goal ∈ goals := by
  induction lists with
  | done => cases may
  | ask _ ih =>
    rcases may with rfl | ⟨values, may⟩
    · exact List.mem_cons_self
    · exact List.mem_cons_of_mem _ (ih values may)

/-- At the end of a run all listed goals have been answered. -/
theorem Lists.answered {σ : Type} {R : Goal → σ → LiteralSet → σ → Prop} {q : Inquiry α}
    {goals : List Goal} (lists : q.Lists goals) {v w : σ} {a : α} (run : q.Run R v a w)
    {goal : Goal} (member : goal ∈ goals) : ∃ u values u', R goal u values u' := by
  induction run generalizing goals with
  | done =>
    cases lists
    cases member
  | ask answered _ ih =>
    cases lists with
    | ask rest =>
      rcases List.mem_cons.mp member with rfl | member
      · exact ⟨_, _, _, answered⟩
      · exact ih (rest _) member

theorem Listed.bind {q : Inquiry α} {f : α → Inquiry β} {goals : List Goal} (first : q.Listed)
    (rest : ∀ a, (f a).Lists goals) : (q >>= f).Listed := by
  obtain ⟨firsts, lists⟩ := first
  refine ⟨firsts ++ goals, ?_⟩
  induction lists with
  | done => exact rest _
  | ask _ ih => exact .ask ih

theorem listed_pure (a : α) : (pure a : Inquiry α).Listed := ⟨[], .done⟩

theorem listed_one (goal : Goal) : (one goal).Listed := ⟨[goal], .ask fun _ => .done⟩

theorem listed_unknown : (Eval.unknown : Inquiry LiteralSet).Listed := ⟨[], .done⟩

theorem listed_collect {f : α → Inquiry LiteralSet} (each : ∀ x, (f x).Listed) (xs : List α) :
    (Eval.collect f xs).Listed := by
  unfold Eval.collect
  -- the goals are the same from whatever values the collection starts
  suffices same : ∃ goals, ∀ start : LiteralSet,
      (xs.foldlM (fun values x => return values.union (← f x)) start : Inquiry LiteralSet).Lists goals by
    obtain ⟨goals, lists⟩ := same
    exact ⟨goals, lists _⟩
  induction xs with
  | nil => exact ⟨[], fun _ => .done⟩
  | cons x xs ih =>
    obtain ⟨later, rest⟩ := ih
    obtain ⟨firsts, first⟩ := each x
    refine ⟨firsts ++ later, fun start => ?_⟩
    rw [List.foldlM_cons]
    generalize f x = q at first
    induction first with
    | done => exact rest _
    | ask _ ih => exact .ask ih

theorem listed_asked {f : α → Inquiry LiteralSet} (each : ∀ x, (f x).Listed) (x? : Option α) :
    (Eval.asked f x?).Listed := by
  cases x? with
  | none => exact listed_unknown
  | some x => exact each x

theorem listed_orElse_pure {first : Inquiry LiteralSet} (listed : first.Listed) (a : LiteralSet) :
    (Eval.orElse first (pure a)).Listed := by
  have silent : ∀ values : LiteralSet,
      (if values.isEmpty then pure a else pure values : Inquiry LiteralSet).Lists [] := by
    intro values
    split <;> exact .done
  exact listed.bind silent

end Lists

end Inquiry

/-! ## Expressions and types -/

def Source.arrayOf? (t : Source) (d : Declaration) : Option Node :=
  (d.initializer?.map t.unwrap).filter fun n => n.kind = .array

/-- What the inquiry `q` for an expression or a type, at a node `n` of `s`, may ask.  It goes down
the tree or to a declaration; but a type that is read off an array asks about the elements of that
array, wherever it is. -/
inductive TermAsks (c : Codebase) (s : Source) (n : Node) (q : Inquiry LiteralSet) : Goal → Prop where
  | expression {m} : n.Below m → TermAsks c s n q (.expression s m)
  | type {m} : n.Below m → TermAsks c s n q (.type s m)
  | element {t d array e} : c.Provides s t d → t.arrayOf? d = some array →
      q = Values.elements Inquiry.one t array → e ∈ array.content →
      TermAsks c s n q (.expression t e)
  | declaration {t d} : c.Provides s t d → TermAsks c s n q (.declaration t d)
  | keys {t d} : c.Provides s t d → TermAsks c s n q (.keys t d)
  | chain {t d path} : c.Provides s t d → TermAsks c s n q (.chain t d path)

/-- What the rule for a member chain that starts at a node `n` of `s` may ask. -/
inductive MemberAsks (c : Codebase) (s : Source) (n : Node) : Goal → Prop where
  | expression {m} : n.Below m → MemberAsks c s n (.expression s m)
  | type {m} : n.Below m → MemberAsks c s n (.type s m)
  | expressionMember {m path} : n.Below m → path ≠ [] → MemberAsks c s n (.expressionMember s m path)
  | typeMember {m path} : n.Below m → path ≠ [] → MemberAsks c s n (.typeMember s m path)
  | chain {t d path} : c.Provides s t d → MemberAsks c s n (.chain t d path)

namespace Inquiry

variable {P : Goal → Prop} {c : Codebase} {s : Source}

theorem only_meant {name : String} {space : Space}
    {onward : Source → Declaration → Inquiry LiteralSet}
    (each : ∀ t d, c.Provides s t d → (onward t d).Only P) :
    (Values.meant c s name space onward).Only P := by
  rw [Values.meant_eq]
  split
  · exact each _ _ (Codebase.provides_of_declared? ‹_›)
  · exact only_unknown

theorem only_named {name : String} {space : Space} {goal : Source → Declaration → Goal}
    (each : ∀ t d, c.Provides s t d → P (goal t d)) :
    (Values.named c one s name space goal).Only P :=
  only_meant fun t d provides => only_one (each t d provides)

theorem only_dotted {expression : String}
    (each : ∀ t d path, c.Provides s t d → P (.chain t d path)) :
    (Values.dotted c one s expression).Only P := by
  unfold Values.dotted
  split
  · refine only_ite (fun _ => ?_) fun _ => only_unknown
    rw [Values.chained_eq]
    split
    · exact only_one (each _ _ _ (Codebase.provides_of_declared? ‹_›))
    · split
      · exact only_one (each _ _ _ (Codebase.provides_of_namespaceMember? ‹_›))
      · exact only_unknown
  · exact only_unknown

theorem only_elements {array : Node} (each : ∀ e ∈ array.content, P (.expression s e)) :
    (Values.elements one s array).Only P :=
  only_collect fun e member => only_one (each e member)

theorem only_expression (n : Node) :
    (Values.expression c one s n).Only (TermAsks c s n (Values.expression c one s n)) := by
  -- an expression is never read off an array, so that the inquiry does not matter
  suffices general : ∀ q, (Values.expression c one s n).Only (TermAsks c s n q) from general _
  intro q
  have inside : ∀ {m}, (s.unwrap n).Below m → n.Below m := fun below =>
    (Source.under_unwrap n).trans_below below
  unfold Values.expression
  dsimp only
  split
  case h_4 => exact only_elements fun e member => .expression (inside (Node.below_of_mem_content member))
  case h_5 =>
    refine only_orElse (only_asked fun t found => only_one (.type (inside ?_))) (only_pure _)
    exact Node.below_of_mem_content (List.mem_of_getLast? found)
  case h_6 => exact only_named fun _ _ => TermAsks.declaration
  case h_7 =>
    refine only_dotted ?_
    exact fun _ _ _ => TermAsks.chain
  case h_8 =>
    refine only_collect fun b member => only_one (.expression (inside ?_))
    rcases List.mem_append.mp member with first | second
    · exact Node.below_of_child? (Option.mem_toList.mp first)
    · exact Node.below_of_child? (Option.mem_toList.mp second)
  case h_9 => exact only_unknown
  all_goals exact only_pure _

theorem only_idiom (n : Node) (i : Idiom) :
    (Values.idiom c one s i).Only (TermAsks c s n (Values.idiom c one s i)) := by
  cases i with
  | values x y =>
    refine only_ite (fun _ => only_meant fun t d provides => ?_) fun _ => only_unknown
    exact only_ite (fun _ => only_pure _) fun _ => only_one (TermAsks.keys provides)
  | keys x => exact only_named fun _ _ => TermAsks.keys
  | elements x =>
    simp only [Values.idiom, Values.meant_eq]
    split
    · rename_i t d declared
      have provides := Codebase.provides_of_declared? declared
      split
      · rename_i array found
        exact only_elements fun e member => TermAsks.element provides found rfl member
      · exact only_unknown
    · exact only_unknown

theorem only_type (n : Node) :
    (Values.type c one s n).Only (TermAsks c s n (Values.type c one s n)) := by
  have down : ∀ {q t?}, (∀ t, t? = some t → n.Below t) →
      (Eval.asked (fun t => one (.type s t)) t?).Only (TermAsks c s n q) := fun below =>
    only_asked fun t found => only_one (TermAsks.type (below t found))
  have content : ∀ t, n.content.head? = some t → n.Below t := fun t found =>
    Node.below_of_mem_content (List.mem_of_head? found)
  -- the inquiry also stands in what is claimed of the goals, so it is split in both places at once
  generalize rule : Values.type c one s n = q
  unfold Values.type at rule
  split at rule <;> subst rule
  case h_5 =>
    refine only_collect fun t member => only_one (TermAsks.type ?_)
    exact Node.below_of_mem_namedChildren member
  case h_6 | h_7 => exact only_pure _
  case h_8 => exact only_ite (fun _ => only_unknown) fun _ => only_pure _
  case h_9 => exact only_named fun _ _ => TermAsks.declaration
  case h_10 => exact only_asked fun name _ => only_named fun _ _ => TermAsks.declaration
  case h_11 =>
    split
    · rename_i name found
      refine only_ite (fun _ => down fun t found => ?_) fun _ => only_one (TermAsks.type ?_)
      · obtain ⟨arguments, child, found⟩ := Option.bind_eq_some_iff.mp found
        refine (Node.below_of_child? child).under.trans_below ?_
        exact Node.below_of_mem_content (List.mem_of_head? found)
      · exact Node.below_of_child? found
    · exact only_unknown
  case h_12 =>
    cases Idiom.ofText? (s.textOf n) with
    | none => exact only_unknown
    | some i => exact only_idiom n i
  all_goals exact down content

theorem below_of_objectMember? {n m : Node} {name : String}
    (found : s.objectMember? n name = some m) : n.Below m := by
  obtain ⟨member, child, found⟩ := List.exists_of_findSome?_eq_some found
  have below := Node.below_of_mem_namedChildren child
  unfold Source.namedMember? at found
  split at found
  · split at found
    · exact below.under.trans_below (Node.below_of_child? found)
    · cases found
  · split at found
    · cases found
      exact below
    · cases found
  · cases found

theorem only_expressionMember (n : Node) (name : String) (rest : List String) :
    (Values.expressionMember c one s n name rest).Only (MemberAsks c s n) := by
  have inside : ∀ {m}, (s.unwrap n).Below m → n.Below m := fun below =>
    (Source.under_unwrap n).trans_below below
  have more : name :: rest ≠ [] := List.cons_ne_nil _ _
  unfold Values.expressionMember
  dsimp only
  split
  · split
    · rename_i m found
      have below := inside (below_of_objectMember? found)
      refine only_ite (fun _ => only_named fun _ _ => MemberAsks.chain) fun _ => ?_
      refine only_ite (fun _ => only_one (MemberAsks.expression below)) fun full => ?_
      refine only_one (MemberAsks.expressionMember below fun none => full ?_)
      rw [none, List.isEmpty_nil]
    · exact only_unknown
  · exact only_named fun _ _ => MemberAsks.chain
  · refine only_orElse (only_asked fun t found => only_one (MemberAsks.typeMember (inside ?_) more))
      (only_asked fun e found => only_one (MemberAsks.expressionMember (inside ?_) more))
    · exact Node.below_of_mem_content (List.mem_of_getLast? found)
    · exact Node.below_of_mem_content (List.mem_of_head? found)
  · refine only_dotted ?_
    exact fun _ _ _ => MemberAsks.chain
  · exact only_unknown

theorem only_typeMember (n : Node) (name : String) (rest : List String) :
    (Values.typeMember c one s n name rest).Only (MemberAsks c s n) := by
  have more : name :: rest ≠ [] := List.cons_ne_nil _ _
  have down : ∀ {t}, n.Below t → (one (.typeMember s t (name :: rest))).Only (MemberAsks c s n) :=
    fun below => only_one (MemberAsks.typeMember below more)
  unfold Values.typeMember
  split
  case h_4 | h_5 =>
    refine only_asked fun t found => ?_
    obtain ⟨signature, signed, child⟩ := Option.bind_eq_some_iff.mp found
    have below : n.Below t :=
      (Node.below_of_mem_namedChildren (List.mem_of_find?_eq_some signed)).under.trans_below
        (Node.below_of_child? child)
    refine only_ite (fun _ => only_one (MemberAsks.type below)) fun full => ?_
    refine only_one (MemberAsks.typeMember below fun none => full ?_)
    rw [none, List.isEmpty_nil]
  case h_6 => exact only_named fun _ _ => MemberAsks.chain
  case h_7 | h_8 => exact only_asked fun t found => down (Node.below_of_child? found)
  case h_9 => exact only_collect fun t member => down (Node.below_of_mem_namedChildren member)
  case h_10 => exact only_firstKnown fun t member => down (Node.below_of_mem_namedChildren member)
  case h_11 => exact only_unknown
  all_goals
    exact only_asked fun t found => down (Node.below_of_mem_content (List.mem_of_head? found))

/-! ## Rules that ask the same whatever the answers are -/

theorem listed_meant {name : String} {space : Space}
    {onward : Source → Declaration → Inquiry LiteralSet} (each : ∀ t d, (onward t d).Listed) :
    (Values.meant c s name space onward).Listed := by
  rw [Values.meant_eq]
  split
  · exact each _ _
  · exact listed_unknown

theorem listed_named {name : String} {space : Space} {goal : Source → Declaration → Goal} :
    (Values.named c one s name space goal).Listed :=
  listed_meant fun _ _ => listed_one _

theorem listed_dotted {expression : String} : (Values.dotted c one s expression).Listed := by
  unfold Values.dotted
  split
  · split
    · rw [Values.chained_eq]
      split
      · exact listed_one _
      · split
        · exact listed_one _
        · exact listed_unknown
    · exact listed_unknown
  · exact listed_unknown

theorem listed_elements {array : Node} : (Values.elements one s array).Listed :=
  listed_collect (fun _ => listed_one _) _

theorem listed_expression (n : Node) : (Values.expression c one s n).Listed := by
  unfold Values.expression
  dsimp only
  split
  case h_4 => exact listed_elements
  case h_5 => exact listed_orElse_pure (listed_asked (fun _ => listed_one _) _) _
  case h_6 => exact listed_named
  case h_7 => exact listed_dotted
  case h_8 => exact listed_collect (fun _ => listed_one _) _
  case h_9 => exact listed_unknown
  all_goals exact listed_pure _

theorem listed_idiom (i : Idiom) : (Values.idiom c one s i).Listed := by
  cases i with
  | values x y =>
    simp only [Values.idiom]
    split
    · refine listed_meant fun t d => ?_
      split
      · exact listed_pure _
      · exact listed_one _
    · exact listed_unknown
  | keys x => exact listed_named
  | elements x =>
    refine listed_meant fun t d => ?_
    split
    · exact listed_elements
    · exact listed_unknown

theorem listed_type (n : Node) : (Values.type c one s n).Listed := by
  unfold Values.type
  split
  case h_5 => exact listed_collect (fun _ => listed_one _) _
  case h_6 | h_7 => exact listed_pure _
  case h_8 =>
    split
    · exact listed_unknown
    · exact listed_pure _
  case h_9 => exact listed_named
  case h_10 => exact listed_asked (fun _ => listed_named) _
  case h_11 =>
    split
    · split
      · exact listed_asked (fun _ => listed_one _) _
      · exact listed_one _
    · exact listed_unknown
  case h_12 => exact listed_asked listed_idiom _
  all_goals exact listed_asked (fun _ => listed_one _) _

end Inquiry

/-! ## Goals within sources -/

/-- The goal is about a declaration or a node of one of the sources. -/
def Goal.Within (sources : List Source) : Goal → Prop
  | .declaration t d | .keys t d | .chain t d _ => t ∈ sources ∧ d ∈ t.declarations
  | .expression t n | .type t n => t ∈ sources ∧ t.root.Under n
  | .expressionMember t n path | .typeMember t n path => t ∈ sources ∧ t.root.Under n ∧ path ≠ []

/-- The goal is about a node of one of the sources, or about a declaration that such a node makes. -/
def Goal.Inside (sources : List Source) : Goal → Prop
  | .declaration t d | .keys t d | .chain t d _ => t ∈ sources ∧ t.Holds d
  | .expression t n | .type t n => t ∈ sources ∧ t.root.Under n
  | .expressionMember t n path | .typeMember t n path => t ∈ sources ∧ t.root.Under n ∧ path ≠ []

section Within

variable {c : Codebase} {sources : List Source} {s : Source}

theorem Codebase.Provides.within (all : c.sources ⊆ sources) (source : s ∈ sources) {t : Source}
    {d : Declaration} (provides : c.Provides s t d) : t ∈ sources ∧ d ∈ t.declarations := by
  refine ⟨?_, provides.declared⟩
  rcases provides.source with rfl | member
  · exact source
  · exact all member

theorem Source.under_of_initializer? {t : Source} {d : Declaration} (inside : t.root.Under d.node)
    {n : Node} (given : d.initializer? = some n) : t.root.Under n := by
  unfold Declaration.initializer? at given
  split at given
  case h_3 => cases given
  all_goals exact inside.trans (Node.below_of_child? given).under

theorem Source.under_of_unwrapped {t : Source} {d : Declaration} (inside : t.root.Under d.node)
    {p : Node → Bool} {n : Node} (given : (d.initializer?.map t.unwrap).filter p = some n) :
    t.root.Under n := by
  obtain ⟨m, initializer, rfl⟩ := Option.map_eq_some_iff.mp (Option.filter_eq_some_iff.mp given).1
  exact (under_of_initializer? inside initializer).trans (under_unwrap m)

theorem TermAsks.within (all : c.sources ⊆ sources) (source : s ∈ sources) {n : Node}
    (inside : s.root.Under n) {q : Inquiry LiteralSet} {goal : Goal} (asks : TermAsks c s n q goal) :
    goal.Within sources := by
  cases asks with
  | expression below | type below => exact ⟨source, inside.trans below.under⟩
  | element provides found _ member =>
    refine ⟨(provides.within all source).1, ?_⟩
    exact (Source.under_of_unwrapped provides.under found).trans (Node.below_of_mem_content member).under
  | declaration provides | keys provides | chain provides => exact provides.within all source

theorem MemberAsks.within (all : c.sources ⊆ sources) (source : s ∈ sources) {n : Node}
    (inside : s.root.Under n) {goal : Goal} (asks : MemberAsks c s n goal) :
    goal.Within sources := by
  cases asks with
  | expression below | type below => exact ⟨source, inside.trans below.under⟩
  | expressionMember below more | typeMember below more =>
    exact ⟨source, inside.trans below.under, more⟩
  | chain provides => exact provides.within all source

namespace Inquiry

theorem Only.mono {α : Type} {P Q : Goal → Prop} (implies : ∀ goal, P goal → Q goal)
    {q : Inquiry α} (only : q.Only P) : q.Only Q := by
  induction q with
  | done a => trivial
  | ask goal next ih => exact ⟨implies goal only.1, fun values => ih values (only.2 values)⟩
  | halt h => exact only

variable (all : c.sources ⊆ sources) (source : s ∈ sources)
include all source

theorem within_propertyValues {m : Node} (inside : s.root.Under m) :
    (Values.propertyValues c one s m).Only (Goal.Within sources) := by
  unfold Values.propertyValues
  split
  · refine only_asked fun v found => only_one ⟨source, ?_⟩
    exact inside.trans (Node.below_of_child? found).under
  · exact only_named fun _ _ provides => provides.within all source
  · exact only_unknown

theorem within_objectValues {object : Node} (inside : s.root.Under object) :
    (Values.objectValues c one s object).Only (Goal.Within sources) := by
  refine only_collect fun m member => within_propertyValues all source ?_
  exact inside.trans (Node.below_of_mem_namedChildren member).under

theorem within_valuesOf {n : Node} (inside : s.root.Under n) :
    (Values.valuesOf c one s n).Only (Goal.Within sources) := by
  unfold Values.valuesOf
  dsimp only
  split
  · exact within_objectValues all source (inside.trans (Source.under_unwrap n))
  · refine only_meant fun t d provides => ?_
    split
    · exact only_pure _
    · split
      · rename_i object found
        exact within_objectValues all (provides.within all source).1
          (Source.under_of_unwrapped provides.under found)
      · exact only_unknown
    · exact only_unknown
  · exact only_unknown

theorem within_keysOf (n : Node) : (Values.keysOf c one s n).Only (Goal.Within sources) := by
  unfold Values.keysOf
  dsimp only
  split
  · exact only_pure _
  · exact only_named fun _ _ provides => provides.within all source
  · exact only_unknown

theorem within_elementsOf {n : Node} (inside : s.root.Under n) :
    (Values.elementsOf c one s n).Only (Goal.Within sources) := by
  have under : s.root.Under (s.unwrap n) := inside.trans (Source.under_unwrap n)
  unfold Values.elementsOf
  dsimp only
  split
  · split
    · rename_i argument _ found
      refine within_valuesOf all source (under.trans ?_)
      exact (Source.below_of_mem_callArguments (List.mem_of_head? found)).under
    · exact within_keysOf all source _
    · exact only_unknown
  · refine only_elements fun e member => ⟨source, ?_⟩
    exact under.trans (Node.below_of_mem_content member).under
  · exact only_named fun _ _ provides => provides.within all source
  · refine only_dotted ?_
    exact fun _ _ _ provides => provides.within all source
  · exact only_unknown

omit all source in
theorem under_of_collection? {function n : Node} (inside : s.root.Under function)
    (found : Values.collection? s function = some n) : s.root.Under n := by
  unfold Values.collection? at found
  obtain ⟨arguments, up, found⟩ := Option.bind_eq_some_iff.mp found
  obtain ⟨-, -, found⟩ := Option.bind_eq_some_iff.mp found
  obtain ⟨call, upper, found⟩ := Option.bind_eq_some_iff.mp found
  obtain ⟨first, -, found⟩ := Option.bind_eq_some_iff.mp found
  obtain ⟨-, -, found⟩ := Option.bind_eq_some_iff.mp found
  obtain ⟨callee, child, found⟩ := Option.bind_eq_some_iff.mp found
  obtain ⟨-, -, found⟩ := Option.bind_eq_some_iff.mp found
  obtain ⟨method, -, found⟩ := Option.bind_eq_some_iff.mp found
  obtain ⟨-, -, object⟩ := Option.bind_eq_some_iff.mp found
  have above : s.root.Under call := (inside.parent rfl up).parent rfl upper
  exact (above.trans (Node.below_of_child? child).under).trans (Node.below_of_child? object).under

theorem within_loop {statement : Node} (inside : s.root.Under statement) :
    (Values.loop c one s statement).Only (Goal.Within sources) := by
  unfold Values.loop
  split
  · rename_i right found _
    exact within_elementsOf all source (inside.trans (Node.below_of_child? found).under)
  · exact within_keysOf all source _
  · exact only_unknown

theorem within_iteration {d : Declaration} (inside : s.root.Under d.node) :
    (Values.iteration c one s d).Only (Goal.Within sources) := by
  have called : ∀ {f}, s.root.Under f →
      (Eval.asked (Values.elementsOf c one s) (Values.collection? s f)).Only (Goal.Within sources) :=
    fun under => only_asked fun n found =>
      within_elementsOf all source (under_of_collection? under found)
  unfold Values.iteration
  refine only_ite (fun _ => ?_) fun _ => only_unknown
  split
  · rename_i p up
    have above : s.root.Under p := inside.parent rfl up
    split
    · exact within_loop all source above
    · exact called above
    · split
      · rename_i f upper
        exact only_ite (fun _ => called (above.parent rfl upper)) fun _ => only_unknown
      · exact only_unknown
    · exact only_unknown
  · exact only_unknown

omit all source in
theorem under_of_ascription? {d : Declaration} (inside : s.root.Under d.node) {n : Node}
    (written : d.ascription? = some n) : s.root.Under n := by
  unfold Declaration.ascription? at written
  split at written
  case h_3 =>
    split at written
    · cases written
    · exact inside.trans (Node.below_of_child? written).under
  case h_4 => cases written
  all_goals exact inside.trans (Node.below_of_child? written).under

omit all in
theorem within_ascribed {d : Declaration} (inside : s.root.Under d.node) :
    (Values.ascribed one s d).Only (Goal.Within sources) :=
  only_asked fun _ written => only_one ⟨source, under_of_ascription? inside written⟩

omit all in
theorem within_given {d : Declaration} (inside : s.root.Under d.node) :
    (Values.given one s d).Only (Goal.Within sources) :=
  only_orElse (within_ascribed source inside) <| only_asked fun _ given => only_one
    ⟨source, Source.under_of_initializer? inside given⟩

theorem within_declaration {d : Declaration} (inside : s.root.Under d.node) :
    (Values.declaration c one s d).Only (Goal.Within sources) := by
  unfold Values.declaration
  split
  · exact only_pure _
  · exact within_given source inside
  · refine only_asked fun t found => only_one ⟨source, ?_⟩
    exact inside.trans (Node.below_of_child? found).under
  · exact only_unknown
  · exact only_orElse (within_ascribed source inside) (within_iteration all source inside)
  · unfold Values.property
    split
    · exact only_pure _
    · exact only_pure _
    · exact within_given source inside

theorem within_initializerKeys (d : Declaration) :
    (Values.initializerKeys c one s d).Only (Goal.Within sources) := by
  unfold Values.initializerKeys
  split
  · split
    · exact only_pure _
    · exact only_named fun _ _ provides => provides.within all source
    · exact only_unknown
  · exact only_unknown

omit all source in
theorem below_of_mem_extended {d : Declaration} {n : Node} (member : n ∈ Values.extended d) :
    d.node.Below n := by
  unfold Values.extended at member
  split at member
  · rename_i clause found
    exact (Node.below_of_childOfKind? found).under.trans_below (Node.below_of_mem_namedChildren member)
  · cases member

omit all in
theorem within_declarationMember {d : Declaration} (inside : s.root.Under d.node) (name : String)
    (rest : List String) :
    (Values.declarationMember one s d name rest).Only (Goal.Within sources) := by
  have more : name :: rest ≠ [] := List.cons_ne_nil _ _
  have inType : ∀ {t}, s.root.Under t →
      (one (.typeMember s t (name :: rest))).Only (Goal.Within sources) :=
    fun under => only_one ⟨source, under, more⟩
  unfold Values.declarationMember
  dsimp only
  split
  · exact only_ite (fun _ => only_pure _) fun _ => only_unknown
  · exact only_asked fun t found => inType (inside.trans (Node.below_of_child? found).under)
  · refine only_orElse (only_asked fun t found => inType ?_) (only_firstKnown fun t member => inType ?_)
    · exact inside.trans (Node.below_of_child? found).under
    · exact inside.trans (below_of_mem_extended member).under
  all_goals
    refine only_orElse (only_asked fun t found => inType (under_of_ascription? inside found)) ?_
    refine only_asked fun v given => only_one ⟨source, ?_, more⟩
    exact Source.under_of_initializer? inside given

end Inquiry

theorem Goal.Within.inside {goal : Goal} (within : goal.Within sources) : goal.Inside sources := by
  cases goal with
  | declaration | keys | chain => exact ⟨within.1, Source.holds_of_mem_declarations within.2⟩
  | expression | type | expressionMember | typeMember => exact within

/-- A rule asks only about what searches find, and it does not halt; but a chain that has come to its
end asks about the declaration where it is, however that was found. -/
theorem Goal.Inside.inquiry (all : c.sources ⊆ sources) {goal : Goal} (inside : goal.Inside sources) :
    (goal.inquiry c).Only fun asked =>
      asked.Within sources ∨ ∃ s d, goal = .chain s d [] ∧ asked = .declaration s d := by
  have found : ∀ {q : Inquiry LiteralSet}, q.Only (Goal.Within sources) →
      q.Only fun asked => asked.Within sources ∨ ∃ s d, goal = .chain s d [] ∧ asked = .declaration s d :=
    fun only => only.mono fun _ => .inl
  match goal, inside with
  | .declaration s d, ⟨source, holds⟩ => exact found (Inquiry.within_declaration all source holds.under)
  | .keys s d, ⟨source, holds⟩ =>
    unfold Goal.inquiry
    dsimp only
    split
    · exact Inquiry.only_pure _
    · exact found (Inquiry.within_initializerKeys all source d)
    · exact Inquiry.only_unknown
  | .chain s d [], _ => exact Inquiry.only_one (.inr ⟨s, d, rfl, rfl⟩)
  | .chain s d (name :: rest), ⟨source, holds⟩ =>
    exact found (Inquiry.within_declarationMember source holds.under name rest)
  | .expression s n, ⟨source, inside⟩ =>
    exact found ((Inquiry.only_expression n).mono fun _ asks => asks.within all source inside)
  | .type s n, ⟨source, inside⟩ =>
    exact found ((Inquiry.only_type n).mono fun _ asks => asks.within all source inside)
  | .expressionMember s n [], ⟨_, _, more⟩ | .typeMember s n [], ⟨_, _, more⟩ => exact absurd rfl more
  | .expressionMember s n (name :: rest), ⟨source, inside, _⟩ =>
    exact found ((Inquiry.only_expressionMember n name rest).mono fun _ asks =>
      asks.within all source inside)
  | .typeMember s n (name :: rest), ⟨source, inside, _⟩ =>
    exact found ((Inquiry.only_typeMember n name rest).mono fun _ asks => asks.within all source inside)

/-- A rule asks only about declarations and nodes of the sources that its goal is within, and it
does not halt. -/
theorem Goal.Within.inquiry (all : c.sources ⊆ sources) {goal : Goal} (within : goal.Within sources) :
    (goal.inquiry c).Only (Goal.Within sources) := by
  refine (within.inside.inquiry all).mono ?_
  rintro asked (found | ⟨s, d, rfl, rfl⟩)
  · exact found
  · exact within

/-- What a rule asks is as much inside the sources as its goal is. -/
theorem Goal.Inside.inquiry_inside (all : c.sources ⊆ sources) {goal : Goal}
    (inside : goal.Inside sources) : (goal.inquiry c).Only (Goal.Inside sources) := by
  refine (inside.inquiry all).mono ?_
  rintro asked (found | ⟨s, d, rfl, rfl⟩)
  · exact found.inside
  · exact inside

end Within

end TemplateValues
