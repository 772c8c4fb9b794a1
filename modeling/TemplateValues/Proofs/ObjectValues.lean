import TemplateValues.Proofs.EnumMembers
import TemplateValues.Proofs.LiteralSets
import TemplateValues.Proofs.MemberChains
import TemplateValues.Proofs.Reach
import TemplateValues.Proofs.Reuse

/-!
# The values of an object and of its members

The values of an object are found member by member in one visit, in which the object is not entered and
which remembers what the members before have led to.  A chain of one name starts from a new visit, enters
the variable and looks for the one member.  If nothing is refused on the way, neither makes a difference:
an answer that is found while a declaration is held is found without it (`Returns.without`), and an answer
that is found in a new visit is found in one that was used before.  So the values of the object are those
of the chains, put together (`objectValues_eq_chains`).
-/

namespace TemplateValues

open Syntax Inquiry

/-! ## Without a declaration that is held -/

section Without

variable {c : Codebase} {k : Key}

/-- A gate that opens while a declaration is held opens without it. -/
theorem Guard.Opens.without {gate : Gate} {v u : Visit}
    (opened : Guard.visit.Opens gate (v.beside k) u) :
    ∃ u', u = u'.beside k ∧ Guard.visit.Opens gate v u' := by
  rcases visit_opens opened with ⟨rfl, rfl⟩ | ⟨k', gate, below, absent, rfl⟩
  · exact ⟨v, rfl, .free⟩
  · have room : v.depth < v.limit := Nat.lt_of_succ_lt below
    have entered : v.enter k' = (true, v.hold k') :=
      Visit.enter_of_allowed room fun held => absent (List.mem_append_left [k] held)
    refine ⟨v.hold k', rfl, ?_⟩
    rcases gate with rfl | ⟨rfl, unknown⟩
    · exact .held entered
    · exact .remembered unknown entered

/-- The answer is found without the declaration that is held, if nothing was refused. -/
def FoundWithout (c : Codebase) (k : Key) (goal : Goal) (v : Visit) (values : LiteralSet) (w : Visit) :
    Prop :=
  ∀ x, v = x.beside k → w.refusals = v.refusals →
    ∃ y, w = y.beside k ∧ Returns Guard.visit c goal x values y

theorem Inquiry.Run.foundWithout {α : Type} {q : Inquiry α} {v w : Visit} {a : α}
    (run : q.Run (fun goal v values w => Returns Guard.visit c goal v values w ∧
      FoundWithout c k goal v values w) v a w)
    {x : Visit} (held : v = x.beside k) (unrefused : w.refusals = v.refusals) :
    ∃ y, w = y.beside k ∧ q.Run (Returns Guard.visit c) x a y := by
  induction run generalizing x with
  | done => exact ⟨x, held, .done⟩
  | ask answered rest ih =>
    obtain ⟨start, finish⟩ := answered.1.extends.unrefused
      (rest.extends fun _ _ _ _ answered => answered.1.extends) unrefused
    obtain ⟨y, held', returned⟩ := answered.2 x held start
    obtain ⟨z, held'', run⟩ := ih held' finish
    exact ⟨z, held'', .ask returned run⟩

/-- An answer with nothing refused does not depend on a declaration that is held: where it comes up, it
would have been refused. -/
theorem Returns.without {goal : Goal} {v w : Visit} {values : LiteralSet}
    (returned : Returns Guard.visit c goal v values w) : FoundWithout c k goal v values w := by
  refine Returns.induct (P := FoundWithout c k) ?_ ?_ returned
  · rintro goal v values w turned x rfl unrefused
    rcases visit_turns turned with ⟨rfl, k', gate, known⟩ | ⟨rfl, -⟩
    · exact ⟨x, rfl, returns_iff.mpr (.inl (gate ▸ .known known))⟩
    · exact absurd unrefused (Nat.succ_ne_self _)
  · rintro goal v u values u' opened run x rfl unrefused
    have behind : u'.refusals = u.refusals := by
      rwa [Guard.close_refusals, ← opened.refusals_eq] at unrefused
    obtain ⟨x', rfl, opened'⟩ := opened.without
    obtain ⟨y, rfl, run'⟩ := run.foundWithout rfl behind
    have between : x'.Extends y := run'.extends fun _ _ _ _ returned => returned.extends
    exact ⟨_, close_beside opened' between values, returns_iff.mpr (.inr ⟨x', y, opened', run', rfl⟩)⟩

theorem Inquiry.Run.without {α : Type} {q : Inquiry α} {x w : Visit} {a : α}
    (run : q.Run (Returns Guard.visit c) (x.beside k) a w) (unrefused : w.refusals = x.refusals) :
    ∃ y, w = y.beside k ∧ q.Run (Returns Guard.visit c) x a y :=
  (run.mono fun _ _ _ _ returned => ⟨returned, returned.without⟩).foundWithout rfl unrefused

end Without

/-! ## In a visit that was used before -/

section Again

variable {c : Codebase} {sources : List Source} {limit : Nat}

/-- The visit comes from a new one and holds nothing, and all that it knows is complete. -/
structure Visit.Usable (c : Codebase) (sources : List Source) (limit : Nat) (v : Visit) : Prop where
  settled : v.Settled c sources
  ahead : (Visit.start limit).Ahead v

variable (all : c.sources ⊆ sources) (distinct : Distinct sources)
include all distinct

theorem Visit.Usable.start : (Visit.start limit).Usable c sources limit :=
  ⟨Visit.Used.fresh.settled all distinct, rfl, rfl, rfl, fun _ done => done⟩

theorem Visit.Usable.of_returns {v w : Visit} (usable : v.Usable c sources limit) {goal : Goal}
    (within : goal.Within sources) {values : LiteralSet}
    (returned : Returns Guard.visit c goal v values w) : w.Usable c sources limit where
  settled := returned.settled all distinct within usable.settled
  ahead := usable.ahead.of_extends (.refl _) returned.extends fun _ done => by cases done

theorem Visit.Usable.of_run {α : Type} {q : Inquiry α} (only : q.Only (Goal.Within sources)) {v w : Visit}
    {a : α} (run : q.Run (Returns Guard.visit c) v a w) (usable : v.Usable c sources limit) :
    w.Usable c sources limit := by
  induction run with
  | done => exact usable
  | ask answered _ ih => exact ih (only.2 _) (usable.of_returns all distinct only.1 answered)

/-- What an inquiry finds in a new visit with nothing refused, it finds in a visit that was used before. -/
theorem Inquiry.Run.again {α : Type} {q : Inquiry α} (only : q.Only (Goal.Within sources)) {w : Visit}
    {a : α} (run : q.Run (Returns Guard.visit c) (.start limit) a w) (unrefused : w.refusals = 0)
    {v : Visit} (usable : v.Usable c sources limit) :
    ∃ v', q.Run (Returns Guard.visit c) v a v' ∧ v'.refusals = v.refusals ∧
      v'.Usable c sources limit := by
  obtain ⟨v', run', unrefused', -⟩ := Inquiry.Run.repeats all distinct
    (run.mono fun _ _ _ _ returned => ⟨returned, returned.repeats all distinct⟩) only
    (Visit.Usable.start all distinct).settled unrefused usable.ahead usable.settled
  exact ⟨v', run', unrefused', usable.of_run all distinct only run'⟩

end Again

/-! ## One member after the other -/

namespace Inquiry

variable {σ α β : Type} {R : Goal → σ → LiteralSet → σ → Prop}

theorem Run.bind {q : Inquiry α} {f : α → Inquiry β} {v u w : σ} {a : α} {b : β} (first : q.Run R v a u)
    (second : (f a).Run R u b w) : (q >>= f).Run R v b w := by
  induction first with
  | done => exact second
  | ask answered _ ih => exact .ask answered (ih second)

/-- Where each part can be found and keeps the states as they should be, all are found one after the
other. -/
theorem exists_run_collect {f : α → Inquiry LiteralSet} {values : α → LiteralSet} {P : σ → Prop}
    {xs : List α} (each : ∀ x ∈ xs, ∀ v, P v → ∃ w, (f x).Run R v (values x) w ∧ P w) {v : σ}
    (holds : P v) :
    ∃ w, (Eval.collect f xs).Run R v (.ofList (xs.flatMap fun x => (values x).values)) w ∧ P w := by
  unfold Eval.collect LiteralSet.ofList
  generalize LiteralSet.empty = found
  induction xs generalizing found v with
  | nil => exact ⟨v, .done, holds⟩
  | cons x xs ih =>
    obtain ⟨here, later⟩ := List.forall_mem_cons.mp each
    obtain ⟨u, run, holds'⟩ := here v holds
    obtain ⟨w, rest, holds''⟩ := ih later holds' (found.union (values x))
    refine ⟨w, ?_, holds''⟩
    have joined : found.insertAll ((x :: xs).flatMap fun x => (values x).values) =
        (found.union (values x)).insertAll (xs.flatMap fun x => (values x).values) := by
      rw [List.flatMap_cons, LiteralSet.insertAll, List.foldl_append]
      rfl
    have step : (f x >>= fun more => pure (found.union more)).Run R v (found.union (values x)) u :=
      run.bind .done
    rw [List.foldlM_cons, joined]
    exact step.bind rest

/-- The bound on the depth of questions is enough for an inquiry that comes to an end. -/
theorem Run.answerIn {c : Codebase} {s : Source} {q : Inquiry α}
    (only : q.Only (Goal.Within (s :: c.sources))) {v w : Visit} {a : α}
    (run : q.Run (Returns Guard.visit c) v a w) :
    q.run (Values.answerIn c s v.limit) v = .ok (a, w) := by
  rw [run_ok_iff]
  generalize same : v.limit = limit
  induction run with
  | done => exact .done
  | ask answered _ ih =>
    subst same
    exact .ask (answer_depthBound only.1 answered) (ih (only.2 _) answered.extends.limit)

end Inquiry

/-! ## Members of an object -/

theorem bars_shorthand (d : Dialect) :
    d.grammar.bars (· == .pair) (· == .shorthandPropertyIdentifier) := by
  obtain ⟨types, markup⟩ := d
  cases types <;> cases markup <;> decide +kernel

namespace Source

variable {s : Source} {object n : Node} {name : String}

/-- What a pair gives for the value of its key is not the short form of a member. -/
def PairsGiveValues (s : Source) : Prop :=
  ∀ n, s.root.Under n → n.kind = .pair → ∀ v ∈ n.child? .value, v.kind ≠ .shorthandPropertyIdentifier

instance (s : Source) : Decidable s.PairsGiveValues :=
  decidable_of_iff (∀ n ∈ s.root.descendants, n.kind = .pair →
      ∀ v ∈ n.child? .value, v.kind ≠ .shorthandPropertyIdentifier)
    (forall_congr' fun _ => imp_congr_left Node.mem_descendants)

/-- Apart from comments, the object only has pairs with keys that are known and members in the short form,
and every key stands there once. -/
structure PlainObject (s : Source) (object : Node) : Prop where
  members : ∀ n ∈ object.namedChildren, n.kind = .comment ∨
    n.kind = .pair ∧ (s.objectKey? n).isSome ∨ n.kind = .shorthandPropertyIdentifier
  distinct : (object.namedChildren.filterMap s.objectKey?).Nodup

theorem PlainObject.keys (plain : s.PlainObject object) :
    (s.objectKeys object).values = object.namedChildren.filterMap s.objectKey? :=
  LiteralSet.values_ofList_of_nodup plain.distinct

theorem objectKey?_of_namedMember? {m : Node} (found : s.namedMember? name n = some m) :
    s.objectKey? n = some name := by
  unfold namedMember? at found
  split at found
  case h_1 kind =>
    simp only [objectKey?, kind]
    exact Option.ite_none_right_eq_some.mp found |>.1
  case h_2 kind =>
    simp only [objectKey?, keyText?, kind]
    exact congrArg some (Option.ite_none_right_eq_some.mp found).1
  case h_3 => cases found

/-- The member with a name is the one with that key. -/
theorem PlainObject.objectMember? (plain : s.PlainObject object) (member : n ∈ object.namedChildren)
    (key : s.objectKey? n = some name) : s.objectMember? object name = s.namedMember? name n := by
  obtain ⟨before, after, split⟩ := List.append_of_mem member
  have distinct := plain.distinct
  rw [split, List.filterMap_append, List.filterMap_cons_some key, List.nodup_middle,
    List.nodup_cons, List.mem_append, List.mem_filterMap, List.mem_filterMap] at distinct
  obtain ⟨absent, -⟩ := distinct
  have others : ∀ n' ∈ before ++ after, s.namedMember? name n' = none := by
    intro n' other
    rw [Option.eq_none_iff_forall_ne_some]
    intro m found
    have key' := objectKey?_of_namedMember? found
    exact absent ((List.mem_append.mp other).imp (⟨n', ·, key'⟩) (⟨n', ·, key'⟩))
  obtain ⟨front, back⟩ := List.forall_mem_append.mp others
  rw [Source.objectMember?, split, List.findSome?_append, List.findSome?_cons,
    List.findSome?_eq_none_iff.mpr front, List.findSome?_eq_none_iff.mpr back, Option.none_or]
  cases s.namedMember? name n <;> rfl

/-- A member without a key is a comment, and has no values. -/
theorem PlainObject.propertyValues_of_none {c : Codebase} (plain : s.PlainObject object)
    (member : n ∈ object.namedChildren) (key : s.objectKey? n = none) :
    Values.propertyValues c one s n = .done .empty := by
  rcases plain.members n member with kind | ⟨-, known⟩ | kind
  · simp only [Values.propertyValues, kind]
    rfl
  · rw [key] at known
    cases known
  · simp only [objectKey?, keyText?, kind] at key
    cases key

/-- In a source that is read from its text, the short form of a member stands in objects only. -/
theorem Parsed.pairsGiveValues (parsed : s.Parsed) : s.PairsGiveValues := by
  intro n under kind v found
  have bars : s.root.tree.Bars (· == .pair) (· == .shorthandPropertyIdentifier) := by
    rw [show s.root.tree = s.tree from rfl, parsed]
    exact bars_parse rfl _ (bars_shorthand _) s.text
  have child := (mem_childNodes (List.mem_of_find?_eq_some found)).1
  have kept := (under.bars bars).children.1 (beq_iff_eq.mpr kind) _ child
  exact fun short => Bool.false_ne_true (kept.symm.trans (beq_iff_eq.mpr short))

end Source

/-! ## A chain of one name -/

section Chain

variable {c : Codebase} {s : Source} {d : Declaration} {init n : Node} {name : String}

theorem returns_iff_run {σ : Type} {g : Guard σ} {goal : Goal} (free : goal.gate = .free) {v w : σ}
    {values : LiteralSet} :
    Returns g c goal v values w ↔ (goal.inquiry c).Run (Returns g c) v values w := by
  rw [returns_iff, free]
  constructor
  · rintro (turned | ⟨u, u', opened, run, rfl⟩)
    · cases turned
    · cases opened
      exact run
  · exact fun run => .inr ⟨v, w, .free, run, rfl⟩

/-- Looking up a member of an object by its name leads to the values of the member. -/
theorem run_expressionMember_iff (pairs : s.PairsGiveValues) (inside : s.root.Under (s.unwrap init))
    (object : (s.unwrap init).kind = .object) (plain : s.PlainObject (s.unwrap init))
    (member : n ∈ (s.unwrap init).namedChildren) (key : s.objectKey? n = some name) {v w : Visit}
    {values : LiteralSet} :
    (Values.expressionMember c one s init name []).Run (Returns Guard.visit c) v values w ↔
      (Values.propertyValues c one s n).Run (Returns Guard.visit c) v values w := by
  simp only [Values.expressionMember, object, plain.objectMember? member key]
  rcases plain.members n member with kind | ⟨kind, -⟩ | kind
  · simp only [Source.objectKey?, kind] at key
    cases key
  · simp only [Source.objectKey?, kind] at key
    simp only [Source.namedMember?, Values.propertyValues, kind, key, ↓reduceIte]
    cases value : n.child? .value with
    | none => rfl
    | some m =>
      have under := inside.trans (Node.below_of_mem_namedChildren member).under
      simp only [pairs n under kind m value, List.isEmpty_nil, ↓reduceIte, Eval.asked]
  · simp only [Source.objectKey?, Source.keyText?, kind, Option.some.injEq] at key
    simp only [Source.namedMember?, Values.propertyValues, kind, key, ↓reduceIte, Values.named,
      Values.meant_eq]
    cases c.declared? s name .value with
    | none => rfl
    | some place =>
      simp only [Inquiry.run_one_iff]
      exact returns_iff_of_free rfl rfl

/-- In a new visit, what a chain of one name from a variable finds in its object with nothing refused, the
member has by itself. -/
theorem run_propertyValues_of_chain {limit : Nat} (untyped : d.ascription? = none)
    (kind : d.kind = .binding) (given : d.initializer? = some init) (pairs : s.PairsGiveValues)
    (inside : s.root.Under (s.unwrap init)) (object : (s.unwrap init).kind = .object)
    (plain : s.PlainObject (s.unwrap init)) (member : n ∈ (s.unwrap init).namedChildren)
    (key : s.objectKey? n = some name) {values : LiteralSet} {w : Visit}
    (returned : Returns Guard.visit c (.chain s d [name]) (.start limit) values w)
    (unrefused : w.refusals = 0) :
    ∃ v, (Values.propertyValues c one s n).Run (Returns Guard.visit c) (.start limit) values v ∧
      v.refusals = 0 := by
  have passes : (Goal.chain s d [name]).inquiry c = .one (.expressionMember s init [name]) := by
    simp only [Goal.inquiry, Values.declarationMember, kind, untyped, given]
    rfl
  rcases (returns_iff_of_one passes).mp returned with turned | ⟨u, u', opened, found, rfl⟩
  · rcases visit_turns turned with ⟨-, k, gate, -⟩ | ⟨rfl, -⟩
    · cases gate
    · cases unrefused
  · rw [Guard.close_refusals] at unrefused
    rcases visit_opens opened with ⟨gate, -⟩ | ⟨k, -, -, -, rfl⟩
    · cases gate
    · -- nothing was held before, so the variable is held besides
      have held : (Visit.start limit).hold k = (Visit.start limit).beside k := rfl
      have run := (run_expressionMember_iff pairs inside object plain member key).mp
        ((returns_iff_run rfl).mp found)
      rw [held] at run
      obtain ⟨v, rfl, run'⟩ := run.without unrefused
      exact ⟨v, run', unrefused⟩

end Chain

/-! ## The main statement -/

/-- The keys of an object one by one give what its members give. -/
theorem Source.PlainObject.flatMap_keys {s : Source} {object : Node} (plain : s.PlainObject object)
    (values : String → LiteralSet) :
    (object.namedChildren.flatMap fun n => ((s.objectKey? n).elim .empty values).values) =
      (s.objectKeys object).values.flatMap fun k => (values k).values := by
  rw [plain.keys, List.filterMap_eq_flatMap_toList, List.flatMap_assoc]
  refine List.flatMap_congr fun n _ => ?_
  cases s.objectKey? n <;> simp [LiteralSet.empty]

/-- **The values of an object are those of its members, looked up one by one.**  Let a variable without a
type have an object for its value, with each key once.  If for every key the chain of this one name from
the variable on finds its values in a new visit with nothing refused, then the values of the object are
found in one visit, again with nothing refused.  They are the values of the chains in the order of the
keys, each value where it comes up first. -/
theorem objectValues_eq_chains (c : Codebase) {s : Source} (pairs : s.Parsed ∨ s.PairsGiveValues)
    (distinct : Distinct (s :: c.sources)) {d : Declaration} (declared : d ∈ s.declarations)
    (kind : d.kind = .binding) (untyped : d.ascription? = none) {init : Node}
    (given : d.initializer? = some init) (object : (s.unwrap init).kind = .object)
    (plain : s.PlainObject (s.unwrap init)) (limit : Nat) (values : String → LiteralSet)
    (chains : ∀ k ∈ (s.objectKeys (s.unwrap init)).values, ∃ w,
      Values.answerIn c s limit (.chain s d [k]) (.start limit) = .ok (values k, w) ∧ w.refusals = 0) :
    ∃ w, Values.objectValues c (Values.answerIn c s limit) s (s.unwrap init) (.start limit) =
        .ok (.ofList ((s.objectKeys (s.unwrap init)).values.flatMap fun k => (values k).values), w) ∧
      w.refusals = 0 := by
  have pairs : s.PairsGiveValues := pairs.elim Source.Parsed.pairsGiveValues id
  have all : c.sources ⊆ s :: c.sources := List.subset_cons_self s _
  have source : s ∈ s :: c.sources := List.mem_cons_self
  have inside : s.root.Under (s.unwrap init) :=
    (Source.under_of_initializer? (Source.holds_of_mem_declarations declared).under given).trans
      (Source.under_unwrap init)
  -- member by member, in a visit that was used for the members before
  have each : ∀ n ∈ (s.unwrap init).namedChildren, ∀ v : Visit,
      v.Usable c (s :: c.sources) limit ∧ v.refusals = 0 →
      ∃ w, (Values.propertyValues c one s n).Run (Returns Guard.visit c) v
          ((s.objectKey? n).elim .empty values) w ∧
        w.Usable c (s :: c.sources) limit ∧ w.refusals = 0 := by
    rintro n member v ⟨usable, unrefused⟩
    have under := inside.trans (Node.below_of_mem_namedChildren member).under
    cases key : s.objectKey? n with
    | none =>
      rw [plain.propertyValues_of_none member key]
      exact ⟨v, .done, usable, unrefused⟩
    | some k =>
      have listed : k ∈ (s.objectKeys (s.unwrap init)).values := by
        rw [plain.keys]
        exact List.mem_filterMap.mpr ⟨n, member, key⟩
      obtain ⟨w, answered, unrefused'⟩ := chains k listed
      obtain ⟨u, run, unrefused''⟩ := run_propertyValues_of_chain untyped kind given pairs inside object
        plain member key ⟨_, answered⟩ unrefused'
      obtain ⟨v', run', same, usable'⟩ :=
        run.again all distinct (within_propertyValues all source under) unrefused'' usable
      exact ⟨v', run', usable', same.trans unrefused⟩
  obtain ⟨w, run, -, unrefused⟩ :=
    exists_run_collect each ⟨Visit.Usable.start all distinct, rfl⟩
  refine ⟨w, ?_, unrefused⟩
  rw [plain.flatMap_keys] at run
  have answered := Run.answerIn (within_objectValues all source inside) run
  rwa [run_objectValues] at answered

namespace Sample

def object : Tree :=
  .node .object (some .value) 25 38
    [.node (.token "\x7b") none 25 26 [],
      .node .pair none 27 33
        [.node .propertyIdentifier (some .key) 27 28 [], .node (.token ":") none 28 29 [],
          Barrel.literal .value 30 3],
      .node (.token ",") none 33 34 [], .node .shorthandPropertyIdentifier none 35 36 [],
      .node (.token "\x7d") none 37 38 []]

def objectDeclarator : Tree :=
  .node .variableDeclarator none 21 38
    [.node .identifier (some .name) 21 22 [], .node (.token "=") none 23 24 [], object]

def objectStatement : Tree :=
  .node .lexicalDeclaration none 15 39
    [.node (.token "const") (some .kind) 15 20 [], objectDeclarator, .node (.token ";") none 38 39 []]

def objectFile : Source where
  path := ⟨["", "a.ts"]⟩
  language := .typescript
  text := "const b = 'q';\nconst X = \x7b a: 'p', b \x7d;"
  tree := .node .program none 0 39 [Barrel.constant none 0 3, objectStatement]

def objectVariable : Declaration where
  kind := .binding
  node := ⟨objectDeclarator, [(objectStatement, 1), (objectFile.tree, 1)]⟩
  name := ⟨.node .identifier (some .name) 21 22 [],
    [(objectDeclarator, 0), (objectStatement, 1), (objectFile.tree, 1)]⟩

def objectNode : Node :=
  ⟨object, [(objectDeclarator, 2), (objectStatement, 1), (objectFile.tree, 1)]⟩

def objectCodebase : Codebase := ⟨⟨[], []⟩, [], .relativeOnly, 8⟩

theorem objectVariable_mem : objectVariable ∈ objectFile.declarations :=
  List.mem_cons_of_mem _ List.mem_cons_self

theorem distinct_objectFile : Distinct [objectFile] := .singleton (by decide +kernel)

theorem objectVariable_given : objectVariable.initializer? = some objectNode := rfl

theorem unwrap_objectNode : objectFile.unwrap objectNode = objectNode := rfl

theorem keys_objectNode : (objectFile.objectKeys objectNode).values = ["a", "b"] := by decide +kernel

theorem plainObject : objectFile.PlainObject objectNode where
  members := by decide +kernel
  distinct := by decide +kernel

end Sample

/-- In `const b = 'q'; const X = { a: 'p', b };`, the values of the object are those of `X.a` and `X.b`. -/
theorem object_values_as_chains :
    ∃ w, Values.objectValues Sample.objectCodebase
        (Values.answerIn Sample.objectCodebase Sample.objectFile 48) Sample.objectFile
        Sample.objectNode (.start 48) = .ok (.ofList ["p", "q"], w) ∧ w.refusals = 0 := by
  have pairs : Sample.objectFile.PairsGiveValues := by decide +kernel
  have found := objectValues_eq_chains Sample.objectCodebase (.inr pairs) Sample.distinct_objectFile
    Sample.objectVariable_mem rfl rfl Sample.objectVariable_given rfl Sample.plainObject 48
    (fun k => .singleton (if k = "a" then "p" else "q"))
  rw [Sample.unwrap_objectNode, Sample.keys_objectNode] at found
  apply found
  intro k listed
  simp only [List.mem_cons, List.not_mem_nil, or_false] at listed
  rcases listed with rfl | rfl
  · exact ⟨_, rfl, rfl⟩
  · exact ⟨_, rfl, rfl⟩

end TemplateValues
