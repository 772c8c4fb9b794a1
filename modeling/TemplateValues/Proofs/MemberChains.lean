import TemplateValues.Proofs.Frame

/-!
# Member chains one member at a time

Where a type has a member of another type, a chain that starts with this member goes on in the other
type.  The first type is held then, so this is not quite the same as starting there: the first type is
refused wherever it comes up again (`chain_composes`).  If it does not come up again, the chain can be
taken apart one member at a time.
-/

namespace TemplateValues

open Syntax

/-- The object type that a declared type is, if members are looked up there and nowhere else. -/
inductive Declaration.HasBody (d : Declaration) (body : Node) : Prop where
  | typeAlias : d.kind = .typeAlias → d.node.child? .value = some body → body.kind = .objectType →
      d.HasBody body
  | interface : d.kind = .interface → d.node.child? .body = some body →
      body.kind = .interfaceBody ∨ body.kind = .objectType →
      d.node.childOfKind? .extendsTypeClause = none → d.HasBody body

/-- The first property with the name in the body of the declared type `d` is written with the name of a
type, and that means `e`. -/
def Codebase.HasMember (c : Codebase) (s : Source) (d : Declaration) (name : String) (t : Source)
    (e : Declaration) : Prop :=
  ∃ body signature annotation type, d.HasBody body ∧ s.signature? body name = some signature ∧
    signature.child? .type = some annotation ∧ annotation.kind = .typeAscription ∧
    annotation.content.head? = some type ∧ type.kind = .typeIdentifier ∧
    c.declared? s (s.textOf type) .type = some (t, e)

/-! ## Passing a question on -/

section Passing

variable {σ : Type} {g : Guard σ} {c : Codebase}

/-- A goal that passes another's answer on has that answer, if its gate opens. -/
theorem returns_iff_of_one {goal next : Goal} (passes : goal.inquiry c = .one next) {v w : σ}
    {values : LiteralSet} :
    Returns g c goal v values w ↔
      g.Turns goal.gate v values w ∨
        ∃ u u', g.Opens goal.gate v u ∧ Returns g c next u values u' ∧
          w = g.close goal.gate u values u' := by
  rw [returns_iff]
  simp only [passes, Inquiry.run_one_iff]

theorem returns_iff_of_free {goal next : Goal} (free : goal.gate = .free)
    (passes : goal.inquiry c = .one next) {v w : σ} {values : LiteralSet} :
    Returns g c goal v values w ↔ Returns g c next v values w := by
  rw [returns_iff_of_one passes, free]
  constructor
  · rintro (turned | ⟨u, u', opened, returned, rfl⟩)
    · cases turned
    · cases opened
      exact returned
  · exact fun returned => .inr ⟨v, w, .free, returned, rfl⟩

/-- To have nothing to fall back on is to be on one's own. -/
theorem orElse_unknown {M : Type → Type} [Monad M] [LawfulMonad M] (first : M LiteralSet) :
    Eval.orElse first Eval.unknown = first := by
  have kept : (fun values : LiteralSet => if values.isEmpty then (Eval.unknown : M LiteralSet)
      else pure values) = pure := by
    funext values
    rcases values with ⟨_ | ⟨value, values⟩⟩ <;> rfl
  rw [Eval.orElse, kept, bind_pure]

end Passing

/-! ## From member to member -/

section Members

variable {c : Codebase} {s t : Source} {d e : Declaration} {body : Node} {name : String}
  {rest : List String}

/-- A chain in a declared type asks about the body only. -/
theorem Declaration.HasBody.inquiry (has : d.HasBody body) :
    (Goal.chain s d (name :: rest)).inquiry c = .one (.typeMember s body (name :: rest)) := by
  rw [Goal.inquiry]
  cases has with
  | typeAlias kind value => simp only [Values.declarationMember, kind, value, Eval.asked]
  | interface kind value _ plain =>
    have nothing : Values.extended d = [] := by rw [Values.extended, plain]
    simp only [Values.declarationMember, kind, value, nothing, Eval.asked, Eval.firstKnown]
    exact orElse_unknown _

theorem Declaration.HasBody.kind (has : d.HasBody body) :
    body.kind = .objectType ∨ body.kind = .interfaceBody := by
  cases has with
  | typeAlias _ _ kind => exact .inl kind
  | interface _ _ kind => exact kind.symm

/-- Behind a member whose type has a name, the chain goes on at the declaration of that name. -/
theorem returns_typeMember_iff {σ : Type} {g : Guard σ} {signature annotation type : Node}
    (kind : body.kind = .objectType ∨ body.kind = .interfaceBody)
    (found : s.signature? body name = some signature)
    (written : signature.child? .type = some annotation) (ascribes : annotation.kind = .typeAscription)
    (named : annotation.content.head? = some type) (plain : type.kind = .typeIdentifier)
    (means : c.declared? s (s.textOf type) .type = some (t, e)) (more : rest ≠ []) {v w : σ}
    {values : LiteralSet} :
    Returns g c (.typeMember s body (name :: rest)) v values w ↔ Returns g c (.chain t e rest) v values w := by
  obtain ⟨next, others, rfl⟩ := List.exists_cons_of_ne_nil more
  have inBody : (Goal.typeMember s body (name :: next :: others)).inquiry c =
      .one (.typeMember s annotation (next :: others)) := by
    rcases kind with kind | kind <;>
      simp [Goal.inquiry, Values.typeMember, kind, found, written, Eval.asked]
  have inAnnotation : (Goal.typeMember s annotation (next :: others)).inquiry c =
      .one (.typeMember s type (next :: others)) := by
    simp only [Goal.inquiry, Values.typeMember, ascribes, named, Eval.asked]
  have inType : (Goal.typeMember s type (next :: others)).inquiry c = .one (.chain t e (next :: others)) := by
    simp only [Goal.inquiry, Values.typeMember, plain, Values.named, Values.meant_eq, means]
  rw [returns_iff_of_free rfl inBody, returns_iff_of_free rfl inAnnotation, returns_iff_of_free rfl inType]

/-- In a new visit, the first type is entered and the chain goes on with it held. -/
theorem returns_chain_iff {limit : Nat} (member : c.HasMember s d name t e) (more : rest ≠ [])
    (positive : 0 < limit) (values : LiteralSet) :
    (∃ w, Returns Guard.visit c (.chain s d (name :: rest)) (.start limit) values w) ↔
      ∃ w, Returns Guard.visit c (.chain t e rest) ((Visit.start limit).hold (d.key s)) values w := by
  obtain ⟨body, signature, annotation, type, has, found, written, ascribes, named, plain, means⟩ := member
  have goesOn : ∀ {v w}, Returns Guard.visit c (.typeMember s body (name :: rest)) v values w ↔
      Returns Guard.visit c (.chain t e rest) v values w :=
    returns_typeMember_iff has.kind found written ascribes named plain means more
  have entered : (Visit.start limit).enter (d.key s) = (true, (Visit.start limit).hold (d.key s)) :=
    Visit.enter_of_allowed positive List.not_mem_nil
  have opened : Guard.visit.Opens (Goal.chain s d (name :: rest)).gate (.start limit)
      ((Visit.start limit).hold (d.key s)) := .held entered
  constructor
  · rintro ⟨w, returned⟩
    rcases (returns_iff_of_one has.inquiry).mp returned with turned | ⟨u, u', opened', behind, -⟩
    · exact absurd opened turned.not_opens
    · cases opened.unique opened'
      exact ⟨u', goesOn.mp behind⟩
  · rintro ⟨w, returned⟩
    exact ⟨_, (returns_iff_of_one has.inquiry).mpr (.inr ⟨_, w, opened, goesOn.mpr returned, rfl⟩)⟩

/-- A chain that comes back to a declaration that is held finds nothing there. -/
theorem returns_chain_of_held {v : Visit} (held : e.key t ∈ v.held) (more : rest ≠ [])
    (values : LiteralSet) :
    (∃ w, Returns Guard.visit c (.chain t e rest) v values w) ↔ values = .empty := by
  obtain ⟨next, others, rfl⟩ := List.exists_cons_of_ne_nil more
  have turned : Guard.visit.Turns (Goal.chain t e (next :: others)).gate v .empty v.refuse :=
    .unheld (Visit.enter_of_refused (.inr held))
  have returned : Returns Guard.visit c (.chain t e (next :: others)) v .empty v.refuse :=
    returns_iff.mpr (.inl turned)
  constructor
  · rintro ⟨w, returned'⟩
    exact (returned'.unique returned).1
  · rintro rfl
    exact ⟨_, returned⟩

end Members

/-! ## The main statement -/

/-- **Chains compose where they do not come back.**  Let a declared type have a member whose type is
declared by `e`, and let there be room for all declarations.  A chain that starts with this member has
the values of the rest of it at `e`, found with the first type held.  If the first type does not come up
when the rest is looked up at `e` in a new visit, these are the values in a new visit.  If `e` is the
first type itself, there are none. -/
theorem chain_composes (c : Codebase) {sources : List Source} (all : c.sources ⊆ sources) {s t : Source}
    {d e : Declaration} {name : String} {rest : List String} {limit : Nat} (source : s ∈ sources)
    (declared' : d ∈ s.declarations) (member : c.HasMember s d name t e) (more : rest ≠ [])
    (room : (declared sources).length < limit) (values : LiteralSet) :
    ((∃ w, Returns Guard.visit c (.chain s d (name :: rest)) (.start limit) values w) ↔
      ∃ w, Returns Guard.visit c (.chain t e rest) ((Visit.start limit).hold (d.key s)) values w) ∧
    (Avoids c (d.key s) (.chain t e rest) (.start limit) →
      ((∃ w, Returns Guard.visit c (.chain s d (name :: rest)) (.start limit) values w) ↔
        ∃ w, Returns Guard.visit c (.chain t e rest) (.start limit) values w)) ∧
    (e.key t = d.key s →
      ((∃ w, Returns Guard.visit c (.chain s d (name :: rest)) (.start limit) values w) ↔
        values = .empty)) := by
  have composed := returns_chain_iff member more (Nat.zero_lt_of_lt room) values
  refine ⟨composed, ?_, ?_⟩
  · intro avoids
    obtain ⟨_, _, _, _, _, _, _, _, _, _, means⟩ := member
    have within : (Goal.chain t e rest).Within sources :=
      (Codebase.provides_of_declared? means).within all source
    have leaves : (Visit.start limit).Leaves sources (d.key s) := .start source declared' room
    exact composed.trans (returns_beside_iff all within leaves avoids values)
  · intro same
    have held : e.key t ∈ ((Visit.start limit).hold (d.key s)).held := List.mem_singleton.mpr same
    exact composed.trans (returns_chain_of_held held more values)

namespace Sample

def property (start stop : Nat) (type : Tree) : Tree :=
  .node .propertySignature none start type.stop
    [.node .propertyIdentifier (some .name) start stop [],
      .node .typeAscription (some .type) stop type.stop
        [.node (.token ":") none stop (stop + 1) [], type]]

def typeName (start : Nat) : Tree := .node .typeIdentifier none start (start + 1) []

def objectType (start stop : Nat) (property : Tree) : Tree :=
  .node .objectType (some .value) start stop
    [.node (.token "\x7b") none start (start + 1) [], property,
      .node (.token "\x7d") none (stop - 1) stop []]

def outerType : Tree := typeAlias 0 (objectType 9 17 (property 11 12 (typeName 14)))

def innerType : Tree := typeAlias 18 (objectType 27 37 (property 29 30 (literal none 32)))

def nested : Source where
  path := ⟨["", "a.ts"]⟩
  language := .typescript
  text := "type A = \x7b b: B \x7d;type B = \x7b k: 'x' \x7d;"
  tree := .node .program none 0 38 [outerType, innerType]

def nestedCodebase : Codebase := ⟨⟨[], []⟩, [nested], .relativeOnly, 8⟩

def outerTypeDeclaration : Declaration where
  kind := .typeAlias
  node := ⟨outerType, [(nested.tree, 0)]⟩
  name := ⟨.node .typeIdentifier (some .name) 5 6 [], [(outerType, 1), (nested.tree, 0)]⟩

def innerTypeDeclaration : Declaration where
  kind := .typeAlias
  node := ⟨innerType, [(nested.tree, 1)]⟩
  name := ⟨.node .typeIdentifier (some .name) 23 24 [], [(innerType, 1), (nested.tree, 1)]⟩

theorem hasMember_nested :
    nestedCodebase.HasMember nested outerTypeDeclaration "b" nested innerTypeDeclaration :=
  ⟨_, _, _, _, .typeAlias rfl rfl rfl, rfl, rfl, rfl, rfl, rfl, rfl⟩

/-- The outer type does not come up where the member of the inner type is looked up. -/
theorem avoids_nested : Avoids nestedCodebase (outerTypeDeclaration.key nested)
    (.chain nested innerTypeDeclaration ["k"]) (.start 48) := by
  have entered : (Visit.start 48).enter (innerTypeDeclaration.key nested) =
      (true, (Visit.start 48).hold (innerTypeDeclaration.key nested)) := rfl
  refine .of_one rfl (by decide) (.held entered) ?_
  refine .of_one rfl (by decide) .free ?_
  refine .of_one rfl (by decide) .free ?_
  exact .of_done rfl (by decide)

def linkedType : Tree :=
  .node .interfaceDeclaration none 0 34
    [.node (.token "interface") none 0 9 [], .node .typeIdentifier (some .name) 10 11 [],
      .node .interfaceBody (some .body) 12 34
        [.node (.token "\x7b") none 12 13 [], property 14 18 (typeName 20),
          .node (.token ";") none 21 22 [], property 23 27 (literal none 29),
          .node (.token "\x7d") none 33 34 []]]

def linked : Source where
  path := ⟨["", "a.ts"]⟩
  language := .typescript
  text := "interface N \x7b next: N; kind: 'a' \x7d"
  tree := .node .program none 0 34 [linkedType]

def linkedCodebase : Codebase := ⟨⟨[], []⟩, [linked], .relativeOnly, 8⟩

def linkedDeclaration : Declaration where
  kind := .interface
  node := ⟨linkedType, [(linked.tree, 0)]⟩
  name := ⟨.node .typeIdentifier (some .name) 10 11 [], [(linkedType, 1), (linked.tree, 0)]⟩

theorem hasMember_linked :
    linkedCodebase.HasMember linked linkedDeclaration "next" linked linkedDeclaration :=
  ⟨_, _, _, _, .interface rfl rfl (.inl rfl) rfl, rfl, rfl, rfl, rfl, rfl, rfl⟩

end Sample

/-- In `type A = { b: B };type B = { k: 'x' };`, the chain `b.k` in `A` is the chain `k` in `B`.  In
`interface N { next: N; kind: 'a' }`, the chain `next.kind` comes back to `N` and finds nothing. -/
theorem sample_chain_composes :
    (∃ w, Returns Guard.visit Sample.nestedCodebase
      (.chain Sample.nested Sample.innerTypeDeclaration ["k"]) (.start 48) (.singleton "x") w) ∧
    (∃ w, Returns Guard.visit Sample.nestedCodebase
      (.chain Sample.nested Sample.outerTypeDeclaration ["b", "k"]) (.start 48) (.singleton "x") w) ∧
    ∃ w, Returns Guard.visit Sample.linkedCodebase
      (.chain Sample.linked Sample.linkedDeclaration ["next", "kind"]) (.start 48) .empty w := by
  have inner : ∃ w, Returns Guard.visit Sample.nestedCodebase
      (.chain Sample.nested Sample.innerTypeDeclaration ["k"]) (.start 48) (.singleton "x") w := ⟨_, 10, rfl⟩
  have few : (declared [Sample.nested]).length < 48 := by decide
  have few' : (declared [Sample.linked]).length < 48 := by decide
  obtain ⟨-, apart, -⟩ := chain_composes Sample.nestedCodebase (List.Subset.refl _) List.mem_cons_self
    List.mem_cons_self Sample.hasMember_nested (List.cons_ne_nil "k" []) few (.singleton "x")
  obtain ⟨-, -, back⟩ := chain_composes Sample.linkedCodebase (List.Subset.refl _) List.mem_cons_self
    List.mem_cons_self Sample.hasMember_linked (List.cons_ne_nil "kind" []) few' .empty
  exact ⟨inner, (apart Sample.avoids_nested).mpr inner, (back rfl).mpr rfl⟩

/-- In `interface N { next: N; kind: 'a' }`, the chain `next.kind` does not have the values that the
chain `kind` has, although there is room for all declarations. -/
theorem linked_chain_not_composed :
    Sample.linkedDeclaration ∈ Sample.linked.declarations ∧
    Sample.linkedCodebase.HasMember Sample.linked Sample.linkedDeclaration "next" Sample.linked
      Sample.linkedDeclaration ∧
    (declared [Sample.linked]).length < 48 ∧
    ¬ ∀ values, (∃ w, Returns Guard.visit Sample.linkedCodebase
        (.chain Sample.linked Sample.linkedDeclaration ["next", "kind"]) (.start 48) values w) ↔
      ∃ w, Returns Guard.visit Sample.linkedCodebase
        (.chain Sample.linked Sample.linkedDeclaration ["kind"]) (.start 48) values w := by
  refine ⟨List.mem_cons_self, Sample.hasMember_linked, by decide, ?_⟩
  intro composes
  have alone : ∃ w, Returns Guard.visit Sample.linkedCodebase
      (.chain Sample.linked Sample.linkedDeclaration ["kind"]) (.start 48) (.singleton "a") w := ⟨_, 10, rfl⟩
  have nothing : ∃ w, Returns Guard.visit Sample.linkedCodebase
      (.chain Sample.linked Sample.linkedDeclaration ["next", "kind"]) (.start 48) .empty w :=
    ⟨_, 10, rfl⟩
  obtain ⟨w, returned⟩ := (composes (.singleton "a")).mpr alone
  obtain ⟨w', returned'⟩ := nothing
  cases (returned.unique returned').1

end TemplateValues
