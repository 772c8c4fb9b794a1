import Mathlib.Data.List.Forall2
import TemplateValues.Proofs.Scope
import TemplateValues.Values.Declaration

/-!
# Nodes that are written alike

Two nodes at different places of a source may be written alike, as in `const a = x, b = x`.  What is read
off the text of a node is then the same for both; and where reading goes down to other nodes, these are
again written alike (`Alike.unwrap`).
-/

namespace TemplateValues

open Syntax

/-! ## Related lists -/

section Related

variable {α β γ : Type} {R : α → β → Prop} {xs : List α} {ys : List β}

theorem rel_head? (related : List.Forall₂ R xs ys) : Option.Rel R xs.head? ys.head? := by
  cases related with
  | nil => exact .none
  | cons first _ => exact .some first

theorem rel_getLast? (related : List.Forall₂ R xs ys) : Option.Rel R xs.getLast? ys.getLast? := by
  rw [← List.head?_reverse, ← List.head?_reverse]
  exact rel_head? (List.forall₂_reverse_iff.mpr related)

theorem rel_find? {p : α → Bool} {q : β → Bool} {S : α → β → Prop}
    (each : ∀ a b, R a b → p a = q b ∧ S a b) (related : List.Forall₂ R xs ys) :
    Option.Rel S (xs.find? p) (ys.find? q) := by
  induction related with
  | nil => exact .none
  | cons first _ ih =>
    obtain ⟨same, found⟩ := each _ _ first
    rw [List.find?_cons, List.find?_cons, same]
    split
    · exact .some found
    · exact ih

theorem any_eq_of_rel {p : α → Bool} {q : β → Bool} (related : List.Forall₂ R xs ys)
    (same : ∀ a b, R a b → p a = q b) : xs.any p = ys.any q := by
  induction related with
  | nil => rfl
  | cons first _ ih => rw [List.any_cons, List.any_cons, ih, same _ _ first]

theorem filterMap_eq_of_rel {f : α → Option γ} {g : β → Option γ} (related : List.Forall₂ R xs ys)
    (same : ∀ a b, R a b → f a = g b) : xs.filterMap f = ys.filterMap g := by
  induction related with
  | nil => rfl
  | cons first _ ih => rw [List.filterMap_cons, List.filterMap_cons, ih, same _ _ first]

theorem bind_eq_of_rel {f : α → Option γ} {g : β → Option γ} {x : Option α} {y : Option β}
    (related : Option.Rel R x y) (same : ∀ a b, R a b → f a = g b) : x.bind f = y.bind g := by
  cases related with
  | none => rfl
  | some related => exact same _ _ related

end Related

namespace Source

variable {s : Source}

/-- The nodes are of the same kind and have the same text, and so it is with their children, which have the
same roles. -/
inductive Alike (s : Source) : Node → Node → Prop where
  | intro {m n : Node} : m.kind = n.kind → s.textOf m = s.textOf n →
      m.children.map Node.field = n.children.map Node.field →
      List.Forall₂ (Alike s) m.children n.children → Alike s m n

namespace Alike

variable {m n : Node}

section Parts

variable (alike : s.Alike m n)
include alike

theorem kind : m.kind = n.kind := by
  cases alike with
  | intro kind => exact kind

theorem text : s.textOf m = s.textOf n := by
  cases alike with
  | intro _ text => exact text

theorem children : List.Forall₂ s.Alike m.children n.children := by
  cases alike with
  | intro _ _ _ children => exact children

theorem roles : List.Forall₂ (fun a b => a.field = b.field ∧ s.Alike a b) m.children n.children := by
  cases alike with
  | intro _ _ roles children =>
    -- equal lists of roles are roles that are equal one by one
    rw [← List.forall₂_eq_eq_eq, List.forall₂_map_left_iff, List.forall₂_map_right_iff] at roles
    exact roles.mp (fun _ _ => And.intro) children

theorem isNamed : m.isNamed = n.isNamed := congrArg Kind.isNamed alike.kind

theorem namedChildren : List.Forall₂ s.Alike m.namedChildren n.namedChildren := by
  refine List.rel_filter ?_ alike.children
  intro a b alike
  simp only [alike.isNamed]

theorem content : List.Forall₂ s.Alike m.content n.content := by
  refine List.rel_filter ?_ alike.namedChildren
  intro a b alike
  simp only [alike.kind]

theorem child? (f : Field) : Option.Rel s.Alike (m.child? f) (n.child? f) := by
  refine rel_find? ?_ alike.roles
  rintro a b ⟨role, alike⟩
  exact ⟨by rw [role], alike⟩

end Parts

/-! ## What is read off a node -/

theorem stringValue?_eq (alike : s.Alike m n) : s.stringValue? m = s.stringValue? n := by
  have substituted : (m.namedChildren.any fun c => c.kind = .templateSubstitution) =
      n.namedChildren.any fun c => c.kind = .templateSubstitution :=
    any_eq_of_rel alike.namedChildren fun _ _ alike => by rw [alike.kind]
  simp only [stringValue?, alike.kind, alike.text, substituted]

theorem keyText?_eq (alike : s.Alike m n) : s.keyText? m = s.keyText? n := by
  have computed : m.content.head?.bind s.stringValue? = n.content.head?.bind s.stringValue? :=
    bind_eq_of_rel (rel_head? alike.content) fun _ _ => stringValue?_eq
  simp only [keyText?, alike.kind, alike.text, computed]

theorem objectKey?_eq (alike : s.Alike m n) : s.objectKey? m = s.objectKey? n := by
  have keyed : ∀ f, (m.child? f).bind s.keyText? = (n.child? f).bind s.keyText? :=
    fun f => bind_eq_of_rel (alike.child? f) fun _ _ => keyText?_eq
  simp only [objectKey?, alike.kind, keyed, alike.keyText?_eq]

theorem objectKeys_eq (alike : s.Alike m n) : s.objectKeys m = s.objectKeys n := by
  have keys : m.namedChildren.filterMap s.objectKey? = n.namedChildren.filterMap s.objectKey? :=
    filterMap_eq_of_rel alike.namedChildren fun _ _ => objectKey?_eq
  rw [objectKeys, objectKeys, keys]

/-! ## Unwrapping -/

theorem isConstAssertion_eq (alike : s.Alike m n) : s.isConstAssertion m = s.isConstAssertion n := by
  have last : (m.children.getLast?.any fun c => s.textOf c = "const") =
      n.children.getLast?.any fun c => s.textOf c = "const" := by
    have related := rel_getLast? alike.children
    generalize m.children.getLast? = x at related
    generalize n.children.getLast? = y at related
    cases related with
    | none => rfl
    | some related => simp only [Option.any_some, related.text]
  rw [isConstAssertion, isConstAssertion, alike.kind, last]

theorem callTarget?_eq (alike : s.Alike m n) : s.callTarget? m = s.callTarget? n := by
  have related := alike.child? .function
  rw [callTarget?, callTarget?, alike.kind]
  generalize m.child? .function = x at related
  generalize n.child? .function = y at related
  cases related with
  | none => rfl
  | some related => simp only [related.kind, related.text]

theorem callArguments (alike : s.Alike m n) :
    List.Forall₂ s.Alike (callArguments m) (callArguments n) := by
  have related := alike.child? .arguments
  rw [Source.callArguments, Source.callArguments]
  generalize m.child? .arguments = x at related
  generalize n.child? .arguments = y at related
  cases related with
  | none => exact .nil
  | some related => exact related.content

theorem wrapped? (alike : s.Alike m n) : Option.Rel s.Alike (s.wrapped? m) (s.wrapped? n) := by
  have inner := rel_head? alike.content
  have argument := rel_head? alike.callArguments
  rw [Source.wrapped?, Source.wrapped?, alike.kind, alike.isConstAssertion_eq, alike.callTarget?_eq]
  split
  case h_6 => exact .none
  case h_4 | h_5 =>
    split
    · assumption
    · exact .none
  all_goals exact inner

end Alike

/-- Unwrapping comes to an end within the height of a tree. -/
theorem unwrapUpTo_of_le {depth : Nat} {n : Node} (enough : n.tree.height ≤ depth) :
    s.unwrapUpTo depth n = s.unwrap n := by
  suffices same : ∀ depth', n.tree.height ≤ depth' → s.unwrapUpTo depth n = s.unwrapUpTo depth' n from
    same _ (Nat.le_refl _)
  induction depth generalizing n with
  | zero =>
    -- no tree is that low
    obtain ⟨⟨kind, field, start, stop, children⟩, above⟩ := n
    simp [Syntax.Tree.height] at enough
  | succ depth ih =>
    intro depth' enough'
    cases wrapped : s.wrapped? n with
    | none =>
      cases depth' with
      | zero => simp only [unwrapUpTo, wrapped]
      | succ depth' => simp only [unwrapUpTo, wrapped]
    | some m =>
      have lower := (below_of_wrapped? wrapped).height_lt
      obtain ⟨depth', rfl⟩ : ∃ k, depth' = k + 1 := ⟨depth' - 1, by omega⟩
      simp only [unwrapUpTo, wrapped]
      exact ih (by omega) depth' (by omega)

theorem unwrap_of_wrapped? {m n : Node} (wrapped : s.wrapped? m = some n) : s.unwrap m = s.unwrap n := by
  have lower := (below_of_wrapped? wrapped).height_lt
  rw [← unwrapUpTo_of_le (Nat.le_succ m.tree.height), unwrapUpTo, wrapped]
  exact unwrapUpTo_of_le (Nat.le_of_lt lower)

theorem unwrap_of_none {n : Node} (bare : s.wrapped? n = none) : s.unwrap n = n := by
  rw [← unwrapUpTo_of_le (Nat.le_succ n.tree.height), unwrapUpTo, bare]

theorem Alike.unwrapUpTo {m n : Node} (depth : Nat) (alike : s.Alike m n) :
    s.Alike (s.unwrapUpTo depth m) (s.unwrapUpTo depth n) := by
  induction depth generalizing m n with
  | zero => exact alike
  | succ depth ih =>
    have related := alike.wrapped?
    rw [Source.unwrapUpTo, Source.unwrapUpTo]
    generalize s.wrapped? m = x at related
    generalize s.wrapped? n = y at related
    cases related with
    | none => exact alike
    | some related => exact ih related

/-- Under wrappers that are written alike there are expressions that are. -/
theorem Alike.unwrap {m n : Node} (alike : s.Alike m n) : s.Alike (s.unwrap m) (s.unwrap n) := by
  -- the trees need not be of the same height, but a greater depth does no harm
  rw [← unwrapUpTo_of_le (Nat.le_max_left m.tree.height n.tree.height),
    ← unwrapUpTo_of_le (Nat.le_max_right m.tree.height n.tree.height)]
  exact alike.unwrapUpTo _

end Source

end TemplateValues
