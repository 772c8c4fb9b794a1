import Mathlib.Data.List.Lex
import TemplateValues.Proofs.Scope

/-!
# The first declaration of a name

The place of a node is the way that leads to it from the root.  Places are ordered like the words of a
dictionary: a node comes before all that lies below it, and what lies below a child comes before what lies
below a later one.  A search through the named nodes of a source follows this order
(`pairwise_namedDescendants`), so the declaration that it finds is the first one that fits, however
declarations lie in each other.  What is looked up as a type or as a value is told by the kind of a
declaration alone, and every kind is one of the two; so without this distinction the earlier of both is found
(`find?_first_in_document_order`).
-/

namespace TemplateValues

open Syntax

namespace Syntax

/-! ## Places -/

namespace Node

def place (n : Node) : List Nat := n.address.reverse

/-- The second node is the first one, or named nodes lead down to it. -/
inductive NamedUnder (n : Node) : Node → Prop where
  | refl : NamedUnder n n
  | child {m k} : NamedUnder n m → k ∈ m.namedChildren → NamedUnder n k

variable {n m : Node}

theorem place_child {tree parent : Tree} {above : List (Tree × Nat)} {i : Nat} :
    (⟨tree, (parent, i) :: above⟩ : Node).place = (⟨parent, above⟩ : Node).place ++ [i] :=
  List.reverse_cons

theorem NamedUnder.under (under : n.NamedUnder m) : n.Under m := by
  induction under with
  | refl => exact .refl
  | child _ child ih => exact ih.child (List.mem_filter.mp child).1

theorem NamedUnder.of_child {k : Node} (child : k ∈ n.namedChildren) (under : k.NamedUnder m) :
    n.NamedUnder m := by
  induction under with
  | refl => exact .child .refl child
  | child _ step ih => exact ih.child step

/-- The way to a node goes on to all that lies under it. -/
theorem Under.place_append (under : n.Under m) : ∃ rest, m.place = n.place ++ rest := by
  induction under with
  | refl => exact ⟨[], (List.append_nil _).symm⟩
  | @child m k _ child ih =>
    obtain ⟨rest, way⟩ := ih
    obtain ⟨-, i, above⟩ := mem_childNodes child
    obtain ⟨tree, above'⟩ := k
    cases above
    exact ⟨rest ++ [i], by rw [place_child, ← List.append_assoc, ← way]⟩

/-- A node comes before all that lies below it. -/
theorem Below.place_lt (below : n.Below m) : n.place < m.place := by
  obtain ⟨c, child, under⟩ := below
  obtain ⟨-, i, above⟩ := mem_childNodes child
  obtain ⟨tree, above'⟩ := c
  cases above
  obtain ⟨rest, way⟩ := under.place_append
  have longer : n.place ++ [] < n.place ++ i :: rest := List.append_left_lt (List.nil_lt_cons _ _)
  rw [way, place_child, List.append_assoc]
  rwa [List.append_nil] at longer

end Node

theorem index_le_of_mem_childNodes {parent : Tree} {above : List (Tree × Nat)} {i : Nat}
    {ts : List Tree} {c : Node} (member : c ∈ childNodes parent above i ts) :
    ∃ j, i ≤ j ∧ c.above = (parent, j) :: above := by
  induction ts generalizing i with
  | nil => cases member
  | cons t ts ih =>
    rcases List.mem_cons.mp member with rfl | later
    · exact ⟨i, Nat.le_refl i, rfl⟩
    · obtain ⟨j, after, way⟩ := ih later
      exact ⟨j, Nat.le_of_succ_le after, way⟩

/-- What lies under a child comes before what lies under a later one. -/
theorem pairwise_childNodes (parent : Tree) (above : List (Tree × Nat)) (i : Nat) (ts : List Tree) :
    (childNodes parent above i ts).Pairwise fun a b =>
      ∀ x, a.Under x → ∀ y, b.Under y → x.place < y.place := by
  induction ts generalizing i with
  | nil => exact .nil
  | cons t ts ih =>
    refine .cons (fun b member x under y under' => ?_) (ih (i + 1))
    obtain ⟨k, after, way⟩ := index_le_of_mem_childNodes member
    obtain ⟨tree, above'⟩ := b
    cases way
    obtain ⟨rest, first⟩ := under.place_append
    obtain ⟨rest', second⟩ := under'.place_append
    rw [first, second, Node.place_child, Node.place_child, List.append_assoc, List.append_assoc]
    exact List.append_left_lt (List.cons_lt_cons_iff.mpr (.inl after))

namespace Node

/-! ## Searches -/

theorem mem_namedDescendants {n m : Node} : m ∈ n.namedDescendants ↔ n.NamedUnder m := by
  constructor
  · intro member
    induction height : n.tree.height using Nat.strongRecOn generalizing n with
    | ind h ih =>
      rw [namedDescendants_eq] at member
      rcases List.mem_cons.mp member with rfl | member
      · exact .refl
      · obtain ⟨c, child, member⟩ := List.mem_flatMap.mp member
        have lower := (mem_children (List.mem_filter.mp child).1).2
        exact .of_child child (ih c.tree.height (height ▸ lower) member rfl)
  · intro under
    induction under with
    | refl =>
      rw [namedDescendants_eq]
      exact List.mem_cons_self
    | child _ child ih =>
      obtain ⟨child, named⟩ := List.mem_filter.mp child
      exact Tree.mem_preorder_of_child n.tree ih child named

/-- A search comes to nodes in the order of their places. -/
theorem pairwise_namedDescendants (n : Node) :
    n.namedDescendants.Pairwise fun a b => a.place < b.place := by
  -- a child is a node with another way up, so the induction is on the height and not on the tree
  induction height : n.tree.height using Nat.strongRecOn generalizing n with
  | ind h ih =>
    rw [namedDescendants_eq, List.pairwise_cons, List.pairwise_flatMap]
    refine ⟨fun m member => ?_, fun c child => ?_, ?_⟩
    · obtain ⟨c, child, member⟩ := List.mem_flatMap.mp member
      exact Below.place_lt ⟨c, (List.mem_filter.mp child).1, (mem_namedDescendants.mp member).under⟩
    · exact ih c.tree.height (height ▸ (mem_children (List.mem_filter.mp child).1).2) c rfl
    · refine ((pairwise_childNodes n.tree n.above 0 n.tree.children).filter _).imp ?_
      intro a b order x member y member'
      exact order x (mem_namedDescendants.mp member).under y (mem_namedDescendants.mp member').under

end Node

end Syntax

/-! ## Declarations of a name -/

/-- Every kind of declaration is looked up as a type or as a value. -/
theorem DeclarationKind.isIn_any_iff (k : DeclarationKind) :
    k.isIn .any ↔ k.isIn .type ∨ k.isIn .value := by
  cases k <;> decide

/-- The declaration binds the name in the space, not as a property, and named nodes lead to it. -/
structure Source.Declares (s : Source) (name : String) (space : Space) (d : Declaration) : Prop where
  inside : s.root.NamedUnder d.node
  declares : Declaration.ofNode? d.node = some d
  bound : d.kind ≠ .property
  space : d.kind.isIn space
  name : s.textOf d.name = name

def Declaration.earlier : Option Declaration → Option Declaration → Option Declaration
  | some d, some e => if e.node.place < d.node.place then some e else some d
  | some d, none => some d
  | none, e => e

namespace Source

variable {s : Source} {name : String} {space : Space} {d e : Declaration}

theorem declares_any_iff :
    s.Declares name .any d ↔ s.Declares name .type d ∨ s.Declares name .value d := by
  constructor
  · rintro ⟨inside, declares, bound, any, text⟩
    rcases d.kind.isIn_any_iff.mp any with type | value
    · exact .inl ⟨inside, declares, bound, type, text⟩
    · exact .inr ⟨inside, declares, bound, value, text⟩
  · rintro (⟨inside, declares, bound, space, text⟩ | ⟨inside, declares, bound, space, text⟩)
    · exact ⟨inside, declares, bound, d.kind.isIn_any_iff.mpr (.inl space), text⟩
    · exact ⟨inside, declares, bound, d.kind.isIn_any_iff.mpr (.inr space), text⟩

/-- What the search accepts is what declares the name. -/
theorem declares_iff {n : Node} (inside : n ∈ s.root.namedDescendants) :
    ((Declaration.ofNode? n).filter fun d => d.kind ≠ .property && s.binds name space d) = some d ↔
      d.node = n ∧ s.Declares name space d := by
  rw [Option.filter_eq_some_iff]
  simp only [binds, Bool.and_eq_true, decide_eq_true_eq]
  constructor
  · rintro ⟨declares, bound, space, text⟩
    obtain rfl := Declaration.ofNode?_node declares
    exact ⟨rfl, Node.mem_namedDescendants.mp inside, declares, bound, space, text⟩
  · rintro ⟨rfl, -, declares, bound, space, text⟩
    exact ⟨declares, bound, space, text⟩

theorem find?_eq_none_iff : s.find? name space = none ↔ ∀ d, ¬ s.Declares name space d := by
  rw [find?_eq, List.findSome?_eq_none_iff]
  constructor
  · intro nothing d declares
    have inside := Node.mem_namedDescendants.mpr declares.inside
    have accepted := (declares_iff inside).mpr ⟨rfl, declares⟩
    rw [nothing d.node inside] at accepted
    cases accepted
  · intro nothing n inside
    cases accepted : (Declaration.ofNode? n).filter fun d =>
        d.kind ≠ .property && s.binds name space d with
    | none => rfl
    | some d => exact absurd ((declares_iff inside).mp accepted).2 (nothing d)

/-- What is found declares the name, and all else that does comes later. -/
theorem first_of_find? (found : s.find? name space = some d) :
    s.Declares name space d ∧ ∀ e, s.Declares name space e → e = d ∨ d.node.place < e.node.place := by
  rw [find?_eq] at found
  obtain ⟨before, n, after, listed, accepted, passed⟩ := List.findSome?_eq_some_iff.mp found
  have inside : n ∈ s.root.namedDescendants := listed ▸ List.mem_append_right before List.mem_cons_self
  obtain ⟨rfl, declares⟩ := (declares_iff inside).mp accepted
  refine ⟨declares, fun e declares' => ?_⟩
  have inside' := Node.mem_namedDescendants.mpr declares'.inside
  have accepted' := (declares_iff inside').mpr ⟨rfl, declares'⟩
  have ordered := s.root.pairwise_namedDescendants
  rw [listed, List.pairwise_append, List.pairwise_cons] at ordered
  rw [listed, List.mem_append, List.mem_cons] at inside'
  rcases inside' with early | same | late
  · rw [passed e.node early] at accepted'
    cases accepted'
  · rw [same, accepted] at accepted'
    exact .inl (Option.some.inj accepted').symm
  · exact .inr (ordered.2.1.1 e.node late)

theorem find?_eq_some_iff : s.find? name space = some d ↔
    s.Declares name space d ∧ ∀ e, s.Declares name space e → e = d ∨ d.node.place < e.node.place := by
  refine ⟨first_of_find?, fun ⟨declares, first⟩ => ?_⟩
  cases found : s.find? name space with
  | none => exact absurd declares (find?_eq_none_iff.mp found d)
  | some e =>
    obtain ⟨declares', first'⟩ := first_of_find? found
    rcases first e declares' with rfl | before
    · rfl
    · rcases first' d declares with rfl | after
      · rfl
      · exact absurd (before.trans after) (lt_irrefl _)

/-- What is first among all declarations of the name is first in each space that it is in. -/
theorem find?_of_any (found : s.find? name .any = some d) (declares : s.Declares name space d)
    (narrower : ∀ e, s.Declares name space e → s.Declares name .any e) : s.find? name space = some d :=
  find?_eq_some_iff.mpr ⟨declares, fun e other => (find?_eq_some_iff.mp found).2 e (narrower e other)⟩

/-- What is found without the distinction of types and values is the earlier of both. -/
theorem find?_any :
    s.find? name .any = Declaration.earlier (s.find? name .type) (s.find? name .value) := by
  have ofType : ∀ e, s.Declares name .type e → s.Declares name .any e := fun e type =>
    declares_any_iff.mpr (.inl type)
  have ofValue : ∀ e, s.Declares name .value e → s.Declares name .any e := fun e value =>
    declares_any_iff.mpr (.inr value)
  cases found : s.find? name .any with
  | none =>
    have nothing := find?_eq_none_iff.mp found
    rw [find?_eq_none_iff.mpr fun e type => nothing e (ofType e type),
      find?_eq_none_iff.mpr fun e value => nothing e (ofValue e value)]
    rfl
  | some d =>
    obtain ⟨declares, first⟩ := find?_eq_some_iff.mp found
    -- the first in both spaces is the first in its own, and the first of the other space comes later
    rcases declares_any_iff.mp declares with type | value
    · rw [find?_of_any found type ofType]
      cases value : s.find? name .value with
      | none => rfl
      | some e =>
        have later : ¬ e.node.place < d.node.place := by
          rcases first e (ofValue e (find?_eq_some_iff.mp value).1) with rfl | after
          · exact lt_irrefl _
          · exact lt_asymm after
        rw [Declaration.earlier, if_neg later]
    · rw [find?_of_any found value ofValue]
      cases type : s.find? name .type with
      | none => rfl
      | some e =>
        rw [Declaration.earlier]
        rcases first e (ofType e (find?_eq_some_iff.mp type).1) with rfl | after
        · rw [ite_self]
        · rw [if_pos after]

end Source

/-! ## The main statement -/

/-- **A name means its first declaration.**  What is found for a name in a space declares it there, and
comes before everything else that does; nothing is found just if nothing does.  Without the distinction of
types and values, the earlier of the type and the value that are found is found. -/
theorem find?_first_in_document_order (s : Source) (name : String) :
    (∀ space d, s.find? name space = some d ↔ s.Declares name space d ∧
      ∀ e, s.Declares name space e → e = d ∨ d.node.place < e.node.place) ∧
    (∀ space, s.find? name space = none ↔ ∀ d, ¬ s.Declares name space d) ∧
    s.find? name .any = Declaration.earlier (s.find? name .type) (s.find? name .value) :=
  ⟨fun _ _ => Source.find?_eq_some_iff, fun _ => Source.find?_eq_none_iff, Source.find?_any⟩

end TemplateValues
