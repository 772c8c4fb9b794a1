import TemplateValues.Proofs.Onward
import TemplateValues.Source.Literal

/-!
# Where names and nodes lead

Going down from a node, or up, stays in the tree of a source, and going down makes trees lower.  Names
lead to declarations of the source itself or of a source of the codebase (`Codebase.Provides`),
whatever imports and re-exports lie between.

Declarations are found by two different searches, one over all named nodes in document order and one
through export statements.  Both find only what `Source.declarations` lists.
-/

namespace TemplateValues

open Syntax

namespace Syntax

/-! ## Going down and up a tree -/

theorem Tree.height_le_heights {t : Tree} {ts : List Tree} (member : t ∈ ts) :
    t.height ≤ Tree.heights ts := by
  induction ts with
  | nil => cases member
  | cons u us ih =>
    rw [Tree.heights]
    rcases List.mem_cons.mp member with rfl | member
    · exact Nat.le_max_left _ _
    · exact Nat.le_trans (ih member) (Nat.le_max_right _ _)

theorem mem_childNodes {parent : Tree} {above : List (Tree × Nat)} {i : Nat} {ts : List Tree}
    {m : Node} (member : m ∈ childNodes parent above i ts) :
    m.tree ∈ ts ∧ ∃ j, m.above = (parent, j) :: above := by
  induction ts generalizing i with
  | nil => cases member
  | cons t ts ih =>
    rcases List.mem_cons.mp member with rfl | member
    · exact ⟨List.mem_cons_self, i, rfl⟩
    · obtain ⟨tree, above⟩ := ih member
      exact ⟨List.mem_cons_of_mem _ tree, above⟩

theorem mem_preorders_of_mem_childNodes {enter : Tree → Bool} {parent : Tree}
    {above : List (Tree × Nat)} {i : Nat} {ts : List Tree} {m : Node}
    (member : m ∈ childNodes parent above i ts) (entered : enter m.tree) :
    m ∈ Tree.preorders enter parent above i ts := by
  induction ts generalizing i with
  | nil => cases member
  | cons t ts ih =>
    rw [Tree.preorders, List.mem_append]
    rcases List.mem_cons.mp member with rfl | member
    · left
      rw [if_pos entered]
      cases t
      exact List.mem_cons_self
    · exact .inr (ih member)

mutual

/-- The nodes of a walk are closed under children that the walk enters. -/
theorem Tree.mem_preorder_of_child {enter : Tree → Bool} {above : List (Tree × Nat)} {n m : Node} :
    (t : Tree) → n ∈ t.preorder enter above → m ∈ n.children → enter m.tree →
      m ∈ t.preorder enter above
  | .node k f s e cs, member, child, entered => by
    rw [Tree.preorder] at member ⊢
    rcases List.mem_cons.mp member with rfl | member
    · exact List.mem_cons_of_mem _ (mem_preorders_of_mem_childNodes child entered)
    · exact List.mem_cons_of_mem _ (Tree.mem_preorders_of_child cs member child entered)

theorem Tree.mem_preorders_of_child {enter : Tree → Bool} {parent : Tree}
    {above : List (Tree × Nat)} {i : Nat} {n m : Node} :
    (ts : List Tree) → n ∈ Tree.preorders enter parent above i ts → m ∈ n.children →
      enter m.tree → m ∈ Tree.preorders enter parent above i ts
  | [], member, _, _ => by cases member
  | t :: ts, member, child, entered => by
    rw [Tree.preorders, List.mem_append] at member ⊢
    rcases member with first | later
    · split at first
      · rename_i allowed
        left
        rw [if_pos allowed]
        exact Tree.mem_preorder_of_child t first child entered
      · cases first
    · exact .inr (Tree.mem_preorders_of_child ts later child entered)

end

namespace Node

theorem mem_children {n m : Node} (child : m ∈ n.children) :
    m.parent? = some n ∧ m.tree.height < n.tree.height := by
  obtain ⟨tree, j, above⟩ := mem_childNodes child
  refine ⟨by rw [parent?, above], ?_⟩
  have below := Tree.height_le_heights tree
  obtain ⟨⟨k, f, s, e, cs⟩, around⟩ := n
  rw [Tree.height]
  exact Nat.lt_succ_of_le below

/-- What lies below a node lies below one of its children that are entered. -/
theorem preorders_eq (enter : Tree → Bool) (parent : Tree) (above : List (Tree × Nat)) (i : Nat)
    (ts : List Tree) :
    Tree.preorders enter parent above i ts =
      ((childNodes parent above i ts).filter fun m => enter m.tree).flatMap fun m =>
        m.tree.preorder enter m.above := by
  induction ts generalizing i with
  | nil => rfl
  | cons t ts ih =>
    rw [Tree.preorders, childNodes, ih, List.filter_cons]
    by_cases entered : enter t
    · simp only [entered, if_true, List.flatMap_cons]
    · simp only [entered, Bool.false_eq_true, if_false, List.nil_append]

theorem descendants_eq (n : Node) : n.descendants = n :: n.children.flatMap descendants := by
  obtain ⟨⟨k, f, s, e, cs⟩, above⟩ := n
  rw [descendants, Tree.preorder, preorders_eq, List.filter_eq_self.mpr fun _ _ => rfl]
  rfl

/-- A search looks at a node, and then goes through its named children one after the other. -/
theorem namedDescendants_eq (n : Node) :
    n.namedDescendants = n :: n.namedChildren.flatMap namedDescendants := by
  obtain ⟨⟨k, f, s, e, cs⟩, above⟩ := n
  rw [namedDescendants, Tree.preorder, preorders_eq]
  rfl

theorem findSome?_flatMap {α β γ : Type} {f : α → List β} {g : α → Option γ} {pick : β → Option γ}
    {xs : List α} (each : ∀ x ∈ xs, g x = (f x).findSome? pick) :
    xs.findSome? g = (xs.flatMap f).findSome? pick := by
  induction xs with
  | nil => rfl
  | cons x xs ih =>
    obtain ⟨first, others⟩ := List.forall_mem_cons.mp each
    rw [List.findSome?_cons, first, ih others, List.flatMap_cons, List.findSome?_append]
    cases (f x).findSome? pick <;> rfl

theorem searchUpTo_eq {α : Type} (pick : Node → Option α) {n : Node} {depth : Nat}
    (enough : n.tree.height ≤ depth) :
    n.searchUpTo pick depth = n.namedDescendants.findSome? pick := by
  induction depth generalizing n with
  | zero =>
    obtain ⟨⟨k, f, s, e, cs⟩, above⟩ := n
    cases enough
  | succ depth ih =>
    rw [searchUpTo, namedDescendants_eq, List.findSome?_cons]
    cases pick n with
    | some found => rfl
    | none =>
      refine findSome?_flatMap fun m child => ih (Nat.le_of_lt_succ ?_)
      exact Nat.lt_of_lt_of_le (mem_children (List.mem_filter.mp child).1).2 enough

/-- A search that returns early finds what is first in the list of all named nodes. -/
theorem search_eq {α : Type} (pick : Node → Option α) (n : Node) :
    n.search pick = n.namedDescendants.findSome? pick :=
  searchUpTo_eq pick (Nat.le_refl _)

/-- The second node is the first one or lies under it. -/
inductive Under (n : Node) : Node → Prop where
  | refl : Under n n
  | child {m k} : Under n m → k ∈ m.children → Under n k

def Below (n m : Node) : Prop := ∃ k ∈ n.children, k.Under m

theorem Under.trans {n m k : Node} (first : n.Under m) (second : m.Under k) : n.Under k := by
  induction second with
  | refl => exact first
  | child _ child ih => exact ih.child child

theorem Under.height_le {n m : Node} (under : n.Under m) : m.tree.height ≤ n.tree.height := by
  induction under with
  | refl => exact Nat.le_refl _
  | child _ child ih => exact Nat.le_trans (Nat.le_of_lt (mem_children child).2) ih

theorem Under.parent {n m p : Node} (under : n.Under m) (top : n.parent? = none)
    (parent : m.parent? = some p) : n.Under p := by
  cases under with
  | refl => rw [top] at parent; cases parent
  | child above child =>
    rw [(mem_children child).1] at parent
    cases parent
    exact above

theorem Below.under {n m : Node} (below : n.Below m) : n.Under m := by
  obtain ⟨k, child, under⟩ := below
  exact (Under.refl.child child).trans under

theorem Below.height_lt {n m : Node} (below : n.Below m) : m.tree.height < n.tree.height := by
  obtain ⟨k, child, under⟩ := below
  exact Nat.lt_of_le_of_lt under.height_le (mem_children child).2

theorem Under.trans_below {n m k : Node} (under : n.Under m) (below : m.Below k) : n.Below k := by
  obtain ⟨j, child, rest⟩ := below
  induction under generalizing j with
  | refl => exact ⟨j, child, rest⟩
  | child _ step ih => exact ih _ step ((Under.refl.child child).trans rest)

theorem below_of_mem_children {n m : Node} (child : m ∈ n.children) : n.Below m := ⟨m, child, .refl⟩

theorem below_of_mem_namedChildren {n m : Node} (child : m ∈ n.namedChildren) : n.Below m :=
  below_of_mem_children (List.mem_filter.mp child).1

theorem below_of_mem_content {n m : Node} (child : m ∈ n.content) : n.Below m :=
  below_of_mem_namedChildren (List.mem_filter.mp child).1

theorem below_of_child? {n m : Node} {f : Field} (child : n.child? f = some m) : n.Below m :=
  below_of_mem_children (List.mem_of_find?_eq_some child)

theorem below_of_childOfKind? {n m : Node} {k : Kind} (child : n.childOfKind? k = some m) :
    n.Below m :=
  below_of_mem_children (List.mem_of_find?_eq_some child)

theorem Under.of_mem_ancestorsOf {root m : Node} (top : root.parent? = none) {n : Node}
    (under : root.Under n) (member : m ∈ withAncestors.ancestorsOf n.above) : root.Under m := by
  obtain ⟨tree, above⟩ := n
  induction above generalizing tree with
  | nil => cases member
  | cons around above ih =>
    have parent : root.Under ⟨around.1, above⟩ := under.parent top rfl
    rcases List.mem_cons.mp member with rfl | member
    · exact parent
    · exact ih _ parent member

theorem Under.of_mem_withAncestors {root n m : Node} (top : root.parent? = none)
    (under : root.Under n) (member : m ∈ n.withAncestors) : root.Under m := by
  rcases List.mem_cons.mp member with rfl | member
  · exact under
  · exact under.of_mem_ancestorsOf top member

theorem below_of_toward? {startsAfter endsBefore : Nat → Bool} {n m : Node}
    (found : n.toward? startsAfter endsBefore = some m) : n.Below m := by
  unfold toward? at found
  split at found
  · rename_i c first
    split at found
    · cases found
    · cases found
      exact below_of_mem_children (List.mem_of_find?_eq_some first)
  · cases found

theorem Under.innermostUpTo {startsAfter endsBefore : Nat → Bool} {root : Node} (depth : Nat)
    {named n : Node} (outer : root.Under named) (under : root.Under n) :
    root.Under (Node.innermostUpTo startsAfter endsBefore depth named n) := by
  induction depth generalizing named n with
  | zero => exact outer
  | succ depth ih =>
    rw [Node.innermostUpTo]
    split
    · rename_i c found
      have inner := under.trans (below_of_toward? found).under
      refine ih ?_ inner
      split
      · exact inner
      · exact outer
    · exact outer

end Node

mutual

theorem Tree.under_of_mem_preorder {enter : Tree → Bool} {above : List (Tree × Nat)} {n : Node} :
    (t : Tree) → n ∈ t.preorder enter above → Node.Under ⟨t, above⟩ n
  | .node k f s e cs, member => by
    rw [Tree.preorder] at member
    rcases List.mem_cons.mp member with rfl | member
    · exact .refl
    · obtain ⟨m, child, under⟩ := Tree.under_of_mem_preorders cs member
      exact (Node.below_of_mem_children child).under.trans under

theorem Tree.under_of_mem_preorders {enter : Tree → Bool} {parent : Tree}
    {above : List (Tree × Nat)} {i : Nat} {n : Node} :
    (ts : List Tree) → n ∈ Tree.preorders enter parent above i ts →
      ∃ m ∈ childNodes parent above i ts, m.Under n
  | [], member => by cases member
  | t :: ts, member => by
    rw [Tree.preorders, List.mem_append] at member
    rcases member with first | later
    · split at first
      · exact ⟨_, List.mem_cons_self, Tree.under_of_mem_preorder t first⟩
      · cases first
    · obtain ⟨m, child, under⟩ := Tree.under_of_mem_preorders ts later
      exact ⟨m, List.mem_cons_of_mem _ child, under⟩

end

namespace Node

theorem mem_descendants {n m : Node} : m ∈ n.descendants ↔ n.Under m := by
  refine ⟨Tree.under_of_mem_preorder n.tree, fun under => ?_⟩
  induction under with
  | refl =>
    rw [descendants_eq]
    exact List.mem_cons_self
  | child _ child ih => exact Tree.mem_preorder_of_child n.tree ih child rfl

end Node

end Syntax

/-! ## Unwrapping -/

namespace Source

variable {s : Source}

theorem below_of_mem_callArguments {n m : Node} (member : m ∈ callArguments n) : n.Below m := by
  unfold callArguments at member
  split at member
  · rename_i arguments found
    exact (Node.below_of_child? found).under.trans_below (Node.below_of_mem_content member)
  · cases member

theorem below_of_wrapped? {n m : Node} (wrapped : s.wrapped? n = some m) : n.Below m := by
  unfold wrapped? at wrapped
  split at wrapped
  case h_4 =>
    split at wrapped
    · exact Node.below_of_mem_content (List.mem_of_head? wrapped)
    · cases wrapped
  case h_5 =>
    split at wrapped
    · exact below_of_mem_callArguments (List.mem_of_head? wrapped)
    · cases wrapped
  case h_6 => cases wrapped
  all_goals exact Node.below_of_mem_content (List.mem_of_head? wrapped)

theorem under_unwrapUpTo (depth : Nat) (n : Node) : n.Under (s.unwrapUpTo depth n) := by
  induction depth generalizing n with
  | zero => exact .refl
  | succ depth ih =>
    rw [unwrapUpTo]
    split
    · rename_i m wrapped
      exact (below_of_wrapped? wrapped).under.trans (ih m)
    · exact .refl

theorem under_unwrap (n : Node) : n.Under (s.unwrap n) := under_unwrapUpTo _ n

end Source

/-! ## The declarations of a source -/

namespace Declaration

theorem naming?_eq_some {k : DeclarationKind} {n : Node} {f : Field} {d : Declaration}
    (named : naming? k n f = some d) : d.node = n := by
  obtain ⟨name, -, rfl⟩ := Option.map_eq_some_iff.mp named
  rfl

theorem ofNode?_node {n : Node} {d : Declaration} (declares : ofNode? n = some d) : d.node = n := by
  unfold ofNode? at declares
  split at declares
  case h_4 | h_5 | h_6 => exact naming?_eq_some (Option.filter_eq_some_iff.mp declares).1
  case h_7 | h_13 =>
    split at declares
    · cases declares
      rfl
    · cases declares
  case h_8 | h_9 | h_10 | h_11 =>
    rcases Option.or_eq_some_iff.mp declares with named | ⟨-, named⟩
    · exact naming?_eq_some named
    · exact naming?_eq_some named
  case h_14 => cases declares
  all_goals exact naming?_eq_some declares

/-- Tokens declare nothing. -/
theorem ofNode?_isNamed {n : Node} {d : Declaration} (declares : ofNode? n = some d) :
    n.tree.isNamed := by
  unfold Tree.isNamed Kind.isNamed
  split
  · rename_i text kind
    rw [ofNode?, Node.kind, kind] at declares
    cases declares
  · rfl

theorem isNamed_of_mem_introduced {n : Node} {d : Declaration} (member : d ∈ introduced n) :
    n.tree.isNamed := by
  unfold Tree.isNamed Kind.isNamed
  split
  · rename_i text kind
    unfold introduced at member
    generalize n.tree.height = depth at member
    cases depth with
    | zero => cases member
    | succ depth =>
      rw [introducedUpTo, Node.kind, kind] at member
      have named := ofNode?_isNamed (Option.mem_toList.mp member)
      rw [Tree.isNamed, kind] at named
      cases named
  · rfl

theorem ofNode?_of_mem_introducedUpTo {s : Source} {d : Declaration} (depth : Nat) (n : Node)
    (inside : n ∈ s.root.namedDescendants) (member : d ∈ introducedUpTo depth n) :
    ∃ m ∈ s.root.namedDescendants, ofNode? m = some d := by
  induction depth generalizing n with
  | zero => cases member
  | succ depth ih =>
    have descends : ∀ m ∈ n.namedChildren, m ∈ s.root.namedDescendants := by
      intro m child
      obtain ⟨child, named⟩ := List.mem_filter.mp child
      exact Tree.mem_preorder_of_child _ inside child named
    rw [introducedUpTo] at member
    split at member
    case h_1 | h_2 =>
      obtain ⟨m, child, declares⟩ := List.mem_filterMap.mp member
      exact ⟨m, descends m child, declares⟩
    case h_3 =>
      obtain ⟨m, child, member⟩ := List.mem_flatMap.mp member
      exact ih m (descends m child) member
    case h_4 => exact ⟨n, inside, Option.mem_toList.mp member⟩

end Declaration

namespace Source

def declarations (s : Source) : List Declaration :=
  s.root.namedDescendants.filterMap Declaration.ofNode?

variable {s : Source}

theorem root_mem_namedDescendants (s : Source) : s.root ∈ s.root.namedDescendants := by
  unfold Node.namedDescendants
  rcases s.root with ⟨⟨k, f, start, stop, cs⟩, above⟩
  rw [Tree.preorder]
  exact List.mem_cons_self

/-- The declaration is made by a node of the source, whether a search comes to it or not. -/
structure Holds (s : Source) (d : Declaration) : Prop where
  under : s.root.Under d.node
  declares : Declaration.ofNode? d.node = some d

theorem holds_of_mem_declarations {d : Declaration} (member : d ∈ s.declarations) : s.Holds d := by
  obtain ⟨n, inside, declares⟩ := List.mem_filterMap.mp member
  obtain rfl := Declaration.ofNode?_node declares
  exact ⟨Tree.under_of_mem_preorder _ inside, declares⟩

/-- The declaration that is found for a name is the first that fits among the named nodes. -/
theorem find?_eq (s : Source) (name : String) (space : Space) :
    s.find? name space = s.root.namedDescendants.findSome? fun n =>
      (Declaration.ofNode? n).filter fun d => d.kind ≠ .property && s.binds name space d :=
  Node.search_eq _ _

theorem mem_declarations_of_find? {name : String} {space : Space} {d : Declaration}
    (found : s.find? name space = some d) : d ∈ s.declarations := by
  rw [find?_eq] at found
  obtain ⟨n, inside, declares⟩ := List.exists_of_findSome?_eq_some found
  exact List.mem_filterMap.mpr ⟨n, inside, (Option.filter_eq_some_iff.mp declares).1⟩

theorem mem_declarations_of_exported? {name : String} {space : Space} {d : Declaration}
    (found : s.exported? name space = some d) : d ∈ s.declarations := by
  unfold exported? at found
  dsimp only at found
  split at found
  · rename_i declared
    cases found
    obtain ⟨statement, export', found⟩ := List.exists_of_findSome?_eq_some declared
    obtain ⟨n, child, found⟩ := Option.bind_eq_some_iff.mp found
    have introduced := List.mem_of_find?_eq_some found
    -- the statement is a named child of the root, and so is what it exports of the statement
    obtain ⟨statement', -⟩ := List.mem_filter.mp export'
    obtain ⟨statement', named⟩ := List.mem_filter.mp statement'
    have outside : statement ∈ s.root.namedDescendants :=
      Tree.mem_preorder_of_child _ s.root_mem_namedDescendants statement' named
    have inside : n ∈ s.root.namedDescendants :=
      Tree.mem_preorder_of_child _ outside (List.mem_of_find?_eq_some child)
        (Declaration.isNamed_of_mem_introduced introduced)
    exact List.mem_filterMap.mpr (Declaration.ofNode?_of_mem_introducedUpTo _ n inside introduced)
  · split at found
    · exact mem_declarations_of_find? found
    · obtain ⟨inside, -, found⟩ := Option.bind_eq_some_iff.mp found
      exact mem_declarations_of_find? found

end Source

/-! ## What names mean -/

namespace Codebase

variable {c : Codebase}

/-- The declaration is one of the source `s` or of a source of the codebase. -/
structure Provides (c : Codebase) (s t : Source) (d : Declaration) : Prop where
  source : t = s ∨ t ∈ c.sources
  declared : d ∈ t.declarations

theorem Provides.holds {s t : Source} {d : Declaration} (provides : c.Provides s t d) : t.Holds d :=
  Source.holds_of_mem_declarations provides.declared

theorem Provides.under {s t : Source} {d : Declaration} (provides : c.Provides s t d) :
    t.root.Under d.node :=
  provides.holds.under

theorem mem_sources_of_module? {s t : Source} {specifier : String}
    (found : c.module? s specifier = some t) : t ∈ c.sources := by
  obtain ⟨p, -, found⟩ := Option.bind_eq_some_iff.mp found
  unfold source? at found
  split at found
  · exact List.mem_of_find?_eq_some found
  · cases found

theorem mem_sources_of_importStep? {s t : Source} {name imported : String}
    (step : c.importStep? s name = some (t, imported)) : t ∈ c.sources := by
  unfold importStep? at step
  split at step
  · split at step
    · cases step
    · obtain ⟨u, found, equal⟩ := Option.map_eq_some_iff.mp step
      cases equal
      exact mem_sources_of_module? found
  · cases step

theorem mem_sources_of_mem_steps {s t : Source} {name imported : String}
    (step : (t, imported) ∈ c.steps s name) : t ∈ c.sources := by
  rcases List.mem_append.mp step with step | step
  · obtain ⟨inside, -, step⟩ := Option.bind_eq_some_iff.mp (Option.mem_toList.mp step)
    exact mem_sources_of_importStep? step
  · obtain ⟨r, -, step⟩ := List.mem_filterMap.mp step
    obtain ⟨u, found, equal⟩ := Option.map_eq_some_iff.mp step
    cases equal
    exact mem_sources_of_module? found

theorem provides_of_nearest {space : Space} {s t : Source} {name : String} {d : Declaration}
    {further : Option (Source × Declaration)}
    (beyond : further = some (t, d) → c.Provides s t d)
    (found : nearest space s name further = some (t, d)) : c.Provides s t d := by
  unfold nearest at found
  split at found
  · rename_i exported
    cases found
    exact ⟨.inl rfl, Source.mem_declarations_of_exported? exported⟩
  · rcases Option.or_eq_some_iff.mp found with further | ⟨-, found⟩
    · exact beyond further
    · obtain ⟨d', found, equal⟩ := Option.map_eq_some_iff.mp found
      cases equal
      exact ⟨.inl rfl, Source.mem_declarations_of_find? found⟩

theorem provides_of_follow {space : Space} (hops : Nat) {s t : Source} {name : String}
    {d : Declaration} (found : c.follow space hops s name = some (t, d)) : c.Provides s t d := by
  induction hops generalizing s name with
  | zero =>
    rw [follow_zero] at found
    exact provides_of_nearest (fun none => by cases none) found
  | succ hops ih =>
    rw [follow_succ] at found
    refine provides_of_nearest (fun further => ?_) found
    obtain ⟨⟨u, n⟩, step, further⟩ := List.exists_of_findSome?_eq_some further
    obtain ⟨source, declared⟩ := ih further
    refine ⟨.inr ?_, declared⟩
    rcases source with rfl | member
    · exact mem_sources_of_mem_steps step
    · exact member

theorem Provides.of_mem_sources {s t u : Source} {d : Declaration} (provides : c.Provides u t d)
    (member : u ∈ c.sources) : c.Provides s t d := by
  refine ⟨.inr ?_, provides.declared⟩
  rcases provides.source with rfl | inside
  · exact member
  · exact inside

theorem provides_of_imported? {s t : Source} {name : String} {space : Space} {d : Declaration}
    (found : c.imported? s name space = some (t, d)) : c.Provides s t d := by
  rw [imported?_eq] at found
  obtain ⟨⟨u, n⟩, step, followed⟩ := Option.bind_eq_some_iff.mp found
  exact (provides_of_follow c.hops followed).of_mem_sources (mem_sources_of_importStep? step)

theorem provides_of_declared? {s t : Source} {name : String} {space : Space} {d : Declaration}
    (found : c.declared? s name space = some (t, d)) : c.Provides s t d := by
  rw [declared?_eq] at found
  split at found
  · rename_i own
    cases found
    exact ⟨.inl rfl, Source.mem_declarations_of_find? own⟩
  · exact provides_of_imported? found

theorem provides_of_namespaceMember? {s t : Source} {root member : String} {space : Space}
    {d : Declaration} (found : c.namespaceMember? s root member space = some (t, d)) :
    c.Provides s t d := by
  rw [namespaceMember?_eq] at found
  obtain ⟨u, opened, followed⟩ := Option.bind_eq_some_iff.mp found
  obtain ⟨i, -, opened⟩ := Option.bind_eq_some_iff.mp opened
  exact (provides_of_follow c.hops followed).of_mem_sources (mem_sources_of_module? opened)

end Codebase

end TemplateValues
