import TemplateValues.Syntax.Tree

/-!
# Nodes

A node is a tree together with where it stands: the trees around it, the innermost first, each with
the index of the child that leads on.  So a node knows its parent and its siblings.
-/

namespace TemplateValues.Syntax

/-- A tree at its place in a larger tree. -/
structure Node where
  tree : Tree
  /-- The trees around, innermost first, with the index of the child taken in each. -/
  above : List (Tree × Nat) := []
deriving Repr, Inhabited

/-- The nodes of the children `ts`, which start at the index `i` of the parent whose own
surroundings are the tail of `above`. -/
def childNodes (parent : Tree) (above : List (Tree × Nat)) (i : Nat) : List Tree → List Node
  | [] => []
  | t :: ts => ⟨t, (parent, i) :: above⟩ :: childNodes parent above (i + 1) ts

mutual

/-- The nodes of a tree in document order, entering only children that `enter` allows. -/
def Tree.preorder (enter : Tree → Bool) (above : List (Tree × Nat)) : Tree → List Node
  | .node k f s e cs =>
    ⟨.node k f s e cs, above⟩ :: Tree.preorders enter (.node k f s e cs) above 0 cs

def Tree.preorders (enter : Tree → Bool) (parent : Tree) (above : List (Tree × Nat)) (i : Nat) :
    List Tree → List Node
  | [] => []
  | t :: ts =>
    (if enter t then t.preorder enter ((parent, i) :: above) else []) ++
      Tree.preorders enter parent above (i + 1) ts

end

namespace Node

def root (t : Tree) : Node := ⟨t, []⟩

def kind (n : Node) : Kind := n.tree.kind

def field (n : Node) : Option Field := n.tree.field

def start (n : Node) : Nat := n.tree.start

def stop (n : Node) : Nat := n.tree.stop

def isNamed (n : Node) : Bool := n.tree.isNamed

def children (n : Node) : List Node := childNodes n.tree n.above 0 n.tree.children

def namedChildren (n : Node) : List Node := n.children.filter isNamed

/-- The named children that are no comments. -/
def content (n : Node) : List Node := n.namedChildren.filter fun c => c.kind ≠ .comment

def child? (n : Node) (f : Field) : Option Node := n.children.find? fun c => c.field = some f

def childOfKind? (n : Node) (k : Kind) : Option Node := n.children.find? fun c => c.kind = k

def childrenOfKind (n : Node) (k : Kind) : List Node := n.namedChildren.filter fun c => c.kind = k

def parent? (n : Node) : Option Node :=
  match n.above with
  | [] => none
  | (t, _) :: above => some ⟨t, above⟩

/-- The indices that lead to the node from its root, the last first. -/
def address (n : Node) : List Nat := n.above.map (·.2)

def same (m n : Node) : Bool := m.address = n.address

def previous? (n : Node) : Option Node :=
  match n.above with
  | (t, i + 1) :: above => (t.children[i]?).map fun c => ⟨c, (t, i) :: above⟩
  | _ => none

def withAncestors (n : Node) : List Node := n :: ancestorsOf n.above
where
  ancestorsOf : List (Tree × Nat) → List Node
    | [] => []
    | (t, _) :: above => ⟨t, above⟩ :: ancestorsOf above

def descendants (n : Node) : List Node := n.tree.preorder (fun _ => true) n.above

/-- The node and all named nodes below it that named nodes lead to, in document order. -/
def namedDescendants (n : Node) : List Node := n.tree.preorder Tree.isNamed n.above

/-- What is picked first at the node or below it, where only named nodes are entered, looked for `depth`
levels down. -/
def searchUpTo {α : Type} (pick : Node → Option α) : (depth : Nat) → Node → Option α
  | 0, _ => none
  | depth + 1, n =>
    match pick n with
    | some found => some found
    | none => n.namedChildren.findSome? (searchUpTo pick depth)

def search {α : Type} (pick : Node → Option α) (n : Node) : Option α :=
  searchUpTo pick n.tree.height n

/-- The child to go to in search of a place: the first that does not end before it, as long as it
does not start after it. -/
def toward? (startsAfter endsBefore : Nat → Bool) (n : Node) : Option Node :=
  match n.children.find? fun c => !endsBefore c.stop with
  | some c => if startsAfter c.start then none else some c
  | none => none

/-- The innermost named node around a place, looked for `depth` levels down; `named` is the
innermost so far. -/
def innermostUpTo (startsAfter endsBefore : Nat → Bool) :
    (depth : Nat) → (named : Node) → Node → Node
  | 0, named, _ => named
  | d + 1, named, n =>
    match n.toward? startsAfter endsBefore with
    | some c => innermostUpTo startsAfter endsBefore d (if c.isNamed then c else named) c
    | none => named

def innermost (startsAfter endsBefore : Nat → Bool) (n : Node) : Node :=
  innermostUpTo startsAfter endsBefore n.tree.height n n

end Node

end TemplateValues.Syntax
