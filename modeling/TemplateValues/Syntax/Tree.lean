import TemplateValues.Syntax.Kind

/-!
# Syntax trees

A tree records the kind of a node, the role it plays in its parent, the bytes it spans and its
children in order.  Nothing else: the text of a node is the slice of the source between its two
offsets, and line numbers follow from offsets.

Comments may stand between any two tokens.  A comment before the first token of a construct or after
its last one stays outside of it, so that it ends up in the innermost construct that has a token
before it and a token after it.
-/

namespace TemplateValues.Syntax

/-- A syntax tree over the bytes `start ≤ i < stop` of some text. -/
inductive Tree where
  | node (kind : Kind) (field : Option Field) (start stop : Nat) (children : List Tree)
deriving Repr, Inhabited

namespace Tree

def kind : Tree → Kind
  | node k _ _ _ _ => k

def field : Tree → Option Field
  | node _ f _ _ _ => f

def start : Tree → Nat
  | node _ _ s _ _ => s

def stop : Tree → Nat
  | node _ _ _ e _ => e

def children : Tree → List Tree
  | node _ _ _ _ cs => cs

def isNamed (t : Tree) : Bool := t.kind.isNamed

mutual

def size : Tree → Nat
  | node _ _ _ _ cs => sizes cs + 1

def sizes : List Tree → Nat
  | [] => 0
  | t :: ts => t.size + sizes ts

end

mutual

def height : Tree → Nat
  | node _ _ _ _ cs => heights cs + 1

def heights : List Tree → Nat
  | [] => 0
  | t :: ts => max t.height (heights ts)

end

end Tree

end TemplateValues.Syntax
