import TemplateValues.Syntax.Input
import TemplateValues.Syntax.Table
import TemplateValues.Syntax.Tree

/-!
# Pieces and stacks

A *piece* is a finished part of a reading: a token, or a production with its pieces.  A reading is a
*stack* of pieces, with a state of the automaton on top of each.

Where a text can be read in several ways, there are several stacks.  When two of them get to the
same state at the same place, they are joined: from there on they are one stack, which has several
ways down.  `Stack.paths` follows them all.
-/

namespace TemplateValues.Syntax

/-! ## Pieces -/

inductive Piece where
  /-- A token; comments stand between the pieces that count. -/
  | leaf (symbol start : Nat) (after : Input) (isComment : Bool)
  /-- A production: the symbol that it makes, how its symbols are shown, and its pieces. -/
  | tree (head : Nat) (showings : List Showing) (favour : Int) (start : Nat) (after : Input)
      (pieces : List Piece)
deriving Inhabited

namespace Piece

def symbol : Piece → Nat
  | leaf s .. => s
  | tree s .. => s

def start : Piece → Nat
  | leaf _ s .. => s
  | tree _ _ _ s .. => s

def after : Piece → Input
  | leaf _ _ i _ => i
  | tree _ _ _ _ i _ => i

def favour : Piece → Int
  | leaf .. => 0
  | tree _ _ f .. => f

def pieces : Piece → List Piece
  | leaf .. => []
  | tree _ _ _ _ _ ps => ps

def isComment : Piece → Bool
  | leaf _ _ _ c => c
  | tree .. => false

/-- Do two pieces make the same symbol of the same text from as many pieces? -/
def alike (p q : Piece) : Bool :=
  p.symbol = q.symbol && p.start = q.start && p.after.offset = q.after.offset &&
    p.pieces.length = q.pieces.length && p.isComment = q.isComment

mutual

/-- Orders pieces by their symbols, then by the number of their pieces, and then by these. -/
def compare : Piece → Piece → Ordering
  | leaf s .., q => (Ord.compare s q.symbol).then (Ord.compare 0 q.pieces.length)
  | tree s _ _ _ _ ps, q =>
    (Ord.compare s q.symbol).then <|
      (Ord.compare ps.length q.pieces.length).then (compareAll ps q.pieces)

@[inherit_doc compare]
def compareAll : List Piece → List Piece → Ordering
  | p :: ps, q :: qs => (p.compare q).then (compareAll ps qs)
  | _, _ => .eq

end

/-- Of two readings of the same text, is the second one better? -/
def yieldsTo (p q : Piece) : Bool :=
  p.favour < q.favour || (p.favour = q.favour && p.compare q = .gt)

def favours (ps : List Piece) : Int := ps.foldl (fun n p => n + p.favour) 0

def ofItem (i : Item) (here : Input) (ps : List Piece) : Piece :=
  tree i.head i.showings (favours ps + i.favour) ((ps.head?.map start).getD here.offset)
    ((ps.getLast?.map after).getD here) ps

end Piece

/-! ## Stacks -/

mutual

/-- A reading: the state it has led to, the place that it has got to, and the ways down.  The number
`id` tells stacks apart. -/
inductive Stack where
  | mk (id state : Nat) (here : Input) (favour : Int) (depth : Nat) (links : Links)

/-- The ways down from a stack: the pieces on top of other stacks. -/
inductive Links where
  | nil
  | cons (below : Stack) (piece : Piece) (rest : Links)

end

instance : Inhabited Links := ⟨.nil⟩

instance : Inhabited Stack := ⟨.mk 0 0 default 0 0 .nil⟩

namespace Links

def toList : Links → List (Stack × Piece)
  | nil => []
  | cons s p rest => (s, p) :: rest.toList

def length : Links → Nat
  | nil => 0
  | cons _ _ rest => rest.length + 1

def add (below : Stack) (piece : Piece) : Links → Links
  | nil => cons below piece nil
  | cons s p rest => cons s p (rest.add below piece)

end Links

namespace Stack

def id : Stack → Nat
  | mk i .. => i

def state : Stack → Nat
  | mk _ q .. => q

def here : Stack → Input
  | mk _ _ i .. => i

def favour : Stack → Int
  | mk _ _ _ f .. => f

def depth : Stack → Nat
  | mk _ _ _ _ d _ => d

def links : Stack → Links
  | mk _ _ _ _ _ ls => ls

def push (below : Stack) (id state : Nat) (piece : Piece) : Stack :=
  mk id state piece.after (below.favour + piece.favour) (below.depth + 1) (.cons below piece .nil)

def meets (s t : Stack) : Bool := s.state = t.state && s.here.offset = t.here.offset

def maxLinks : Nat := 8

/-! ## Joining -/

/-- Changes the first way down that `piece` on top of `below` is no news to: `join` joins `below`
with the stack there.  Answers the ways down and the favour of the stack, or `none` if there is no
such way. -/
def absorb (join : Stack → Stack) (below : Stack) (piece : Piece) (favour : Int) :
    Links → Option (Links × Int)
  | .nil => none
  | .cons s p rest =>
    if p.alike piece && s.id = below.id then
      if p.favour < piece.favour then
        some (.cons s piece rest, below.favour + piece.favour)
      else some (.cons s p rest, favour)
    else if p.alike piece && s.meets below then
      some (.cons (join s) p rest, max favour (below.favour + piece.favour))
    else (absorb join below piece favour rest).map fun (ls, f) => (.cons s p ls, f)

mutual

/-- The stack `s` with one more way down: `piece` on top of the stack given last. -/
def attach (s : Stack) (piece : Piece) : Stack → Stack
  | mk id state here favour depth links =>
    let below := mk id state here favour depth links
    -- a stack does not stand on itself
    if s.id = id then s
    else match absorb (fun t => attachAll t links) below piece s.favour s.links with
      | some (ls, f) => mk s.id s.state s.here f s.depth ls
      | none =>
        if s.links.length < maxLinks then
          mk s.id s.state s.here (max s.favour (favour + piece.favour))
            (max s.depth (depth + 1)) (s.links.add below piece)
        else s

def attachAll (s : Stack) : Links → Stack
  | .nil => s
  | .cons below piece rest => attachAll (attach s piece below) rest

end

def join (s t : Stack) : Stack := s.attachAll t.links

/-! ## Ways down -/

/-- A way down: the stack it has got to and the pieces on the way. -/
structure Walk where
  stack : Stack
  /-- The pieces passed, the lowest first. -/
  pieces : List Piece := []
  /-- The number of pieces passed that are no comments. -/
  count : Nat := 0
deriving Inhabited

def Walk.steps (w : Walk) : List Walk :=
  w.stack.links.toList.map fun (s, p) =>
    ⟨s, p :: w.pieces, if p.isComment then w.count else w.count + 1⟩

def maxWalks : Nat := 64

/-- Follows ways down to the depth of `n` pieces that are no comments, in at most `k` steps. -/
def walk (n : Nat) : (k : Nat) → List Walk → List Walk
  | 0, _ => []
  | k + 1, ws =>
    match ws with
    | [] => []
    | _ =>
      let (done, going) := ws.partition fun w => w.count = n
      let steps := going.map Walk.steps
      done ++ walk n k ((steps.filterMap List.head? ++ (steps.map fun s => s.drop 1).flatten).take
        maxWalks)

def paths (s : Stack) (n : Nat) : List Walk := walk n (s.depth + 1) [⟨s, [], 0⟩]

mutual

/-- The readings of all ways down to the bottom, each in front of `above`. -/
def readings (above : List Piece) : Stack → List (List Piece)
  | mk _ _ _ _ _ .nil => [above]
  | mk _ _ _ _ _ (.cons s p rest) => readingsOf above (.cons s p rest)

@[inherit_doc readings]
def readingsOf (above : List Piece) : Links → List (List Piece)
  | .nil => []
  | .cons s p rest => readings (p :: above) s ++ readingsOf above rest

end

end Stack

end TemplateValues.Syntax
