import TemplateValues.Syntax.Table

/-!
# The automaton of a grammar

A state of the automaton holds the items at which a reader may be, each with the terminals that may
follow when its production is done.  A move reads one symbol.  There are far too many states to list
them all, so a state comes into being when a text leads to it, and the states, moves and decisions
made so far are kept in a `Memo`.

A *decision* says what to do in a state when a terminal is next: end some productions, read the
terminal, or both where the grammar leaves it open.  `Table.decide` settles by precedence what
precedence settles.
-/

namespace TemplateValues.Syntax

/-- The items of a state with what may follow them, in a fixed order. -/
abbrev Kernel := List (Nat × Nat)

structure State where
  kernel : Kernel
  /-- For each symbol that may start here, the terminals that may follow it. -/
  expected : Array Nat
  /-- The terminals that may be next. -/
  allowed : Nat
deriving Inhabited

/-- What to do in a state when some terminal is next. -/
structure Decision where
  /-- The items whose productions end here. -/
  reduce : List Nat := []
  /-- The state behind the terminal, if the terminal is to be read. -/
  shift : Option Nat := none
  /-- Is the whole text read? -/
  accept : Bool := false
deriving Inhabited

structure Memo where
  states : Array State := #[]
  numbers : Std.HashMap Kernel Nat := {}
  moves : Std.HashMap (Nat × Nat) (Option Nat) := {}
  decisions : Std.HashMap (Nat × Nat) Decision := {}
  /-- The number of stacks made so far. -/
  made : Nat := 0
deriving Inhabited

namespace Table

variable (t : Table)

def isTerminal (s : Nat) : Bool := s < t.terminals

def item (n : Nat) : Item := t.items.getD n default

def isRun (s : Nat) : Bool :=
  match t.symbols[s]? with
  | some (.run _) => true
  | _ => false

/-! ## States -/

/-- What may follow the symbol after an item's place, if the production is followed by `after`. -/
def followers (i : Item) (after : Nat) : Nat :=
  match i.next with
  | none => after
  | some (_, n) =>
    match (t.item n).next with
    | none => after
    | some (s, _) => t.firsts.getD s 0

/-- For each symbol that may start at the items of a kernel, the terminals that may follow it. -/
def expected (kernel : Kernel) : Array Nat :=
  kernel.foldl (fun es (n, after) =>
    let i := t.item n
    match i.next with
    | none => es
    | some (s, _) =>
      let next := t.followers i after
      (t.starts.getD s []).foldl (fun es start =>
        es.modify start.symbol
          (· ||| (start.followers ||| (if start.passes then next else 0)))) es)
    (Array.replicate t.symbols.size 0)

def allowed (kernel : Kernel) (expected : Array Nat) : Nat :=
  let here := kernel.foldl (fun set (n, after) =>
    match (t.item n).next with
    | none => set ||| after
    | some (s, _) => if t.isTerminal s then set ||| 1 <<< s else set) 0
  t.openers.toList.zip expected.toList |>.foldl (fun set (open_, followed) =>
    if followed = 0 then set else set ||| open_) here

def stateOf (kernel : Kernel) : State :=
  let expected := t.expected kernel
  ⟨kernel, expected, t.allowed kernel expected⟩

/-- The order of items in a kernel: by their places, then by what their productions make, and then
by the order of the productions. -/
def itemBefore (m n : Nat) : Bool :=
  let i := t.item m
  let j := t.item n
  i.dot < j.dot || (i.dot = j.dot && (i.head < j.head || (i.head = j.head && m ≤ n)))

/-- Joins what may follow equal neighbours. -/
def joinEqual : Kernel → Kernel
  | (m, a) :: (n, b) :: rest =>
    if m = n then joinEqual ((n, a ||| b) :: rest) else (m, a) :: joinEqual ((n, b) :: rest)
  | short => short
termination_by k => k.length

/-- The items behind the symbol `s`, read in the state `q`. -/
def kernelBehind (q : State) (s : Nat) : Kernel :=
  let moved := q.kernel.filterMap fun (n, after) =>
    match (t.item n).next with
    | some (s', m) => if s' = s then some (m, after) else none
    | none => none
  let opened := (t.openings.getD s []).filterMap fun (head, n) =>
    match q.expected.getD head 0 with
    | 0 => none
    | after => some (n, after)
  joinEqual ((moved ++ opened).mergeSort fun a b => t.itemBefore a.1 b.1)

def number (kernel : Kernel) : StateM Memo Nat := fun memo =>
  match memo.numbers[kernel]? with
  | some n => (n, memo)
  | none =>
    let n := memo.states.size
    (n, { memo with
      states := memo.states.push (t.stateOf kernel)
      numbers := memo.numbers.insert kernel n })

def start : StateM Memo Nat := t.number [(t.origin, 1 <<< Pattern.endOfText.index)]

def state (q : Nat) : StateM Memo State := return (← get).states.getD q default

def move (q s : Nat) : StateM Memo (Option Nat) := do
  match (← get).moves[(q, s)]? with
  | some there => return there
  | none =>
    let there ← match t.kernelBehind (← state q) s with
      | [] => pure none
      | kernel => some <$> t.number kernel
    modify fun memo => { memo with moves := memo.moves.insert (q, s) there }
    return there

/-! ## Decisions -/

/-- Does an entry of an order rank something of strength `s` made for one of `heads`? -/
def ranks (s : Strength) (heads : List Nat) : Level ⊕ Nat → Bool
  | .inl l => s = .level l
  | .inr h => heads.contains h

/-- Where the first of two things stands in an order, the second or neither having been met before:
`some true` if the first comes first, `none` if they do not both stand there. -/
def inOrder (a b : Strength × List Nat) (metA metB : Bool) : List (Level ⊕ Nat) → Option Bool
  | [] => none
  | e :: es =>
    if ranks a.1 a.2 e then
      if metB then some false else inOrder a b true metB es
    else if ranks b.1 b.2 e then
      if metA then some true else inOrder a b metA true es
    else inOrder a b metA metB es

/-- Compares the strengths of two things, each with the symbols that it makes. -/
def compareStrength (a b : Strength × List Nat) : Ordering :=
  let byOrder := match t.orders.findSome? (inOrder a b false false) with
    | some true => .gt
    | some false => .lt
    | none => .eq
  match a.1, b.1 with
  | .number m, .number n => if m = 0 && n = 0 then byOrder else compare m n
  | .number m, .plain => if m = 0 then byOrder else compare m 0
  | .plain, .number n => if n = 0 then byOrder else compare 0 n
  | _, _ => byOrder

/-- The productions that may end at the same place, with the strength and the symbols by which they
are compared with what goes on. -/
structure Endings where
  items : List Nat := []
  strength : Strength := .plain
  heads : List Nat := []
  sides : List (Option Side) := []

/-- Adds an item at its end: a stronger production displaces weaker ones. -/
def Endings.add (e : Endings) (n : Nat) : Endings :=
  let i := t.item n
  let joined (e : Endings) : Endings :=
    ⟨e.items ++ [n], i.strength, if e.heads.contains i.head then e.heads else e.heads ++ [i.head],
      i.side :: e.sides⟩
  if e.items.isEmpty then joined {}
  else match t.compareStrength (i.strength, [i.head]) (e.strength, e.heads) with
    | .gt => joined {}
    | .eq => joined e
    | .lt => e

def has (set terminal : Nat) : Bool := set.testBit terminal

def ending (kernel : Kernel) (s : Nat) : List Nat :=
  kernel.filterMap fun (n, after) =>
    if (t.item n).next.isNone && has after s then some n else none

def endings (kernel : Kernel) (s : Nat) : Endings :=
  (t.ending kernel s).foldl (fun e n => e.add t n) {}

def goingOn (kernel : Kernel) (s : Nat) : List Nat :=
  kernel.filterMap fun (n, _) =>
    match (t.item n).next with
    | some (next, _) => if has (t.firsts.getD next 0) s then some n else none
    | none => none

/-- What to do in a state when the terminal `s` is next, where `behind` is the state behind it. -/
def settle (kernel : Kernel) (s : Nat) (behind : Option Nat) : Decision :=
  let ends := t.endings kernel s
  match behind, ends.items with
  | _, [] => { shift := behind }
  | none, items => { reduce := items }
  | some _, items =>
    let on := t.goingOn kernel s
    let heads := (t.ending kernel s ++ on).map fun n => (t.item n).head
    let only := heads.headD 0
    -- a repetition is two of itself, and is read from the left
    if t.isRun only && heads.all (· = only) then { reduce := items }
    else
      let against := on.map fun n =>
        t.compareStrength ((t.item n).strength, [(t.item n).head]) (ends.strength, ends.heads)
      if against.contains .gt && !against.contains .lt then { shift := behind }
      else if against.contains .lt && !against.contains .gt then { reduce := items }
      else if against.contains .gt then { reduce := items, shift := behind }
      -- equally strong, so it depends on the side that the productions lean to
      else if ends.sides.all (· = some .left) then { reduce := items }
      else if ends.sides.all (· = some .right) then { shift := behind }
      else { reduce := items, shift := behind }

def isDone (kernel : Kernel) : Bool := kernel.any fun (n, _) => t.origin ≤ n

def decide (q s : Nat) : StateM Memo Decision := do
  match (← get).decisions[(q, s)]? with
  | some d => return d
  | none =>
    let kernel := (← state q).kernel
    let d ←
      if s = Pattern.endOfText.index && t.isDone kernel then pure { accept := true }
      else t.settle kernel s <$> t.move q s
    modify fun memo => { memo with decisions := memo.decisions.insert (q, s) d }
    return d

end Table

end TemplateValues.Syntax
