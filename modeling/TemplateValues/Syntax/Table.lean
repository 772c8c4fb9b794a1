import TemplateValues.Syntax.Production

/-!
# Tables

What is computed of a grammar once and for all, before any text is read.  Symbols are numbered, the
terminals first, so that a set of terminals is the number with their bits.

An *item* is a production with a place in it: what is before the place has been read.  Two items
that can be told apart neither by what is still to come nor by the tree they make are one item.
-/

namespace TemplateValues.Syntax

structure Showing where
  kind : Option Kind := none
  role : Option Field := none
deriving DecidableEq, Hashable, Repr, Inhabited

/-- A production with a place in it, after its first symbol or later.  Symbols are given by their
numbers. -/
structure Item where
  /-- The symbol that the production makes. -/
  head : Nat
  /-- The number of symbols of the production. -/
  length : Nat
  favour : Int
  /-- How the symbols of the production are shown. -/
  showings : List Showing
  /-- The strength and the side of the symbol just read. -/
  strength : Strength
  side : Option Side
  /-- The symbol after the place, and the item behind it. -/
  next : Option (Nat × Nat)
  /-- The number of symbols before the place. -/
  dot : Nat
deriving DecidableEq, Hashable, Repr, Inhabited

/-- A nonterminal that may start another one: what may follow it there, and whether all that
follows the other may follow it as well. -/
structure Start where
  symbol : Nat
  followers : Nat
  passes : Bool
deriving Repr, Inhabited

structure Table where
  /-- What the symbols are, by their numbers. -/
  symbols : Array Symbol
  /-- The number of terminals; symbols from there on are nonterminals. -/
  terminals : Nat
  /-- The marks that are punctuation, longer ones first. -/
  marks : List (List Char × Nat)
  /-- The keywords. -/
  words : Std.HashMap String Nat
  /-- The mark `||`, which may be next only after an expression. -/
  orMark : Nat
  items : Array Item
  /-- The terminals with which a symbol may start. -/
  firsts : Array Nat
  /-- The terminals that start a production of a symbol themselves. -/
  openers : Array Nat
  /-- The nonterminals with which a nonterminal may start, itself included. -/
  starts : Array (List Start)
  /-- For each symbol the productions that it starts: what they make, and the item behind it. -/
  openings : Array (List (Nat × Nat))
  /-- The orders of precedence. -/
  orders : List (List (Level ⊕ Nat))
  /-- The item in front of everything. -/
  origin : Nat
deriving Inhabited

namespace Table

/-! ## Numbering -/

/-- The numbers of the symbols of a grammar: patterns, fixed texts, and then nonterminals. -/
def numbering (ps : List Production) : Array Symbol × Nat :=
  let patterns := (Pattern.all.map fun p => Symbol.terminal (.pattern p)).toArray
  let isFixed : Symbol → Bool
    | .terminal (.fixed ..) => true
    | _ => false
  let texts := distinct (ps.flatMap fun p => (p.body.steps.map Step.symbol).filter isFixed)
  let heads := distinct (ps.map Production.head)
  (patterns ++ texts.toArray ++ heads.toArray, patterns.size + texts.length)

def numbers (symbols : Array Symbol) : Std.HashMap Symbol Nat :=
  symbols.toList.zipIdx.foldl (fun m (s, n) => m.insert s n) ∅

structure Numbered where
  head : Nat
  favour : Int
  steps : List (Nat × Step)
deriving Inhabited

def Numbered.ofProduction (number : Symbol → Nat) (p : Production) : Numbered :=
  ⟨number p.head, p.body.favour, p.body.steps.map fun s => (number s.symbol, s)⟩

def Numbered.showings (p : Numbered) : List Showing := p.steps.map fun (_, s) => ⟨s.shown, s.role⟩

/-! ## Items -/

structure Items where
  known : Std.HashMap Item Nat := {}
  list : Array Item := #[]
deriving Inhabited

def Items.number (i : Item) (items : Items) : Nat × Items :=
  match items.known[i]? with
  | some n => (n, items)
  | none => (items.list.size, ⟨items.known.insert i items.list.size, items.list.push i⟩)

/-- The numbers of the items of a production at the end of `steps` and before, from the place `dot`
on; `last` is the step before that place. -/
def Items.addFrom (p : Numbered) (showings : List Showing) (last : Step) (dot : Nat) :
    List (Nat × Step) → Items → Nat × Items
  | [], items =>
    items.number ⟨p.head, p.steps.length, p.favour, showings, last.strength, last.side, none, dot⟩
  | (s, step) :: rest, items =>
    let (after, items) := Items.addFrom p showings step (dot + 1) rest items
    items.number ⟨p.head, p.steps.length, p.favour, showings, last.strength, last.side,
      some (s, after), dot⟩

def Items.add (p : Numbered) (items : Items) : Option Nat × Items :=
  match p.steps with
  | [] => (none, items)
  | (_, step) :: rest =>
    let (n, items) := Items.addFrom p p.showings step 1 rest items
    (some n, items)

/-- Adds the items of a production.  What is `opened` lists for each production its first symbol, what
it makes, and the item behind the first symbol. -/
def Items.addOpening (p : Numbered) (opened : List (Nat × Nat × Nat)) (items : Items) :
    List (Nat × Nat × Nat) × Items :=
  match p.steps, items.add p with
  | (s, _) :: _, (some n, items) => ((s, p.head, n) :: opened, items)
  | _, (_, items) => (opened, items)

def Items.ofProductions (ps : List Numbered) : List (Nat × Nat × Nat) × Items :=
  ps.foldl (fun (opened, items) p => items.addOpening p opened) ([], {})

def openingsOf (size : Nat) (opened : List (Nat × Nat × Nat)) : Array (List (Nat × Nat)) :=
  (distinct opened).foldl (fun os (s, o) => os.modify s (o :: ·)) (Array.replicate size [])

/-! ## First symbols -/

/-- Grows the sets of first terminals by one round of `pairs`, which hold symbols and the first
symbols of their productions. -/
def growFirsts (pairs : List (Nat × Nat)) (firsts : Array Nat) : Array Nat :=
  pairs.foldl (fun fs (head, first) => fs.modify head (· ||| fs.getD first 0)) firsts

def growFirstsUpTo (pairs : List (Nat × Nat)) : Nat → Array Nat → Array Nat
  | 0, firsts => firsts
  | n + 1, firsts =>
    let grown := growFirsts pairs firsts
    if grown = firsts then firsts else growFirstsUpTo pairs n grown

/-! ## Nonterminals that start others -/

def addStart (s : Start) : List Start → List Start
  | [] => [s]
  | t :: ts =>
    if t.symbol = s.symbol then
      ⟨t.symbol, t.followers ||| s.followers, t.passes || s.passes⟩ :: ts
    else t :: addStart s ts

/-- Follows the direct starts of the symbols of `work` until there are none left to follow, in at
most `n` steps.  `found` has what is known of each symbol; a symbol that learns something new is
followed again. -/
def followStarts (direct : Array (List Start)) :
    Nat → List Nat → Array (Option Start) → Array (Option Start)
  | n + 1, s :: work, found =>
    match found.getD s none with
    | none => followStarts direct n work found
    | some here =>
      let (work, found) := (direct.getD s []).foldl (fun (work, found) t =>
        let followers := t.followers ||| (if t.passes then here.followers else 0)
        let passes := t.passes && here.passes
        match found.getD t.symbol none with
        | none => (t.symbol :: work, found.set! t.symbol (some ⟨t.symbol, followers, passes⟩))
        | some old =>
          let new : Start := ⟨t.symbol, old.followers ||| followers, old.passes || passes⟩
          if new.followers = old.followers && new.passes = old.passes then (work, found)
          else (t.symbol :: work, found.set! t.symbol (some new))) (work, found)
      followStarts direct n work found
  | _, _, found => found

def startsOf (direct : Array (List Start)) (s : Nat) : List Start :=
  let found := (Array.replicate direct.size none).set! s (some ⟨s, 0, true⟩)
  (followStarts direct (direct.size * direct.size) [s] found).toList.filterMap id

/-! ## The whole table -/

/-- Is a fixed text a word, and not a mark? -/
def isWord (text : String) : Bool := text.toList.all fun c => c.isAlpha

def ofGrammar (g : Grammar) : Table :=
  let ps := g.productions
  let (symbols, terminals) := numbering ps
  let numbers := numbers symbols
  let number (s : Symbol) : Nat := numbers.getD s symbols.size
  let numbered := ps.map (Numbered.ofProduction number)
  let empty {α : Type} (a : α) : Array α := Array.replicate symbols.size a
  -- Items
  let (opened, items) := Items.ofProductions numbered
  let openings := openingsOf symbols.size opened
  let origin := items.list.size
  let start : Item :=
    ⟨symbols.size, 1, 0, [], .plain, none, (numbered.head?.map fun p => (p.head, origin + 1)), 0⟩
  let final : Item := ⟨symbols.size, 1, 0, [], .plain, none, none, 1⟩
  -- First symbols
  let pairs := numbered.filterMap fun p => p.steps.head?.map fun (s, _) => (p.head, s)
  let own := Array.ofFn fun (i : Fin symbols.size) => if i.val < terminals then 1 <<< i.val else 0
  let firsts := growFirstsUpTo pairs symbols.size own
  let openers := pairs.foldl (fun os (head, s) =>
    if s < terminals then os.modify head (· ||| 1 <<< s) else os) (empty 0)
  let direct := numbered.foldl (fun ds p =>
    match p.steps with
    | [(s, _)] => if s < terminals then ds else ds.modify p.head (addStart ⟨s, 0, true⟩)
    | (s, _) :: (t, _) :: _ =>
      if s < terminals then ds else ds.modify p.head (addStart ⟨s, firsts.getD t 0, false⟩)
    | [] => ds) (empty ([] : List Start))
  -- Fixed texts
  let texts := symbols.toList.zipIdx.filterMap fun
    | (.terminal (.fixed _ text), n) => some (text, n)
    | _ => none
  { symbols, terminals, firsts, openers, openings, origin
    orMark := number (.terminal (.fixed (.token "||") "||"))
    marks := (texts.filter fun (t, _) => !isWord t).map (fun (t, n) => (t.toList, n))
      |>.mergeSort fun a b => b.1.length ≤ a.1.length
    words := (texts.filter fun (t, _) => isWord t).foldl (fun m (t, n) => m.insert t n) ∅
    items := (items.list.push start).push final
    starts := Array.ofFn fun (i : Fin symbols.size) =>
      if i.val < terminals then [] else startsOf direct i
    orders := g.orders.map fun o => o.map fun
      | .level l => .inl l
      | .symbol s => .inr (number s) }

end Table

end TemplateValues.Syntax
