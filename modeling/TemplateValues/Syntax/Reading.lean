import TemplateValues.Syntax.Stack
import TemplateValues.Syntax.Token

/-!
# Readings

A text is read token by token.  Where the automaton leaves open how to go on, the reading is split,
and all its versions are followed side by side: a version that cannot go on is given up, versions
that meet are joined, and of the rest the most favoured come first.  A text without errors ends up
with one reading; if there were several to the end, the most favoured one is taken.
-/

namespace TemplateValues.Syntax

inductive Status where
  | active
  /-- It cannot go on. -/
  | stuck
  /-- It has come to its end or has become part of another version. -/
  | done
deriving DecidableEq, Repr, Inhabited

/-- One of the readings that are followed side by side. -/
structure Version where
  stack : Stack
  status : Status := .active
deriving Inhabited

structure Progress where
  versions : Array Version
  /-- The best reading of the whole text so far. -/
  finished : Option Piece := none
  /-- The offset up to which the text has been read. -/
  reached : Nat := 0
deriving Inhabited

structure Reader where
  dialect : Dialect
  table : Table

namespace Reader

variable (r : Reader)

/-! ## Single steps -/

/-- The most versions that are followed, and the most that there may be for a while. -/
def maxVersions : Nat := 6

@[inherit_doc maxVersions]
def maxNewVersions : Nat := 10

def pushed (s : Stack) (state : Nat) (p : Piece) : StateM Memo Stack := fun memo =>
  (s.push memo.made state p, { memo with made := memo.made + 1 })

/-- The pieces without the comments at their end, and these. -/
def splitComments (ps : List Piece) : List Piece × List Piece :=
  let back := ps.reverse
  ((back.dropWhile Piece.isComment).reverse, (back.takeWhile Piece.isComment).reverse)

def addWalk (w : Stack.Walk) : List (List Stack.Walk) → List (List Stack.Walk)
  | [] => [[w]]
  | g :: gs =>
    if g.head?.any (fun v => v.stack.id = w.stack.id) then (g ++ [w]) :: gs else g :: addWalk w gs

/-- The piece that an item makes on each of some ways down to the same stack, with the comments
behind it; the best of these. -/
def bestPiece (i : Item) (here : Input) : List Stack.Walk → Option (Piece × List Piece)
  | [] => none
  | w :: ws =>
    let make (w : Stack.Walk) : Piece × List Piece :=
      let (ps, comments) := splitComments w.pieces
      (.ofItem i here ps, comments)
    some <| ws.foldl (fun best w => if best.1.yieldsTo (make w).1 then make w else best) (make w)

/-- Adds a version that `v` has led to: it is joined with another version that it meets, if there is
one. -/
def addVersion (versions : Array Version) (v : Nat) (s : Stack) : Array Version :=
  let meets (j : Nat) : Bool :=
    j ≠ v && match versions[j]? with
      | some other => other.status = .active && other.stack.meets s
      | none => false
  match (List.range versions.size).find? meets with
  | some j => versions.modify j fun other => { other with stack := other.stack.join s }
  | none => versions.push { stack := s }

/-- Ends the production of an item in the version `v`: there is a new version for each stack that
lies below the production. -/
def reduce (versions : Array Version) (v item : Nat) : StateM Memo (Array Version) := do
  let some version := versions[v]? | return versions
  let i := r.table.item item
  let groups := (version.stack.paths i.length).foldl (fun gs w => addWalk w gs) []
  -- versions that are done do not count
  let limit := maxNewVersions + (versions.filter fun w => w.status = .done).size
  groups.foldlM (fun versions group => do
    match group.head?, bestPiece i version.stack.here group with
    | some w, some (piece, comments) =>
      if limit < versions.size then return versions
      match ← r.table.move w.stack.state i.head with
      | none => return versions
      | some state =>
        let top ← pushed w.stack state piece
        let top ← comments.foldlM (fun s c => pushed s state c) top
        return addVersion versions v top
    | _, _ => return versions) versions

def whole (ps : List Piece) : Piece :=
  let (before, rest) := ps.span Piece.isComment
  match rest with
  | .tree head showings favour start after pieces :: comments =>
    .tree head showings favour start after (before ++ pieces ++ comments)
  | _ =>
    .tree r.table.terminals [] 0 ((ps.head?.map Piece.start).getD 0)
      ((ps.getLast?.map Piece.after).getD default) ps

/-- Takes the readings of a version that has come to the end of the text. -/
def finish (p : Progress) (s : Stack) : Progress :=
  (s.readings []).foldl (fun p ps =>
    let new := r.whole ps
    match p.finished with
    | none => { p with finished := some new }
    | some old => if old.yieldsTo new then { p with finished := some new } else p) p

def put (p : Progress) (v : Nat) (version : Version) : Progress :=
  { p with versions := p.versions.setIfInBounds v version }

/-- Reads the token `t` in the version `v`, after ending the productions that end before it; in at
most `k` steps. -/
def read : (k : Nat) → Progress → (v : Nat) → Token → StateM Memo Progress
  | 0, p, _, _ => return p
  | k + 1, p, v, t => do
    let some version := p.versions[v]? | return p
    let s := version.stack
    let leaf := Piece.leaf t.symbol t.start.offset t.after t.isComment
    -- a comment may stand anywhere and leaves the state as it is
    if t.isComment then
      return put p v { stack := ← pushed s s.state leaf }
    let decision ← r.table.decide s.state t.symbol
    if decision.accept then
      return put (r.finish p s) v { version with status := .done }
    let (versions, last) ← decision.reduce.foldlM (fun (versions, last) item => do
      let grown ← r.reduce versions v item
      return (grown, if versions.size < grown.size then some versions.size else last))
      (p.versions, none)
    let p := { p with versions }
    match decision.shift, last with
    | some state, _ => return put p v { stack := ← pushed s state leaf }
    | none, some l =>
      match versions[l]? with
      | none => return p
      -- the newest version takes the place of this one, and has the token still to read
      | some next =>
        let moved := (versions.setIfInBounds v next).eraseIdxIfInBounds l
        read k { p with versions := moved } v t
    | none, none =>
      if !decision.reduce.isEmpty then return put p v { version with status := .done }
      -- a keyword that does not fit may be meant as a name
      let name := Pattern.name.index
      let asName ← r.table.decide s.state name
      if t.isKeyword && t.symbol ≠ name &&
          (asName.shift.isSome || !asName.reduce.isEmpty) then
        read k p v { t with symbol := name }
      else return put p v { version with status := .stuck }

def advance (k : Nat) (p : Progress) (v : Nat) : StateM Memo Progress := do
  let some version := p.versions[v]? | return p
  let allowed := (← Table.state version.stack.state).allowed
  match Allowed.token ⟨allowed, r.table, r.dialect⟩ version.stack.here with
  | none => return put p v { version with status := .stuck }
  | some t => r.read k p v t

/-! ## Rounds -/

/-- Takes the version `v` further until it gets ahead of what has been reached, in at most `n`
tokens. -/
def follow (k : Nat) : (n : Nat) → Progress → (v : Nat) → StateM Memo Progress
  | 0, p, _ => return p
  | n + 1, p, v => do
    match p.versions[v]? with
    | some ⟨_, .active⟩ =>
      let p ← r.advance k p v
      let offset := (p.versions[v]?.map fun w => w.stack.here.offset).getD 0
      if p.reached < offset || (0 < v && offset = p.reached) then
        return { p with reached := offset }
      else follow k n p v
    | _ => return p

def followAll (k : Nat) : (n : Nat) → Progress → (v : Nat) → StateM Memo Progress
  | 0, p, _ => return p
  | n + 1, p, v => do
    if v < p.versions.size then followAll k n (← r.follow k k p v) (v + 1) else return p

/-- Puts a version into a list of versions, the most favoured first.  A version that is stuck is
given up for one that is not, and versions that meet are joined. -/
def insert (w : Version) : List Version → List Version
  | [] => [w]
  | v :: vs =>
    if v.status = .active && w.status = .stuck then v :: vs
    else if v.status = .stuck && w.status = .active then insert w vs
    else if v.status = .active && v.stack.meets w.stack then
      { v with stack := v.stack.join w.stack } :: vs
    else if v.stack.favour < w.stack.favour then w :: insert v vs
    else v :: insert w vs

def condense (versions : Array Version) : Array Version :=
  let kept := versions.foldl (fun kept w => if w.status = .done then kept else insert w kept) []
  (kept.take maxVersions).toArray

def rounds (k : Nat) : (n : Nat) → Progress → StateM Memo Progress
  | 0, p => return p
  | n + 1, p => do
    let p ← r.followAll k k p 0
    let p := { p with versions := condense p.versions }
    if p.versions.any fun w => w.status = .active then rounds k n p else return p

def start (s : Input) : StateM Memo Progress := do
  let state ← r.table.start
  let stack : Stack := .mk (← get).made state s 0 0 .nil
  modify fun memo => { memo with made := memo.made + 1 }
  let k := 16 * (s.left + 16)
  r.rounds k k { versions := #[{ stack }], reached := s.offset }

end Reader

end TemplateValues.Syntax
