import TemplateValues.Syntax.Grammar.Basic
import TemplateValues.Syntax.Reading

/-!
# Syntax trees of texts

`parse` gives the syntax tree of a text.  It never fails: where a text cannot be read on, the
statements before that place are kept, what follows them up to there is an error, and reading starts
afresh behind it.
-/

namespace TemplateValues.Syntax

/-! ## From pieces to trees -/

def Symbol.kind? : Symbol → Option Kind
  | .terminal t => t.kind?
  | .node k => some k
  | .phrase _ => none
  | .run _ => none

mutual

/-- The trees of a piece, in front of others.  A piece that leaves no node of its own leaves those
of its pieces, and they take its role if they have none. -/
def Piece.trees (t : Table) (showing : Showing) (others : List Tree) : Piece → List Tree
  | .leaf symbol start after _ =>
    match showing.kind <|> ((t.symbols[symbol]?).bind Symbol.kind?) with
    | some k => .node k showing.role start after.offset [] :: others
    | none => others
  | .tree head showings _ start after pieces =>
    match showing.kind <|> ((t.symbols[head]?).bind Symbol.kind?) with
    | some k =>
      .node k showing.role start after.offset
        (Piece.allTrees t none showings [] pieces) :: others
    | none => Piece.allTrees t showing.role showings others pieces

/-- The trees of the pieces of a production, in front of others; `role` is the role of pieces that
have none of their own. -/
def Piece.allTrees (t : Table) (role : Option Field) (showings : List Showing)
    (others : List Tree) : List Piece → List Tree
  | [] => others
  | p :: ps =>
    if p.isComment then
      p.trees t {} (Piece.allTrees t role showings others ps)
    else
      let showing := showings.headD {}
      p.trees t { showing with role := showing.role <|> role }
        (Piece.allTrees t role (showings.drop 1) others ps)

end

def Piece.inner (t : Table) : Piece → List Tree
  | .leaf .. => []
  | .tree _ showings _ _ _ pieces => Piece.allTrees t none showings [] pieces

/-! ## Errors -/

def Table.isFilePart (t : Table) (s : Nat) : Bool :=
  match t.symbols[s]? with
  | some (.phrase .statement) | some (.run 0) | some (.terminal (.pattern .hashBang)) => true
  | _ => false

def Input.pastWord (s : Input) : Input :=
  let s := s.drop (s.rest.takeWhile Lexeme.isGap).length
  s.drop (max 1 (Lexeme.name s.rest))

namespace Reader

/-- What is kept of a reading that got stuck: its finished statements, and an error from there
through the next word or mark.  Answers the place behind it as well. -/
def salvage (r : Reader) (stack : Stack) : List Tree × Input :=
  let reading := (stack.readings []).headD []
  let (kept, lost) := reading.span fun p => p.isComment || r.table.isFilePart p.symbol
  let after := stack.here.pastWord
  let gap := (stack.here.rest.takeWhile Lexeme.isGap).length
  let start := (lost.head?.map Piece.start).getD (stack.here.drop gap).offset
  (Piece.allTrees r.table none [] [.node .error none start after.offset []] kept, after)

def trees (r : Reader) : (n : Nat) → Input → StateM Memo (List Tree)
  | 0, _ => return []
  | n + 1, s => do
    let p ← r.start s
    match p.finished, p.versions[0]? with
    | some file, _ => return file.inner r.table
    | none, none => return []
    | none, some version =>
      let (kept, after) := r.salvage version.stack
      return kept ++ (← trees r n after)

end Reader

/-! ## Texts -/

def typedMarkupTable : Thunk Table := .mk fun _ => .ofGrammar (Dialect.grammar ⟨true, true⟩)

def typedTable : Thunk Table := .mk fun _ => .ofGrammar (Dialect.grammar ⟨true, false⟩)

def markupTable : Thunk Table := .mk fun _ => .ofGrammar (Dialect.grammar ⟨false, true⟩)

def plainTable : Thunk Table := .mk fun _ => .ofGrammar (Dialect.grammar ⟨false, false⟩)

/-- The table of a dialect, computed when it is first needed. -/
@[noinline]
def Dialect.table : Dialect → Thunk Table
  | ⟨true, true⟩ => typedMarkupTable
  | ⟨true, false⟩ => typedTable
  | ⟨false, true⟩ => markupTable
  | ⟨false, false⟩ => plainTable

def parse (d : Dialect) (text : String) : Tree :=
  let size := text.utf8ByteSize
  let reader : Reader := ⟨d, d.table.get⟩
  let ts := ((reader.trees (text.length + 1) (.ofText text)).run {}).1
  -- blanks in front of the first tree are not part of the file
  .node .program none ((ts.head?.map Tree.start).getD size) size ts

end TemplateValues.Syntax
