import TemplateValues.Syntax.Automaton
import TemplateValues.Syntax.Input
import TemplateValues.Syntax.Omission

/-!
# Tokens

The next token depends on the state of the reader: only terminals that the state allows are looked
for.  Some are looked for at the very place where the last token ended, because blanks belong to
them or must not precede them; all others come after blanks, and of these the longest is taken.

Comments are allowed everywhere.
-/

namespace TemplateValues.Syntax

structure Token where
  /-- The number of the terminal. -/
  symbol : Nat
  start : Input
  after : Input
  /-- Is its text that of a keyword? -/
  isKeyword : Bool := false
deriving Inhabited

namespace Token

def isComment (t : Token) : Bool :=
  t.symbol = Pattern.comment.index || t.symbol = Pattern.htmlComment.index

def ofPattern (p : Pattern) (start after : Input) : Token := { symbol := p.index, start, after }

end Token

structure Allowed where
  set : Nat
  table : Table
  dialect : Dialect

namespace Allowed

variable (a : Allowed)

def pattern (p : Pattern) : Bool := a.set.testBit p.index

def afterExpression : Bool := a.set.testBit a.table.orMark

/-! ## Tokens whose blanks matter -/

def templateChars (s : Input) : Option Token :=
  match Lexeme.templateChars 0 s.rest with
  | 0 => none
  | n => some (.ofPattern .templateChars s (s.drop n))

/-- The number of characters of a text between markup elements, and whether there is more to it than
blanks around line breaks. -/
def markupText (n : Nat) (solid broken : Bool) : List Char → Nat × Bool
  | [] => (n, solid)
  | c :: cs =>
    if c = '\x00' || "<>&\x7b\x7d".toList.contains c then (n, solid)
    else
      let broken := c = '\n' || (broken && Lexeme.isSpace c)
      markupText (n + 1) (solid || !broken) broken cs

def ternaryMark (s : Input) : Option Token :=
  match Omission.ternaryMark a.dialect.types s.rest with
  | none => none
  | some blanks =>
    let mark := s.drop blanks
    some (.ofPattern .ternaryMark mark (mark.drop 1))

/-- A comment in the notation of markup, which reaches to the end of its line. -/
def htmlComment (s : Input) : Option Token :=
  let start :=
    s.drop (s.rest.takeWhile fun c => Lexeme.isSpace c || Lexeme.isSeparator c).length
  if "<!--".toList.isPrefixOf start.rest || "-->".toList.isPrefixOf start.rest then
    let length := (start.rest.takeWhile fun c =>
      c != '\x00' && c != '\n' && !Lexeme.isSeparator c).length
    some (.ofPattern .htmlComment start (start.drop length))
  else none

/-- The place of a missing semicolon, or else a question mark of a conditional expression. -/
def omission (s : Input) : Option Token :=
  let o : Omission := ⟨a.dialect.types, a.afterExpression, a.pattern .signatureGap⟩
  let answer := o.semicolon s.left s.rest
  if answer.omitted then some (.ofPattern .semicolonGap s s)
  else
    let there := s.drop answer.count
    if !answer.commented && a.pattern .ternaryMark && there.rest.head? = some '?' then
      a.ternaryMark there
    else none

/-- The tokens that are looked for first, at the place where the last token ended. -/
def contextual (s : Input) : Option Token :=
  if a.pattern .templateChars then
    if a.pattern .semicolonGap then none else templateChars s
  else
    let (n, solid) := if a.pattern .markupText then markupText 0 false false s.rest else (0, false)
    if solid then some (.ofPattern .markupText s (s.drop n))
    else
      let s := s.drop n
      if a.pattern .semicolonGap || a.pattern .signatureGap then a.omission s
      else if a.pattern .ternaryMark then a.ternaryMark s
      else if !a.afterExpression && !a.pattern .escape && !a.pattern .regexChars then htmlComment s
      else none

/-- The patterns that no blank may precede, with their lengths. -/
def immediate : List (Pattern × (List Char → Nat)) :=
  [(.doubleChars, Lexeme.stringChars '"'), (.singleChars, Lexeme.stringChars '\x27'),
   (.markupDoubleChars, Lexeme.markupChars '"' 0),
   (.markupSingleChars, Lexeme.markupChars '\x27' 0), (.escape, Lexeme.escape),
   (.regexEnd, Lexeme.regexEnd), (.regexFlags, Lexeme.regexFlags),
   (.regexChars, Lexeme.regexChars)]

def adjacent (s : Input) : Option Token :=
  immediate.findSome? fun (p, length) =>
    if a.pattern p then
      match length s.rest with
      | 0 => none
      | n => some (.ofPattern p s (s.drop n))
    else none

/-! ## Tokens after blanks -/

/-- The patterns that may follow blanks, names and comments apart, with their lengths. -/
def separate : List (Pattern × (List Char → Nat)) :=
  [(.number, Lexeme.number), (.privateName, Lexeme.privateName), (.hashBang, Lexeme.hashBang),
   (.markupName, Lexeme.markupName), (.characterReference, Lexeme.characterReference),
   (.staticGet, Lexeme.staticGet)]

/-- The name or keyword at the front: its length, its terminal, and whether it is a keyword.  A
keyword that is not allowed is a name. -/
def nameOrWord (cs : List Char) : Option (Nat × Nat × Bool) :=
  match Lexeme.name cs with
  | 0 => none
  | n =>
    let name := if a.pattern .name then some Pattern.name.index else none
    match a.table.words[String.ofList (cs.take n)]? with
    | none => name.map fun s => (n, s, false)
    | some word =>
      (if a.set.testBit word then some word else name).map fun s => (n, s, true)

/-- The punctuation mark at the front, the longest that is allowed: its length and its terminal. -/
def mark (cs : List Char) : Option (Nat × Nat) :=
  a.table.marks.findSome? fun (text, s) =>
    if text.isPrefixOf cs && a.set.testBit s then some (text.length, s) else none

def longest (cs : List Char) : Option (Nat × Nat × Bool) :=
  let better (found : Option (Nat × Nat × Bool)) (new : Nat × Nat × Bool) :=
    match found with
    | none => if new.1 = 0 then none else some new
    | some old => if old.1 < new.1 then some new else some old
  -- of tokens of equal length the one looked for first counts
  let found := better none (Lexeme.comment cs, Pattern.comment.index, false)
  let found := match a.mark cs with
    | some (n, s) => better found (n, s, false)
    | none => found
  let found := match a.nameOrWord cs with
    | some new => better found new
    | none => found
  separate.foldl (fun found (p, length) =>
    if a.pattern p then better found (length cs, p.index, false) else found) found

def token (s : Input) : Option Token :=
  match a.contextual s with
  | some t => some t
  | none =>
    match a.adjacent s with
    | some t => some t
    | none =>
      let s := s.drop (s.rest.takeWhile Lexeme.isGap).length
      if s.rest.isEmpty then some (.ofPattern .endOfText s s)
      else (a.longest s.rest).map fun (n, symbol, isKeyword) =>
        { symbol, start := s, after := s.drop n, isKeyword }

end Allowed

end TemplateValues.Syntax
