import TemplateValues.Syntax.Lexeme

/-!
# Places where something may be left out

A statement may end without a semicolon at the end of the text, before a closing brace, and at a
line break before something that cannot continue it.  What can continue it depends on the dialect
and on what the grammar allows there.

The question mark of a conditional expression is found here too: it has to be told apart from the
other uses of the mark by what follows.
-/

namespace TemplateValues.Syntax

structure Omission where
  /-- Does the text have types? -/
  types : Bool
  /-- May an operator be next, so that what came before is an expression? -/
  afterExpression : Bool
  /-- May the body of a function be left out? -/
  bodyOptional : Bool
deriving Repr, Inhabited

namespace Omission

open Lexeme (isSpace isSeparator)

/-! ## Blanks and comments ahead -/

inductive Spot where
  | between | slash | line | block | star
deriving DecidableEq, Repr

structure Seen where
  /-- The number of characters read. -/
  count : Nat
  /-- Was a slash read that opens no comment? -/
  loneSlash : Bool := false
  /-- Did the reader stop behind a block comment that stays on its line? -/
  sameLine : Bool := false
  /-- Was there a comment that the next token must not swallow? -/
  commented : Bool := false
deriving Repr, Inhabited

/-- Reads blanks and comments, or just through the first block comment if `once` holds.  `broken`
says that a block comment had a line break in it, and `n` characters have been read before. -/
def pass (types once : Bool) (spot : Spot) (broken commented : Bool) (n : Nat) :
    List Char → Seen
  | [] => { count := n, commented, loneSlash := spot = .slash }
  | c :: cs =>
    let breaks := c = '\n' || (!types && isSeparator c)
    match spot with
    | .between =>
      if isSpace c then pass types once .between broken commented (n + 1) cs
      else if c = '/' then pass types once .slash broken commented (n + 1) cs
      else { count := n, commented }
    | .slash =>
      if c = '/' then pass types once .line broken true (n + 1) cs
      else if c = '*' then pass types once .block broken commented (n + 1) cs
      else { count := n, commented, loneSlash := true }
    | .line =>
      if c = '\n' then pass types once .between broken commented (n + 1) cs
      else if breaks || c = '\x00' then { count := n, commented }
      else pass types once .line broken commented (n + 1) cs
    | .block =>
      if c = '*' then pass types once .star broken commented (n + 1) cs
      else if c = '\x00' then { count := n, commented }
      else pass types once .block (broken || breaks) commented (n + 1) cs
    | .star =>
      if c = '/' then
        if once && cs.head? != some '/' then
          { count := n + 1, commented := true, sameLine := !broken }
        else pass types once .between broken (commented || !types) (n + 1) cs
      else if c = '*' then pass types once .star broken commented (n + 1) cs
      else if c = '\x00' then { count := n, commented }
      else pass types once .block (broken || breaks) commented (n + 1) cs

/-! ## Missing semicolons -/

structure Answer where
  omitted : Bool
  /-- The number of characters looked at when the answer is no. -/
  count : Nat := 0
  commented : Bool := false
deriving Repr, Inhabited

/-- On a new line, can the text ahead not continue what came before? -/
def startsAfresh (o : Omission) (n : Nat) : List Char → Answer
  | [] => { omitted := true }
  | c :: cs =>
    if "`,:;*%><=?^|&/".toList.contains c then { omitted := false, count := n }
    else if c = '.' then
      if o.types then { omitted := false, count := n }
      else { omitted := cs.head?.any Char.isDigit, count := n + 1 }
    else if c = '(' || c = '[' then { omitted := o.types && !o.afterExpression, count := n }
    else if c = '{' then { omitted := !(o.types && o.bodyOptional), count := n }
    else if c = '+' || c = '-' then { omitted := cs.head? = some c, count := n + 1 }
    else if c = '!' then { omitted := cs.head? != some '=', count := n + 1 }
    else if c = 'i' && cs.head? = some 'n' then
      let rest := cs.drop 1
      if !rest.head?.any Char.isAlpha then { omitted := false, count := n + 2 }
      else if "stanceof".toList.isPrefixOf rest then
        { omitted := (rest.drop 8).head?.any Char.isAlpha, count := n + 10 }
      else { omitted := true }
    else { omitted := true }

def afterBreak (o : Omission) (n : Nat) (cs : List Char) (commented : Bool) : Answer :=
  let seen := pass o.types false .between false commented 0 cs
  let answer :=
    if seen.loneSlash then { omitted := false, count := n + seen.count }
    else o.startsAfresh (n + seen.count) (cs.drop seen.count)
  { answer with commented := seen.commented }

def typedSemicolon (o : Omission) (n : Nat) : List Char → Answer
  | [] => { omitted := true }
  | c :: cs =>
    if c = '\x00' then { omitted := true }
    else if c = '}' then
      { omitted := (cs.dropWhile isSpace).head? != some ':' || o.afterExpression, count := n + 1 }
    else if c = '\n' then o.afterBreak (n + 1) cs false
    else if isSpace c then o.typedSemicolon (n + 1) cs
    else { omitted := false, count := n }

/-- May a semicolon be left out, in a text without types?  Comments are passed over `k` times at
most. -/
def plainSemicolon (o : Omission) : (k n : Nat) → (commented : Bool) → List Char → Answer
  | 0, n, commented, _ => { omitted := false, count := n, commented }
  | _, _, _, [] => { omitted := true }
  | k + 1, n, commented, c :: cs =>
    if c = '\x00' || c = '}' then { omitted := true }
    else if c = '\n' || isSeparator c then o.afterBreak (n + 1) cs commented
    else if isSpace c then o.plainSemicolon k (n + 1) commented cs
    else if c = '/' then
      let seen := pass false true .between false commented 0 (c :: cs)
      let rest := (c :: cs).drop seen.count
      let n := n + seen.count
      if seen.loneSlash then { omitted := false, count := n, commented := seen.commented }
      else if !seen.sameLine && !o.afterExpression && rest.head? != some ',' &&
          rest.head? != some '=' then
        { omitted := true }
      else if rest.head?.any fun d => d = '}' || isSeparator d || isSpace d then
        o.plainSemicolon k n seen.commented rest
      else { omitted := false, count := n, commented := seen.commented }
    else { omitted := false, count := n, commented }

/-- May a semicolon be left out at the front of `cs`, which has at most `k` characters? -/
def semicolon (o : Omission) (k : Nat) (cs : List Char) : Answer :=
  if o.types then o.typedSemicolon 0 cs else o.plainSemicolon (k + 1) 0 false cs

/-! ## Conditional expressions -/

/-- The number of blanks before the question mark of a conditional expression, if there is one.  It
is not doubled, and no optional chain; in texts with types it is not followed by a mark that ends
a parameter. -/
def ternaryMark (types : Bool) (cs : List Char) : Option Nat :=
  let blanks := (cs.takeWhile isSpace).length
  match cs.drop blanks with
  | '?' :: rest =>
    if rest.head? = some '?' then none
    else
      let rest' := if types then rest.dropWhile isSpace else rest
      if types && rest'.head?.any (fun c => c = ':' || c = ')' || c = ',') then none
      else match rest' with
        | '.' :: more => if more.head?.any Char.isDigit then some blanks else none
        | _ => some blanks
  | _ => none

end Omission

end TemplateValues.Syntax
