import TemplateValues.Chain.Name
import TemplateValues.Text.Blank
import TemplateValues.Text.Quoted

/-!
# The normal text of an expression

Different spellings of one member chain get one text: optional chaining and non-null marks are
dropped, blanks around dots vanish and other runs of blanks become one space.  Quoted spans are
copied as they are.  The text is read once from left to right; `Scan` says where the reader stands.
-/

namespace TemplateValues.Chain

open TemplateValues.Text

/-- Where a reader of expression text stands. -/
inductive Scan where
  /-- Outside of quotes, after something that is not blank. -/
  | plain
  /-- In a run of blanks outside of quotes. -/
  | blank
  /-- Inside quotes of the given mark. -/
  | quoted (mark : Char)
  /-- Inside quotes, right after a backslash. -/
  | escaped (mark : Char)
deriving DecidableEq, Repr

/-- Is a question mark before `cs` part of an optional chain? -/
def chainsAhead : List Char → Bool
  | '.' :: d :: _ => !d.isDigit
  | ['.'] => true
  | _ => false

/-- May an exclamation mark after `out` (last character first) be a non-null mark? -/
def assertsBefore (out : List Char) : Bool :=
  out.head?.any fun c => isAlphabetic c || isNumeric c || c = '_' || c = '$' || c = ')' || c = ']'

/-- The normal text of what is read from here on, put after `out` (last character first). -/
def normalFrom : Scan → List Char → List Char → List Char
  | _, out, [] => out.reverse
  | .quoted q, out, c :: cs =>
    if c = '\\' then normalFrom (.escaped q) (c :: out) cs
    else if c = q then normalFrom .plain (c :: out) cs
    else normalFrom (.quoted q) (c :: out) cs
  | .escaped q, out, c :: cs => normalFrom (.quoted q) (c :: out) cs
  | state, out, c :: cs =>
    if isQuote c then normalFrom (.quoted c) (c :: out) cs
    else if c = '?' && chainsAhead cs then normalFrom .plain out cs
    else if c = '!' && assertsBefore out && cs.head? ≠ some '=' then normalFrom .plain out cs
    else if isBlank c then
      if state = .blank || out.head? = some '.' || (trimFront cs).head? = some '.' then
        normalFrom .blank out cs
      else normalFrom .blank (' ' :: out) cs
    else normalFrom .plain (c :: out) cs

def normalChars (cs : List Char) : List Char := normalFrom .plain [] (trim cs)

def normalize (text : String) : String := String.ofList (normalChars text.toList)

end TemplateValues.Chain
