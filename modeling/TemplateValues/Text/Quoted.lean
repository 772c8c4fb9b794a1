/-!
# Quoted text

A quoted text starts and ends with the same quotation mark.  Reading it back drops the two marks
and the backslashes inside: a backslash before `n`, `t` or `r` makes a line feed, a tab or a carriage
return, any other character after a backslash stands for itself.
-/

namespace TemplateValues.Text

def isQuote (c : Char) : Bool := c = '"' || c = '\x27' || c = '\x60'

/-- What the character after a backslash stands for. -/
def unescapedChar (c : Char) : Char :=
  if c = 'n' then '\n' else if c = 't' then '\t' else if c = 'r' then '\r' else c

/-- The text without its backslashes; a last backslash stays. -/
def unescape : List Char → List Char
  | '\\' :: c :: cs => unescapedChar c :: unescape cs
  | c :: cs => c :: unescape cs
  | [] => []

def unquoteChars : List Char → Option (List Char)
  | q :: cs => if isQuote q && cs.getLast? = some q then some (unescape cs.dropLast) else none
  | [] => none

def unquote (text : String) : Option String := (unquoteChars text.toList).map String.ofList

end TemplateValues.Text
