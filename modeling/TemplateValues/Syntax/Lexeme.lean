import TemplateValues.Text.Blank

/-!
# Lexemes

How far a lexeme reaches from the front of a text.  Every function here answers a number of
characters; zero means that no such lexeme stands at the front.
-/

namespace TemplateValues.Syntax.Lexeme

open TemplateValues.Text (isBlank)

/-! ## Blanks and comments -/

/-- What separates tokens: blanks but the next-line character, and three invisible marks. -/
def isGap (c : Char) : Bool :=
  (isBlank c && c.toNat != 0x85) || c.toNat = 0xFEFF || c.toNat = 0x2060 || c.toNat = 0x200B

def isSpace (c : Char) : Bool := c = ' ' || ('\t' ≤ c && c ≤ '\r')

def isSeparator (c : Char) : Bool := c.toNat = 0x2028 || c.toNat = 0x2029

def isLineEnd (c : Char) : Bool := c = '\n' || c = '\r' || isSeparator c

/-- The number of characters, after `n` others, up to and including the first `*/`, zero if there is
none. -/
def throughStarSlash (n : Nat) : List Char → Nat
  | '*' :: '/' :: _ => n + 2
  | _ :: cs => throughStarSlash (n + 1) cs
  | [] => 0

def comment : List Char → Nat
  | '/' :: '/' :: cs => (cs.takeWhile fun c => !isLineEnd c).length + 2
  | '/' :: '*' :: cs => throughStarSlash 2 cs
  | _ => 0

/-- A first line that names an interpreter. -/
def hashBang : List Char → Nat
  | '#' :: '!' :: cs => (cs.takeWhile (· != '\n')).length + 2
  | _ => 0

/-! ## Names -/

def isPunctuation (c : Char) : Bool :=
  ":;`\"'@#.,|^&<=>+-*/\\%?!~()[]\x7b\x7d".toList.contains c

/-- Names are made of everything but blanks, control characters and punctuation. -/
def isNamePart (c : Char) : Bool :=
  !(c.toNat < 0x20 || isGap c || isPunctuation c)

def isHexDigit (c : Char) : Bool :=
  c.isDigit || ('a' ≤ c && c ≤ 'f') || ('A' ≤ c && c ≤ 'F')

/-- A character given by its code, as in `\u0061` or `\u{61}`. -/
def unicodeEscape : List Char → Nat
  | '\\' :: 'u' :: '{' :: cs =>
    let digits := (cs.takeWhile isHexDigit).length
    if 0 < digits && (cs.drop digits).head? = some '}' then digits + 4 else 0
  | '\\' :: 'u' :: cs => if ((cs.take 4).takeWhile isHexDigit).length = 4 then 6 else 0
  | _ => 0

/-- The rest of a name, after `n` characters; the next `skip` ones belong to a character that is
given by its code. -/
def nameRest (n skip : Nat) : List Char → Nat
  | [] => n
  | c :: cs =>
    match skip with
    | k + 1 => nameRest (n + 1) k cs
    | 0 =>
      if isNamePart c then nameRest (n + 1) 0 cs
      else match unicodeEscape (c :: cs) with
        | 0 => n
        | k + 1 => nameRest (n + 1) k cs

def name : List Char → Nat
  | c :: cs => if c.isDigit then 0 else nameRest 0 0 (c :: cs)
  | [] => 0

def privateName : List Char → Nat
  | '#' :: cs => if name cs = 0 then 0 else name cs + 1
  | _ => 0

/-! ## Numbers -/

def moreDigits (isDigit : Char → Bool) : List Char → Nat
  | '_' :: d :: cs => if isDigit d then moreDigits isDigit cs + 2 else 0
  | d :: cs => if isDigit d then moreDigits isDigit cs + 1 else 0
  | [] => 0

def digits (isDigit : Char → Bool) : List Char → Nat
  | d :: cs => if isDigit d then moreDigits isDigit cs + 1 else 0
  | [] => 0

/-- The digits before a decimal point: a zero, or digits with at most one zero in front. -/
def wholeDigits : List Char → Nat
  | '0' :: c :: cs =>
    if '1' ≤ c && c ≤ '9' then moreDigits Char.isDigit cs + 2 else 1
  | c :: cs =>
    if c = '0' then 1
    else if c.isDigit then moreDigits Char.isDigit cs + 1
    else 0
  | [] => 0

def exponent : List Char → Nat
  | e :: cs =>
    if e = 'e' || e = 'E' then
      let sign := match cs with
        | s :: _ => if s = '+' || s = '-' then 1 else 0
        | [] => 0
      match digits Char.isDigit (cs.drop sign) with
      | 0 => 0
      | n => n + sign + 1
    else 0
  | [] => 0

/-- A number with a letter for its base, such as `0x1F`. -/
def basedNumber : List Char → Nat
  | '0' :: b :: cs =>
    let isDigit : Char → Bool :=
      if b = 'x' || b = 'X' then isHexDigit
      else if b = 'o' || b = 'O' then fun c => '0' ≤ c && c ≤ '7'
      else if b = 'b' || b = 'B' then fun c => c = '0' || c = '1'
      else fun _ => false
    match digits isDigit cs with
    | 0 => 0
    | n => if (cs.drop n).head? = some 'n' then n + 3 else n + 2
  | _ => 0

def decimal (cs : List Char) : Nat :=
  let whole := wholeDigits cs
  match cs.drop whole with
  | '.' :: rest =>
    let fraction := digits Char.isDigit rest
    if whole = 0 && fraction = 0 then 0
    else whole + 1 + fraction + exponent (rest.drop fraction)
  | rest =>
    match exponent rest with
    | 0 => 0
    | n => if whole = 0 then 0 else whole + n

def integer (cs : List Char) : Nat :=
  match digits Char.isDigit cs with
  | 0 => 0
  | n => if (cs.drop n).head? = some 'n' then n + 1 else n

/-- A number in any notation of the language: the longest one that stands there. -/
def number (cs : List Char) : Nat := max (basedNumber cs) (max (decimal cs) (integer cs))

/-! ## Strings, templates and regular expressions -/

def escaped : List Char → Nat
  | 'x' :: cs => if ((cs.take 2).takeWhile isHexDigit).length = 2 then 3 else 0
  | 'u' :: cs => unicodeEscape ('\\' :: 'u' :: cs) - 1
  | c :: cs =>
    if '0' ≤ c && c ≤ '7' then
      ((cs.take 2).takeWhile fun d => '0' ≤ d && d ≤ '7').length + 1
    else if (c = '\r' || c = '?') && cs.head?.any (fun d => d = '\n' || isSeparator d) then 2
    else 1
  | [] => 0

def escape : List Char → Nat
  | '\\' :: cs => match escaped cs with
    | 0 => 0
    | n => n + 1
  | _ => 0

def stringChars (q : Char) (cs : List Char) : Nat :=
  (cs.takeWhile fun c => c != q && c != '\\' && c != '\n' && c != '\r').length

/-- Plain characters of a template after `n` others, up to a backquote, a backslash or a
substitution; none if the text ends before one of these. -/
def templateChars (n : Nat) : List Char → Nat
  | '\x60' :: _ => n
  | '\\' :: _ => n
  | '$' :: '{' :: _ => n
  | c :: cs => if c = '\x00' then 0 else templateChars (n + 1) cs
  | [] => 0

/-- The rest of a character class of a regular expression with its closing bracket, after `n`
characters; `escaped` says that a backslash precedes.  Zero if there is no such bracket. -/
def classRest (n : Nat) (escaped : Bool) : List Char → Nat
  | [] => 0
  | c :: cs =>
    if c = '\n' then 0
    else if escaped then classRest (n + 1) false cs
    else if c = ']' then n + 1
    else classRest (n + 1) (c = '\\') cs

/-- The body of a regular expression after `n` characters, up to a slash outside of a character
class; the next `skip` characters belong to a class or an escape. -/
def regexRest (n skip : Nat) : List Char → Nat
  | [] => n
  | c :: cs =>
    match skip with
    | k + 1 => regexRest (n + 1) k cs
    | 0 =>
      if c = '\n' || c = '/' then n
      else if c = '\\' then
        match cs with
        | [] => n
        | d :: _ => if d = '\n' then n else regexRest (n + 1) 1 cs
      else if c = '[' then
        match classRest 0 false cs with
        | 0 => n
        | k => regexRest (n + 1) k cs
      else regexRest (n + 1) 0 cs

def regexChars (cs : List Char) : Nat := regexRest 0 0 cs

def regexEnd : List Char → Nat
  | '/' :: _ => 1
  | _ => 0

def regexFlags (cs : List Char) : Nat := (cs.takeWhile Char.isLower).length

/-! ## Markup -/

/-- Plain characters after `n` others of a text that is quoted by `q` inside of a markup element:
an ampersand is plain unless a letter or a hash sign follows. -/
def markupChars (q : Char) (n : Nat) : List Char → Nat
  | '&' :: c :: cs => if c = '#' || c.isAlpha then n else markupChars q (n + 2) cs
  | c :: cs => if c = q || c = '&' then n else markupChars q (n + 1) cs
  | [] => n

def isMarkupNamePart (c : Char) : Bool := c.isAlphanum || c = '_' || c = '$'

def markupName : List Char → Nat
  | c :: cs =>
    if c.isDigit || !isMarkupNamePart c then 0
    else
      let front := (cs.takeWhile isMarkupNamePart).length
      match cs.drop front with
      | '-' :: rest => front + 2 + (rest.takeWhile fun d => isMarkupNamePart d || d = '-').length
      | _ => 0
  | [] => 0

/-- The number of characters that satisfy `p` from the front if it is between one and `most` and a
semicolon follows, the semicolon included. -/
def upToSemicolon (most : Nat) (p : Char → Bool) (cs : List Char) : Nat :=
  let n := (cs.takeWhile p).length
  if 0 < n && n ≤ most && (cs.drop n).head? = some ';' then n + 1 else 0

/-- A character given by its name or its code, as in `&amp;` or `&#38;`. -/
def characterReference : List Char → Nat
  | '&' :: '#' :: x :: cs =>
    if x = 'x' || x = 'X' then
      match upToSemicolon 6 isHexDigit cs with
      | 0 => 0
      | n => n + 3
    else match upToSemicolon 5 Char.isDigit (x :: cs) with
      | 0 => 0
      | n => n + 2
  | '&' :: cs =>
    match upToSemicolon 30 Char.isAlpha cs with
    | 0 => 0
    | n => n + 1
  | _ => 0

/-- The words `static get` and the blanks after them, up to the last line feed among these. -/
def staticGet (cs : List Char) : Nat :=
  if "static".toList.isPrefixOf cs then
    let afterStatic := cs.drop 6
    let blanks := (afterStatic.takeWhile isSpace).length
    let get := afterStatic.drop blanks
    if 0 < blanks && "get".toList.isPrefixOf get then
      let lines := ((get.drop 3).takeWhile isSpace).reverse.dropWhile (· != '\n')
      if lines.isEmpty then 0 else 9 + blanks + lines.length
    else 0
  else 0

end TemplateValues.Syntax.Lexeme
