import TemplateValues.Text.Blank
import TemplateValues.Text.Word

/-!
# Types read off a value

Three ways to write a type that says what is in a value `X`:

- `(typeof X)[keyof typeof X]`, with or without the parentheses: the values of `X`;
- `keyof typeof X`: the keys of `X`;
- `(typeof X)[number]`: the elements of `X`.

They are recognised by their text.
-/

namespace TemplateValues

/-- What a type says is in a value. -/
inductive Idiom where
  /-- The values of `x`, if `x` and `y` are the same name. -/
  | values (x y : String)
  | keys (x : String)
  | elements (x : String)
deriving DecidableEq, Repr, Inhabited

namespace Idiom

open Text

abbrev Reading := StateT (List Char) Option

def word (cs : String) : Reading Unit := fun input =>
  if cs.toList.isPrefixOf input then some ((), input.drop cs.length) else none

def maybe (c : Char) : Reading Unit := fun input =>
  some ((), if input.head? = some c then input.drop 1 else input)

def blanks : Reading Unit := fun input => some ((), input.dropWhile isBlank)

def gap : Reading Unit := fun input =>
  if input.head?.any isBlank then some ((), input.dropWhile isBlank) else none

def isWordPart (c : Char) : Bool := isWordChar c || c = '$'

/-- Reads a name that starts with an unaccented letter, an underscore or a dollar. -/
def name : Reading String := fun input =>
  match input with
  | c :: cs =>
    if c.isAlpha || c = '_' || c = '$' then
      some (String.ofList (c :: cs.takeWhile isWordPart), cs.dropWhile isWordPart)
    else none
  | [] => none

def finish : Reading Unit := fun input => if input.isEmpty then some ((), []) else none

/-- Reads `(typeof X)[keyof typeof X]`. -/
def readValues : Reading Idiom := do
  maybe '('; blanks; word "typeof"; gap
  let x ← name
  blanks; maybe ')'; blanks; word "["; blanks; word "keyof"; gap; word "typeof"; gap
  let y ← name
  blanks; word "]"; finish
  return .values x y

/-- Reads `keyof typeof X`. -/
def readKeys : Reading Idiom := do
  word "keyof"; gap; word "typeof"; gap
  let x ← name
  finish
  return .keys x

/-- Reads `(typeof X)[number]`. -/
def readElements : Reading Idiom := do
  word "("; blanks; word "typeof"; gap
  let x ← name
  blanks; word ")"; blanks; word "["; blanks; word "number"; blanks; word "]"; finish
  return .elements x

def ofText? (text : String) : Option Idiom :=
  let cs := trim text.toList
  [readValues, readKeys, readElements].findSome? fun r => (r.run cs).map Prod.fst

end Idiom

end TemplateValues
