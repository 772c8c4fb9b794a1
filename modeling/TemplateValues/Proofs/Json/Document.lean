import TemplateValues.Json.Reader

/-!
# JSON documents

What it means that a text is a JSON document and denotes a value, said without reading the text.

A document is a sequence of *tokens* with *gaps* before, between and behind them (`Spaced`).  Which
tokens a value is made of is a matter of grammar (`Reads`); how a token is written is a matter of
spelling (`Token.Spells`).  Two ways to write documents differ in two points only: strict documents
have nothing but blanks in their gaps, and no comma before a closing bracket; documents with comments
may have both.

Values keep all that a text says: the members of an object in order, repeated ones included, numbers by
their digits, and strings by their UTF-16 code units, since an escape writes one unit at a time.
-/

namespace TemplateValues.Json

/-! ## Values and their tokens -/

inductive Value where
  | null
  | bool (b : Bool)
  | number (n : Reader.Number)
  | string (units : List Nat)
  | array (elements : List Value)
  | object (members : List (List Nat × Value))

inductive Token where
  | openArray
  | closeArray
  | openObject
  | closeObject
  | comma
  | colon
  | null
  | bool (b : Bool)
  | number (n : Reader.Number)
  | string (units : List Nat)

def Token.closes : Token → Bool
  | .closeArray | .closeObject => true
  | _ => false

/-- The parts of a document that tokens are read as: values, and what stands between brackets. -/
inductive Phrase where
  | value (v : Value)
  | elements (vs : List Value)
  | members (ms : List (List Nat × Value))

inductive Ending (trailing : Bool) : List Token → Prop where
  | plain : Ending trailing []
  | comma : trailing = true → Ending trailing [.comma]

/-- The tokens are a phrase; `trailing` allows a comma before each closing bracket of an array or an
object that is not empty. -/
inductive Reads (trailing : Bool) : Phrase → List Token → Prop where
  | null : Reads trailing (.value .null) [.null]
  | bool {b} : Reads trailing (.value (.bool b)) [.bool b]
  | number {n} : Reads trailing (.value (.number n)) [.number n]
  | string {units} : Reads trailing (.value (.string units)) [.string units]
  | emptyArray : Reads trailing (.value (.array [])) [.openArray, .closeArray]
  | array {vs ts last} : Reads trailing (.elements vs) ts → Ending trailing last →
      Reads trailing (.value (.array vs)) (.openArray :: (ts ++ (last ++ [.closeArray])))
  | emptyObject : Reads trailing (.value (.object [])) [.openObject, .closeObject]
  | object {ms ts last} : Reads trailing (.members ms) ts → Ending trailing last →
      Reads trailing (.value (.object ms)) (.openObject :: (ts ++ (last ++ [.closeObject])))
  | lastElement {v ts} : Reads trailing (.value v) ts → Reads trailing (.elements [v]) ts
  | element {v vs ts us} : Reads trailing (.value v) ts → Reads trailing (.elements vs) us →
      Reads trailing (.elements (v :: vs)) (ts ++ .comma :: us)
  | lastMember {key v ts} : Reads trailing (.value v) ts →
      Reads trailing (.members [(key, v)]) (.string key :: .colon :: ts)
  | member {key v ms ts us} : Reads trailing (.value v) ts → Reads trailing (.members ms) us →
      Reads trailing (.members ((key, v) :: ms)) (.string key :: .colon :: (ts ++ .comma :: us))

/-! ## How tokens are written -/

/-- The UTF-16 code units of a character. -/
def unitsOf (c : Char) : List Nat :=
  if c.toNat < 0x10000 then [c.toNat]
  else [0xD800 + (c.toNat - 0x10000) / 0x400, 0xDC00 + (c.toNat - 0x10000) % 0x400]

/-- The characters between the quotes of a string, and the code units that they stand for. -/
inductive Quotes : List Nat → List Char → Prop where
  | nil : Quotes [] []
  | plain {c units cs} : c ≠ '"' → c ≠ '\\' → 0x20 ≤ c.toNat → Quotes units cs →
      Quotes (unitsOf c ++ units) (c :: cs)
  | escape {c d units cs} : Reader.escape? c = some d → Quotes units cs →
      Quotes (d.toNat :: units) ('\\' :: c :: cs)
  | unit {a b c d a' b' c' d' units cs} : Reader.hexDigit? a = some a' → Reader.hexDigit? b = some b' →
      Reader.hexDigit? c = some c' → Reader.hexDigit? d = some d' → Quotes units cs →
      Quotes ((((a' * 16 + b') * 16 + c') * 16 + d') :: units) ('\\' :: 'u' :: a :: b :: c :: d :: cs)

def IsDigits (ds : List Char) : Prop := ds ≠ [] ∧ ∀ d ∈ ds, d.isDigit

/-- The digits before the point: no zero at the front, unless it is the only one. -/
def IsWhole (ds : List Char) : Prop := IsDigits ds ∧ (ds.head? = some '0' → ds = ['0'])

inductive Fraction : Option (List Char) → List Char → Prop where
  | none : Fraction none []
  | some {ds} : IsDigits ds → Fraction (some ds) ('.' :: ds)

/-- How an exponent is written; the flag says that it is negative. -/
inductive Exponent : Option (Bool × List Char) → List Char → Prop where
  | none : Exponent none []
  | up {e ds} : e = 'e' ∨ e = 'E' → IsDigits ds → Exponent (some (false, ds)) (e :: ds)
  | plus {e ds} : e = 'e' ∨ e = 'E' → IsDigits ds → Exponent (some (false, ds)) (e :: '+' :: ds)
  | minus {e ds} : e = 'e' ∨ e = 'E' → IsDigits ds → Exponent (some (true, ds)) (e :: '-' :: ds)

structure Numeral (n : Reader.Number) (cs : List Char) : Prop where
  whole : IsWhole n.whole
  parts : ∃ fraction exponent, Fraction n.fraction fraction ∧ Exponent n.exponent exponent ∧
    cs = (if n.negative then ['-'] else []) ++ n.whole ++ fraction ++ exponent

inductive Token.Spells : Token → List Char → Prop where
  | openArray : Spells .openArray ['[']
  | closeArray : Spells .closeArray [']']
  | openObject : Spells .openObject ['{']
  | closeObject : Spells .closeObject ['}']
  | comma : Spells .comma [',']
  | colon : Spells .colon [':']
  | null : Spells .null ['n', 'u', 'l', 'l']
  | yes : Spells (.bool true) ['t', 'r', 'u', 'e']
  | no : Spells (.bool false) ['f', 'a', 'l', 's', 'e']
  | number {n cs} : Numeral n cs → Spells (.number n) cs
  | string {units cs} : Quotes units cs → Spells (.string units) ('"' :: (cs ++ ['"']))

/-! ## Gaps -/

def IsBlank (w : List Char) : Prop := ∀ c ∈ w, Reader.isSpace c

/-- Blanks and comments.  A comment is two slashes and the rest of the line, or what stands between a
slash with a star and the next star with a slash. -/
inductive Gap : List Char → Prop where
  | nil : Gap []
  | blank {c w} : Reader.isSpace c → Gap w → Gap (c :: w)
  | line {body w} : '\n' ∉ body → Gap w → Gap ('/' :: '/' :: (body ++ '\n' :: w))
  | block {body w} : ¬ ['*', '/'] <:+: body → Gap w → Gap ('/' :: '*' :: (body ++ '*' :: '/' :: w))

/-- What may stand behind the last token: the text may end within a line comment. -/
inductive LastGap : List Char → Prop where
  | gap {w} : Gap w → LastGap w
  | line {w body} : Gap w → '\n' ∉ body → LastGap (w ++ '/' :: '/' :: body)

/-- The text is made of the tokens, with gaps around them. -/
inductive Spaced (gap last : List Char → Prop) : List Token → List Char → Prop where
  | nil {w} : last w → Spaced gap last [] w
  | cons {w t cs ts text} : gap w → t.Spells cs → Spaced gap last ts text →
      Spaced gap last (t :: ts) (w ++ (cs ++ text))

/-! ## Documents -/

/-- The text is strict JSON and denotes the value. -/
def Denotes (text : String) (v : Value) : Prop :=
  ∃ ts, Reads false (.value v) ts ∧ Spaced IsBlank IsBlank ts text.toList

/-- The text spells the value in JSON with comments and trailing commas. -/
def DenotesWithComments (text : String) (v : Value) : Prop :=
  ∃ ts, Reads true (.value v) ts ∧ Spaced Gap LastGap ts text.toList

end TemplateValues.Json
