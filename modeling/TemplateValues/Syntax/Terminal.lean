import TemplateValues.Syntax.Kind

/-!
# Terminals

The symbols that a text is made of: fixed texts, which are keywords and punctuation marks, and
patterns, each of which stands for many texts.  Some patterns match no character at all: they stand
for places where something may be left out.
-/

namespace TemplateValues.Syntax

/-- The terminals that are not one fixed text. -/
inductive Pattern where
  | endOfText
  | name
  | privateName
  | number
  | hashBang
  | comment
  | htmlComment
  /-- Plain characters of a string in double or in single quotes. -/
  | doubleChars | singleChars
  /-- Plain characters of a quoted text inside of a markup element. -/
  | markupDoubleChars | markupSingleChars
  | escape
  /-- Plain characters of a template. -/
  | templateChars
  | regexChars
  /-- The slash that ends a regular expression. -/
  | regexEnd
  | regexFlags
  /-- A name with a hyphen in it. -/
  | markupName
  | markupText
  | characterReference
  /-- The words `static get` when their line ends after them. -/
  | staticGet
  /-- A place where a semicolon may be left out. -/
  | semicolonGap
  /-- A place where the body of a function may be left out. -/
  | signatureGap
  /-- A question mark that opens the second part of a conditional expression. -/
  | ternaryMark
deriving DecidableEq, Hashable, Repr, Inhabited

namespace Pattern

def all : List Pattern :=
  [endOfText, name, privateName, number, hashBang, comment, htmlComment, doubleChars, singleChars,
   markupDoubleChars, markupSingleChars, escape, templateChars, regexChars, regexEnd, regexFlags,
   markupName, markupText, characterReference, staticGet, semicolonGap, signatureGap, ternaryMark]

def index (p : Pattern) : Nat := p.ctorIdx

def kind? : Pattern → Option Kind
  | endOfText => none
  | name => some .identifier
  | privateName => some .privatePropertyIdentifier
  | number => some .number
  | hashBang => some .hashBangLine
  | comment => some .comment
  | htmlComment => some .htmlComment
  | doubleChars | singleChars | markupDoubleChars | markupSingleChars | templateChars =>
    some .stringFragment
  | escape => some .escapeSequence
  | regexChars => some .regexPattern
  | regexEnd => some (.token "/")
  | regexFlags => some .regexFlags
  | markupName => some .identifier
  | markupText => some .jsxText
  | characterReference => some .htmlCharacterReference
  | staticGet => some (.token "static get")
  | semicolonGap => none
  | signatureGap => none
  | ternaryMark => some (.token "?")

def isComment : Pattern → Bool
  | comment | htmlComment => true
  | _ => false

end Pattern

inductive Terminal where
  | pattern (p : Pattern)
  /-- A fixed text and the kind of leaf that it leaves. -/
  | fixed (kind : Kind) (text : String)
deriving DecidableEq, Hashable, Repr, Inhabited

def Terminal.kind? : Terminal → Option Kind
  | pattern p => p.kind?
  | fixed kind _ => some kind

end TemplateValues.Syntax
