import TemplateValues.Text.Blank

/-!
# JSON with comments and trailing commas

Configuration files may hold comments and a comma after the last member.  Both are taken out by
reading the text once; strings are left alone.
-/

namespace TemplateValues.Json

open TemplateValues.Text

inductive Place where
  | outside
  | inString
  /-- In a string, right after a backslash. -/
  | escaped
  /-- After two slashes. -/
  | lineComment
  /-- Right after a slash, before the star that opens a comment. -/
  | opening
  /-- In a comment, with the character before. -/
  | blockComment (previous : Char)
deriving DecidableEq, Repr

def withoutComments : Place → List Char → List Char
  | _, [] => []
  | .inString, c :: cs =>
    c :: withoutComments (if c = '\\' then .escaped else if c = '"' then .outside else .inString) cs
  | .escaped, c :: cs => c :: withoutComments .inString cs
  | .lineComment, c :: cs =>
    if c = '\n' then c :: withoutComments .outside cs else withoutComments .lineComment cs
  | .opening, _ :: cs => withoutComments (.blockComment (Char.ofNat 0)) cs
  | .blockComment previous, c :: cs =>
    if previous = '*' && c = '/' then withoutComments .outside cs
    else withoutComments (.blockComment c) cs
  | .outside, c :: cs =>
    if c = '"' then c :: withoutComments .inString cs
    else if c = '/' && cs.head? = some '/' then withoutComments .lineComment cs
    else if c = '/' && cs.head? = some '*' then withoutComments .opening cs
    else c :: withoutComments .outside cs

/-- The text without its comments; the line breaks that end comments stay. -/
def stripComments (text : String) : String :=
  String.ofList (withoutComments .outside text.toList)

def closesNext (cs : List Char) : Bool :=
  match (trimFront cs).head? with
  | some c => c = '}' || c = ']'
  | none => false

def withoutCommas : Place → List Char → List Char
  | _, [] => []
  | .inString, c :: cs =>
    c :: withoutCommas (if c = '\\' then .escaped else if c = '"' then .outside else .inString) cs
  | .escaped, c :: cs => c :: withoutCommas .inString cs
  | _, c :: cs =>
    if c = '"' then c :: withoutCommas .inString cs
    else if c = ',' && closesNext cs then withoutCommas .outside cs
    else c :: withoutCommas .outside cs

def stripCommas (text : String) : String := String.ofList (withoutCommas .outside text.toList)

end TemplateValues.Json
