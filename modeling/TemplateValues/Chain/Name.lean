import TemplateValues.Text.Alphabetic
import TemplateValues.Text.Numeric

/-!
# Names

What the segments of a member chain must look like.
-/

namespace TemplateValues.Chain

open TemplateValues.Text

def isNameStart (c : Char) : Bool := isAlphabetic c || c = '_' || c = '$'

def isNamePart (c : Char) : Bool := isAlphabetic c || isNumeric c || c = '_' || c = '$'

def isName (text : String) : Bool :=
  match text.toList with
  | c :: cs => isNameStart c && cs.all isNamePart
  | [] => false

end TemplateValues.Chain
