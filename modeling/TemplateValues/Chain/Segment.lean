import TemplateValues.Chain.Name
import TemplateValues.Text.Slice

/-!
# Segments of a chain

A member chain is written as names with dots between them.
-/

namespace TemplateValues.Chain

def segments (text : String) : List String := (Text.splitAt '.' text.toList).map String.ofList

def isDotted (text : String) : Bool := text.toList.contains '.'

def extend (text : String) (path : List String) : String := text ++ "." ++ ".".intercalate path

end TemplateValues.Chain
