/-!
# Dialects

The texts that are read differ in two ways: they may or may not have types, and they may or may not
have markup elements among their expressions.
-/

namespace TemplateValues.Syntax

/-- The kind of text being read: with types or without, with markup elements or without. -/
structure Dialect where
  types : Bool
  markup : Bool
deriving DecidableEq, Repr, Inhabited

end TemplateValues.Syntax
