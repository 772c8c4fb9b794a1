/-!
# Input

A reader's place in a text: the characters still ahead and the offset of the first of them.
-/

namespace TemplateValues.Syntax

/-- The characters still ahead and the offset of the first of them. -/
structure Input where
  rest : List Char
  offset : Nat
  /-- The number of characters ahead, kept so that they need not be counted. -/
  left : Nat
deriving Repr, Inhabited

def Input.ofText (text : String) : Input := ⟨text.toList, 0, text.length⟩

def Input.drop : Nat → Input → Input
  | n + 1, ⟨c :: cs, i, left⟩ => Input.drop n ⟨cs, i + c.utf8Size, left - 1⟩
  | _, s => s

end TemplateValues.Syntax
