/-!
# Ranges of characters

Unicode properties are kept as lists of closed ranges of code points.
-/

namespace TemplateValues.Text

def inRanges (ranges : Array (Nat × Nat)) (c : Char) : Bool :=
  ranges.any fun (lo, hi) => lo ≤ c.toNat && c.toNat ≤ hi

end TemplateValues.Text
