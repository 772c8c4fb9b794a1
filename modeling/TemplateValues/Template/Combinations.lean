import TemplateValues.LiteralSet
import TemplateValues.Template.Site

/-!
# Combinations

What a template string can become: every choice of one value for each variable whose values are
known, the leftmost variable varying slowest.  The number of values per variable and the number of
combinations are bounded, and a flag says whether a bound cut something off.
-/

namespace TemplateValues.Template

structure Combinations where
  values : List String
  /-- Values or combinations were left out. -/
  truncated : Bool
deriving DecidableEq, Repr, Inhabited

abbrev Known := List (String × LiteralSet)

def Known.values? (known : Known) (expression : String) : Option LiteralSet :=
  (known.lookup expression).filter fun s => !s.isEmpty

/-- The variables with known values in `kept`, and after them those of `parts`, each once. -/
def branchingFrom (known : Known) (kept : List (String × LiteralSet)) :
    List Part → List (String × LiteralSet)
  | [] => kept
  | .static _ :: parts => branchingFrom known kept parts
  | .hole e _ :: parts =>
    if kept.any fun x => x.1 = e then branchingFrom known kept parts
    else
      match known.values? e with
      | some values => branchingFrom known (kept ++ [(e, values)]) parts
      | none => branchingFrom known kept parts

def branching (parts : List Part) (known : Known) : List (String × LiteralSet) :=
  branchingFrom known [] parts

/-- The text of a template under a choice of values; other variables stand in braces. -/
def render (parts : List Part) (chosen : List (String × String)) : String :=
  String.join (parts.map fun
    | .static text => text
    | .hole e _ => (chosen.lookup e).getD ("\x7b" ++ e ++ "\x7d"))

/-- The results of `leaf` on the choices from `branches`, leftmost slowest, and whether there was no
`room` for all of them. -/
def expand (leaf : List (String × String) → String) :
    List (String × List String) → List (String × String) → (room : Nat) → List String × Bool
  | [], chosen, room => if room = 0 then ([], true) else ([leaf chosen], false)
  | (name, values) :: branches, chosen, room =>
    values.foldl (fun (out, full) value =>
      if full then (out, full)
      else
        let (more, full) := expand leaf branches (chosen ++ [(name, value)]) (room - out.length)
        (out ++ more, full)) ([], false)

/-- What a template can become with at most `maxValues` values per variable, but at least one, and
at most `maxCombinations` texts. -/
def combinations (parts : List Part) (known : Known) (maxValues maxCombinations : Nat) :
    Combinations :=
  -- with no values of a variable there would be no text at all
  let kept := max maxValues 1
  let branches := branching parts known
  let (values, full) := expand (render parts)
    (branches.map fun (e, s) => (e, s.values.take kept)) [] maxCombinations
  ⟨values, full || branches.any fun (_, s) => kept < s.size⟩

end TemplateValues.Template
