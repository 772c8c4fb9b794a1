import TemplateValues.Path.Basic

/-!
# Paths without a file system

Normal forms, paths relative to a directory, and paths into it, all by text alone.
-/

namespace TemplateValues.Path

/-- One more step on a path in normal form, given as its names in reverse; a step up removes a step
if there is one, and stays only where a relative path has nothing to remove. -/
def walk (absolute : Bool) (steps : List String) : Component → List String
  | .root => steps
  | .here => steps
  | .up => match steps with
    | _ :: rest => rest
    | [] => if absolute then [] else [".."]
  | .name n => n :: steps

/-- The path without `.` and `..`, as far as that goes without looking at files. -/
def normalize (p : Path) : Path :=
  let steps := (p.components.foldl (walk p.isAbsolute) []).reverse
  unsplit (if p.isAbsolute then [""] else []) steps

/-- The pieces left after the steps of `steps`, which must come first. -/
def dropSteps : List Component → List String → Option (List String)
  | [], ps => some ps
  | c :: cs, p :: ps =>
    match component? p with
    | none => dropSteps (c :: cs) ps
    | some d => if c = d then dropSteps cs ps else none
  | _ :: _, [] => none

def trimBoth (ps : List String) : List String :=
  trimPieces (ps.dropWhile fun s => s = "" || s = ".")

/-- What is left of `p` after the steps of `base`, which must come first. -/
def strip? (base p : Path) : Option Path :=
  match base.components with
  | [] =>
    let (head, body) := p.split
    some (unsplit head (trimPieces body))
  | .root :: steps =>
    if p.isAbsolute then (dropSteps steps p.split.2).map fun ps => unsplit [] (trimBoth ps) else none
  | .here :: steps =>
    if p.split.1 = ["."] then (dropSteps steps p.split.2).map fun ps => unsplit [] (trimBoth ps)
    else none
  | steps =>
    if p.split.1 = [] then (dropSteps steps p.pieces).map fun ps => unsplit [] (trimBoth ps) else none

/-- The path that the non-empty parts of `relative` lead to from `base`. -/
def descend (base : Path) (relative : String) : Path :=
  ((ofText relative).pieces.filter (· ≠ "")).foldl (fun p piece => p.join ⟨[piece]⟩) base

end TemplateValues.Path
