import TemplateValues.LiteralSet
import TemplateValues.Path.Basic

/-!
# Visits

A visit remembers which declarations are being looked into, so that none is looked into twice at a
time and never too many at once, and what was found out about those that are done.
-/

namespace TemplateValues

/-- A declaration as a visit knows it: where it is.  Paths count by their components. -/
structure Key where
  file : List Component
  start : Nat
  stop : Nat
deriving DecidableEq, Repr, Inhabited

/-- The declarations being looked into and those that are done. -/
structure Visit where
  /-- How many declarations may be held at once. -/
  limit : Nat
  /-- The declarations being looked into. -/
  held : List Key := []
  /-- How many there are. -/
  depth : Nat := 0
  /-- How often a declaration was refused. -/
  refusals : Nat := 0
  /-- What is known about the declarations that are done, the last first. -/
  finished : List (Key × LiteralSet) := []
deriving DecidableEq, Repr, Inhabited

namespace Visit

def start (limit : Nat) : Visit := { limit }

def fresh (v : Visit) : Visit := start v.limit

/-- Start to look into a declaration.  It is refused if it is held, or if no more may be held. -/
def enter (k : Key) (v : Visit) : Bool × Visit :=
  if v.limit ≤ v.depth then (false, { v with refusals := v.refusals + 1 })
  else if v.held.contains k then (false, { v with refusals := v.refusals + 1 })
  else (true, { v with held := k :: v.held, depth := v.depth + 1 })

def leave (k : Key) (v : Visit) : Visit :=
  if v.held.contains k then { v with held := v.held.erase k, depth := v.depth - 1 } else v

def finish (k : Key) (values : LiteralSet) (v : Visit) : Visit :=
  { v with finished := (k, values) :: v.finished }

def finished? (k : Key) (v : Visit) : Option LiteralSet := v.finished.lookup k

end Visit

end TemplateValues
