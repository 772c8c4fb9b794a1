/-!
# Cancellation flags

A flag asks for work to be stopped.  Several handles may stand for one flag; raising it through one of
them raises it for all.
-/

namespace TemplateValues

structure Flags where
  /-- The flag that each handle stands for. -/
  handles : List Nat := []
  /-- The flags that are raised. -/
  raised : List Nat := []
deriving DecidableEq, Repr, Inhabited

namespace Flags

def fresh (f : Flags) : Flags := { f with handles := f.handles ++ [f.handles.length] }

/-- One more handle on the flag of the handle number `i`. -/
def copy (f : Flags) (i : Nat) : Flags := { f with handles := f.handles ++ (f.handles[i]?).toList }

def raise (f : Flags) (i : Nat) : Flags := { f with raised := (f.handles[i]?).toList ++ f.raised }

def states (f : Flags) : List Bool := f.handles.map f.raised.contains

end Flags

end TemplateValues
