import TemplateValues.Oracle.Basic

/-!
# Scripted oracles

An oracle whose replies are listed beforehand.  Each kind of question takes its replies one by one,
and the last reply stays.  It keeps a log of all questions, and can raise a flag that asks for the
work to be stopped once the log has a given length.
-/

namespace TemplateValues

open Template (Position)

inductive Query where
  | hover
  | typeDefinition
  | definition
deriving DecidableEq, Repr, Inhabited

structure Script where
  hover : List (Reply (Option String)) := []
  typeDefinition : List (Reply (List Location)) := []
  definition : List (Reply (List Location)) := []
  /-- The number of questions at which the flag is raised. -/
  cancelAt : Option Nat := none

structure LogEntry where
  query : Query
  path : Path
  position : Position
deriving DecidableEq, Repr, Inhabited

structure Session where
  /-- The questions asked, the last first. -/
  log : List LogEntry := []
  /-- The flag that asks for the work to be stopped. -/
  cancelled : Bool := false
deriving DecidableEq, Repr, Inhabited

namespace Session

def count (o : Session) (q : Query) : Nat := (o.log.filter fun e => e.query = q).length

end Session

namespace Script

variable (script : Script)

def reply {α : Type} (replies : List (Reply α)) (nothing : α) (i : Nat) : Reply α :=
  -- past the end, the last reply is repeated
  (replies[i]?.or replies.getLast?).getD (.value nothing)

def note (e : LogEntry) (o : Session) : Session :=
  let log := e :: o.log
  { log, cancelled := o.cancelled || script.cancelAt = some log.length }

def answer {α : Type} (q : Query) (replies : List (Reply α)) (nothing : α) (path : Path)
    (position : Position) (o : Session) : Reply α × Session :=
  (reply replies nothing (o.count q), script.note ⟨q, path, position⟩ o)

def oracle : Oracle Session where
  hover := script.answer .hover script.hover none
  typeDefinition := script.answer .typeDefinition script.typeDefinition []
  definition := script.answer .definition script.definition []

end Script

end TemplateValues
