import TemplateValues.Json.Reader

/-!
# Limits

How much is shown and how far names are followed.
-/

namespace TemplateValues

structure Limits where
  /-- The number of values one variable contributes. -/
  maxValuesPerVariable : Nat := 10
  /-- The number of combinations of one template site. -/
  maxCombinations : Nat := 20
  /-- The pause before an oracle that is not ready is asked again. -/
  oracleRetryDelay : Nat := 150
  /-- The pause before a file that could not be read is read again. -/
  fileRetryDelay : Nat := 50
  /-- The nesting of declarations looked into for one variable. -/
  maxResolutionDepth : Nat := 48
  /-- The number of re-exports followed to find an export. -/
  maxReexportHops : Nat := 8
deriving DecidableEq, Repr, Inhabited

namespace Limits

open Json.Reader in
def fields : List (FieldReader Limits) :=
  [⟨"max_values_per_variable", fun l => return { l with maxValuesPerVariable := ← word }⟩,
   ⟨"max_combinations", fun l => return { l with maxCombinations := ← word }⟩,
   ⟨"oracle_retry_delay_ms", fun l => return { l with oracleRetryDelay := ← word }⟩,
   ⟨"file_retry_delay_ms", fun l => return { l with fileRetryDelay := ← word }⟩,
   ⟨"max_resolution_depth", fun l => return { l with maxResolutionDepth := ← word }⟩,
   ⟨"max_reexport_hops", fun l => return { l with maxReexportHops := ← word }⟩]

/-- The settings that a text holds; missing fields keep their defaults. -/
def ofJson (text : String) : Except Json.Fault Limits := Json.read (Json.Reader.record fields {}) text

end Limits

end TemplateValues
