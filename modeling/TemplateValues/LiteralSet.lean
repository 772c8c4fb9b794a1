/-!
# Literal sets

The strings a variable can hold, in the order in which they were found and without repetition.  The
empty set means that nothing is known.  The order is part of the value.
-/

namespace TemplateValues

/-- Strings in order of first appearance. -/
structure LiteralSet where
  values : List String
  nodup : values.Nodup
deriving DecidableEq, Repr

namespace LiteralSet

def empty : LiteralSet := ⟨[], .nil⟩

instance : EmptyCollection LiteralSet := ⟨empty⟩

instance : Inhabited LiteralSet := ⟨empty⟩

theorem eq_of_values {s t : LiteralSet} (same : s.values = t.values) : s = t := by
  cases s
  cases t
  cases same
  rfl

def contains (s : LiteralSet) (value : String) : Bool := s.values.contains value

def isEmpty (s : LiteralSet) : Bool := s.values.isEmpty

def size (s : LiteralSet) : Nat := s.values.length

theorem nodup_concat {s : LiteralSet} {value : String} (absent : ¬ s.contains value) :
    (s.values ++ [value]).Nodup := by
  have apart : ∀ v ∈ s.values, ∀ w ∈ [value], v ≠ w := by
    intro v member w last same
    rw [List.mem_singleton] at last
    exact absent (List.contains_iff_mem.mpr (last ▸ same ▸ member))
  exact List.nodup_append.mpr ⟨s.nodup, by simp, apart⟩

def insert (s : LiteralSet) (value : String) : LiteralSet :=
  if known : s.contains value then s else ⟨s.values ++ [value], nodup_concat known⟩

def offer (s : LiteralSet) (value : String) : Bool × LiteralSet := (!s.contains value, s.insert value)

def insertAll (s : LiteralSet) (values : List String) : LiteralSet := values.foldl insert s

def union (s t : LiteralSet) : LiteralSet := s.insertAll t.values

def singleton (value : String) : LiteralSet := ⟨[value], by simp⟩

def ofList (values : List String) : LiteralSet := empty.insertAll values

def ofOption : Option String → LiteralSet
  | some value => singleton value
  | none => empty

def orElse (s : LiteralSet) (other : LiteralSet) : LiteralSet := if s.isEmpty then other else s

end LiteralSet

end TemplateValues
