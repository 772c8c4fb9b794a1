import TemplateValues.LiteralSet

/-!
# What a literal set lists

A literal set lists the values that were offered to it, each once and in the order in which they were
offered first (`values_insertAll`).
-/

namespace TemplateValues.LiteralSet

theorem values_insert (s : LiteralSet) (value : String) :
    (s.insert value).values = if value ∈ s.values then s.values else s.values ++ [value] := by
  by_cases known : value ∈ s.values <;> simp [insert, contains, known]

/-- The values of a set come first, then those offered to it that it does not have, each once. -/
theorem values_insertAll (s : LiteralSet) (values : List String) :
    (s.insertAll values).values = s.values ++ (values.filter (· ∉ s.values)).eraseDups := by
  induction values generalizing s with
  | nil => simp [insertAll]
  | cons value values ih =>
    have step : s.insertAll (value :: values) = (s.insert value).insertAll values := rfl
    rw [step, ih, values_insert]
    by_cases known : value ∈ s.values
    · simp [known]
    · have rest : (values.filter (· ∉ s.values ++ [value])) =
          (values.filter (· ∉ s.values)).filter fun v => !v == value := by
        rw [List.filter_filter]
        refine List.filter_congr fun v _ => ?_
        by_cases same : v = value <;> simp [same]
      rw [if_neg known, rest, List.filter_cons_of_pos (by simpa using known), List.eraseDups_cons,
        List.append_assoc, List.singleton_append]

theorem values_ofList (values : List String) : (ofList values).values = values.eraseDups := by
  have all : values.filter (· ∉ empty.values) = values :=
    List.filter_eq_self.mpr fun v _ => by simp [empty]
  rw [ofList, values_insertAll, all]
  rfl

theorem mem_values_ofList {values : List String} {value : String} :
    value ∈ (ofList values).values ↔ value ∈ values := by
  rw [values_ofList, List.mem_eraseDups]

/-- Values that are pairwise different are all listed. -/
theorem values_ofList_of_nodup {values : List String} (distinct : values.Nodup) :
    (ofList values).values = values := by
  rw [values_ofList]
  induction values with
  | nil => rfl
  | cons value values ih =>
    obtain ⟨absent, distinct⟩ := List.nodup_cons.mp distinct
    have rest : values.filter (fun v => !v == value) = values := by
      refine List.filter_eq_self.mpr fun v member => ?_
      have different : v ≠ value := fun same => absent (same ▸ member)
      simpa using different
    rw [List.eraseDups_cons, rest, ih distinct]

end TemplateValues.LiteralSet
