import Mathlib.Data.List.Basic
import Mathlib.Data.List.Induction
import Mathlib.Logic.Function.Basic
import TemplateValues.Proofs.LiteralSets

/-!
# Literal sets under any use

All values that are ever found are put together from literal sets: values are offered to a set one by one,
the values of one set are offered to another, and sets are made anew from one value or from many.  Whatever
the order of these steps, a set lists what was offered to it since it was last made anew, each value where
it was offered first (`InFirstOrder`).

The history of a set is what was offered to it, with all repetitions.  One step changes the list of a set as
it changes the history (`Step.Follows.perform`), and so do all (`Step.follows_run`).
-/

namespace TemplateValues.LiteralSet

/-! ## Order of first offers -/

/-- The values that were offered, each once, in the order in which they were offered first. -/
structure InFirstOrder (offered listed : List String) : Prop where
  mem : ∀ value, value ∈ listed ↔ value ∈ offered
  nodup : listed.Nodup
  order : listed.Pairwise fun v w => offered.idxOf v < offered.idxOf w

/-- One more offer is listed at the end, unless it was made before. -/
theorem eraseDups_concat (offered : List String) (value : String) :
    (offered ++ [value]).eraseDups =
      if value ∈ offered then offered.eraseDups else offered.eraseDups ++ [value] := by
  rw [List.eraseDups_append]
  by_cases known : value ∈ offered <;> simp [List.removeAll, known, List.eraseDups_cons]

theorem pairwise_eraseDups (offered : List String) :
    offered.eraseDups.Pairwise fun v w => offered.idxOf v < offered.idxOf w := by
  induction offered using List.reverseRecOn with
  | nil => exact .nil
  | append_singleton offered value ih =>
    -- what comes later does not move the first offers before it
    have kept : offered.eraseDups.Pairwise fun v w =>
        (offered ++ [value]).idxOf v < (offered ++ [value]).idxOf w := by
      refine ih.imp_of_mem fun {v w} first second before => ?_
      rwa [List.idxOf_append_of_mem (List.mem_eraseDups.mp first),
        List.idxOf_append_of_mem (List.mem_eraseDups.mp second)]
    rw [eraseDups_concat]
    split
    · exact kept
    · rename_i new
      refine List.pairwise_append.mpr ⟨kept, List.pairwise_singleton _ _, fun v member w last => ?_⟩
      cases List.mem_singleton.mp last
      have known : v ∈ offered := List.mem_eraseDups.mp member
      rw [List.idxOf_append_of_mem known, List.idxOf_append_of_notMem new]
      exact Nat.lt_add_right _ (List.idxOf_lt_length_of_mem known)

theorem inFirstOrder_eraseDups (offered : List String) : InFirstOrder offered offered.eraseDups where
  mem _ := List.mem_eraseDups
  nodup := (pairwise_eraseDups offered).imp fun before same => by
    rw [same] at before
    exact Nat.lt_irrefl _ before
  order := pairwise_eraseDups offered

theorem eraseDups_eq_nil_iff {offered : List String} : offered.eraseDups = [] ↔ offered = [] := by
  cases offered with
  | nil => rfl
  | cons value offered => simp [List.eraseDups_cons]

/-! ## Steps -/

inductive Step (ι : Type) where
  /-- Offers a value to a set. -/
  | insert (i : ι) (value : String)
  /-- Offers the values of another set, or of the set itself. -/
  | extend (i other : ι)
  /-- Makes the set anew from one value. -/
  | singleton (i : ι) (value : String)
  /-- Makes the set anew from values. -/
  | collect (i : ι) (values : List String)
  /-- Takes all values out of the set. -/
  | drain (i : ι)

namespace Step

variable {ι : Type} [DecidableEq ι]

def perform (sets : ι → LiteralSet) : Step ι → ι → LiteralSet
  | .insert i value => Function.update sets i ((sets i).offer value).2
  | .extend i other => Function.update sets i ((sets i).union (sets other))
  | .singleton i value => Function.update sets i (.singleton value)
  | .collect i values => Function.update sets i (.ofList values)
  | .drain i => Function.update sets i .empty

/-- What was offered to each set since it was last made anew, after a step. -/
def record (offered : ι → List String) : Step ι → ι → List String
  | .insert i value => Function.update offered i (offered i ++ [value])
  | .extend i other => Function.update offered i (offered i ++ (offered other).eraseDups)
  | .singleton i value => Function.update offered i [value]
  | .collect i values => Function.update offered i values
  | .drain i => Function.update offered i []

def run (steps : List (Step ι)) : ι → LiteralSet := steps.foldl perform fun _ => .empty

def history (steps : List (Step ι)) : ι → List String := steps.foldl record fun _ => []

def Follows (sets : ι → LiteralSet) (offered : ι → List String) : Prop :=
  ∀ i, (sets i).values = (offered i).eraseDups

end Step

/-- A set that lists what was offered goes on to list what is offered further. -/
theorem values_insertAll_of_offered {s : LiteralSet} {offered : List String}
    (lists : s.values = offered.eraseDups) (further : List String) :
    (s.insertAll further).values = (offered ++ further).eraseDups := by
  have same : further.filter (· ∉ s.values) = further.removeAll offered := by
    refine List.filter_congr fun value _ => ?_
    simp [lists, List.mem_eraseDups]
  rw [values_insertAll, same, List.eraseDups_append, lists]

namespace Step

variable {ι : Type} [DecidableEq ι] {sets : ι → LiteralSet} {offered : ι → List String}

theorem Follows.update (follows : Follows sets offered) {i : ι} {s : LiteralSet} {values : List String}
    (lists : s.values = values.eraseDups) :
    Follows (Function.update sets i s) (Function.update offered i values) := by
  intro j
  by_cases here : j = i
  · subst here
    rwa [Function.update_self, Function.update_self]
  · rw [Function.update_of_ne here, Function.update_of_ne here]
    exact follows j

theorem Follows.perform (follows : Follows sets offered) (step : Step ι) :
    Follows (step.perform sets) (step.record offered) := by
  cases step with
  | insert i value => exact follows.update (values_insertAll_of_offered (follows i) [value])
  | extend i other =>
    refine follows.update ?_
    rw [union, follows other]
    exact values_insertAll_of_offered (follows i) _
  | singleton i value => exact follows.update rfl
  | collect i values => exact follows.update (values_ofList values)
  | drain i => exact follows.update rfl

theorem follows_run (steps : List (Step ι)) : Follows (run steps) (history steps) := by
  unfold run history
  induction steps using List.reverseRecOn with
  | nil => exact fun _ => rfl
  | append_singleton steps step ih =>
    rw [List.foldl_append, List.foldl_append]
    exact ih.perform step

end Step

/-- **Literal sets list what was offered to them.**  After any steps with any number of sets, a set lists the
values that were offered to it since it was last made anew or emptied, in the order of their first offers and
without repetition.  A further offer is new exactly if the value was not among them.  The size of the set is
the length of its list; it contains the values that were offered, and it is empty if there were none.  Two
sets are equal exactly if they list the same values in the same order. -/
theorem sets_list_offers {ι : Type} [DecidableEq ι] (steps : List (Step ι)) :
    let sets := Step.run steps
    let offered := Step.history steps
    (∀ i, (sets i).values = (offered i).eraseDups ∧ InFirstOrder (offered i) (sets i).values) ∧
    (∀ i value, ((sets i).offer value).1 = true ↔ value ∉ offered i) ∧
    (∀ i, (sets i).size = (offered i).eraseDups.length) ∧
    (∀ i value, (sets i).contains value = true ↔ value ∈ offered i) ∧
    (∀ i, (sets i).isEmpty = true ↔ offered i = []) ∧
    ∀ i j, (sets i == sets j) = true ↔ (sets i).values = (sets j).values := by
  intro sets offered
  have lists : Step.Follows sets offered := Step.follows_run steps
  have contains : ∀ i value, (sets i).contains value = true ↔ value ∈ offered i := by
    intro i value
    rw [LiteralSet.contains, lists i, List.contains_iff_mem, List.mem_eraseDups]
  refine ⟨fun i => ⟨lists i, lists i ▸ inFirstOrder_eraseDups (offered i)⟩, ?_, ?_, contains, ?_, ?_⟩
  · intro i value
    rw [offer, ← contains i value, Bool.not_eq_true, Bool.not_eq_true']
  · exact fun i => congrArg List.length (lists i)
  · intro i
    rw [isEmpty, lists i, List.isEmpty_iff, eraseDups_eq_nil_iff]
  · intro i j
    rw [beq_iff_eq]
    exact ⟨congrArg LiteralSet.values, eq_of_values⟩

/-- A set that takes in another keeps its own order, and the same values in another order are another set. -/
example :
    let steps : List (Step Nat) := [.collect 0 ["b", "a", "b"], .insert 1 "a", .extend 1 0, .insert 1 "b"]
    (Step.run steps 0).values = ["b", "a"] ∧ (Step.run steps 1).values = ["a", "b"] ∧
      Step.run steps 0 ≠ Step.run steps 1 := by decide

end TemplateValues.LiteralSet
