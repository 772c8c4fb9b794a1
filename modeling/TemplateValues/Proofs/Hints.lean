import Mathlib.Data.List.Basic
import Mathlib.Data.List.Induction
import TemplateValues.Template.Hint

/-!
# Sites gathered by anchor

Sites come in one after the other, and the sites of one anchor need not be next to each other.  What is
gathered by the end is the same as if each anchor had looked for its own sites (`gathered_eq`): the
anchors in the order in which they come up first, each with the texts of its sites in their order.
-/

namespace TemplateValues.Template

def textsAt (sites : List Resolution) (anchor : Position) : List String :=
  (sites.filter fun r => r.anchor = anchor).map Resolution.display

def Hint.before (h : Hint) : Option Hint → Hint
  | some later => ⟨h.anchor, h.text ++ siteSeparator ++ later.text⟩
  | none => h

section Texts

variable {xs ys : List Resolution} {anchor : Position}

theorem textsAt_append : textsAt (xs ++ ys) anchor = textsAt xs anchor ++ textsAt ys anchor := by
  simp [textsAt]

theorem textsAt_singleton (r : Resolution) :
    textsAt [r] anchor = if r.anchor = anchor then [r.display] else [] := by
  by_cases same : r.anchor = anchor <;> simp [textsAt, same]

theorem textsAt_eq_nil_iff : textsAt xs anchor = [] ↔ anchor ∉ xs.map Resolution.anchor := by
  simp [textsAt]

theorem intercalate_append {separator : String} {left right : List String} (some' : left ≠ [])
    (more : right ≠ []) :
    separator.intercalate (left ++ right) =
      separator.intercalate left ++ separator ++ separator.intercalate right := by
  induction left with
  | nil => exact absurd rfl some'
  | cons text left ih =>
    cases left with
    | nil =>
      rw [List.singleton_append, String.intercalate_cons_of_ne_nil more, String.intercalate_singleton]
    | cons next left =>
      rw [List.cons_append, String.intercalate_cons_of_ne_nil (by simp), ih (List.cons_ne_nil _ _),
        String.intercalate_cons_of_ne_nil (List.cons_ne_nil _ _)]
      simp only [String.append_assoc]

end Texts

/-! ## One more site -/

section Gather

variable {r : Resolution} {anchors : List Position} {texts : Position → List String}

/-- A site with a new anchor comes last. -/
theorem gather_of_not_mem (new : r.anchor ∉ anchors) :
    gather r (anchors.map fun a => (a, texts a)) =
      anchors.map (fun a => (a, texts a)) ++ [(r.anchor, [r.display])] := by
  induction anchors with
  | nil => rfl
  | cons a anchors ih =>
    rw [List.mem_cons, not_or] at new
    rw [List.map_cons, gather, if_neg (Ne.symm new.1), ih new.2, List.cons_append]

/-- A site with a known anchor adds its text there, and nowhere else. -/
theorem gather_of_mem (distinct : anchors.Nodup) (known : r.anchor ∈ anchors) :
    gather r (anchors.map fun a => (a, texts a)) =
      anchors.map fun a => (a, if a = r.anchor then texts a ++ [r.display] else texts a) := by
  induction anchors with
  | nil => cases known
  | cons a anchors ih =>
    obtain ⟨absent, distinct⟩ := List.nodup_cons.mp distinct
    rw [List.map_cons, gather]
    by_cases same : a = r.anchor
    · have rest : ∀ b ∈ anchors, (b, texts b) =
          (b, if b = r.anchor then texts b ++ [r.display] else texts b) := by
        intro b member
        have other : b ≠ r.anchor := by
          rintro rfl
          exact absent (same ▸ member)
        rw [if_neg other]
      rw [if_pos same, List.map_cons, if_pos same, List.map_congr_left rest]
    · have member := (List.mem_cons.mp known).resolve_left (Ne.symm same)
      rw [if_neg same, List.map_cons, if_neg same, ih distinct member]

end Gather

/-! ## Anchors -/

def anchors (sites : List Resolution) : List Position := (gathered sites).map Prod.fst

section Anchors

variable {xs ys : List Resolution} {r : Resolution}

theorem gathered_concat : gathered (xs ++ [r]) = gather r (gathered xs) := by
  rw [gathered, List.foldl_append]
  rfl

theorem anchors_gather (groups : List (Position × List String)) :
    (gather r groups).map Prod.fst =
      if r.anchor ∈ groups.map Prod.fst then groups.map Prod.fst
      else groups.map Prod.fst ++ [r.anchor] := by
  induction groups with
  | nil => rfl
  | cons group groups ih =>
    obtain ⟨anchor, texts⟩ := group
    rw [gather]
    by_cases same : anchor = r.anchor
    · simp [same]
    · rw [if_neg same, List.map_cons, List.map_cons, ih]
      by_cases known : r.anchor ∈ groups.map Prod.fst
      · rw [if_pos known, if_pos (List.mem_cons_of_mem _ known)]
      · rw [if_neg known, if_neg (List.not_mem_cons_of_ne_of_not_mem (Ne.symm same) known),
          List.cons_append]

/-- One more site adds its anchor at the end, unless it was there. -/
theorem anchors_concat :
    anchors (xs ++ [r]) = if r.anchor ∈ anchors xs then anchors xs else anchors xs ++ [r.anchor] := by
  rw [anchors, gathered_concat, anchors_gather, anchors]

theorem mem_anchors {a : Position} : a ∈ anchors xs ↔ a ∈ xs.map Resolution.anchor := by
  induction xs using List.reverseRecOn with
  | nil => rfl
  | append_singleton xs r ih =>
    rw [anchors_concat, List.map_append, List.mem_append, ← ih, List.map_singleton, List.mem_singleton]
    split
    · rename_i known
      exact ⟨.inl, fun either => either.elim id fun same => same ▸ known⟩
    · rw [List.mem_append, List.mem_singleton]

/-- The anchors stand in the order in which they come up first. -/
theorem pairwise_anchors : (anchors xs).Pairwise fun a b =>
    (xs.map Resolution.anchor).idxOf a < (xs.map Resolution.anchor).idxOf b := by
  induction xs using List.reverseRecOn with
  | nil => exact .nil
  | append_singleton xs r ih =>
    -- the anchors of the sites so far come up where they did
    have first : ∀ a ∈ anchors xs, ((xs ++ [r]).map Resolution.anchor).idxOf a =
        (xs.map Resolution.anchor).idxOf a := by
      intro a known
      rw [List.map_append, List.idxOf_append_of_mem (mem_anchors.mp known)]
    have before : (anchors xs).Pairwise fun a b =>
        ((xs ++ [r]).map Resolution.anchor).idxOf a < ((xs ++ [r]).map Resolution.anchor).idxOf b := by
      refine ih.imp_of_mem fun {a b} known known' order => ?_
      rwa [first a known, first b known']
    rw [anchors_concat]
    split
    · exact before
    · rename_i new
      refine List.pairwise_append.mpr ⟨before, List.pairwise_singleton _ _, fun a known b last => ?_⟩
      obtain rfl := List.mem_singleton.mp last
      rw [first a known, List.map_append, List.idxOf_append_of_notMem (mem_anchors.not.mp new)]
      exact Nat.lt_of_lt_of_le (List.idxOf_lt_length_of_mem (mem_anchors.mp known))
        (Nat.le_add_right _ _)

theorem nodup_anchors : (anchors xs).Nodup :=
  pairwise_anchors.imp fun order same => absurd (same ▸ order) (Nat.lt_irrefl _)

/-- Of the anchors of further sites, those that are new come behind. -/
theorem anchors_append :
    anchors (xs ++ ys) = anchors xs ++ (anchors ys).filter fun a => a ∉ anchors xs := by
  induction ys using List.reverseRecOn with
  | nil => simp [anchors, gathered]
  | append_singleton ys r ih =>
    rw [← List.append_assoc, anchors_concat, anchors_concat, ih]
    by_cases known : r.anchor ∈ anchors xs <;> by_cases known' : r.anchor ∈ anchors ys <;>
      simp [known, known']

/-- **What is gathered is what each anchor would find.** -/
theorem gathered_eq : gathered xs = (anchors xs).map fun a => (a, textsAt xs a) := by
  induction xs using List.reverseRecOn with
  | nil => rfl
  | append_singleton xs r ih =>
    rw [gathered_concat, ih, anchors_concat]
    split
    · rename_i known
      rw [gather_of_mem nodup_anchors known]
      refine List.map_congr_left fun a _ => ?_
      rw [textsAt_append, textsAt_singleton]
      by_cases same : a = r.anchor
      · rw [if_pos same, if_pos same.symm]
      · rw [if_neg same, if_neg (Ne.symm same), List.append_nil]
    · rename_i new
      have kept : ∀ a ∈ anchors xs, (a, textsAt xs a) = (a, textsAt (xs ++ [r]) a) := by
        intro a known
        have other : ¬ r.anchor = a := fun same => new (same ▸ known)
        rw [textsAt_append, textsAt_singleton, if_neg other, List.append_nil]
      have nothing : textsAt xs r.anchor = [] := textsAt_eq_nil_iff.mpr (mem_anchors.not.mp new)
      rw [gather_of_not_mem new, List.map_congr_left kept, List.map_append, List.map_singleton,
        textsAt_append, textsAt_singleton, if_pos rfl, nothing, List.nil_append]

end Anchors

/-! ## Hints -/

section Hints

variable {xs ys : List Resolution}

theorem hints_eq (xs : List Resolution) : hints xs =
    (anchors xs).map fun a => ⟨a, siteSeparator.intercalate (textsAt xs a)⟩ := by
  rw [hints, gathered_eq, List.map_map]
  rfl

theorem map_anchor_hints : (hints xs).map Hint.anchor = anchors xs := by
  rw [hints_eq, List.map_map]
  exact List.map_id _

/-- The hint for an anchor is found by it. -/
theorem find?_hints (a : Position) : (hints xs).find? (fun h => h.anchor = a) =
    if a ∈ anchors xs then some ⟨a, siteSeparator.intercalate (textsAt xs a)⟩ else none := by
  have keyed : ((fun h : Hint => decide (h.anchor = a)) ∘ fun b =>
      (⟨b, siteSeparator.intercalate (textsAt xs b)⟩ : Hint)) = fun b => decide (b = a) := rfl
  rw [hints_eq, List.find?_map, keyed]
  cases found : (anchors xs).find? fun b => decide (b = a) with
  | some b =>
    have same : b = a := by simpa using List.find?_some found
    subst same
    rw [if_pos (List.mem_of_find?_eq_some found)]
    rfl
  | none =>
    have absent : a ∉ anchors xs := fun known => by simpa using List.find?_eq_none.mp found a known
    rw [if_neg absent]
    rfl

/-- The hint for an anchor of the first sites, with that of further sites behind it. -/
theorem before_hint {a : Position} (known : a ∈ anchors xs) :
    Hint.before ⟨a, siteSeparator.intercalate (textsAt xs a)⟩ ((hints ys).find? fun h => h.anchor = a) =
      ⟨a, siteSeparator.intercalate (textsAt (xs ++ ys) a)⟩ := by
  have first : textsAt xs a ≠ [] := fun nothing =>
    textsAt_eq_nil_iff.mp nothing (mem_anchors.mp known)
  rw [find?_hints, textsAt_append]
  split
  · rename_i known'
    have second : textsAt ys a ≠ [] := fun nothing =>
      textsAt_eq_nil_iff.mp nothing (mem_anchors.mp known')
    rw [Hint.before, intercalate_append first second]
  · rename_i new
    rw [Hint.before, textsAt_eq_nil_iff.mpr (mem_anchors.not.mp new), List.append_nil]

theorem hints_append : hints (xs ++ ys) =
    (hints xs).map (fun h => h.before ((hints ys).find? fun later => later.anchor = h.anchor)) ++
      (hints ys).filter fun h => h.anchor ∉ (hints xs).map Hint.anchor := by
  have shared : ∀ a ∈ anchors xs, (⟨a, siteSeparator.intercalate (textsAt (xs ++ ys) a)⟩ : Hint) =
      Hint.before ⟨a, siteSeparator.intercalate (textsAt xs a)⟩
        ((hints ys).find? fun later => later.anchor = a) := fun a known => (before_hint known).symm
  have new : ∀ a ∈ (anchors ys).filter (fun a => a ∉ anchors xs),
      (⟨a, siteSeparator.intercalate (textsAt (xs ++ ys) a)⟩ : Hint) =
        ⟨a, siteSeparator.intercalate (textsAt ys a)⟩ := by
    intro a member
    have absent : a ∉ anchors xs := by simpa using (List.mem_filter.mp member).2
    rw [textsAt_append, textsAt_eq_nil_iff.mpr (mem_anchors.not.mp absent), List.nil_append]
  rw [hints_eq, anchors_append, List.map_append, List.map_congr_left shared, List.map_congr_left new,
    map_anchor_hints, hints_eq xs, List.map_map, hints_eq ys, List.filter_map]
  rfl

end Hints

/-! ## The main statement -/

/-- **Hints gather sites without loss.**  There is a hint for an anchor just if a site has it, only one,
and hints stand in the order in which their anchors come up first.  The text of a hint is made of the texts
of all sites with its anchor, in their order.  If further sites come in, the hints for their anchors are
put behind those that are there, and where an anchor has both, behind its text. -/
theorem hints_gather_sites (xs ys : List Resolution) :
    (∀ a, (∃ h ∈ hints xs, h.anchor = a) ↔ ∃ r ∈ xs, r.anchor = a) ∧
    ((hints xs).Pairwise fun h h' =>
      (xs.map Resolution.anchor).idxOf h.anchor < (xs.map Resolution.anchor).idxOf h'.anchor) ∧
    (∀ h ∈ hints xs, h.text = siteSeparator.intercalate
      ((xs.filter fun r => r.anchor = h.anchor).map Resolution.display)) ∧
    hints (xs ++ ys) =
      (hints xs).map (fun h => h.before ((hints ys).find? fun later => later.anchor = h.anchor)) ++
        (hints ys).filter fun h => h.anchor ∉ (hints xs).map Hint.anchor := by
  refine ⟨fun a => ?_, ?_, fun h member => ?_, hints_append⟩
  · have same : a ∈ anchors xs ↔ a ∈ xs.map Resolution.anchor := mem_anchors
    rwa [← map_anchor_hints, List.mem_map, List.mem_map] at same
  · have ordered := @pairwise_anchors xs
    rwa [← map_anchor_hints, List.pairwise_map] at ordered
  · rw [hints_eq] at member
    obtain ⟨a, -, rfl⟩ := List.mem_map.mp member
    rfl

end TemplateValues.Template
