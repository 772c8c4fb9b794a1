import TemplateValues.Proofs.LexicalPaths
import TemplateValues.Workspace

/-!
# Paths into a directory and back

`descend` goes down from a directory piece by piece, and `strip?` takes the steps of a directory off a
path and leaves the rest as written.  Each undoes the other, except for absolute paths under the empty
path: these have all its steps, since it has none, and nothing that is joined to it leads to them
(`relativeText_descend_iff`).

Both directions are read off one view of a path: what it starts from, and the pieces that lead on from
there (`components_eq`).
-/

namespace TemplateValues.Path

/-! ## What a path starts from -/

/-- The step that stands for the pieces before the steps proper. -/
def lead : List String → List Component
  | [""] => [.root]
  | ["."] => [.here]
  | _ => []

theorem components_eq (p : Path) : p.components = lead p.split.1 ++ p.split.2.filterMap component? := by
  unfold components split
  split <;> rfl

theorem isAbsolute_iff_split {p : Path} : p.isAbsolute = true ↔ p.split.1 = [""] := by
  unfold isAbsolute split
  split <;> grind

theorem split_cases (p : Path) : p.split.1 = [""] ∨ p.split.1 = ["."] ∨ p.split.1 = [] := by
  unfold split
  split <;> simp

theorem pieces_eq (p : Path) : p.pieces = p.split.1 ++ p.split.2 := by
  unfold split
  split <;> simp_all

theorem component?_eq_none_iff {piece : String} : component? piece = none ↔ piece = "" ∨ piece = "." := by
  unfold component?
  split <;> grind

theorem lead_disjoint {ps : List String} {c : Component} (step : c ∈ ps.filterMap component?) :
    c ≠ .root ∧ c ≠ .here := by
  obtain ⟨piece, -, isStep⟩ := List.mem_filterMap.mp step
  unfold component? at isStep
  grind

/-! ## Steps taken off -/

theorem dropSteps_eq_some {cs : List Component} {ps rest : List String}
    (dropped : dropSteps cs ps = some rest) :
    ∃ front, ps = front ++ rest ∧ front.filterMap component? = cs := by
  fun_induction dropSteps cs ps with
  | case1 ps =>
    obtain rfl := Option.some.inj dropped
    exact ⟨[], rfl, rfl⟩
  | case2 c cs p ps idle ih =>
    obtain ⟨front, rfl, steps⟩ := ih dropped
    exact ⟨p :: front, rfl, by rw [List.filterMap_cons_none idle, steps]⟩
  | case3 cs p ps d step ih =>
    obtain ⟨front, rfl, steps⟩ := ih dropped
    exact ⟨p :: front, rfl, by rw [List.filterMap_cons_some step, steps]⟩
  | case4 | case5 => cases dropped

/-- The steps of the pieces in front are taken off; pieces among them that mean nothing may be left. -/
theorem dropSteps_append (front rest : List String) :
    ∃ idle, (∀ s ∈ idle, component? s = none) ∧
      dropSteps (front.filterMap component?) (front ++ rest) = some (idle ++ rest) := by
  induction front with
  | nil => exact ⟨[], by simp, by simp [dropSteps]⟩
  | cons p front ih =>
    cases step : component? p with
    | some d =>
      obtain ⟨idle, isIdle, dropped⟩ := ih
      exact ⟨idle, isIdle, by simp [step, dropSteps, dropped]⟩
    | none =>
      rw [List.filterMap_cons_none step]
      cases steps : front.filterMap component? with
      | nil =>
        refine ⟨p :: front, ?_, by simp [dropSteps]⟩
        rw [List.forall_mem_cons]
        exact ⟨step, List.filterMap_eq_nil_iff.mp steps⟩
      | cons c cs =>
        obtain ⟨idle, isIdle, dropped⟩ := ih
        exact ⟨idle, isIdle, by rw [List.cons_append, dropSteps, step]; exact steps ▸ dropped⟩

theorem dropSteps_eq_none_iff {cs : List Component} {ps : List String} :
    dropSteps cs ps = none ↔ ¬ cs <+: ps.filterMap component? := by
  fun_induction dropSteps cs ps with
  | case1 => simp
  | case2 c cs p ps idle ih => rw [ih, List.filterMap_cons_none idle]
  | case3 cs p ps d step ih => rw [ih, List.filterMap_cons_some step, List.prefix_cons_inj]
  | case4 c cs p ps d step other => simp [step, other]
  | case5 => simp

/-- Taking off the steps of a path that has some: both must start from the same place. -/
theorem strip?_of_steps {base p : Path} (some : base.components ≠ []) :
    strip? base p = if base.split.1 = p.split.1 then
      (dropSteps (base.split.2.filterMap component?) p.split.2).map fun ps => unsplit [] (trimBoth ps)
      else none := by
  have steps := components_eq base
  rcases split_cases base with root | here | start
  · rw [root] at steps ⊢
    simp only [strip?, steps, lead, List.singleton_append, isAbsolute_iff_split, eq_comm (a := [""])]
  · rw [here] at steps ⊢
    simp only [strip?, steps, lead, List.singleton_append, eq_comm (a := ["."])]
  · rw [start] at steps ⊢
    have whole : p.split.1 = [] → p.pieces = p.split.2 := fun empty => by simp [pieces_eq p, empty]
    cases proper : base.split.2.filterMap component? with
    | nil => exact absurd (by rw [steps, proper]; rfl) some
    | cons c cs =>
      -- No step proper is a root or a dot at the start.
      have first : c ∈ base.split.2.filterMap component? := by simp [proper]
      obtain ⟨root, here⟩ := lead_disjoint first
      cases c with
      | root | here => contradiction
      | up | name =>
        simp only [strip?, steps, proper, lead, List.nil_append, eq_comm (a := [])]
        split
        · rw [whole ‹_›]
        · rfl

theorem split_eq_of_head? {p q : Path} (same : p.components.head? = q.components.head?) :
    p.split.1 = q.split.1 := by
  have proper : ∀ ps : List String, (ps.filterMap component?).head? ≠ some .root ∧
      (ps.filterMap component?).head? ≠ some .here := by
    intro ps
    constructor <;> intro first
    · exact (lead_disjoint (List.mem_of_mem_head? first)).1 rfl
    · exact (lead_disjoint (List.mem_of_mem_head? first)).2 rfl
  rw [components_eq p, components_eq q] at same
  rcases split_cases p with head | head | head <;> rcases split_cases q with head' | head' | head' <;>
    grind [lead]

theorem isPrefix_components_iff {base p : Path} (some : base.components ≠ []) :
    base.components <+: p.components ↔ base.split.1 = p.split.1 ∧
      base.split.2.filterMap component? <+: p.split.2.filterMap component? := by
  constructor
  · intro front
    have head : base.split.1 = p.split.1 := by
      obtain ⟨others, whole⟩ := front
      apply split_eq_of_head?
      rw [← whole, List.head?_append_of_ne_nil _ some]
    rw [components_eq base, components_eq p, head, List.prefix_append_right_inj] at front
    exact ⟨head, front⟩
  · rintro ⟨head, front⟩
    rwa [components_eq base, components_eq p, head, List.prefix_append_right_inj]

theorem strip?_eq_none_iff {base p : Path} :
    strip? base p = none ↔ ¬ base.components <+: p.components := by
  by_cases some : base.components = []
  · simp [strip?, some]
  · rw [strip?_of_steps some, isPrefix_components_iff some]
    split
    case isTrue head => simp [head, dropSteps_eq_none_iff]
    case isFalse head => simp [head]

/-! ## Going down -/

/-- Pieces without the empty one that a slash at the end of the text leaves. -/
def unslashed (ps : List String) : List String := if ps.getLast? = some "" then ps.dropLast else ps

theorem unslashed_cons {s : String} {ps : List String} (solid : s ≠ "" ∨ ps ≠ []) :
    unslashed (s :: ps) = s :: unslashed ps := by
  cases ps with
  | nil => simp_all [unslashed]
  | cons q ps => by_cases slash : (q :: ps).getLast? = some "" <;> simp_all [unslashed]

theorem filterMap_unslashed (ps : List String) :
    (unslashed ps).filterMap component? = ps.filterMap component? := by
  unfold unslashed
  split
  case isTrue slash =>
    conv_rhs => rw [← List.dropLast_append_getLast? "" slash, List.filterMap_append]
    simp [component?]
  case isFalse => rfl

/-- The path that some pieces lead to from another path, which is left as written. -/
def below (p : Path) (segments : List String) : Path :=
  if segments = [] then p else ⟨unslashed p.pieces ++ segments⟩

theorem join_piece (p : Path) (s : String) : p.join ⟨[s]⟩ = p.below [s] := by
  have relative : (Path.mk [s]).isAbsolute = false := by simp [isAbsolute]
  by_cases empty : p.pieces = [""] <;> by_cases slash : p.pieces.getLast? = some "" <;>
    simp_all [join, below, unslashed]

theorem below_below {p : Path} {s : String} (solid : s ≠ "") (segments : List String) :
    (p.below [s]).below segments = p.below (s :: segments) := by
  cases segments with
  | nil => rfl
  | cons t segments =>
    have whole : unslashed (unslashed p.pieces ++ [s]) = unslashed p.pieces ++ [s] := by
      simp [unslashed, solid]
    simp [below, whole]

theorem foldl_join {segments : List String} (solid : ∀ s ∈ segments, s ≠ "") (p : Path) :
    segments.foldl (fun p piece => p.join ⟨[piece]⟩) p = p.below segments := by
  induction segments generalizing p with
  | nil => rfl
  | cons s segments ih =>
    rw [List.forall_mem_cons] at solid
    rw [List.foldl_cons, ih solid.2, join_piece, below_below solid.1]

theorem split_of_solid {s : String} (solid : s ≠ "") (dot : s ≠ ".") (ps : List String) :
    (Path.mk (s :: ps)).split = ([], s :: ps) := by
  simp [split, solid, dot]

section Below

variable {p : Path} (written : p.Written) {segments : List String} (solid : ∀ s ∈ segments, s ≠ "")
  (dot : p.pieces = [""] → segments.head? ≠ some ".")
include written solid dot

/-- What leads on from a path stands behind the pieces that lead to it. -/
theorem split_below : ∃ front, (p.below segments).split = (p.split.1, front ++ segments) ∧
    front.filterMap component? = p.split.2.filterMap component? := by
  cases segments with
  | nil => exact ⟨p.split.2, by simp [below], rfl⟩
  | cons s segments =>
    have first : s ≠ "" := solid s List.mem_cons_self
    obtain ⟨pieces⟩ := p
    obtain ⟨q, ps, rfl⟩ := List.exists_cons_of_ne_nil written.1
    rw [below, if_neg (List.cons_ne_nil s segments)]
    by_cases slash : q = ""
    · subst slash
      cases ps with
      | nil => exact ⟨[], split_of_solid first (by simpa using dot rfl) segments, rfl⟩
      | cons r ps =>
        refine ⟨unslashed (r :: ps), ?_, filterMap_unslashed _⟩
        rw [unslashed_cons (.inr (List.cons_ne_nil r ps))]
        obtain ⟨t, ts, whole⟩ := List.exists_cons_of_ne_nil
          (List.append_ne_nil_of_right_ne_nil (unslashed (r :: ps)) (List.cons_ne_nil s segments))
        rw [List.cons_append, whole]
        rfl
    · rw [unslashed_cons (.inl slash)]
      by_cases isDot : q = "."
      · subst isDot
        exact ⟨unslashed ps, rfl, filterMap_unslashed ps⟩
      · refine ⟨q :: unslashed ps, ?_, ?_⟩
        · rw [split_of_solid slash isDot]
          exact split_of_solid slash isDot _
        · rw [split_of_solid slash isDot, ← unslashed_cons (.inl slash), filterMap_unslashed]

theorem components_below :
    (p.below segments).components = p.components ++ segments.filterMap component? := by
  obtain ⟨front, parts, steps⟩ := split_below written solid dot
  rw [components_eq, parts, components_eq p, List.filterMap_append, steps, List.append_assoc]

end Below

theorem descend_eq (p : Path) (relative : String) :
    p.descend relative = p.below ((ofText relative).pieces.filter (· ≠ "")) := by
  apply foldl_join
  simp

/-! ## Trimmed pieces -/

theorem idle_iff {s : String} : (s = "" || s = ".") = true ↔ component? s = none := by
  simp [component?_eq_none_iff]

theorem filterMap_dropWhile (ps : List String) :
    (ps.dropWhile fun s => s = "" || s = ".").filterMap component? = ps.filterMap component? := by
  induction ps with
  | nil => rfl
  | cons s ps ih =>
    rw [List.dropWhile_cons]
    split
    case isTrue idle => rw [ih, List.filterMap_cons_none (idle_iff.mp idle)]
    case isFalse => rfl

theorem filterMap_trimPieces (ps : List String) :
    (trimPieces ps).filterMap component? = ps.filterMap component? := by
  rw [trimPieces, List.filterMap_reverse, filterMap_dropWhile, List.filterMap_reverse,
    List.reverse_reverse]

theorem filterMap_trimBoth (ps : List String) :
    (trimBoth ps).filterMap component? = ps.filterMap component? := by
  rw [trimBoth, filterMap_trimPieces, filterMap_dropWhile]

theorem trimPieces_subset (ps : List String) : trimPieces ps ⊆ ps := by
  intro s member
  exact List.mem_reverse.mp ((List.dropWhile_sublist _).subset (List.mem_reverse.mp member))

section Solid

variable {segments : List String} (solid : ∀ s ∈ segments, component? s ≠ none)
include solid

theorem dropWhile_of_solid : (segments.dropWhile fun s => s = "" || s = ".") = segments := by
  cases segments with
  | nil => rfl
  | cons s segments =>
    apply List.dropWhile_cons_of_neg
    rw [idle_iff]
    exact solid s List.mem_cons_self

theorem trimPieces_of_solid : trimPieces segments = segments := by
  have back : ∀ s ∈ segments.reverse, component? s ≠ none :=
    fun s member => solid s (List.mem_reverse.mp member)
  rw [trimPieces, dropWhile_of_solid back, List.reverse_reverse]

theorem trimBoth_append {idle : List String} (isIdle : ∀ s ∈ idle, component? s = none) :
    trimBoth (idle ++ segments) = segments := by
  rw [trimBoth, List.dropWhile_append_of_pos fun s member => idle_iff.mpr (isIdle s member),
    dropWhile_of_solid solid, trimPieces_of_solid solid]

end Solid

/-! ## Down and back -/

/-- Only the empty path has no steps. -/
theorem eq_empty_of_components {p : Path} (written : p.Written) (none : p.components = []) :
    p = ⟨[""]⟩ := by
  obtain ⟨pieces⟩ := p
  obtain ⟨s, ps, rfl⟩ := List.exists_cons_of_ne_nil written.1
  by_cases slash : s = ""
  · subst slash
    cases ps with
    | nil => rfl
    | cons q ps => simp [components] at none
  by_cases dot : s = "."
  · simp [components, dot] at none
  · have step : component? s ≠ Option.none := by simp [component?_eq_none_iff, slash, dot]
    rw [components_eq, split_of_solid slash dot] at none
    exact absurd (List.filterMap_eq_nil_iff.mp none s List.mem_cons_self) step

/-- Below a path, its own steps come off again and leave the pieces as they were. -/
theorem strip?_below {base : Path} (written : base.Written) {segments : List String}
    (solid : ∀ s ∈ segments, component? s ≠ none) :
    strip? base (base.below segments) = some (unsplit [] segments) := by
  have noSlash : ∀ s ∈ segments, s ≠ "" := by
    rintro s member rfl
    exact solid _ member rfl
  have noDot : segments.head? ≠ some "." := fun dot => solid _ (List.mem_of_mem_head? dot) rfl
  obtain ⟨front, parts, steps⟩ := split_below written noSlash fun _ => noDot
  by_cases start : base.components = []
  · obtain rfl := eq_empty_of_components written start
    cases segments with
    | nil => rfl
    | cons s segments =>
      have trimmed : trimPieces (s :: segments) = s :: segments := trimPieces_of_solid solid
      have head : s ≠ "." := by simpa using noDot
      simp [strip?, start, below, unslashed, split_of_solid (noSlash s List.mem_cons_self) head, trimmed]
  · obtain ⟨idle, isIdle, dropped⟩ := dropSteps_append front segments
    rw [strip?_of_steps start, parts, if_pos rfl, ← steps, dropped, Option.map_some,
      trimBoth_append solid isIdle]

theorem filterMap_filter_ne (ps : List String) :
    (ps.filter (· ≠ "")).filterMap component? = ps.filterMap component? := by
  induction ps with
  | nil => rfl
  | cons s ps ih => by_cases slash : s = "" <;> simp_all [component?, List.filterMap_cons]

theorem filterMap_unsplit_nil (ps : List String) :
    (unsplit [] ps).pieces.filterMap component? = ps.filterMap component? := by
  cases ps <;> rfl

theorem Written.split_snd {p : Path} (written : p.Written) : ∀ s ∈ p.split.2, '/' ∉ s.toList := by
  intro s member
  apply written.2
  rw [pieces_eq p]
  exact List.mem_append_right _ member

/-- What is left of a path leads back to it. -/
theorem components_descend_of_strip? {base p r : Path} (baseWritten : base.Written)
    (written : p.Written) (start : base.components ≠ []) (left : strip? base p = some r) :
    (base.descend r.text).components = p.components := by
  rw [strip?_of_steps start] at left
  split at left
  case isFalse => cases left
  case isTrue head =>
    obtain ⟨rest, dropped, rfl⟩ := Option.map_eq_some_iff.mp left
    obtain ⟨front, parts, steps⟩ := dropSteps_eq_some dropped
    have plain : (unsplit [] (trimBoth rest)).Written := by
      refine written_unsplit (.inl rfl) fun s member => written.split_snd s ?_
      rw [parts]
      exact List.mem_append_right _ ((List.dropWhile_sublist _).subset (trimPieces_subset _ member))
    have notEmpty : base.pieces ≠ [""] := by
      intro empty
      exact start (by simp [components, empty, component?])
    rw [descend_eq, components_below baseWritten (by simp) (absurd · notEmpty), ofText_text plain,
      filterMap_filter_ne, filterMap_unsplit_nil, filterMap_trimBoth, components_eq base, head,
      components_eq p, parts, List.filterMap_append, steps, List.append_assoc]

/-! ## Under the empty path -/

theorem components_cons {s : String} (solid : s ≠ "") (ps : List String) :
    (Path.mk (s :: ps)).components = (Path.mk [s]).components ++ ps.filterMap component? := by
  by_cases dot : s = "."
  · rw [dot]
    rfl
  · rw [components_eq, components_eq (Path.mk [s]), split_of_solid solid dot, split_of_solid solid dot,
      ← List.singleton_append, List.filterMap_append, List.append_assoc]

theorem trimPieces_cons {s : String} (solid : component? s ≠ none) (ps : List String) :
    trimPieces (s :: ps) = s :: trimPieces ps := by
  have stays : ([s].dropWhile fun s => s = "" || s = ".") = [s] := dropWhile_of_solid (by simpa using solid)
  rw [trimPieces, List.reverse_cons, List.dropWhile_append, stays]
  split
  case isTrue nothing => simp [trimPieces, List.isEmpty_iff.mp nothing]
  case isFalse => simp [trimPieces]

theorem strip?_empty {s : String} (solid : s ≠ "") (ps : List String) :
    strip? ⟨[""]⟩ ⟨s :: ps⟩ = some ⟨s :: trimPieces ps⟩ := by
  by_cases dot : s = "."
  · rw [dot]
    rfl
  · have step : component? s ≠ none := by simp [component?_eq_none_iff, solid, dot]
    have parts := split_of_solid solid dot ps
    simp only [strip?, parts]
    rw [trimPieces_cons step]
    rfl

theorem exists_start {p : Path} (written : p.Written) (relative : p.isAbsolute = false) :
    p = ⟨[""]⟩ ∨ ∃ s ps, s ≠ "" ∧ p = ⟨s :: ps⟩ := by
  obtain ⟨pieces⟩ := p
  obtain ⟨s, ps, rfl⟩ := List.exists_cons_of_ne_nil written.1
  by_cases slash : s = ""
  · subst slash
    cases ps with
    | nil => exact .inl rfl
    | cons q ps => cases relative
  · exact .inr ⟨s, ps, slash, rfl⟩

/-- What is left of a relative path after no steps leads to it again. -/
theorem components_descend_empty {p r : Path} (written : p.Written) (relative : p.isAbsolute = false)
    (left : strip? ⟨[""]⟩ p = some r) : ((Path.mk [""]).descend r.text).components = p.components := by
  rcases exists_start written relative with rfl | ⟨s, ps, solid, rfl⟩
  · obtain rfl := Option.some.inj left
    rfl
  · rw [strip?_empty solid] at left
    obtain rfl := Option.some.inj left
    have plain : (Path.mk (s :: trimPieces ps)).Written := by
      refine ⟨List.cons_ne_nil _ _, fun t member => written.2 t ?_⟩
      rcases List.mem_cons.mp member with rfl | inside
      · exact List.mem_cons_self
      · exact List.mem_cons_of_mem s (trimPieces_subset ps inside)
    have kept : (s :: trimPieces ps).filter (· ≠ "") = s :: (trimPieces ps).filter (· ≠ "") :=
      List.filter_cons_of_pos (by simpa using solid)
    have direct : (Path.mk [""]).below (s :: (trimPieces ps).filter (· ≠ "")) =
        ⟨s :: (trimPieces ps).filter (· ≠ "")⟩ := rfl
    rw [descend_eq, ofText_text plain, kept, direct, components_cons solid, filterMap_filter_ne,
      filterMap_trimPieces, ← components_cons solid]

theorem isAbsolute_below_empty {segments : List String} (solid : ∀ s ∈ segments, s ≠ "") :
    ((Path.mk [""]).below segments).isAbsolute = false := by
  cases segments with
  | nil => rfl
  | cons s segments => simp [below, unslashed, isAbsolute, solid s List.mem_cons_self]

/-- Nothing that is joined to the empty path leads to an absolute path. -/
theorem components_descend_empty_ne {p : Path} (absolute : p.isAbsolute = true) (relative : String) :
    ((Path.mk [""]).descend relative).components ≠ p.components := by
  intro same
  have head := split_eq_of_head? (congrArg List.head? same)
  rw [isAbsolute_iff_split.mp absolute, ← isAbsolute_iff_split, descend_eq,
    isAbsolute_below_empty (by simp)] at head
  cases head

/-! ## Relative texts -/

theorem text_ofText (text : String) : (ofText text).text = text := by
  rw [Path.text, ofText, ← String.toList_inj, String.toList_intercalate, List.map_map]
  simp [Function.comp_def, Text.intercalate_splitAt]

theorem segments_intercalate {segments : List String}
    (solid : ∀ s ∈ segments, s ≠ "" ∧ '/' ∉ s.toList) :
    (ofText ("/".intercalate segments)).pieces.filter (· ≠ "") = segments := by
  cases segments with
  | nil => rfl
  | cons s segments =>
    have written : (Path.mk (s :: segments)).Written :=
      ⟨List.cons_ne_nil _ _, fun t member => (solid t member).2⟩
    have pieces : (ofText ("/".intercalate (s :: segments))).pieces = s :: segments :=
      congrArg Path.pieces (ofText_text written)
    rw [pieces, List.filter_eq_self]
    exact fun t member => by simpa using (solid t member).1

end TemplateValues.Path

namespace TemplateValues.Workspace

open TemplateValues.Path

/-- Not both of the paths lead somewhere. -/
def LeadAstray (w : Workspace) (p q : Path) : Prop := w.canonical? p = none ∨ w.canonical? q = none

theorem relativeText?_eq {w : Workspace} {p base : Path} (astray : w.LeadAstray p base) :
    w.relativeText? p base = (strip? base p).elim (.error (p, base)) fun r => .ok r.text := by
  unfold relativeText?
  rcases astray with none | none
  · simp only [none]
    cases strip? base p <;> rfl
  · cases w.canonical? p <;> simp only [none] <;> cases strip? base p <;> rfl

/-- **Paths into a directory and back.**  Where not both paths lead somewhere in the workspace:

* a text of pieces that are neither empty nor dots is what is left of the path it leads to;
* a path has a text relative to the directory if and only if it begins with all steps of the directory;
* that text leads back to the steps of the path, except for an absolute path under the empty path. -/
theorem relativeText_descend_iff (w : Workspace) (root : String) :
    (∀ segments : List String, (∀ s ∈ segments, s ≠ "" ∧ s ≠ "." ∧ '/' ∉ s.toList) →
      w.LeadAstray ((ofText root).descend ("/".intercalate segments)) (ofText root) →
      w.relativeText? ((ofText root).descend ("/".intercalate segments)) (ofText root) =
        .ok ("/".intercalate segments)) ∧
    ∀ path : String, w.LeadAstray (ofText path) (ofText root) →
      (w.relativeText? (ofText path) (ofText root) = .error (ofText path, ofText root) ↔
        ¬ (ofText root).components <+: (ofText path).components) ∧
      ((ofText root).components <+: (ofText path).components →
        ∃ relative, w.relativeText? (ofText path) (ofText root) = .ok relative ∧
          (((ofText root).descend relative).components = (ofText path).components ↔
            ¬ (root = "" ∧ (ofText path).isAbsolute = true))) := by
  have rootWritten := written_ofText root
  constructor
  · intro segments solid astray
    have steps : ∀ s ∈ segments, component? s ≠ none := by
      intro s member
      rw [ne_eq, component?_eq_none_iff, not_or]
      exact ⟨(solid s member).1, (solid s member).2.1⟩
    rw [relativeText?_eq astray, descend_eq,
      segments_intercalate fun s member => ⟨(solid s member).1, (solid s member).2.2⟩,
      strip?_below rootWritten steps, Option.elim_some, text_unsplit_nil]
  · intro path astray
    have written := written_ofText path
    rw [relativeText?_eq astray]
    cases left : strip? (ofText root) (ofText path) with
    | none => simp [strip?_eq_none_iff.mp left]
    | some r =>
      have within : (ofText root).components <+: (ofText path).components := by
        by_contra outside
        simp [strip?_eq_none_iff.mpr outside] at left
      refine ⟨by simp [within], fun _ => ⟨r.text, rfl, ?_⟩⟩
      -- only under the empty path an absolute path has all the steps and is not led back to
      by_cases start : (ofText root).components = []
      · have empty := eq_empty_of_components rootWritten start
        have isEmpty : root = "" := by rw [← text_ofText root, empty]; rfl
        rw [empty] at left ⊢
        cases absolute : (ofText path).isAbsolute with
        | true => simp [isEmpty, components_descend_empty_ne absolute]
        | false => simp [components_descend_empty written absolute left]
      · have notEmpty : root ≠ "" := by
          rintro rfl
          exact start rfl
        simp [components_descend_of_strip? rootWritten written start left, notEmpty]

/-- A directory with a slash at its end, a text that climbs on its way, and a path with detours. -/
theorem project_paths_round_trip :
    (Workspace.mk [] []).relativeText? ((ofText "/work/./project/").descend "src/../main.ts")
      (ofText "/work/./project/") = .ok "src/../main.ts" ∧
    ∃ relative, (Workspace.mk [] []).relativeText? (ofText "//work/project/a/./b/")
      (ofText "/work/./project/") = .ok relative ∧
      ((ofText "/work/./project/").descend relative).components =
        (ofText "//work/project/a/./b/").components := by
  obtain ⟨down, back⟩ := relativeText_descend_iff ⟨[], []⟩ "/work/./project/"
  refine ⟨down ["src", "..", "main.ts"] (by decide) (.inr rfl), ?_⟩
  obtain ⟨relative, isText, leads⟩ := (back "//work/project/a/./b/" (.inr rfl)).2 (by decide)
  exact ⟨relative, isText, leads.mpr (by decide)⟩

/-- An absolute path begins with the steps of the empty path, of which there are none, and what is left
of it does not lead back to it. -/
theorem absolute_path_lost :
    (Workspace.mk [] []).LeadAstray (ofText "/a") (ofText "") ∧
    (ofText "").components <+: (ofText "/a").components ∧
    (Workspace.mk [] []).relativeText? (ofText "/a") (ofText "") = .ok "/a" ∧
    ((ofText "").descend "/a").text = "a" ∧
    ((ofText "").descend "/a").components ≠ (ofText "/a").components :=
  ⟨.inl rfl, by decide, rfl, by decide, by decide⟩

end TemplateValues.Workspace
