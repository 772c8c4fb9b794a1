import Mathlib.Data.List.Basic
import TemplateValues.Path.Lexical
import TemplateValues.Proofs.Pieces

/-!
# Normal forms of paths

Read as a walk, a relative path ends so many levels above where it began, and from there down along the
names that are still entered (`Place`).  The normal form of the path spells that place, except that of the
steps up from above the start every second one takes back the one before it
(`normalize_spells_place_iff`).

Normal forms are settled: a second round changes nothing, and what is joined to an absolute path may as
well be joined to its normal form (`normalText_settles`).  Both are read off the shape of the normal form
and of its steps.
-/

namespace TemplateValues.Path

/-! ## Texts and their pieces -/

/-- What a text can be cut into: some pieces, and no slash in any of them. -/
def Written (p : Path) : Prop := p.pieces ≠ [] ∧ ∀ piece ∈ p.pieces, '/' ∉ piece.toList

theorem written_ofText (text : String) : (ofText text).Written := by
  constructor
  · simp [ofText, Text.splitAt_ne_nil]
  · intro piece member
    obtain ⟨cs, isPiece, rfl⟩ := List.mem_map.mp member
    rw [String.toList_ofList]
    exact Text.notMem_of_mem_splitAt isPiece

theorem ofText_text {p : Path} (written : p.Written) : ofText p.text = p := by
  obtain ⟨pieces⟩ := p
  have slash : "/".toList = ['/'] := rfl
  exact congrArg Path.mk (Text.map_splitAt_intercalate slash written.1 written.2)

theorem Written.join {p q : Path} (left : p.Written) (right : q.Written) : (p.join q).Written := by
  unfold Path.join
  split
  · exact right
  split
  · exact right
  -- What is left are pieces of `p` before those of `q`.
  have both : ∀ {front : List String}, front ⊆ p.pieces → (Path.mk (front ++ q.pieces)).Written := by
    intro front part
    refine ⟨List.append_ne_nil_of_right_ne_nil _ right.1, fun piece member => ?_⟩
    rcases List.mem_append.mp member with inFront | inBack
    · exact left.2 piece (part inFront)
    · exact right.2 piece inBack
  split
  · exact both (List.dropLast_subset _)
  · exact both (List.Subset.refl _)

/-! ## Steps that are entries -/

def IsEntry (piece : String) : Prop := component? piece = some (.name piece)

instance (piece : String) : Decidable (IsEntry piece) := inferInstanceAs (Decidable (_ = _))

theorem component?_eq_name {piece n : String} (step : component? piece = some (.name n)) :
    piece = n := by
  unfold component? at step
  split at step
  · cases step
  split at step
  · cases step
  · exact Component.name.inj (Option.some.inj step)

/-- The names that pieces stand for are those of the pieces that lead to entries. -/
theorem isEntry_of_name {ps : List String} {n : String} (member : .name n ∈ ps.filterMap component?) :
    n ∈ ps ∧ IsEntry n := by
  obtain ⟨piece, isPiece, step⟩ := List.mem_filterMap.mp member
  obtain rfl := component?_eq_name step
  exact ⟨isPiece, step⟩

theorem mem_pieces_of_name {p : Path} {n : String} (member : .name n ∈ p.components) :
    n ∈ p.pieces ∧ IsEntry n := by
  obtain ⟨pieces⟩ := p
  -- All steps but the root and a dot at the start come from pieces one by one.
  unfold components at member
  split at member
  case h_1 q ps equal =>
    obtain rfl : pieces = "" :: q :: ps := equal
    have entry := isEntry_of_name (List.mem_of_ne_of_mem Component.noConfusion member)
    exact ⟨List.mem_cons_of_mem _ entry.1, entry.2⟩
  case h_2 ps equal =>
    obtain rfl : pieces = "." :: ps := equal
    have entry := isEntry_of_name (List.mem_of_ne_of_mem Component.noConfusion member)
    exact ⟨List.mem_cons_of_mem _ entry.1, entry.2⟩
  case h_3 => exact isEntry_of_name member

theorem filterMap_entries {names : List String} (entries : ∀ n ∈ names, IsEntry n) :
    names.filterMap component? = names.map .name := by
  induction names with
  | nil => rfl
  | cons n names ih =>
    obtain ⟨first, others⟩ := List.forall_mem_cons.mp entries
    rw [List.filterMap_cons_some first, ih others, List.map_cons]

theorem filterMap_replicate_up (k : Nat) :
    (List.replicate k "..").filterMap component? = List.replicate k .up := by
  simp [component?]

/-! ## Paths put together from steps -/

@[simp] theorem isAbsolute_unsplit_root (ps : List String) : (unsplit [""] ps).isAbsolute = true := by
  cases ps <;> rfl

theorem components_unsplit_root (ps : List String) :
    (unsplit [""] ps).components = .root :: ps.filterMap component? := by
  cases ps <;> rfl

section Relative

variable {ps : List String} (steps : ∀ s ∈ ps, component? s ≠ none)
include steps

theorem isAbsolute_unsplit_nil : (unsplit [] ps).isAbsolute = false := by
  cases ps with
  | nil => rfl
  | cons s ps =>
    have solid : s ≠ "" := by
      rintro rfl
      exact steps "" List.mem_cons_self rfl
    unfold isAbsolute
    split
    case h_1 equal => exact absurd (List.cons.inj equal).1 solid
    case h_2 => rfl

theorem components_unsplit_nil : (unsplit [] ps).components = ps.filterMap component? := by
  cases ps with
  | nil => rfl
  | cons s ps =>
    have solid : s ≠ "" ∧ s ≠ "." := by
      constructor <;> rintro rfl <;> exact steps _ List.mem_cons_self rfl
    unfold components
    split
    case h_1 equal => exact absurd (List.cons.inj equal).1 solid.1
    case h_2 equal => exact absurd (List.cons.inj equal).1 solid.2
    case h_3 => rfl

end Relative

/-! ## The place a walk comes to -/

/-- Where a walk has come to, seen from where it began: so many levels above that, and from there down
along the names entered. -/
structure Place where
  above : Nat
  entered : List String
deriving DecidableEq, Repr

/-- One step of a walk: a name goes down, a step up leaves the entry last entered or, if there is none,
climbs one level more. -/
def Place.step (place : Place) : Component → Place
  | .name n => { place with entered := place.entered ++ [n] }
  | .up =>
    if place.entered = [] then { place with above := place.above + 1 }
    else { place with entered := place.entered.dropLast }
  | .here | .root => place

def place (p : Path) : Place := p.components.foldl Place.step ⟨0, []⟩

def Place.pieces (place : Place) : List String := List.replicate place.above ".." ++ place.entered

/-- The place where each two levels above the start have cancelled out. -/
def Place.cancelled (place : Place) : Place := { place with above := place.above % 2 }

theorem foldl_step_names (place : Place) (names : List String) :
    (names.map Component.name).foldl Place.step place =
      { place with entered := place.entered ++ names } := by
  induction names generalizing place with
  | nil => simp
  | cons n names ih => simp [ih, Place.step]

theorem foldl_step_ups (k : Nat) :
    (List.replicate k Component.up).foldl Place.step ⟨0, []⟩ = ⟨k, []⟩ := by
  induction k with
  | zero => rfl
  | succ k ih => rw [List.replicate_succ', List.foldl_concat, ih]; rfl

theorem mem_entered_foldl {cs : List Component} {start : Place} {n : String}
    (member : n ∈ (cs.foldl Place.step start).entered) : n ∈ start.entered ∨ .name n ∈ cs := by
  induction cs generalizing start with
  | nil => exact .inl member
  | cons c cs ih =>
    rcases ih member with before | later
    · cases c with
      | name m =>
        rcases List.mem_append.mp before with old | new
        · exact .inl old
        · exact .inr (by simp [List.mem_singleton.mp new])
      | up =>
        rw [Place.step] at before
        split at before
        · exact .inl before
        · exact .inl (List.dropLast_subset _ before)
      | here | root => exact .inl before
    · exact .inr (List.mem_cons_of_mem c later)

theorem isEntry_of_entered {p : Path} {n : String} (member : n ∈ p.place.entered) :
    n ∈ p.pieces ∧ IsEntry n := by
  rcases mem_entered_foldl member with none | step
  · simp at none
  · exact mem_pieces_of_name step

/-! ## Normal forms of relative paths -/

/-- One step on a relative path in normal form: from above the start, a step up takes back the last
step up, if there is one left. -/
theorem walk_pieces_cancelled (place : Place) (c : Component) :
    walk false place.cancelled.pieces.reverse c = (place.step c).cancelled.pieces.reverse := by
  cases c with
  | root | here => rfl
  | name n => simp [walk, Place.step, Place.cancelled, Place.pieces]
  | up =>
    obtain ⟨above, entered⟩ := place
    rcases List.eq_nil_or_concat entered with rfl | ⟨names, n, rfl⟩
    · -- No name is left: the stack is empty or holds one step up, and the step changes it to the other.
      rcases Nat.mod_two_eq_zero_or_one above with even | odd
      · have next : (above + 1) % 2 = 1 := by omega
        simp [walk, Place.step, Place.cancelled, Place.pieces, even, next]
      · have next : (above + 1) % 2 = 0 := by omega
        simp [walk, Place.step, Place.cancelled, Place.pieces, odd, next]
    · simp [walk, Place.step, Place.cancelled, Place.pieces]

theorem normalize_relative {p : Path} (relative : p.isAbsolute = false) :
    p.normalize = unsplit [] p.place.cancelled.pieces := by
  have run : p.components.foldl (walk false) (Place.mk 0 []).cancelled.pieces.reverse =
      p.place.cancelled.pieces.reverse :=
    List.foldl_hom (fun place : Place => place.cancelled.pieces.reverse) walk_pieces_cancelled
  have start : (Place.mk 0 []).cancelled.pieces.reverse = [] := rfl
  rw [start] at run
  rw [normalize, relative, run, List.reverse_reverse]
  rfl

section Spelled

variable {place : Place} (entries : ∀ n ∈ place.entered, IsEntry n)
include entries

theorem component?_pieces : ∀ s ∈ place.pieces, component? s ≠ none := by
  intro s member
  rcases List.mem_append.mp member with up | entered
  · rw [List.eq_of_mem_replicate up]
    decide
  · rw [entries s entered]
    exact Option.some_ne_none _

theorem components_unsplit_pieces : (unsplit [] place.pieces).components =
    List.replicate place.above .up ++ place.entered.map .name := by
  rw [components_unsplit_nil (component?_pieces entries), Place.pieces, List.filterMap_append,
    filterMap_replicate_up, filterMap_entries entries]

theorem place_unsplit_pieces : (unsplit [] place.pieces).place = place := by
  rw [Path.place, components_unsplit_pieces entries, List.foldl_append, foldl_step_ups,
    foldl_step_names, List.nil_append]

end Spelled

theorem components_normalize_relative {p : Path} (relative : p.isAbsolute = false) :
    p.normalize.components =
      List.replicate (p.place.above % 2) .up ++ p.place.entered.map .name := by
  rw [normalize_relative relative]
  exact components_unsplit_pieces fun n member => (isEntry_of_entered member).2

theorem text_unsplit_nil (ps : List String) : (unsplit [] ps).text = "/".intercalate ps := by
  cases ps <;> rfl

/-- **The normal form spells the place that the walk comes to, or all but pairs of its climbs.**  The
steps of the normal form of a relative path are steps up and then the names still entered, and nothing
else.  There is one step up if the walk climbs an odd number of levels above its start, and none
otherwise: that is the number of levels just if the walk climbs one level at most. -/
theorem normalize_spells_place_iff (p : Path) (relative : p.isAbsolute = false) :
    p.normalize.text =
      "/".intercalate (List.replicate (p.place.above % 2) ".." ++ p.place.entered) ∧
    p.normalize.components =
      List.replicate (p.place.above % 2) .up ++ p.place.entered.map .name ∧
    (p.normalize.components = List.replicate p.place.above .up ++ p.place.entered.map .name ↔
      p.place.above ≤ 1) := by
  have steps := components_normalize_relative relative
  refine ⟨?_, steps, ?_⟩
  · rw [normalize_relative relative, text_unsplit_nil]
    rfl
  · rw [steps, List.append_left_inj, List.replicate_left_inj]
    omega

/-- A walk that goes down, climbs above its start and goes down again. -/
theorem climbing_path_spelled :
    (ofText "./a/../../b//c/../d").place = ⟨1, ["b", "d"]⟩ ∧
    (ofText "./a/../../b//c/../d").normalize.components = [.up, .name "b", .name "d"] := by
  have spelled := normalize_spells_place_iff (ofText "./a/../../b//c/../d") (by decide)
  have place : (ofText "./a/../../b//c/../d").place = ⟨1, ["b", "d"]⟩ := by decide
  refine ⟨place, ?_⟩
  rw [spelled.2.2.mpr (by simp [place]), place]
  rfl

/-- The second of two levels above the start takes back the first. -/
theorem second_climb_lost :
    (ofText "../..").isAbsolute = false ∧ (ofText "../..").place = ⟨2, []⟩ ∧
    (ofText "../..").normalize.text = "" ∧
    (ofText "../..").normalize.components ≠
      List.replicate (ofText "../..").place.above .up ++
        (ofText "../..").place.entered.map .name := by
  decide

/-! ## Normal forms of absolute paths -/

/-- The names left of the steps that pieces stand for, from the root on, the last one first. -/
def descent (steps : List String) (ps : List String) : List String :=
  (ps.filterMap component?).foldl (walk true) steps

theorem foldl_walk_names (names steps : List String) :
    (names.map Component.name).foldl (walk true) steps = names.reverse ++ steps := by
  induction names generalizing steps with
  | nil => rfl
  | cons n names ih => simp [ih, walk]

theorem mem_foldl_walk {cs : List Component} {steps : List String} {s : String}
    (member : s ∈ cs.foldl (walk true) steps) : s ∈ steps ∨ .name s ∈ cs := by
  induction cs generalizing steps with
  | nil => exact .inl member
  | cons c cs ih =>
    rcases ih member with before | later
    · cases c with
      | name n =>
        rcases List.mem_cons.mp before with rfl | old
        · exact .inr List.mem_cons_self
        · exact .inl old
      | up =>
        cases steps with
        | nil => simp [walk] at before
        | cons top steps => exact .inl (List.mem_cons_of_mem top before)
      | here | root => exact .inl before
    · exact .inr (List.mem_cons_of_mem c later)

theorem exists_root {p : Path} (absolute : p.isAbsolute = true) :
    ∃ body, body ≠ [] ∧ p = ⟨"" :: body⟩ := by
  obtain ⟨pieces⟩ := p
  unfold isAbsolute at absolute
  split at absolute
  case h_1 q ps equal => exact ⟨q :: ps, List.cons_ne_nil q ps, congrArg Path.mk equal⟩
  case h_2 => cases absolute

theorem unsplit_root (ps : List String) : ∃ body, body ≠ [] ∧ unsplit [""] ps = ⟨"" :: body⟩ ∧
    body.filterMap component? = ps.filterMap component? := by
  cases ps with
  | nil => exact ⟨[""], List.cons_ne_nil _ _, rfl, rfl⟩
  | cons s ps => exact ⟨s :: ps, List.cons_ne_nil s ps, rfl, rfl⟩

theorem isEntry_of_descent {ps : List String} {n : String} (member : n ∈ (descent [] ps).reverse) :
    n ∈ ps ∧ IsEntry n := by
  rcases mem_foldl_walk (List.mem_reverse.mp member) with none | step
  · simp at none
  · exact isEntry_of_name step

theorem normalize_root {body : List String} (some : body ≠ []) :
    (Path.mk ("" :: body)).normalize = unsplit [""] (descent [] body).reverse := by
  obtain ⟨q, ps, rfl⟩ := List.exists_cons_of_ne_nil some
  rfl

theorem descent_append (steps ps qs : List String) :
    descent steps (ps ++ qs) = descent (descent steps ps) qs := by
  simp [descent]

/-- A slash at the end of a path is no step. -/
theorem descent_dropLast {ps : List String} (slash : ps.getLast? = some "") (steps : List String) :
    descent steps ps.dropLast = descent steps ps := by
  rw [← List.dropLast_append_getLast? "" slash, List.dropLast_concat, descent_append]
  rfl

/-- What a relative path adds to an absolute one are its pieces. -/
theorem join_root {body : List String} (some : body ≠ []) {b : Path} (relative : b.isAbsolute = false)
    (written : b.Written) :
    ∃ joined, joined ≠ [] ∧ (Path.mk ("" :: body)).join b = ⟨"" :: joined⟩ ∧
      descent [] joined = descent (descent [] body) b.pieces := by
  have notEmpty : ("" :: body) ≠ [""] := by simpa using some
  have last : ("" :: body).getLast? = body.getLast? := List.getLast?_cons_of_ne_nil some
  unfold join
  rw [relative, if_neg Bool.false_ne_true, if_neg notEmpty, last]
  -- A slash at the end of the first path is not written twice.
  by_cases slash : body.getLast? = Option.some ""
  · refine ⟨body.dropLast ++ b.pieces, List.append_ne_nil_of_right_ne_nil _ written.1, ?_, ?_⟩
    · rw [if_pos slash, List.dropLast_cons_of_ne_nil some, List.cons_append]
    · rw [descent_append, descent_dropLast slash]
  · refine ⟨body ++ b.pieces, List.append_ne_nil_of_right_ne_nil _ written.1, ?_, ?_⟩
    · rw [if_neg slash, List.cons_append]
    · rw [descent_append]

theorem descent_entries {names : List String} (entries : ∀ n ∈ names, IsEntry n) :
    descent [] names = names.reverse := by
  rw [descent, filterMap_entries entries, foldl_walk_names, List.append_nil]

/-! ## Settled forms -/

theorem written_unsplit {head ps : List String} (isHead : head = [] ∨ head = [""])
    (plain : ∀ s ∈ ps, '/' ∉ s.toList) : (unsplit head ps).Written := by
  cases ps with
  | nil => rcases isHead with rfl | rfl <;> simp [unsplit, Written]
  | cons s ps =>
    rcases isHead with rfl | rfl
    · exact ⟨List.cons_ne_nil s ps, plain⟩
    · refine ⟨List.cons_ne_nil _ _, ?_⟩
      intro piece member
      rcases List.mem_cons.mp member with rfl | inside
      · simp
      · exact plain piece inside

theorem Written.normalize {p : Path} (written : p.Written) : p.normalize.Written := by
  cases absolute : p.isAbsolute with
  | true =>
    obtain ⟨body, some, rfl⟩ := exists_root absolute
    rw [normalize_root some]
    refine written_unsplit (.inr rfl) fun s member => ?_
    exact written.2 s (List.mem_cons_of_mem _ (isEntry_of_descent member).1)
  | false =>
    rw [normalize_relative absolute]
    refine written_unsplit (.inl rfl) fun s member => ?_
    rcases List.mem_append.mp member with up | entered
    · rw [List.eq_of_mem_replicate up]
      decide
    · exact written.2 s (isEntry_of_entered entered).1

theorem normalize_unsplit_root {names : List String} (entries : ∀ n ∈ names, IsEntry n) :
    (unsplit [""] names).normalize = unsplit [""] names := by
  obtain ⟨body, some, equal, steps⟩ := unsplit_root names
  have names_eq : descent [] body = names.reverse := by
    rw [← descent_entries entries, descent, steps, descent]
  conv_lhs => rw [equal, normalize_root some, names_eq, List.reverse_reverse]

theorem normalize_normalize (p : Path) : p.normalize.normalize = p.normalize := by
  cases absolute : p.isAbsolute with
  | true =>
    obtain ⟨body, some, rfl⟩ := exists_root absolute
    rw [normalize_root some]
    exact normalize_unsplit_root fun n member => (isEntry_of_descent member).2
  | false =>
    have entries : ∀ n ∈ p.place.cancelled.entered, IsEntry n :=
      fun n member => (isEntry_of_entered member).2
    -- One step up is left at most, so there is no pair to cancel in the second round.
    have twice : p.place.cancelled.cancelled = p.place.cancelled := by
      simp [Place.cancelled]
    rw [normalize_relative absolute,
      normalize_relative (isAbsolute_unsplit_nil (component?_pieces entries)),
      place_unsplit_pieces entries, twice]

theorem isAbsolute_root {body : List String} (some : body ≠ []) :
    (Path.mk ("" :: body)).isAbsolute = true := by
  obtain ⟨q, ps, rfl⟩ := List.exists_cons_of_ne_nil some
  rfl

/-- The normal form of an absolute path is absolute, and all its other steps are names. -/
theorem components_normalize_absolute {p : Path} (absolute : p.isAbsolute = true) :
    p.normalize.isAbsolute = true ∧
      ∃ names : List String, p.normalize.components = .root :: names.map .name := by
  obtain ⟨body, some, rfl⟩ := exists_root absolute
  rw [normalize_root some]
  refine ⟨isAbsolute_unsplit_root _, (descent [] body).reverse, ?_⟩
  rw [components_unsplit_root, filterMap_entries fun n member => (isEntry_of_descent member).2]

theorem isAbsolute_join {a b : Path} (absolute : a.isAbsolute = true) (relative : b.isAbsolute = false)
    (written : b.Written) : (a.join b).isAbsolute = true := by
  obtain ⟨body, some, rfl⟩ := exists_root absolute
  obtain ⟨joined, isBody, equal, -⟩ := join_root some relative written
  rw [equal]
  exact isAbsolute_root isBody

/-- What is joined to an absolute path may as well be joined to its normal form: both have the same
descent from the root. -/
theorem normalize_join_normalize {a b : Path} (absolute : a.isAbsolute = true)
    (relative : b.isAbsolute = false) (written : b.Written) :
    (a.normalize.join b).normalize = (a.join b).normalize := by
  obtain ⟨body, some, rfl⟩ := exists_root absolute
  -- The pieces of the normal form lead to the same entries, so both joins go on from there.
  obtain ⟨settled, isBody, equal, names⟩ := unsplit_root (descent [] body).reverse
  have entries : ∀ n ∈ (descent [] body).reverse, IsEntry n :=
    fun n member => (isEntry_of_descent member).2
  have same : descent [] settled = descent [] body := by
    rw [descent, names, ← descent, descent_entries entries, List.reverse_reverse]
  obtain ⟨joined, isJoined, joins, steps⟩ := join_root some relative written
  obtain ⟨joined', isJoined', joins', steps'⟩ := join_root isBody relative written
  rw [normalize_root some, equal, joins, joins', normalize_root isJoined, normalize_root isJoined',
    steps, steps', same]

def normalText (text : String) : String := (ofText text).normalize.text

def joinText (first second : String) : String := ((ofText first).join (ofText second)).text

theorem ofText_normalText (text : String) : ofText (normalText text) = (ofText text).normalize :=
  ofText_text (written_ofText text).normalize

theorem ofText_joinText (first second : String) :
    ofText (joinText first second) = (ofText first).join (ofText second) :=
  ofText_text ((written_ofText first).join (written_ofText second))

/-- **Normal forms are settled.**  The text of a normal form is its own normal form.  A relative path
joined to an absolute path has the same normal form as if it were joined to that path's normal form,
and this is absolute and has no steps but names after the root. -/
theorem normalText_settles :
    (∀ text, normalText (normalText text) = normalText text) ∧
    ∀ a b, (ofText a).isAbsolute = true → (ofText b).isAbsolute = false →
      normalText (joinText a b) = normalText (joinText (normalText a) b) ∧
      (ofText (normalText (joinText a b))).isAbsolute = true ∧
      .here ∉ (ofText (normalText (joinText a b))).components ∧
      .up ∉ (ofText (normalText (joinText a b))).components := by
  constructor
  · intro text
    rw [normalText, ofText_normalText, normalize_normalize, ← normalText]
  · intro a b absolute relative
    have written := written_ofText b
    obtain ⟨isAbsolute, names, steps⟩ :=
      components_normalize_absolute (isAbsolute_join absolute relative written)
    rw [ofText_normalText, ofText_joinText, steps]
    refine ⟨?_, isAbsolute, by simp, by simp⟩
    rw [normalText, normalText, ofText_joinText, ofText_joinText, ofText_normalText,
      normalize_join_normalize absolute relative written]

/-- An absolute path with a slash at its end, and a relative path that climbs out of it. -/
theorem joined_text_settled :
    normalText (normalText "../a//b/.") = normalText "../a//b/." ∧
    normalText (joinText "/a/./b/" "./../../../c/d/") =
      normalText (joinText (normalText "/a/./b/") "./../../../c/d/") ∧
    normalText (joinText "/a/./b/" "./../../../c/d/") = "/c/d" := by
  refine ⟨normalText_settles.1 _, (normalText_settles.2 _ _ (by decide) (by decide)).1, ?_⟩
  decide

end TemplateValues.Path
