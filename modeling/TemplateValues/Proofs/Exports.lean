import TemplateValues.Proofs.Onward

/-!
# Where an exported name leads

One step goes from a module and a name to a module and a name that may provide it.  Following a name
finds something just if a chain of so many steps leads to a module that declares the name there
(`isSome_follow_iff`).

What is found is not the nearest export but the end of a way: from each module that does not export
the name itself, the search takes the first step that leads to anything at all
(`follow_eq_some_iff`).  So a real export wins over what is only declared in the modules on the way to
it, and loses to what is only declared at the end of an earlier way.
-/

namespace TemplateValues

namespace Source

def Exports (s : Source) (name : String) (space : Space) : Prop := (s.exported? name space).isSome

/-- Is there a declaration of the name, be it exported or not? -/
def Offers (s : Source) (name : String) (space : Space) : Prop :=
  s.Exports name space ∨ (s.find? name space).isSome

end Source

namespace Codebase

variable {c : Codebase} {space : Space} {s t u : Source} {name n m : String} {hops k : Nat}

/-! ## Steps and chains -/

/-- From a module and a name to a module and a name that may provide it. -/
inductive Step (c : Codebase) (s : Source) (name : String) : Source → String → Prop
  /-- An import that is exported again. -/
  | exportedImport {inside : String} {i : Import} {t : Source} :
      s.localExport? name = some inside → s.import? inside = some i → i.form ≠ .asNamespace →
      c.module? s i.specifier = some t → Step c s name t i.imported
  /-- A re-export, of the name or of everything. -/
  | reexport {r : Reexport} {t : Source} :
      r ∈ s.reexports name → c.module? s r.specifier = some t → Step c s name t r.imported

inductive Leads (c : Codebase) : Nat → Source → String → Source → String → Prop
  | refl (s : Source) (name : String) : Leads c 0 s name s name
  | step {k : Nat} {s t u : Source} {name n m : String} :
      c.Step s name t n → Leads c k t n u m → Leads c (k + 1) s name u m

/-- At most `hops` steps lead to a module and a name of which `P` holds. -/
def Reaches (c : Codebase) (P : Source → String → Prop) (hops : Nat) (s : Source) (name : String) :
    Prop :=
  ∃ k ≤ hops, ∃ t n, c.Leads k s name t n ∧ P t n

theorem map_pair_eq_some_iff {found : Option Source} :
    found.map (fun u => (u, m)) = some (t, n) ↔ found = some t ∧ m = n := by
  cases found <;> simp

theorem importStep?_eq_some_iff :
    c.importStep? s name = some (t, n) ↔
      ∃ i, s.import? name = some i ∧ i.form ≠ .asNamespace ∧
        c.module? s i.specifier = some t ∧ i.imported = n := by
  unfold importStep?
  cases s.import? name with
  | none => simp
  | some i =>
    by_cases isNamespace : i.form = .asNamespace <;>
      simp [isNamespace, -Option.map_eq_some_iff, map_pair_eq_some_iff]

theorem mem_steps_iff : (t, n) ∈ c.steps s name ↔ c.Step s name t n := by
  have imports : (t, n) ∈ ((s.localExport? name).bind (c.importStep? s)).toList ↔
      ∃ inside, s.localExport? name = some inside ∧ c.importStep? s inside = some (t, n) := by
    simp [Option.bind_eq_some_iff]
  have reexports : (t, n) ∈ (s.reexports name).filterMap
        (fun r => (c.module? s r.specifier).map fun t => (t, r.imported)) ↔
      ∃ r ∈ s.reexports name, c.module? s r.specifier = some t ∧ r.imported = n := by
    simp only [List.mem_filterMap, map_pair_eq_some_iff]
  rw [steps, List.mem_append, imports, reexports]
  constructor
  · rintro (⟨inside, exported, isImport⟩ | ⟨r, member, opens, rfl⟩)
    · obtain ⟨i, found, form, opens, rfl⟩ := importStep?_eq_some_iff.mp isImport
      exact .exportedImport exported found form opens
    · exact .reexport member opens
  · rintro (⟨exported, found, form, opens⟩ | ⟨member, opens⟩)
    · exact .inl ⟨_, exported, importStep?_eq_some_iff.mpr ⟨_, found, form, opens, rfl⟩⟩
    · exact .inr ⟨_, member, opens, rfl⟩

section Reaches

variable {P Q : Source → String → Prop}

theorem reaches_zero : c.Reaches P 0 s name ↔ P s name := by
  constructor
  · rintro ⟨k, atMost, t, n, leads, holds⟩
    obtain rfl : k = 0 := by omega
    cases leads with
    | refl => exact holds
  · exact fun holds => ⟨0, Nat.le_refl _, s, name, .refl s name, holds⟩

theorem reaches_succ :
    c.Reaches P (hops + 1) s name ↔
      P s name ∨ ∃ t n, c.Step s name t n ∧ c.Reaches P hops t n := by
  constructor
  · rintro ⟨k, atMost, u, m, leads, holds⟩
    cases leads with
    | refl => exact .inl holds
    | step first rest => exact .inr ⟨_, _, first, _, by omega, u, m, rest, holds⟩
  · rintro (holds | ⟨t, n, first, k, atMost, u, m, rest, holds⟩)
    · exact ⟨0, by omega, s, name, .refl s name, holds⟩
    · exact ⟨k + 1, by omega, u, m, .step first rest, holds⟩

theorem Reaches.mono {more : Nat} (reaches : c.Reaches P hops s name) (atMost : hops ≤ more) :
    c.Reaches P more s name := by
  obtain ⟨k, within, rest⟩ := reaches
  exact ⟨k, by omega, rest⟩

theorem Reaches.weaken (reaches : c.Reaches P hops s name) (weaker : ∀ t n, P t n → Q t n) :
    c.Reaches Q hops s name := by
  obtain ⟨k, within, t, n, leads, holds⟩ := reaches
  exact ⟨k, within, t, n, leads, weaker t n holds⟩

end Reaches

/-! ## What is found at all -/

theorem isSome_nearest {further : Option (Source × Declaration)} :
    (nearest space s name further).isSome ↔ s.Offers name space ∨ further.isSome := by
  unfold nearest Source.Offers Source.Exports
  cases s.exported? name space with
  | some d => simp
  | none => cases further <;> simp

/-- Following a name finds something just if a chain leads to a declaration of it. -/
theorem isSome_follow_iff :
    (c.follow space hops s name).isSome ↔ c.Reaches (·.Offers · space) hops s name := by
  induction hops generalizing s name with
  | zero => simp [follow_zero, isSome_nearest, reaches_zero]
  | succ hops ih =>
    rw [follow_succ, isSome_nearest, reaches_succ, List.findSome?_isSome_iff]
    refine or_congr_right ?_
    simp only [Prod.exists, mem_steps_iff, ih]

theorem follow_eq_none_iff :
    c.follow space hops s name = none ↔ ¬ c.Reaches (·.Offers · space) hops s name := by
  rw [← isSome_follow_iff, Option.not_isSome_iff_eq_none]

/-! ## Which declaration is found -/

/-- The way that the search takes, with so many hops left in the end.  It goes on from a module that
does not export the name, by the first step that leads to anything. -/
inductive Way (c : Codebase) (space : Space) :
    (hops : Nat) → Source → String → (left : Nat) → Source → String → Prop
  | refl (hops : Nat) (s : Source) (name : String) : Way c space hops s name hops s name
  | step {hops left : Nat} {s t u : Source} {name n m : String}
      {before after : List (Source × String)} :
      ¬ s.Exports name space →
      c.steps s name = before ++ (t, n) :: after →
      (∀ skipped ∈ before, ¬ c.Reaches (·.Offers · space) hops skipped.1 skipped.2) →
      Way c space hops t n left u m → Way c space (hops + 1) s name left u m

/-- The search stops here with a declaration: an export, or else any declaration if nothing else is in
reach. -/
def StopsAt (c : Codebase) (space : Space) (left : Nat) (t : Source) (n : String) (d : Declaration) :
    Prop :=
  t.exported? n space = some d ∨
    (t.exported? n space = none ∧ t.find? n space = some d ∧
      ∀ k u m, 0 < k → k ≤ left → c.Leads k t n u m → ¬ u.Offers m space)

theorem Way.leads {left : Nat} (way : c.Way space hops s name left t n) :
    ∃ k, k + left = hops ∧ c.Leads k s name t n := by
  induction way with
  | refl hops s name => exact ⟨0, by omega, .refl s name⟩
  | step _ split _ _ ih =>
    obtain ⟨k, count, leads⟩ := ih
    have first := mem_steps_iff.mp (split ▸ List.mem_append_right _ List.mem_cons_self)
    exact ⟨k + 1, by omega, .step first leads⟩

theorem nearest_eq_some_iff {further : Option (Source × Declaration)} {found : Source × Declaration} :
    nearest space s name further = some found ↔
      (s.exported? name space = some found.2 ∧ found.1 = s) ∨
      (s.exported? name space = none ∧ further = some found) ∨
      (s.exported? name space = none ∧ further = none ∧ s.find? name space = some found.2 ∧
        found.1 = s) := by
  obtain ⟨t, d⟩ := found
  unfold nearest
  cases s.exported? name space with
  | some e => simp [and_comm, eq_comm]
  | none =>
    cases further with
    | some found => simp
    | none => cases s.find? name space <;> simp [and_comm, eq_comm]

theorem not_reaches_further_iff :
    (∀ step ∈ c.steps s name, ¬ c.Reaches (·.Offers · space) hops step.1 step.2) ↔
      ∀ k u m, 0 < k → k ≤ hops + 1 → c.Leads k s name u m → ¬ u.Offers m space := by
  constructor
  · intro nowhere k u m positive atMost leads offers
    cases leads with
    | refl => omega
    | step first rest =>
      exact nowhere (_, _) (mem_steps_iff.mpr first) ⟨_, by omega, u, m, rest, offers⟩
  · rintro nowhere ⟨t, n⟩ member ⟨k, atMost, u, m, leads, offers⟩
    exact nowhere (k + 1) u m (by omega) (by omega) (.step (mem_steps_iff.mp member) leads) offers

/-- What is found is what the search stops with at the end of its way. -/
theorem follow_eq_some_iff {d : Declaration} :
    c.follow space hops s name = some (t, d) ↔
      ∃ left n, c.Way space hops s name left t n ∧ c.StopsAt space left t n d := by
  induction hops generalizing s name with
  | zero =>
    rw [follow_zero, nearest_eq_some_iff]
    constructor
    · rintro (⟨exported, rfl⟩ | ⟨-, absurd⟩ | ⟨unexported, -, own, rfl⟩)
      · exact ⟨0, name, .refl .., .inl exported⟩
      · cases absurd
      · exact ⟨0, name, .refl .., .inr ⟨unexported, own, by omega⟩⟩
    · rintro ⟨left, n, way, stops⟩
      cases way with
      | refl =>
        obtain exported | ⟨unexported, own, -⟩ := stops
        · exact .inl ⟨exported, rfl⟩
        · exact .inr (.inr ⟨unexported, rfl, own, rfl⟩)
  | succ hops ih =>
    rw [follow_succ, nearest_eq_some_iff]
    constructor
    · rintro (⟨exported, rfl⟩ | ⟨unexported, further⟩ | ⟨unexported, nowhere, own, rfl⟩)
      · exact ⟨hops + 1, name, .refl .., .inl exported⟩
      · obtain ⟨before, ⟨u, m⟩, after, split, found, skipped⟩ :=
          List.findSome?_eq_some_iff.mp further
        obtain ⟨left, n, way, stops⟩ := ih.mp found
        refine ⟨left, n, .step (by simp [Source.Exports, unexported]) split ?_ way, stops⟩
        exact fun step member => follow_eq_none_iff.mp (skipped step member)
      · refine ⟨hops + 1, name, .refl .., .inr ⟨unexported, own, not_reaches_further_iff.mp ?_⟩⟩
        exact fun step member => follow_eq_none_iff.mp (List.findSome?_eq_none_iff.mp nowhere step member)
    · rintro ⟨left, n, way, stops⟩
      cases way with
      | refl =>
        obtain exported | ⟨unexported, own, nowhere⟩ := stops
        · exact .inl ⟨exported, rfl⟩
        · refine .inr (.inr ⟨unexported, List.findSome?_eq_none_iff.mpr ?_, own, rfl⟩)
          exact fun step member => follow_eq_none_iff.mpr (not_reaches_further_iff.mpr nowhere step member)
      | step unexported split skipped rest =>
        have found := ih.mpr ⟨left, n, rest, stops⟩
        refine .inr (.inl ⟨by simpa [Source.Exports] using unexported, ?_⟩)
        exact List.findSome?_eq_some_iff.mpr ⟨_, _, _, split, found,
          fun step member => follow_eq_none_iff.mpr (skipped step member)⟩

/-- At the end of a way that passes only modules with a real export in reach, there is a real export. -/
theorem exists_follow_exported
    (real : c.Reaches (·.Exports · space) hops s name)
    (goesOn : ∀ k t n, k ≤ hops → c.Leads k s name t n → t.Offers n space →
      c.Reaches (·.Exports · space) (hops - k) t n) :
    ∃ t d left n, c.follow space hops s name = some (t, d) ∧ c.Way space hops s name left t n ∧
      t.exported? n space = some d := by
  have offered := real.weaken (Q := (·.Offers · space)) fun _ _ => Or.inl
  obtain ⟨⟨t, d⟩, found⟩ := Option.isSome_iff_exists.mp (isSome_follow_iff.mpr offered)
  obtain ⟨left, n, way, exported | ⟨unexported, own, nowhere⟩⟩ := follow_eq_some_iff.mp found
  · exact ⟨t, d, left, n, found, way, exported⟩
  · -- a private declaration ends the way only where nothing else is in reach
    obtain ⟨k, count, leads⟩ := way.leads
    obtain ⟨j, within, u, m, further, exports⟩ :=
      goesOn k t n (by omega) leads (.inr (by simp [own]))
    cases further with
    | refl => simp [Source.Exports, unexported] at exports
    | step first rest =>
      exact (nowhere _ u m (by omega) (by omega) (.step first rest) (.inl exports)).elim

end Codebase

namespace Barrel

open Syntax

def literal (role : Field) (start length : Nat) : Tree :=
  .node .string (some role) start (start + length)
    [.node (.token "'") none start (start + 1) [],
      .node .stringFragment none (start + 1) (start + length - 1) [],
      .node (.token "'") none (start + length - 1) (start + length) []]

def starExport (start : Nat) : Tree :=
  .node .exportStatement none start (start + 20)
    [.node (.token "export") none start (start + 6) [],
      .node (.token "*") none (start + 7) (start + 8) [],
      .node (.token "from") none (start + 9) (start + 13) [], literal .source (start + 14) 5,
      .node (.token ";") none (start + 19) (start + 20) []]

def declarator (start length : Nat) : Tree :=
  .node .variableDeclarator none start (start + 4 + length)
    [.node .identifier (some .name) start (start + 1) [],
      .node (.token "=") none (start + 2) (start + 3) [], literal .value (start + 4) length]

def constant (role : Option Field) (start length : Nat) : Tree :=
  .node .lexicalDeclaration role start (start + 11 + length)
    [.node (.token "const") (some .kind) start (start + 5) [], declarator (start + 6) length,
      .node (.token ";") none (start + 10 + length) (start + 11 + length) []]

def hidden : Source where
  path := ⟨["", "a.ts"]⟩
  language := .typescript
  text := "const X = 'private';"
  tree := .node .program none 0 20 [constant none 0 9]

def real : Source where
  path := ⟨["", "b.ts"]⟩
  language := .typescript
  text := "export const X = 'real';"
  tree := .node .program none 0 24 [.node .exportStatement none 0 24
    [.node (.token "export") none 0 6 [], constant (some .declaration) 7 6]]

def both : Source where
  path := ⟨["", "barrel.ts"]⟩
  language := .typescript
  text := "export * from './a';\nexport * from './b';"
  tree := .node .program none 0 41 [starExport 0, starExport 21]

def own : Source where
  path := ⟨["", "own.ts"]⟩
  language := .typescript
  text := "export * from './b';\nconst X = 'own';"
  tree := .node .program none 0 37 [starExport 0, constant none 21 5]

def codebase : Codebase where
  workspace := ⟨[hidden, real, both, own].map fun s => ⟨s.path.pieces.drop 1, s.text.toUTF8⟩, []⟩
  sources := [hidden, real, both, own]
  lookup := .relativeOnly
  hops := 8

theorem steps_both : codebase.steps both "X" = [(hidden, "X"), (real, "X")] := rfl

theorem steps_own : codebase.steps own "X" = [(real, "X")] := rfl

theorem steps_real : codebase.steps real "X" = [] := rfl

theorem steps_hidden : codebase.steps hidden "X" = [] := rfl

theorem exports_real : real.Exports "X" .value := rfl

/-- From `own`, chains lead to `own` itself and to `real`. -/
theorem leads_own {k : Nat} {t : Source} {n : String} (leads : codebase.Leads k own "X" t n) :
    (k = 0 ∧ t = own ∧ n = "X") ∨ (k = 1 ∧ t = real ∧ n = "X") := by
  cases leads with
  | refl => exact .inl ⟨rfl, rfl, rfl⟩
  | step first rest =>
    have member := Codebase.mem_steps_iff.mpr first
    rw [steps_own, List.mem_singleton, Prod.mk.injEq] at member
    obtain ⟨rfl, rfl⟩ := member
    cases rest with
    | refl => exact .inr ⟨rfl, rfl, rfl⟩
    | step second _ =>
      have member := Codebase.mem_steps_iff.mpr second
      rw [steps_real] at member
      cases member

theorem exported?_hidden (name : String) (space : Space) : hidden.exported? name space = none := by
  have nothing : hidden.exports = [] := rfl
  simp [Source.exported?, Source.defaultExport?, Source.localExport?, nothing]

/-- From `both`, the first step leads to `hidden`, and nothing leads on from there. -/
theorem way_both : codebase.Way .value 8 both "X" 7 hidden "X" := by
  have unexported : both.exported? "X" .value = none := rfl
  have split : codebase.steps both "X" = [] ++ (hidden, "X") :: [(real, "X")] := steps_both
  exact .step (by simp [Source.Exports, unexported]) split (by simp) (.refl ..)

theorem stopsAt_hidden : ∃ d, codebase.StopsAt .value 7 hidden "X" d := by
  obtain ⟨d, own⟩ : ∃ d, hidden.find? "X" .value = some d := ⟨_, rfl⟩
  refine ⟨d, .inr ⟨exported?_hidden .., own, fun k u m positive _ leads => ?_⟩⟩
  cases leads with
  | refl => omega
  | step first _ =>
    have member := Codebase.mem_steps_iff.mpr first
    rw [steps_hidden] at member
    cases member

theorem reaches_exports_own : codebase.Reaches (·.Exports · .value) 8 own "X" := by
  have step : codebase.Step own "X" real "X" :=
    Codebase.mem_steps_iff.mp (steps_own ▸ List.mem_cons_self)
  exact ⟨1, by omega, real, "X", .step step (.refl ..), exports_real⟩

end Barrel

namespace Codebase

/-- **The export that is chosen.**  A declaration is handed on just if the search stops with it at the
end of its way: it is an export there, or nothing exports or declares the name within the hops that are
left.  So a real export in reach is chosen if one is also in reach from every module in reach that
declares the name. -/
theorem followed_export_chosen (c : Codebase) (space : Space) (hops : Nat) (s : Source)
    (name : String) :
    (∀ t d, c.follow space hops s name = some (t, d) ↔
      ∃ left n, c.Way space hops s name left t n ∧ c.StopsAt space left t n d) ∧
    (c.Reaches (·.Exports · space) hops s name →
      (∀ k t n, k ≤ hops → c.Leads k s name t n → t.Offers n space →
        c.Reaches (·.Exports · space) (hops - k) t n) →
      ∃ t d left n, c.Way space hops s name left t n ∧ t.exported? n space = some d ∧
        ∀ (M : Type → Type) [Monad M] [LawfulMonad M] (α : Type) (onward : Onward M α),
          c.followThen space hops s name onward = .ok <$> onward t d) := by
  refine ⟨fun t d => follow_eq_some_iff, fun real goesOn => ?_⟩
  obtain ⟨t, d, left, n, found, way, exported⟩ := exists_follow_exported real goesOn
  refine ⟨t, d, left, n, way, exported, fun M _ _ α onward => ?_⟩
  rw [followThen_eq, found]
  rfl

/-- The export of `./b` is chosen in `export * from './b'; const X = 'own';`, and not the constant. -/
theorem real_export_chosen_over_own :
    Barrel.codebase.Reaches (·.Exports · .value) 8 Barrel.own "X" ∧
    ∃ t d left n, Barrel.codebase.Way .value 8 Barrel.own "X" left t n ∧
      t.exported? n .value = some d ∧
      Barrel.codebase.follow .value 8 Barrel.own "X" = some (t, d) ∧ t = Barrel.real := by
  have reaches := Barrel.reaches_exports_own
  refine ⟨reaches, ?_⟩
  obtain ⟨found_iff, chosen⟩ := followed_export_chosen Barrel.codebase .value 8 Barrel.own "X"
  obtain ⟨t, d, left, n, way, exported, -⟩ := chosen reaches fun k t n within leads offers => by
    obtain ⟨rfl, rfl, rfl⟩ | ⟨rfl, rfl, rfl⟩ := Barrel.leads_own leads
    · exact reaches
    · exact ⟨0, by omega, _, _, .refl .., Barrel.exports_real⟩
  have found := (found_iff t d).mpr ⟨left, n, way, .inl exported⟩
  refine ⟨t, d, left, n, way, exported, found, ?_⟩
  obtain ⟨k, -, leads⟩ := way.leads
  obtain ⟨-, rfl, rfl⟩ | ⟨-, rfl, -⟩ := Barrel.leads_own leads
  · cases exported
  · rfl

/-- Of `export * from './a'; export * from './b';`, where `./a` exports nothing and `./b` exports the
name, the declaration that `./a` keeps to itself is chosen. -/
theorem private_declaration_chosen :
    Barrel.codebase.Reaches (·.Exports · .value) 8 Barrel.both "X" ∧
    (∃ d, Barrel.codebase.follow .value 8 Barrel.both "X" = some (Barrel.hidden, d)) ∧
    ∀ name space, Barrel.hidden.exported? name space = none := by
  obtain ⟨d, stops⟩ := Barrel.stopsAt_hidden
  refine ⟨⟨1, by omega, Barrel.real, "X", .step ?_ (.refl ..), Barrel.exports_real⟩, ⟨d, ?_⟩,
    Barrel.exported?_hidden⟩
  · refine mem_steps_iff.mp ?_
    rw [Barrel.steps_both]
    simp
  · exact follow_eq_some_iff.mpr ⟨7, "X", Barrel.way_both, stops⟩

end Codebase

end TemplateValues
