import Mathlib.Data.List.Forall2
import TemplateValues.Proofs.Exports
import TemplateValues.Proofs.Reach

/-!
# The copy on disk

The text of a source may come from an editor while the file still has an older text.  That copy does not
count for the source itself.  But a module that is imported may import the file again, and then the copy is
read.  So the copy is of no account as long as no chain of imports and re-exports leads back to the file,
and no project configuration on the way is read from it (`stale_copy_unseen`); and if a chain does lead
back, it may be of account (`stale_copy_seen`).
-/

namespace TemplateValues

/-! ## Workspaces that differ in one file -/

namespace Workspace

/-- The workspaces have the same files and directories, and the same content but for the file `names`. -/
structure SameBut (names : List String) (w w' : Workspace) : Prop where
  named : names ≠ []
  files : List.Forall₂ (fun f f' => f.names = f'.names ∧ (f.names ≠ names → f.bytes = f'.bytes))
    w.files w'.files
  directories : w.directories = w'.directories

namespace SameBut

variable {names : List String} {w w' : Workspace} (same : w.SameBut names w')

include same

theorem map_names : w.files.map File.names = w'.files.map File.names := by
  have pairs : List.Forall₂ (fun f f' : File => f.names = f'.names) w.files w'.files :=
    same.files.imp fun _ _ both => both.1
  rw [← List.forall₂_eq_eq_eq, List.forall₂_map_left_iff, List.forall₂_map_right_iff]
  exact pairs

/-- What is at a place is the same, or a file whose bytes are the same if it is not the one. -/
theorem entry? (place : List String) :
    w.entry? place = w'.entry? place ∨
      ∃ f f', w.entry? place = some (.file f) ∧ w'.entry? place = some (.file f') ∧
        (place ≠ names → f.bytes = f'.bytes) := by
  have any : (w.files.any fun f => place.isPrefixOf f.names) =
      w'.files.any fun f => place.isPrefixOf f.names := by
    have mapped := congrArg (List.any · fun n => place.isPrefixOf n) same.map_names
    simpa [List.any_map, Function.comp_def] using mapped
  have found : (w.files.find? (fun f => f.names = place) = none ∧
        w'.files.find? (fun f => f.names = place) = none) ∨
      ∃ f f', w.files.find? (fun f => f.names = place) = some f ∧
        w'.files.find? (fun f => f.names = place) = some f' ∧ (place ≠ names → f.bytes = f'.bytes) := by
    -- files of the same name stand at the same place of both lists
    have files := same.files
    generalize w.files = fs, w'.files = fs' at files
    induction files with
    | nil => exact .inl ⟨rfl, rfl⟩
    | @cons f f' fs fs' both _ ih =>
      by_cases here : f.names = place
      · have here' : f'.names = place := both.1 ▸ here
        exact .inr ⟨f, f', by simp [here], by simp [here'], here ▸ both.2⟩
      · have here' : ¬ f'.names = place := both.1 ▸ here
        simpa [here, here'] using ih
  unfold Workspace.entry?
  rcases found with ⟨none, none'⟩ | ⟨f, f', some, some', bytes⟩
  · left
    rw [none, none', same.directories, any]
  · right
    exact ⟨f, f', by rw [some], by rw [some'], bytes⟩

theorem step_eq : w.step = w'.step := by
  funext place piece
  have there : ∀ place, (w.entry? place).isSome = (w'.entry? place).isSome := by
    intro place
    rcases same.entry? place with equal | ⟨f, f', some, some', -⟩
    · rw [equal]
    · rw [some, some']
      rfl
  unfold Workspace.step
  simp only [there]
  rcases same.entry? place with equal | ⟨f, f', some, some', -⟩
  · rw [equal]
  · rw [some, some']

theorem locate_eq (p : Path) : w.locate p = w'.locate p := by
  rw [locate, locate, same.step_eq]

theorem isFile_eq (p : Path) : w.isFile p = w'.isFile p := by
  unfold isFile
  rw [same.locate_eq]
  cases w'.locate p with
  | error f => rfl
  | ok place =>
    rcases same.entry? place with equal | ⟨f, f', some, some', -⟩
    · simp only [equal]
    · simp only [some, some']

theorem canonicalOrSame_eq (p : Path) : w.canonicalOrSame p = w'.canonicalOrSame p := by
  rw [canonicalOrSame, canonicalOrSame, canonical?, canonical?, same.locate_eq]

theorem read_eq {p : Path} (elsewhere : w.locate p ≠ .ok names) : w.read p = w'.read p := by
  unfold read
  rw [← same.locate_eq]
  cases located : w.locate p with
  | error f => rfl
  | ok place =>
    have other : place ≠ names := by
      rintro rfl
      exact elsewhere located
    simp only [bind, Except.bind]
    rcases same.entry? place with equal | ⟨f, f', some, some', bytes⟩
    · rw [equal]
    · simp only [some, some', bytes other]

end SameBut

end Workspace

/-! ## Project configurations -/

namespace Project

def configFile? (w : Workspace) (directory : Path) : Option Path :=
  (directory.ancestors.flatMap fun d => configNames.map fun n => d.join (.ofText n)).find? w.isFile

/-- To load a configuration, with so many extensions, the file `names` is read. -/
inductive Rests (w : Workspace) (names : List String) : Nat → Path → Prop where
  | own {hops p} : w.locate p = .ok names → Rests w names hops p
  | extended {hops p text settings e} : w.read p = .ok text → Settings.ofText text = .ok settings →
      settings.extended = some e → isRelative e →
      Rests w names hops (extendedPath (p.parent?.getD (.ofText ".")) e) → Rests w names (hops + 1) p

/-- To look up a module name, a configuration is loaded and the file `names` is read for it. -/
def Lookup.Consults (l : Lookup) (w : Workspace) (names : List String) (importer : Path)
    (specifier : String) : Prop :=
  l = .nearest ∧ ¬ (isRelative specifier || (Path.ofText specifier).isAbsolute) ∧
    ∃ p, configFile? w (importer.parent?.getD (.ofText ".")) = some p ∧ Rests w names maxExtensions p

theorem discover_eq_bind (w : Workspace) (directory : Path) :
    discover w directory = (configFile? w directory).bind fun p => (load w p).toOption := by
  unfold discover configFile?
  dsimp only
  split
  · rename_i p found
    rw [found, Option.bind_some]
  · rename_i missing
    rw [missing, Option.bind_none]

section SameBut

variable {names : List String} {w w' : Workspace} (same : w.SameBut names w')

include same

theorem loadWith_eq {extended? extended?' : Path → Option Config} {p : Path}
    (elsewhere : w.locate p ≠ .ok names)
    (further : ∀ text settings e, w.read p = .ok text → Settings.ofText text = .ok settings →
      settings.extended = some e → isRelative e →
      extended? (extendedPath (p.parent?.getD (.ofText ".")) e) =
        extended?' (extendedPath (p.parent?.getD (.ofText ".")) e)) :
    loadWith w extended? p = loadWith w' extended?' p := by
  unfold loadWith
  rw [← same.read_eq elsewhere]
  cases text : w.read p with
  | error f => simp only [Except.mapError, bind, Except.bind]
  | ok content =>
    simp only [Except.mapError, bind, Except.bind]
    cases settings : Settings.ofText content with
    | error f => simp only
    | ok s =>
      -- the settings are the same, so they extend the same file if any
      have parents : ((s.extended.filter isRelative).bind fun e =>
            extended? (extendedPath (p.parent?.getD (.ofText ".")) e)) =
          (s.extended.filter isRelative).bind fun e =>
            extended?' (extendedPath (p.parent?.getD (.ofText ".")) e) := by
        cases kept : s.extended.filter isRelative with
        | none => rfl
        | some e =>
          obtain ⟨written, relative⟩ := Option.filter_eq_some_iff.mp kept
          exact further content s e text settings written relative
      simp only [parents]

theorem loadUpTo_eq {hops : Nat} {p : Path} (free : ¬ Rests w names hops p) :
    loadUpTo w hops p = loadUpTo w' hops p := by
  induction hops generalizing p with
  | zero => exact loadWith_eq same (fun located => free (.own located)) fun _ _ _ _ _ _ _ => rfl
  | succ hops ih =>
    refine loadWith_eq same (fun located => free (.own located)) ?_
    intro text settings e read parsed written relative
    rw [ih fun rests => free (.extended read parsed written relative rests)]

theorem discover_eq {directory : Path}
    (free : ∀ p, configFile? w directory = some p → ¬ Rests w names maxExtensions p) :
    discover w directory = discover w' directory := by
  have files : configFile? w directory = configFile? w' directory := by
    rw [configFile?, configFile?, funext same.isFile_eq]
  rw [discover_eq_bind, discover_eq_bind, ← files]
  cases found : configFile? w directory with
  | none => rw [Option.bind_none, Option.bind_none]
  | some p =>
    have loaded : load w p = load w' p := by
      rw [load, load, loadUpTo_eq same (free p found)]
    rw [Option.bind_some, Option.bind_some, loaded]

theorem lookup_locate?_eq {l : Lookup} {importer : Path} {specifier : String}
    (free : ¬ l.Consults w names importer specifier) :
    l.locate? w importer specifier = l.locate? w' importer specifier := by
  have first : firstFile? w = firstFile? w' := by
    funext base
    rw [firstFile?, firstFile?, funext same.isFile_eq]
  have located : ∀ c : Config, c.locate? w specifier = c.locate? w' specifier := by
    intro c
    rw [Config.locate?, Config.locate?, first]
  unfold Lookup.locate?
  dsimp only
  split
  · rw [first]
  · rename_i bare
    cases l with
    -- only this way of looking up reads a configuration
    | nearest =>
      have discovered := discover_eq same fun p found rests => free ⟨rfl, bare, p, found, rests⟩
      simp only [discovered, located]
    | fixed c => exact located c
    | relativeOnly => rfl

end SameBut

end Project

/-! ## Codebases that differ in one file -/

theorem parse_eq {names : List String} {w w' : Workspace} (same : w.SameBut names w') (p : Path)
    (text : String) : Source.parse w p text = Source.parse w' p text := by
  rw [Source.parse, Source.parse, same.canonicalOrSame_eq]

theorem load_eq {names : List String} {w w' : Workspace} (same : w.SameBut names w') {p : Path}
    (elsewhere : w.locate p ≠ .ok names) : Source.load w p = Source.load w' p := by
  have parses : Source.parse w p = Source.parse w' p := funext (parse_eq same p)
  rw [Source.load, Source.load, same.read_eq elsewhere, parses]

theorem path_of_load {w : Workspace} {p : Path} {s : Source} (loaded : Source.load w p = .ok s) :
    s.path = w.canonicalOrSame p := by
  unfold Source.load at loaded
  cases text : w.read p with
  | error f =>
    rw [text] at loaded
    cases loaded
  | ok content =>
    rw [text] at loaded
    have parsed : Source.parse w p content = .ok s := loaded
    unfold Source.parse at parsed
    split at parsed
    · cases parsed
      rfl
    · cases parsed

/-- What is loaded from the file `names` has its path. -/
theorem filter_load_eq_none {names : List String} (named : names ≠ []) {w : Workspace} {p : Path}
    (located : w.locate p = .ok names) :
    (Source.load w p).toOption.filter (fun s => s.path.pieces ≠ "" :: names) = none := by
  rw [Option.filter_eq_none_iff]
  intro s loaded
  have path : w.canonicalOrSame p = ⟨"" :: names⟩ := by
    cases names with
    | nil => exact absurd rfl named
    | cons first rest =>
      rw [Workspace.canonicalOrSame, Workspace.canonical?, located]
      rfl
  cases result : Source.load w p with
  | error f =>
    rw [result] at loaded
    cases loaded
  | ok s' =>
    rw [result] at loaded
    cases loaded
    simp [path_of_load result, path]

namespace Codebase

/-- The codebases have the same sources but for those of the file `names`, and look them up alike. -/
structure SameBut (names : List String) (c c' : Codebase) : Prop where
  workspace : c.workspace.SameBut names c'.workspace
  sources : (c.sources.filter fun s => s.path.pieces ≠ "" :: names) =
    c'.sources.filter fun s => s.path.pieces ≠ "" :: names
  lookup : c.lookup = c'.lookup
  hops : c.hops = c'.hops

def Names (c : Codebase) (s t : Source) : Prop :=
  ∃ specifier ∈ s.specifiers, c.module? s specifier = some t

/-- No chain of imports and exports from the source `s` leads to the file `names`, and no configuration
on the way is read from it. -/
def Avoids (c : Codebase) (names : List String) (s : Source) : Prop :=
  ∀ t, Relation.ReflTransGen c.Names s t → ∀ specifier ∈ t.specifiers,
    ¬ c.lookup.Consults c.workspace names t.path specifier ∧
    ∀ p, c.lookup.locate? c.workspace t.path specifier = some p → c.workspace.locate p ≠ .ok names

section SameBut

variable {names : List String} {c c' : Codebase} (same : c.SameBut names c')

include same

theorem SameBut.source?_eq {p : Path} (elsewhere : c.workspace.locate p ≠ .ok names) :
    c.source? p = c'.source? p := by
  unfold source?
  rw [← same.workspace.locate_eq]
  cases located : c.workspace.locate p with
  | error f => rfl
  | ok place =>
    have other : place ≠ names := by
      rintro rfl
      exact elsewhere located
    -- a source at another place is not filtered out
    have kept : ∀ sources : List Source,
        (sources.filter fun s => s.path.pieces ≠ "" :: names).find? (fun s => s.path.pieces = "" :: place) =
          sources.find? fun s => s.path.pieces = "" :: place := by
      intro sources
      refine find?_filter_of_kept fun s found => ?_
      have here : s.path.pieces = "" :: place := by simpa using List.find?_some found
      simpa [here] using other
    simp only
    rw [← kept c.sources, same.sources, kept c'.sources]

theorem SameBut.module?_eq {s : Source} {specifier : String}
    (free : ¬ c.lookup.Consults c.workspace names s.path specifier)
    (elsewhere : ∀ p, c.lookup.locate? c.workspace s.path specifier = some p →
      c.workspace.locate p ≠ .ok names) : c.module? s specifier = c'.module? s specifier := by
  unfold module?
  rw [← same.lookup, ← Project.lookup_locate?_eq same.workspace free]
  cases located : c.lookup.locate? c.workspace s.path specifier with
  | none => rfl
  | some p => exact same.source?_eq (elsewhere p located)

theorem SameBut.agreeOn {s : Source} (avoids : c.Avoids names s) :
    c.AgreeOn (Relation.ReflTransGen c.Names s) c' := by
  refine ⟨same.hops, fun t chain specifier named => ?_, fun t chain specifier named u found => ?_⟩
  · obtain ⟨free, elsewhere⟩ := avoids t chain specifier named
    exact same.module?_eq free elsewhere
  · exact chain.tail ⟨specifier, named, found⟩

end SameBut

/-- Reading a workspace again after one file has changed changes only the sources of that file. -/
theorem sameBut_ofWorkspace {names : List String} {w w' : Workspace} (same : w.SameBut names w')
    (lookup : Project.Lookup) (hops : Nat) :
    (ofWorkspace w lookup hops).SameBut names (ofWorkspace w' lookup hops) := by
  refine ⟨same, ?_, rfl, rfl⟩
  have each : ∀ n : List String,
      (Source.load w ⟨"" :: n⟩).toOption.filter (fun s => s.path.pieces ≠ "" :: names) =
        (Source.load w' ⟨"" :: n⟩).toOption.filter fun s => s.path.pieces ≠ "" :: names := by
    intro n
    -- what comes from the one file is filtered out, and all else is read alike
    by_cases here : w.locate ⟨"" :: n⟩ = .ok names
    · rw [filter_load_eq_none same.named here, filter_load_eq_none same.named (same.locate_eq _ ▸ here)]
    · rw [load_eq same here]
  have mapped : ∀ w : Workspace, (ofWorkspace w lookup hops).sources.filter
        (fun s => s.path.pieces ≠ "" :: names) =
      (w.files.map File.names).filterMap fun n =>
        (Source.load w ⟨"" :: n⟩).toOption.filter fun s => s.path.pieces ≠ "" :: names := by
    intro w
    rw [ofWorkspace, List.filter_filterMap, List.filterMap_map]
    rfl
  rw [mapped, mapped, same.map_names]
  exact List.filterMap_congr fun n _ => each n

end Codebase

/-! ## Resolving what is being edited -/

namespace Resolver

variable {σ : Type} {names : List String}

theorem resolveText_eq {r : Resolver σ} {c' : Codebase} (same : r.codebase.SameBut names c')
    (silent : r.oracle = none) {p : Path} {text : String}
    (avoids : ∀ s, Source.parse r.codebase.workspace p text = .ok s → r.codebase.Avoids names s) :
    r.resolveText p text = Resolver.resolveText { r with codebase := c' } p text := by
  unfold resolveText
  simp only [← parse_eq same.workspace]
  cases parsed : Source.parse r.codebase.workspace p text with
  | error f => rfl
  | ok s => simp only [resolveSource_agree silent (same.agreeOn (avoids s parsed)) .refl]

/-- **The copy on disk is not seen unless a chain of imports leads to it.**  Without an oracle, a source from
which no chain of imports and exports leads to a file is resolved alike in two codebases that differ only in
that file.  So a text at any path, that of the file included, is resolved alike in two workspaces that
differ only in the text of the file. -/
theorem stale_copy_unseen (r : Resolver σ) (silent : r.oracle = none) :
    (∀ c', r.codebase.SameBut names c' → ∀ s, r.codebase.Avoids names s →
      r.resolveSource s = Resolver.resolveSource { r with codebase := c' } s) ∧
    ∀ w w' lookup hops, w.SameBut names w' → ∀ p text,
      (∀ s, Source.parse w p text = .ok s → (Codebase.ofWorkspace w lookup hops).Avoids names s) →
        Resolver.resolveText { r with codebase := .ofWorkspace w lookup hops } p text =
          Resolver.resolveText { r with codebase := .ofWorkspace w' lookup hops } p text := by
  refine ⟨fun c' same s avoids => resolveSource_agree silent (same.agreeOn avoids) .refl, ?_⟩
  intro w w' lookup hops alike p text avoids
  let r₁ : Resolver σ := { r with codebase := .ofWorkspace w lookup hops }
  have same₁ : r₁.codebase.SameBut names (.ofWorkspace w' lookup hops) :=
    Codebase.sameBut_ofWorkspace alike lookup hops
  exact resolveText_eq same₁ silent avoids

end Resolver

namespace Edited

open Syntax

def importStatement : Tree :=
  .node .importStatement none 0 24
    [.node (.token "import") none 0 6 [],
      .node .importClause none 7 12
        [.node .namedImports none 7 12
          [.node (.token "\x7b") none 7 8 [],
            .node .importSpecifier none 9 10 [.node .identifier (some .name) 9 10 []],
            .node (.token "\x7d") none 11 12 []]],
      .node (.token "from") none 13 17 [], Barrel.literal .source 18 5,
      .node (.token ";") none 23 24 []]

def exported (start : Nat) : Tree :=
  .node .exportStatement none start (start + 23)
    [.node (.token "export") none start (start + 6) [],
      Barrel.constant (some .declaration) (start + 7) 5]

def buffer : Source where
  path := ⟨["", "a.ts"]⟩
  language := .typescript
  text := "import \x7b X \x7d from './b';\nexport const Y = 'new';\n`$\x7bX\x7d`;"
  tree := .node .program none 0 56
    [importStatement, exported 25, Sample.templateStatement 49 55 [Sample.substitution 50]]

def copy (value : String) : Source where
  path := ⟨["", "a.ts"]⟩
  language := .typescript
  text := "export const Y = '" ++ value ++ "';"
  tree := .node .program none 0 23 [exported 0]

def back : Source where
  path := ⟨["", "b.ts"]⟩
  language := .typescript
  text := "import \x7b Y \x7d from './a';\nexport const X = Y;"
  tree := .node .program none 0 44
    [importStatement, .node .exportStatement none 25 44
      [.node (.token "export") none 25 31 [],
        .node .lexicalDeclaration (some .declaration) 32 44
          [.node (.token "const") (some .kind) 32 37 [],
            .node .variableDeclarator none 38 43
              [.node .identifier (some .name) 38 39 [], .node (.token "=") none 40 41 [],
                .node .identifier (some .value) 42 43 []],
            .node (.token ";") none 43 44 []]]]

def codebase (value : String) (other : Source) : Codebase where
  workspace := ⟨[copy value, other].map fun s => ⟨s.path.pieces.drop 1, s.text.toUTF8⟩, []⟩
  sources := [copy value, other]
  lookup := .relativeOnly
  hops := 8

theorem sameBut (value value' : String) (other : Source) :
    (codebase value other).SameBut ["a.ts"] (codebase value' other) := by
  refine ⟨⟨by decide, ?_, rfl⟩, ?_, rfl, rfl⟩
  · exact .cons ⟨rfl, fun other => absurd rfl other⟩ (.cons ⟨rfl, fun _ => rfl⟩ .nil)
  · simp [codebase, copy]

theorem specifiers_buffer : buffer.specifiers = ["./b"] := by decide +kernel

theorem specifiers_real : Barrel.real.specifiers = [] := by decide +kernel

theorem located_real : (codebase "old" Barrel.real).lookup.locate?
    (codebase "old" Barrel.real).workspace buffer.path "./b" = some ⟨["", "b.ts"]⟩ := by
  decide +kernel

theorem module_real : (codebase "old" Barrel.real).module? buffer "./b" = some Barrel.real := by
  rw [Codebase.module?, located_real]
  rfl

/-- With a module that exports a constant of its own, nothing leads back to the file. -/
theorem reached_buffer {t : Source}
    (chain : Relation.ReflTransGen (codebase "old" Barrel.real).Names buffer t) :
    t = buffer ∨ t = Barrel.real := by
  induction chain with
  | refl => exact .inl rfl
  | tail _ step ih =>
    obtain ⟨specifier, named, found⟩ := step
    rcases ih with rfl | rfl
    · rw [specifiers_buffer, List.mem_singleton] at named
      rw [named, module_real] at found
      cases found
      exact .inr rfl
    · rw [specifiers_real] at named
      cases named

theorem avoids_buffer : (codebase "old" Barrel.real).Avoids ["a.ts"] buffer := by
  intro t chain specifier named
  rcases reached_buffer chain with rfl | rfl
  · rw [specifiers_buffer, List.mem_singleton] at named
    subst named
    refine ⟨fun consults => absurd consults.1 (by decide), fun p located => ?_⟩
    rw [located_real] at located
    cases located
    have place : (codebase "old" Barrel.real).workspace.locate ⟨["", "b.ts"]⟩ = .ok ["b.ts"] := rfl
    rw [place]
    simp
  · rw [specifiers_real] at named
    cases named

def resolver (value : String) (other : Source) : Resolver Unit :=
  ⟨codebase value other, {}, none, fun _ => false⟩

def shown (value : String) (other : Source) : Option (List (List String)) :=
  ((resolver value other).resolveSource buffer ()).1.map (List.map Template.Resolution.combinations)

end Edited

/-- Where the other module has an export of its own, the copy on disk does not count. -/
theorem buffer_resolved_alike :
    (Edited.codebase "old" Barrel.real).SameBut ["a.ts"] (Edited.codebase "new" Barrel.real) ∧
      (Edited.codebase "old" Barrel.real).Avoids ["a.ts"] Edited.buffer ∧
      Edited.shown "old" Barrel.real = some [["real"]] ∧
      (Edited.resolver "old" Barrel.real).resolveSource Edited.buffer =
        (Edited.resolver "new" Barrel.real).resolveSource Edited.buffer := by
  have same := Edited.sameBut "old" "new" Barrel.real
  have avoids := Edited.avoids_buffer
  refine ⟨same, avoids, by decide +kernel, ?_⟩
  exact (Resolver.stale_copy_unseen (Edited.resolver "old" Barrel.real) rfl).1 _ same Edited.buffer avoids

/-- Where the other module leads back to the file, the buffer shows what the copy on disk has, although it
has a value of its own for it. -/
theorem stale_copy_seen :
    (Edited.codebase "old" Edited.back).SameBut ["a.ts"] (Edited.codebase "new" Edited.back) ∧
      Edited.shown "old" Edited.back = some [["old"]] ∧ Edited.shown "new" Edited.back = some [["new"]] :=
  ⟨Edited.sameBut .., by decide +kernel, by decide +kernel⟩

end TemplateValues
