import Mathlib.Data.List.Basic
import TemplateValues.Project.Config

/-!
# What configurations inherit

A configuration file and the files up its chain of extensions are *layers*, and loading the file merges
them from the far end on (`toOption_loadUpTo`).  What is merged so is defined by the first layer that
defines it, each setting on its own (`load_takes_first`): only the directory that the targets of aliases
are relative to is fixed where the aliases are, by the base in force there.

The chain ends at a file that extends nothing or whose extension is missing or malformed, and after four
extensions in any case, so a chain that comes round to a file again is no different from any other.
-/

namespace TemplateValues.Project

/-! ## Layers -/

/-- A configuration file that can be read, and what it says. -/
structure Layer where
  path : Path
  settings : Settings

namespace Layer

def directory (l : Layer) : Path := l.path.parent?.getD (.ofText ".")

def extended? (l : Layer) : Option Path :=
  (l.settings.extended.filter isRelative).map (extendedPath l.directory)

/-- The base directory that the layer sets, seen from its own directory. -/
def baseUrl? (l : Layer) : Option Path :=
  l.settings.options.baseUrl.map fun url => (l.directory.join (.ofText url)).normalize

def paths? (l : Layer) : Option (List (String × List String)) := l.settings.options.paths

def Stands (w : Workspace) (l : Layer) : Prop :=
  ∃ text, w.read l.path = .ok text ∧ Settings.ofText text = .ok l.settings

end Layer

/-- The layers of a chain by their number: the file itself, and from each layer the file that it extends,
as long as there are extensions left and the file stands. -/
inductive Link (w : Workspace) (limit : Nat) (p : Path) : Nat → Layer → Prop where
  | first {l} : l.path = p → l.Stands w → Link w limit p 0 l
  | next {i l l'} : Link w limit p i l → i < limit → l.extended? = some l'.path → l'.Stands w →
      Link w limit p (i + 1) l'

/-! ## One file -/

def content (w : Workspace) (p : Path) : Except LoadFault Settings := do
  let text ← (w.read p).mapError (.unreadable p)
  (Settings.ofText text).mapError (.malformed p)

def layer? (w : Workspace) (p : Path) : Option Layer := (content w p).toOption.map (Layer.mk p)

theorem content_eq_ok_iff {w : Workspace} {p : Path} {s : Settings} :
    content w p = .ok s ↔ ∃ text, w.read p = .ok text ∧ Settings.ofText text = .ok s := by
  unfold content
  cases w.read p with
  | error f => simp [Except.mapError, bind, Except.bind]
  | ok text =>
    cases settings : Settings.ofText text <;> simp [Except.mapError, bind, Except.bind, settings]

theorem content_eq_error_iff {w : Workspace} {p : Path} :
    (∃ fault, content w p = .error fault) ↔ (∃ f, w.read p = .error f) ∨
      ∃ text f, w.read p = .ok text ∧ Settings.ofText text = .error f := by
  unfold content
  cases w.read p with
  | error f => simp [Except.mapError, bind, Except.bind]
  | ok text =>
    cases settings : Settings.ofText text <;> simp [Except.mapError, bind, Except.bind, settings]

theorem layer?_eq_some_iff {w : Workspace} {p : Path} {l : Layer} :
    layer? w p = some l ↔ l.path = p ∧ l.Stands w := by
  obtain ⟨path, settings⟩ := l
  have reads : (content w p).toOption = some settings ↔ content w p = .ok settings := by
    cases content w p <;> simp [Except.toOption]
  rw [layer?, Option.map_eq_some_iff]
  constructor
  · rintro ⟨s, said, same⟩
    cases same
    exact ⟨rfl, content_eq_ok_iff.mp (reads.mp said)⟩
  · rintro ⟨rfl, stands⟩
    exact ⟨settings, reads.mpr (content_eq_ok_iff.mpr stands), rfl⟩

/-- A file is loaded by reading it and then what it extends. -/
theorem loadWith_eq_map (w : Workspace) (extended? : Path → Option Config) (p : Path) :
    loadWith w extended? p = (content w p).map fun s =>
      .ofOptions (Layer.mk p s).directory s.options ((Layer.mk p s).extended?.bind extended?) := by
  unfold loadWith content
  cases w.read p with
  | error f => rfl
  | ok text =>
    cases settings : Settings.ofText text with
    | error f => simp [Except.mapError, bind, Except.bind, Except.map, settings]
    | ok s =>
      simp only [Except.mapError, bind, Except.bind, Except.map, settings, Layer.directory,
        Layer.extended?, pure, Except.pure, Option.bind_map]
      rfl

/-! ## The chain -/

def chainUpTo (w : Workspace) : Nat → Path → List Layer
  | 0, p => (layer? w p).toList
  | n + 1, p => (layer? w p).elim [] fun l => l :: l.extended?.elim [] (chainUpTo w n)

theorem link_succ_iff {w : Workspace} {n i : Nat} {p : Path} {l : Layer} :
    Link w (n + 1) p (i + 1) l ↔
      ∃ k q, layer? w p = some k ∧ k.extended? = some q ∧ Link w n q i l := by
  constructor
  · intro link
    induction i generalizing l with
    | zero =>
      cases link with
      | @next _ k _ first _ extends' stands =>
        cases first with
        | first path stands' =>
          exact ⟨k, l.path, layer?_eq_some_iff.mpr ⟨path, stands'⟩, extends', .first rfl stands⟩
    | succ i ih =>
      cases link with
      | next before room extends' stands =>
        obtain ⟨k, q, isFirst, second, before⟩ := ih before
        exact ⟨k, q, isFirst, second, .next before (by omega) extends' stands⟩
  · rintro ⟨k, q, isFirst, second, link⟩
    obtain ⟨path, stands⟩ := layer?_eq_some_iff.mp isFirst
    induction link with
    | first path' stands' =>
      exact .next (.first path stands) (by omega) (path' ▸ second) stands'
    | next _ room extends' stands' ih => exact .next ih (by omega) extends' stands'

theorem link_zero_iff {w : Workspace} {n : Nat} {p : Path} {l : Layer} :
    Link w n p 0 l ↔ layer? w p = some l := by
  rw [layer?_eq_some_iff]
  constructor
  · intro link
    cases link with
    | first path stands => exact ⟨path, stands⟩
  · exact fun here => .first here.1 here.2

theorem getElem?_chainUpTo {w : Workspace} {n i : Nat} {p : Path} {l : Layer} :
    (chainUpTo w n p)[i]? = some l ↔ Link w n p i l := by
  induction n generalizing p i with
  | zero =>
    cases i with
    | zero => rw [link_zero_iff, chainUpTo]; cases layer? w p <;> simp
    | succ i =>
      have none : ¬ Link w 0 p (i + 1) l := by
        intro link
        cases link with
        | next _ room => omega
      rw [chainUpTo]
      cases layer? w p <;> simp [none]
  | succ n ih =>
    cases i with
    | zero => rw [link_zero_iff, chainUpTo]; cases layer? w p <;> simp
    | succ i =>
      rw [link_succ_iff, chainUpTo]
      cases layer? w p with
      | none => simp
      | some k => cases second : k.extended? <;> simp [second, ih]

/-! ## The files that are read -/

/-- The files read to load a configuration: the file itself, and what each layer extends. -/
def readsUpTo (w : Workspace) : Nat → Path → List Path
  | 0, p => [p]
  | n + 1, p => p :: ((layer? w p).bind Layer.extended?).elim [] (readsUpTo w n)

theorem length_readsUpTo_le (w : Workspace) (n : Nat) (p : Path) :
    (readsUpTo w n p).length ≤ n + 1 := by
  induction n generalizing p with
  | zero => simp [readsUpTo]
  | succ n ih =>
    rw [readsUpTo]
    cases (layer? w p).bind Layer.extended? with
    | none => simp
    | some q => simpa using ih q

theorem loadWith_congr {w w' : Workspace} {extended? extended?' : Path → Option Config} {p : Path}
    (same : w'.read p = w.read p)
    (further : ∀ q, (layer? w p).bind Layer.extended? = some q → extended?' q = extended? q) :
    loadWith w' extended?' p = loadWith w extended? p := by
  have content' : content w' p = content w p := by rw [content, content, same]
  rw [loadWith_eq_map, loadWith_eq_map, content']
  cases said : content w p with
  | error f => rfl
  | ok s =>
    have parent : (Layer.mk p s).extended?.bind extended?' = (Layer.mk p s).extended?.bind extended? := by
      cases second : (Layer.mk p s).extended? with
      | none => rfl
      | some q => exact further q (by simp [layer?, said, Except.toOption, second])
    simp only [Except.map, parent]

/-- A configuration depends on no file but those that are read. -/
theorem loadUpTo_congr {w w' : Workspace} {n : Nat} {p : Path}
    (same : ∀ q ∈ readsUpTo w n p, w'.read q = w.read q) : loadUpTo w' n p = loadUpTo w n p := by
  induction n generalizing p with
  | zero => exact loadWith_congr (same p (by simp [readsUpTo])) fun _ _ => rfl
  | succ n ih =>
    refine loadWith_congr (same p (by simp [readsUpTo])) fun q second => ?_
    rw [ih fun r member => same r (by simp [readsUpTo, second, member])]

/-! ## Layers merged -/

/-- The configuration that layers make up, each over those behind it. -/
def merged : List Layer → Option Config
  | [] => none
  | l :: ls => some (.ofOptions l.directory l.settings.options (merged ls))

theorem toOption_loadUpTo (w : Workspace) (n : Nat) (p : Path) :
    (loadUpTo w n p).toOption = merged (chainUpTo w n p) := by
  induction n generalizing p with
  | zero =>
    rw [loadUpTo, loadWith_eq_map, chainUpTo, layer?]
    cases content w p with
    | error f => rfl
    | ok s => simp [Except.map, Except.toOption, merged]
  | succ n ih =>
    rw [loadUpTo, loadWith_eq_map, chainUpTo, layer?]
    cases content w p with
    | error f => rfl
    | ok s =>
      cases second : (Layer.mk p s).extended? with
      | none => simp [Except.map, Except.toOption, second, merged]
      | some q => simp [Except.map, Except.toOption, second, merged, ← ih]

namespace Config

variable (directory : Path) (options : Options) (parent : Option Config)

theorem directory_ofOptions : (ofOptions directory options parent).directory = directory := by
  unfold ofOptions
  dsimp only
  split <;> rfl

theorem baseUrl_ofOptions : (ofOptions directory options parent).baseUrl =
    (options.baseUrl.map fun url => (directory.join (.ofText url)).normalize).or
      (parent.bind Config.baseUrl) := by
  unfold ofOptions
  dsimp only
  split <;> rfl

theorem aliases_ofOptions : (ofOptions directory options parent).aliases =
    ((options.paths.map arrange).or (parent.map Config.aliases)).getD [] := by
  unfold ofOptions
  dsimp only
  split <;> simp_all

variable {options}

theorem pathsBase_ofOptions {entries : List (String × List String)} (written : options.paths = some entries) :
    (ofOptions directory options parent).pathsBase =
      (ofOptions directory options parent).baseUrl.getD directory := by
  simp [ofOptions, written]

theorem pathsBase_ofOptions_of_none (unset : options.paths = none) (c : Config) :
    (ofOptions directory options (some c)).pathsBase = c.pathsBase := by
  simp [ofOptions, unset]

end Config

theorem baseUrl_merged (ls : List Layer) :
    (merged ls).bind Config.baseUrl = ls.findSome? Layer.baseUrl? := by
  induction ls with
  | nil => rfl
  | cons l ls ih =>
    rw [merged, Option.bind_some, Config.baseUrl_ofOptions, ih, List.findSome?_cons, Layer.baseUrl?]
    cases l.settings.options.baseUrl <;> rfl

theorem aliases_merged (ls : List Layer) :
    ((merged ls).map Config.aliases).getD [] = ((ls.findSome? Layer.paths?).map arrange).getD [] := by
  induction ls with
  | nil => rfl
  | cons l ls ih =>
    rw [merged, Option.map_some, Option.getD_some, Config.aliases_ofOptions, List.findSome?_cons,
      Layer.paths?]
    cases l.settings.options.paths with
    | none => simpa using ih
    | some entries => rfl

/-- The targets of aliases are relative to the base in force where the aliases are defined. -/
theorem pathsBase_merged {before after : List Layer} {l : Layer}
    (undefined : ∀ k ∈ before, k.paths? = none) (defined : l.paths? ≠ none) :
    (merged (before ++ l :: after)).map Config.pathsBase =
      some (((l :: after).findSome? Layer.baseUrl?).getD l.directory) := by
  induction before with
  | nil =>
    obtain ⟨entries, written⟩ := Option.ne_none_iff_exists'.mp defined
    rw [List.nil_append, ← baseUrl_merged, merged, Option.map_some, Option.bind_some,
      Config.pathsBase_ofOptions _ _ written]
  | cons k before ih =>
    rw [List.forall_mem_cons] at undefined
    obtain ⟨c, isMerged, base⟩ := Option.map_eq_some_iff.mp (ih undefined.2)
    rw [List.cons_append, merged, isMerged, Option.map_some,
      Config.pathsBase_ofOptions_of_none _ undefined.1, base]

/-! ## The main statement -/

/-- **The first definition up the chain counts.**  The answer depends on at most five files: the file
itself, and four that are read as extensions of one another.  There is a configuration if and only if the
file itself can be read and is well formed.  Its base is that of the first layer that sets one, and its
aliases are those of the first layer that sets some; their targets are relative to the base that is set
there or further up the chain, or to the directory of that layer. -/
theorem load_takes_first (w : Workspace) (p : Path) :
    ∃ (reads : List Path) (chain : List Layer),
      reads.length ≤ 5 ∧
      (∀ w' : Workspace, (∀ q ∈ reads, w'.read q = w.read q) → load w' p = load w p) ∧
      (∀ i l, chain[i]? = some l ↔ Link w 4 p i l) ∧
      ((∃ fault, load w p = .error fault) ↔ (∃ f, w.read p = .error f) ∨
        ∃ text f, w.read p = .ok text ∧ Settings.ofText text = .error f) ∧
      ∀ c, load w p = .ok c →
        c.directory = p.parent?.getD (.ofText ".") ∧
        c.baseUrl = chain.findSome? Layer.baseUrl? ∧
        c.aliases = ((chain.findSome? Layer.paths?).map arrange).getD [] ∧
        ∀ before l after, chain = before ++ l :: after → (∀ k ∈ before, k.paths? = none) →
          l.paths? ≠ none →
          c.pathsBase = ((l :: after).findSome? Layer.baseUrl?).getD l.directory := by
  have loads : load w p = (content w p).map fun s => .ofOptions (Layer.mk p s).directory s.options
      ((Layer.mk p s).extended?.bind fun q => (loadUpTo w 3 q).toOption) := by
    rw [load, maxExtensions, loadUpTo, loadWith_eq_map]
  refine ⟨readsUpTo w 4 p, chainUpTo w 4 p, length_readsUpTo_le w 4 p,
    fun w' same => loadUpTo_congr same, fun i l => getElem?_chainUpTo, ?_, fun c loaded => ?_⟩
  · rw [← content_eq_error_iff, loads]
    cases content w p <;> simp [Except.map]
  · have whole : merged (chainUpTo w 4 p) = some c := by
      rw [← toOption_loadUpTo]
      exact congrArg Except.toOption loaded
    refine ⟨?_, ?_, ?_, fun before l after split undefined defined => ?_⟩
    · rw [loads] at loaded
      cases said : content w p with
      | error f => simp [said, Except.map] at loaded
      | ok s =>
        rw [said] at loaded
        rw [← Except.ok.inj loaded, Config.directory_ofOptions]
        rfl
    · rw [← baseUrl_merged, whole, Option.bind_some]
    · rw [← aliases_merged, whole, Option.map_some, Option.getD_some]
    · have base : (merged (before ++ l :: after)).map Config.pathsBase = _ :=
        pathsBase_merged undefined defined
      rw [← split, whole] at base
      exact Option.some.inj base

def Sample.mutual : Workspace :=
  ⟨[⟨["p", "a.json"], "\x7b\"extends\":\"./b\",\"compilerOptions\":\x7b\"paths\":\x7b\"@/*\":[\"s/*\"]\x7d\x7d\x7d".toUTF8⟩,
    ⟨["p", "b.json"], "\x7b\"extends\":\"./a.json\",\"compilerOptions\":\x7b\"baseUrl\":\"..\"\x7d\x7d".toUTF8⟩], []⟩

/-- The aliases are set by the first file, and the base that their targets are seen from by the second. -/
theorem mutual_extension_loaded :
    ∃ reads : List Path, reads.length ≤ 5 ∧
      ∀ w : Workspace, (∀ q ∈ reads, w.read q = Sample.mutual.read q) →
        load w (.ofText "/p/a.json") =
          .ok ⟨.ofText "/p", some (.ofText "/"), .ofText "/", [⟨"@/*", ["s/*"]⟩]⟩ := by
  obtain ⟨reads, chain, few, local', -⟩ := load_takes_first Sample.mutual (.ofText "/p/a.json")
  refine ⟨reads, few, fun w same => (local' w same).trans ?_⟩
  decide +kernel

end TemplateValues.Project
