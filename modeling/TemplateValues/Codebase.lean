import TemplateValues.Project.Modules
import TemplateValues.Source.Binding

/-!
# Codebases

A codebase is what names are followed through: the sources of a workspace, and where module names are
looked up.

An exported name is followed from module to module.  One *step* goes from a module and a name to a
module and a name that may provide it.  Following looks for an export in the module itself, then
takes the steps in order, each with one hop less, and only then falls back to a declaration that is
not exported.
-/

namespace TemplateValues

/-- The sources of a workspace, and how modules are found. -/
structure Codebase where
  workspace : Workspace
  /-- The files of the workspace that are sources. -/
  sources : List Source
  lookup : Project.Lookup
  /-- The number of steps taken at most to find an export. -/
  hops : Nat

namespace Codebase

def ofWorkspace (w : Workspace) (lookup : Project.Lookup) (hops : Nat) : Codebase where
  workspace := w
  sources := w.files.filterMap fun f => (Source.load w ⟨"" :: f.names⟩).toOption
  lookup := lookup
  hops := hops

variable (c : Codebase)

def source? (p : Path) : Option Source :=
  match c.workspace.locate p with
  | .ok names => c.sources.find? fun s => s.path.pieces = "" :: names
  | .error _ => none

def module? (s : Source) (specifier : String) : Option Source :=
  (c.lookup.locate? c.workspace s.path specifier).bind c.source?

/-- The module and the export that an import of a name means.  A namespace means no export. -/
def importStep? (s : Source) (name : String) : Option (Source × String) :=
  match s.import? name with
  | some i =>
    if i.form = .asNamespace then none else (c.module? s i.specifier).map fun t => (t, i.imported)
  | none => none

def namespaceModule? (s : Source) (root : String) : Option Source :=
  ((s.import? root).filter fun i => i.form = .asNamespace).bind fun i => c.module? s i.specifier

/-- The modules and names that may provide an export: an import that is exported again, then the
re-exports. -/
def steps (s : Source) (name : String) : List (Source × String) :=
  ((s.localExport? name).bind (c.importStep? s)).toList ++
    (s.reexports name).filterMap fun r => (c.module? s r.specifier).map fun t => (t, r.imported)

/-! ## Going on with what is found -/

section Onward

variable {M : Type → Type} [Monad M] {α β : Type}

/-- What is to be done with a declaration once it is found. -/
abbrev Onward (M : Type → Type) (α : Type) := Source → Declaration → M α

/-- Tries one thing after the other until one of them goes on.  What does not go on hands `onward`
back, for the next one to take. -/
def tryEach (attempt : β → Onward M α → M (Except (Onward M α) α)) :
    List β → Onward M α → M (Except (Onward M α) α)
  | [], onward => return .error onward
  | x :: xs, onward => do
    match ← attempt x onward with
    | .ok result => return .ok result
    | .error onward => tryEach attempt xs onward

/-- Goes on with a declaration of the source itself, exported or not, if nothing has gone on yet. -/
def elseOwn (s : Source) (name : String) (space : Space) :
    Except (Onward M α) α → M (Except (Onward M α) α)
  | .ok result => return .ok result
  | .error onward =>
    match s.find? name space with
    | some d => .ok <$> onward s d
    | none => return .error onward

/-- Goes on with the declaration behind an exported name, at most `hops` steps away.  If there is none,
`onward` is handed back. -/
def followThen (space : Space) : (hops : Nat) → Source → String → Onward M α →
    M (Except (Onward M α) α)
  | hops, s, name, onward =>
    match s.exported? name space with
    | some d => .ok <$> onward s d
    | none =>
      -- what another module exports comes before a declaration that is not exported
      let further := match hops with
        | 0 => pure (.error onward)
        | hops + 1 =>
          tryEach (fun step => followThen space hops step.1 step.2) (c.steps s name) onward
      further >>= elseOwn s name space

def importedThen (s : Source) (name : String) (space : Space) (onward : Onward M α) : M (Option α) :=
  match c.importStep? s name with
  | some (t, n) => Except.toOption <$> c.followThen space c.hops t n onward
  | none => return none

def declaredThen (s : Source) (name : String) (space : Space) (onward : Onward M α) : M (Option α) :=
  match s.find? name space with
  | some d => some <$> onward s d
  | none => c.importedThen s name space onward

def namespaceMemberThen (s : Source) (root member : String) (space : Space) (onward : Onward M α) :
    M (Option α) :=
  match c.namespaceModule? s root with
  | some t => Except.toOption <$> c.followThen space c.hops t member onward
  | none => return none

end Onward

/-! ## What is found -/

def follow (space : Space) (hops : Nat) (s : Source) (name : String) : Option (Source × Declaration) :=
  Except.toOption (Id.run (c.followThen space hops s name fun t d => pure (t, d)))

def imported? (s : Source) (name : String) (space : Space) : Option (Source × Declaration) :=
  Id.run (c.importedThen s name space fun t d => pure (t, d))

def declared? (s : Source) (name : String) (space : Space) : Option (Source × Declaration) :=
  Id.run (c.declaredThen s name space fun t d => pure (t, d))

def namespaceMember? (s : Source) (root member : String) (space : Space) :
    Option (Source × Declaration) :=
  Id.run (c.namespaceMemberThen s root member space fun t d => pure (t, d))

end Codebase

end TemplateValues
