import TemplateValues.Json.Clean
import TemplateValues.Json.Reader
import TemplateValues.Project.Alias
import TemplateValues.Workspace

/-!
# Project configurations

A configuration file names a base directory and path aliases for module names, and may extend
another one.  What a file does not define comes from the nearest file up the chain that does; a file
further up that cannot be read counts as missing.
-/

namespace TemplateValues.Project

/-! ## What a file says -/

structure Options where
  baseUrl : Option String := none
  paths : Option (List (String × List String)) := none
deriving DecidableEq, Repr, Inhabited

structure Settings where
  extended : Option String := none
  options : Options := {}
deriving DecidableEq, Repr, Inhabited

open Json.Reader in
def Options.fields : List (FieldReader Options) :=
  [⟨"baseUrl", fun o => return { o with baseUrl := ← nullable string }⟩,
   ⟨"paths", fun o => return { o with paths := ← nullable (object (array string)) }⟩]

open Json.Reader in
def Settings.fields : List (FieldReader Settings) :=
  [⟨"extends", fun s => return { s with extended := ← nullable string }⟩,
   ⟨"compilerOptions", fun s => return { s with options := ← record Options.fields {} }⟩]

/-- The content of a text with comments and trailing commas. -/
def Settings.ofText (text : String) : Except Json.Fault Settings :=
  Json.read (Json.Reader.record Settings.fields {}) (Json.stripCommas (Json.stripComments text))

/-! ## Configurations -/

structure Config where
  directory : Path
  baseUrl : Option Path
  /-- The directory that the targets of aliases are relative to. -/
  pathsBase : Path
  /-- Most specific first. -/
  aliases : List Alias
deriving DecidableEq, Repr, Inhabited

namespace Config

/-- The configuration of a directory, given the one it extends. -/
def ofOptions (directory : Path) (options : Options) (parent : Option Config) : Config :=
  let baseUrl := (options.baseUrl.map fun url => (directory.join (.ofText url)).normalize).or
    (parent.bind (·.baseUrl))
  -- aliases and the directory of their targets are taken over together or not at all
  match options.paths, parent with
  | some entries, _ => ⟨directory, baseUrl, baseUrl.getD directory, arrange entries⟩
  | none, some p => ⟨directory, baseUrl, p.pathsBase, p.aliases⟩
  | none, none => ⟨directory, baseUrl, directory, []⟩

/-- The configuration that a text gives to a directory; nothing is extended. -/
def ofText (directory : Path) (text : String) : Except Json.Fault Config := do
  let settings ← Settings.ofText text
  return ofOptions directory settings.options none

end Config

def isRelative (specifier : String) : Bool :=
  specifier = "." || specifier = ".." || "./".toList.isPrefixOf specifier.toList ||
    "../".toList.isPrefixOf specifier.toList

inductive LoadFault where
  | unreadable (path : Path) (fault : FileFault)
  | malformed (path : Path) (fault : Json.Fault)
deriving DecidableEq, Repr

def extendedPath (directory : Path) (extended : String) : Path :=
  let p := (directory.join (.ofText extended)).normalize
  if p.extension?.isNone then p.append ".json" else p

/-- The configuration of a file, where `extended?` loads what it extends. -/
def loadWith (w : Workspace) (extended? : Path → Option Config) (p : Path) : Except LoadFault Config := do
  let text ← (w.read p).mapError (.unreadable p)
  let directory := p.parent?.getD (.ofText ".")
  let settings ← (Settings.ofText text).mapError (.malformed p)
  -- an extended file that cannot be loaded counts for nothing
  let parent := (settings.extended.filter isRelative).bind fun e =>
    extended? (extendedPath directory e)
  return .ofOptions directory settings.options parent

def loadUpTo (w : Workspace) : (hops : Nat) → Path → Except LoadFault Config
  | 0 => loadWith w fun _ => none
  | hops + 1 => loadWith w fun p => (loadUpTo w hops p).toOption

def maxExtensions : Nat := 4

def load (w : Workspace) (p : Path) : Except LoadFault Config := loadUpTo w maxExtensions p

def configNames : List String := ["tsconfig.json", "jsconfig.json"]

/-- The configuration of the nearest file at or above a directory; one that cannot be loaded ends the
search. -/
def discover (w : Workspace) (directory : Path) : Option Config :=
  let candidates := directory.ancestors.flatMap fun d => configNames.map fun n => d.join (.ofText n)
  match candidates.find? w.isFile with
  | some p => (load w p).toOption
  | none => none

end TemplateValues.Project
