import TemplateValues.Project.Config

/-!
# From module names to files

A module name is joined to a directory, and the first existing file among the candidates for the
joined path is the module.
-/

namespace TemplateValues.Project

def triedEndings : List String := [".ts", ".tsx", ".d.ts", ".js", ".jsx", ".mjs", ".cjs"]

/-- The extensions of paths that name a file as they stand. -/
def knownExtensions : List String := ["ts", "tsx", "mts", "cts", "js", "jsx", "mjs", "cjs", "json"]

/-- The extensions that may stand for the extension of a script. -/
def substitutes : List (String × List String) :=
  [("js", ["ts", "tsx", "d.ts"]), ("jsx", ["tsx", "ts", "d.ts"]), ("mjs", ["mts", "d.mts"]),
   ("cjs", ["cts", "d.cts"])]

/-- The files that a joined module name may stand for, in order. -/
def candidates (base : Path) : List Path :=
  let p := base.normalize
  let others := match p.extension?.filter knownExtensions.contains with
    | some e => ((substitutes.lookup e).getD []).map p.withExtension
    | none => triedEndings.map p.append ++ triedEndings.map fun e => p.join (.ofText ("index" ++ e))
  p :: others

def firstFile? (w : Workspace) (base : Path) : Option Path := (candidates base).find? w.isFile

/-- The places that a bare module name may stand for, most specific first. -/
def Config.bases (c : Config) (specifier : String) : List Path :=
  (c.aliases.flatMap fun a => (a.expand specifier).map fun t => c.pathsBase.join (.ofText t)) ++
    (c.baseUrl.map fun u => u.join (.ofText specifier)).toList

def Config.locate? (c : Config) (w : Workspace) (specifier : String) : Option Path :=
  (c.bases specifier).findSome? (firstFile? w)

inductive Lookup where
  /-- In the nearest configuration above the importing file. -/
  | nearest
  /-- In a given configuration. -/
  | fixed (config : Config)
  /-- Nowhere. -/
  | relativeOnly
deriving DecidableEq, Repr, Inhabited

def Lookup.locate? (l : Lookup) (w : Workspace) (importer : Path) (specifier : String) :
    Option Path :=
  let directory := importer.parent?.getD (.ofText ".")
  if isRelative specifier || (Path.ofText specifier).isAbsolute then
    firstFile? w (directory.join (.ofText specifier))
  else match l with
    | nearest => (discover w directory).bind fun c => c.locate? w specifier
    | fixed c => c.locate? w specifier
    | relativeOnly => none

end TemplateValues.Project
