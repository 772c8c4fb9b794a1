import TemplateValues.Path.Lexical

/-!
# Workspaces

A workspace is a finite tree of files without links.  A directory exists when a file lies below it or
when it is listed; looking up a path goes from directory to directory and fails at the first step
that does not exist or is no directory.
-/

namespace TemplateValues

/-- A file: the names that lead to it from the root directory, and its bytes. -/
structure File where
  names : List String
  bytes : ByteArray

structure Workspace where
  files : List File
  /-- Directories that exist also when no file lies below them. -/
  directories : List (List String) := []

inductive FileFault where
  | notFound
  | notDirectory
  | isDirectory
  /-- The bytes of the file are no text. -/
  | notText
deriving DecidableEq, Repr, Inhabited

def FileFault.message : FileFault → String
  | notFound => "No such file or directory (os error 2)"
  | notDirectory => "Not a directory (os error 20)"
  | isDirectory => "Is a directory (os error 21)"
  | notText => "stream did not contain valid UTF-8"

inductive Entry where
  | file (f : File)
  | directory

namespace Workspace

variable (w : Workspace)

def entry? (names : List String) : Option Entry :=
  match w.files.find? fun f => f.names = names with
  | some f => some (.file f)
  | none =>
    if names.isEmpty || w.directories.contains names ||
        w.files.any fun f => names.isPrefixOf f.names then
      some .directory
    else none

/-- One step from the place that `names` lead to, which must be a directory. -/
def step (names : List String) (piece : String) : Except FileFault (List String) :=
  match w.entry? names with
  | none => .error .notFound
  | some (.file _) => .error .notDirectory
  | some .directory =>
    if piece = "" || piece = "." then .ok names
    else if piece = ".." then .ok names.dropLast
    else
      let next := names ++ [piece]
      if (w.entry? next).isSome then .ok next else .error .notFound

/-- The names that lead to where an absolute path leads. -/
def locate (p : Path) : Except FileFault (List String) :=
  if p.isAbsolute then (p.pieces.drop 1).foldlM w.step [] else .error .notFound

def isFile (p : Path) : Bool :=
  match w.locate p with
  | .ok names => match w.entry? names with
    | some (.file _) => true
    | _ => false
  | .error _ => false

/-- The path without detours to what `p` leads to, if that exists. -/
def canonical? (p : Path) : Option Path :=
  match w.locate p with
  | .ok [] => some ⟨["", ""]⟩
  | .ok names => some ⟨"" :: names⟩
  | .error _ => none

def canonicalOrSame (p : Path) : Path := (w.canonical? p).getD p

def read (p : Path) : Except FileFault String := do
  let names ← w.locate p
  match w.entry? names with
  | some (.file f) =>
    match String.fromUTF8? f.bytes with
    | some text => .ok text
    | none => .error .notText
  | some .directory => .error .isDirectory
  | none => .error .notFound

/-- The text of `p` relative to the directory `base`; where both exist, detours do not count. -/
def relativeText? (p base : Path) : Except (Path × Path) String :=
  let (q, b) := match w.canonical? p, w.canonical? base with
    | some q, some b => (q, b)
    | _, _ => (p, base)
  match Path.strip? b q with
  | some r => .ok r.text
  | none => .error (q, b)

end Workspace

def outsideMessage (p base : Path) : String :=
  "File path '" ++ p.text ++ "' is not within workspace root '" ++ base.text ++ "'"

end TemplateValues
