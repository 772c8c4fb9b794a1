import TemplateValues.Text.Slice

/-!
# Paths

A path is the list of the pieces of its text between slashes, so nothing of the text is lost: `/a//b/`
is `["", "a", "", "b", ""]`.  Its *components* are what the pieces mean; empty pieces and dots that
change nothing are not components.
-/

namespace TemplateValues

/-- A path, as the pieces of its text between slashes. -/
structure Path where
  pieces : List String
deriving DecidableEq, Repr, Inhabited

inductive Component where
  /-- The root directory. -/
  | root
  /-- The directory itself, at the start of a relative path. -/
  | here
  /-- The directory above. -/
  | up
  /-- An entry of the directory. -/
  | name (text : String)
deriving DecidableEq, Repr, Inhabited

namespace Path

def ofText (text : String) : Path := ⟨(Text.splitAt '/' text.toList).map String.ofList⟩

def text (p : Path) : String := "/".intercalate p.pieces

def isAbsolute (p : Path) : Bool :=
  match p.pieces with
  -- one empty piece alone is the empty path
  | "" :: _ :: _ => true
  | _ => false

/-- What a piece that is not the first means. -/
def component? (piece : String) : Option Component :=
  if piece = "" || piece = "." then none
  else if piece = ".." then some .up
  else some (.name piece)

def components (p : Path) : List Component :=
  match p.pieces with
  | "" :: q :: ps => .root :: (q :: ps).filterMap component?
  | "." :: ps => .here :: ps.filterMap component?
  | ps => ps.filterMap component?

def same (p q : Path) : Bool := p.components = q.components

/-- Pieces without the ones at the end that mean nothing. -/
def trimPieces (ps : List String) : List String :=
  (ps.reverse.dropWhile fun s => s = "" || s = ".").reverse

/-- The pieces before the steps proper of a path, and the pieces of those steps. -/
def split (p : Path) : List String × List String :=
  match p.pieces with
  | "" :: q :: ps => ([""], q :: ps)
  | "." :: ps => (["."], ps)
  | ps => ([], ps)

def unsplit (head body : List String) : Path :=
  match head, body with
  -- the root and the empty path need an empty piece more
  | [""], [] => ⟨["", ""]⟩
  | [], [] => ⟨[""]⟩
  | head, body => ⟨head ++ body⟩

/-- The path without its last step; there is none for an empty path and for the root. -/
def parent? (p : Path) : Option Path :=
  let (head, body) := p.split
  match trimPieces body with
  -- the path `.` has a step of its own, and above it is the empty path
  | [] => if head = ["."] then some ⟨[""]⟩ else none
  | body => some (unsplit head (trimPieces body.dropLast))

def ancestorsUpTo : Nat → Path → List Path
  | 0, _ => []
  | n + 1, p => p :: (p.parent?.map (ancestorsUpTo n)).getD []

/-- The path and the paths above it, the nearest first. -/
def ancestors (p : Path) : List Path := ancestorsUpTo (p.pieces.length + 2) p

def join (p q : Path) : Path :=
  if q.isAbsolute then q
  else if p.pieces = [""] then q
  else if p.pieces.getLast? = some "" then ⟨p.pieces.dropLast ++ q.pieces⟩
  else ⟨p.pieces ++ q.pieces⟩

def fileName? (p : Path) : Option String :=
  match p.components.getLast? with
  | some (.name n) => some n
  | _ => none

/-- A file name cut at its last dot, if there is one after the first character. -/
def cutAtDot (name : List Char) : Option (List Char × List Char) :=
  let after := (name.reverse.takeWhile (· ≠ '.')).reverse
  let before := (name.take (name.length - after.length)).dropLast
  if after.length < name.length && !before.isEmpty then some (before, after) else none

def extension? (p : Path) : Option String :=
  p.fileName?.bind fun n => (cutAtDot n.toList).map fun (_, after) => String.ofList after

def mapLast (f : String → String) (p : Path) : Path :=
  match p.pieces.getLast? with
  | some last => ⟨p.pieces.dropLast ++ [f last]⟩
  | none => p

def append (p : Path) (suffix : String) : Path := p.mapLast (· ++ suffix)

/-- The path with another extension in place of the one it has.  A name of which only two dots would
be left is no name any more and gets none. -/
def withExtension (p : Path) (extension : String) : Path :=
  p.mapLast fun last =>
    match cutAtDot last.toList with
    | some (before, _) =>
      if before = ['.'] then ".." else String.ofList before ++ "." ++ extension
    | none => last ++ "." ++ extension

end Path

end TemplateValues
