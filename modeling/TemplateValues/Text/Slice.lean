/-!
# Slices and lines

Texts are cut at byte offsets, and lines end at line feeds.
-/

namespace TemplateValues.Text

def slice (text : String) (start stop : Nat) : String := String.Pos.Raw.extract text ⟨start⟩ ⟨stop⟩

def byteCount (cs : List Char) : Nat := cs.foldl (fun n c => n + c.utf8Size) 0

/-- The line and the byte in it at which a text goes on after `offset` bytes, counted from a given
line and byte. -/
def lineColumnFrom (line column : Nat) : List Char → Nat → Nat × Nat
  | c :: cs, n =>
    if n < c.utf8Size then (line, column + n)
    else if c = '\n' then lineColumnFrom (line + 1) 0 cs (n - c.utf8Size)
    else lineColumnFrom line (column + c.utf8Size) cs (n - c.utf8Size)
  | [], n => (line, column + n)

def lineColumn (text : String) (offset : Nat) : Nat × Nat := lineColumnFrom 0 0 text.toList offset

/-- The pieces of a text between marks; there is one more than there are marks. -/
def splitAt (mark : Char) : List Char → List (List Char)
  | [] => [[]]
  | c :: cs =>
    match splitAt mark cs with
    | [] => [[c]]
    | p :: ps => if c = mark then [] :: p :: ps else (c :: p) :: ps

def chomp (line : List Char) : List Char :=
  if line.getLast? = some '\r' then line.dropLast else line

/-- The lines of a text.  What follows the last line feed is a line only if it is not empty. -/
def lines (cs : List Char) : List (List Char) :=
  let pieces := splitAt '\n' cs
  let kept := if pieces.getLast? = some [] then pieces.dropLast else pieces
  let ended := if pieces.getLast? = some [] then kept.length else kept.length - 1
  kept.zipIdx.map fun (l, i) => if i < ended then chomp l else l

/-- The number of bytes of a line without the carriage returns at its end; a line that is not there
has none. -/
def lineEnd (text : String) (line : Nat) : Nat :=
  match (lines text.toList)[line]? with
  | some l => byteCount (l.reverse.dropWhile (· = '\r'))
  | none => 0

end TemplateValues.Text
