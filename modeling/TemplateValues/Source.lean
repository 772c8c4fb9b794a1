import TemplateValues.Language
import TemplateValues.Syntax.Parse
import TemplateValues.Syntax.Node
import TemplateValues.Template.Site
import TemplateValues.Text.Slice
import TemplateValues.Workspace

/-!
# Sources

A source is a file that was read: its path, its text and its syntax tree.
-/

namespace TemplateValues

open Syntax
open Template (Position)

/-- The text of a file with its syntax tree. -/
structure Source where
  path : Path
  language : Language
  text : String
  tree : Tree
deriving Inhabited

inductive SourceFault where
  | unreadable (path : Path) (fault : FileFault)
  | unsupported (path : Path)
deriving DecidableEq, Repr

namespace SourceFault

def message : SourceFault → String
  | unreadable p f => "failed to read '" ++ p.text ++ "': " ++ f.message
  | unsupported p => "unsupported source file: '" ++ p.text ++ "'"

def withCause : SourceFault → String
  | unreadable p f => (unreadable p f).message ++ ": " ++ f.message
  | unsupported p => (unsupported p).message

end SourceFault

namespace Source

def parse (w : Workspace) (p : Path) (text : String) : Except SourceFault Source :=
  match Language.ofPath? p with
  | some l => .ok ⟨w.canonicalOrSame p, l, text, Syntax.parse l.dialect text⟩
  | none => .error (.unsupported p)

def load (w : Workspace) (p : Path) : Except SourceFault Source := do
  let text ← (w.read p).mapError (.unreadable p)
  parse w p text

variable (s : Source)

def root : Node := .root s.tree

def textOf (n : Node) : String := Text.slice s.text n.start n.stop

def positionAt (offset : Nat) : Position :=
  let (line, column) := Text.lineColumn s.text offset
  ⟨line, column⟩

def startOf (n : Node) : Position := s.positionAt n.start

def stopOf (n : Node) : Position := s.positionAt n.stop

def nodeAt (p : Position) : Node :=
  s.root.innermost (fun i => p.before (s.positionAt i)) (fun i => !p.before (s.positionAt i))

def lineEnd (line : Nat) : Nat := Text.lineEnd s.text line

def nodesNamed (name : String) : List Node := s.root.descendants.filter fun n => n.kind.name = name

end Source

end TemplateValues
