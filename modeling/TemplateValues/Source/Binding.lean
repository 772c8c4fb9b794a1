import TemplateValues.Declaration
import TemplateValues.Text.Quoted

/-!
# Imports and exports of a source

Which module and which of its names a local name comes from, and what stands behind an exported name.
-/

namespace TemplateValues

open Syntax

inductive ImportForm where
  /-- The form `import X from …`. -/
  | byDefault
  /-- The form `import * as X from …`. -/
  | asNamespace
  /-- The form `import { Y as X } from …`. -/
  | byName
deriving DecidableEq, Repr, Inhabited

structure Import where
  statement : Node
  /-- The module as it is written. -/
  specifier : String
  /-- The export that is meant. -/
  imported : String
  form : ImportForm
deriving Repr, Inhabited

/-- Another module that may have an export, and its name there. -/
structure Reexport where
  specifier : String
  imported : String
deriving DecidableEq, Repr, Inhabited

namespace Source

variable (s : Source)

/-- The text of a name in a clause, which may be written as a string. -/
def clauseName (n : Node) : String :=
  if n.kind = .string then (Text.unquote (s.textOf n)).getD "" else s.textOf n

def specifier? (statement : Node) : Option String :=
  (statement.child? .source).bind fun n => Text.unquote (s.textOf n)

/-- The name before `as` and the one after it; they are the same without `as`. -/
def renaming? (specifier : Node) : Option (String × String) :=
  (specifier.child? .name).map fun name =>
    (s.clauseName name, s.clauseName ((specifier.child? .localName).getD name))

/-- How a part of an import clause binds a name, and the export that it means. -/
def bindsImport? (name : String) (n : Node) : Option (String × ImportForm) :=
  match n.kind with
  | .identifier => if s.textOf n = name then some ("default", .byDefault) else none
  | .namespaceImport =>
    if (n.childOfKind? .identifier).any fun c => s.textOf c = name then some ("*", .asNamespace)
    else none
  | .namedImports =>
    (n.childrenOfKind .importSpecifier).findSome? fun c =>
      match s.renaming? c with
      | some (imported, bound) => if bound = name then some (imported, .byName) else none
      | none => none
  | _ => none

def importIn? (name : String) (statement : Node) : Option Import :=
  match s.specifier? statement, statement.childOfKind? .importClause with
  | some specifier, some clause =>
    (clause.namedChildren.findSome? (s.bindsImport? name)).map fun (imported, form) =>
      ⟨statement, specifier, imported, form⟩
  | _, _ => none

def import? (name : String) : Option Import :=
  (s.root.childrenOfKind .importStatement).findSome? (s.importIn? name)

def exports : List Node := s.root.childrenOfKind .exportStatement

def defaultExport? : Option String :=
  s.exports.findSome? fun n =>
    if (n.childOfKind? (.token "default")).isSome then
      (n.child? .value).filter (fun v => v.kind = .identifier) |>.map s.textOf
    else none

/-- The names of an export clause: the one exported, and the one that stands for it inside. -/
def clauseNames (statement : Node) : List (String × String) :=
  match statement.childOfKind? .exportClause with
  | some clause =>
    (clause.childrenOfKind .exportSpecifier).filterMap fun c => (s.renaming? c).map Prod.swap
  | none => []

/-- The local name that is exported under a name by a clause without a module. -/
def localExport? (name : String) : Option String :=
  s.exports.findSome? fun n =>
    if (n.child? .source).isSome then none else (s.clauseNames n).lookup name

def namedReexports (name : String) (statement : Node) : List Reexport :=
  match s.specifier? statement with
  | some specifier =>
    ((s.clauseNames statement).filter fun (exported, _) => exported = name).map fun (_, imported) =>
      ⟨specifier, imported⟩
  | none => []

/-- The re-export of everything, which may give an export of any name. -/
def starReexport? (name : String) (statement : Node) : Option Reexport :=
  match s.specifier? statement with
  | some specifier =>
    -- the form `export * as X` binds one name and passes no others on
    if (statement.childOfKind? .exportClause).isNone &&
        (statement.childOfKind? (.token "*")).isSome &&
        (statement.childOfKind? .namespaceExport).isNone then
      some ⟨specifier, name⟩
    else none
  | none => none

/-- The re-exports that may give an export: those that name it, then those of everything. -/
def reexports (name : String) : List Reexport :=
  s.exports.flatMap (s.namedReexports name) ++ s.exports.filterMap (s.starReexport? name)

def exported? (name : String) (space : Space := .any) : Option Declaration :=
  -- what is declared in an export statement comes before the names in clauses
  let declared := s.exports.findSome? fun n =>
    (n.child? .declaration).bind fun d => (Declaration.introduced d).find? (s.binds name space)
  match declared with
  | some d => some d
  | none =>
    match if name = "default" then s.defaultExport? else none with
    | some inside => s.find? inside space
    | none => (s.localExport? name).bind fun inside => s.find? inside space

end Source

end TemplateValues
