import TemplateValues.Source

/-!
# Declarations

A declaration gives a name something to stand for.  A name is looked up in a whole file, whatever the
scopes: the first declaration in document order that binds it is the one meant.
-/

namespace TemplateValues

open Syntax

inductive DeclarationKind where
  | enumeration
  /-- A constant or a variable. -/
  | binding
  | typeAlias
  | interface
  | parameter
  /-- A property signature, a member of an object, a field of a class or a member of an enumeration. -/
  | property
deriving DecidableEq, Repr, Inhabited

/-- What kind of name is looked up.  A type and a value may share a name; an enumeration is both. -/
inductive Space where
  | type
  | value
  | any
deriving DecidableEq, Repr, Inhabited

def DeclarationKind.isIn : DeclarationKind → Space → Bool
  | _, .any => true
  | .enumeration, _ => true
  | .typeAlias, .type | .interface, .type => true
  | .binding, .value | .parameter, .value | .property, .value => true
  | _, _ => false

/-- A node that declares, and the node of the name that it binds. -/
structure Declaration where
  kind : DeclarationKind
  node : Node
  name : Node
deriving Repr, Inhabited

namespace Declaration

def naming? (k : DeclarationKind) (n : Node) (f : Field) : Option Declaration :=
  (n.child? f).map fun name => ⟨k, n, name⟩

/-- Is a plain identifier bound where it stands, as a parameter or as the variable of a loop? -/
def isBound (n : Node) : Bool :=
  match n.parent? with
  | none => false
  | some p =>
    match p.kind with
    | .formalParameters => true
    | .arrowFunction => (p.child? .parameter).any n.same
    | .forInStatement =>
      -- without a declaring word the loop assigns to a variable from elsewhere
      (p.child? .left).any n.same &&
        ((p.child? .kind).isSome ||
          n.previous?.any fun q => ["const", "let", "var"].any fun w => q.kind = .token w)
    | _ => false

def ofNode? (n : Node) : Option Declaration :=
  match n.kind with
  | .enumDeclaration => naming? .enumeration n .name
  | .typeAliasDeclaration => naming? .typeAlias n .name
  | .interfaceDeclaration => naming? .interface n .name
  -- patterns are not taken apart, so only a plain name is bound
  | .variableDeclarator => (naming? .binding n .name).filter fun d => d.name.kind = .identifier
  | .requiredParameter | .optionalParameter =>
    (naming? .parameter n .pattern).filter fun d => d.name.kind = .identifier
  | .identifier => if isBound n then some ⟨.parameter, n, n⟩ else none
  | .propertySignature | .publicFieldDefinition | .fieldDefinition | .enumAssignment =>
    (naming? .property n .name).or (naming? .property n .property)
  | .pair => naming? .property n .key
  | .propertyIdentifier =>
    -- a member of an enumeration that is not given a value
    if n.parent?.any fun p => p.kind = .enumBody then some ⟨.property, n, n⟩ else none
  | _ => none

/-- The declaration that a node belongs to: the innermost one around it. -/
def enclosing? (n : Node) : Option Declaration :=
  (n.withAncestors.takeWhile fun m => m.kind ≠ .program).findSome? ofNode?

def ascription? (d : Declaration) : Option Node :=
  match d.kind with
  | .binding | .property => d.node.child? .type
  -- a bare parameter is nothing but its name
  | .parameter => if d.node.kind = .identifier then none else d.node.child? .type
  | _ => none

def initializer? (d : Declaration) : Option Node :=
  match d.kind with
  | .binding | .property => d.node.child? .value
  | _ => none

def introducedUpTo : (depth : Nat) → Node → List Declaration
  | 0, _ => []
  | depth + 1, n =>
    match n.kind with
    | .lexicalDeclaration | .variableDeclaration => n.namedChildren.filterMap ofNode?
    | .ambientDeclaration => n.namedChildren.flatMap (introducedUpTo depth)
    | _ => (ofNode? n).toList

def introduced (n : Node) : List Declaration := introducedUpTo n.tree.height n

end Declaration

namespace Source

variable (s : Source)

def binds (name : String) (space : Space) (d : Declaration) : Bool :=
  d.kind.isIn space && s.textOf d.name = name

/-- The first declaration of a name in the file.  Properties are not found by their name. -/
def find? (name : String) (space : Space := .any) : Option Declaration :=
  s.root.search fun n =>
    (Declaration.ofNode? n).filter fun d => d.kind ≠ .property && s.binds name space d

end Source

end TemplateValues
