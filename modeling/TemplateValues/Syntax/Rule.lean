import TemplateValues.Syntax.Dialect
import TemplateValues.Syntax.Terminal

/-!
# Grammar rules

A grammar gives one rule for each of its symbols.  A symbol is either a kind of node, and then what
its rule matches becomes a node of that kind, or a *phrase*, and then what its rule matches becomes
a run of siblings in the node around it.

Rules are ambiguous.  Three things settle which reading of a text is meant.  *Strengths* and *sides*
are attached to the pieces of a rule and say whether a rule ends or goes on when both are possible;
they are compared by the orders of `Grammar.orders`.  *Favours* are numbers that are added up over a
whole reading; where two readings are followed to their end, the one with the greater sum is kept.
-/

namespace TemplateValues.Syntax

/-- The symbols that leave no node of their own. -/
inductive Phrase where
  -- The families of constructs
  | statement | declaration | expression | primaryExpression | pattern | type | primaryType
  -- Pieces of statements
  | exportedName | importedName | fromClause | forHeader | initializer | destructuring
  -- Pieces of expressions, classes and functions
  | augmentedTarget | propertyName | signature | formalParameter | parameterName | heritage
  | markupString | namedBlock
  -- Restricted forms of expressions, shown as the full ones
  | decoratorMember | decoratorCall | decoratorParentheses
  | queryMember | querySubscript | queryCall | queryInstantiation | ascribedMember | ascribedCall
  -- Pieces of types
  | tupleMember | tupleParameter | optionalTupleParameter | signedNumber
deriving DecidableEq, Hashable, Repr, Inhabited

inductive Symbol where
  | terminal (t : Terminal)
  | node (k : Kind)
  | phrase (p : Phrase)
  /-- One or more of something, the `n`th such repetition of the grammar. -/
  | run (n : Nat)
deriving DecidableEq, Hashable, Repr, Inhabited

/-! ## Precedence -/

inductive Level where
  | member | templateCall | call | new | unaryWord | exponent | times | plus | shift | compare
  | relation | equality | bitAnd | bitXor | bitOr | logicalAnd | logicalOr | ternary | assign
  | declaration | literal | object | instantiation | unary | binary | heritage
deriving DecidableEq, Hashable, Repr, Inhabited

inductive Strength where
  | plain
  | number (n : Int)
  | level (l : Level)
deriving DecidableEq, Hashable, Repr, Inhabited

/-- Which of two equally strong readings is preferred: the one that ends the rule on the left, or
the one that goes on with the rule on the right. -/
inductive Side where
  | left
  | right
deriving DecidableEq, Hashable, Repr, Inhabited

inductive Ranked where
  | level (l : Level)
  | symbol (s : Symbol)
deriving DecidableEq, Hashable, Repr, Inhabited

/-! ## Rules -/

/-- A rule: the texts that a symbol matches, and how they are read. -/
inductive Rule where
  | empty
  | symbol (s : Symbol)
  | seq (rules : List Rule)
  | choice (rules : List Rule)
  /-- One or more. -/
  | many1 (rule : Rule)
  | strong (strength : Strength) (rule : Rule)
  | sided (side : Side) (rule : Rule)
  /-- A rule whose readings are favoured, or disfavoured, by a number. -/
  | favoured (favour : Int) (rule : Rule)
  /-- A rule whose symbols become nodes of another kind. -/
  | shown (kind : Kind) (rule : Rule)
  /-- A rule whose symbols become nodes in a role. -/
  | field (role : Field) (rule : Rule)
deriving Repr, Inhabited

namespace Rule

def text (s : String) : Rule := .symbol (.terminal (.fixed (.token s) s))

instance : Coe String Rule := ⟨text⟩

def word (k : Kind) (text : String) : Rule := .symbol (.terminal (.fixed k text))

def leaf (p : Pattern) : Rule := .symbol (.terminal (.pattern p))

def node (k : Kind) : Rule := .symbol (.node k)

def phrase (p : Phrase) : Rule := .symbol (.phrase p)

def opt (r : Rule) : Rule := .choice [r, .empty]

def many (r : Rule) : Rule := opt (.many1 r)

def sepBy1 (sep r : Rule) : Rule := .seq [r, many (.seq [sep, r])]

def commaSep (r : Rule) : Rule := opt (sepBy1 "," r)

def commaSep1 (r : Rule) : Rule := sepBy1 "," r

def oneOf (texts : List String) : Rule := .choice (texts.map text)

def bound (l : Level) (r : Rule) : Rule := .strong (.level l) r

def left (l : Level) (r : Rule) : Rule := .strong (.level l) (.sided .left r)

def right (l : Level) (r : Rule) : Rule := .strong (.level l) (.sided .right r)

def leftward (r : Rule) : Rule := .strong (.number 0) (.sided .left r)

def rightward (r : Rule) : Rule := .strong (.number 0) (.sided .right r)

end Rule

abbrev Rules := List (Symbol × Rule)

/-- A grammar: a rule for each symbol, the first one for whole files, and the orders of precedence.
In each order the stronger comes first; two things that stand in no common order are equally
strong. -/
structure Grammar where
  rules : Rules
  orders : List (List Ranked)
deriving Repr, Inhabited

end TemplateValues.Syntax
