import TemplateValues.Syntax.Rule

/-!
# Orders of precedence

Each order is a list, the strongest first.  Only what stands in one order can be compared: where two
things stand in several orders, the first of these decides.
-/

namespace TemplateValues.Syntax.Grammar

def level (l : Level) : Ranked := .level l

def construct (k : Kind) : Ranked := .symbol (.node k)

def family (p : Phrase) : Ranked := .symbol (.phrase p)

def baseOrders : List (List Ranked) := [
  [level .member, level .templateCall, level .call, construct .updateExpression, level .unaryWord,
   level .exponent, level .times, level .plus, level .shift, level .compare, level .relation,
   level .equality, level .bitAnd, level .bitXor, level .bitOr, level .logicalAnd,
   level .logicalOr, level .ternary, construct .sequenceExpression, construct .arrowFunction],
  [level .assign, family .primaryExpression],
  [level .member, level .templateCall, level .new, level .call, family .expression],
  [level .declaration, level .literal],
  [family .primaryExpression, construct .statementBlock, level .object],
  [construct .metaProperty, construct .importWord],
  [construct .importStatement, construct .importWord],
  [construct .exportStatement, family .primaryExpression],
  [construct .lexicalDeclaration, family .primaryExpression]]

def typeOrders : List (List Ranked) := [
  [level .call, level .instantiation, level .unary, level .binary, construct .awaitExpression,
   construct .arrowFunction],
  [level .heritage, level .instantiation],
  [construct .intersectionType, construct .unionType, construct .conditionalType,
   construct .functionType, level .binary, construct .typePredicate, construct .readonlyType],
  [construct .mappedTypeClause, family .primaryExpression],
  [construct .accessibilityModifier, family .primaryExpression],
  [level .unaryWord, family .expression],
  [construct .extendsClause, family .primaryExpression],
  [level .unary, level .assign],
  [level .declaration, family .expression],
  [construct .predefinedType, construct .unaryExpression],
  [family .type, construct .flowMaybeType],
  [construct .tupleType, construct .arrayType, family .pattern, family .type],
  [construct .readonlyType, family .pattern],
  [construct .readonlyType, family .primaryExpression],
  [construct .typeQuery, construct .subscriptExpression, family .expression],
  [construct .typeQuery, family .querySubscript],
  [construct .nestedTypeIdentifier, construct .genericType, family .primaryType,
   construct .lookupType, construct .indexTypeQuery, family .type],
  [construct .asExpression, construct .satisfiesExpression, family .primaryType],
  [family .queryMember, construct .memberExpression],
  [construct .memberExpression, family .ascribedMember],
  [family .queryMember, family .primaryExpression],
  [family .querySubscript, construct .subscriptExpression],
  [family .querySubscript, family .primaryExpression],
  [family .queryCall, family .primaryExpression],
  [family .queryInstantiation, family .primaryExpression],
  [construct .typeQuery, family .primaryExpression],
  [construct .overrideModifier, family .primaryExpression],
  [family .decoratorCall, construct .decorator],
  [construct .literalType, family .pattern],
  [construct .predefinedType, family .pattern],
  [construct .callExpression, family .queryCall],
  [construct .callExpression, family .ascribedCall],
  [construct .newExpression, family .primaryExpression],
  [construct .metaProperty, family .primaryExpression],
  [construct .constructSignature, family .propertyName]]

end TemplateValues.Syntax.Grammar
