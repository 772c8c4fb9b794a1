import TemplateValues.Syntax.Grammar.Name

/-!
# Expressions, objects and arrays

Objects and arrays stand next to the patterns that look like them: which of the two is meant shows
only after the closing bracket.
-/

namespace TemplateValues.Syntax.Grammar

open Rule

def element : Rule := .choice [node .jsxElement, node .jsxSelfClosingElement]

def expression (d : Dialect) : Rule :=
  let typed : List Rule := [node .asExpression, node .satisfiesExpression,
    node .instantiationExpression, node .internalModule]
  let assertion : List Rule := [node .typeAssertion]
  let markup : List Rule := [element]
  .choice <|
    (if d.types then typed else []) ++
    (if d.types && !d.markup then assertion else []) ++
    [phrase .primaryExpression] ++
    (if d.markup then markup else []) ++
    [node .assignmentExpression, node .augmentedAssignmentExpression, node .awaitExpression,
     node .unaryExpression, node .binaryExpression, node .ternaryExpression,
     node .updateExpression, node .newExpression, node .yieldExpression]

def primaryExpression (d : Dialect) : Rule :=
  let nonNull : List Rule := [node .nonNullExpression]
  .choice <|
    [node .subscriptExpression, node .memberExpression, node .parenthesizedExpression, plainName,
     reservedIdentifier d, thisWord, word .superName "super", leaf .number, node .string,
     node .templateString, node .regex, trueWord, falseWord, nullWord, node .object, node .array,
     node .functionExpression, node .arrowFunction, node .generatorFunction, node .classExpression,
     node .metaProperty, node .callExpression] ++
    (if d.types then nonNull else [])

def expressionRules (d : Dialect) : Rules := [
  (.phrase .expression, expression d),
  (.phrase .primaryExpression, primaryExpression d),
  (.node .yieldExpression, rightward (.seq ["yield",
    .choice [.seq ["*", phrase .expression], opt (phrase .expression)]])),
  (.node .object, bound .object (.seq ["\x7b",
    commaSep (opt (.choice [node .pair, node .spreadElement, node .methodDefinition,
      .shown .shorthandPropertyIdentifier (.choice [name, reservedName d])])), "\x7d"])),
  (.node .objectPattern, bound .object (.seq ["\x7b",
    commaSep (opt (.choice [node .pairPattern, node .restPattern, node .objectAssignmentPattern,
      .shown .shorthandPropertyIdentifierPattern (.choice [name, reservedName d])])), "\x7d"])),
  (.node .assignmentPattern, .seq [.field .left (phrase .pattern), "=",
    .field .right (phrase .expression)]),
  (.node .objectAssignmentPattern, .seq [
    .field .left (.choice [
      .shown .shorthandPropertyIdentifierPattern (.choice [reservedName d, name]),
      phrase .destructuring]),
    "=", .field .right (phrase .expression)]),
  (.node .array, .seq ["[",
    commaSep (opt (.choice [phrase .expression, node .spreadElement])), "]"]),
  (.node .arrayPattern, .seq ["[",
    commaSep (opt (.choice [phrase .pattern, node .assignmentPattern])), "]"])]

end TemplateValues.Syntax.Grammar
