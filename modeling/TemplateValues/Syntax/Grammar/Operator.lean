import TemplateValues.Syntax.Grammar.Name

/-!
# Calls, member access, assignments and operators
-/

namespace TemplateValues.Syntax.Grammar

open Rule

def callExpression (d : Dialect) : Rule :=
  let arguments : Rule := .field .arguments (node .arguments)
  let types : List Rule := if d.types then [typeArguments] else []
  let chain : List Rule := if d.types then ["?."] else [optionalChain d]
  .choice [
    bound .call (.seq ([.field .function (.choice [phrase .expression, node .importWord])] ++
      types ++ [arguments])),
    bound .templateCall (.seq [
      .field .function (.choice [phrase .primaryExpression, node .newExpression]),
      .field .arguments (node .templateString)]),
    bound .member (.seq ([.field .function (phrase .primaryExpression)] ++ chain ++ types ++
      [arguments]))]

def newExpression (d : Dialect) : Rule :=
  right .new (.seq <|
    if d.types then ["new", .field .constructed (phrase .primaryExpression), typeArguments,
      .field .arguments (opt (node .arguments))]
    else ["new", .field .constructed (.choice [phrase .primaryExpression, node .newExpression]),
      .field .arguments (opt (.favoured 1 (node .arguments)))])

def augmentedTarget (d : Dialect) : Rule :=
  let always : Rule := .choice [node .memberExpression, node .subscriptExpression,
    reservedIdentifier d, name, node .parenthesizedExpression]
  if d.types then .choice [always, node .nonNullExpression] else always

def binaryOperators : List (String × Level) :=
  [("&&", .logicalAnd), ("||", .logicalOr), (">>", .shift), (">>>", .shift), ("<<", .shift),
   ("&", .bitAnd), ("^", .bitXor), ("|", .bitOr), ("+", .plus), ("-", .plus), ("*", .times),
   ("/", .times), ("%", .times), ("**", .exponent), ("<", .relation), ("<=", .relation),
   ("==", .equality), ("===", .equality), ("!=", .equality), ("!==", .equality),
   (">=", .relation), (">", .relation), ("??", .ternary), ("instanceof", .relation),
   ("in", .relation)]

/-- An operator between two operands.  All but the exponent lean to the left, and a private name may
be looked for `in` an object. -/
def binary (operator : String) (level : Level) : Rule :=
  let operand : Rule :=
    if operator = "in" then .choice [phrase .expression, leaf .privateName] else phrase .expression
  let rule : Rule := .seq [.field .left operand, .field .operator operator,
    .field .right (phrase .expression)]
  if operator = "**" then right level rule else left level rule

def typedChainRules : Rules := [(.node .optionalChain, "?.")]

def operatorRules (d : Dialect) : Rules := [
  (.node .callExpression, callExpression d),
  (.node .newExpression, newExpression d),
  (.node .awaitExpression, bound .unaryWord (.seq ["await", phrase .expression])),
  (.node .memberExpression, bound .member (.seq [
    .field .object (.choice [phrase .expression, phrase .primaryExpression, node .importWord]),
    .choice [".", optionalChain d], propertyAfterDot])),
  (.node .subscriptExpression, right .member (.seq [
    .field .object (.choice [phrase .expression, phrase .primaryExpression]),
    opt (optionalChain d), "[", .field .index expressions, "]"])),
  (.node .assignmentExpression, right .assign (.seq [opt "using",
    .field .left (.choice [node .parenthesizedExpression, target d]), "=",
    .field .right (phrase .expression)])),
  (.phrase .augmentedTarget, augmentedTarget d),
  (.node .augmentedAssignmentExpression, right .assign (.seq [
    .field .left (phrase .augmentedTarget),
    .field .operator (oneOf ["+=", "-=", "*=", "/=", "%=", "^=", "&=", "|=", ">>=", ">>>=", "<<=",
      "**=", "&&=", "||=", "??="]),
    .field .right (phrase .expression)])),
  (.phrase .initializer, .seq ["=", .field .value (phrase .expression)]),
  (.phrase .destructuring, .choice [node .objectPattern, node .arrayPattern]),
  (.node .spreadElement, .seq ["...", phrase .expression]),
  (.node .ternaryExpression, right .ternary (.seq [
    .field .condition (phrase .expression), leaf .ternaryMark,
    .field .consequence (phrase .expression), ":", .field .alternative (phrase .expression)])),
  (.node .binaryExpression, .choice (binaryOperators.map fun (o, l) => binary o l)),
  (.node .unaryExpression, left .unaryWord (.seq [
    .field .operator (oneOf ["!", "~", "-", "+", "typeof", "void", "delete"]),
    .field .argument (phrase .expression)])),
  (.node .updateExpression, leftward (.choice [
    .seq [.field .argument (phrase .expression), .field .operator (oneOf ["++", "--"])],
    .seq [.field .operator (oneOf ["++", "--"]), .field .argument (phrase .expression)]])),
  (.node .sequenceExpression, rightward (commaSep1 (phrase .expression)))]

end TemplateValues.Syntax.Grammar
