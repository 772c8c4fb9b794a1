import TemplateValues.Syntax.Grammar.Name

/-!
# Members of classes and objects, parameters and patterns
-/

namespace TemplateValues.Syntax.Grammar

open Rule

def decoratorTargets : List Rule :=
  [name, .shown .memberExpression (phrase .decoratorMember),
   .shown .callExpression (phrase .decoratorCall)]

def decorator (d : Dialect) : Rule :=
  let parentheses : List Rule :=
    [.shown .parenthesizedExpression (phrase .decoratorParentheses)]
  .seq ["@", .choice (decoratorTargets ++ if d.types then parentheses else [])]

def decoratorName : Rule := .choice [name, .shown .memberExpression (phrase .decoratorMember)]

def decoratorCall (d : Dialect) : Rule :=
  let types : List Rule := [opt (.field .typeArguments (node .typeArguments))]
  bound .call (.seq ([.field .function decoratorName] ++
    (if d.types then types else []) ++ [.field .arguments (node .arguments)]))

def classBody (d : Dialect) : Rule :=
  .seq ["\x7b",
    many (.choice (
      if d.types then [
        .seq [decorators, node .methodDefinition, opt semicolon],
        .seq [node .methodSignature, .choice [leaf .signatureGap, ","]],
        node .classStaticBlock,
        .seq [.choice [node .abstractMethodSignature, node .indexSignature, node .methodSignature,
          node .publicFieldDefinition], .choice [semicolon, ","]],
        ";"]
      else [
        .seq [.field .member (node .methodDefinition), opt ";"],
        .seq [.field .member (node .fieldDefinition), semicolon],
        .field .member (node .classStaticBlock),
        ";"])),
    "\x7d"]

def formalParameters (d : Dialect) : Rule :=
  let parameter : Rule :=
    if d.types then phrase .formalParameter
    else .choice [phrase .pattern, node .assignmentPattern]
  .seq ["(", opt (.seq [commaSep1 parameter, opt ","]), ")"]

def methodWords : List Rule :=
  [opt (node .accessibilityModifier), opt "static", opt (node .overrideModifier), opt "readonly",
   opt "async", opt (oneOf ["get", "set", "*"])]

def methodDefinition (d : Dialect) : Rule :=
  if d.types then leftward (.seq (methodWords ++ [.field .name (phrase .propertyName), opt "?",
    phrase .signature, .field .body (node .statementBlock)]))
  else .seq [decorators, opt (.choice ["static", leaf .staticGet]), opt "async",
    opt (oneOf ["get", "set", "*"]), .field .name (phrase .propertyName),
    .field .parameters (node .formalParameters), .field .body (node .statementBlock)]

def memberRules (d : Dialect) : Rules := [
  (.node .decorator, decorator d),
  (.phrase .decoratorMember, bound .member (.seq [.field .object decoratorName, ".",
    .field .property (.shown .propertyIdentifier name)])),
  (.phrase .decoratorCall, decoratorCall d),
  (.node .classBody, classBody d),
  (.node .formalParameters, formalParameters d),
  (.node .classStaticBlock, .seq ["static", opt (leaf .semicolonGap),
    .field .body (node .statementBlock)]),
  (.phrase .pattern, .favoured (-1) (.choice [target d, node .restPattern])),
  (.node .restPattern, rightward (.seq ["...", target d])),
  (.node .methodDefinition, methodDefinition d),
  (.node .pair, .seq [.field .key (phrase .propertyName), ":", .field .value (phrase .expression)]),
  (.node .pairPattern, .seq [.field .key (phrase .propertyName), ":",
    .field .value (.choice [phrase .pattern, node .assignmentPattern])]),
  (.phrase .propertyName, .choice [
    .shown .propertyIdentifier (.choice [name, reservedName d]),
    leaf .privateName, node .string, leaf .number, node .computedPropertyName]),
  (.node .computedPropertyName, .seq ["[", phrase .expression, "]"])]

def untypedFieldRules : Rules := [
  (.node .fieldDefinition, .seq [decorators, opt "static", .field .property (phrase .propertyName),
    opt (phrase .initializer)])]

end TemplateValues.Syntax.Grammar
