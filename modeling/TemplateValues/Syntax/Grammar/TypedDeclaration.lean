import TemplateValues.Syntax.Grammar.Member

/-!
# Declarations and expressions of texts with types
-/

namespace TemplateValues.Syntax.Grammar

open Rule

def fieldWords : List Rule :=
  [opt (.choice [
     .seq ["declare", opt (node .accessibilityModifier)],
     .seq [node .accessibilityModifier, opt "declare"]]),
   .choice [
     .seq [opt "static", opt (node .overrideModifier), opt "readonly"],
     .seq [opt "abstract", opt "readonly"],
     .seq [opt "readonly", opt "abstract"],
     opt "accessor"]]

def namedBlock : Rule :=
  rightward (.seq [.field .name (.choice [node .string, name, node .nestedIdentifier]),
    .field .body (opt (node .statementBlock))])

def typedDeclarationRules : Rules := [
  (.node .publicFieldDefinition, .seq ([decorators] ++ fieldWords ++
    [.field .name (phrase .propertyName), opt (oneOf ["?", "!"]), ascription,
     opt (phrase .initializer)])),
  (.phrase .importedName, .choice [name, .shown .identifier "type"]),
  (.node .nonNullExpression, left .unary (.seq [phrase .expression, "!"])),
  (.node .methodSignature, .seq (methodWords ++
    [.field .name (phrase .propertyName), opt "?", phrase .signature])),
  (.node .abstractMethodSignature, .seq [opt (node .accessibilityModifier), "abstract",
    opt (node .overrideModifier), opt (oneOf ["get", "set", "*"]),
    .field .name (phrase .propertyName), opt "?", phrase .signature]),
  (.node .functionSignature, .seq [opt "async", "function", .field .name name, phrase .signature,
    .choice [semicolon, leaf .signatureGap]]),
  (.phrase .decoratorParentheses, .seq ["(", .choice decoratorTargets, ")"]),
  (.node .typeAssertion, left .unary (.seq [node .typeArguments, phrase .expression])),
  (.node .asExpression, left .binary (.seq [phrase .expression, "as",
    .choice ["const", phrase .type]])),
  (.node .satisfiesExpression, left .binary (.seq [phrase .expression, "satisfies", phrase .type])),
  (.node .instantiationExpression, bound .instantiation (.seq [phrase .expression,
    .field .typeArguments (node .typeArguments)])),
  (.node .importRequireClause, .seq [name, "=", "require", "(", .field .source (node .string),
    ")"]),
  (.node .extendsClause, .seq ["extends", commaSep1 (phrase .heritage)]),
  (.phrase .heritage, bound .heritage (.seq [.field .value (phrase .expression), typeArguments])),
  (.node .implementsClause, .seq ["implements", commaSep1 (phrase .type)]),
  (.node .ambientDeclaration, .seq ["declare", .choice [
    phrase .declaration,
    .seq ["global", node .statementBlock],
    .seq ["module", ".", .shown .propertyIdentifier name, ":", phrase .type, semicolon]]]),
  (.node .abstractClassDeclaration, bound .declaration (.seq [decorators, "abstract", "class",
    .field .name typeName, typeParameters, opt (node .classHeritage),
    .field .body (node .classBody)])),
  (.node .moduleBlock, .seq ["module", phrase .namedBlock]),
  (.node .internalModule, .seq ["namespace", phrase .namedBlock]),
  (.phrase .namedBlock, namedBlock),
  (.node .importAlias, .seq ["import", name, "=", .choice [name, node .nestedIdentifier],
    semicolon]),
  (.node .nestedTypeIdentifier, bound .member (.seq [
    .field .qualifier (.choice [name, node .nestedIdentifier]), ".", .field .name typeName])),
  (.node .interfaceDeclaration, .seq ["interface", .field .name typeName, typeParameters,
    opt (node .extendsTypeClause), .field .body (.shown .interfaceBody (node .objectType))]),
  (.node .extendsTypeClause, .seq ["extends",
    commaSep1 (.field .type (.choice [typeName, node .nestedTypeIdentifier, node .genericType]))]),
  (.node .enumDeclaration, .seq [opt "const", "enum", .field .name name,
    .field .body (node .enumBody)]),
  (.node .enumBody, .seq ["\x7b",
    opt (.seq [commaSep1 (.choice [.field .name (phrase .propertyName), node .enumAssignment]),
      opt ","]),
    "\x7d"]),
  (.node .enumAssignment, .seq [.field .name (phrase .propertyName), phrase .initializer]),
  (.node .typeAliasDeclaration, .seq ["type", .field .name typeName, typeParameters, "=",
    .field .value (phrase .type), semicolon]),
  (.node .accessibilityModifier, oneOf ["public", "private", "protected"]),
  (.node .overrideModifier, "override"),
  (.node .requiredParameter, .seq [phrase .parameterName, ascription, opt (phrase .initializer)]),
  (.node .optionalParameter, .seq [phrase .parameterName, "?", ascription,
    opt (phrase .initializer)]),
  (.phrase .parameterName, .seq [decorators, opt (node .accessibilityModifier),
    opt (node .overrideModifier), opt "readonly",
    .field .pattern (.choice [phrase .pattern, thisWord])])]

end TemplateValues.Syntax.Grammar
