import TemplateValues.Syntax.Grammar.Name

/-!
# Types
-/

namespace TemplateValues.Syntax.Grammar

open Rule

def ascribedMember : Rule := .shown .memberExpression (phrase .ascribedMember)

def ascribedCall : Rule := .shown .callExpression (phrase .ascribedCall)

/-- The member access, element access and call that a type may be the type of. -/
def queryMember : Rule := .shown .memberExpression (phrase .queryMember)

@[inherit_doc queryMember]
def querySubscript : Rule := .shown .subscriptExpression (phrase .querySubscript)

@[inherit_doc queryMember]
def queryCall : Rule := .shown .callExpression (phrase .queryCall)

def queryObject : Rule :=
  .field .object (.choice [name, thisWord, querySubscript, queryMember, queryCall])

def queryFunction : Rule :=
  .field .function (.choice [node .importWord, name, queryMember, querySubscript])

def objectType : Rule :=
  let separator : Rule := .choice [",", semicolon]
  .seq [oneOf ["\x7b", "\x7b|"],
    opt (.seq [opt (oneOf [",", ";"]),
      sepBy1 separator (.choice [node .exportStatement, node .propertySignature,
        node .callSignature, node .constructSignature, node .indexSignature,
        node .methodSignature]),
      opt separator]),
    oneOf ["\x7d", "|\x7d"]]

/-- What is mapped by an index signature: a named index, or every type of a union. -/
def indexed (d : Dialect) : Rule :=
  .choice [
    .seq [.field .name (.choice [name, reservedIdentifier d]), ":",
      .field .indexType (phrase .type)],
    node .mappedTypeClause]

def primaryType : Rule :=
  .choice [node .parenthesizedType, node .predefinedType, typeName, node .nestedTypeIdentifier,
    node .genericType, node .objectType, node .arrayType, node .tupleType, node .flowMaybeType,
    node .typeQuery, node .indexTypeQuery, .shown .thisType thisWord, node .existentialType,
    node .literalType, node .lookupType, node .conditionalType, node .templateLiteralType,
    node .intersectionType, node .unionType, "const"]

def ascriptionRules : Rules := [
  (.node .omittingAscription, .seq ["-?:", phrase .type]),
  (.node .addingAscription, .seq ["+?:", phrase .type]),
  (.node .optingAscription, .seq ["?:", phrase .type]),
  (.node .typeAscription, .seq [":", .choice [phrase .type, ascribedMember, ascribedCall]]),
  (.phrase .ascribedMember, .seq [
    .field .object (.choice [node .importWord, ascribedMember, ascribedCall]), ".",
    propertyAfterDot]),
  (.phrase .ascribedCall, .seq [.field .function (.choice [node .importWord, ascribedMember]),
    .field .arguments (node .arguments)]),
  (.node .asserts, .seq ["asserts", .choice [node .typePredicate, name, thisWord]]),
  (.node .assertsAscription, .seq [":", node .asserts]),
  (.phrase .type, .choice [phrase .primaryType, node .functionType, node .readonlyType,
    node .constructorType, node .inferType,
    .strong (.number (-1)) ascribedMember, .strong (.number (-1)) ascribedCall]),
  (.phrase .tupleParameter, .seq [.field .name (.choice [name, node .restPattern]),
    .field .type (node .typeAscription)]),
  (.phrase .optionalTupleParameter, .seq [.field .name name, "?",
    .field .type (node .typeAscription)]),
  (.node .optionalType, .seq [phrase .type, "?"]),
  (.node .restType, .seq ["...", phrase .type]),
  (.phrase .tupleMember, .choice [.shown .requiredParameter (phrase .tupleParameter),
    .shown .optionalParameter (phrase .optionalTupleParameter), node .optionalType, node .restType,
    phrase .type]),
  (.node .constructorType, leftward (.seq [opt "abstract", "new", typeParameters,
    .field .parameters (node .formalParameters), "=>", .field .type (phrase .type)])),
  (.phrase .primaryType, primaryType),
  (.node .templateType, .seq ["$\x7b", .choice [phrase .primaryType, node .inferType], "\x7d"]),
  (.node .templateLiteralType, .seq ["`",
    many (.choice [leaf .templateChars, node .templateType]), "`"]),
  (.node .inferType, rightward (.seq ["infer", typeName, opt (.seq ["extends", phrase .type])])),
  (.node .conditionalType, leftward (.seq [.field .left (phrase .type), "extends",
    .field .right (phrase .type), "?", .field .consequence (phrase .type), ":",
    .field .alternative (phrase .type)])),
  (.node .genericType, bound .call (.seq [
    .field .name (.choice [typeName, node .nestedTypeIdentifier]),
    .field .typeArguments (node .typeArguments)])),
  (.node .typePredicate, .seq [
    .field .name (.choice [name, thisWord, .shown .identifier (node .predefinedType)]), "is",
    .field .type (phrase .type)]),
  (.node .predicateAscription, .seq [":", node .typePredicate]),
  (.phrase .queryMember, .seq [queryObject, oneOf [".", "?."], propertyAfterDot]),
  (.phrase .querySubscript, .seq [queryObject, opt "?.", "[",
    .field .index (.choice [node .predefinedType, node .string, leaf .number]), "]"]),
  (.phrase .queryCall, .seq [queryFunction, .field .arguments (node .arguments)]),
  (.phrase .queryInstantiation, .seq [queryFunction,
    .field .typeArguments (node .typeArguments)]),
  (.node .typeQuery, rightward (.seq ["typeof", .choice [querySubscript, queryMember, queryCall,
    .shown .instantiationExpression (phrase .queryInstantiation), name, thisWord]]))]

def typeFormRules (d : Dialect) : Rules := [
  (.node .indexTypeQuery, .seq ["keyof", phrase .primaryType]),
  (.node .lookupType, .seq [phrase .primaryType, "[", phrase .type, "]"]),
  (.node .mappedTypeClause, .seq [.field .name typeName, "in", .field .type (phrase .type),
    opt (.seq ["as", .field .localName (phrase .type)])]),
  (.node .literalType, .choice [.shown .unaryExpression (phrase .signedNumber), leaf .number,
    node .string, trueWord, falseWord, nullWord, word .undefinedName "undefined"]),
  (.phrase .signedNumber, .strong (.number 1) (.sided .left (.seq [
    .field .operator (oneOf ["-", "+"]), .field .argument (leaf .number)]))),
  (.node .existentialType, "*"),
  (.node .flowMaybeType, rightward (.seq ["?", phrase .primaryType])),
  (.node .parenthesizedType, .seq ["(", phrase .type, ")"]),
  (.node .predefinedType, .choice [oneOf ["any", "number", "boolean", "string", "symbol"],
    .shown (.token "unique symbol") (.seq ["unique", "symbol"]),
    oneOf ["void", "unknown", "never", "object"]]),
  (.node .typeArguments, .seq ["<", commaSep1 (phrase .type), opt ",", ">"]),
  (.node .objectType, objectType),
  (.node .callSignature, phrase .signature),
  (.node .propertySignature, .seq [opt (node .accessibilityModifier), opt "static",
    opt (node .overrideModifier), opt "readonly", .field .name (phrase .propertyName), opt "?",
    ascription]),
  (.node .typeParameters, .seq ["<", commaSep1 (node .typeParameter), opt ",", ">"]),
  (.node .typeParameter, .seq [opt "const", .field .name typeName,
    .field .constraint (opt (node .constraint)), .field .value (opt (node .defaultType))]),
  (.node .defaultType, .seq ["=", phrase .type]),
  (.node .constraint, .seq [oneOf ["extends", ":"], phrase .type]),
  (.node .constructSignature, .seq [opt "abstract", "new", typeParameters,
    .field .parameters (node .formalParameters), ascription]),
  (.node .indexSignature, .seq [
    opt (.seq [.field .sign (opt (oneOf ["-", "+"])), "readonly"]),
    "[", indexed d, "]",
    .field .type (.choice [node .typeAscription, node .omittingAscription, node .addingAscription,
      node .optingAscription])]),
  (.node .arrayType, .seq [phrase .primaryType, "[", "]"]),
  (.node .tupleType, .seq ["[", commaSep (phrase .tupleMember), opt ",", "]"]),
  (.node .readonlyType, .seq ["readonly", phrase .type]),
  (.node .unionType, leftward (.seq [opt (phrase .type), "|", phrase .type])),
  (.node .intersectionType, leftward (.seq [opt (phrase .type), "&", phrase .type])),
  (.node .functionType, leftward (.seq [typeParameters,
    .field .parameters (node .formalParameters), "=>",
    .field .returnType (.choice [phrase .type, node .asserts, node .typePredicate])]))]

end TemplateValues.Syntax.Grammar
