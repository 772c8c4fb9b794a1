import TemplateValues.Syntax.Rule

/-!
# Names and other small pieces

Pieces that many rules share.  They are no symbols of their own: each rule that uses one spells it
out in place.
-/

namespace TemplateValues.Syntax.Grammar

open Rule

def name : Rule := leaf .name

def plainName : Rule := .choice [word .undefinedName "undefined", name]

def reservedName (d : Dialect) : Rule :=
  let always := oneOf ["get", "set", "async", "static", "export", "let"]
  if d.types then
    .choice [oneOf ["declare", "namespace", "type", "public", "private", "protected", "override",
      "readonly", "module", "any", "number", "boolean", "string", "symbol", "export", "object",
      "new"], always]
  else always

def reservedIdentifier (d : Dialect) : Rule := .shown .identifier (reservedName d)

def typeName : Rule := .shown .typeIdentifier name

def propertyAfterDot : Rule :=
  .field .property (.choice [leaf .privateName, .shown .propertyIdentifier name])

def semicolon : Rule := .choice [leaf .semicolonGap, ";"]

def expressions : Rule := .choice [phrase .expression, node .sequenceExpression]

def bindingTarget : Rule := .choice [name, phrase .destructuring]

def target (d : Dialect) : Rule :=
  let always : Rule := .choice [node .memberExpression, node .subscriptExpression, plainName,
    reservedIdentifier d, phrase .destructuring]
  if d.types then .choice [always, node .nonNullExpression] else always

def decorators : Rule := many (.field .decorator (node .decorator))

def callSignature (d : Dialect) : Rule :=
  if d.types then phrase .signature else .field .parameters (node .formalParameters)

/-- A member access that may be skipped, as in `a?.b`. -/
def optionalChain (d : Dialect) : Rule :=
  .field .optionalChain (if d.types then node .optionalChain else word .optionalChain "?.")

def ascription : Rule := .field .type (opt (node .typeAscription))

def typeArguments : Rule := .field .typeArguments (opt (node .typeArguments))

def typeParameters : Rule := .field .typeParameters (opt (node .typeParameters))

def thisWord : Rule := word .thisName "this"

def trueWord : Rule := word .trueLiteral "true"

def falseWord : Rule := word .falseLiteral "false"

def nullWord : Rule := word .nullLiteral "null"

end TemplateValues.Syntax.Grammar
