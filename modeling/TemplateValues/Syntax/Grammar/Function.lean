import TemplateValues.Syntax.Grammar.Name

/-!
# Classes and functions

Each has two forms: one that is an expression, whose name may be missing, and one that is a
declaration, after which a semicolon may be left out.
-/

namespace TemplateValues.Syntax.Grammar

open Rule

def classFrom (d : Dialect) (words : List Rule) (name : Rule) : Rule :=
  .seq ([decorators] ++ words ++ [.field .name name] ++
    (if d.types then [typeParameters] else []) ++
    [opt (node .classHeritage), .field .body (node .classBody)])

def className (d : Dialect) : Rule := if d.types then typeName else name

def classDeclaration (d : Dialect) : Rule :=
  let body : Rule := .seq [classFrom d ["class"] (className d), opt (leaf .semicolonGap)]
  if d.types then left .declaration body else bound .declaration body

def classHeritage (d : Dialect) : Rule :=
  if d.types then .choice [
    .seq [node .extendsClause, opt (node .implementsClause)], node .implementsClause]
  else .seq ["extends", phrase .expression]

def functionFrom (d : Dialect) (star : List Rule) (name : Rule) : Rule :=
  .seq ([opt "async", "function"] ++ star ++
    [.field .name name, callSignature d, .field .body (node .statementBlock)])

def functionExpression (d : Dialect) (star : List Rule) : Rule :=
  bound .literal (functionFrom d star (opt name))

def functionDeclaration (d : Dialect) (star : List Rule) : Rule :=
  right .declaration (.seq [functionFrom d star name, opt (leaf .semicolonGap)])

def functionRules (d : Dialect) : Rules := [
  (.node .classExpression, bound .literal (classFrom d ["class"] (opt (className d)))),
  (.node .classDeclaration, classDeclaration d),
  (.node .classHeritage, classHeritage d),
  (.node .functionExpression, functionExpression d []),
  (.node .functionDeclaration, functionDeclaration d []),
  (.node .generatorFunction, functionExpression d ["*"]),
  (.node .generatorFunctionDeclaration, functionDeclaration d ["*"]),
  (.node .arrowFunction, .seq [opt "async",
    .choice [.field .parameter (.choice [reservedIdentifier d, name]), callSignature d],
    "=>", .field .body (.choice [phrase .expression, node .statementBlock])])]

def typedSignatureRules : Rules := [
  (.phrase .signature, .seq [typeParameters, .field .parameters (node .formalParameters),
    .field .returnType (opt (.choice [node .typeAscription, node .assertsAscription,
      node .predicateAscription]))]),
  (.phrase .formalParameter, .choice [node .requiredParameter, node .optionalParameter])]

end TemplateValues.Syntax.Grammar
