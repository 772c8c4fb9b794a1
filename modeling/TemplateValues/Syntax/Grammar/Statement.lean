import TemplateValues.Syntax.Grammar.Name

/-!
# Statements
-/

namespace TemplateValues.Syntax.Grammar

open Rule

def variableDeclarator (d : Dialect) : Rule :=
  if d.types then .choice [
    .seq [.field .name bindingTarget, ascription, opt (phrase .initializer)],
    bound .declaration
      (.seq [.field .name name, "!", .field .type (node .typeAscription)])]
  else .seq [.field .name bindingTarget, opt (phrase .initializer)]

def forStatement : Rule :=
  .seq ["for", "(",
    .choice [
      .field .initializer (.choice [node .lexicalDeclaration, node .variableDeclaration]),
      .seq [.field .initializer expressions, ";"],
      .field .initializer (node .emptyStatement)],
    .field .condition (.choice [.seq [expressions, ";"], node .emptyStatement]),
    .field .increment (opt expressions), ")", .field .body (phrase .statement)]

def forHeader (d : Dialect) : Rule :=
  .seq ["(",
    .choice [
      .field .left (.choice [target d, node .parenthesizedExpression]),
      .seq [.field .kind "var", .field .left bindingTarget, opt (phrase .initializer)],
      .seq [.field .kind (oneOf ["let", "const"]), .field .left bindingTarget,
        opt (leaf .semicolonGap)]],
    .field .operator (oneOf ["in", "of"]), .field .right expressions, ")"]

def catchClause (d : Dialect) : Rule :=
  let bound : Rule := .field .parameter bindingTarget
  .seq ["catch",
    opt (.seq (if d.types then ["(", bound, opt (.field .type (node .typeAscription)), ")"]
      else ["(", bound, ")"])),
    .field .body (node .statementBlock)]

def parenthesizedExpression (d : Dialect) : Rule :=
  .seq ["(",
    if d.types then .choice [.seq [phrase .expression, ascription], node .sequenceExpression]
    else expressions, ")"]

def jump (word : String) : Rule :=
  .seq [word, .field .label (opt (.shown .statementIdentifier name)), semicolon]

def statementRules (d : Dialect) : Rules := [
  (.phrase .statement, .choice [node .exportStatement, node .importStatement,
    node .debuggerStatement, node .expressionStatement, phrase .declaration, node .statementBlock,
    node .ifStatement, node .switchStatement, node .forStatement, node .forInStatement,
    node .whileStatement, node .doStatement, node .tryStatement, node .withStatement,
    node .breakStatement, node .continueStatement, node .returnStatement, node .throwStatement,
    node .emptyStatement, node .labeledStatement]),
  (.node .expressionStatement, .seq [expressions, semicolon]),
  (.node .variableDeclaration, .seq ["var", commaSep1 (node .variableDeclarator), semicolon]),
  (.node .lexicalDeclaration, .seq [.field .kind (oneOf ["let", "const"]),
    commaSep1 (node .variableDeclarator), semicolon]),
  (.node .variableDeclarator, variableDeclarator d),
  (.node .statementBlock,
    rightward (.seq ["\x7b", many (phrase .statement), "\x7d", opt (leaf .semicolonGap)])),
  (.node .elseClause, .seq ["else", phrase .statement]),
  (.node .ifStatement, rightward (.seq ["if",
    .field .condition (node .parenthesizedExpression),
    .field .consequence (phrase .statement),
    opt (.field .alternative (node .elseClause))])),
  (.node .switchStatement, .seq ["switch", .field .value (node .parenthesizedExpression),
    .field .body (node .switchBody)]),
  (.node .forStatement, forStatement),
  (.node .forInStatement,
    .seq ["for", opt "await", phrase .forHeader, .field .body (phrase .statement)]),
  (.phrase .forHeader, forHeader d),
  (.node .whileStatement, .seq ["while", .field .condition (node .parenthesizedExpression),
    .field .body (phrase .statement)]),
  (.node .doStatement, rightward (.seq ["do", .field .body (phrase .statement), "while",
    .field .condition (node .parenthesizedExpression), opt semicolon])),
  (.node .tryStatement, .seq ["try", .field .body (node .statementBlock),
    opt (.field .handler (node .catchClause)), opt (.field .finalizer (node .finallyClause))]),
  (.node .withStatement, .seq ["with", .field .object (node .parenthesizedExpression),
    .field .body (phrase .statement)]),
  (.node .breakStatement, jump "break"),
  (.node .continueStatement, jump "continue"),
  (.node .debuggerStatement, .seq ["debugger", semicolon]),
  (.node .returnStatement, .seq ["return", opt expressions, semicolon]),
  (.node .throwStatement, .seq ["throw", expressions, semicolon]),
  (.node .emptyStatement, ";"),
  (.node .labeledStatement, .favoured (-1) (.seq [
    .field .label (.shown .statementIdentifier (.choice [name, reservedName d])), ":",
    .field .body (phrase .statement)])),
  (.node .switchBody,
    .seq ["\x7b", many (.choice [node .switchCase, node .switchDefault]), "\x7d"]),
  (.node .switchCase, .seq ["case", .field .value expressions, ":",
    .field .body (many (phrase .statement))]),
  (.node .switchDefault, .seq ["default", ":", .field .body (many (phrase .statement))]),
  (.node .catchClause, catchClause d),
  (.node .finallyClause, .seq ["finally", .field .body (node .statementBlock)]),
  (.node .parenthesizedExpression, parenthesizedExpression d)]

end TemplateValues.Syntax.Grammar
