import TemplateValues.Syntax.Grammar.Name

/-!
# Files, imports and exports
-/

namespace TemplateValues.Syntax.Grammar

open Rule

def typeWord (d : Dialect) : Rule := if d.types then opt (oneOf ["type", "typeof"]) else .empty

def importedName (d : Dialect) : Rule := if d.types then phrase .importedName else name

def exportStatement (d : Dialect) : Rule :=
  let always : Rule := .choice [
    .seq ["export", .choice [
      .seq ["*", phrase .fromClause],
      .seq [node .namespaceExport, phrase .fromClause],
      .seq [node .exportClause, phrase .fromClause],
      node .exportClause], semicolon],
    .seq [decorators, "export", .choice [
      .field .declaration (phrase .declaration),
      .seq ["default", .choice [
        .field .declaration (phrase .declaration),
        .seq [.field .value (phrase .expression), semicolon]]]]]]
  if d.types then .choice [
    always,
    .seq ["export", "type", node .exportClause, opt (phrase .fromClause), semicolon],
    .seq ["export", "import", node .importAlias],
    .seq ["export", "=", phrase .expression, semicolon],
    .seq ["export", "as", "namespace", name, semicolon]]
  else always

def exportSpecifier (d : Dialect) : Rule :=
  .seq [typeWord d, .field .name (phrase .exportedName),
    opt (.seq ["as", .field .localName (phrase .exportedName)])]

def declaration (d : Dialect) : Rule :=
  let always : Rule := .choice [node .functionDeclaration, node .generatorFunctionDeclaration,
    node .classDeclaration, node .lexicalDeclaration, node .variableDeclaration]
  if d.types then .choice [always, node .functionSignature, node .abstractClassDeclaration,
    node .moduleBlock, bound .declaration (node .internalModule), node .typeAliasDeclaration,
    node .enumDeclaration, node .interfaceDeclaration, node .importAlias, node .ambientDeclaration]
  else always

def importStatement (d : Dialect) : Rule :=
  let named : Rule := .seq [node .importClause, phrase .fromClause]
  let bare : Rule := .field .source (node .string)
  .seq ["import", typeWord d,
    .choice (if d.types then [named, node .importRequireClause, bare] else [named, bare]),
    opt (node .importAttribute), semicolon]

def importClause (d : Dialect) : Rule :=
  let rest : Rule := .choice [node .namespaceImport, node .namedImports]
  .choice [node .namespaceImport, node .namedImports,
    .seq [importedName d, opt (.seq [",", rest])]]

def importSpecifier (d : Dialect) : Rule :=
  let foreign : Rule :=
    if d.types then .choice [phrase .exportedName, .shown .identifier "default"]
    else phrase .exportedName
  .seq [typeWord d, .choice [
    .field .name (importedName d),
    .seq [.field .name foreign, "as", .field .localName (importedName d)]]]

def moduleRules (d : Dialect) : Rules := [
  (.node .program, .seq [opt (leaf .hashBang), many (phrase .statement)]),
  (.node .exportStatement, exportStatement d),
  (.node .namespaceExport, .seq ["*", "as", phrase .exportedName]),
  (.node .exportClause, .seq ["\x7b", commaSep (node .exportSpecifier), opt ",", "\x7d"]),
  (.node .exportSpecifier, exportSpecifier d),
  (.phrase .exportedName, .choice [name, node .string]),
  (.phrase .declaration, declaration d),
  (.node .importWord, "import"),
  (.node .importStatement, importStatement d),
  (.node .importClause, importClause d),
  (.phrase .fromClause, .seq ["from", .field .source (node .string)]),
  (.node .namespaceImport, .seq ["*", "as", name]),
  (.node .namedImports, .seq ["\x7b", commaSep (node .importSpecifier), opt ",", "\x7d"]),
  (.node .importSpecifier, importSpecifier d),
  (.node .importAttribute, .seq [oneOf ["with", "assert"], node .object])]

end TemplateValues.Syntax.Grammar
