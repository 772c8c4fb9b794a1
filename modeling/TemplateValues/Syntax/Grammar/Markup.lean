import TemplateValues.Syntax.Grammar.Expression

/-!
# Markup elements

In texts with types the name of an element may be followed by type arguments.
-/

namespace TemplateValues.Syntax.Grammar

open Rule

def markupName : Rule := .choice [leaf .markupName, name]

def dottedName : Rule := .shown .memberExpression (node .nestedIdentifier)

def elementName : Rule := .choice [markupName, dottedName, node .jsxNamespaceName]

def settings : Rule := many (.field .setting (.choice [node .jsxAttribute, node .jsxExpression]))

def typedElementFront : Rule :=
  .seq ["<", opt (.seq [
    .choice [
      .field .name (.choice [markupName, node .jsxNamespaceName]),
      .seq [.field .name (.choice [name, dottedName]), typeArguments]],
    settings])]

def openingElement (d : Dialect) : Rule :=
  .favoured (-1) (.seq <|
    if d.types then [typedElementFront, ">"]
    else ["<", opt (.seq [.field .name elementName, settings]), ">"])

def selfClosingElement (d : Dialect) : Rule :=
  if d.types then .favoured (-1) (.seq [typedElementFront, "/>"])
  else .seq ["<", .field .name elementName, settings, "/>"]

def markupQuoted (quote : String) (chars : Pattern) : Rule :=
  .seq [quote, many (.choice [leaf chars, leaf .characterReference]), quote]

def dottedNameRules : Rules := [
  (.node .nestedIdentifier, bound .member (.seq [
    .field .object (.choice [name, dottedName]), ".",
    .field .property (.shown .propertyIdentifier name)]))]

def markupRules (d : Dialect) : Rules := [
  (.node .jsxElement, .seq [.field .openTag (node .jsxOpeningElement),
    many (.choice [leaf .markupText, leaf .characterReference, element, node .jsxExpression]),
    .field .closeTag (node .jsxClosingElement)]),
  (.node .jsxExpression, .seq ["\x7b",
    opt (.choice [phrase .expression, node .sequenceExpression, node .spreadElement]), "\x7d"]),
  (.node .jsxOpeningElement, openingElement d),
  (.node .jsxNamespaceName, .seq [markupName, ":", markupName]),
  (.node .jsxClosingElement, .seq ["</", opt (.field .name elementName), ">"]),
  (.node .jsxSelfClosingElement, selfClosingElement d),
  (.node .jsxAttribute, .seq [
    .choice [.shown .propertyIdentifier markupName, node .jsxNamespaceName],
    opt (.seq ["=",
      .choice [.shown .string (phrase .markupString), node .jsxExpression, element]])]),
  (.phrase .markupString, .choice [
    markupQuoted "\"" .markupDoubleChars, markupQuoted "'" .markupSingleChars])]

end TemplateValues.Syntax.Grammar
