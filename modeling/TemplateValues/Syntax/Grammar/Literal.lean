import TemplateValues.Syntax.Grammar.Name

/-!
# Strings, templates and regular expressions
-/

namespace TemplateValues.Syntax.Grammar

open Rule

def quoted (quote : String) (chars : Pattern) : Rule :=
  .seq [quote, many (.choice [leaf chars, leaf .escape]), quote]

def literalRules : Rules := [
  (.node .string, .choice [quoted "\"" .doubleChars, quoted "'" .singleChars]),
  (.node .templateString, .seq ["`",
    many (.choice [leaf .templateChars, leaf .escape, node .templateSubstitution]), "`"]),
  (.node .templateSubstitution, .seq ["$\x7b", expressions, "\x7d"]),
  (.node .regex, .seq ["/", .field .pattern (leaf .regexChars), leaf .regexEnd,
    opt (.field .flags (leaf .regexFlags))]),
  (.node .metaProperty, .choice [.seq ["new", ".", "target"], .seq ["import", ".", "meta"]]),
  (.node .arguments, .seq ["(",
    commaSep (opt (.choice [phrase .expression, node .spreadElement])), ")"])]

end TemplateValues.Syntax.Grammar
