import TemplateValues.Syntax.Grammar.Function
import TemplateValues.Syntax.Grammar.Literal
import TemplateValues.Syntax.Grammar.Markup
import TemplateValues.Syntax.Grammar.Module
import TemplateValues.Syntax.Grammar.Operator
import TemplateValues.Syntax.Grammar.Precedence
import TemplateValues.Syntax.Grammar.Statement
import TemplateValues.Syntax.Grammar.Type
import TemplateValues.Syntax.Grammar.TypedDeclaration

/-!
# The grammars of the dialects

The order of the rules matters where two rules could end at the same place and nothing else settles
which one does: the one whose symbol comes first is tried first.
-/

namespace TemplateValues.Syntax

def Dialect.grammar (d : Dialect) : Grammar where
  rules :=
    Grammar.moduleRules d ++ Grammar.statementRules d ++ Grammar.expressionRules d ++
    (if d.types || d.markup then Grammar.dottedNameRules else []) ++
    (if d.markup then Grammar.markupRules d else []) ++
    Grammar.functionRules d ++
    (if d.types then Grammar.typedSignatureRules ++ Grammar.typedChainRules else []) ++
    Grammar.operatorRules d ++ Grammar.literalRules ++ Grammar.memberRules d ++
    (if d.types then
       Grammar.typedDeclarationRules ++ Grammar.ascriptionRules ++ Grammar.typeFormRules d
     else Grammar.untypedFieldRules)
  orders := if d.types then Grammar.baseOrders ++ Grammar.typeOrders else Grammar.baseOrders

end TemplateValues.Syntax
