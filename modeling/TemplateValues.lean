import TemplateValues.Cancellation
import TemplateValues.Chain.Name
import TemplateValues.Chain.Normal
import TemplateValues.Chain.Segment
import TemplateValues.Codebase
import TemplateValues.Declaration
import TemplateValues.Json.Clean
import TemplateValues.Json.Reader
import TemplateValues.Language
import TemplateValues.Limits
import TemplateValues.LiteralSet
import TemplateValues.Oracle.Basic
import TemplateValues.Oracle.Hover
import TemplateValues.Oracle.Script
import TemplateValues.Path.Basic
import TemplateValues.Path.Lexical
import TemplateValues.Project.Alias
import TemplateValues.Project.Config
import TemplateValues.Project.Modules
import TemplateValues.Resolver
import TemplateValues.Source
import TemplateValues.Source.Binding
import TemplateValues.Source.Literal
import TemplateValues.Source.Member
import TemplateValues.Strategy
import TemplateValues.Syntax.Automaton
import TemplateValues.Syntax.Dialect
import TemplateValues.Syntax.Grammar.Basic
import TemplateValues.Syntax.Grammar.Expression
import TemplateValues.Syntax.Grammar.Function
import TemplateValues.Syntax.Grammar.Literal
import TemplateValues.Syntax.Grammar.Markup
import TemplateValues.Syntax.Grammar.Member
import TemplateValues.Syntax.Grammar.Module
import TemplateValues.Syntax.Grammar.Name
import TemplateValues.Syntax.Grammar.Operator
import TemplateValues.Syntax.Grammar.Precedence
import TemplateValues.Syntax.Grammar.Statement
import TemplateValues.Syntax.Grammar.Type
import TemplateValues.Syntax.Grammar.TypedDeclaration
import TemplateValues.Syntax.Input
import TemplateValues.Syntax.Kind
import TemplateValues.Syntax.Lexeme
import TemplateValues.Syntax.Node
import TemplateValues.Syntax.Omission
import TemplateValues.Syntax.Parse
import TemplateValues.Syntax.Production
import TemplateValues.Syntax.Reading
import TemplateValues.Syntax.Rule
import TemplateValues.Syntax.Stack
import TemplateValues.Syntax.Table
import TemplateValues.Syntax.Terminal
import TemplateValues.Syntax.Token
import TemplateValues.Syntax.Tree
import TemplateValues.Template.Combinations
import TemplateValues.Template.Hint
import TemplateValues.Template.Scan
import TemplateValues.Template.Site
import TemplateValues.Text.Alphabetic
import TemplateValues.Text.Blank
import TemplateValues.Text.Numeric
import TemplateValues.Text.Quoted
import TemplateValues.Text.Range
import TemplateValues.Text.Slice
import TemplateValues.Text.Word
import TemplateValues.Values.Answer
import TemplateValues.Values.Chain
import TemplateValues.Values.Declaration
import TemplateValues.Values.Expression
import TemplateValues.Values.Goal
import TemplateValues.Values.Idiom
import TemplateValues.Values.Iteration
import TemplateValues.Values.Type
import TemplateValues.Visit
import TemplateValues.Workspace
import TemplateValues.Proofs.Inquiry
import TemplateValues.Proofs.Evaluation
import TemplateValues.Proofs.VisitState
import TemplateValues.Proofs.Scope
import TemplateValues.Proofs.Rules
import TemplateValues.Proofs.Termination
import TemplateValues.Proofs.Completeness
import TemplateValues.Proofs.Reuse
import TemplateValues.Proofs.Onward
import TemplateValues.Proofs.Product
import TemplateValues.Proofs.Exports
import TemplateValues.Proofs.Provenance
import TemplateValues.Proofs.Resolution
import TemplateValues.Proofs.Parsing.Table
import TemplateValues.Proofs.Parsing.Automaton
import TemplateValues.Proofs.Parsing.Stack
import TemplateValues.Proofs.Parsing.Reading
import TemplateValues.Proofs.Parsing.Grammar
import TemplateValues.Proofs.Parsing.Shape
import TemplateValues.Proofs.ExportLookup
import TemplateValues.Proofs.Json.Cleaning
import TemplateValues.Proofs.Agreement
import TemplateValues.Proofs.Interruption
import TemplateValues.Proofs.Fallback
import TemplateValues.Proofs.Consultation
import TemplateValues.Proofs.Frame
import TemplateValues.Proofs.MemberChains
import TemplateValues.Proofs.Expansion
import TemplateValues.Proofs.Scanning
import TemplateValues.Proofs.Reach
import TemplateValues.Proofs.StaleCopy
import TemplateValues.Proofs.LexicalPaths
import TemplateValues.Proofs.NormalText
import TemplateValues.Proofs.Spelling
import TemplateValues.Proofs.Inheritance
import TemplateValues.Proofs.Json.Comments
import TemplateValues.Proofs.Json.Reading
import TemplateValues.Proofs.Json.Records
import TemplateValues.Proofs.RelativePaths
import TemplateValues.Proofs.PathMapping
import TemplateValues.Proofs.LiteralSets
import TemplateValues.Proofs.HoverSignature
import TemplateValues.Proofs.HoverUnions
import TemplateValues.Proofs.Parsing.Roles
import TemplateValues.Proofs.EnumMembers
import TemplateValues.Proofs.Idioms
import TemplateValues.Proofs.Enumerations
import TemplateValues.Proofs.Hints
import TemplateValues.Proofs.DocumentOrder
import TemplateValues.Proofs.ImportForms
import TemplateValues.Proofs.ObjectValues
import TemplateValues.Proofs.Wildcards
import TemplateValues.Proofs.Quoting
import TemplateValues.Proofs.VisitTrace
import TemplateValues.Proofs.Alike
import TemplateValues.Proofs.KeyChains
import TemplateValues.Proofs.Wrappers
import TemplateValues.Proofs.MemberPaths
import TemplateValues.Proofs.SetHistories
