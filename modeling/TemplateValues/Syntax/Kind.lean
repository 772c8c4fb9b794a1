/-!
# Kinds of syntax nodes

A syntax tree is made of *named* nodes, one kind per construct of the language, and of *anonymous*
tokens (keywords and punctuation), whose kind is their own text.  `Kind.name` is the name under
which a kind is reported and looked up; a token and a construct may share it (`string` is both a
literal and a type keyword), so looking up by name is not the same as comparing kinds.
-/

namespace TemplateValues.Syntax

inductive Kind where
  -- Whole files
  | program | comment | htmlComment | hashBangLine | error
  -- Statements
  | exportStatement | importStatement | debuggerStatement | expressionStatement | ifStatement
  | switchStatement | forStatement | forInStatement | whileStatement | doStatement | tryStatement
  | withStatement | breakStatement | continueStatement | returnStatement | throwStatement
  | emptyStatement | labeledStatement | statementBlock | statementIdentifier | elseClause
  | switchBody | switchCase | switchDefault | catchClause | finallyClause
  -- Imports and exports
  | namespaceExport | exportClause | exportSpecifier | importClause | namespaceImport
  | namedImports | importSpecifier | importAttribute | importRequireClause | importAlias
  | importWord
  -- Declarations
  | lexicalDeclaration | variableDeclaration | variableDeclarator | functionDeclaration
  | generatorFunctionDeclaration | functionSignature | classDeclaration
  | abstractClassDeclaration | ambientDeclaration | moduleBlock | internalModule
  | typeAliasDeclaration | interfaceDeclaration | interfaceBody | extendsTypeClause
  | enumDeclaration | enumBody | enumAssignment
  -- Classes
  | classExpression | classBody | classHeritage | extendsClause | implementsClause
  | classStaticBlock | publicFieldDefinition | fieldDefinition | methodDefinition
  | methodSignature | abstractMethodSignature | accessibilityModifier | overrideModifier
  | decorator
  -- Parameters and patterns
  | formalParameters | requiredParameter | optionalParameter | objectPattern | arrayPattern
  | pairPattern | restPattern | assignmentPattern | objectAssignmentPattern
  | shorthandPropertyIdentifierPattern
  -- Names and literals
  | identifier | propertyIdentifier | privatePropertyIdentifier | shorthandPropertyIdentifier
  | computedPropertyName | nestedIdentifier | undefinedName | thisName | superName | trueLiteral
  | falseLiteral | nullLiteral | number | string | stringFragment | escapeSequence
  | templateString | templateSubstitution | regex | regexPattern | regexFlags
  -- Expressions
  | object | pair | spreadElement | array | functionExpression | generatorFunction
  | arrowFunction | metaProperty | callExpression | newExpression | arguments | memberExpression
  | subscriptExpression | optionalChain | parenthesizedExpression | sequenceExpression
  | assignmentExpression | augmentedAssignmentExpression | awaitExpression | yieldExpression
  | unaryExpression | updateExpression | binaryExpression | ternaryExpression | asExpression
  | satisfiesExpression | instantiationExpression | typeAssertion | nonNullExpression
  -- Types
  | typeAscription | assertsAscription | predicateAscription | omittingAscription
  | addingAscription | optingAscription | typeIdentifier | nestedTypeIdentifier | genericType
  | typeArguments | typeParameters | typeParameter | constraint | defaultType | predefinedType
  | literalType | existentialType | flowMaybeType | objectType | arrayType | tupleType
  | optionalType | restType | readonlyType | unionType | intersectionType | conditionalType
  | inferType | functionType | constructorType | parenthesizedType | typeQuery | indexTypeQuery
  | lookupType | thisType | templateLiteralType | templateType | typePredicate | asserts
  | mappedTypeClause | indexSignature | propertySignature | callSignature | constructSignature
  -- Markup elements
  | jsxElement | jsxOpeningElement | jsxClosingElement | jsxSelfClosingElement | jsxAttribute
  | jsxExpression | jsxText | jsxNamespaceName | htmlCharacterReference
  -- A keyword or a punctuation mark, given by its text
  | token (text : String)
deriving DecidableEq, Hashable, Repr, Inhabited

namespace Kind

def name : Kind → String
  | .program => "program"
  | .comment => "comment"
  | .htmlComment => "html_comment"
  | .hashBangLine => "hash_bang_line"
  | .error => "ERROR"
  | .exportStatement => "export_statement"
  | .importStatement => "import_statement"
  | .debuggerStatement => "debugger_statement"
  | .expressionStatement => "expression_statement"
  | .ifStatement => "if_statement"
  | .switchStatement => "switch_statement"
  | .forStatement => "for_statement"
  | .forInStatement => "for_in_statement"
  | .whileStatement => "while_statement"
  | .doStatement => "do_statement"
  | .tryStatement => "try_statement"
  | .withStatement => "with_statement"
  | .breakStatement => "break_statement"
  | .continueStatement => "continue_statement"
  | .returnStatement => "return_statement"
  | .throwStatement => "throw_statement"
  | .emptyStatement => "empty_statement"
  | .labeledStatement => "labeled_statement"
  | .statementBlock => "statement_block"
  | .statementIdentifier => "statement_identifier"
  | .elseClause => "else_clause"
  | .switchBody => "switch_body"
  | .switchCase => "switch_case"
  | .switchDefault => "switch_default"
  | .catchClause => "catch_clause"
  | .finallyClause => "finally_clause"
  | .namespaceExport => "namespace_export"
  | .exportClause => "export_clause"
  | .exportSpecifier => "export_specifier"
  | .importClause => "import_clause"
  | .namespaceImport => "namespace_import"
  | .namedImports => "named_imports"
  | .importSpecifier => "import_specifier"
  | .importAttribute => "import_attribute"
  | .importRequireClause => "import_require_clause"
  | .importAlias => "import_alias"
  | .importWord => "import"
  | .lexicalDeclaration => "lexical_declaration"
  | .variableDeclaration => "variable_declaration"
  | .variableDeclarator => "variable_declarator"
  | .functionDeclaration => "function_declaration"
  | .generatorFunctionDeclaration => "generator_function_declaration"
  | .functionSignature => "function_signature"
  | .classDeclaration => "class_declaration"
  | .abstractClassDeclaration => "abstract_class_declaration"
  | .ambientDeclaration => "ambient_declaration"
  | .moduleBlock => "module"
  | .internalModule => "internal_module"
  | .typeAliasDeclaration => "type_alias_declaration"
  | .interfaceDeclaration => "interface_declaration"
  | .interfaceBody => "interface_body"
  | .extendsTypeClause => "extends_type_clause"
  | .enumDeclaration => "enum_declaration"
  | .enumBody => "enum_body"
  | .enumAssignment => "enum_assignment"
  | .classExpression => "class"
  | .classBody => "class_body"
  | .classHeritage => "class_heritage"
  | .extendsClause => "extends_clause"
  | .implementsClause => "implements_clause"
  | .classStaticBlock => "class_static_block"
  | .publicFieldDefinition => "public_field_definition"
  | .fieldDefinition => "field_definition"
  | .methodDefinition => "method_definition"
  | .methodSignature => "method_signature"
  | .abstractMethodSignature => "abstract_method_signature"
  | .accessibilityModifier => "accessibility_modifier"
  | .overrideModifier => "override_modifier"
  | .decorator => "decorator"
  | .formalParameters => "formal_parameters"
  | .requiredParameter => "required_parameter"
  | .optionalParameter => "optional_parameter"
  | .objectPattern => "object_pattern"
  | .arrayPattern => "array_pattern"
  | .pairPattern => "pair_pattern"
  | .restPattern => "rest_pattern"
  | .assignmentPattern => "assignment_pattern"
  | .objectAssignmentPattern => "object_assignment_pattern"
  | .shorthandPropertyIdentifierPattern => "shorthand_property_identifier_pattern"
  | .identifier => "identifier"
  | .propertyIdentifier => "property_identifier"
  | .privatePropertyIdentifier => "private_property_identifier"
  | .shorthandPropertyIdentifier => "shorthand_property_identifier"
  | .computedPropertyName => "computed_property_name"
  | .nestedIdentifier => "nested_identifier"
  | .undefinedName => "undefined"
  | .thisName => "this"
  | .superName => "super"
  | .trueLiteral => "true"
  | .falseLiteral => "false"
  | .nullLiteral => "null"
  | .number => "number"
  | .string => "string"
  | .stringFragment => "string_fragment"
  | .escapeSequence => "escape_sequence"
  | .templateString => "template_string"
  | .templateSubstitution => "template_substitution"
  | .regex => "regex"
  | .regexPattern => "regex_pattern"
  | .regexFlags => "regex_flags"
  | .object => "object"
  | .pair => "pair"
  | .spreadElement => "spread_element"
  | .array => "array"
  | .functionExpression => "function_expression"
  | .generatorFunction => "generator_function"
  | .arrowFunction => "arrow_function"
  | .metaProperty => "meta_property"
  | .callExpression => "call_expression"
  | .newExpression => "new_expression"
  | .arguments => "arguments"
  | .memberExpression => "member_expression"
  | .subscriptExpression => "subscript_expression"
  | .optionalChain => "optional_chain"
  | .parenthesizedExpression => "parenthesized_expression"
  | .sequenceExpression => "sequence_expression"
  | .assignmentExpression => "assignment_expression"
  | .augmentedAssignmentExpression => "augmented_assignment_expression"
  | .awaitExpression => "await_expression"
  | .yieldExpression => "yield_expression"
  | .unaryExpression => "unary_expression"
  | .updateExpression => "update_expression"
  | .binaryExpression => "binary_expression"
  | .ternaryExpression => "ternary_expression"
  | .asExpression => "as_expression"
  | .satisfiesExpression => "satisfies_expression"
  | .instantiationExpression => "instantiation_expression"
  | .typeAssertion => "type_assertion"
  | .nonNullExpression => "non_null_expression"
  | .typeAscription => "type_annotation"
  | .assertsAscription => "asserts_annotation"
  | .predicateAscription => "type_predicate_annotation"
  | .omittingAscription => "omitting_type_annotation"
  | .addingAscription => "adding_type_annotation"
  | .optingAscription => "opting_type_annotation"
  | .typeIdentifier => "type_identifier"
  | .nestedTypeIdentifier => "nested_type_identifier"
  | .genericType => "generic_type"
  | .typeArguments => "type_arguments"
  | .typeParameters => "type_parameters"
  | .typeParameter => "type_parameter"
  | .constraint => "constraint"
  | .defaultType => "default_type"
  | .predefinedType => "predefined_type"
  | .literalType => "literal_type"
  | .existentialType => "existential_type"
  | .flowMaybeType => "flow_maybe_type"
  | .objectType => "object_type"
  | .arrayType => "array_type"
  | .tupleType => "tuple_type"
  | .optionalType => "optional_type"
  | .restType => "rest_type"
  | .readonlyType => "readonly_type"
  | .unionType => "union_type"
  | .intersectionType => "intersection_type"
  | .conditionalType => "conditional_type"
  | .inferType => "infer_type"
  | .functionType => "function_type"
  | .constructorType => "constructor_type"
  | .parenthesizedType => "parenthesized_type"
  | .typeQuery => "type_query"
  | .indexTypeQuery => "index_type_query"
  | .lookupType => "lookup_type"
  | .thisType => "this_type"
  | .templateLiteralType => "template_literal_type"
  | .templateType => "template_type"
  | .typePredicate => "type_predicate"
  | .asserts => "asserts"
  | .mappedTypeClause => "mapped_type_clause"
  | .indexSignature => "index_signature"
  | .propertySignature => "property_signature"
  | .callSignature => "call_signature"
  | .constructSignature => "construct_signature"
  | .jsxElement => "jsx_element"
  | .jsxOpeningElement => "jsx_opening_element"
  | .jsxClosingElement => "jsx_closing_element"
  | .jsxSelfClosingElement => "jsx_self_closing_element"
  | .jsxAttribute => "jsx_attribute"
  | .jsxExpression => "jsx_expression"
  | .jsxText => "jsx_text"
  | .jsxNamespaceName => "jsx_namespace_name"
  | .htmlCharacterReference => "html_character_reference"
  | .token text => text

/-- Constructs are named, tokens are not. -/
def isNamed : Kind → Bool
  | .token _ => false
  | _ => true

/-- The constructs that are statements of their own right; a block is not one. -/
def isStatement : Kind → Bool
  | .exportStatement | .importStatement | .debuggerStatement | .expressionStatement | .ifStatement
  | .switchStatement | .forStatement | .forInStatement | .whileStatement | .doStatement
  | .tryStatement | .withStatement | .breakStatement | .continueStatement | .returnStatement
  | .throwStatement | .emptyStatement | .labeledStatement => true
  | _ => false

end Kind

inductive Field where
  | name | localName | value | type | body | declaration | source | kind | left | right | operator
  | function | arguments | typeArguments | typeParameters | parameters | parameter | returnType
  | object | property | index | optionalChain | condition | consequence | alternative | pattern
  | flags | key | label | decorator | member | constructed | constraint | argument | qualifier
  | indexType | sign | initializer | increment | handler | finalizer | openTag | closeTag
  | setting
deriving DecidableEq, Hashable, Repr, Inhabited

end TemplateValues.Syntax
