namespace ComponentAtlas.Source

inductive Kind where
  | mark (text : String)
  | comment
  -- statements
  | program | hashBangLine | exportStatement | importStatement | debuggerStatement
  | expressionStatement | statementBlock | ifStatement | elseClause | switchStatement | switchBody
  | forStatement | forInStatement | whileStatement | doStatement | tryStatement | catchClause
  | finallyClause | withStatement | breakStatement | continueStatement | returnStatement
  | throwStatement | emptyStatement | labeledStatement
  -- declarations
  | functionDeclaration | generatorFunctionDeclaration | functionSignature | classDeclaration
  | abstractClassDeclaration | lexicalDeclaration | variableDeclaration | variableDeclarator
  | moduleDeclaration | internalModule | typeAliasDeclaration | enumDeclaration | enumBody
  | enumAssignment | interfaceDeclaration | interfaceBody | importAlias | ambientDeclaration
  -- module bindings
  | exportClause | exportSpecifier | namespaceExport | importClause | importSpecifier | namedImports
  | namespaceImport | importRequireClause | importAttribute
  -- class parts
  | decorator | classHeritage | extendsClause | implementsClause | extendsTypeClause | classBody
  | methodDefinition | methodSignature | publicFieldDefinition | indexSignature | classStaticBlock
  -- parameters
  | typeParameters | typeParameter | constraint | defaultType | typeArguments | formalParameters
  | requiredParameter | typeAscription
  -- names and literals
  | identifier | propertyIdentifier | typeIdentifier | privatePropertyIdentifier
  | statementIdentifier | nestedIdentifier | computedPropertyName | number | string
  | templateString | templateChars | templateSubstitution | regex | this | super | trueLiteral | falseLiteral
  | null | undefined
  -- expressions
  | array | object | pair | spreadElement | parenthesizedExpression | arrowFunction
  | functionExpression | generatorFunction | classExpression | memberExpression | subscriptExpression
  | callExpression | newExpression | nonNullExpression | instantiationExpression | arguments
  | binaryExpression | unaryExpression | updateExpression | ternaryExpression
  | assignmentExpression | augmentedAssignmentExpression | sequenceExpression | yieldExpression
  | awaitExpression | asExpression | satisfiesExpression | typeAssertion | metaProperty
  | importCall | objectPattern | arrayPattern | restPattern | jsxElement | jsxSelfClosingElement
  | jsxExpression | jsxAttribute | jsxText
  -- types
  | predefinedType | literalType | genericType | nestedTypeIdentifier | arrayType | readonlyType
  | tupleType | objectType | unionType | intersectionType | parenthesizedType | functionType
  | constructorType | indexTypeQuery | typeQuery | lookupType | conditionalType
  | templateLiteralType | templateType | thisType | inferType | restType | optionalType
  | flowMaybeType | existentialType | typePredicate | asserts | propertySignature | callSignature
  | constructSignature | tupleParameter
deriving DecidableEq, Repr

namespace Kind

def isNamed : Kind → Bool
  | mark _ => false
  | _ => true

def label : Kind → String
  | mark text => text
  | comment => "comment"
  | program => "program"
  | hashBangLine => "hash_bang_line"
  | exportStatement => "export_statement"
  | importStatement => "import_statement"
  | debuggerStatement => "debugger_statement"
  | expressionStatement => "expression_statement"
  | statementBlock => "statement_block"
  | ifStatement => "if_statement"
  | elseClause => "else_clause"
  | switchStatement => "switch_statement"
  | switchBody => "switch_body"
  | forStatement => "for_statement"
  | forInStatement => "for_in_statement"
  | whileStatement => "while_statement"
  | doStatement => "do_statement"
  | tryStatement => "try_statement"
  | catchClause => "catch_clause"
  | finallyClause => "finally_clause"
  | withStatement => "with_statement"
  | breakStatement => "break_statement"
  | continueStatement => "continue_statement"
  | returnStatement => "return_statement"
  | throwStatement => "throw_statement"
  | emptyStatement => "empty_statement"
  | labeledStatement => "labeled_statement"
  | functionDeclaration => "function_declaration"
  | generatorFunctionDeclaration => "generator_function_declaration"
  | functionSignature => "function_signature"
  | classDeclaration => "class_declaration"
  | abstractClassDeclaration => "abstract_class_declaration"
  | lexicalDeclaration => "lexical_declaration"
  | variableDeclaration => "variable_declaration"
  | variableDeclarator => "variable_declarator"
  | moduleDeclaration => "module"
  | internalModule => "internal_module"
  | typeAliasDeclaration => "type_alias_declaration"
  | enumDeclaration => "enum_declaration"
  | enumBody => "enum_body"
  | enumAssignment => "enum_assignment"
  | interfaceDeclaration => "interface_declaration"
  | interfaceBody => "interface_body"
  | importAlias => "import_alias"
  | ambientDeclaration => "ambient_declaration"
  | exportClause => "export_clause"
  | exportSpecifier => "export_specifier"
  | namespaceExport => "namespace_export"
  | importClause => "import_clause"
  | importSpecifier => "import_specifier"
  | namedImports => "named_imports"
  | namespaceImport => "namespace_import"
  | importRequireClause => "import_require_clause"
  | importAttribute => "import_attribute"
  | decorator => "decorator"
  | classHeritage => "class_heritage"
  | extendsClause => "extends_clause"
  | implementsClause => "implements_clause"
  | extendsTypeClause => "extends_type_clause"
  | classBody => "class_body"
  | methodDefinition => "method_definition"
  | methodSignature => "method_signature"
  | publicFieldDefinition => "public_field_definition"
  | indexSignature => "index_signature"
  | classStaticBlock => "class_static_block"
  | typeParameters => "type_parameters"
  | typeParameter => "type_parameter"
  | constraint => "constraint"
  | defaultType => "default_type"
  | typeArguments => "type_arguments"
  | formalParameters => "formal_parameters"
  | requiredParameter => "required_parameter"
  | typeAscription => "type_annotation"
  | identifier => "identifier"
  | propertyIdentifier => "property_identifier"
  | typeIdentifier => "type_identifier"
  | privatePropertyIdentifier => "private_property_identifier"
  | statementIdentifier => "statement_identifier"
  | nestedIdentifier => "nested_identifier"
  | computedPropertyName => "computed_property_name"
  | number => "number"
  | string => "string"
  | templateString => "template_string"
  | templateChars => "string_fragment"
  | templateSubstitution => "template_substitution"
  | regex => "regex"
  | this => "this"
  | super => "super"
  | trueLiteral => "true"
  | falseLiteral => "false"
  | null => "null"
  | undefined => "undefined"
  | array => "array"
  | object => "object"
  | pair => "pair"
  | spreadElement => "spread_element"
  | parenthesizedExpression => "parenthesized_expression"
  | arrowFunction => "arrow_function"
  | functionExpression => "function_expression"
  | generatorFunction => "generator_function"
  | classExpression => "class"
  | memberExpression => "member_expression"
  | subscriptExpression => "subscript_expression"
  | callExpression => "call_expression"
  | newExpression => "new_expression"
  | nonNullExpression => "non_null_expression"
  | instantiationExpression => "instantiation_expression"
  | arguments => "arguments"
  | binaryExpression => "binary_expression"
  | unaryExpression => "unary_expression"
  | updateExpression => "update_expression"
  | ternaryExpression => "ternary_expression"
  | assignmentExpression => "assignment_expression"
  | augmentedAssignmentExpression => "augmented_assignment_expression"
  | sequenceExpression => "sequence_expression"
  | yieldExpression => "yield_expression"
  | awaitExpression => "await_expression"
  | asExpression => "as_expression"
  | satisfiesExpression => "satisfies_expression"
  | typeAssertion => "type_assertion"
  | metaProperty => "meta_property"
  | importCall => "import"
  | objectPattern => "object_pattern"
  | arrayPattern => "array_pattern"
  | restPattern => "rest_pattern"
  | jsxElement => "jsx_element"
  | jsxSelfClosingElement => "jsx_self_closing_element"
  | jsxExpression => "jsx_expression"
  | jsxAttribute => "jsx_attribute"
  | jsxText => "jsx_text"
  | predefinedType => "predefined_type"
  | literalType => "literal_type"
  | genericType => "generic_type"
  | nestedTypeIdentifier => "nested_type_identifier"
  | arrayType => "array_type"
  | readonlyType => "readonly_type"
  | tupleType => "tuple_type"
  | objectType => "object_type"
  | unionType => "union_type"
  | intersectionType => "intersection_type"
  | parenthesizedType => "parenthesized_type"
  | functionType => "function_type"
  | constructorType => "constructor_type"
  | indexTypeQuery => "index_type_query"
  | typeQuery => "type_query"
  | lookupType => "lookup_type"
  | conditionalType => "conditional_type"
  | templateLiteralType => "template_literal_type"
  | templateType => "template_type"
  | thisType => "this_type"
  | inferType => "infer_type"
  | restType => "rest_type"
  | optionalType => "optional_type"
  | flowMaybeType => "flow_maybe_type"
  | existentialType => "existential_type"
  | typePredicate => "type_predicate"
  | asserts => "asserts"
  | propertySignature => "property_signature"
  | callSignature => "call_signature"
  | constructSignature => "construct_signature"
  | tupleParameter => "tuple_parameter"

end Kind
end ComponentAtlas.Source
