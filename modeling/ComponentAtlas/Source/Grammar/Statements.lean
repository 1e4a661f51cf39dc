import ComponentAtlas.Source.Grammar.Expressions

namespace ComponentAtlas.Source.Grammar
open Nonterminal

def decorators : Piece := .star (.call .decorator)

def block : Piece := .call Nonterminal.block

def statement : Piece := .call Nonterminal.statement

def classHeritageRule : Piece :=
  let extension := .node .extendsClause (seq
    [ word "extends",
      commaList (seq
        [ .role .value (.call .heritageValue),
          opt [.role .typeArguments (.call .typeArguments)] ]) ])
  let implementation := .node .implementsClause (seq [word "implements", commaList type])
  .node .classHeritage (oneOf [seq [extension, opt [implementation]], implementation])

def classHeading (classWord : Piece) (className : Piece) : Piece :=
  .lines false (seq
    [ decorators,
      classWord,
      className,
      opt [.role .typeParameters (.call .typeParameters)],
      opt [.call .classHeritage] ])

def className : Piece := .role .name (nameExcept .typeIdentifier ["extends", "implements"])

def classDeclarationRule : Piece :=
  oneOf
    [ .node .abstractClassDeclaration (seq
        [ classHeading (seq [word "abstract", word "class"]) className,
          .role .body (.call .classBody) ]),
      .node .classDeclaration (seq
        [ classHeading (word "class") className,
          .role .body (.call .classBody),
          opt [.lineBreak false] ]) ]

def classExpressionRule : Piece :=
  .node .classExpression (seq [classHeading (word "class") (opt [className]), .role .body (.call .classBody)])

def accessibility : Piece := opt [memberWords ["public", "private", "protected"]]

def classMemberRule : Piece :=
  let memberEnd (afterValue : Bool) := oneOf [comma, statementEnd afterValue]
  let methodHeading := seq
    [ decorators,
      accessibility,
      opt [memberWord "static"],
      opt [memberWord "override"],
      opt [memberWord "readonly"],
      opt [memberWord "async"],
      opt [oneOf [memberWord "get", memberWord "set", mark "*"]],
      .call .propertyName,
      opt [mark "?"],
      .call .callSignature ]
  let abstractHeading := seq
    [ decorators,
      accessibility,
      memberWord "abstract",
      opt [memberWord "override"],
      opt [oneOf [memberWord "get", memberWord "set", mark "*"]],
      .call .propertyName,
      opt [mark "?"],
      .call .callSignature ]
  let fieldHeading := seq
    [ decorators,
      oneOf
        [ seq [memberWord "declare", accessibility],
          seq [memberWords ["public", "private", "protected"], opt [memberWord "declare"]],
          seq [] ],
      oneOf
        [ seq [memberWord "static", opt [memberWord "override"], opt [memberWord "readonly"]],
          seq [memberWord "override", opt [memberWord "readonly"]],
          seq [memberWord "abstract", opt [memberWord "readonly"]],
          seq [memberWord "readonly", opt [memberWord "abstract"]],
          memberWord "accessor",
          seq [] ],
      .call .propertyName,
      opt [oneOf [mark "?", mark "!"]],
      opt [.call .typeAscription] ]
  oneOf
    [ mark ";",
      .node .classStaticBlock (seq [word "static", block]),
      .node .methodDefinition (seq [methodHeading, block]),
      seq [.node .methodSignature abstractHeading, memberEnd false],
      seq [.node .methodSignature methodHeading, memberEnd false],
      seq [.call .indexSignature, memberEnd false],
      seq [.node .publicFieldDefinition (seq [fieldHeading, .call .initializer]), memberEnd true],
      seq [.node .publicFieldDefinition fieldHeading, memberEnd false] ]

def classBodyRule : Piece :=
  .node .classBody (seq [mark "\x7b", .lines true (.star (.call .classMember)), mark "\x7d"])

def blockRule : Piece :=
  .node .statementBlock (seq [mark "\x7b", .star statement, mark "\x7d", opt [.lineBreak false]])

def functionDeclaration : Piece :=
  let heading (star : Piece) := seq
    [opt [word "async"], word "function", star, .role .name (name .identifier), .call .callSignature]
  let ending := seq [.role .body block, opt [.lineBreak false]]
  oneOf
    [ .node .functionDeclaration (seq [heading (seq []), ending]),
      .node .generatorFunctionDeclaration (seq [heading (mark "*"), ending]),
      .node .functionSignature (seq [.lines true (heading (seq [])), statementEnd false]) ]

def declaratorRule : Piece :=
  seq
    [ .call .pattern,
      opt [mark "!"],
      opt [.call .typeAscription] ]

-- The last binding decides what a line break after the list means.
def declarators : Piece :=
  let bare := .node .variableDeclarator (.call .declarator)
  let bound := .node .variableDeclarator (seq [.call .declarator, .call .initializer])
  .lines true (seq
    [ many [oneOf [bound, bare], comma],
      oneOf [seq [bound, statementEnd true], seq [bare, statementEnd false]] ])

def variableDeclaration : Piece :=
  oneOf
    [ .node .lexicalDeclaration (seq [words ["let", "const"], declarators]),
      .node .variableDeclaration (seq [word "var", declarators]) ]

def enumDeclaration : Piece :=
  let assignment := .node .enumAssignment (seq
    [.role .name (.call .propertyName), equals, .role .value expression])
  let body := .node .enumBody (braced
    [opt [looseList (oneOf [assignment, .role .name (.call .propertyName)])]])
  .node .enumDeclaration (seq
    [opt [word "const"], word "enum", .role .name (name .identifier), .role .body body])

def interfaceDeclaration : Piece :=
  let extension := .node .extendsTypeClause (seq [word "extends", commaList (.role .type namedType)])
  .node .interfaceDeclaration (.lines false (seq
    [ word "interface",
      .role .name typeName,
      opt [.role .typeParameters (.call .typeParameters)],
      opt [extension],
      .role .body (.node .interfaceBody typeMembers) ]))

def typeAlias : Piece :=
  .node .typeAliasDeclaration (seq
    [ word "type",
      .role .name typeName,
      opt [.role .typeParameters (.call .typeParameters)],
      mark "=",
      .lines true (.role .value type),
      statementEnd false ])

def nestedName : Piece :=
  .frame (seq [name .identifier, many [.fold .nestedIdentifier (seq [mark ".", name .propertyIdentifier])]])

def moduleRest : Piece := seq [oneOf [string, nestedName], opt [block]]

def internalModuleRule : Piece := .node .internalModule (seq [word "namespace", moduleRest])

-- Words that restrict what is bound to types.
def restrictingWords : List String := ["type", "typeof"]

def importAlias : Piece :=
  .node .importAlias (seq
    [word "import", nameExcept .identifier restrictingWords, equals, nestedName, statementEnd false])

def ambientDeclaration : Piece :=
  .node .ambientDeclaration (seq
    [ word "declare",
      oneOf
        [ .call .declaration,
          seq [word "global", block],
          seq [word "module", mark ".", name .propertyIdentifier, mark ":", type, statementEnd false] ] ])

def declarationRule : Piece :=
  oneOf
    [ functionDeclaration,
      .call .classDeclaration,
      enumDeclaration,
      variableDeclaration,
      .node .moduleDeclaration (seq [word "module", moduleRest]),
      .call .internalModule,
      typeAlias,
      interfaceDeclaration,
      importAlias,
      ambientDeclaration ]

def exportedName : Piece :=
  oneOf [string, name .identifier]

def importAttribute : Piece :=
  .node .importAttribute (seq [word "with", .call .object])

def fromClause : Piece :=
  seq [word "from", .role .source string, opt [importAttribute]]

-- Words that start a declaration and are names too.
def declarationWords : List String := ["declare", "type", "namespace", "module", "async", "let"]

def exportStatementRule : Piece :=
  let clause := .node .exportClause (braced
    [ opt [looseList (.node .exportSpecifier (seq
        [ oneOf [words restrictingWords, .absent (words restrictingWords)],
          .role .name exportedName,
          opt [word "as", .role .otherName exportedName] ]))] ])
  let default := seq [decorators, word "export", word "default"]
  .node .exportStatement (oneOf
    [ seq [word "export", mark "*", fromClause, statementEnd false],
      seq
        [ word "export",
          .node .namespaceExport (seq [mark "*", word "as", exportedName]),
          fromClause,
          statementEnd false ],
      seq [word "export", word "type", clause, opt [fromClause], statementEnd false],
      seq [word "export", clause, opt [fromClause], statementEnd false],
      seq [word "export", equals, .lines true expression, statementEnd true],
      seq [word "export", word "as", word "namespace", name .identifier, statementEnd false],
      seq [decorators, word "export", .role .declaration (.call .declaration)],
      seq [default, .absent (standsAlone declarationWords), .role .declaration (.call .declaration)],
      seq [default, .lines true (.role .value expression), statementEnd true] ])

def importStatementRule : Piece :=
  let binding := oneOf
    [ seq [.role .name exportedName, word "as", .role .otherName (name .identifier)],
      .role .name (name .identifier) ]
  -- A binding may be named `type` itself.
  let specifier := .node .importSpecifier (oneOf
    [ seq [word "type", .absent (word "as"), binding],
      seq [oneOf [word "typeof", .absent (word "typeof")], binding] ])
  let named := .node .namedImports (braced [opt [looseList specifier]])
  let whole := .node .namespaceImport (seq [mark "*", word "as", name .identifier])
  let clause := .node .importClause (oneOf
    [ whole,
      named,
      seq [name .identifier, opt [comma, oneOf [whole, named]]] ])
  let required := .node .importRequireClause (seq
    [nameExcept .identifier restrictingWords, mark "=", word "require", parenthesized [.role .source string]])
  let rest := oneOf
    [ seq [clause, fromClause],
      required,
      seq [.role .source string, opt [importAttribute]] ]
  .node .importStatement (seq
    [ word "import",
      oneOf [seq [words restrictingWords, .absent (word "from"), rest], rest],
      statementEnd false ])

def statementWords : List String :=
  ["if", "else", "for", "while", "do", "switch", "case", "default", "break", "continue", "return", "throw",
    "try", "catch", "finally", "with", "debugger", "var", "const", "export", "enum", "interface", "abstract"]

def condition : Piece := .node .parenthesizedExpression (parenthesized [sequence])

def switchStatement : Piece :=
  let branch := oneOf
    [ seq [word "case", .lines false sequence, mark ":", .star statement],
      seq [word "default", mark ":", .star statement] ]
  .node .switchStatement (seq
    [ word "switch",
      condition,
      .node .switchBody (seq [mark "\x7b", .star branch, mark "\x7d"]) ])

def forStatement : Piece :=
  let binding := seq [words ["var", "let", "const"], .call .declarator]
  let each := seq
    [ oneOf [binding, .call .pattern, .node .parenthesizedExpression (parenthesized [sequence])],
      words ["in", "of"],
      sequence ]
  let bound := seq [.call .declarator, opt [.call .initializer]]
  let initial := oneOf
    [ seq [words ["var", "let", "const"], commaList bound, mark ";"],
      seq [sequence, mark ";"],
      mark ";" ]
  oneOf
    [ .node .forInStatement (seq [word "for", opt [word "await"], parenthesized [each], statement]),
      .node .forStatement (seq
        [word "for", parenthesized [initial, opt [sequence], mark ";", opt [sequence]], statement]) ]

def tryStatement : Piece :=
  let handler := .node .catchClause (seq
    [ word "catch",
      opt [parenthesized [.call .pattern, opt [.call .typeAscription]]],
      block ])
  .node .tryStatement (seq
    [ word "try",
      block,
      opt [handler],
      opt [.node .finallyClause (seq [word "finally", block])] ])

def jumpStatement : Piece :=
  let jump (kind : Kind) (text : String) := .node kind (oneOf
    [ seq [word text, .lines true (.goesOn false), name .statementIdentifier, statementEnd false],
      seq [word text, statementEnd false] ])
  oneOf
    [ jump .breakStatement "break",
      jump .continueStatement "continue",
      .node .returnStatement (oneOf
        [ seq [word "return", .lines true (seq [.goesOn false, sequence]), statementEnd true],
          seq [word "return", statementEnd false] ]),
      .node .throwStatement (seq [word "throw", .lines true sequence, statementEnd true]),
      .node .debuggerStatement (seq [word "debugger", statementEnd false]) ]

def labeledStatement : Piece :=
  .node .labeledStatement (seq
    [nameExcept .statementIdentifier (statementWords ++ operandWords), mark ":", statement])

def expressionStatement : Piece :=
  .node .expressionStatement (seq
    [.absent (words statementWords), .lines true sequence, statementEnd true])

def statementRule : Piece :=
  oneOf
    [ block,
      .node .emptyStatement (mark ";"),
      .node .expressionStatement (standsAlone ("export" :: declarationWords)),
      .call .exportStatement,
      .call .importStatement,
      seq [.absent (word "namespace"), .call .declaration],
      .node .ifStatement (seq
        [word "if", condition, statement, opt [.node .elseClause (seq [word "else", statement])]]),
      switchStatement,
      forStatement,
      .node .whileStatement (seq [word "while", condition, statement]),
      .node .doStatement (seq [word "do", statement, word "while", condition, opt [statementEnd true]]),
      tryStatement,
      .node .withStatement (seq [word "with", condition, statement]),
      jumpStatement,
      labeledStatement,
      expressionStatement ]

end ComponentAtlas.Source.Grammar
