import ComponentAtlas.Source.Grammar.Nonterminal

namespace ComponentAtlas.Source.Grammar
open Nonterminal

def type : Piece := .call Nonterminal.type

def typeName : Piece := name .typeIdentifier

def bar : Piece := markUnless "|" (· = '|')

def ampersand : Piece := markUnless "&" (· = '&')

-- `A extends B ? C : D` binds weaker than a union, and its branches are types again.
def typeRule : Piece :=
  oneOf
    [ .call .functionType,
      .node .readonlyType (seq [word "readonly", .goesOn false, type]),
      .frame (seq
        [ .call .unionOperand,
          opt [.fold .conditionalType (seq
            [.goesOn false, word "extends", .lines false type, mark "?", .lines false type, mark ":", type])]])]

def unionOperandRule : Piece :=
  .frame (seq
    [ .frame (oneOf
        [ .node .unionType (seq [bar, .call .typeOperand]), .call .typeOperand]),
      many [.fold .unionType (seq [bar, .call .typeOperand])]])

-- One operand of a union: an intersection of types that may have array and index suffixes.
def typeOperandRule : Piece :=
  let simple := oneOf
    [ .call .functionType,
      .node .readonlyType (seq [word "readonly", .goesOn false, type]),
      .call .primaryType ]
  .frame (seq
    [ oneOf [.node .intersectionType (seq [ampersand, simple]), simple],
      many [.fold .intersectionType (seq [ampersand, simple])]])

def functionTypeRule : Piece :=
  let heading := seq [opt [.call .typeParameters], .call .formalParameters, mark "=>"]
  oneOf
    [ .node .functionType (seq [heading, .call .returnType]),
      .node .constructorType (seq [opt [word "abstract"], word "new", heading, type]) ]

-- A returned type may also assert something of a parameter.
def returnTypeRule : Piece :=
  let subject := oneOf [.token .this (Lexeme.word "this"), name .identifier]
  let predicate := .node .typePredicate (seq [subject, .goesOn false, word "is", type])
  oneOf
    [ .node .asserts (seq [word "asserts", oneOf [predicate, seq [subject, .absent (mark ".")]]]),
      predicate,
      type ]

def predefinedType : Piece :=
  .node .predefinedType (oneOf
    [ seq [word "unique", word "symbol"],
      words ["any", "number", "boolean", "string", "symbol", "void", "unknown", "never", "object"] ])

def literalType : Piece :=
  .node .literalType (oneOf
    [ string,
      number,
      .node .unaryExpression (seq [oneOf [mark "-", mark "+"], number]),
      .token .trueLiteral (Lexeme.word "true"),
      .token .falseLiteral (Lexeme.word "false"),
      .token .null (Lexeme.word "null"),
      .token .undefined (Lexeme.word "undefined") ])

def templateLiteralType : Piece :=
  .node .templateLiteralType (seq
    [ mark "\x60",
      .star (oneOf
        [ .glued .templateChars Lexeme.templateChars,
          .node .templateType (seq
            [.glued (.mark "$\x7b") (Lexeme.mark "$\x7b"), .lines false type, mark "\x7d"]) ]),
      .glued (.mark "\x60") (Lexeme.mark "\x60") ])

-- The module that an `import('...')` type names, with the members taken from it.
def importType : Piece :=
  .frame (seq
    [ .node .callExpression (seq
        [.token .importCall (Lexeme.word "import"), .node .arguments (parenthesized [string])]),
      many [.fold .memberExpression (seq [mark ".", name .propertyIdentifier])] ])

def typeQuery : Piece :=
  let step := oneOf [name .propertyIdentifier, .token .privatePropertyIdentifier Lexeme.privateName]
  .node .typeQuery (seq
    [ word "typeof",
      oneOf
        [ importType,
          .frame (seq
            [ oneOf [.token .this (Lexeme.word "this"), name .identifier],
              many [.fold .memberExpression (seq [oneOf [mark "?.", mark "."], step])] ]) ],
      opt [.call .typeArguments] ])

def namedType : Piece :=
  let qualified := seq
    [ .frame (seq
        [ name .identifier,
          many [.fold .nestedIdentifier (seq [mark ".", name .propertyIdentifier, .ahead (mark ".")])] ]),
      mark ".",
      .role .name typeName ]
  let plain := oneOf [.node .nestedTypeIdentifier qualified, typeName]
  oneOf
    [ .node .genericType (seq [.role .name plain, .goesOn false, .role .typeArguments (.call .typeArguments)]),
      plain ]

def primaryTypeRule : Piece :=
  let bare := oneOf
    [ .node .parenthesizedType (parenthesized [type]),
      .call .objectType,
      .node .tupleType (bracketed "[" "]" [opt [looseList (.call .tupleMember)]]),
      templateLiteralType,
      literalType,
      typeQuery,
      importType,
      .node .indexTypeQuery (seq [word "keyof", .call .primaryType]),
      .node .inferType (seq
        [ word "infer",
          typeName,
          opt [word "extends", .call .unionOperand] ]),
      .token .thisType (Lexeme.word "this"),
      predefinedType,
      .node .flowMaybeType (seq [mark "?", .call .primaryType]),
      .token .existentialType (Lexeme.mark "*"),
      namedType ]
  .frame (seq
    [ bare,
      .star (oneOf
        [ .fold .arrayType (seq [.goesOn false, mark "[", mark "]"]),
          .fold .lookupType (seq [.goesOn false, mark "[", .lines false type, mark "]"]) ]) ])

def tupleMemberRule : Piece :=
  let labelled := .node .tupleParameter (seq
    [opt [mark "..."], name .identifier, opt [mark "?"], mark ":", type])
  oneOf
    [ labelled,
      .node .restType (seq [mark "...", type]),
      .node .optionalType (seq [.call .unionOperand, mark "?"]),
      type ]

def typeArgumentsRule : Piece :=
  .node .typeArguments (bracketed "<" ">" [looseList type])

def typeParametersRule : Piece :=
  .node .typeParameters (bracketed "<" ">"
    [ looseList (.node .typeParameter (seq
        [ opt [word "const", .ahead (name .identifier)],
          .role .name typeName,
          opt [.role .constraint (.node .constraint (seq [oneOf [word "extends", mark ":"], type]))],
          opt [.role .value (.node .defaultType (seq [mark "=", type]))] ])) ])

def typeAscriptionRule : Piece :=
  .node .typeAscription (seq [mark ":", .call .returnType])

def parameterModifiers : Piece :=
  let modifier (texts : List String) := opt [words texts, .ahead (oneOf [name .identifier, mark "[", mark "\x7b"])]
  seq
    [ .star (.call .decorator),
      modifier ["public", "private", "protected"],
      modifier ["override"],
      modifier ["readonly"] ]

def formalParametersRule : Piece :=
  .node .formalParameters (parenthesized
    [ opt [looseList (.node .requiredParameter (seq
        [ parameterModifiers,
          .call .parameterPattern,
          opt [mark "?"],
          opt [.call .typeAscription],
          opt [.call .initializer] ]))] ])

def callSignatureRule : Piece :=
  seq [opt [.call .typeParameters], .call .formalParameters, opt [.call .typeAscription]]

-- The members of an object type between its braces; a separator may also come first.
def typeMembers : Piece :=
  let member := seq [.call .typeMember, oneOf [comma, statementEnd false, .ahead (mark "\x7d")]]
  seq
    [ mark "\x7b",
      opt [opt [oneOf [comma, mark ";"]], .lines true (seq [member, .star member])],
      mark "\x7d" ]

def objectTypeRule : Piece := .node .objectType typeMembers

-- What may follow the name of a member: anything that shows the word was the name itself.
def memberNameEnds : Piece :=
  oneOf ((["(", "<", ":", "?", "!", "=", ";", ",", "\x7d"].map mark) ++ [.lineBreak false])

-- A word that qualifies a member, when the member's own name still follows.
def memberWord (text : String) : Piece :=
  seq [word text, .absent memberNameEnds]

def memberWords (texts : List String) : Piece := oneOf (texts.map memberWord)

def indexSignatureRule : Piece :=
  let sign := oneOf [mark "-", mark "+"]
  .node .indexSignature (seq
    [ opt [opt [sign], word "readonly"],
      bracketed "[" "]"
        [ oneOf
            [ seq [name .identifier, mark ":", type],
              seq [typeName, word "in", type, opt [word "as", type]] ] ],
      oneOf
        [ seq [sign, mark "?", .call .typeAscription],
          seq [opt [mark "?"], .call .typeAscription] ] ])

def typeMemberRule : Piece :=
  let accessor := memberWords ["get", "set"]
  oneOf
    [ .node .constructSignature (seq
        [opt [word "abstract"], word "new", opt [.call .typeParameters], .call .formalParameters, opt [.call .typeAscription]]),
      .node .callSignature (.call .callSignature),
      .call .indexSignature,
      .node .methodSignature (seq
        [ opt [memberWords ["public", "private", "protected"]],
          opt [memberWord "static"],
          opt [memberWord "override"],
          opt [memberWord "readonly"],
          opt [memberWord "async"],
          opt [oneOf [accessor, mark "*"]],
          .call .propertyName,
          opt [mark "?"],
          .call .callSignature ]),
      .node .propertySignature (seq
        [ opt [memberWords ["public", "private", "protected"]],
          opt [memberWord "static"],
          opt [memberWord "override"],
          opt [memberWord "readonly"],
          .call .propertyName,
          opt [mark "?"],
          opt [.call .typeAscription] ]) ]

end ComponentAtlas.Source.Grammar
