import ComponentAtlas.Source.Grammar.Types

namespace ComponentAtlas.Source.Grammar
open Nonterminal

def expression : Piece := .call Nonterminal.expression

def sequence : Piece := .call Nonterminal.sequence

-- Words that start an operand of their own and so name nothing in an expression.
def operandWords : List String :=
  ["new", "function", "class", "typeof", "void", "delete", "import", "await", "yield"]

def reference : Piece := nameExcept .identifier operandWords

def spread : Piece := .node .spreadElement (seq [mark "...", expression])

def binaryTail (operand : Piece) : Piece :=
  let sign := .token (.mark "operator") Lexeme.binaryOperator
  .star (oneOf
    [ .fold .binaryExpression (seq [.goesOn true, oneOf [sign, word "instanceof", word "in"], operand]),
      .fold .asExpression (seq [.goesOn true, word "as", oneOf [word "const", type]]),
      .fold .satisfiesExpression (seq [.goesOn true, word "satisfies", type]) ])

-- The branch before the colon is read without arrow functions when it cannot be read with them:
-- their returned types start with a colon as well.
def conditionTail : Piece :=
  let question := .token (.mark "?") Lexeme.conditionMark
  opt
    [ .fold .ternaryExpression (oneOf
        [ seq [.goesOn true, question, .lines false expression, mark ":", expression],
          seq [.goesOn true, question, .lines false (.call .plainExpression), mark ":", expression] ]) ]

def expressionRule : Piece :=
  .frame (seq [.call .operand, binaryTail (.call .operand), conditionTail])

def plainExpressionRule : Piece :=
  .frame (seq [.call .plainOperand, binaryTail (.call .plainOperand), conditionTail])

def sequenceRule : Piece :=
  .frame (seq [expression, many [.fold .sequenceExpression (seq [comma, expression])]])

def destructuring : Piece := seq [.ahead (oneOf [mark "[", mark "\x7b"]), .call .pattern]

def plainOperandRule : Piece :=
  oneOf
    [ .node .yieldExpression (seq
        [word "yield", oneOf [seq [mark "*", expression], seq [.goesOn false, expression], seq []]]),
      .node .assignmentExpression (seq [destructuring, equals, expression]),
      .frame (seq
        [ .call .unary,
          oneOf
            [ .fold .assignmentExpression (seq [.goesOn true, equals, expression]),
              .fold .augmentedAssignmentExpression (seq
                [.goesOn true, .token (.mark "operator") Lexeme.assignmentOperator, expression]),
              seq [] ] ]) ]

def operandRule : Piece := oneOf [.call .arrow, .call .plainOperand]

def arrowRule : Piece :=
  let body := seq [mark "=>", .call .arrowBody]
  .node .arrowFunction (oneOf
    [ seq [word "async", reference, body],
      seq [word "async", .call .callSignature, body],
      seq [reference, body],
      seq [.call .callSignature, body] ])

def arrowBodyRule : Piece := oneOf [.call .block, expression]

-- `assertions` is whether `<T>x` converts x to T.
def unaryRule (assertions : Bool) : Piece :=
  let update := oneOf [mark "++", mark "--"]
  let sign := oneOf
    [mark "!", mark "~", mark "-", mark "+", word "typeof", word "void", word "delete"]
  oneOf ((if assertions then [.node .typeAssertion (seq [.call .typeArguments, .call .unary])] else []) ++
    [ .node .updateExpression (seq [update, .call .unary]),
      .node .unaryExpression (seq [sign, .call .unary]),
      .node .awaitExpression (seq [word "await", .call .unary]),
      .call .suffixed ])

def memberName : Piece :=
  oneOf [name .propertyIdentifier, .token .privatePropertyIdentifier Lexeme.privateName]

def optionalMark : Piece := markUnless "?." Lexeme.isDigit

def memberTail : Piece :=
  .fold .memberExpression (seq [.goesOn true, oneOf [optionalMark, mark "."], memberName])

def subscriptTail : Piece :=
  .fold .subscriptExpression (seq [.goesOn true, opt [optionalMark], bracketed "[" "]" [sequence]])

def nonNullTail : Piece :=
  .fold .nonNullExpression (seq [.goesOn true, markUnless "!" (· = '=')])

def valueTails : List Piece :=
  [ memberTail,
    subscriptTail,
    .fold .callExpression (seq
      [.goesOn true, opt [optionalMark], opt [.call .typeArguments], oneOf [.call .arguments, .call .template]]),
    .fold .callExpression (seq [.goesOn true, oneOf [.call .arguments, .call .template]]),
    nonNullTail,
    .fold .updateExpression (seq [.goesOn true, oneOf [mark "++", mark "--"]]) ]

-- Type arguments alone, where what follows cannot be an operand.
def instantiationTail : Piece :=
  .fold .instantiationExpression (seq
    [ .goesOn true,
      .call .typeArguments,
      .ahead (oneOf ((["]", ")", ",", ";", ":", ".", "?"].map mark) ++ [.lineBreak true])) ])

def suffixedRule : Piece :=
  .frame (seq [.call .primary, .star (oneOf (valueTails ++ [instantiationTail]))])

-- The value of an `extends` clause leaves its type arguments to the clause.
def heritageValueRule : Piece :=
  oneOf
    [ seq
        [ .frame (seq [.call .primary, .star (oneOf valueTails)]),
          .ahead (oneOf [mark "\x7b", mark "<", comma, word "implements"]) ],
      expression ]

def functionExpression : Piece :=
  let rest := seq [opt [nameExcept .identifier []], .call .callSignature, .call .block]
  oneOf
    [ .node .functionExpression (seq [opt [word "async"], word "function", rest]),
      .node .generatorFunction (seq [opt [word "async"], word "function", mark "*", rest]) ]

def newExpression : Piece :=
  .node .newExpression (seq
    [ word "new",
      .frame (seq
        [.call .primary, .star (oneOf [memberTail, subscriptTail, nonNullTail])]),
      opt [.call .typeArguments, .ahead (.call .arguments)],
      opt [.goesOn true, .call .arguments] ])

def metaProperty : Piece :=
  oneOf
    [ .node .metaProperty (seq [word "new", mark ".", word "target"]),
      .node .metaProperty (seq [word "import", mark ".", word "meta"]) ]

def primaryRule : Piece :=
  oneOf
    [ .node .parenthesizedExpression (parenthesized [sequence, opt [.call .typeAscription]]),
      .call .object,
      .call .array,
      .call .template,
      .token .regex Lexeme.regex,
      string,
      number,
      .token .this (Lexeme.word "this"),
      .token .super (Lexeme.word "super"),
      .token .trueLiteral (Lexeme.word "true"),
      .token .falseLiteral (Lexeme.word "false"),
      .token .null (Lexeme.word "null"),
      .token .undefined (Lexeme.word "undefined"),
      functionExpression,
      .call .classExpression,
      metaProperty,
      newExpression,
      .token .importCall (Lexeme.word "import"),
      .call .markup,
      seq [.absent (standsAlone ["namespace"]), .call .internalModule],
      reference ]

def objectRule : Piece :=
  let pair := .node .pair (seq [.call .propertyName, mark ":", expression])
  let method := .node .methodDefinition (seq
    [ opt [memberWords ["public", "private", "protected"]],
      opt [memberWord "static"],
      opt [memberWord "readonly"],
      opt [memberWord "async"],
      opt [oneOf [memberWord "get", memberWord "set", mark "*"]],
      .call .propertyName,
      opt [mark "?"],
      .call .callSignature,
      .call .block ])
  let member := oneOf [pair, spread, method, name .identifier]
  .node .object (braced [opt [member], many [comma, opt [member]]])

def arrayRule : Piece :=
  let element := oneOf [spread, expression]
  .node .array (bracketed "[" "]" [opt [element], many [comma, opt [element]]])

def templateRule : Piece :=
  .node .templateString (seq
    [ mark "\x60",
      .star (oneOf
        [ .glued .templateChars Lexeme.templateChars,
          .node .templateSubstitution (seq
            [.glued (.mark "$\x7b") (Lexeme.mark "$\x7b"), .lines false sequence, mark "\x7d"]) ]),
      .glued (.mark "\x60") (Lexeme.mark "\x60") ])

def argumentsRule : Piece :=
  let argument := oneOf [spread, expression]
  .node .arguments (parenthesized [opt [argument], many [comma, opt [argument]]])

def propertyNameRule : Piece :=
  oneOf
    [ name .propertyIdentifier,
      string,
      number,
      .token .privatePropertyIdentifier Lexeme.privateName,
      .node .computedPropertyName (bracketed "[" "]" [expression]) ]

def initializerRule : Piece := seq [equals, expression]

def patternRule : Piece :=
  let rest := .node .restPattern (seq [mark "...", .call .pattern])
  let element := seq [.call .pattern, opt [.call .initializer]]
  let property := oneOf
    [ rest,
      seq [.call .propertyName, mark ":", element],
      seq [name .identifier, opt [.call .initializer]] ]
  let item := oneOf [rest, element]
  oneOf
    [ .node .objectPattern (braced [opt [property], many [comma, opt [property]]]),
      .node .arrayPattern (bracketed "[" "]" [opt [item], many [comma, opt [item]]]),
      .frame (seq
        [ oneOf [.token .this (Lexeme.word "this"), name .identifier],
          .star (oneOf [memberTail, subscriptTail, nonNullTail]) ]) ]

def parameterPatternRule : Piece :=
  oneOf [.node .restPattern (seq [mark "...", .call .pattern]), .call .pattern]

def decoratorRule : Piece :=
  .node .decorator (seq
    [ mark "@",
      oneOf
        [ .node .parenthesizedExpression (parenthesized [expression]),
          .frame (seq
            [ name .identifier,
              many [.fold .memberExpression (seq [mark ".", memberName])],
              opt [.fold .callExpression (seq [opt [.call .typeArguments], .call .arguments])] ]) ] ])

-- Markup: an element or a fragment, with text, nested markup and embedded expressions.
def markupRule : Piece :=
  let markupName := .token .identifier Lexeme.markupName
  let embedded := .node .jsxExpression (braced [opt [oneOf [spread, sequence]]])
  let tag := seq
    [ markupName,
      opt [mark ":", markupName],
      many [mark ".", markupName] ]
  let property := .node .jsxAttribute (seq
    [ markupName,
      opt [mark ":", markupName],
      opt [mark "=", oneOf [.token .string Lexeme.markupString, embedded, .call .markup]] ])
  let content := oneOf
    [ .glued .jsxText Lexeme.markupText,
      .glued .jsxText Lexeme.characterReference,
      embedded,
      .call .markup ]
  let closed := seq [mark ">", .star content, mark "</", opt [tag], mark ">"]
  .node .jsxElement (seq
    [ mark "<",
      oneOf
        [ seq
            [ tag,
              opt [.call .typeArguments],
              .star (oneOf [embedded, property]),
              oneOf [mark "/>", closed] ],
          closed ] ])

end ComponentAtlas.Source.Grammar
