import ComponentAtlas.Source.Rule

namespace ComponentAtlas.Source.Grammar

inductive Nonterminal where
  -- types
  | type | unionOperand | typeOperand | primaryType | functionType | returnType | typeArguments
  | typeParameters | formalParameters | typeAscription | objectType | typeMember | tupleMember
  | callSignature | indexSignature
  -- expressions
  | expression | plainExpression | operand | plainOperand | unary | suffixed | primary | arrow
  | arrowBody | object | array | template | arguments | pattern | parameterPattern | initializer
  | propertyName | sequence | heritageValue | decorator | markup | internalModule
  -- classes and statements
  | classBody | classMember | classHeritage | block | statement | declaration | exportStatement
  | importStatement | classDeclaration | classExpression | declarator
deriving DecidableEq, Repr

abbrev Piece := Rule Nonterminal

def word (text : String) : Piece := .token (.mark text) (Lexeme.word text)

def mark (text : String) : Piece := .token (.mark text) (Lexeme.mark text)

def markUnless (text : String) (next : Char → Bool) : Piece :=
  .token (.mark text) (Lexeme.markUnless text next)

def name (kind : Kind) : Piece := .token kind Lexeme.name

def nameExcept (kind : Kind) (reserved : List String) : Piece := .token kind (Lexeme.nameExcept reserved)

def words (texts : List String) : Piece := .alt (texts.map word)

def seq (pieces : List Piece) : Piece := .seq pieces

def oneOf (pieces : List Piece) : Piece := .alt pieces

def opt (pieces : List Piece) : Piece := .alt [.seq pieces, .seq []]

def many (pieces : List Piece) : Piece := .star (.seq pieces)

def comma : Piece := mark ","

def commaList (piece : Piece) : Piece := .seq [piece, many [comma, piece]]

def looseList (piece : Piece) : Piece := .seq [commaList piece, opt [comma]]

-- Inside brackets of any form a line end closes nothing.
def bracketed (first last : String) (pieces : List Piece) : Piece :=
  .seq [mark first, .lines false (.seq pieces), mark last]

def braced (pieces : List Piece) : Piece := bracketed "\x7b" "\x7d" pieces

def parenthesized (pieces : List Piece) : Piece := bracketed "(" ")" pieces

def equals : Piece := markUnless "=" fun c => c = '=' || c = '>'

-- A semicolon, or a line end that stands for one.
def statementEnd (afterValue : Bool) : Piece := oneOf [.lineBreak afterValue, mark ";"]

-- One of these words as a whole statement: there it is a name, even if it could start a longer one.
def standsAlone (texts : List String) : Piece := seq [words texts, statementEnd true]

def string : Piece := .token .string Lexeme.string

def number : Piece := .token .number Lexeme.number

end ComponentAtlas.Source.Grammar
