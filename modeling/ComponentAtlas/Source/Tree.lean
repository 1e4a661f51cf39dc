import ComponentAtlas.Source.Grammar.Statements

namespace ComponentAtlas.Source

inductive Dialect where
  | plain
  | markup
deriving DecidableEq, Repr

namespace Grammar

def table (dialect : Dialect) : Nonterminal → Piece
  | .type => typeRule
  | .unionOperand => unionOperandRule
  | .typeOperand => typeOperandRule
  | .primaryType => primaryTypeRule
  | .functionType => functionTypeRule
  | .returnType => returnTypeRule
  | .typeArguments => typeArgumentsRule
  | .typeParameters => typeParametersRule
  | .formalParameters => formalParametersRule
  | .typeAscription => typeAscriptionRule
  | .objectType => objectTypeRule
  | .typeMember => typeMemberRule
  | .tupleMember => tupleMemberRule
  | .callSignature => callSignatureRule
  | .indexSignature => indexSignatureRule
  | .expression => expressionRule
  | .plainExpression => plainExpressionRule
  | .operand => operandRule
  | .plainOperand => plainOperandRule
  | .unary => unaryRule (dialect = .plain)
  | .suffixed => suffixedRule
  | .primary => primaryRule
  | .arrow => arrowRule
  | .arrowBody => arrowBodyRule
  | .object => objectRule
  | .array => arrayRule
  | .template => templateRule
  | .arguments => argumentsRule
  | .pattern => patternRule
  | .parameterPattern => parameterPatternRule
  | .initializer => initializerRule
  | .propertyName => propertyNameRule
  | .sequence => sequenceRule
  | .heritageValue => heritageValueRule
  | .decorator => decoratorRule
  | .markup => match dialect with
    | .plain => .alt []
    | .markup => markupRule
  | .internalModule => internalModuleRule
  | .classBody => classBodyRule
  | .classMember => classMemberRule
  | .classHeritage => classHeritageRule
  | .block => blockRule
  | .statement => statementRule
  | .declaration => declarationRule
  | .exportStatement => exportStatementRule
  | .importStatement => importStatementRule
  | .classDeclaration => classDeclarationRule
  | .classExpression => classExpressionRule
  | .declarator => declaratorRule

def programRule : Piece :=
  seq
    [ opt [.token .hashBangLine fun
        | '#' :: '!' :: rest => some (2 + Lexeme.spanLength (· != '\n') rest)
        | _ => none],
      .star (.call .statement) ]

end Grammar

-- The tree of a whole text, or the place where the first statement starts that fits no rule. That is one place for all
-- faults: the token at fault may come later, and no token is named as missing. The search is never deeper than the
-- number of rules it can pass between two characters, times the number of characters.
def parseTree (dialect : Dialect) (text : String) : Except Cursor Node :=
  let start := Reader.start text
  match Grammar.programRule.run (Grammar.table dialect) (4096 * (text.length + 1)) false start with
  | some s =>
    if s.next.atEnd then .ok { s.flush.wrap .program start.here with stop := s.next }
    else .error s.next
  | none => .error start.next

end ComponentAtlas.Source
