import ComponentAtlas.Source.Lexeme

namespace ComponentAtlas.Source.LineEnd
open ComponentAtlas.Text Lexeme

-- What follows blanks and comments; none when a lone slash follows. Each round takes a comment.
def skipComments : Nat → List Char → Option (List Char)
  | 0, cs => some cs
  | fuel + 1, cs =>
    match cs.dropWhile isAsciiBlank with
    | '/' :: '/' :: rest =>
      skipComments fuel (rest.dropWhile fun c => c != '\n' && c != '\u2028' && c != '\u2029')
    | '/' :: '*' :: rest =>
      match blockEnd rest 0 with
      | some n => skipComments fuel (rest.drop n)
      | none => some []
    | '/' :: _ => none
    | cs => some cs

-- Whether a name that starts with the letter i is the operator `in` or `instanceof`.
def isRelation (cs : List Char) : Bool :=
  match cs with
  | 'i' :: 'n' :: rest =>
    if !rest.head?.any isAsciiLetter then true
    else "stanceof".toList.isPrefixOf rest && !(rest.drop 8).head?.any isAsciiLetter
  | _ => false

-- Whether the first characters of the next line let the statement end before them. After a value
-- a bracket or parenthesis continues the statement, after a type it does not.
def allowsEnd (afterValue : Bool) : List Char → Bool
  | '+' :: rest => rest.head? = some '+'
  | '-' :: rest => rest.head? = some '-'
  | '!' :: rest => rest.head? != some '='
  | '(' :: _ => !afterValue
  | '[' :: _ => !afterValue
  | c :: rest =>
    if c = '\x60' || c = ',' || c = '.' || c = ';' || c = '*' || c = '%' || c = '>' || c = '<' ||
        c = '=' || c = '?' || c = '^' || c = '|' || c = '&' || c = '/' || c = ':' then false
    else !isRelation (c :: rest)
  | [] => true

-- `size` bounds the number of comments that may stand before the next line's code.
def endsHere (afterValue : Bool) (size : Nat) (cs : List Char) : Bool :=
  match cs.dropWhile (fun c => isAsciiBlank c && c != '\n') with
  | [] => true
  | '\x7d' :: rest =>
    match rest.dropWhile isAsciiBlank with
    | ':' :: _ => afterValue
    | _ => true
  | '\n' :: rest =>
    match skipComments size rest with
    | some next => allowsEnd afterValue next
    | none => false
  | _ => false

end ComponentAtlas.Source.LineEnd
