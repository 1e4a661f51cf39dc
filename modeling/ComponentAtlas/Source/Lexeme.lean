import ComponentAtlas.Text.Blank

namespace ComponentAtlas.Source

abbrev Scan := List Char → Option Nat

namespace Lexeme
open ComponentAtlas.Text

-- Layout separates tokens and is otherwise skipped; a byte order mark is layout wherever it stands.
def isLayout (c : Char) : Bool :=
  isAsciiBlank c || isSpaceSeparator c || c = '\ufeff' || c = '\u2028' || c = '\u2029' ||
    c = '\u2060' || c = '\u200b'

def isAsciiPunctuation (c : Char) : Bool :=
  c = ':' || c = ';' || c = '\x60' || c = '"' || c = '\x27' || c = '@' || c = '#' || c = '.' ||
    c = ',' || c = '|' || c = '^' || c = '&' || c = '<' || c = '=' || c = '>' || c = '+' ||
    c = '-' || c = '*' || c = '/' || c = '\\' || c = '%' || c = '?' || c = '!' || c = '~' ||
    c = '(' || c = ')' || c = '[' || c = ']' || c = '\x7b' || c = '\x7d'

-- Any character that is neither layout, control nor ASCII punctuation can be part of a name.
def isNamePart (c : Char) : Bool :=
  '\x20' ≤ c && !isLayout c && !isAsciiPunctuation c

def isDigit (c : Char) : Bool :=
  '0' ≤ c && c ≤ '9'

def isHexDigit (c : Char) : Bool :=
  isDigit c || ('a' ≤ c && c ≤ 'f') || ('A' ≤ c && c ≤ 'F')

def isOctalDigit (c : Char) : Bool :=
  '0' ≤ c && c ≤ '7'

def isAsciiLetter (c : Char) : Bool :=
  ('a' ≤ c && c ≤ 'z') || ('A' ≤ c && c ≤ 'Z')

def spanLength (test : Char → Bool) (cs : List Char) : Nat :=
  go cs 0
where
  go : List Char → Nat → Nat
    | [], count => count
    | c :: rest, count => if test c then go rest (count + 1) else count

-- How many characters the longest run of units takes; `inside` counts what is left of a unit.
def runLength (unit : Scan) : List Char → (inside count : Nat) → Nat
  | [], _, count => count
  | _ :: rest, inside + 1, count => runLength unit rest inside (count + 1)
  | c :: rest, 0, count =>
    match unit (c :: rest) with
    | some (n + 1) => runLength unit rest n (count + 1)
    | _ => count

def mark (text : String) : Scan := fun cs =>
  if text.toList.isPrefixOf cs then some text.length else none

-- A mark that is not the beginning of a longer one.
def markUnless (text : String) (next : Char → Bool) : Scan := fun cs =>
  if text.toList.isPrefixOf cs && !(cs.drop text.length).head?.any next then some text.length else none

-- Four hexadecimal digits, or any positive number of them between braces, after a backslash and u.
def unicodeEscape : Scan
  | '\\' :: 'u' :: '\x7b' :: rest =>
    let n := spanLength isHexDigit rest
    if n > 0 && (rest.drop n).head? = some '\x7d' then some (n + 4) else none
  | '\\' :: 'u' :: a :: b :: c :: d :: _ =>
    if isHexDigit a && isHexDigit b && isHexDigit c && isHexDigit d then some 6 else none
  | _ => none

def namePart : Scan
  | '\\' :: rest => unicodeEscape ('\\' :: rest)
  | c :: _ => if isNamePart c then some 1 else none
  | [] => none

def name : Scan := fun cs =>
  match cs with
  | [] => none
  | c :: _ =>
    if isDigit c then none
    else match runLength namePart cs 0 0 with
      | 0 => none
      | n => some n

def word (text : String) : Scan := fun cs =>
  if text.toList.isPrefixOf cs && namePart (cs.drop text.length) = none then some text.length else none

def nameExcept (reserved : List String) : Scan := fun cs =>
  match name cs with
  | some n => if reserved.contains (String.ofList (cs.take n)) then none else some n
  | none => none

def privateName : Scan
  | '#' :: rest => (name rest).map (· + 1)
  | _ => none

-- An attribute or element name of markup: names may also hold hyphens.
def markupName : Scan := fun cs =>
  match name cs with
  | some _ => some (spanLength (fun c => isNamePart c || c = '-') cs)
  | none => none

def isLineBreak (c : Char) : Bool :=
  c = '\n' || c = '\r' || c = '\u2028' || c = '\u2029'

def blockEnd : List Char → Nat → Option Nat
  | '*' :: '/' :: _, count => some (count + 2)
  | _ :: rest, count => blockEnd rest (count + 1)
  | [], _ => none

def comment : Scan
  | '/' :: '/' :: rest => some (2 + spanLength (!isLineBreak ·) rest)
  | '/' :: '*' :: rest => blockEnd rest 2
  | _ => none

def escape : Scan
  | '\\' :: 'x' :: a :: b :: _ => if isHexDigit a && isHexDigit b then some 4 else none
  | '\\' :: 'u' :: rest => unicodeEscape ('\\' :: 'u' :: rest)
  | '\\' :: '\r' :: '\n' :: _ => some 3
  | '\\' :: c :: rest =>
    if isOctalDigit c then some (1 + min 3 (spanLength isOctalDigit (c :: rest)))
    else if c = 'x' then none else some 2
  | _ => none

def quotedPart (quote : Char) : Scan
  | '\\' :: rest => escape ('\\' :: rest)
  | c :: _ => if c = quote || c = '\n' || c = '\r' then none else some 1
  | [] => none

def quoted (quote : Char) : Scan
  | c :: rest =>
    if c = quote then
      let n := runLength (quotedPart quote) rest 0 0
      if (rest.drop n).head? = some quote then some (n + 2) else none
    else none
  | [] => none

def string : Scan := fun cs =>
  match quoted '"' cs with
  | some n => some n
  | none => quoted '\x27' cs

-- In markup a string has no escapes and may hold line breaks.
def markupString : Scan
  | '"' :: rest =>
    let n := spanLength (· != '"') rest
    if (rest.drop n).isEmpty then none else some (n + 2)
  | '\x27' :: rest =>
    let n := spanLength (· != '\x27') rest
    if (rest.drop n).isEmpty then none else some (n + 2)
  | _ => none

-- Text of a template up to a closing backtick or a substitution.
def templatePart : Scan
  | '\x60' :: _ => none
  | '$' :: '\x7b' :: _ => none
  | '\\' :: rest => escape ('\\' :: rest)
  | _ :: _ => some 1
  | [] => none

def templateChars : Scan := fun cs =>
  match runLength templatePart cs 0 0 with
  | 0 => none
  | n => some n

def markupText : Scan := fun cs =>
  match spanLength (fun c => c != '<' && c != '>' && c != '\x7b' && c != '\x7d' && c != '&') cs with
  | 0 => none
  | n => some n

def characterReference : Scan
  | '&' :: '#' :: x :: rest =>
    let (n, most, lead) :=
      if x = 'x' || x = 'X' then (spanLength isHexDigit rest, 6, 3)
      else (spanLength isDigit (x :: rest), 5, 2)
    if 0 < n && n ≤ most && (rest.drop (n + lead - 3)).head? = some ';' then some (n + lead + 1) else none
  | '&' :: rest =>
    let n := spanLength isAsciiLetter rest
    if 0 < n && n ≤ 30 && (rest.drop n).head? = some ';' then some (n + 2) else none
  | _ => none

-- A regular expression up to its closing slash; a slash inside brackets does not close it.
def patternEnd : List Char → (bracket : Bool) → Nat → Option Nat
  | [], _, _ => none
  | '\n' :: _, _, _ => none
  | '\\' :: c :: rest, bracket, count => if c = '\n' then none else patternEnd rest bracket (count + 2)
  | '[' :: rest, _, count => patternEnd rest true (count + 1)
  | ']' :: rest, _, count => patternEnd rest false (count + 1)
  | '/' :: rest, bracket, count => if bracket then patternEnd rest bracket (count + 1) else some count
  | _ :: rest, bracket, count => patternEnd rest bracket (count + 1)

def regex : Scan
  | '/' :: rest =>
    match patternEnd rest false 0 with
    | some (n + 1) =>
      let flags := spanLength isAsciiLetter (rest.drop (n + 2))
      some (n + 3 + flags)
    | _ => none
  | _ => none

-- Digits that single underscores may part.
def digitRun (test : Char → Bool) : Scan := fun cs =>
  match cs with
  | c :: _ =>
    if test c then
      some (runLength (fun
        | '_' :: d :: _ => if test d then some 2 else none
        | d :: _ => if test d then some 1 else none
        | [] => none) cs 0 0)
    else none
  | [] => none

def exponent : Scan
  | e :: rest =>
    if e = 'e' || e = 'E' then
      match rest with
      | s :: more =>
        if s = '+' || s = '-' then (digitRun isDigit more).map (· + 2) else (digitRun isDigit rest).map (· + 1)
      | [] => none
    else none
  | [] => none

def withExponent (cs : List Char) (n : Nat) : Nat :=
  n + (exponent (cs.drop n)).getD 0

def decimal : Scan := fun cs =>
  match cs with
  | '.' :: rest => (digitRun isDigit rest).map fun n => withExponent cs (n + 1)
  | _ =>
    match digitRun isDigit cs with
    | none => none
    | some n =>
      match cs.drop n with
      | 'n' :: _ => some (n + 1)
      | '.' :: rest => some (withExponent cs (n + 1 + (digitRun isDigit rest).getD 0))
      | _ => some (withExponent cs n)

def withBigSuffix (cs : List Char) (n : Nat) : Nat :=
  if (cs.drop n).head? = some 'n' then n + 1 else n

def radixNumber (test : Char → Bool) (cs : List Char) : Option Nat :=
  (digitRun test (cs.drop 2)).map fun n => withBigSuffix cs (n + 2)

def number : Scan := fun cs =>
  match cs with
  | '0' :: x :: _ =>
    if x = 'x' || x = 'X' then radixNumber isHexDigit cs
    else if x = 'o' || x = 'O' then radixNumber isOctalDigit cs
    else if x = 'b' || x = 'B' then radixNumber (fun c => c = '0' || c = '1') cs
    else decimal cs
  | _ => decimal cs

def anyMark (texts : List String) : Scan := fun cs =>
  texts.findSome? fun text => mark text cs

-- Comparison and arithmetic, longest first; an operator that an equals sign turns into an
-- assignment is not one of them, and neither are the doubled plus and minus.
def binaryOperator : Scan := fun cs =>
  match anyMark ["===", "!==", "==", "!=", "<=", ">="] cs with
  | some n => if (anyMark [">>>=", "<<=", ">>="] cs).isSome then none else some n
  | none =>
    match anyMark [">>>", "**", ">>", "<<", "&&", "||", "??"] cs with
    | some n => if (cs.drop n).head? = some '=' then none else some n
    | none =>
      match anyMark ["++", "--", "=>"] cs with
      | some _ => none
      | none =>
        match anyMark ["<", ">", "&", "|", "^", "+", "-", "*", "/", "%"] cs with
        | some n => if (cs.drop n).head? = some '=' then none else some n
        | none => none

def assignmentOperator : Scan :=
  anyMark [">>>=", "**=", "<<=", ">>=", "&&=", "||=", "??=", "+=", "-=", "*=", "/=", "%=", "&=", "|=", "^="]

-- The question mark of a conditional expression: not one of an optional chain, a default
-- operator or an optional parameter.
def conditionMark : Scan
  | '?' :: rest =>
    match rest with
    | '?' :: _ => none
    | '.' :: _ => none
    | _ =>
      match rest.dropWhile isAsciiBlank with
      | ':' :: _ => none
      | ')' :: _ => none
      | ',' :: _ => none
      | '.' :: d :: _ => if isDigit d then some 1 else none
      | _ => some 1
  | _ => none

end Lexeme
end ComponentAtlas.Source
