import ComponentAtlas.Text.Quoted

namespace ComponentAtlas.Toml

def isWs (c : Char) : Bool := c = ' ' || c = '\t'

def isPlain (c : Char) : Bool := c = '\t' || ('\x20' ≤ c && c != '\x7f')

def hexDigit? (c : Char) : Option Nat :=
  if '0' ≤ c && c ≤ '9' then some (c.toNat - '0'.toNat)
  else if 'a' ≤ c && c ≤ 'f' then some (c.toNat - 'a'.toNat + 10)
  else if 'A' ≤ c && c ≤ 'F' then some (c.toNat - 'A'.toNat + 10)
  else none

def hexChar? (digits : List Char) : Option Char := do
  let values ← digits.mapM hexDigit?
  let n := values.foldl (fun n d => 16 * n + d) 0
  if n.isValidChar then some (Char.ofNat n) else none

def shortEscape? (c : Char) : Option Char :=
  if c = 'b' then some '\x08'
  else if c = 't' then some '\t'
  else if c = 'n' then some '\n'
  else if c = 'f' then some '\x0c'
  else if c = 'r' then some '\r'
  else if c = '"' then some '"'
  else if c = '\\' then some '\\'
  else none

def unescape : List Char → Option (List Char)
  | [] => some []
  | '\\' :: 'u' :: a :: b :: c :: d :: rest => do
    return (← hexChar? [a, b, c, d]) :: (← unescape rest)
  | '\\' :: 'U' :: a :: b :: c :: d :: e :: f :: g :: h :: rest => do
    return (← hexChar? [a, b, c, d, e, f, g, h]) :: (← unescape rest)
  | '\\' :: c :: rest => do
    return (← shortEscape? c) :: (← unescape rest)
  | c :: rest => do
    if isPlain c && c != '\\' then return c :: (← unescape rest) else none

-- Line ends become single line feeds; a carriage return alone is refused.
def unifyLines : List Char → Option (List Char)
  | [] => some []
  | '\r' :: '\n' :: rest => do return '\n' :: (← unifyLines rest)
  | c :: rest => do if c = '\r' then none else return c :: (← unifyLines rest)

def endsLine (cs : List Char) : Bool := (cs.dropWhile isWs).head? = some '\n'

-- Resolves the escapes of a block. A backslash at the end of a line joins it to the next text;
-- `joining` says that blanks are being passed over for that.
def unescapeBlock : (joining : Bool) → List Char → Option (List Char)
  | _, [] => some []
  | _, '\\' :: 'u' :: a :: b :: c :: d :: rest => do
    return (← hexChar? [a, b, c, d]) :: (← unescapeBlock false rest)
  | _, '\\' :: 'U' :: a :: b :: c :: d :: e :: f :: g :: h :: rest => do
    return (← hexChar? [a, b, c, d, e, f, g, h]) :: (← unescapeBlock false rest)
  | _, '\\' :: c :: rest =>
    if endsLine (c :: rest) then unescapeBlock true (c :: rest)
    else do
      return (← shortEscape? c) :: (← unescapeBlock false rest)
  | joining, c :: rest =>
    if joining && (isWs c || c = '\n') then unescapeBlock true rest
    else do
      if (isPlain c && c != '\\') || c = '\n' then return c :: (← unescapeBlock false rest) else none

-- What stands before a closing quote, and the rest behind it; an escaped character closes nothing.
def spanQuoted (quote : Char) (escapes : Bool) : List Char → Option (List Char × List Char)
  | [] => none
  | [c] => if c = quote then some ([], []) else none
  | c :: d :: rest =>
    if c = quote then some ([], d :: rest)
    else if escapes && c = '\\' then
      (spanQuoted quote escapes rest).map fun (body, rest) => (c :: d :: body, rest)
    else (spanQuoted quote escapes (d :: rest)).map fun (body, rest) => (c :: body, rest)

-- The quotes that still belong to a block which is closed here, and the rest.
def closeBlock? (quote : Char) (cs : List Char) : Option (List Char × List Char) :=
  let quotes := min 5 (cs.takeWhile (· = quote)).length
  if 3 ≤ quotes then some (List.replicate (quotes - 3) quote, cs.drop quotes) else none

def spanBlock (quote : Char) (escapes : Bool) : List Char → Option (List Char × List Char)
  | [] => none
  | [_] => none
  | c :: d :: rest =>
    match closeBlock? quote (c :: d :: rest) with
    | some closed => some closed
    | none =>
      if escapes && c = '\\' then
        (spanBlock quote escapes rest).map fun (body, rest) => (c :: d :: body, rest)
      else (spanBlock quote escapes (d :: rest)).map fun (body, rest) => (c :: body, rest)

-- A line end right behind the opening quotes is left out.
def dropFirstLine : List Char → List Char
  | '\n' :: rest => rest
  | '\r' :: '\n' :: rest => rest
  | cs => cs

def plainBlock (body : List Char) : Option (List Char) :=
  if body.all fun c => isPlain c || c = '\n' then some body else none

-- A text between double or single quotes, from its opening quote.
def readQuoted? : List Char → Option (String × List Char)
  | '"' :: cs => do
    let (body, rest) ← spanQuoted '"' true cs
    return (String.ofList (← unescape body), rest)
  | '\x27' :: cs => do
    let (body, rest) ← spanQuoted '\x27' false cs
    if body.all isPlain then return (String.ofList body, rest) else none
  | _ => none

-- A quoted text that may be a block.
def readText? : List Char → Option (String × List Char)
  | '"' :: '"' :: '"' :: cs => do
    let (body, rest) ← spanBlock '"' true (dropFirstLine cs)
    return (String.ofList (← unescapeBlock false (← unifyLines body)), rest)
  | '\x27' :: '\x27' :: '\x27' :: cs => do
    let (body, rest) ← spanBlock '\x27' false (dropFirstLine cs)
    return (String.ofList (← plainBlock (← unifyLines body)), rest)
  | cs => readQuoted? cs

end ComponentAtlas.Toml
