import ComponentAtlas.Toml.Quoted

namespace ComponentAtlas.Toml

def longestRun (c : Char) (cs : List Char) : Nat :=
  (cs.foldl (fun (longest, run) d =>
    if d = c then (max longest (run + 1), run + 1) else (longest, 0)) (0, 0)).1

-- Controls other than tab and line feed can only be written as escapes.
def needsEscape (c : Char) : Bool := (c < '\x20' && c != '\t' && c != '\n') || c = '\x7f'

inductive QuoteForm where
  | basic
  | literal
  | basicBlock
  | literalBlock
deriving DecidableEq, Repr

def QuoteForm.shows (cs : List Char) : QuoteForm → Bool
  | basic => !cs.any needsEscape && !cs.any (fun c => c = '\\' || c = '"' || c = '\n')
  | literal => !cs.any needsEscape && !cs.any (fun c => c = '\x27' || c = '\n')
  | basicBlock => !cs.any needsEscape && !cs.any (· = '\\') && longestRun '"' cs ≤ 2
  | literalBlock => !cs.any needsEscape && longestRun '\x27' cs ≤ 2

def QuoteForm.isBlock : QuoteForm → Bool
  | basicBlock => true
  | literalBlock => true
  | _ => false

def QuoteForm.ofText (cs : List Char) : QuoteForm :=
  let fallback := if cs.any (· = '\n') then basicBlock else basic
  ([basic, literal, basicBlock, literalBlock].find? (·.shows cs)).getD fallback

def QuoteForm.quotes : QuoteForm → List Char
  | basic => ['"']
  | literal => ['\x27']
  | basicBlock => ['"', '"', '"']
  | literalBlock => ['\x27', '\x27', '\x27']

def numbered (c : Char) : List Char :=
  ['\\', 'u'] ++ Text.padLeft 4 '0' ((Text.hexDigits c.toNat).map Char.toUpper)

-- Escapes for a text in double quotes; a block keeps its line feeds and up to two quotes in a row.
def escaped (block : Bool) : (quotes : Nat) → List Char → List Char
  | _, [] => []
  | quotes, c :: rest =>
    if c = '"' then
      if block && quotes < 2 then c :: escaped block (quotes + 1) rest
      else '\\' :: c :: escaped block 0 rest
    else
      let shown :=
        if c = '\x08' then ['\\', 'b']
        else if c = '\t' then ['\\', 't']
        else if c = '\n' then (if block then [c] else ['\\', 'n'])
        else if c = '\x0c' then ['\\', 'f']
        else if c = '\r' then ['\\', 'r']
        else if c = '\\' then ['\\', '\\']
        else if needsEscape c then numbered c
        else [c]
      shown ++ escaped block 0 rest

-- A text with its quotes; a block with several lines starts on a line of its own.
def textChars (cs : List Char) : List Char :=
  let form := QuoteForm.ofText cs
  let start := if form.isBlock && cs.any (· = '\n') then ['\n'] else []
  let body :=
    match form with
    | .basic => escaped false 0 cs
    | .basicBlock => escaped true 0 cs
    | _ => cs
  form.quotes ++ start ++ body ++ form.quotes

def quotedText (text : String) : String := String.ofList (textChars text.toList)

-- A key without quotes where that is possible; a key is never a block.
def keyText (key : String) : String :=
  let cs := key.toList
  if !cs.isEmpty && cs.all (fun c => c.isAlphanum || c = '_' || c = '-') then key
  else if QuoteForm.literal.shows cs && !QuoteForm.basic.shows cs then
    String.ofList (['\x27'] ++ cs ++ ['\x27'])
  else String.ofList (['"'] ++ escaped false 0 cs ++ ['"'])

def entryLine (key value : String) : String := keyText key ++ " = " ++ value

end ComponentAtlas.Toml
