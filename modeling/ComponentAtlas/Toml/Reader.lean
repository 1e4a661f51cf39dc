import ComponentAtlas.Toml.Scalar
import ComponentAtlas.Toml.Table

namespace ComponentAtlas.Toml

abbrev Reader := StateT (List Char) Option

-- Values and keys nest less deep than this.
def depthLimit : Nat := 80

def peek : Reader (Option Char) := do return (← get).head?

def expect (c : Char) : Reader Unit := do
  match ← get with
  | d :: rest => if c = d then set rest else failure
  | [] => failure

def skipWs : Reader Unit := modify (·.dropWhile isWs)

def skipComment : Reader Unit := do
  match ← get with
  | '#' :: rest => set (rest.dropWhile isPlain)
  | _ => pure ()

def isLineEnd : List Char → Bool
  | [] => true
  | '\n' :: _ => true
  | '\r' :: '\n' :: _ => true
  | _ => false

-- Nothing but blanks and a comment before the end of the line or of the text.
def endLine : Reader Unit := do
  skipWs
  skipComment
  if isLineEnd (← get) then modify dropFirstLine else failure

-- Blanks, comments and line ends; `fuel` bounds the number of lines.
def skipLines : (fuel : Nat) → Reader Unit
  | 0 => pure ()
  | fuel + 1 => do
    skipWs
    match ← peek with
    | some '#' => do
      endLine
      skipLines fuel
    | some '\n' => do
      endLine
      skipLines fuel
    | some '\r' => do
      endLine
      skipLines fuel
    | _ => pure ()

def skipBetween : Reader Unit := do skipLines ((← get).length + 1)

def isBareKeyChar (c : Char) : Bool := c.isAlphanum || c = '_' || c = '-'

def readKeyPart : Reader String := do
  let cs ← get
  match cs with
  | '"' :: _ => StateT.lift (readQuoted? cs) >>= fun (text, rest) => do set rest; return text
  | '\x27' :: _ => StateT.lift (readQuoted? cs) >>= fun (text, rest) => do set rest; return text
  | _ =>
    let word := cs.takeWhile isBareKeyChar
    if word.isEmpty then failure
    else do
      set (cs.dropWhile isBareKeyChar)
      return String.ofList word

def readKeyParts : (fuel : Nat) → Reader (List String)
  | 0 => failure
  | fuel + 1 => do
    skipWs
    let part ← readKeyPart
    skipWs
    match ← peek with
    | some '.' => do
      expect '.'
      return part :: (← readKeyParts fuel)
    | _ => return [part]

def readKey : Reader (List String) := readKeyParts (depthLimit - 1)

def readPair (value : Reader TomlValue) : Reader (List String × TomlValue) := do
  let key ← readKey
  expect '='
  skipWs
  return (key, ← value)

def readItems (value : Reader TomlValue) : (fuel : Nat) → Reader (List TomlValue)
  | 0 => failure
  | fuel + 1 => do
    skipBetween
    match ← peek with
    | some ']' => do
      expect ']'
      return []
    | _ => do
      let item ← value
      skipBetween
      match ← peek with
      | some ',' => do
        expect ','
        return item :: (← readItems value fuel)
      | _ => do
        expect ']'
        return [item]

-- Pairs of an inline table up to its closing brace; no comma behind the last.
def readPairs (value : Reader TomlValue) : (fuel : Nat) → Entries → Reader Entries
  | 0, _ => failure
  | fuel + 1, entries => do
    let (key, value') ← readPair value
    let entries ← StateT.lift (setValue key value' entries)
    skipWs
    match ← peek with
    | some ',' => do
      expect ','
      readPairs value fuel entries
    | _ => do
      expect '\x7d'
      return entries

def readInline (value : Reader TomlValue) : Reader TomlValue := do
  skipWs
  match ← peek with
  | some '\x7d' => do
    expect '\x7d'
    return .table []
  | _ => do
    let entries ← readPairs value ((← get).length + 1) []
    return .table (finishEntries entries)

def lift {α : Type} (read : List Char → Option (α × List Char)) : Reader α := do
  let (a, rest) ← StateT.lift (read (← get))
  set rest
  return a

def readValue : (room : Nat) → Reader TomlValue
  | 0 => do
    match ← peek with
    | some '"' => return .text (← lift readText?)
    | some '\x27' => return .text (← lift readText?)
    | _ => lift readScalar?
  | room + 1 => do
    match ← peek with
    | some '"' => return .text (← lift readText?)
    | some '\x27' => return .text (← lift readText?)
    | some '[' => do
      expect '['
      return .list (← readItems (readValue room) ((← get).length + 1))
    | some '\x7b' => do
      expect '\x7b'
      readInline (readValue room)
    | _ => lift readScalar?

def readTopValue : Reader TomlValue := readValue (depthLimit - 1)

-- The document so far: its root, and the path of the table that pairs go to.
structure Document where
  root : Entries
  current : List String

def Document.insert (d : Document) (key : List String) (value : TomlValue) : Option Document := do
  let root ← changeAt false (fun _ entries => setValue key value entries) d.current .header d.root
  return { d with root }

def readHeader (d : Document) : Reader Document := do
  expect '['
  match ← peek with
  | some '[' => do
    expect '['
    let path ← readKey
    expect ']'
    expect ']'
    endLine
    return { root := ← StateT.lift (openAt openElement path d.root), current := path }
  | _ => do
    let path ← readKey
    expect ']'
    endLine
    return { root := ← StateT.lift (openAt openTable path d.root), current := path }

-- One line after the other; a value may take several.
def readLines : (fuel : Nat) → Document → Reader Document
  | 0, _ => failure
  | fuel + 1, d => do
    skipBetween
    match ← peek with
    | none => return d
    | some '[' => do readLines fuel (← readHeader d)
    | some _ => do
      let (key, value) ← readPair readTopValue
      endLine
      readLines fuel (← StateT.lift (d.insert key value))

def dropByteOrderMark : List Char → List Char
  | '\ufeff' :: rest => rest
  | cs => cs

def read? (text : String) : Option (List (String × TomlValue)) := do
  let (d, _) ← readLines (text.length + 1) { root := [], current := [] } (dropByteOrderMark text.toList)
  return finishEntries d.root

end ComponentAtlas.Toml
