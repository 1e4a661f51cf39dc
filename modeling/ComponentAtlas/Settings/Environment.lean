import ComponentAtlas.Settings.Setting
import ComponentAtlas.Text.Blank

namespace ComponentAtlas

abbrev Environment := List (String × String)

namespace Environment

def lead : List Char := "TSCOMP_".toList

-- Whether the name starts with the lead, letters compared without case; if so, the rest.
def behindLead? (name : List Char) : Option (List Char) :=
  if (name.take lead.length).map Char.toUpper = lead then some (name.drop lead.length) else none

-- Two underscores divide the parts of a key; names are ASCII.
def dotted : List Char → List Char
  | '_' :: '_' :: rest => '.' :: dotted rest
  | c :: rest => c.toLower :: dotted rest
  | [] => []

-- The keys a variable stands for; a name with an empty part stands for none.
def keys? (name : String) : Option (List String) := do
  let rest ← behindLead? (Text.trim name.toList)
  let parts := (String.ofList (Text.trim (dotted rest))).splitOn "."
  if parts.any (·.isEmpty) then none else some parts

abbrev Reader := StateT (List Char) Option

def isWs (c : Char) : Bool := c = ' ' || c = '\t' || c = '\n' || c = '\x0c' || c = '\r'

def isSeparator (c : Char) : Bool := c ∈ [',', '\x7b', '\x7d', '[', ']']

def isKeyChar (c : Char) : Bool := c.isAlphanum || c = '_' || c = '-'

def skipWs : Reader Unit := modify (·.dropWhile isWs)

def eat? (c : Char) : Reader Bool := do
  match ← get with
  | d :: rest => if c = d then do set rest; return true else return false
  | [] => return false

def eat (c : Char) : Reader Unit := do if ← eat? c then pure () else failure

def eatWord? (word : List Char) : Reader Bool := do
  let cs ← get
  if word.isPrefixOf cs then do set (cs.drop word.length); return true else return false

def readString : Reader String := do
  match ← get with
  | '"' :: cs => do
    let (body, rest) ← StateT.lift (Toml.spanQuoted '"' true cs)
    set rest
    return String.ofList (← StateT.lift (Toml.unescape body))
  | _ => failure

def readKey : Reader String := do
  let cs ← get
  if cs.head? = some '"' then readString
  else
    let word := cs.takeWhile isKeyChar
    if word.isEmpty then failure
    else do
      set (cs.dropWhile isKeyChar)
      return String.ofList word

-- A number without sign in 64 bits; a plus may stand before it.
def unsigned? (cs : List Char) : Option Nat :=
  let digits := if cs.head? = some '+' then cs.drop 1 else cs
  if Decimal.allDigits digits && Decimal.ofDigits digits < Nat.pow 2 64 then some (Decimal.ofDigits digits)
  else none

def negative? (cs : List Char) : Option Int :=
  match cs with
  | '-' :: digits =>
    if Decimal.allDigits digits && Decimal.ofDigits digits ≤ Nat.pow 2 63 then
      some (-(Decimal.ofDigits digits : Int))
    else none
  | _ => none

-- A number if the text has the form of one; a fraction needs its point.
def plainValue (cs : List Char) : Setting :=
  match if '.' ∈ cs then Decimal.read? cs else none with
  | some x => .real x
  | none =>
    match unsigned? cs with
    | some n => .count n
    | none =>
      match negative? cs with
      | some n => .number n
      | none => .text (String.ofList cs)

def readItems (value : Reader Setting) : (fuel : Nat) → Reader (List Setting)
  | 0 => failure
  | fuel + 1 => do
    if ← eat? ']' then return []
    else
      let item ← value
      if ← eat? ',' then return item :: (← readItems value fuel)
      else do
        eat ']'
        return [item]

-- Pairs between braces, the last value of a key winning.
def readFields (value : Reader Setting) : (fuel : Nat) → List (String × Setting) →
    Reader (List (String × Setting))
  | 0, _ => failure
  | fuel + 1, fields => do
    if ← eat? '\x7d' then return fields
    else
      skipWs
      let key ← readKey
      skipWs
      eat '='
      let item ← value
      let fields := Ordered.put key item fields
      if ← eat? ',' then readFields value fuel fields
      else do
        eat '\x7d'
        return fields

def readPlain : Reader Setting := do
  let cs ← get
  set (cs.dropWhile (!isSeparator ·))
  return plainValue (Text.trim (cs.takeWhile (!isSeparator ·)))

def readLetter : Reader Setting := do
  match ← get with
  | '\x27' :: c :: '\x27' :: rest => do
    set rest
    return .letter c
  | _ => failure

-- A value by its first characters; `inner` reads the values inside it.
def readForm (inner : Reader Setting) : Reader Setting := do
  if ← eatWord? "true".toList then return .flag true
  else if ← eatWord? "false".toList then return .flag false
  else
    let cs ← get
    match cs.head? with
    | some '\x7b' => do
      eat '\x7b'
      return .group (← readFields inner (cs.length + 1) [])
    | some '[' => do
      eat '['
      return .list (← readItems inner (cs.length + 1))
    | some '"' => return .text (← readString)
    | some '\x27' => readLetter
    | _ => readPlain

-- A value with the blanks around it; `fuel` bounds how deep it goes.
def readValue : (fuel : Nat) → Reader Setting
  | 0 => failure
  | fuel + 1 => do
    skipWs
    let value ← readForm (readValue fuel)
    skipWs
    return value

def valueOf (text : String) : Setting :=
  let cs := Text.trim text.toList
  match (readValue (cs.length + 1)).run cs with
  | some (value, []) => value
  | _ => .text (String.ofList cs)

def layer (env : Environment) : Setting :=
  env.foldl (fun done (name, text) =>
    match keys? name with
    | some keys => done.overlay ((valueOf text).nested keys)
    | none => done) (.group [])

end Environment
end ComponentAtlas
