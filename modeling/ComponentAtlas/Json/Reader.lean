import ComponentAtlas.Decimal.Shortest
import ComponentAtlas.Text.Quoted

namespace ComponentAtlas.Json

-- Where the reader stands: the rest of the text, the line from one, and the bytes read in it.
structure Place where
  rest : List Char
  line : Nat
  column : Nat

inductive Fault where
  | placed (line column : Nat) (message : String)
  | unplaced (message : String)

abbrev Reader := EStateM Fault Place

def Place.start (text : String) : Place := { rest := text.toList, line := 1, column := 0 }

def Place.step (p : Place) : Place :=
  match p.rest with
  | [] => p
  | '\n' :: rest => { rest, line := p.line + 1, column := 0 }
  | c :: rest => { p with rest, column := p.column + c.utf8Size }

def Place.ahead (p : Place) : Nat × Nat :=
  match p.rest with
  | [] => (p.line, p.column)
  | '\n' :: _ => (p.line + 1, 0)
  | _ => (p.line, p.column + 1)

namespace Reader

def peek : Reader (Option Char) := do return (← get).rest.head?

def eat : Reader Unit := modify Place.step

def next : Reader (Option Char) := do
  let c ← peek
  eat
  return c

def fail {α : Type} (message : String) : Reader α := do
  let p ← get
  throw (.placed p.line p.column message)

def failAhead {α : Type} (message : String) : Reader α := do
  let (line, column) := (← get).ahead
  throw (.placed line column message)

def isBlank (c : Char) : Bool := c = ' ' || c = '\n' || c = '\t' || c = '\r'

def Place.skipBlank (p : Place) : Place :=
  (p.rest.takeWhile isBlank).foldl (fun p _ => p.step) p

def peekToken : Reader (Option Char) := do
  modify Place.skipBlank
  peek

-- Gives a complaint without a place the place reached by now.
def placing {α : Type} (r : Reader α) : Reader α := fun p =>
  match r p with
  | .ok a p => .ok a p
  | .error (.unplaced message) p => .error (.placed p.line p.column message) p
  | .error e p => .error e p

-- Runs `last` in any case; an earlier complaint goes before its own.
def thenAlways {α : Type} (r : Reader α) (last : Reader Unit) : Reader α := fun p =>
  match r p with
  | .ok a p =>
    match last p with
    | .ok () p => .ok a p
    | .error e p => .error e p
  | .error e p =>
    match last p with
    | .ok () p => .error e p
    | .error _ p => .error e p

def endOfValue : String := "EOF while parsing a value"
def endOfList : String := "EOF while parsing a list"
def endOfObject : String := "EOF while parsing an object"
def endOfString : String := "EOF while parsing a string"

def readIdent : List Char → Reader Unit
  | [] => pure ()
  | expected :: rest => do
    match ← next with
    | none => fail endOfValue
    | some c => if c = expected then readIdent rest else fail "expected ident"

def hexValue (c : Char) : Option Nat :=
  if '0' ≤ c && c ≤ '9' then some (c.toNat - '0'.toNat)
  else if 'a' ≤ c && c ≤ 'f' then some (c.toNat - 'a'.toNat + 10)
  else if 'A' ≤ c && c ≤ 'F' then some (c.toNat - 'A'.toNat + 10)
  else none

-- Passes `count` bytes, or all that are left; the text of an escape is ASCII.
def eatBytes : (count : Nat) → Reader (List Char)
  | 0 => pure []
  | count + 1 => do
    match ← next with
    | none => fail endOfString
    | some c => return c :: (← eatBytes count)

def readHex : Reader Nat := do
  let digits ← eatBytes 4
  match digits.mapM hexValue with
  | some values => return values.foldl (fun n d => 16 * n + d) 0
  | none => fail "invalid escape"

def isLeading (n : Nat) : Bool := 0xd800 ≤ n && n ≤ 0xdbff
def isTrailing (n : Nat) : Bool := 0xdc00 ≤ n && n ≤ 0xdfff

def expectHexPart (c : Char) : Reader Unit := do
  match ← peek with
  | none => fail endOfString
  | some x =>
    eat
    if x = c then pure () else fail "unexpected end of hex escape"

-- A character given by its number, in two parts when it lies beyond the first plane.
def readUnicode : Reader Char := do
  let n ← readHex
  if isTrailing n then fail "lone leading surrogate in hex escape"
  else if isLeading n then do
    expectHexPart '\\'
    expectHexPart 'u'
    let m ← readHex
    if isTrailing m then return Char.ofNat ((n - 0xd800) * 1024 + (m - 0xdc00) + 0x10000)
    else fail "lone leading surrogate in hex escape"
  else return Char.ofNat n

def simpleEscape (c : Char) : Option Char :=
  if c = '"' || c = '\\' || c = '/' then some c
  else if c = 'b' then some '\x08'
  else if c = 'f' then some '\x0c'
  else if c = 'n' then some '\n'
  else if c = 'r' then some '\r'
  else if c = 't' then some '\t'
  else none

-- The rest of a string behind its quote; `decode` is off for strings that are skipped.
def readStringRest (decode : Bool) : (fuel : Nat) → List Char → Reader String
  | 0, _ => fail endOfString
  | fuel + 1, done => do
    match ← peek with
    | none => fail endOfString
    | some c =>
      eat
      if c = '"' then return String.ofList done.reverse
      else if c = '\\' then do
        match ← next with
        | none => fail endOfString
        | some 'u' =>
          if decode then do
            let x ← readUnicode
            readStringRest decode fuel (x :: done)
          else do
            let _ ← readHex
            readStringRest decode fuel done
        | some e =>
          match simpleEscape e with
          | some x => readStringRest decode fuel (x :: done)
          | none => fail "invalid escape"
      else if c < '\x20' then fail "control character (\\u0000-\\u001F) found while parsing a string"
      else readStringRest decode fuel (c :: done)

def readString (decode : Bool) : Reader String := do
  let fuel := (← get).rest.length + 1
  eat
  readStringRest decode fuel []

inductive Numeral where
  | whole (value : Int)
  | float (value : Float)

def isDigit (c : Char) : Bool := '0' ≤ c && c ≤ '9'

def nextIsDigit : Reader Bool := do return (← peek).any isDigit

def skipDigits : (fuel : Nat) → Reader Nat
  | 0 => pure 0
  | fuel + 1 => do
    if ← nextIsDigit then do
      eat
      return (← skipDigits fuel) + 1
    else return 0

def largestWord : Nat := Nat.pow 2 64 - 1

def tenTo (n : Nat) : Float := Float.ofScientific 1 false n

def scale (negative : Bool) : (fuel : Nat) → Float → Int → Reader Float
  | 0, _, _ => fail "number out of range"
  | fuel + 1, f, exponent => do
    let sign (x : Float) := if negative then -x else x
    if exponent.natAbs ≤ 308 then
      if exponent ≥ 0 then
        let x := f * tenTo exponent.natAbs
        if x.isInf then fail "number out of range" else return sign x
      else return sign (f / tenTo exponent.natAbs)
    else if f == 0.0 then return sign f
    else if exponent ≥ 0 then fail "number out of range"
    else scale negative fuel (f / tenTo 308) (exponent + 308)

def ofParts (negative : Bool) (significand : Nat) (exponent : Int) : Reader Float :=
  scale negative (exponent.natAbs + 2) (Float.ofNat significand) exponent

def largestExponent : Nat := Nat.pow 2 31 - 1

-- Digits of an exponent; none when it grows beyond all bounds.
def exponentDigits : (fuel : Nat) → Nat → Reader (Option Nat)
  | 0, n => return some n
  | fuel + 1, n => do
    match ← peek with
    | some c =>
      if isDigit c then do
        eat
        let n := 10 * n + (c.toNat - '0'.toNat)
        if n > largestExponent then return none else exponentDigits fuel n
      else return some n
    | none => return some n

def readExponent (negative : Bool) (significand : Nat) (start : Int) : Reader Float := do
  let fuel := (← get).rest.length + 1
  eat
  let positive ← match ← peek with
    | some '+' => do eat; pure true
    | some '-' => do eat; pure false
    | _ => pure true
  match ← next with
  | none => fail endOfValue
  | some c =>
    if !isDigit c then fail "invalid number"
    else
      match ← exponentDigits fuel (c.toNat - '0'.toNat) with
      | some n =>
        let exponent : Int := if positive then start + n else start - n
        ofParts negative significand exponent
      | none =>
        if significand != 0 && positive then fail "number out of range"
        else do
          let _ ← skipDigits fuel
          return if negative then -0.0 else 0.0

def readScaled (negative : Bool) (significand : Nat) (exponent : Int) : Reader Float := do
  match ← peek with
  | some 'e' => readExponent negative significand exponent
  | some 'E' => readExponent negative significand exponent
  | _ => ofParts negative significand exponent

-- Digits behind the point, as long as the significand fits a word; further ones are passed over.
def fractionDigits : (fuel : Nat) → Nat → Nat → Reader (Nat × Nat)
  | 0, significand, count => return (significand, count)
  | fuel + 1, significand, count => do
    match ← peek with
    | some c =>
      if isDigit c then
        let grown := 10 * significand + (c.toNat - '0'.toNat)
        if grown > largestWord then do
          let _ ← skipDigits (fuel + 1)
          return (significand, count)
        else do
          eat
          fractionDigits fuel grown (count + 1)
      else return (significand, count)
    | none => return (significand, count)

def readFraction (negative : Bool) (significand : Nat) (exponent : Int) : Reader Float := do
  let fuel := (← get).rest.length + 1
  eat
  if !(← nextIsDigit) then
    match ← peek with
    | some _ => failAhead "invalid number"
    | none => failAhead endOfValue
  else
    let (significand, count) ← fractionDigits fuel significand 0
    readScaled negative significand (exponent - count)

-- Digits before the point; those that no longer fit a word only count.
def wholeDigits : (fuel : Nat) → Nat → Reader (Nat × Nat)
  | 0, significand => return (significand, 0)
  | fuel + 1, significand => do
    match ← peek with
    | some c =>
      if isDigit c then
        let grown := 10 * significand + (c.toNat - '0'.toNat)
        if grown > largestWord then return (significand, ← skipDigits (fuel + 1))
        else do
          eat
          wholeDigits fuel grown
      else return (significand, 0)
    | none => return (significand, 0)

def readNumeral (negative : Bool) : Reader Numeral := do
  let fuel := (← get).rest.length + 1
  match ← next with
  | none => fail endOfValue
  | some c =>
    if !isDigit c then fail "invalid number"
    else if c = '0' && (← nextIsDigit) then failAhead "invalid number"
    else
      let (significand, dropped) ← wholeDigits fuel (c.toNat - '0'.toNat)
      match ← peek with
      | some '.' => return .float (← readFraction negative significand dropped)
      | some 'e' => return .float (← readExponent negative significand dropped)
      | some 'E' => return .float (← readExponent negative significand dropped)
      | _ =>
        if dropped > 0 then return .float (← ofParts negative significand dropped)
        else if !negative then return .whole significand
        else if significand = 0 || significand > Nat.pow 2 63 then return .float (-(Float.ofNat significand))
        else return .whole (-(significand : Int))

def Numeral.shown : Numeral → String
  | .whole value => s!"integer \x60{value}\x60"
  | .float value => s!"floating point \x60{Decimal.compact (Decimal.ofFloat value)}\x60"

def wrongType {α : Type} (expected : String) : Reader α := placing do
  let complain (found : String) : Reader α :=
    throw (.unplaced s!"invalid type: {found}, expected {expected}")
  match ← peek with
  | some 'n' => do eat; readIdent "ull".toList; complain "null"
  | some 't' => do eat; readIdent "rue".toList; complain "boolean \x60true\x60"
  | some 'f' => do eat; readIdent "alse".toList; complain "boolean \x60false\x60"
  | some '-' => do eat; complain (← readNumeral true).shown
  | some '"' => do complain ("string " ++ Text.shown (← readString true))
  | some '[' => complain "sequence"
  | some '\x7b' => complain "map"
  | some c => if isDigit c then do complain (← readNumeral false).shown else failAhead "expected value"
  | none => failAhead "expected value"

def readText : Reader String := do
  match ← peekToken with
  | none => failAhead endOfValue
  | some '"' => readString true
  | some _ => wrongType "a string"

def readOptionalText : Reader (Option String) := do
  match ← peekToken with
  | some 'n' => do
    eat
    readIdent "ull".toList
    return none
  | _ => return some (← readText)

def hasItem (first : Bool) : Reader Bool := do
  match ← peekToken with
  | none => failAhead endOfList
  | some ']' => return false
  | some c =>
    if first then return true
    else if c = ',' then do
      eat
      match ← peekToken with
      | some ']' => failAhead "trailing comma"
      | some _ => return true
      | none => failAhead endOfValue
    else failAhead "expected \x60,\x60 or \x60]\x60"

def closeList : Reader Unit := do
  match ← peekToken with
  | some ']' => eat
  | some ',' => do
    eat
    match ← peekToken with
    | some ']' => failAhead "trailing comma"
    | _ => failAhead "trailing characters"
  | some _ => failAhead "trailing characters"
  | none => failAhead endOfList

def hasKey (first : Bool) : Reader Bool := do
  match ← peekToken with
  | none => failAhead endOfObject
  | some '\x7d' => return false
  | some c =>
    if first then (if c = '"' then return true else failAhead "key must be a string")
    else if c = ',' then do
      eat
      match ← peekToken with
      | some '"' => return true
      | some '\x7d' => failAhead "trailing comma"
      | some _ => failAhead "key must be a string"
      | none => failAhead endOfValue
    else failAhead "expected \x60,\x60 or \x60\x7d\x60"

def closeObject : Reader Unit := do
  match ← peekToken with
  | some '\x7d' => eat
  | some ',' => failAhead "trailing comma"
  | some _ => failAhead "trailing characters"
  | none => failAhead endOfObject

def expectColon : Reader Unit := do
  match ← peekToken with
  | some ':' => eat
  | some _ => failAhead "expected \x60:\x60"
  | none => failAhead endOfObject

def skipNumber : Reader Unit := do
  let fuel := (← get).rest.length + 1
  match ← next with
  | none => fail "invalid number"
  | some c =>
    if !isDigit c then fail "invalid number"
    else if c = '0' && (← nextIsDigit) then failAhead "invalid number"
    else
      let _ ← skipDigits fuel
      if (← peek) = some '.' then
        eat
        if (← skipDigits fuel) = 0 then failAhead "invalid number"
      if (← peek).any (fun c => c = 'e' || c = 'E') then
        eat
        if (← peek).any (fun c => c = '+' || c = '-') then eat
        match ← next with
        | some c => if isDigit c then (do let _ ← skipDigits fuel) else fail "invalid number"
        | none => fail "invalid number"

-- Leaves the brackets that close here; whether the value is over, or which bracket stays open.
def leaveBrackets : (fuel : Nat) → (afterItem : Bool) → (stack : List Char) → Reader (List Char)
  | 0, _, stack => return stack
  | _, _, [] => return []
  | fuel + 1, afterItem, bracket :: outer => do
    let isList := bracket = '['
    match ← peekToken with
    | none => failAhead (if isList then endOfList else endOfObject)
    | some c =>
      if c = ',' && afterItem then do
        eat
        return bracket :: outer
      else if (isList && c = ']') || (!isList && c = '\x7d') then do
        eat
        leaveBrackets fuel true outer
      else if afterItem then
        failAhead (if isList then "expected \x60,\x60 or \x60]\x60" else "expected \x60,\x60 or \x60\x7d\x60")
      else return bracket :: outer

def skipKey (stack : List Char) : Reader Unit := do
  if stack.head? = some '\x7b' then
    match ← peekToken with
    | some '"' => do
      let _ ← readString false
      expectColon
    | some _ => failAhead "key must be a string"
    | none => failAhead endOfObject

-- Skips a value of any shape; `stack` holds the open brackets, innermost first.
def skipValue : (fuel : Nat) → (stack : List Char) → Reader Unit
  | 0, _ => pure ()
  | fuel + 1, stack => do
    let opened ← match ← peekToken with
      | none => failAhead endOfValue
      | some 'n' => do eat; readIdent "ull".toList; pure none
      | some 't' => do eat; readIdent "rue".toList; pure none
      | some 'f' => do eat; readIdent "alse".toList; pure none
      | some '-' => do eat; skipNumber; pure none
      | some '"' => do let _ ← readString false; pure none
      | some '[' => do eat; pure (some '[')
      | some '\x7b' => do eat; pure (some '\x7b')
      | some c => if isDigit c then do skipNumber; pure none else failAhead "expected value"
    let stack := opened.toList ++ stack
    match ← leaveBrackets (fuel + 1) opened.isNone stack with
    | [] => pure ()
    | stack => do
      skipKey stack
      skipValue fuel stack

def skipAny : Reader Unit := do
  skipValue ((← get).rest.length + 1) []

def readItems {α : Type} (item : Reader α) : (fuel : Nat) → (first : Bool) → Reader (List α)
  | 0, _ => pure []
  | fuel + 1, first => do
    if ← hasItem first then
      let x ← item
      return x :: (← readItems item fuel false)
    else return []

def readList {α : Type} (item : Reader α) : Reader (List α) := placing do
  match ← peekToken with
  | none => failAhead endOfValue
  | some '[' => do
    let fuel := (← get).rest.length + 1
    eat
    thenAlways (readItems item fuel true) closeList
  | some _ => wrongType "a sequence"

def finish : Reader Unit := do
  match ← peekToken with
  | some _ => failAhead "trailing characters"
  | none => pure ()

end Reader

def read {α : Type} (reader : Reader α) (text : String) : Except String α :=
  match (do let a ← reader; Reader.finish; return a : Reader α) (Place.start text) with
  | .ok a _ => .ok a
  | .error (.placed line column message) _ => .error s!"{message} at line {line} column {column}"
  | .error (.unplaced message) _ => .error message

def readTexts (text : String) : Except String (List String) :=
  read (Reader.readList Reader.readText) text

end ComponentAtlas.Json
