import ComponentAtlas.Decimal.Reading
import ComponentAtlas.Toml.Quoted
import ComponentAtlas.Toml.Value

namespace ComponentAtlas.Toml
open Decimal (splitSign allDigits ofDigits)

def ungrouped? (isDigit : Char → Bool) : List Char → Option (List Char)
  | [] => none
  | [c] => if isDigit c then some [c] else none
  | c :: '_' :: rest => if isDigit c then (ungrouped? isDigit rest).map (c :: ·) else none
  | c :: rest => if isDigit c then (ungrouped? isDigit rest).map (c :: ·) else none

-- A whole number in decimal digits; only zero itself may start with a zero.
def wholeDigits? (cs : List Char) : Option (List Char) := do
  let digits ← ungrouped? Char.isDigit cs
  if cs.head? = some '0' && cs.length ≠ 1 then none else some digits

def integerIn64? (value : Int) : Option TomlValue :=
  if -(Nat.pow 2 63 : Int) ≤ value && value < Nat.pow 2 63 then some (.integer value) else none

def inBase? (base : Nat) (cs : List Char) : Option TomlValue := do
  let isDigit (c : Char) : Bool :=
    match hexDigit? c with
    | some d => d < base
    | none => false
  let digits ← ungrouped? isDigit cs
  integerIn64? (digits.foldl (fun n c => base * n + (hexDigit? c).getD 0) 0 : Nat)

def integer? : List Char → Option TomlValue
  | '0' :: 'x' :: cs => inBase? 16 cs
  | '0' :: 'o' :: cs => inBase? 8 cs
  | '0' :: 'b' :: cs => inBase? 2 cs
  | cs => do
    let (negative, cs) := splitSign cs
    let n : Int := ofDigits (← wholeDigits? cs)
    integerIn64? (if negative then -n else n)

def isExponentMark (c : Char) : Bool := c = 'e' || c = 'E'

def exponent? : List Char → Option (List Char)
  | [] => some []
  | mark :: cs => do
    let (negative, cs) := splitSign cs
    let digits ← ungrouped? Char.isDigit cs
    return mark :: (if negative then '-' :: digits else digits)

-- A float too large to be written down is refused.
def decimal? (cs : List Char) : Option TomlValue := do
  let (negative, rest) := splitSign cs
  let mantissa := rest.takeWhile (!isExponentMark ·)
  let exponent ← exponent? (rest.dropWhile (!isExponentMark ·))
  let whole ← wholeDigits? (mantissa.takeWhile (· != '.'))
  let fraction ←
    match mantissa.dropWhile (· != '.') with
    | [] => if exponent.isEmpty then none else some []
    | _ :: digits => (ungrouped? Char.isDigit digits).map ('.' :: ·)
  let sign := if negative then ['-'] else []
  match Decimal.read? (sign ++ whole ++ fraction ++ exponent) with
  | some (.infinite false) => none
  | some number => some (.float number)
  | none => none

def float? (cs : List Char) : Option TomlValue :=
  let (negative, word) := splitSign cs
  if word = ['i', 'n', 'f'] then some (.float (.infinite negative))
  else if word = ['n', 'a', 'n'] then some (.float .nan)
  else decimal? cs

def twoDigits? (low high : Nat) (a b : Char) : Option (List Char) :=
  let n := ofDigits [a, b]
  if a.isDigit && b.isDigit && low ≤ n && n ≤ high then some [a, b] else none

def daysIn (year month : Nat) : Nat :=
  let leap := year % 4 = 0 && (year % 100 ≠ 0 || year % 400 = 0)
  if month = 2 then (if leap then 29 else 28)
  else if month ∈ [4, 6, 9, 11] then 30
  else 31

def date? : List Char → Option (List Char × List Char)
  | a :: b :: c :: d :: '-' :: m :: n :: '-' :: x :: y :: rest => do
    if !allDigits [a, b, c, d] then none
    let month ← twoDigits? 1 12 m n
    let day ← twoDigits? 1 (daysIn (ofDigits [a, b, c, d]) (ofDigits month)) x y
    return ([a, b, c, d, '-'] ++ month ++ ['-'] ++ day, rest)
  | _ => none

-- A fraction of a second counts down to nanoseconds, without zeros at its end.
def fraction? : List Char → Option (List Char × List Char)
  | '.' :: cs =>
    let digits := cs.takeWhile Char.isDigit
    if digits.isEmpty then none
    else
      let kept := ((digits.take 9).reverse.dropWhile (· = '0')).reverse
      some (if kept.isEmpty then [] else '.' :: kept, cs.dropWhile Char.isDigit)
  | cs => some ([], cs)

def time? : List Char → Option (List Char × List Char)
  | h :: i :: ':' :: m :: n :: ':' :: s :: t :: rest => do
    let hour ← twoDigits? 0 23 h i
    let minute ← twoDigits? 0 59 m n
    let second ← twoDigits? 0 60 s t
    let (fraction, rest) ← fraction? rest
    return (hour ++ [':'] ++ minute ++ [':'] ++ second ++ fraction, rest)
  | _ => none

def offset? : List Char → Option (List Char)
  | [] => some []
  | ['Z'] => some ['Z']
  | ['z'] => some ['Z']
  | [sign, h, i, ':', m, n] => do
    if sign != '+' && sign != '-' then none
    let hour ← twoDigits? 0 23 h i
    let minute ← twoDigits? 0 59 m n
    let isZero := ofDigits (hour ++ minute) = 0
    return (if isZero then '+' else sign) :: hour ++ [':'] ++ minute
  | _ => none

def momentOf (text : List Char) : TomlValue := .moment (String.ofList text)

def dateAndTime? (date : List Char) (cs : List Char) : Option TomlValue := do
  let (time, rest) ← time? cs
  let offset ← offset? rest
  return momentOf (date ++ ['T'] ++ time ++ offset)

def moment? (cs : List Char) : Option TomlValue :=
  match date? cs with
  | some (date, []) => some (momentOf date)
  | some (date, mark :: rest) =>
    if mark = 'T' || mark = 't' || mark = ' ' then dateAndTime? date rest else none
  | none =>
    match time? cs with
    | some (time, []) => some (momentOf time)
    | _ => none

def word? (cs : List Char) : Option TomlValue :=
  if cs = ['t', 'r', 'u', 'e'] then some (.boolean true)
  else if cs = ['f', 'a', 'l', 's', 'e'] then some (.boolean false)
  else (moment? cs).or ((float? cs).or (integer? cs))

def isWordChar (c : Char) : Bool :=
  c.isAlphanum || c = '+' || c = '-' || c = '_' || c = '.' || c = ':'

-- Takes one word, and a second one when the first is a date and a time follows.
def readScalar? (cs : List Char) : Option (TomlValue × List Char) := do
  let word := cs.takeWhile isWordChar
  let rest := cs.dropWhile isWordChar
  let later := (rest.drop 1).takeWhile isWordChar
  let isDate : Bool :=
    match date? word with
    | some (_, []) => true
    | _ => false
  if isDate && rest.head? = some ' ' && (later.head?.any Char.isDigit) then
    return (← word? (word ++ ' ' :: later), (rest.drop 1).dropWhile isWordChar)
  else return (← word? word, rest)

end ComponentAtlas.Toml
