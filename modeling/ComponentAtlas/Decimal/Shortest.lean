namespace ComponentAtlas.Decimal

-- The value `digits · 10 ^ exponent`, with a sign.
structure Scientific where
  negative : Bool
  digits : Nat
  exponent : Int
deriving DecidableEq, Repr

inductive Number where
  | finite (value : Scientific)
  | infinite (negative : Bool)
  | nan
deriving DecidableEq, Repr

-- A positive number `num / den` with the interval of all numbers that round to it.
structure Interval where
  low : Nat
  value : Nat
  high : Nat
  den : Nat
  -- Whether the ends round to the value as well.
  closed : Bool

namespace Interval

def holds (i : Interval) (num den : Nat) : Bool :=
  let left := i.low * den
  let right := i.high * den
  let x := num * i.den
  if i.closed then left ≤ x && x ≤ right else left < x && x < right

def integerDigits (i : Interval) : Nat → Nat → Nat
  | 0, n => n
  | fuel + 1, n => if Nat.pow 10 n * i.den ≤ i.value then integerDigits i fuel (n + 1) else n

def leadingZeros (i : Interval) : Nat → Nat → Nat
  | 0, n => n
  | fuel + 1, n => if i.value * Nat.pow 10 (n + 1) < i.den then leadingZeros i fuel (n + 1) else n

def onGrid (i : Interval) (exponent : Int) : Option Nat :=
  let up := Nat.pow 10 exponent.toNat
  let down := Nat.pow 10 (-exponent).toNat
  -- A grid point `d` is the number `d · up / down`.
  let d := i.value * down / (i.den * up)
  let lower := d != 0 && i.holds (d * up) down
  let upper := i.holds ((d + 1) * up) down
  match lower, upper with
  | true, false => some d
  | false, true => some (d + 1)
  | false, false => none
  | true, true =>
    -- Twice the distance from the lower point, against one step of the grid.
    let twice := 2 * (i.value * down - d * up * i.den)
    if twice < up * i.den then some d
    else if twice > up * i.den then some (d + 1)
    else if d % 2 = 0 then some d else some (d + 1)

def search (i : Interval) (magnitude : Int) : (fuel : Nat) → (count : Nat) → Nat × Int
  | 0, _ => (0, 0)
  | fuel + 1, count =>
    let exponent := magnitude - count
    match i.onGrid exponent with
    | some d => (d, exponent)
    | none => search i magnitude fuel (count + 1)

end Interval

def stripZeros : (fuel : Nat) → Nat → Int → Nat × Int
  | 0, d, e => (d, e)
  | fuel + 1, d, e => if d != 0 && d % 10 = 0 then stripZeros fuel (d / 10) (e + 1) else (d, e)

def ofBits (bits : Nat) : Number :=
  let negative := bits / Nat.pow 2 63 = 1
  let field := bits / Nat.pow 2 52 % Nat.pow 2 11
  let fraction := bits % Nat.pow 2 52
  if field = 2047 then (if fraction = 0 then .infinite negative else .nan)
  else if field = 0 && fraction = 0 then .finite { negative, digits := 0, exponent := 0 }
  else
    let mantissa := if field = 0 then fraction else fraction + Nat.pow 2 52
    let power : Int := (if field = 0 then 1 else field : Nat) - 1077
    let unit := Nat.pow 2 power.toNat
    let interval : Interval :=
      { low := (4 * mantissa - (if fraction = 0 && field > 1 then 1 else 2)) * unit
        value := 4 * mantissa * unit
        high := (4 * mantissa + 2) * unit
        den := Nat.pow 2 (-power).toNat
        closed := mantissa % 2 = 0 }
    let before := interval.integerDigits 400 0
    let magnitude : Int := if before = 0 then -(interval.leadingZeros 400 0 : Nat) else before
    let (d, e) := interval.search magnitude 18 1
    let (d, e) := stripZeros 20 d e
    .finite { negative, digits := d, exponent := e }

def zeros (n : Nat) : String :=
  String.ofList (List.replicate n '0')

def digitText (n : Nat) : String :=
  String.ofList (Nat.toDigits 10 n)

-- Digits with a point after `place` of them; `place` may lie outside of the digits.
def positional (digits : String) (place : Int) (pointZero : Bool) : String :=
  if place ≤ 0 then "0." ++ zeros (-place).toNat ++ digits
  else if digits.length ≤ place.toNat then
    digits ++ zeros (place.toNat - digits.length) ++ (if pointZero then ".0" else "")
  else
    String.ofList (digits.toList.take place.toNat) ++ "." ++ String.ofList (digits.toList.drop place.toNat)

def sign (negative : Bool) (text : String) : String :=
  if negative then "-" ++ text else text

def plain : Number → String
  | .nan => "NaN"
  | .infinite negative => sign negative "inf"
  | .finite v =>
    if v.digits = 0 then sign v.negative "0"
    else
      let digits := digitText v.digits
      sign v.negative (positional digits (digits.length + v.exponent) false)

-- Positional between 1e-5 and 1e16, with a point and a digit behind it; else with an exponent.
def compact : Number → String
  | .nan => "NaN"
  | .infinite negative => sign negative "inf"
  | .finite v =>
    if v.digits = 0 then sign v.negative "0.0"
    else
      let digits := digitText v.digits
      let place : Int := digits.length + v.exponent
      if -5 < place && place ≤ 16 then sign v.negative (positional digits place true)
      else
        let mantissa :=
          if digits.length = 1 then digits
          else String.ofList (digits.toList.take 1) ++ "." ++ String.ofList (digits.toList.drop 1)
        sign v.negative (mantissa ++ "e" ++ toString (place - 1))

def ofFloat (x : Float) : Number :=
  ofBits x.toBits.toNat

end ComponentAtlas.Decimal
