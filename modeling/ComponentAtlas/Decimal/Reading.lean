import ComponentAtlas.Decimal.Shortest

namespace ComponentAtlas.Decimal

def ofDigits (digits : List Char) : Nat :=
  digits.foldl (fun n c => 10 * n + (c.toNat - '0'.toNat)) 0

def allDigits (cs : List Char) : Bool :=
  !cs.isEmpty && cs.all Char.isDigit

def splitSign : List Char → Bool × List Char
  | '-' :: rest => (true, rest)
  | '+' :: rest => (false, rest)
  | cs => (false, cs)

-- The nearest binary number; far beyond its range the result is known without arithmetic.
def nearest (negative : Bool) (digits : Nat) (exponent : Int) : Number :=
  let magnitude : Int := (Nat.toDigits 10 digits).length + exponent
  if digits = 0 || magnitude < -400 then .finite { negative, digits := 0, exponent := 0 }
  else if 400 < magnitude then .infinite negative
  else
    let x := Float.ofScientific digits (exponent < 0) exponent.natAbs
    ofFloat (if negative then -x else x)

def readExponent? : List Char → Option Int
  | [] => some 0
  | mark :: rest =>
    if mark = 'e' || mark = 'E' then
      let (negative, digits) := splitSign rest
      if allDigits digits then
        some (if negative then -(ofDigits digits : Int) else (ofDigits digits : Int))
      else none
    else none

def read? (cs : List Char) : Option Number :=
  let (negative, cs) := splitSign cs
  let whole := cs.takeWhile Char.isDigit
  let (fraction, rest) :=
    match cs.dropWhile Char.isDigit with
    | '.' :: rest => (rest.takeWhile Char.isDigit, rest.dropWhile Char.isDigit)
    | rest => ([], rest)
  if whole.isEmpty && fraction.isEmpty then none
  else
    (readExponent? rest).map fun exponent =>
      nearest negative (ofDigits (whole ++ fraction)) (exponent - fraction.length)

end ComponentAtlas.Decimal
