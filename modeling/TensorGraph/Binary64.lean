/-!
# Binary floating point in 64 bits

A scale factor is kept as its bit pattern, so that every value, the payload of
a NaN included, survives unchanged. A finite value is `significand * 2 ^ exponent`.

The reals that round to a given number form an interval. The shortest decimal of
the number is the one with the fewest digits in that interval, and the nearest to
the number among those; all comparisons are between natural numbers over a common
denominator. Numbers are written with these digits in positional notation, whatever
their size: there is never an exponent, and a point only before a fraction.

A number is read from an optional sign followed by a decimal with an optional
exponent, or by one of the words `inf`, `infinity` and `nan` in any case. The decimal
rounds to the nearest number, to even on a tie, and to infinity beyond the range.
-/

namespace TensorGraph

/-- A double precision number, given by its bits. -/
structure Binary64 where
  bits : UInt64
  deriving DecidableEq

namespace Binary64

def one : Binary64 := ⟨0x3ff0000000000000⟩

def infinity : Binary64 := ⟨0x7ff0000000000000⟩

def quietNaN : Binary64 := ⟨0x7ff8000000000000⟩

def isNegative (number : Binary64) : Bool := number.bits >>> 63 == 1

/-- The same magnitude with the other sign; defined on NaN and infinity as well. -/
def negate (number : Binary64) : Binary64 := ⟨number.bits ^^^ 0x8000000000000000⟩

def exponentField (number : Binary64) : Nat := (number.bits >>> 52 &&& 0x7ff).toNat

def fractionField (number : Binary64) : Nat := (number.bits &&& 0xfffffffffffff).toNat

def isNaN (number : Binary64) : Bool :=
  number.exponentField == 0x7ff && number.fractionField != 0

def isInfinite (number : Binary64) : Bool :=
  number.exponentField == 0x7ff && number.fractionField == 0

def isZero (number : Binary64) : Bool :=
  number.exponentField == 0 && number.fractionField == 0

/-- The integer significand: subnormal numbers lack the leading bit, two to the power 52. -/
def significand (number : Binary64) : Nat :=
  if number.exponentField = 0 then number.fractionField else 4503599627370496 + number.fractionField

/-- The binary exponent of the integer significand. -/
def exponent (number : Binary64) : Int := (max number.exponentField 1 : Nat) - 1075

end Binary64

/-- The number `digits * 10 ^ exponent`. -/
structure Decimal where
  digits : Nat
  exponent : Int
  deriving DecidableEq

/-- A positive number with the bounds of the reals that round to it, all over one denominator. -/
structure RoundingInterval where
  low : Nat
  value : Nat
  high : Nat
  denominator : Nat
  /-- The bounds themselves round to the number. -/
  closed : Bool

namespace RoundingInterval

/-- The interval of a positive finite number. Just above a power of two the gap below is half
the gap above; a bound rounds to the number exactly when the significand is even. -/
def of (number : Binary64) : RoundingInterval :=
  let significand := number.significand
  let quarter := number.exponent - 2
  let narrow := number.fractionField = 0 ∧ 1 < number.exponentField
  let scale := Nat.pow 2 quarter.toNat
  { low := (if narrow then 4 * significand - 1 else 4 * significand - 2) * scale
    value := 4 * significand * scale
    high := (4 * significand + 2) * scale
    denominator := Nat.pow 2 (-quarter).toNat
    closed := significand % 2 = 0 }

/-- The interval with `10 ^ exponent` as its unit. -/
def inUnits (interval : RoundingInterval) (exponent : Int) : RoundingInterval :=
  let scale := Nat.pow 10 (-exponent).toNat
  { interval with
    low := interval.low * scale
    value := interval.value * scale
    high := interval.high * scale
    denominator := interval.denominator * Nat.pow 10 exponent.toNat }

/-- The given whole number of units lies in the interval. -/
def contains (interval : RoundingInterval) (units : Nat) : Bool :=
  let point := units * interval.denominator
  if interval.closed then interval.low ≤ point ∧ point ≤ interval.high
  else interval.low < point ∧ point < interval.high

/-- The nearer of the two whole neighbours of the value that lie in the interval, and the upper
one if both are equally near. -/
def nearestWhole? (interval : RoundingInterval) : Option Nat :=
  let below := interval.value / interval.denominator
  let rest := interval.value % interval.denominator
  match interval.contains below, interval.contains (below + 1) with
  | true, true => some (if 2 * rest < interval.denominator then below else below + 1)
  | true, false => some below
  | false, true => some (below + 1)
  | false, false => none

/-- The exponent of the leading decimal digit of the value. -/
def order (interval : RoundingInterval) : Int :=
  if interval.denominator ≤ interval.value then
    (Nat.toDigits 10 (interval.value / interval.denominator)).length - 1
  else
    -(Nat.toDigits 10 ((interval.denominator - 1) / interval.value)).length

/-- Tries one digit, two digits and so on. Seventeen digits always suffice. -/
def shortest (interval : RoundingInterval) : Decimal :=
  let attempt (digits : Nat) : Option Decimal :=
    let exponent := interval.order - digits
    (interval.inUnits exponent).nearestWhole?.map fun whole => ⟨whole, exponent⟩
  ((List.range 17).findSome? attempt).getD ⟨0, 0⟩

end RoundingInterval

/-- The digits of the decimal with zeros filled in up to the point. -/
def Decimal.positional (decimal : Decimal) : List Char :=
  let places := (-decimal.exponent).toNat
  let digits := Nat.toDigits 10 (decimal.digits * Nat.pow 10 decimal.exponent.toNat)
  let padded := List.replicate (places + 1 - digits.length) '0' ++ digits
  let whole := padded.take (padded.length - places)
  let fraction := padded.drop (padded.length - places)
  match fraction.reverse.dropWhile (· == '0') with
  | [] => whole
  | kept => whole ++ '.' :: kept.reverse

/-- The sign of a zero is kept, that of a NaN is not. -/
def Binary64.text (number : Binary64) : String :=
  let sign := if number.isNegative then "-" else ""
  if number.isNaN then "NaN"
  else if number.isInfinite then sign ++ "inf"
  else if number.isZero then sign ++ "0"
  else sign ++ String.ofList (RoundingInterval.of number).shortest.positional

namespace Binary64

/-- The value of a list of decimal digits. -/
def digitsValue (digits : List Char) : Nat :=
  digits.foldl (fun value digit => 10 * value + (digit.toNat - '0'.toNat)) 0

/-- An unsigned whole number of at least one digit. -/
def readWhole? (text : List Char) : Option Nat :=
  if text ≠ [] ∧ text.all Char.isDigit then some (digitsValue text) else none

/-- An exponent: an optional sign and at least one digit. -/
def readExponent? : List Char → Option Int
  | '-' :: digits => (readWhole? digits).map fun value => -value
  | '+' :: digits => (readWhole? digits).map fun value => value
  | digits => (readWhole? digits).map fun value => value

/-- The number nearest to `digits * 10 ^ exponent`. Outside `10 ^ (-400)` to `10 ^ 400` the
result is zero or infinity without computing the power. -/
def ofDecimal (digits : Nat) (exponent : Int) : Binary64 :=
  let magnitude : Int := (Nat.toDigits 10 digits).length + exponent
  if digits = 0 ∨ magnitude < -400 then ⟨0⟩
  else if 400 < magnitude then infinity
  else ⟨(Float.ofScientific digits (exponent < 0) exponent.natAbs).toBits⟩

/-- A decimal: digits with a point anywhere or nowhere, at least one digit, and an exponent. -/
def readDecimal? (text : List Char) : Option Binary64 := do
  let whole := text.takeWhile Char.isDigit
  let afterWhole := text.dropWhile Char.isDigit
  let (fraction, tail) := match afterWhole with
    | '.' :: rest => (rest.takeWhile Char.isDigit, rest.dropWhile Char.isDigit)
    | rest => ([], rest)
  let digits := whole ++ fraction
  guard (digits ≠ [])
  let exponent ← match tail with
    | [] => some 0
    | mark :: rest => if mark = 'e' ∨ mark = 'E' then readExponent? rest else none
  return ofDecimal (digitsValue digits) (exponent - fraction.length)

/-- A number without its sign. -/
def readMagnitude? (text : List Char) : Option Binary64 :=
  let word := String.ofList (text.map Char.toLower)
  if word = "inf" ∨ word = "infinity" then some infinity
  else if word = "nan" then some quietNaN
  else readDecimal? text

/-- Reads a number; a minus sign applies to every magnitude, NaN included. -/
def read? (text : String) : Option Binary64 :=
  match text.toList with
  | '-' :: rest => (readMagnitude? rest).map negate
  | '+' :: rest => readMagnitude? rest
  | rest => readMagnitude? rest

end Binary64

end TensorGraph
