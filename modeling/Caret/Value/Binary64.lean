import Caret.Text.Basic

/-!
# Binary floating point

The numbers of the 64 bit binary format, as data: a sign, a mantissa and an exponent of two, or one
of the two infinities, or not a number. Reading a decimal takes the nearest number, a tie going to
the even mantissa; writing takes the fewest digits that read back.
-/

namespace Caret

/-- A number of the 64 bit binary format. A finite one is `mantissa * 2 ^ exponent`, with a mantissa
below `2 ^ 53` that is at least `2 ^ 52` unless the exponent is the least one. -/
inductive Binary64 where
  | finite (negative : Bool) (mantissa : Nat) (exponent : Int)
  | infinite (negative : Bool)
  | nan
  deriving DecidableEq

namespace Binary64

/-- The exponent of the smallest numbers. -/
def leastExponent : Int := -1074

/-- The exponent of the largest numbers. -/
def greatestExponent : Int := 971

/-- The zero of a sign. -/
def zero (negative : Bool) : Binary64 :=
  .finite negative 0 leastExponent

/-- The quotient rounded to the nearest integer, a tie going to the even one. -/
def roundDiv (num den : Nat) : Nat :=
  let q := num / den
  let r := num % den
  if 2 * r < den then q
  else if den < 2 * r then q + 1
  else if q % 2 = 0 then q else q + 1

/-- Two numbers in the ratio `num / den : 2 ^ exponent`. -/
def scale (num den : Nat) (exponent : Int) : Nat × Nat :=
  if 0 ≤ exponent then (num, den * Nat.pow 2 exponent.toNat) else (num * Nat.pow 2 (-exponent).toNat, den)

/-- The number nearest to a positive ratio. -/
def ofRatio (negative : Bool) (num den : Nat) : Binary64 :=
  let guess : Int := (num.log2 : Int) - den.log2 - 52
  let (a, b) := scale num den guess
  let exponent := max (if a < Nat.pow 2 52 * b then guess - 1 else guess) leastExponent
  let (a, b) := scale num den exponent
  let mantissa := roundDiv a b
  let (mantissa, exponent) :=
    if mantissa = Nat.pow 2 53 then (Nat.pow 2 52, exponent + 1) else (mantissa, exponent)
  if greatestExponent < exponent then .infinite negative
  else .finite negative mantissa exponent

/-- The number nearest to `digits * 10 ^ exponent`. Outside a wide range of magnitudes the answer is
known without computing the power. -/
def ofDecimal (negative : Bool) (digits : Nat) (exponent : Int) : Binary64 :=
  if digits = 0 then zero negative
  else
    let magnitude := exponent + (Text.ofNat digits).length
    if 400 < magnitude then .infinite negative
    else if magnitude < -400 then zero negative
    else if 0 ≤ exponent then ofRatio negative (digits * Nat.pow 10 exponent.toNat) 1
    else ofRatio negative digits (Nat.pow 10 (-exponent).toNat)

/-- The number nearest to an integer. -/
def ofInt (i : Int) : Binary64 :=
  ofDecimal (i < 0) i.natAbs 0

/-- The integer part of a finite number. -/
def truncate? : Binary64 → Option Int
  | .finite negative mantissa exponent =>
    let size : Nat :=
      if 0 ≤ exponent then mantissa * Nat.pow 2 exponent.toNat else mantissa / Nat.pow 2 (-exponent).toNat
    some (if negative then -(size : Int) else size)
  | _ => none

/-- Whether a number is zero, of either sign. -/
def isZero : Binary64 → Bool
  | .finite _ mantissa _ => mantissa == 0
  | _ => false

/-- Equality of values: the zeros are equal, and nothing equals what is not a number. -/
def same : Binary64 → Binary64 → Bool
  | .finite s m e, .finite s' m' e' => (m == 0 && m' == 0) || (s == s' && m == m' && e == e')
  | .infinite s, .infinite s' => s == s'
  | _, _ => false

/-- Whether a number has exactly the value of an integer. -/
def sameInt : Binary64 → Int → Bool
  | .finite negative mantissa exponent, i =>
    let (a, b) := scale i.natAbs 1 exponent
    mantissa * b == a && (i == 0 || negative == decide (i < 0))
  | _, _ => false

/-- The number of decimal digits before the point: the least `p` with value below `10 ^ p`. -/
def decimalPoint (num den : Nat) : Int :=
  let rec up : Nat → Nat → Int
    | 0, p => p
    | fuel + 1, p => if num < den * Nat.pow 10 p then p else up fuel (p + 1)
  let rec down : Nat → Nat → Int
    | 0, p => -(p : Int)
    | fuel + 1, p => if num * Nat.pow 10 (p + 1) < den then down fuel (p + 1) else -(p : Int)
  if den ≤ num then up 400 1 else down 400 0

/-- The numeral `digits * 10 ^ unit` of fewest digits that reads back as a positive ratio's number.
Of two such numerals the nearer is taken. -/
def shortest (num den : Nat) : Nat × Int :=
  let point := decimalPoint num den
  let target := ofRatio false num den
  let rec search : Nat → Nat → Nat × Int
    | 0, _ => (0, point)
    | fuel + 1, count =>
      let unit : Int := point - count
      let (a, b) :=
        if 0 ≤ unit then (num, den * Nat.pow 10 unit.toNat) else (num * Nat.pow 10 (-unit).toNat, den)
      let near := roundDiv a b
      let far := if near = a / b then near + 1 else near - 1
      if ofDecimal false near unit = target then (near, unit)
      else if ofDecimal false far unit = target then (far, unit)
      else search fuel (count + 1)
  search 17 1

/-- Zeros at the end of a numeral of digits carry no information. -/
def withoutFinalZeros (digits : Text) : Text :=
  Text.dropEndWhile (· == '0') digits

/-- Writes digits around a decimal point: positionally for the usual magnitudes, with a signed
exponent of at least two digits for the others. -/
def layout (digits : Text) (point : Int) : Text :=
  if -4 < point ∧ point ≤ 16 then
    if point ≤ 0 then "0.".toList ++ List.replicate (-point).toNat '0' ++ digits
    else
      let whole := digits.take point.toNat
      let rest := digits.drop point.toNat
      whole ++ List.replicate (point.toNat - whole.length) '0' ++ '.' ::
        (if rest.isEmpty then ['0'] else rest)
  else
    let exponent := point - 1
    let written := Text.ofNat exponent.natAbs
    digits.take 1 ++ (if digits.length ≤ 1 then [] else '.' :: digits.drop 1) ++
      ['e', if exponent < 0 then '-' else '+'] ++
      List.replicate (2 - written.length) '0' ++ written

/-- The decimal text of a number: the fewest digits that read back. -/
def display : Binary64 → Text
  | .nan => "nan".toList
  | .infinite negative => (if negative then "-inf" else "inf").toList
  | .finite negative mantissa exponent =>
    let sign := if negative then ['-'] else []
    if mantissa = 0 then sign ++ "0.0".toList
    else
      let (num, den) :=
        if 0 ≤ exponent then (mantissa * Nat.pow 2 exponent.toNat, 1)
        else (mantissa, Nat.pow 2 (-exponent).toNat)
      let (digits, unit) := shortest num den
      let written := Text.ofNat digits
      sign ++ layout (withoutFinalZeros written) (unit + written.length)

end Binary64

end Caret
