import Caret.Text.Digit
import Caret.Text.Space

/-!
# Integers in text

The decimal notation of an integer as people type it: white space around it, a sign, digits of any
script, and single underscores between digits. Very long numerals are refused.
-/

namespace Caret.Text

/-- The most digits that a numeral may have. -/
def maxDigits : Nat := 4300

/-- White space that may surround a numeral: the four ASCII separators are not part of it. -/
def isNumeralSpace (c : Char) : Bool :=
  isSpace c && !(28 ≤ c.toNat && c.toNat ≤ 31)

/-- The digits of a numeral, single underscores between them left out. -/
def numeralDigits? : Text → Option (List Nat)
  | [] => none
  | [c] => (digit? c).map ([·])
  | c :: d :: cs =>
    match digit? c with
    | none => none
    | some n =>
      if d = '_' then (numeralDigits? cs).map (n :: ·)
      else (numeralDigits? (d :: cs)).map (n :: ·)

/-- The number that decimal digits write. -/
def ofDigits (digits : List Nat) : Nat :=
  digits.foldl (fun value digit => value * 10 + digit) 0

/-- The natural number of a numeral without sign. -/
def toNat? (numeral : Text) : Option Nat :=
  (numeralDigits? numeral).bind fun digits =>
    if digits.length ≤ maxDigits then some (ofDigits digits) else none

/-- The integer that a text writes. -/
def toInt? (text : Text) : Option Int :=
  match trimBy isNumeralSpace text with
  | '-' :: numeral => (toNat? numeral).map fun n => -(n : Int)
  | '+' :: numeral => (toNat? numeral).map Int.ofNat
  | numeral => (toNat? numeral).map Int.ofNat

end Caret.Text
