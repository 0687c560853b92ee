import Caret.Script.Token
import Caret.Text.Integer

/-!
# Numbers in a script

Reading a number at the front of a text: integers in four bases, decimals with fraction and
exponent, and the imaginary forms of both, with single underscores between digits. What follows must
not continue the number like a name would, except for a keyword such as `if`.
-/

namespace Caret.Script.Number

/-- The digits of a number of some base from its first digit on, without the underscores between
them. An underscore must have a digit after it. -/
def digits? (isDigit : Char → Bool) : Text → Option (Text × Text)
  | [] => some ([], [])
  | c :: cs =>
    if isDigit c then (digits? isDigit cs).map fun (ds, rest) => (c :: ds, rest)
    else if c = '_' then
      match cs with
      | d :: _ => if isDigit d then digits? isDigit cs else none
      | [] => none
    else some ([], c :: cs)

/-- Digits of which there must be one. -/
def someDigits? (isDigit : Char → Bool) (text : Text) : Option (Text × Text) :=
  match text with
  | c :: _ => if isDigit c then digits? isDigit text else none
  | [] => none

/-- The number that digits write in a base. -/
def valueIn (base : Nat) (ds : Text) : Nat :=
  ds.foldl (fun value d => value * base + (Text.hexDigit? d).getD 0) 0

/-- Characters that a name could go on with. -/
def continuesName (c : Char) : Bool :=
  Text.isNameStart c || Text.isAsciiDigit c || 0x80 ≤ c.toNat

/-- Whether a number may end before a text: no name goes on there, or a keyword follows that can
stand after a number. -/
def endsBefore (rest : Text) : Bool :=
  let follows := ["and", "else", "for", "if", "in", "is", "or", "not"]
  follows.any (fun word => word.toList.isPrefixOf rest) || !(rest.head?).any continuesName

/-- An integer in base sixteen, eight or two, after the letter of the base. -/
def based? (base : Nat) (text : Text) : Option (Numeral × Text) :=
  let isDigit := fun c => ((Text.hexDigit? c).any (· < base))
  let text := match text with
    | '_' :: rest => rest
    | _ => text
  match someDigits? isDigit text with
  | some (ds, rest) => if endsBefore rest then some (.integer (valueIn base ds), rest) else none
  | none => none

/-- Whether zeros stand in front of other digits. -/
def isPadded (ds : Text) : Bool :=
  ds.head? == some '0' && ds.any (· != '0')

/-- The value of the digits of an integer. Zeros in front are refused unless there is nothing but
zeros, and so are very long integers. -/
def integer? (ds : Text) : Option Numeral :=
  if isPadded ds || (ds.any (· != '0') && Text.maxDigits < ds.length) then none
  else some (.integer (valueIn 10 ds))

/-- The exponent at the front of a text, with its sign. There is none at a letter that begins the
keyword `else`; any other letter must be followed by an exponent. -/
def exponent? (text : Text) : Option (Option Int × Text) :=
  match text with
  | c :: rest =>
    if c = 'e' ∨ c = 'E' then
      match rest with
      | '+' :: more =>
        (someDigits? Text.isAsciiDigit more).map fun (ds, rest) => (some (valueIn 10 ds : Int), rest)
      | '-' :: more =>
        (someDigits? Text.isAsciiDigit more).map fun (ds, rest) => (some (-(valueIn 10 ds : Int)), rest)
      | _ =>
        match someDigits? Text.isAsciiDigit rest with
        | some (ds, rest) => some (some (valueIn 10 ds : Int), rest)
        | none => if (rest.head?).any Text.isAsciiDigit then none
                  else if endsBefore text then some (none, text) else none
    else some (none, text)
  | [] => some (none, [])

/-- The fraction at the front of a text: a point, and digits after it if any. -/
def fraction? : Text → Option (Option Text × Text)
  | '.' :: rest =>
    if (rest.head?).any Text.isAsciiDigit then
      (digits? Text.isAsciiDigit rest).map fun (ds, rest) => (some ds, rest)
    else some (some [], rest)
  | text => some (none, text)

/-- A decimal number: digits, a fraction, an exponent, and the letter of an imaginary number. Padded
digits are a real number before the keyword `else`, whose letter could begin an exponent. -/
def decimal? (text : Text) : Option (Numeral × Text) :=
  match digits? Text.isAsciiDigit text with
  | none => none
  | some (whole, rest) =>
    match fraction? rest with
    | none => none
    | some (fraction, rest) =>
      match exponent? rest with
      | none => none
      | some (exponent, rest) =>
        let decimals := fraction.getD []
        let value := Binary64.ofDecimal false (valueIn 10 (whole ++ decimals))
          (exponent.getD 0 - decimals.length)
        match rest with
        | 'j' :: after => if endsBefore after then some (.imaginary value, after) else none
        | 'J' :: after => if endsBefore after then some (.imaginary value, after) else none
        | _ =>
          if !endsBefore rest then none
          else if fraction.isSome || exponent.isSome || (isPadded whole && rest.head? == some 'e') then
            some (.real value, rest)
          else (integer? whole).map (·, rest)

/-- The number at the front of a text that starts with a digit, or with a point and a digit. -/
def scan? (text : Text) : Option (Numeral × Text) :=
  match text with
  | '0' :: c :: rest =>
    if c = 'x' ∨ c = 'X' then based? 16 rest
    else if c = 'o' ∨ c = 'O' then based? 8 rest
    else if c = 'b' ∨ c = 'B' then based? 2 rest
    else decimal? text
  | _ => decimal? text

end Caret.Script.Number
