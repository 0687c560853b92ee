import Caret.Script.Token

/-!
# What a string says

The value of a string from its body: the body itself when it is raw, and otherwise the body with its
backslash escapes carried out. Some escapes must be complete, and a byte string holds ASCII only. An
escape may write a character by its name.
-/

namespace Caret

/-- The characters that have a name. Which these are is left open. -/
class CharacterNames where
  character? : Text → Option Char

namespace CharacterNames

/-- The characters that a list names. -/
@[reducible] def ofList (names : List (Text × Char)) : CharacterNames where
  character? name := List.lookup name names

/-- No character has a name. -/
scoped instance empty : CharacterNames := ofList []

end CharacterNames

namespace Script.Quotation

/-- The character of an escape of one letter. -/
def shortEscape? (c : Char) : Option Char :=
  match c with
  | '\\' => some '\\'
  | '\'' => some '\''
  | '"' => some '"'
  | 'a' => some '\x07'
  | 'b' => some '\x08'
  | 'f' => some '\x0c'
  | 'n' => some '\n'
  | 'r' => some '\r'
  | 't' => some '\t'
  | 'v' => some '\x0b'
  | _ => none

/-- An octal digit. -/
def isOctal (c : Char) : Bool :=
  '0' ≤ c && c ≤ '7'

/-- A fixed number of hexadecimal digits at the front of a text. -/
def hex? (count : Nat) (text : Text) : Option (Nat × Text) :=
  let ds := text.take count
  if ds.length = count ∧ ds.all (fun d => (Text.hexDigit? d).isSome) then
    some (Text.hexValue ds, text.drop count)
  else none

/-- The character of a name in braces at the front of a text. -/
def named? [CharacterNames] (text : Text) : Option (Char × Text) :=
  match text with
  | '{' :: rest =>
    let name := rest.takeWhile (· ≠ '}')
    match rest.dropWhile (· ≠ '}') with
    | '}' :: after =>
      if name.isEmpty then none else (CharacterNames.character? name).map (·, after)
    | _ => none
  | _ => none

/-- Carries out the escapes of a body; `none` if one of them is incomplete or names no character. A
backslash that begins no escape stands for itself. -/
def unescape? [CharacterNames] (bytes : Bool) : Nat → Text → Option Text
  | 0, _ => none
  | _, [] => some []
  | _, ['\\'] => some ['\\']
  | fuel + 1, '\\' :: c :: rest =>
    if c = '\n' then unescape? bytes fuel rest
    else if isOctal c then
      let ds := c :: (rest.take 2).takeWhile isOctal
      let value := ds.foldl (fun value d => value * 8 + (d.toNat - '0'.toNat)) 0
      let char := Text.charOfNat (if bytes then value % 256 else value)
      (unescape? bytes fuel (rest.drop (ds.length - 1))).map (char :: ·)
    else if c = 'x' then
      match hex? 2 rest with
      | some (value, rest) => (unescape? bytes fuel rest).map (Text.charOfNat value :: ·)
      | none => none
    else if (c = 'u' ∨ c = 'U') ∧ !bytes then
      match hex? (if c = 'u' then 4 else 8) rest with
      | some (value, rest) =>
        if value ≤ 0x10FFFF then (unescape? bytes fuel rest).map (Text.charOfNat value :: ·)
        else none
      | none => none
    else if c = 'N' ∧ !bytes then
      match named? rest with
      | some (char, rest) => (unescape? bytes fuel rest).map (char :: ·)
      | none => none
    else
      match shortEscape? c with
      | some char => (unescape? bytes fuel rest).map (char :: ·)
      | none => (unescape? bytes fuel rest).map ('\\' :: c :: ·)
  | fuel + 1, c :: rest => (unescape? bytes fuel rest).map (c :: ·)

/-- Part of a string's body with its escapes carried out, unless the string is raw. -/
def part? [CharacterNames] (quotation : Quotation) (text : Text) : Option Text :=
  if quotation.raw then some text else unescape? quotation.bytes (text.length + 1) text

/-- The value of a string without fields. -/
def value? [CharacterNames] (quotation : Quotation) : Option Text :=
  if quotation.bytes && quotation.body.any (0x80 ≤ ·.toNat) then none
  else quotation.part? quotation.body

end Script.Quotation

end Caret
