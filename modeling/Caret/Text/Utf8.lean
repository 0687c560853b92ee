import Caret.Text.Line

/-!
# UTF-8

Bytes to text and back. The decoder is a machine over the bytes: between characters, or inside one
with some bytes still owed. A byte that cannot come next ends the character it interrupts, which is
then one damaged character, and is looked at again as the start of the next.
-/

namespace Caret.Text

/-- A file's content. -/
abbrev Bytes := List UInt8

namespace Utf8

/-- Where the decoder stands: between characters, or with bytes owed, the next of which must lie
between two bounds. -/
inductive State where
  | start
  | inside (owed low high value : Nat)

/-- The state after a byte that begins a character of several bytes. -/
def lead? (b : Nat) : Option State :=
  if 0xC2 ≤ b ∧ b ≤ 0xDF then some (.inside 1 0x80 0xBF (b - 0xC0))
  else if b = 0xE0 then some (.inside 2 0xA0 0xBF 0)
  else if b = 0xED then some (.inside 2 0x80 0x9F 0xD)
  else if 0xE1 ≤ b ∧ b ≤ 0xEF then some (.inside 2 0x80 0xBF (b - 0xE0))
  else if b = 0xF0 then some (.inside 3 0x90 0xBF 0)
  else if 0xF1 ≤ b ∧ b ≤ 0xF3 then some (.inside 3 0x80 0xBF (b - 0xF0))
  else if b = 0xF4 then some (.inside 3 0x80 0x8F 4)
  else none

/-- A byte met between characters: the characters it gives, `none` for a damaged one, and the state
after it. -/
def first (b : Nat) : List (Option Char) × State :=
  if b < 0x80 then ([some (charOfNat b)], .start)
  else
    match lead? b with
    | some state => ([], state)
    | none => ([none], .start)

/-- A byte met in a state. -/
def step : State → Nat → List (Option Char) × State
  | .start, b => first b
  | .inside owed low high value, b =>
    if low ≤ b ∧ b ≤ high then
      let value := value * 64 + (b - 0x80)
      if owed ≤ 1 then ([some (charOfNat value)], .start)
      else ([], .inside (owed - 1) 0x80 0xBF value)
    else
      let (out, state) := first b
      (none :: out, state)

/-- The characters of some bytes, `none` where a character is damaged. -/
def run : State → Bytes → List (Option Char)
  | .start, [] => []
  | .inside .., [] => [none]
  | state, b :: bytes =>
    let (out, next) := step state b.toNat
    out ++ run next bytes

end Utf8

/-- The text of some bytes with each damaged character replaced. -/
def decodeReplacing (bytes : Bytes) : Text :=
  (Utf8.run .start bytes).map (·.getD '�')

/-- The text of some bytes, if no character is damaged. -/
def decode? (bytes : Bytes) : Option Text :=
  (Utf8.run .start bytes).mapM id

/-- The bytes of a text. -/
def encode (text : Text) : Bytes :=
  text.flatMap String.utf8EncodeChar

end Caret.Text
