import Caret.Script.Name
import Caret.Value.Binary64

/-!
# Tokens

What a script is made of once blanks and comments are gone. Line structure is part of it: the end of
a statement's line and the changes of indentation are tokens of their own.
-/

namespace Caret.Script

/-- The value of a number in a script. -/
inductive Numeral where
  | integer (n : Nat)
  | real (x : Binary64)
  | imaginary (x : Binary64)
  deriving DecidableEq

/-- A string as it is written between its quotes, with what its letters in front ask for. -/
structure Quotation where
  bytes : Bool
  formatted : Bool
  raw : Bool
  body : Text
  deriving DecidableEq

/-- What a token says. A name keeps its spelling, which may differ from the name it stands for. -/
inductive Lexeme where
  | name (spelling : Text)
  | keyword (word : Text)
  | number (value : Numeral)
  | string (quotation : Quotation)
  | symbol (text : Text)
  | newline
  | indent
  | dedent
  deriving DecidableEq

/-- A token with the lines on which it starts and ends, counted from one. -/
structure Token where
  lexeme : Lexeme
  firstLine : Nat
  lastLine : Nat
  deriving DecidableEq

end Caret.Script
