import Caret.Text.Digit
import Caret.Text.WordChar

/-!
# The expression before the caret

Reading from right to left, the expression that a dot is typed after: names, dots and bracket groups
that are closed, with quoted strings inside the groups. A number is no such expression, since its dot
belongs to it, and neither is anything that starts with a dot.
-/

namespace Caret.Line

/-- The bracket that a closing bracket answers. -/
def opener? : Char → Option Char
  | ')' => some '('
  | ']' => some '['
  | '}' => some '{'
  | _ => none

/-- Opening brackets. -/
def isOpener (c : Char) : Bool :=
  c == '(' || c == '[' || c == '{'

/-- Quotes. -/
def isQuote (c : Char) : Bool :=
  c == '\'' || c == '"'

/-- The characters of names and dotted names. -/
def isPathChar (c : Char) : Bool :=
  Text.isWord c || c == '.'

/-- Walks back over an expression, given the brackets still to be opened, the quote that a string is
waiting for, what has been passed over, and the characters before it, nearest first. The answer is
what was passed over; there is none if a bracket does not find its partner. -/
def walkBack : List Char → Option Char → Text → Text → Option Text
  | [], _, taken, [] => some taken
  | _ :: _, _, _, [] => none
  | [], quote, taken, c :: before =>
    match opener? c with
    | some opener => walkBack [opener] none (c :: taken) before
    | none => if isPathChar c then walkBack [] quote (c :: taken) before else some taken
  | due :: outer, some q, taken, c :: before =>
    walkBack (due :: outer) (if c = q then none else some q) (c :: taken) before
  | due :: outer, none, taken, c :: before =>
    if isQuote c then walkBack (due :: outer) (some c) (c :: taken) before
    else
      match opener? c with
      | some opener => walkBack (opener :: due :: outer) none (c :: taken) before
      | none =>
        if isOpener c then
          if c = due then walkBack outer none (c :: taken) before else none
        else walkBack (due :: outer) none (c :: taken) before

/-- Whether a text reads as a number with its dots. -/
def isNumberLike : Text → Bool
  | [] => false
  | c :: cs => Text.isDigit c && cs.all isPathChar

/-- The expression at the end of a text; empty if there is none. -/
def expressionAtEnd (text : Text) : Text :=
  match walkBack [] none [] text.reverse with
  | some expression =>
    if (expression.head?).any (· == '.') || isNumberLike expression then [] else expression
  | none => []

/-- The expression that ends at a column of a line. There is no answer for a column beyond the end of
the line, and nothing stands before its start. -/
def expressionBefore? (line : Text) (column : Int) : Option Text :=
  if (line.length : Int) < column then none
  else some (expressionAtEnd (line.take column.toNat))

end Caret.Line
