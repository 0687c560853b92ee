import Caret.Fault
import Caret.Line.Context

/-!
# What an editor shows of its buffer

Completion sees a buffer as the text before the caret, the line up to the caret, and the token that
is typed. Each of the three may fail to be read; in a plain buffer they fail together, when the caret
is not inside the text.
-/

namespace Caret.Editor

/-- What completion reads from an editor. -/
structure View where
  before : Except Fault Text
  line : Except Fault Text
  typed : Except Fault Text

/-- The text before a caret, which must be inside the text. -/
def textBefore (text : Text) (caret : Int) : Except Fault Text :=
  if 0 ≤ caret ∧ caret ≤ text.length then .ok (text.take caret.toNat)
  else .error (.caretOutside caret text.length)

/-- The last line of a text. -/
def lastLine (text : Text) : Text :=
  Text.afterLast '\n' text

/-- The view of a plain text with a caret. -/
def View.ofText (text : Text) (caret : Int) : View where
  before := textBefore text caret
  line := (textBefore text caret).map lastLine
  typed := (textBefore text caret).map fun before => Line.typedToken (lastLine before)

end Caret.Editor
