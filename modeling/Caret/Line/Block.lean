import Caret.Text.Line
import Caret.Text.Space

/-!
# Open blocks

While a block's first line is being typed, the text before it ends in a header such as `if x:` with
nothing under it, which cannot be parsed. It is repaired by a placeholder statement that stands
deeper than the header.
-/

namespace Caret.Line

/-- The indentation of a block's header, if a line's body is one: code that does not start with a
comment and that ends, before a comment, in a colon. -/
def headerIndentation? (body : Text) : Option Text :=
  let indentation := Text.indentation body
  let statement := body.drop indentation.length
  let code := Text.dropEndWhile Text.isBlank (Text.beforeFirst '#' statement)
  if (statement.head?).any (fun c => !Text.isSpace c && c != '#') && 2 ≤ code.length &&
      Text.endsWith code [':'] then
    some indentation
  else none

/-- Finds the header among the lines before the caret, nearest first: only the nearest line that is
not blank is looked at. The answer is where that line starts and its indentation. -/
def headerAmong? : List Text → Option (Nat × Text)
  | [] => none
  | raw :: earlier =>
    let body := Text.lineBody raw
    if (Text.trim body).isEmpty then headerAmong? earlier
    else (headerIndentation? body).map fun indentation => (earlier.flatten.length, indentation)

/-- The block that is open at the end of a text: where its header starts and its indentation. -/
def blockHeader? (prior : Text) : Option (Nat × Text) :=
  if Text.endsWith prior ['\n'] then headerAmong? (Text.lines prior).reverse else none

/-- How wide an indentation is. -/
def width (indentation : Text) : Nat :=
  (Text.expandTabs indentation).length

/-- The indentation for a statement in a block: the caret line's own if it is deeper than the
header's, else four columns deeper than the header. -/
def blockIndentation (header line : Text) : Text :=
  let own := Text.indentation line
  if width header < width own then own else header ++ "    ".toList

/-- The statement that stands in for what is being typed. -/
def placeholder : Text := "pass".toList

/-- The text before the caret line with a placeholder in an open block, and the indentation of the
block; unchanged and with no indentation if no block is open. -/
def repair (prior line : Text) : Text × Text :=
  match blockHeader? prior with
  | none => (prior, [])
  | some (_, header) =>
    let indentation := blockIndentation header line
    (prior ++ indentation ++ placeholder ++ ['\n'], indentation)

end Caret.Line
