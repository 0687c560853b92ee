import Caret.Text.Digit
import Caret.Text.Basic

/-!
# Directories that a script adds to its search path

A script extends the directories in which modules are looked up by calls that append a quoted
directory or insert one at a place. The calls are recognised in the text, wherever they stand.
-/

namespace Caret.Line

/-- Drops spaces and tabs in front. -/
def skipBlanks (text : Text) : Text :=
  text.dropWhile Text.isBlank

/-- Takes a fixed text from the front. -/
def after? (start text : Text) : Option Text :=
  if start.isPrefixOf text then some (text.drop start.length) else none

/-- A place: an optional minus sign and digits. -/
def afterPlace? (text : Text) : Option Text :=
  let digits := (after? ['-'] text).getD text
  if (digits.head?).any Text.isDigit then some (digits.dropWhile Text.isDigit) else none

/-- What follows the opening of a call: the word for appending, or the word for inserting with a
parenthesis, a place and a comma. -/
def afterOpening? (text : Text) : Option Text :=
  match after? "sys.path.".toList text with
  | none => none
  | some rest =>
    match after? "append".toList rest with
    | some rest => some rest
    | none =>
      (after? "insert".toList rest).bind fun rest =>
      (after? ['('] (skipBlanks rest)).bind fun rest =>
      (afterPlace? (skipBlanks rest)).bind fun rest =>
      after? [','] (skipBlanks rest)

/-- The directory inside quotes, up to the first quote of the same sort that a closing parenthesis
follows on the same line, and the text behind that parenthesis. -/
def quotedDirectory? (quote : Char) : Text → Option (Text × Text)
  | [] => none
  | c :: cs =>
    match (if c = quote then after? [')'] (skipBlanks cs) else none) with
    | some rest => some ([], rest)
    | none =>
      if c = '\n' then none
      else (quotedDirectory? quote cs).map fun (directory, rest) => (c :: directory, rest)

/-- The directory of a call at the front of a text, and the text behind the call. -/
def searchPathCall? (text : Text) : Option (Text × Text) :=
  match afterOpening? text with
  | none => none
  | some rest =>
    let rest := skipBlanks rest
    let rest := skipBlanks ((after? ['('] rest).getD rest)
    let rest :=
      match rest with
      | c :: more => if c = 'r' ∨ c = 'b' ∨ c = 'u' then more else rest
      | [] => rest
    match rest with
    | q :: body => if q = '\'' ∨ q = '"' then quotedDirectory? q body else none
    | [] => none

/-- The directories of the calls in a text, in order. Behind a call the search goes on after it;
`skip` characters still belong to the last call. -/
def searchPathFrom (skip : Nat) : Text → List Text
  | [] => []
  | c :: cs =>
    match skip with
    | k + 1 => searchPathFrom k cs
    | 0 =>
      match searchPathCall? (c :: cs) with
      | some (directory, rest) => directory :: searchPathFrom (cs.length - rest.length) cs
      | none => searchPathFrom 0 cs

/-- The directories that a script adds to its search path, in order. -/
def searchPath (source : Text) : List Text :=
  searchPathFrom 0 source

end Caret.Line
