import Caret.Completion.Candidate
import Caret.Imports.Insert

/-!
# An editor's buffer

A text with a caret. Replacing a stretch of the text moves the caret with the text around it, so that
it stays behind what was inserted. Applying a candidate replaces what is typed, and then the import
that the candidate needs is inserted.
-/

namespace Caret.Editor

/-- A change of a buffer that can be watched. -/
inductive Change where
  | beginEdit
  /-- The text between two positions was replaced. -/
  | replace (low high : Int) (text : Text)
  /-- A message for the user. -/
  | message (text : Text)
  | endEdit
  deriving DecidableEq

/-- A text with a caret. -/
structure Buffer where
  text : Text
  caret : Int
  deriving DecidableEq

/-- Where a position is after the text between two others was replaced by one of a given length. -/
def moved (low high : Int) (length : Nat) (position : Int) : Int :=
  if position < low then position
  else if position ≤ high then low + length
  else position + length - (high - low)

namespace Buffer

/-- Replaces the text between two positions. -/
def replace (buffer : Buffer) (low high : Int) (text : Text) : Buffer where
  text := buffer.text.take low.toNat ++ text ++ buffer.text.drop high.toNat
  caret := moved low high text.length buffer.caret

/-- Inserts an import statement where it belongs. A statement that is there already, or that would
change more than one place, is left alone. -/
def insertImport [CharacterNames] (buffer : Buffer) (statement : Text) : Buffer × List Change :=
  let edit := Imports.insertStatement buffer.text statement
  if edit.status = .updated then
    match Imports.insertedSpan? buffer.text edit.text with
    | some (position, text) =>
      (buffer.replace position position text,
        [.replace position position text,
          .message ("Added '".toList ++ statement ++ "'".toList)])
    | none => (buffer, [])
  else (buffer, [])

/-- Applies a candidate to the text between an offset and the caret. -/
def apply [CharacterNames] (buffer : Buffer) (candidate : Completion.Candidate) (offset : Int) :
    Buffer × List Change :=
  let start := max 0 (min offset buffer.caret)
  let low := min start buffer.caret
  let high := max start buffer.caret
  let completed := buffer.replace low high candidate.replacement
  let (final, changes) :=
    if candidate.importStatement.isEmpty then (completed, [])
    else completed.insertImport candidate.importStatement
  (final, [.beginEdit, .replace low high candidate.replacement] ++ changes ++ [.endEdit])

end Buffer

end Caret.Editor
