import Caret.Files.Error

/-!
# Faults

Why an operation gives no result. Each fault is a cause; what it says, where it says something of
its own, is in `Fault.message?`.
-/

namespace Caret

/-- Why an operation gives no result. -/
inductive Fault where
  /-- The caret is not inside the buffer. -/
  | caretOutside (caret : Int) (length : Nat)
  /-- A settings key has no parts. -/
  | emptyKey
  /-- There is no item at the given position. -/
  | noSuchItem
  /-- A value of the right kind that means nothing. -/
  | badValue
  /-- A value of the wrong kind. -/
  | badType
  /-- A number that is too large. -/
  | overflow
  /-- Something was asked of what does not have it. -/
  | missing
  /-- A path cannot be used. -/
  | file (error : Files.FileError)
  /-- Links lead in a circle. -/
  | linkCircle
  /-- An entry of an archive is locked. -/
  | encrypted
  /-- An archive or one of its entries is damaged. -/
  | damagedArchive
  /-- Bytes are not a text. -/
  | undecodable
  /-- A settings file cannot be written. -/
  | unwritable (path : Text) (error : Files.FileError)
  /-- What was waited for was not done in time. -/
  | timeout
  /-- A collaborator failed. -/
  | collaborator
  deriving DecidableEq

/-- What a fault says, for the faults with words of their own. -/
def Fault.message? : Fault → Option Text
  | .caretOutside caret length =>
    some ("Caret ".toList ++ Text.ofInt caret ++ " outside buffer of length ".toList ++
      Text.ofNat length)
  | .emptyKey => some "Key cannot be empty.".toList
  | .unwritable path error =>
    some ("Could not write settings file '".toList ++ path ++ "': ".toList ++ error.message)
  | _ => none

end Caret
