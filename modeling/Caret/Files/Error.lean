import Caret.Text.Quoted

/-!
# File errors

Why a path cannot be used.
-/

namespace Caret.Files

/-- Why a path cannot be used. -/
inductive Cause where
  | notFound
  | exists
  | notDirectory
  | isDirectory
  | nameTooLong
  | tooManyLinks
  /-- The path holds a character that no path can hold. -/
  | invalidPath
  deriving DecidableEq

/-- The number and the words that stand for a cause. -/
def Cause.describe : Cause → Nat × String
  | .notFound => (2, "No such file or directory")
  | .exists => (17, "File exists")
  | .notDirectory => (20, "Not a directory")
  | .isDirectory => (21, "Is a directory")
  | .nameTooLong => (36, "File name too long")
  | .tooManyLinks => (40, "Too many levels of symbolic links")
  | .invalidPath => (22, "Invalid argument")

/-- A cause together with the path. -/
structure FileError where
  cause : Cause
  path : Text
  deriving DecidableEq

/-- What an error says. -/
def FileError.message (error : FileError) : Text :=
  let (number, words) := error.cause.describe
  "[Errno ".toList ++ Text.ofNat number ++ "] ".toList ++ words.toList ++ ": ".toList ++
    Text.quoted error.path

end Caret.Files
