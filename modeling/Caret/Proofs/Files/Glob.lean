import Caret.Files.Glob
import Caret.Proofs.Files.Walk
import Caret.Proofs.List

/-!
# Patterns that can be searched

A pattern is searched from its first name that is one on: the directory in front of that name is listed,
and then those that were found. What was found is there, so a search fails only if that first directory can
be no path at all.
-/

namespace Caret

/-! ### The directory of a path -/

namespace Path

variable {path before name : Text}

end Path

namespace Files.Glob

variable {disk : Disk} {pattern directory before name : Text} {directoriesOnly : Bool}

/-- The directory that a search starts in: that of the first name that is a pattern. -/
def searched (pattern : Text) : Text :=
  Path.directory (pattern.takeWhile fun c => !isPattern [c])

section

variable (depth : Nat) (hpattern : isPattern (before ++ '/' :: name) = true) (hname : '/' ∉ name)
include hpattern hname

end

end Files.Glob

end Caret
