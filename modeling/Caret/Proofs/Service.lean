import Caret.Proofs.Files.Glob
import Caret.Proofs.Modules.LoadPath
import Caret.Proofs.Settings.NormalForm
import Caret.Service

/-!
# When a service starts

A service looks at the directories of its settings and at their library before it can complete anything.
It starts unless a tilde stands before what can be no user's name, a directory's path has a name in it that
is too long to be looked up or links that lead in a circle, or the pattern of the library starts in a
directory that can be no path. No engine and no content of a file can keep it from starting. It is ready as
soon as its indexes are built.
-/

namespace Caret

open Files Modules

namespace Modules

variable {disk : Disk}

/-- A directory that can be added to a load path, or found not to be worth adding. -/
def LoadPath.CanAdd (disk : Disk) (directory : Text) : Prop :=
  ∃ path, absolutePath? disk directory = some path ∧
    (Text.trim directory ≠ [] → disk.node path ≠ .error .nameTooLong ∧
      (disk.isDirectory path = true → disk.resolve? path ≠ none))

/-- A library that can be looked for: its path can be expanded, and if it is a pattern, the directory that the
search starts in can be a path. -/
def CanLocate (disk : Disk) (location : Text) : Prop :=
  ∃ path, disk.expandHome? location = some path ∧
    (Glob.isPattern path = true → '\x00' ∉ Glob.searched path)

end Modules

/-- The indexes that completion waits for are built. -/
def Progress.IsEnough (progress : Progress) (settings : Settings.Completion) : Prop :=
  progress.modules = true ∧ (settings.classDiscovery = true → progress.classes = true)

namespace Service

/-- Settings that a service can start with. -/
structure CanStart (disk : Disk) (settings : Settings.Completion) : Prop where
  load_path : ∀ directory ∈ settings.loadPath, LoadPath.CanAdd disk directory
  library : CanLocate disk settings.libraryArchive

variable [CharacterNames] {ε π σ : Type} {engine : Engine ε π σ} {disk : Disk} {progress : Progress}
  {settings : Settings.Completion} {state : ε}

end Service

end Caret
