import Caret.CommandLine
import Caret.Proofs.Service
import Caret.Proofs.Settings.Reload

/-!
# How a run of the program ends

A run ends with a status unless one of six things stands in its way. Five are in the arguments or in a file
that they name: the path of the settings file cannot be looked up, the settings have no normal form, the path
of the script can be no path, the script is not text, or the service cannot start. The sixth is that an index
takes too long to build. `IsSound` says that none of them does. What the engine does and where the caret
stands plays no part.

The status tells whether a script was named and, if one was, whether it could be read.
-/

namespace Caret.CommandLine

open Files Settings

variable {disk : Disk} {file : Option Text} {path : Text}

/-! ### Settings -/

/-- The path of the settings file can be looked up, whether or not a file is there. -/
def CanLookUp (disk : Disk) (file : Option Text) : Prop :=
  ∀ path ∈ file.filter (!·.isEmpty), disk.node (Path.tidy path) ≠ .error .nameTooLong

/-- The settings of completion among the members of a settings file. -/
def completionIn (members : Members) : Members :=
  ((Entries.get? members "completion".toList).bind Value.members?).getD []

/-- The settings of completion in a settings file. There are none without a file, or in one that cannot be
read or makes no sense. -/
def settingsIn (disk : Disk) (file : Option Text) : Members :=
  match file.filter (!·.isEmpty) with
  | none => []
  | some path =>
    match Store.readFile disk (Path.tidy path) with
    | .ok members => completionIn members
    | .error _ => []

/-- A path leads to a file whose bytes are a text. -/
def IsText (disk : Disk) (path : Text) : Prop :=
  ∃ data text, disk.readBytes path = .ok data ∧ Text.decode? data = some text

/-- Nothing stands in the way of a run with a script and a settings file. -/
structure IsSound (disk : Disk) (progress : Progress) (script : Text) (file : Option Text) : Prop where
  settings_path : CanLookUp disk file
  settings : HasNormalForm (settingsIn disk file)
  script_path : '\x00' ∉ Path.tidy script
  script_text : ∀ data, disk.readBytes (Path.tidy script) = .ok data → Text.decode? data ≠ none
  service : IsText disk (Path.tidy script) → ∀ settings,
    Settings.normalize (.object (settingsIn disk file)) = .ok settings → Service.CanStart disk settings
  indexes : IsText disk (Path.tidy script) → ∀ settings,
    Settings.normalize (.object (settingsIn disk file)) = .ok settings → progress.IsEnough settings

section

variable [CharacterNames] {ε π σ : Type} {engine : Engine ε π σ} {progress : Progress} {state : ε}
  {arguments rest : List Text} {script : Text} {status : Nat}

end

section

open scoped CharacterNames

end

end Caret.CommandLine
