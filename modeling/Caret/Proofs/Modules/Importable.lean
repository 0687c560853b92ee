import Caret.Proofs.Imports.Request
import Caret.Proofs.Modules.Resolve

/-!
# Names that can be imported

Whatever lists modules, be it a library, a directory or the load path, has their names from the paths of
files, and a path gives a name only if all its parts are names. White space around a part is not looked at
in that, yet it is kept: the file ` m.py` is listed as ` m`. So the parts of a listed name are names once
they are trimmed, and a name without white space can stand in an import as it is.
-/

namespace Caret.Modules

open Files
open Script (PlainName isName)

variable {disk : Disk} {name : Text}

/-- A module is listed under a name: in a library, or when a directory or the load path is searched. -/
inductive IsListed (disk : Disk) (name : Text) : Prop where
  | inLibrary {location : Text} {names : List Text} (hlibrary : inLibrary disk location = .ok names)
      (hname : name ∈ names)
  | inDirectory {directory start : Text} (hname : name ∈ startingWith disk directory start)
  | onLoadPath {loadPath : LoadPath} {start : Text}
      (hname : name ∈ loadPath.modulesStartingWith disk start)

/-- The texts between the dots of a name, of which there is one at least, are all names. -/
def IsImportable (name : Text) : Prop :=
  ∀ part ∈ Text.splitOn '.' name, PlainName part

instance : DecidablePred IsImportable :=
  fun _ => inferInstanceAs (Decidable (∀ part ∈ _, _))

theorem exists_path_of_mem_inLibrary {location : Text} {names : List Text}
    (hlibrary : inLibrary disk location = .ok names) (hname : name ∈ names) :
    ∃ path, nameOfPath? path = some name := by
  rw [inLibrary] at hlibrary
  split at hlibrary
  · split at hlibrary
    · cases hlibrary
      exact absurd hname List.not_mem_nil
    · cases hlibrary
    · cases hlibrary
      obtain ⟨⟨_, entry⟩, hlisted, rfl⟩ := List.mem_map.mp hname
      exact exists_path_of_mem_inArchive hlisted
  · cases hlibrary
    obtain ⟨⟨_, file⟩, hlisted, rfl⟩ := List.mem_map.mp hname
    exact exists_path_of_mem_inDirectory hlisted
  · cases hlibrary
    exact absurd hname List.not_mem_nil

theorem IsListed.exists_path (hlisted : IsListed disk name) : ∃ path, nameOfPath? path = some name := by
  cases hlisted with
  | inLibrary hlibrary hname => exact exists_path_of_mem_inLibrary hlibrary hname
  | inDirectory hname =>
    obtain ⟨file, hoffers⟩ := mem_startingWith.mp hname
    exact ⟨_, hoffers.named⟩
  | onLoadPath hname =>
    obtain ⟨directory, -, file, hoffers⟩ := LoadPath.mem_modulesStartingWith_iff.mp hname
    exact ⟨_, hoffers.named⟩

theorem plainName_trim_of_isName {part : Text} (hname : isName part = true) :
    PlainName (Text.trim part) := by
  simpa [isName, PlainName] using hname

theorem plainName_trim_of_nameOfPath? {path : Text} (hname : nameOfPath? path = some name) :
    ∀ part ∈ Text.splitOn '.' name, PlainName (Text.trim part) := by
  obtain ⟨parts, hparts⟩ := exists_parts_of_nameOfPath? hname
  obtain ⟨hne, hnames, rfl⟩ := nameOfParts?_eq_some.mp hparts
  rw [splitOn_join_names hne hnames]
  exact fun part hpart => plainName_trim_of_isName (hnames part hpart)

/-- The import of a module under its name is a script. -/
theorem IsImportable.parse? [CharacterNames] (himportable : IsImportable name) :
    ∃ statement : Script.Statement, Script.parse? ("import ".toList ++ name ++ ['\n']) = some [statement] ∧
      statement.action = .importModules [⟨Imports.usualPath name, none⟩] := by
  have hnamed : (Imports.Request.ofModule name []).Named := ⟨himportable, nofun, trivial⟩
  have htext : (Imports.Request.ofModule name []).text = "import ".toList ++ name := by
    unfold Imports.Request.text
    generalize "import ".toList = keyword
    simp [Imports.Request.bound?, Script.Lexer.boundText]
  obtain ⟨statement, hparse, haction⟩ := hnamed.parse?
  rw [htext] at hparse
  exact ⟨statement, hparse, haction⟩

/-- The parts of a listed name are names, white space around them apart. Without white space the name can
be imported as it is: its parts are names, and an import of it is a script. -/
theorem importable_of_isListed [CharacterNames] (hlisted : IsListed disk name) :
    (∀ part ∈ Text.splitOn '.' name, PlainName (Text.trim part)) ∧
      ((∀ c ∈ name, Text.isSpace c = false) → IsImportable name ∧
        ∃ statement : Script.Statement,
          Script.parse? ("import ".toList ++ name ++ ['\n']) = some [statement] ∧
            statement.action = .importModules [⟨Imports.usualPath name, none⟩]) := by
  obtain ⟨path, hpath⟩ := hlisted.exists_path
  have htrimmed := plainName_trim_of_nameOfPath? hpath
  refine ⟨htrimmed, fun hspaceless => ?_⟩
  have himportable : IsImportable name := by
    intro part hpart
    have hpartless : ∀ c ∈ part, Text.isSpace c = false := by
      intro c hc
      apply hspaceless
      rw [← Text.join_splitOn '.' name]
      exact Text.mem_join_of_mem ['.'] hpart hc
    rw [← Text.trim_of_not_isSpace hpartless]
    exact htrimmed part hpart
  exact ⟨himportable, himportable.parse?⟩

/-- A library with a module in a package, and one whose file has a blank in front of its name. -/
def blankDisk : Disk where
  tree := .directory [("lib".toList, .directory [
    (" m.py".toList, .file (.bytes [])),
    ("pkg".toList, .directory [("sub.py".toList, .file (.bytes []))])])]
  cwd := "/".toList
  home := "/home".toList
  library := []

section

open scoped CharacterNames

/-- The module in the package can be imported, and the one with the blank cannot. -/
theorem importable_of_isListed_blank :
    inLibrary blankDisk "/lib".toList = .ok [" m".toList, "pkg.sub".toList] ∧
      IsImportable "pkg.sub".toList ∧
      (∃ statement : Script.Statement,
        Script.parse? ("import ".toList ++ "pkg.sub".toList ++ ['\n']) = some [statement] ∧
          statement.action = .importModules [⟨Imports.usualPath "pkg.sub".toList, none⟩]) ∧
      (∀ part ∈ Text.splitOn '.' " m".toList, PlainName (Text.trim part)) ∧
      ¬ IsImportable " m".toList := by
  have hnames : inLibrary blankDisk "/lib".toList = .ok [" m".toList, "pkg.sub".toList] :=
    congrArg Except.ok (by decide +kernel)
  obtain ⟨himportable, hparse⟩ := (importable_of_isListed (.inLibrary hnames (by decide))).2
    (Text.forall_mem_of_all (by decide) : ∀ c ∈ "pkg.sub".toList, Text.isSpace c = false)
  exact ⟨hnames, himportable, hparse, (importable_of_isListed (.inLibrary hnames (by decide))).1,
    by decide⟩

end

end Caret.Modules
