import Caret.Fault
import Caret.Files.Glob
import Caret.Modules.Name

/-!
# Scanning for modules

A library is a directory or an archive. Scanning it lists its modules in a fixed order: of a
directory first its files and then its subdirectories, each in code point order; of an archive its
entries as they come. In an archive with a directory `Lib` only what is below that directory counts.
-/

namespace Caret.Modules

open Files

/-- Directories that hold no modules. -/
def excludedDirectories : List Text :=
  [".git", ".venv", "__pycache__", ".idea", ".cache", ".ruff_cache", ".tox"].map String.toList

/-- The names in code point order. -/
def sorted (names : List Text) : List Text :=
  names.mergeSort Text.le

/-- Whether a subdirectory is entered. -/
def isEntered (name : Text) : Bool :=
  !excludedDirectories.contains name && Script.isName name

/-- The files in a directory and below it whose names have a module's ending: first those in it, then
those in its subdirectories. A directory that cannot be listed has none. -/
def filesBelow (disk : Disk) : Nat → Text → List Text
  | 0, _ => []
  | depth + 1, directory =>
    match disk.list directory with
    | .error _ => []
    | .ok names =>
      let (directories, files) := names.partition fun name =>
        disk.isDirectory (Path.join directory name)
      let here := (sorted files).filter fun name => Text.endsWith name fileEnding
      here.map (Path.join directory) ++
        (sorted (directories.filter isEntered)).flatMap fun name =>
          filesBelow disk depth (Path.join directory name)

/-- The modules in a directory as names and files. A path has fewer names than characters, so the
longest path bounds the depth. -/
def inDirectory (disk : Disk) (directory : Text) : List (Text × Text) :=
  let root := Path.absolute disk.cwd directory
  (filesBelow disk maxPath root).filterMap fun file =>
    (nameOfPath? (Path.relative disk.cwd file root)).map (·, file)

/-- The directory of an archive that its modules are in, if it has it. -/
def archiveRoot : Text := "Lib/".toList

/-- The modules in an archive as names and entries. -/
def inArchive (archive : Archive) : List (Text × Text) :=
  let root := if archive.names.any (Text.startsWith · archiveRoot) then archiveRoot else []
  archive.names.filterMap fun entry =>
    if Text.startsWith entry root && Text.endsWith entry fileEnding then
      (nameOfPath? (entry.drop root.length)).map (·, entry)
    else none

/-- The names of the modules in a library. -/
def inLibrary (disk : Disk) (location : Text) : Except Fault (List Text) :=
  match disk.node location with
  | .ok (.file content) =>
    match content.opened with
    | .other => .ok []
    | .broken => .error .damagedArchive
    | .entries archive => .ok ((inArchive archive).map (·.1))
  | .ok (.directory _) => .ok ((inDirectory disk location).map (·.1))
  | _ => .ok []

/-- The sources of modules in an archive. A damaged entry is left out; a locked one ends the list
with a fault. -/
def archiveSources (archive : Archive) : List (Text × Text) → List (Text × Text) × Option Fault
  | [] => ([], none)
  | (module, entry) :: rest =>
    match archive.entry? entry with
    | none => archiveSources archive rest
    | some found =>
      match found.obstacle with
      | some .encrypted => ([], some .encrypted)
      | some .badChecksum => archiveSources archive rest
      | none =>
        let (sources, fault) := archiveSources archive rest
        ((module, Text.decodeReplacing found.content) :: sources, fault)

/-- The modules in a library with their sources, and the fault that ended the list early, if one
did. A file that cannot be read is left out. -/
def sources (disk : Disk) (location : Text) : List (Text × Text) × Option Fault :=
  match disk.node location with
  | .ok (.file content) =>
    match content.opened with
    | .other => ([], none)
    | .broken => ([], some .damagedArchive)
    | .entries archive => archiveSources archive (inArchive archive)
  | .ok (.directory _) =>
    ((inDirectory disk location).filterMap fun (module, file) =>
      match disk.readReplacing file with
      | .ok source => some (module, source)
      | .error _ => none, none)
  | _ => ([], none)

/-- The directory in which modules with a name so far are looked for: below a directory, the one for
the part of the name before its last dot. -/
def startDirectory (directory name : Text) : Text :=
  if name.contains '.' then
    let head := Text.beforeLast '.' name
    if head.isEmpty then directory else Path.joinAll directory (Text.splitOn '.' head)
  else directory

/-- The modules below a directory, only those in the part of the directory that a name so far leads
to. -/
def under (disk : Disk) (directory name : Text) : List Text :=
  let start := startDirectory directory name
  if disk.isDirectory start then
    (inDirectory disk start).filterMap fun (_, file) =>
      nameOfPath? (Path.relative disk.cwd file (Path.absolute disk.cwd directory))
  else []

/-- The modules below a directory whose names start with a name so far. -/
def startingWith (disk : Disk) (directory name : Text) : List Text :=
  (under disk directory name).filter (Text.startsWith · name)

/-- The place of a library: a path, the first path in code point order that a pattern matches, or
the standard library where nothing is given. -/
def libraryLocation (disk : Disk) (location : Text) : Except Fault Text :=
  let text := Text.trim location
  if text.isEmpty then .ok disk.library
  else
    match disk.expandHome? text with
    | none => .error .badValue
    | some path =>
      if Glob.isPattern path then
        match Glob.paths disk path with
        | .ok found => .ok ((sorted found).head?.getD [])
        | .error _ => .error .badValue
      else .ok path

end Caret.Modules
