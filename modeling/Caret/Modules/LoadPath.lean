import Caret.Files.RealPath
import Caret.Modules.Scan

/-!
# The load path

The directories in which a user's modules are looked up, in order. A directory is added at the end,
and only once: two paths with the same real path are one directory. Nothing is ever removed.
-/

namespace Caret.Modules

open Files

/-- A directory of the load path, as it was given and as it really is. -/
structure Entry where
  path : Text
  real : Text
  deriving DecidableEq

/-- The directories in which modules are looked up. -/
structure LoadPath where
  entries : List Entry := []
  deriving DecidableEq

namespace LoadPath

/-- The directories, as they were given. -/
def directories (loadPath : LoadPath) : List Text :=
  loadPath.entries.map (·.path)

/-- An operation on the load path that may fail. The load path is kept in any case. -/
abbrev Operation (α : Type) := ExceptT Fault (StateM LoadPath) α

/-- A path seen from the current directory. -/
def fromCurrent (disk : Disk) (path : Text) : Text :=
  if Path.isAbsolute path then path
  else if path = ['.'] then Path.tidy disk.cwd
  else Path.join (Path.tidy disk.cwd) path

/-- A directory's absolute path: with a home directory in place of a tilde, and behind the current
directory if it is relative. There is none if the tilde stands before what is no user's name. -/
def absolutePath? (disk : Disk) (directory : Text) : Option Text :=
  (disk.expandHome? directory).map fun path => fromCurrent disk (Path.tidy path)

/-- Whether a real path is on the load path. -/
def hasReal (loadPath : LoadPath) (real : Text) : Bool :=
  loadPath.entries.any (·.real == real)

/-- Adds a directory, and says whether it was added. What is blank, no directory, or on the load path
already is not. -/
def add (disk : Disk) (directory : Text) : Operation Bool :=
  fun loadPath =>
    match absolutePath? disk directory with
    | none => (.error .badValue, loadPath)
    | some path =>
      if (Text.trim directory).isEmpty then (.ok false, loadPath)
      else
        match disk.checkDirectory path with
        | .error cause => (.error (.file ⟨cause, path⟩), loadPath)
        | .ok false => (.ok false, loadPath)
        | .ok true =>
          match disk.resolve? path with
          | none => (.error .linkCircle, loadPath)
          | some real =>
            if loadPath.hasReal real then (.ok false, loadPath)
            else (.ok true, ⟨loadPath.entries ++ [⟨path, real⟩]⟩)

/-- Adds directories one after the other; the first fault ends it. -/
def addAll (disk : Disk) (loadPath : LoadPath) : List Text → Except Fault LoadPath
  | [] => .ok loadPath
  | directory :: rest =>
    match add disk directory loadPath with
    | (.ok _, loadPath) => addAll disk loadPath rest
    | (.error fault, _) => .error fault

/-- Adds directories one after the other. One whose path cannot be used is passed over; any other
fault ends it. -/
def register (disk : Disk) : List Text → Operation Unit
  | [], loadPath => (.ok (), loadPath)
  | directory :: rest, loadPath =>
    match add disk directory loadPath with
    | (.ok _, loadPath) => register disk rest loadPath
    | (.error (.file _), loadPath) => register disk rest loadPath
    | (.error fault, loadPath) => (.error fault, loadPath)

/-- The load path with directories added, as far as they can be. -/
def extend (disk : Disk) (loadPath : LoadPath) (directories : List Text) : LoadPath :=
  (register disk directories loadPath).2

/-- Whether a directory is on the load path under its real path. A path whose links lead in a circle
and a path that cannot be one at all are faults. -/
def has (disk : Disk) (loadPath : LoadPath) (directory : Text) : Except Fault Bool :=
  if directory.contains '\x00' then .error .badValue
  else
    match disk.resolve? (Path.tidy directory) with
    | none => .error .linkCircle
    | some real => .ok (loadPath.hasReal real)

/-- The modules on the load path, only those in the parts of it that a name so far leads to. -/
def modulesUnder (disk : Disk) (loadPath : LoadPath) (name : Text) : List Text :=
  loadPath.directories.flatMap (under disk · name)

/-- The modules on the load path whose names start with a name so far, each once. -/
def modulesStartingWith (disk : Disk) (loadPath : LoadPath) (name : Text) : List Text :=
  Text.distinct (loadPath.directories.flatMap (startingWith disk · name))

/-- The directories of a package on the load path. -/
def packageDirectories (disk : Disk) (loadPath : LoadPath) (name : Text) : List Text :=
  let parts := nameParts name
  if parts.isEmpty then []
  else (loadPath.directories.map (Path.joinAll · parts)).filter disk.isDirectory

/-- The file of a module on the load path: in the first directory that has one, the module's own
file or else its package's. -/
def moduleFile? (disk : Disk) (loadPath : LoadPath) (name : Text) : Option Text :=
  let parts := nameParts name
  if parts.isEmpty then none
  else
    loadPath.directories.findSome? fun directory =>
      let base := Path.joinAll directory parts
      [base ++ fileEnding, Path.join base (packageFile ++ fileEnding)].find? disk.isFile

end LoadPath

end Caret.Modules
