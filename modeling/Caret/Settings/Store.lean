import Caret.Files.Tree
import Caret.Settings.Normalize
import Caret.Settings.Path
import Caret.Value.Json

/-!
# The settings store

Settings in a file, over defaults. A file that cannot be read or makes no sense does no harm: the
defaults are used and the problem is kept. The store knows whether its data differs from what was
last loaded or saved.
-/

namespace Caret.Settings

open Files

/-- What was wrong with a settings file. -/
inductive Problem where
  /-- It could not be read. -/
  | unreadable
  /-- It holds something other than an object. -/
  | notObject (path : Text) (found : Value)

/-- What a problem says, where it has words of its own. -/
def Problem.message? : Problem → Option Text
  | .unreadable => none
  | .notObject path found =>
    some ("Settings root in '".toList ++ path ++ "' must be a JSON object, found ".toList ++
      found.kindName ++ ".".toList)

/-- The settings of a program without any file. -/
def builtIn : Members :=
  [("completion".toList, .object (Completion.toMembers {}))]

/-- Settings with the file that they are kept in. -/
structure Store where
  path : Option Text
  defaults : Members
  data : Members
  dirty : Bool := false
  problem : Option Problem := none

namespace Store

/-- A store that nothing has been loaded into. An empty path is none. -/
def new (path : Option Text) (defaults : Option Members) : Store :=
  let defaults := defaults.getD builtIn
  { path := (path.filter (!·.isEmpty)).map Path.tidy
    defaults
    data := fill [] defaults }

/-- The object in a settings file; none if there is no file, or a problem. -/
def readFile (disk : Disk) (path : Text) : Except Problem Members :=
  match disk.readBytes path with
  | .error _ => .error .unreadable
  | .ok data =>
    match (Text.decode? data).bind fun text => Json.read? (Text.unifyBreaks text) with
    | none => .error .unreadable
    | some (.object members) => .ok members
    | some found => .error (.notObject path found)

/-- What a store's file holds. A file that does not exist holds nothing; a path that cannot be looked
up at all is a fault. -/
def readMembers (disk : Disk) (store : Store) : Except Fault (Except Problem Members) :=
  match store.path with
  | none => .ok (.ok [])
  | some path =>
    match disk.checkExists path with
    | .error cause => .error (.file ⟨cause, path⟩)
    | .ok false => .ok (.ok [])
    | .ok true => .ok (readFile disk path)

/-- Loads the file over the defaults. -/
def load (disk : Disk) (store : Store) : Except Fault Unit × Store :=
  match store.readMembers disk with
  | .error fault => (.error fault, { store with problem := none })
  | .ok (.ok members) =>
    (.ok (), { store with data := fill members store.defaults, dirty := false, problem := none })
  | .ok (.error problem) =>
    (.ok (), { store with data := fill [] store.defaults, dirty := false, problem := some problem })

/-- Writes the settings to a file, making the directories above it. -/
def writeFile (disk : Disk) (path : Text) (data : Members) : Except Fault Unit × Disk :=
  if !(Value.object data).isWritable || path.contains '\x00' then (.error .badValue, disk)
  else
    match disk.makeDirectories (path.length + 1) (Path.parent path) with
    | (some error, disk) => (.error (.unwritable path error), disk)
    | (none, disk) =>
      match disk.write path (.bytes (Text.encode (Json.write (.object data)))) with
      | .ok disk => (.ok (), disk)
      | .error cause => (.error (.unwritable path ⟨cause, path⟩), disk)

/-- Saves the settings. A store without a file has nothing to write. -/
def save (disk : Disk) (store : Store) : Except Fault Unit × Disk × Store :=
  let saved := { store with dirty := false, problem := none }
  match store.path with
  | none => (.ok (), disk, saved)
  | some path =>
    match writeFile disk path store.data with
    | (.ok (), disk) => (.ok (), disk, saved)
    | (.error fault, disk) => (.error fault, disk, store)

/-- The value at a dotted key, or a default. -/
def get (store : Store) (key : Text) (default : Value) : Value :=
  getDotted (.object store.data) key default

/-- Sets the value at a dotted key, and says whether that changed anything. -/
def set (store : Store) (key : Text) (value : Value) : Except Fault (Bool × Store) :=
  if (store.get key .null).same value then .ok (false, store)
  else
    (setDotted store.data key value).map fun data => (true, { store with data, dirty := true })

/-- The settings of completion. -/
def completion (store : Store) : Except Fault Completion :=
  normalize (store.get "completion".toList (.object []))

end Store

end Caret.Settings
