import Caret.Files.Archive
import Caret.Files.Error
import Caret.Files.Path
import Caret.Text.Entries

/-!
# The file tree

A tree of files, directories and symbolic links, and the look-up of paths in it. A place in the tree
is the list of names that leads to it from the root. Looking a path up walks over its names from the
root or the current directory and follows the links on its way, of which there may be forty.
-/

namespace Caret.Files

/-- A file, a directory or a link. -/
inductive Node where
  | file (content : Content)
  | directory (entries : List (Text × Node))
  | link (target : Text)

/-- A place in the tree: the names from the root on. -/
abbrev Place := List Text

namespace Node

/-- What is at a place below a node. Links are not followed. -/
def at? : Node → Place → Option Node
  | node, [] => some node
  | .directory entries, name :: rest => (List.lookup name entries).bind fun node => at? node rest
  | _, _ :: _ => none

/-- Puts a new node at a place below a node, instead of what is there. Directories on the way that do
not exist are made. -/
def put : Node → Place → Node → Node
  | _, [], new => new
  | .directory entries, name :: rest, new =>
    let old := (List.lookup name entries).getD (.directory [])
    .directory (Entries.insert name (put old rest new) entries)
  | _, name :: rest, new => .directory [(name, put (.directory []) rest new)]

/-- Whether a node is a directory. -/
def isDirectory : Node → Bool
  | .directory _ => true
  | _ => false

end Node

/-- How a walk treats the last name of a path. -/
inductive Ending where
  /-- It is followed if it is a link. -/
  | follow
  /-- It is not followed. -/
  | keep
  /-- It is followed if it is a link, and may be missing. -/
  | create
  deriving DecidableEq

/-- The most bytes in a name. -/
def maxName : Nat := 255

/-- The fewest bytes that are too many for a path. -/
def maxPath : Nat := 4096

/-- The most links on the way of a path. -/
def maxLinks : Nat := 40

/-- The length of a text in bytes. -/
def byteLength (text : Text) : Nat :=
  text.foldr (fun c size => c.utf8Size + size) 0

/-- Walks from a place over names. What happens at a link is given: it is handed the place of the
link's directory and the names to go on with. -/
def walkWith (tree : Node) (ending : Ending) (follow : Place → List Text → Except Cause Place) :
    Place → List Text → Except Cause Place
  | here, [] => .ok here
  | here, name :: rest =>
    match tree.at? here with
    | some (.directory entries) =>
      if name = [] ∨ name = ['.'] then walkWith tree ending follow here rest
      else if name = Path.parentName then walkWith tree ending follow here.dropLast rest
      else if maxName < byteLength name then .error .nameTooLong
      else
        match List.lookup name entries with
        | none => if ending = .create ∧ rest = [] then .ok (here ++ [name]) else .error .notFound
        | some (.link target) =>
          if ending = .keep ∧ rest = [] then .ok (here ++ [name])
          else
            follow (if Path.isAbsolute target then [] else here) (Text.splitOn '/' target ++ rest)
        | some _ => walkWith tree ending follow (here ++ [name]) rest
    | _ => .error .notDirectory

/-- Walks from a place over names and follows at most a number of links. -/
def walk (tree : Node) (ending : Ending) : Nat → Place → List Text → Except Cause Place
  | 0 => walkWith tree ending fun _ _ => .error .tooManyLinks
  | links + 1 => walkWith tree ending (walk tree ending links)

/-- A file tree as a program sees it: with a current directory, a home directory, and the directory
of the standard library. -/
structure Disk where
  tree : Node
  cwd : Text
  home : Text
  /-- The home directories of the users that have one, by their names. -/
  users : List (Text × Text) := []
  library : Text

namespace Disk

/-- A path with a home directory in place of a tilde in front. -/
def expandHome? (disk : Disk) (path : Text) : Option Text :=
  Path.expandHome? disk.home disk.users path

/-- The place that a path leads to. -/
def place (disk : Disk) (ending : Ending) (path : Text) : Except Cause Place :=
  if path.contains '\x00' then .error .invalidPath
  else if path.isEmpty then .error .notFound
  else if maxPath ≤ byteLength path then .error .nameTooLong
  else
    let start := if Path.isAbsolute path then [] else Path.names disk.cwd
    walk disk.tree ending maxLinks start (Text.splitOn '/' path)

/-- What a path leads to. -/
def node (disk : Disk) (path : Text) : Except Cause Node :=
  match disk.place .follow path with
  | .ok place =>
    match disk.tree.at? place with
    | some node => .ok node
    | none => .error .notFound
  | .error cause => .error cause

/-- Whether a path leads to a directory. -/
def isDirectory (disk : Disk) (path : Text) : Bool :=
  match disk.node path with
  | .ok (.directory _) => true
  | _ => false

/-- Whether a path leads to a file. -/
def isFile (disk : Disk) (path : Text) : Bool :=
  match disk.node path with
  | .ok (.file _) => true
  | _ => false

/-- Whether a cause only means that nothing is there. -/
def isAbsence : Cause → Bool
  | .notFound | .notDirectory | .tooManyLinks | .invalidPath => true
  | _ => false

/-- Whether a path leads to a directory, where a path that cannot be looked up at all is an error. -/
def checkDirectory (disk : Disk) (path : Text) : Except Cause Bool :=
  match disk.node path with
  | .ok (.directory _) => .ok true
  | .ok _ => .ok false
  | .error cause => if isAbsence cause then .ok false else .error cause

/-- Whether a path leads anywhere, where a path that cannot be looked up at all is an error. -/
def checkExists (disk : Disk) (path : Text) : Except Cause Bool :=
  match disk.node path with
  | .ok _ => .ok true
  | .error cause => if isAbsence cause then .ok false else .error cause

/-- Whether a path names something, be it only a link. -/
def isPresent (disk : Disk) (path : Text) : Bool :=
  match disk.place .keep path with
  | .ok place => (disk.tree.at? place).isSome
  | .error _ => false

/-- The names in a directory. -/
def list (disk : Disk) (path : Text) : Except Cause (List Text) :=
  match disk.node path with
  | .ok (.directory entries) => .ok (entries.map (·.1))
  | .ok _ => .error .notDirectory
  | .error cause => .error cause

/-- What a file holds. -/
def read (disk : Disk) (path : Text) : Except Cause Content :=
  match disk.node path with
  | .ok (.file content) => .ok content
  | .ok _ => .error .isDirectory
  | .error cause => .error cause

/-- The bytes of a file. Of an archive only the mark that it starts with is kept, behind which no text
can go on. -/
def readBytes (disk : Disk) (path : Text) : Except Cause Text.Bytes :=
  (disk.read path).map fun
    | .bytes data => data
    | .archive _ => [0x50, 0x4B, 0x03, 0x04, 0x00, 0xFF]

/-- The text of a file, with damaged characters replaced and line breaks made uniform. -/
def readReplacing (disk : Disk) (path : Text) : Except Cause Text :=
  (disk.readBytes path).map fun data => Text.unifyBreaks (Text.decodeReplacing data)

/-- Puts a node at a place of the tree. -/
def put (disk : Disk) (place : Place) (node : Node) : Disk :=
  { disk with tree := disk.tree.put place node }

/-- Writes a file. A link is followed to the file that it names, which is made if need be. -/
def write (disk : Disk) (path : Text) (content : Content) : Except Cause Disk :=
  match disk.place .create path with
  | .error cause => .error cause
  | .ok place =>
    match disk.tree.at? place with
    | some (.directory _) => .error .isDirectory
    | _ => .ok (disk.put place (.file content))

/-- Makes a directory. -/
def makeDirectory (disk : Disk) (path : Text) : Except Cause Disk :=
  match disk.place .keep path with
  | .ok _ => .error .exists
  | .error .notFound =>
    match disk.place .create path with
    | .ok place => .ok (disk.put place (.directory []))
    | .error cause => .error cause
  | .error cause => .error cause

/-- Makes a directory and those above it that do not exist. A directory that is there already is
fine. Directories that were made stay when a later one cannot be. -/
def makeDirectories : Nat → Disk → Text → Option FileError × Disk
  | 0, disk, path => (some ⟨.notFound, path⟩, disk)
  | fuel + 1, disk, path =>
    let settle (disk : Disk) (cause : Cause) : Option FileError × Disk :=
      if disk.isDirectory path then (none, disk) else (some ⟨cause, path⟩, disk)
    match disk.makeDirectory path with
    | .ok disk => (none, disk)
    | .error .notFound =>
      let above := Path.parent path
      if above = path then (some ⟨.notFound, path⟩, disk)
      else
        match makeDirectories fuel disk above with
        | (some error, disk) => (some error, disk)
        | (none, disk) =>
          match disk.makeDirectory path with
          | .ok disk => (none, disk)
          | .error cause => settle disk cause
    | .error cause => settle disk cause

end Disk

end Caret.Files
