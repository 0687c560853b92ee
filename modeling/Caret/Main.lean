import Caret.CommandLine

/-!
# The program

Reads the files that a run can reach, hands them to the command line, and prints what it answers. The
files are those below the current directory, beside the arguments, and wherever the settings point.
Archives among them are not unpacked. Without an inference engine at hand, names and members that
only one could know are not offered. The indexes are built before they are asked for.
-/

namespace Caret.Program

open Files

/-- How deep directories are read, links to directories above included. -/
def maxDepth : Nat := 32

/-- What is at a path: a file or, down to a depth, a directory. What cannot be read is not there. -/
def readNode : Nat → String → IO (Option Node)
  | 0, _ => return none
  | depth + 1, path => do
    let place := (← IO.currentDir) / path
    try
      if ← place.isDir then
        let entries ← place.readDir
        let nodes ← entries.toList.filterMapM fun entry => do
          let node ← readNode depth entry.path.toString
          return node.map (entry.fileName.toList, ·)
        return some (.directory nodes)
      else
        return some (.file (.bytes (← IO.FS.readBinFile place).toList))
    catch _ => return none

/-- Reads what is at a path into a file tree. -/
def readInto (disk : Disk) (path : Text) : IO Disk := do
  match ← readNode maxDepth (String.ofList path) with
  | some node => return disk.put (Path.names (Path.absolute disk.cwd path)) node
  | none => return disk

/-- The places outside the current directory that some settings point to. -/
def placesOf (disk : Disk) (settings : Settings.Completion) : List Text :=
  let places := settings.libraryArchive :: settings.loadPath
  (places.filterMap disk.expandHome?).filter fun path =>
    Path.isAbsolute path && !Glob.isPattern path

/-- The lines of a file, none if it cannot be read. -/
def linesOf (path : String) : IO (List Text) := do
  try
    let content ← IO.FS.readFile path
    return Text.splitOn '\n' content.toList
  catch _ => return []

/-- The home directories of the users in the lines of a password file. -/
def usersIn (lines : List Text) : List (Text × Text) :=
  lines.filterMap fun line =>
    match Text.splitOn ':' line with
    | name :: _ :: _ :: _ :: _ :: home :: _ => some (name, home)
    | _ => none

/-- The characters in the lines of a character database: a code point in hexadecimal, and a name. -/
def charactersIn (lines : List Text) : List (Text × Char) :=
  lines.filterMap fun line =>
    match Text.splitOn ';' line with
    | code :: name :: _ => some (name, Text.charOfNat (Text.hexValue code))
    | _ => none

/-- The files that a run can reach. -/
def reachable (arguments : List Text) : IO Disk := do
  let cwd := (← IO.currentDir).toString.toList
  let home := ((← IO.getEnv "HOME").getD "").toList
  let users := usersIn (← linesOf "/etc/passwd")
  let library := ((← IO.getEnv "CARET_LIBRARY").getD "").toList
  let empty : Disk := { tree := .directory [], cwd, home, users, library }
  let disk ← readInto empty cwd
  let disk ← (arguments.filter Path.isAbsolute).foldlM readInto disk
  let (_, settingsFile) := CommandLine.splitArguments arguments none
  let (_, store) := (Settings.Store.new settingsFile none).load disk
  match store.completion with
  | .ok settings =>
    let places := library :: placesOf disk settings
    (places.filter (!·.isEmpty)).foldlM readInto disk
  | .error _ => return disk

/-- Runs the program on its arguments and prints what it answers. -/
def run (arguments : List Text) : IO UInt32 := do
  let disk ← reachable arguments
  let characters := charactersIn (← linesOf ((← IO.getEnv "CARET_CHARACTERS").getD ""))
  let _ : CharacterNames := .ofList characters
  match CommandLine.run Engine.unknowing disk {} () arguments with
  | .ok outcome =>
    IO.print (String.ofList outcome.output)
    IO.eprint (String.ofList outcome.errors)
    return outcome.exit.toUInt32
  | .error fault =>
    IO.eprintln (String.ofList (fault.message?.getD "The request failed.".toList))
    return 1

end Caret.Program

/-- The program. -/
def main (arguments : List String) : IO UInt32 :=
  Caret.Program.run (arguments.map String.toList)
