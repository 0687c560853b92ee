import Caret.Script.Name

/-!
# Module names

The dotted name of a module follows from the path of its file: the directories and the file's name
without its ending. The file that stands for a package gives the package's own name.
-/

namespace Caret.Modules

/-- The ending of a module's file. -/
def fileEnding : Text := ".py".toList

/-- The name of the file that stands for its package. -/
def packageFile : Text := "__init__".toList

/-- The parts of a dotted name that are not empty. -/
def nameParts (name : Text) : List Text :=
  (Text.splitOn '.' name).filter (!·.isEmpty)

/-- The dotted name of the module in a file, from the file's path below the directory that modules
are looked up in. There is none for other files, and none if a part of it is not a name. -/
def nameOfPath? (path : Text) : Option Text :=
  let path := Text.trimBy (· == '/') (path.map fun c => if c = '\\' then '/' else c)
  if !Text.endsWith path fileEnding then none
  else
    let parts := (Text.splitOn '/' (path.take (path.length - 3))).filter (!·.isEmpty)
    let parts := if parts.getLast? = some packageFile then parts.dropLast else parts
    if parts.isEmpty || !parts.all Script.isName then none else some (Text.join ['.'] parts)

end Caret.Modules
