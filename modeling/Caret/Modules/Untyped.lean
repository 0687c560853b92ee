import Caret.Modules.Index
import Caret.Modules.LoadPath
import Caret.Value.Conversion
import Caret.Value.Display

/-!
# Look-ups by untyped values

Callers that hold untyped values may look modules up by one. A value that is no text is a fault as
soon as it would be compared with a name; where there is nothing to compare it with, nothing is
found.
-/

namespace Caret.Modules

open Files

/-- Whether a value is a name in an index. -/
def Index.hasValue (index : Index) (name : Value) : Except Fault Bool :=
  match name with
  | .text name => .ok (index.has name)
  | _ => if index.names.isEmpty then .ok false else .error .badType

/-- The modules below a directory whose names start with a name so far. -/
def startingWithValue (disk : Disk) (directory : Text) (name : Value) : Except Fault (List Text) :=
  match name with
  | .text name => .ok (startingWith disk directory name)
  | _ => do
    let start ← name.displayTrue
    if (under disk directory start).isEmpty then return [] else throw .badType

namespace LoadPath

/-- The load path of the directories that a value lists. -/
def ofValue (disk : Disk) (directories : Value) : Except Fault LoadPath := do
  let items ← directories.items
  items.foldlM (fun loadPath item => do addAll disk loadPath [← item.displayTrue]) {}

/-- The modules on the load path whose names start with a name so far, each once. -/
def modulesStartingWithValue (disk : Disk) (loadPath : LoadPath) (name : Value) :
    Except Fault (List Text) := do
  let names ← loadPath.directories.mapM (startingWithValue disk · name)
  return Text.distinct names.flatten

end LoadPath

end Caret.Modules
