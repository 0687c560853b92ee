import Caret.Modules.LoadPath
import Caret.Script.Outline

/-!
# Symbols and resolved modules

What a module offers, as far as it is known: its exports by name, each a symbol with a kind and a
detail, and the file it was found in. A module on the load path is resolved by reading its file.
-/

namespace Caret.Modules

open Files

/-- A name that can be completed, with what is known of it. -/
structure Symbol where
  name : Text
  kind : Text := []
  detail : Text := []
  deriving DecidableEq

/-- A module that was found. -/
structure Resolved where
  name : Text
  exports : Entries Symbol
  path : Text
  deriving DecidableEq

/-- The word for a kind of declaration. -/
def kindWord : Script.DeclarationKind → Text
  | .classDefinition => "class".toList
  | .function => "function".toList
  | .statement => "statement".toList
  | .importation => "import".toList

/-- What the file of a module exports. A file that cannot be read exports nothing. -/
def exportsOfFile [CharacterNames] (disk : Disk) (file : Text) :
    Except Fault (Entries Script.DeclarationKind) :=
  match disk.readReplacing file with
  | .ok source => Script.exportsOf source
  | .error _ => .ok []

/-- Resolves a module on the load path. Its exports are in code point order. -/
def LoadPath.resolve? [CharacterNames] (disk : Disk) (loadPath : LoadPath) (name : Text) :
    Except Fault (Option Resolved) :=
  match loadPath.moduleFile? disk name with
  | none => .ok none
  | some file =>
    (exportsOfFile disk file).map fun symbols =>
      let symbols := symbols.mergeSort fun a b => Text.le a.1 b.1
      some { name, path := file,
             exports := symbols.map fun (symbol, kind) => (symbol, { name := symbol, kind := kindWord kind }) }

end Caret.Modules
