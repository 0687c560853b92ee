import Caret.Modules.Index
import Caret.Script.Outline

/-!
# The index of classes

The qualified names of the classes in some libraries, in code point order, with look-ups by the start
of the qualified name, by its simple name, and by package.
-/

namespace Caret.Classes

/-- The part of a qualified name behind its last dot. -/
def simpleName (qualified : Text) : Text :=
  Text.afterLast '.' qualified

/-- The part of a qualified name before its last dot; all of it if there is none. -/
def packageName (qualified : Text) : Text :=
  Text.beforeLast '.' qualified

/-- Qualified names in code point order, and the same names grouped by their simple names. -/
structure Index where
  names : Modules.Index := {}
  bySimpleName : Entries (List Text) := []

namespace Index

/-- Adds a qualified name to the group of its simple name. -/
def group (groups : Entries (List Text)) (qualified : Text) : Entries (List Text) :=
  let simple := simpleName qualified
  Entries.insert simple ((Entries.get? groups simple).getD [] ++ [qualified]) groups

/-- The index of some qualified names. -/
def ofNames (names : List Text) : Index :=
  let index := Modules.Index.ofNames names
  ⟨index, index.names.foldl group []⟩

/-- The classes whose qualified names start with a text. -/
def startingWith (index : Index) (text : Text) : List Text :=
  index.names.startingWith text

/-- The classes whose qualified names hold a text. -/
def holding (index : Index) (text : Text) : List Text :=
  index.names.names.filter (Text.occursIn text)

/-- The classes of a package, given with white space around it or dots behind it. -/
def ofPackage (index : Index) (package : Text) : List Text :=
  let package := Text.dropEndWhile (· == '.') (Text.trim package)
  if package.isEmpty then []
  else (index.startingWith (package ++ ['.'])).filter fun name => packageName name == package

/-- The classes of a simple name. -/
def named (index : Index) (simple : Text) : List Text :=
  (Entries.get? index.bySimpleName simple).getD []

/-- The classes whose simple names start with a text, in the order of the simple names. -/
def simplyStartingWith (index : Index) (text : Text) : List Text :=
  ((index.bySimpleName.filter fun (simple, _) => Text.startsWith simple text).mergeSort
    fun a b => Text.le a.1 b.1).flatMap (·.2)

end Index

/-- The qualified names of the classes in a library. If the library cannot be read to its end, those
found before that. -/
def inLibrary [CharacterNames] (disk : Files.Disk) (location : Text) : List Text :=
  (Modules.sources disk location).1.flatMap fun (module, source) =>
    (Script.classNames source).map fun name => module ++ '.' :: name

/-- The index of the classes in some libraries. -/
def indexOf [CharacterNames] (disk : Files.Disk) (locations : List Text) : Index :=
  .ofNames (locations.flatMap (inLibrary disk))

end Caret.Classes
