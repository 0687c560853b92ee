import Caret.Modules.Scan

/-!
# Sorted indexes of names

The distinct names of a library in code point order. The names that start with a text then stand
together, so they are found by a search for the first one that is not below the text.
-/

namespace Caret.Modules

/-- The first position between `low` and `high` from which on sorted names are not below a text. The
stretch is halved until nothing is left of it. -/
def bisect (names : Array Text) (text : Text) : Nat → Nat → Nat → Nat
  | 0, low, _ => low
  | fuel + 1, low, high =>
    if low < high then
      let middle := (low + high) / 2
      match names[middle]? with
      | some name =>
        if Text.le text name then bisect names text fuel low middle
        else bisect names text fuel (middle + 1) high
      | none => low
    else low

/-- Names in code point order, without repetition. -/
structure Index where
  names : List Text := []
  deriving DecidableEq

namespace Index

/-- The index of some names. -/
def ofNames (names : List Text) : Index :=
  ⟨Text.sortedSet names⟩

/-- The position of the first name that is not below a text. -/
def position (index : Index) (text : Text) : Nat :=
  bisect index.names.toArray text (index.names.length + 1) 0 index.names.length

/-- The names that start with a text. -/
def startingWith (index : Index) (text : Text) : List Text :=
  (index.names.drop (index.position text)).takeWhile (Text.startsWith · text)

/-- Whether a name is in the index. -/
def has (index : Index) (name : Text) : Bool :=
  index.names[index.position name]? == some name

end Index

/-- The index of a library's modules. A library that cannot be read has none. -/
def indexOf (disk : Files.Disk) (location : Text) : Index :=
  match inLibrary disk location with
  | .ok names => .ofNames names
  | .error _ => {}

end Caret.Modules
