import Caret.Text.Basic

/-!
# Entries

Values under keys, in the order in which the keys were first entered. Entering a key again replaces
its value and keeps its place.
-/

namespace Caret

/-- Values under keys, in order. -/
abbrev Entries (α : Type) := List (Text × α)

namespace Entries

variable {α : Type}

/-- The value of a key. -/
def get? (entries : Entries α) (key : Text) : Option α :=
  List.lookup key entries

/-- Gives a key a value: in its place if it has one, else at the end. -/
def insert (key : Text) (value : α) : Entries α → Entries α
  | [] => [(key, value)]
  | (k, v) :: rest => if k = key then (key, value) :: rest else (k, v) :: insert key value rest

/-- Enters keys and values one after the other. -/
def insertAll (entries more : Entries α) : Entries α :=
  more.foldl (fun all (key, value) => insert key value all) entries

end Entries

end Caret
