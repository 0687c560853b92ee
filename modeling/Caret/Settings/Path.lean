import Caret.Fault
import Caret.Value.Basic

/-!
# Settings by path

A setting is named by the keys that lead to it, written with dots between them. Reading follows the
keys through objects; writing puts objects in the place of whatever else is in the way. Defaults are
filled in where nothing is set, inside objects too.
-/

namespace Caret.Settings

/-- The value at a path below a value. -/
def get? : Value → List Text → Option Value
  | value, [] => some value
  | .object members, key :: rest => (Entries.get? members key).bind (get? · rest)
  | _, _ :: _ => none

/-- Sets the value at a path below an object. -/
def set (members : Members) (first : Text) (rest : List Text) (value : Value) : Members :=
  match rest with
  | [] => Entries.insert first value members
  | key :: more =>
    let inner := match Entries.get? members first with
      | some (.object inner) => inner
      | _ => []
    Entries.insert first (.object (set inner key more value)) members

/-- The keys of a dotted key. An empty key has none. -/
def path (key : Text) : List Text :=
  if key.isEmpty then [] else Text.splitOn '.' key

/-- The value at a dotted key, or a default. -/
def getDotted (data : Value) (key : Text) (default : Value) : Value :=
  (get? data (path key)).getD default

/-- Sets the value at a dotted key. -/
def setDotted (data : Members) (key : Text) (value : Value) : Except Fault Members :=
  match path key with
  | [] => .error .emptyKey
  | first :: rest => .ok (set data first rest value)

mutual

/-- A value with defaults filled in where both are objects. -/
def filled (value : Value) : Value → Value
  | .object defaults =>
    match value with
    | .object members => .object (fill members defaults)
    | _ => value
  | _ => value

/-- An object with defaults filled in. -/
def fill (members : Members) : List (Text × Value) → Members
  | [] => members
  | (key, default) :: rest =>
    match Entries.get? members key with
    | none => fill (Entries.insert key default members) rest
    | some value => fill (Entries.insert key (filled value default) members) rest

end

end Caret.Settings
