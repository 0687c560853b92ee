import Caret.Text.Space
import Caret.Text.Integer
import Caret.Text.Entries
import Caret.Value.Binary64

/-!
# Values

The data that settings are made of: null, truth values, numbers, texts, lists and objects. An object
keeps its members in the order in which their keys were first written; writing a key again replaces
the value and keeps the place.
-/

namespace Caret

/-- A settings value. -/
inductive Value where
  | null
  | bool (b : Bool)
  | int (i : Int)
  | real (x : Binary64)
  | text (t : Text)
  | list (items : List Value)
  | object (members : List (Text × Value))

/-- The members of an object, in order. -/
abbrev Members := Entries Value

namespace Value

/-- The members of a value that is an object. -/
def members? : Value → Option Members
  | .object members => some members
  | _ => none

/-- Whether a value counts as true: everything but null, false, zero and what is empty. -/
def isTrue : Value → Bool
  | .null => false
  | .bool b => b
  | .int i => i != 0
  | .real x => !x.isZero
  | .text t => !t.isEmpty
  | .list items => !items.isEmpty
  | .object members => !members.isEmpty

/-- The number that a truth value or an integer stands for. -/
def integer? : Value → Option Int
  | .bool b => some (if b then 1 else 0)
  | .int i => some i
  | _ => none

/-- Equality of values that are not lists or objects. Numbers are compared by value, truth values
being the numbers zero and one. -/
def sameScalar : Value → Value → Bool
  | .null, .null => true
  | .text t, .text t' => t == t'
  | .real x, .real y => x.same y
  | .real x, y => y.integer?.any x.sameInt
  | x, .real y => x.integer?.any y.sameInt
  | x, y =>
    match x.integer?, y.integer? with
    | some i, some j => i == j
    | _, _ => false

mutual

/-- Equality of values: numbers by value, lists item by item, objects without regard to order. -/
def same : Value → Value → Bool
  | .list items, .list others => sameItems items others
  | .object members, .object others =>
    members.length == others.length && sameMembers members others
  | x, y => sameScalar x y

/-- Equality of lists, item by item. -/
def sameItems : List Value → List Value → Bool
  | [], [] => true
  | x :: xs, y :: ys => same x y && sameItems xs ys
  | _, _ => false

/-- Whether each member has an equal one of the same key in another object. -/
def sameMembers : List (Text × Value) → Members → Bool
  | [], _ => true
  | (key, value) :: rest, others =>
    (match Entries.get? others key with
      | some other => same value other
      | none => false) && sameMembers rest others

end

end Value

end Caret
