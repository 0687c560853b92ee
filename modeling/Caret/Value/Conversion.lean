import Caret.Fault
import Caret.Value.Basic

/-!
# What a value stands for

The integer that a value stands for: truth values and integers as they are, floating point numbers
without their fraction, and texts that write an integer. And the items of a value: those of a list,
the characters of a text, the keys of an object.
-/

namespace Caret.Value

/-- The integer that a value stands for. -/
def toInt : Value → Except Fault Int
  | .bool b => .ok (if b then 1 else 0)
  | .int i => .ok i
  | .real x =>
    match x with
    | .infinite _ => .error .overflow
    | .nan => .error .badValue
    | .finite .. =>
      match x.truncate? with
      | some i => .ok i
      | none => .error .badValue
  | .text t =>
    match Text.toInt? t with
    | some i => .ok i
    | none => .error .badValue
  | _ => .error .badType

/-- The integer that a value stands for, or another one for a value that stands for none. A value
that is too large is a fault. -/
def toIntOr (default : Int) (value : Value) : Except Fault Int :=
  match value.toInt with
  | .ok i => .ok i
  | .error .overflow => .error .overflow
  | .error _ => .ok default

/-- The items of a value. -/
def items : Value → Except Fault (List Value)
  | .list items => .ok items
  | .text t => .ok (t.map fun c => .text [c])
  | .object members => .ok (members.map fun (key, _) => .text key)
  | _ => .error .badType

end Caret.Value
