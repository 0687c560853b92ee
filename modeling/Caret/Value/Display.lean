import Caret.Fault
import Caret.Text.Quoted
import Caret.Value.Basic

/-!
# Values in words

How a value reads in running text: a text as itself, everything else as it would be written inside a
list, where texts are quoted. An integer with too many digits cannot be written, nor can anything
that holds one.
-/

namespace Caret.Value

mutual

/-- Whether a value can be written: no integer in it has too many digits. -/
def isWritable : Value → Bool
  | .int i => i.natAbs < Nat.pow 10 Text.maxDigits
  | .list items => areWritable items
  | .object members => areWritableIn members
  | _ => true

/-- Whether all items of a list can be written. -/
def areWritable : List Value → Bool
  | [] => true
  | x :: xs => isWritable x && areWritable xs

/-- Whether the values of all members of an object can be written. -/
def areWritableIn : List (Text × Value) → Bool
  | [] => true
  | (_, value) :: rest => isWritable value && areWritableIn rest

end

mutual

/-- A value as an item of a list. -/
def shown : Value → Text
  | .null => "None".toList
  | .bool b => (if b then "True" else "False").toList
  | .int i => Text.ofInt i
  | .real x => x.display
  | .text t => Text.quoted t
  | .list items => '[' :: Text.join ", ".toList (shownItems items) ++ [']']
  | .object members => '{' :: Text.join ", ".toList (shownMembers members) ++ ['}']

/-- The items of a list. -/
def shownItems : List Value → List Text
  | [] => []
  | x :: xs => shown x :: shownItems xs

/-- The members of an object. -/
def shownMembers : List (Text × Value) → List Text
  | [] => []
  | (key, value) :: rest => (Text.quoted key ++ ": ".toList ++ shown value) :: shownMembers rest

end

/-- A value in running text. -/
def display : Value → Except Fault Text
  | .text t => .ok t
  | value => if value.isWritable then .ok (shown value) else .error .badValue

/-- A value in running text, nothing at all for one that counts as false. -/
def displayTrue (value : Value) : Except Fault Text :=
  if value.isTrue then display value else .ok []

/-- What kind of value this is, in a message. -/
def kindName : Value → Text
  | .null => "NoneType".toList
  | .bool _ => "bool".toList
  | .int _ => "int".toList
  | .real _ => "float".toList
  | .text _ => "str".toList
  | .list _ => "list".toList
  | .object _ => "dict".toList

end Caret.Value
