import Caret.Fault
import Caret.Script.Expr
import Caret.Text.Integer

/-!
# Literals

The expressions whose value can be read off: constants, signed numbers, the sum of a real and an
imaginary number, and tuples, lists, sets and dictionaries of such expressions. The items of a set
and the keys of a dictionary must be values that never change; of the values under equal keys the last
one stays. Items are read one after the other, and the first one that has no value decides.
-/

namespace Caret.Script

/-- The value of a literal. -/
inductive Literal where
  | none
  | bool (b : Bool)
  | ellipsis
  | integer (i : Int)
  | real (x : Binary64)
  | complex (real imaginary : Binary64)
  | text (value : Text)
  | bytes (value : Text)
  | tuple (items : List Literal)
  | list (items : List Literal)
  | set (items : List Literal)
  | dict (keys values : List Literal)

namespace Literal

mutual

/-- Whether a value never changes, so that it can be an item of a set or a key. -/
def isFixed : Literal → Bool
  | .tuple items => areFixed items
  | .list _ | .set _ | .dict .. => false
  | _ => true

/-- Whether all of some values never change. -/
def areFixed : List Literal → Bool
  | [] => true
  | item :: items => isFixed item && areFixed items

end

/-- Equality of numbers by their value, whatever their kinds. -/
def sameNumber : Literal → Literal → Bool
  | .integer i, .integer j => i == j
  | .integer i, .real x | .real x, .integer i => x.sameInt i
  | .integer i, .complex x y | .complex x y, .integer i => x.sameInt i && y.isZero
  | .real x, .real y => x.same y
  | .real r, .complex x y | .complex x y, .real r => x.same r && y.isZero
  | .complex x y, .complex x' y' => x.same x' && y.same y'
  | _, _ => false

/-- A value, with a truth value as the number that it counts as. -/
def counted : Literal → Literal
  | .bool b => .integer b.toNat
  | value => value

mutual

/-- Equality of values that never change. -/
def same : Literal → Literal → Bool
  | .none, .none | .ellipsis, .ellipsis => true
  | .text value, .text value' | .bytes value, .bytes value' => value == value'
  | .tuple items, .tuple items' => areSame items items'
  | value, value' => sameNumber value.counted value'.counted

/-- Equality of values one by one. -/
def areSame : List Literal → List Literal → Bool
  | [], [] => true
  | item :: items, item' :: items' => same item item' && areSame items items'
  | _, _ => false

end

mutual

/-- Whether a value can be written in running text: no integer in it has too many digits. -/
def isWritable : Literal → Bool
  | .integer i => i.natAbs < Nat.pow 10 Text.maxDigits
  | .tuple items | .list items | .set items => areWritable items
  | .dict keys values => areWritable keys && areWritableUnder keys values
  | _ => true

/-- Whether all of some values can be written in running text. -/
def areWritable : List Literal → Bool
  | [] => true
  | item :: items => isWritable item && areWritable items

/-- Whether the values that stay under some keys can be written in running text. A value stays if no
equal key comes after its own. -/
def areWritableUnder : List Literal → List Literal → Bool
  | key :: keys, item :: items =>
    (keys.any (key.same ·) || isWritable item) && areWritableUnder keys items
  | _, _ => true

end

/-- The identifier that a value reads as in running text, where it reads as one. Besides texts these
are the constants with a name and the positive infinities. -/
def identifier? : Literal → Option Text
  | .text value => some value
  | .none => some "None".toList
  | .bool true => some "True".toList
  | .bool false => some "False".toList
  | .ellipsis => some "Ellipsis".toList
  | .real (.infinite false) => some "inf".toList
  | .complex (.finite false 0 _) (.infinite false) => some "infj".toList
  | _ => Option.none

/-- The items of a list or tuple. -/
def items? : Literal → Option (List Literal)
  | .tuple items | .list items => some items
  | _ => Option.none

/-- The identifiers among some values in running text. There are none to be had if one
of the values cannot be written. -/
def identifiers (items : List Literal) : Except Fault (List Text) :=
  if areWritable items then .ok (items.filterMap (·.identifier?)) else .error .badValue

end Literal

/-- What is read off an expression: nothing where it is no literal, and a fault where a number in it
is too large for the sum that it stands in. -/
abbrev Reading (α : Type) := ExceptT Fault Option α

namespace Reading

/-- The expression is no literal. -/
def refused {α : Type} : Reading α :=
  (Option.none : Option (Except Fault α))

/-- The values of items. -/
def all : List (Reading Literal) → Reading (List Literal)
  | [] => return []
  | item :: items => do
    let value ← item
    return value :: (← all items)

/-- The values of items that must never change. -/
def allFixed : List (Reading Literal) → Reading (List Literal)
  | [] => return []
  | item :: items => do
    let value ← item
    if value.isFixed then return value :: (← allFixed items) else refused

/-- The values of keys, which must never change, and of what stands under them. -/
def allUnder : List (Reading Literal) → List (Reading Literal) → Reading (List Literal × List Literal)
  | key :: keys, item :: items => do
    let under ← key
    let value ← item
    if under.isFixed then
      let (unders, values) ← allUnder keys items
      return (under :: unders, value :: values)
    else refused
  | _, _ => return ([], [])

end Reading

namespace Expr

/-- A number by itself. -/
def number? : Expr → Option Literal
  | .number (.integer n) => some (.integer n)
  | .number (.real x) => some (.real x)
  | .number (.imaginary x) => some (.complex (.zero false) x)
  | _ => Option.none

/-- A number with the opposite sign. -/
def negated : Literal → Literal
  | .integer i => .integer (-i)
  | .real x => .real (opposite x)
  | .complex x y => .complex (opposite x) (opposite y)
  | value => value
where
  /-- The opposite of a floating point number. -/
  opposite : Binary64 → Binary64
    | .finite s m e => .finite (!s) m e
    | .infinite s => .infinite (!s)
    | .nan => .nan

/-- A number with at most one sign in front. -/
def signedNumber? : Expr → Option Literal
  | .unary symbol operand =>
    if symbol = ['+'] then operand.number?
    else if symbol = ['-'] then operand.number?.map negated
    else Option.none
  | e => e.number?

/-- The sum of a real number and an imaginary one. An integer must be within the range of real
numbers. -/
def complexSum? (symbol : Text) (left right : Literal) : Reading Literal :=
  match left, right with
  | .integer i, .complex _ y =>
    match Binary64.ofInt i with
    | .infinite _ => throw .overflow
    | x => sum x y
  | .real x, .complex _ y => sum x y
  | _, _ => .refused
where
  /-- A real number and an imaginary one with its sign. -/
  sum (x y : Binary64) : Reading Literal :=
    let part := if x.isZero then .zero false else x
    if symbol = ['+'] then return .complex part y else return .complex part (negated.opposite y)

mutual

/-- The value of a literal. -/
def literal? : Expr → Reading Literal
  | .none => return .none
  | .bool b => return .bool b
  | .ellipsis => return .ellipsis
  | .text value => return .text value
  | .bytes value => return .bytes value
  | .tuple items => do return .tuple (← Reading.all (readings items))
  | .list items => do return .list (← Reading.all (readings items))
  | .set items => do return .set (← Reading.allFixed (readings items))
  | .dict keys values => do
    let (keys, values) ← Reading.allUnder (readings keys) (readings values)
    return .dict keys values
  | .call (.name id) true => if id = "set".toList then return .set [] else .refused
  | .binary symbol left right =>
    if symbol = ['+'] ∨ symbol = ['-'] then
      match left.signedNumber?, right.number? with
      | some x, some y => complexSum? symbol x y
      | _, _ => .refused
    else .refused
  | e =>
    match e.signedNumber? with
    | some value => return value
    | Option.none => .refused

/-- What is read off each of several expressions. -/
def readings : List Expr → List (Reading Literal)
  | [] => []
  | item :: items => literal? item :: readings items

end

end Expr

end Caret.Script
