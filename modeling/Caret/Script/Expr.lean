import Caret.Script.Token

/-!
# Expressions

The shape of an expression, as far as it decides what a script declares: what can be assigned to,
which names an assignment binds, and which expressions are literals. Everything else is opaque to
the library and kept as `computed`.
-/

namespace Caret.Script

/-- An expression. -/
inductive Expr where
  | name (id : Text)
  | none
  | bool (b : Bool)
  | ellipsis
  | number (value : Numeral)
  | text (value : Text)
  | bytes (value : Text)
  | tuple (items : List Expr)
  | list (items : List Expr)
  | set (items : List Expr)
  | dict (keys values : List Expr)
  | starred (item : Expr)
  | attribute (base : Expr) (name : Text)
  | subscript (base : Expr)
  | call (function : Expr) (bare : Bool)
  | unary (symbol : Text) (operand : Expr)
  | binary (symbol : Text) (left right : Expr)
  | computed

namespace Expr

/-- Whether an expression can be assigned to by itself: a name, an attribute or a subscript. -/
def isSingleTarget : Expr → Bool
  | .name _ | .attribute .. | .subscript _ => true
  | _ => false

mutual

/-- Whether an expression can stand on the left of an assignment, where an item may be starred. -/
def isTarget : Expr → Bool
  | .name _ | .attribute .. | .subscript _ => true
  | .tuple items | .list items => areTargets items
  | .starred item => isTarget item
  | _ => false

/-- Whether all of some expressions can be assigned to. -/
def areTargets : List Expr → Bool
  | [] => true
  | item :: items => isTarget item && areTargets items

end

mutual

/-- Whether an expression can be deleted. -/
def isDeletable : Expr → Bool
  | .name _ | .attribute .. | .subscript _ => true
  | .tuple items | .list items => areDeletable items
  | _ => false

/-- Whether all of some expressions can be deleted. -/
def areDeletable : List Expr → Bool
  | [] => true
  | item :: items => isDeletable item && areDeletable items

end

mutual

/-- The names that an assignment to an expression declares: the expression itself, or the items of a
tuple or list at any depth. -/
def declared : Expr → List Text
  | .name id => if isName id then [id] else []
  | .tuple items | .list items => declaredAll items
  | _ => []

/-- The names that an assignment to several expressions declares. -/
def declaredAll : List Expr → List Text
  | [] => []
  | item :: items => declared item ++ declaredAll items

end

end Expr

end Caret.Script
