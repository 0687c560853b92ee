import Caret.Script.Expr

/-!
# Statements

What a statement at the top level of a script does, as far as the library asks: what it declares and
what it imports. A statement keeps its tokens, so that two statements can be compared and the lines
that it stands on are known.
-/

namespace Caret.Script

/-- A name that is imported, and the name it is bound to when that is another one. -/
structure Alias where
  name : Text
  bound : Option Text := none
  deriving DecidableEq

/-- What a statement does. -/
inductive Action where
  | defineClass (name : Text)
  | defineFunction (name : Text)
  | assign (targets : List Expr) (value : Expr)
  | annotate (target : Expr)
  | importModules (modules : List Alias)
  | importFrom (level : Nat) (module? : Option Text) (names : List Alias)
  | evaluate (value : Expr)
  | other

/-- A statement at the top level, with its tokens. -/
structure Statement where
  action : Action
  tokens : List Token

namespace Statement

/-- The line on which a statement starts, counted from one. -/
def firstLine (statement : Statement) : Nat :=
  (statement.tokens.head?.map (·.firstLine)).getD 0

/-- The line on which a statement's last token ends. -/
def lastLine (statement : Statement) : Nat :=
  (statement.tokens.getLast?.map (·.lastLine)).getD 0

/-- What a statement says, whatever lines it stands on. -/
def lexemes (statement : Statement) : List Lexeme :=
  statement.tokens.map (·.lexeme)

end Statement

end Caret.Script
