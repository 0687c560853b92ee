import Caret.Script.Expr
import Caret.Text.Compatibility

/-!
# Parsing over tokens

A parser takes tokens from the front of a list and answers with a value, or fails and takes nothing.
Loops are given fuel, which the number of tokens bounds: every round takes a token.

The depth of a script is idealised. A parser that runs on a stack gives up on brackets and blocks that
are nested too deeply for it, and this one never does. Nor does anything else here that follows data to
any depth: reading, writing and copying values, and walking through directories.
-/

namespace Caret.Script

/-- A parser over the tokens that are left. -/
abbrev Parser (α : Type) := StateT (List Token) Option α

namespace Parser

/-- Fails. -/
def fail {α : Type} : Parser α :=
  fun _ => none

/-- What the next token says, if there is one. -/
def peek : Parser (Option Lexeme) :=
  fun tokens => some (tokens.head?.map (·.lexeme), tokens)

/-- What the token after the next one says, if there is one. -/
def peekSecond : Parser (Option Lexeme) :=
  fun tokens => some ((tokens.drop 1).head?.map (·.lexeme), tokens)

/-- Takes the next token. -/
def take : Parser Lexeme
  | [] => none
  | token :: rest => some (token.lexeme, rest)

/-- Whether the next token says this. -/
def isNext (lexeme : Lexeme) : Parser Bool := do
  return (← peek) == some lexeme

/-- Takes a given token if it comes next, and says whether it did. -/
def accept (lexeme : Lexeme) : Parser Bool := do
  if ← isNext lexeme then
    let _ ← take
    return true
  else return false

/-- Takes a given token if it comes next and is allowed here, and says whether it did. -/
def acceptIf (allowed : Bool) (lexeme : Lexeme) : Parser Bool := do
  if allowed then accept lexeme else return false

/-- Takes a given token. -/
def expect (lexeme : Lexeme) : Parser Unit := do
  if ← accept lexeme then return () else fail

/-- A symbol as a lexeme. -/
def sym (text : String) : Lexeme :=
  .symbol text.toList

/-- A keyword as a lexeme. -/
def kw (word : String) : Lexeme :=
  .keyword word.toList

/-- Takes a name and answers what it stands for. -/
def name : Parser Text
  | ⟨.name spelling, _, _⟩ :: rest => some (Text.compatibilityForm spelling, rest)
  | _ => none

/-- Takes a name that is spelled in a certain way. -/
def spelled (word : String) : Parser Unit :=
  expect (.name word.toList)

/-- Tries a parser; where it fails, nothing is taken. -/
def optional {α : Type} (p : Parser α) : Parser (Option α) :=
  fun tokens =>
    match p tokens with
    | some (a, rest) => some (some a, rest)
    | none => some (none, tokens)

/-- Whether a parser would succeed here. Nothing is taken. -/
def succeeds {α : Type} (p : Parser α) : Parser Bool :=
  fun tokens => some ((p tokens).isSome, tokens)

/-- Repeats a parser until it answers `none`. -/
def many {α : Type} (p : Parser (Option α)) : Nat → Parser (List α)
  | 0 => fail
  | n + 1 => do
    match ← p with
    | none => return []
    | some a => return a :: (← many p n)

/-- One or more items with a symbol between each two. After the last item the symbol is left. -/
def sepBy {α : Type} (p : Parser α) (separator : Lexeme) (n : Nat) : Parser (List α) := do
  let first ← p
  let rest ← many (do
    if ← accept separator then return some (← p) else return none) n
  return first :: rest

/-- Zero or more items after each of which a comma may follow. The list ends where no comma
follows or no further item can be read; says also whether it ended in a comma. -/
def commaList {α : Type} (p : Parser α) : Nat → Parser (List α × Bool)
  | 0 => fail
  | n + 1 => do
    match ← optional p with
    | none => return ([], true)
    | some item =>
      if ← accept (sym ",") then
        let (items, ended) ← commaList p n
        return (item :: items, ended)
      else return ([item], false)

end Parser

end Caret.Script
