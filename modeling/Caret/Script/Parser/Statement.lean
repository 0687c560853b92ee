import Caret.Script.Parser.Pattern
import Caret.Script.Statement

/-!
# Statements from tokens

The statement grammar. A block of statements inside a statement is only checked; at the top level
each statement is kept with its tokens. A script is well formed if its tokens are used up.
-/

namespace Caret.Script.Parser

variable [CharacterNames]

/-! ### Simple statements -/

/-- The value of an assignment: what is yielded, or expressions. -/
def assigned (n : Nat) : Parser Expr := do
  if ← isNext (kw "yield") then yielded n (expression n) (primary n) else expressions n

/-- The symbols that assign the result of an operation. -/
def updates : List Text :=
  ["+=", "-=", "*=", "@=", "/=", "%=", "&=", "|=", "^=", "<<=", ">>=", "**=", "//="].map
    String.toList

/-- The rest of an assignment to several targets, after an equals sign. -/
def assignments (n : Nat) : Nat → List Expr → Parser Action
  | 0, _ => fail
  | k + 1, targets => do
    let yields ← isNext (kw "yield")
    let value ← assigned n
    if ← accept (sym "=") then
      if yields || !value.isTarget then fail else assignments n k (targets ++ [value])
    else return .assign targets value

/-- A single target in parentheses that does not end before a colon. -/
def groupGoingOn (n : Nat) : Parser Unit := do
  expect (sym "(")
  let e ← primary n
  expect (sym ")")
  if !e.isSingleTarget || (← isNext (sym ":")) then fail

/-- An expression statement or one of the forms of assignment. A target that starts with a group of
one takes no annotation unless it is that group. -/
def expressionStatement (n : Nat) : Parser Action := do
  let goesOn ← succeeds (groupGoingOn n)
  let first ← expressions n
  match ← peek with
  | some (.symbol s) =>
    if s = ":".toList then
      let _ ← take
      if goesOn || !first.isSingleTarget then fail
      else
        let _ ← expression n
        if ← accept (sym "=") then
          let _ ← assigned n
        return .annotate first
    else if s = "=".toList then
      let _ ← take
      if first.isTarget then assignments n n [first] else fail
    else if updates.contains s then
      let _ ← take
      if !first.isSingleTarget then fail
      else
        let _ ← assigned n
        return .other
    else return .evaluate first
  | _ => return .evaluate first

/-- A dotted name. -/
def dottedName (n : Nat) : Parser Text := do
  return Text.join ['.'] (← sepBy name (sym ".") n)

/-- A name to bind to, if one is asked for. -/
def boundName : Parser (Option Text) := do
  if ← accept (kw "as") then return some (← name) else return none

/-- Imports of modules. -/
def importModules (n : Nat) : Parser Action := do
  let modules ← sepBy (do return { name := ← dottedName n, bound := ← boundName : Alias }) (sym ",") n
  return .importModules modules

/-- The dots in front of a module: how many levels they go up. -/
def importLevel (n : Nat) : Parser Nat := do
  let dots ← many (do
    if ← accept (sym ".") then return some 1
    else if ← accept (sym "...") then return some 3
    else return none) n
  return dots.foldr (· + ·) 0

/-- A name to import from a module. -/
def importedName : Parser Alias := do
  return { name := ← name, bound := ← boundName }

/-- The names to import from a module: in parentheses, by themselves, or all of them. -/
def importedNames (n : Nat) : Parser (List Alias) := do
  if ← accept (sym "*") then return [{ name := ['*'] }]
  else if ← accept (sym "(") then
    match ← commaList importedName n with
    | ([], _) => fail
    | (names, _) =>
      expect (sym ")")
      return names
  else
    let names ← sepBy importedName (sym ",") n
    return names

/-- Imports from a module. -/
def importFrom (n : Nat) : Parser Action := do
  let level ← importLevel n
  let named ← isNext (kw "import")
  if named && level = 0 then fail
  else
    let module? ← if named then pure none else some <$> dottedName n
    expect (kw "import")
    return .importFrom level module? (← importedNames n)

/-- A statement that ends with its line. -/
def simpleStatement (n : Nat) : Parser Action := do
  match ← peek with
  | some (.keyword word) =>
    if word = "import".toList then
      let _ ← take
      importModules n
    else if word = "from".toList then
      let _ ← take
      importFrom n
    else if ["pass", "break", "continue"].any (·.toList == word) then
      let _ ← take
      return .other
    else if word = "return".toList then
      let _ ← take
      let _ ← optional (expressions n)
      return .other
    else if word = "raise".toList then
      let _ ← take
      match ← optional (expression n) with
      | some _ =>
        if ← accept (kw "from") then
          let _ ← expression n
      | none => pure ()
      return .other
    else if word = "global".toList ∨ word = "nonlocal".toList then
      let _ ← take
      let _ ← sepBy name (sym ",") n
      return .other
    else if word = "del".toList then
      let _ ← take
      let e ← tupleOf n (primary n)
      if e.isDeletable then return .other else fail
    else if word = "yield".toList then
      let _ ← yielded n (expression n) (primary n)
      return .other
    else if word = "assert".toList then
      let _ ← take
      let _ ← expression n
      if ← accept (sym ",") then
        let _ ← expression n
      return .other
    else expressionStatement n
  | _ => expressionStatement n

/-- Simple statements on one line, with semicolons between them. -/
def simpleLine {α : Type} (statement : Parser α) : Nat → Parser (List α)
  | 0 => fail
  | k + 1 => do
    let first ← statement
    if ← accept (sym ";") then
      if ← accept .newline then return [first]
      else return first :: (← simpleLine statement k)
    else
      expect .newline
      return [first]

/-! ### Compound statements -/

section

variable (n : Nat) (block : Parser Unit)

/-- A colon and a block. -/
def suite : Parser Unit := do
  expect (sym ":")
  block

/-- A block after `else`, if there is one. -/
def elseSuite : Parser Unit := do
  if ← accept (kw "else") then suite block

/-- A condition with its block, then further conditions and a block for the rest. -/
def ifStatement : Parser Unit := do
  let branch : Parser Unit := do
    let _ ← named (expression n)
    suite block
  branch
  let _ ← many (do
    if ← accept (kw "elif") then return some (← branch) else return none) n
  elseSuite block

/-- A loop over targets. -/
def forStatement : Parser Unit := do
  let _ ← targets n (primary n)
  expect (kw "in")
  let _ ← expressions n
  suite block
  elseSuite block

/-- One context manager. -/
def withItem : Parser Unit := do
  let _ ← expression n
  if ← accept (kw "as") then
    let _ ← target (primary n)

/-- Context managers, perhaps in parentheses, and the colon after them. -/
def withHeader : Parser Unit := do
  let inParentheses : Parser Unit := do
    expect (sym "(")
    match ← commaList (withItem n) n with
    | ([], _) => fail
    | _ =>
      expect (sym ")")
      expect (sym ":")
  match ← optional inParentheses with
  | some _ => return ()
  | none =>
    let _ ← sepBy (withItem n) (sym ",") n
    expect (sym ":")

/-- A statement with context managers. -/
def withStatement : Parser Unit := do
  withHeader n
  block

/-- A handler after `except`; says whether it is for groups. -/
def handler : Parser Bool := do
  let group ← accept (sym "*")
  if !group && (← isNext (sym ":")) then suite block
  else
    let _ ← expression n
    let _ ← boundName
    suite block
  return group

/-- A block with handlers, a block for success, and a final block. The handlers are all of one
sort, and without one there is a final block. -/
def tryStatement : Parser Unit := do
  suite block
  let handlers ← many (do
    if ← accept (kw "except") then return some (← handler n block) else return none) n
  if handlers.isEmpty then
    expect (kw "finally")
    suite block
  else if handlers.all (· == true) || handlers.all (· == false) then
    elseSuite block
    if ← accept (kw "finally") then suite block
  else fail

/-- A class after its keyword. -/
def classStatement : Parser Action := do
  let id ← name
  if ← accept (sym "(") then arguments n (expression n) false (primary n)
  suite block
  return .defineClass id

/-- A function after its keyword. -/
def functionStatement : Parser Action := do
  let id ← name
  expect (sym "(")
  parameters n (expression n) true (sym ")") (primary n) n (.positional false false false)
  expect (sym ")")
  if ← accept (sym "->") then
    let _ ← expression n
  suite block
  return .defineFunction id

/-- A case of a `match`. -/
def caseBlock : Parser Unit := do
  spelled "case"
  casePattern n
  if ← accept (kw "if") then
    let _ ← named (expression n)
  suite block

/-- The line that opens a `match`. -/
def matchHeader : Parser Unit := do
  spelled "match"
  let subject ← tupleOf n (starOr (bitwise n (primary n)) (named (expression n)))
  if isStarred subject then fail
  else
    expect (sym ":")
    expect .newline
    expect .indent

/-- A `match` after the line that opens it. -/
def matchCases : Parser Unit := do
  caseBlock n block
  let _ ← many (do
    if ← accept .dedent then return none
    else
      caseBlock n block
      return some ()) n

/-- A statement that starts with a keyword and holds blocks; `none` if no such statement starts
here. -/
def keywordStatement : Parser (Option Action) := do
  match ← peek with
  | some (.keyword word) =>
    if word = "if".toList then
      let _ ← take
      ifStatement n block
      return some .other
    else if word = "while".toList then
      let _ ← take
      let _ ← named (expression n)
      suite block
      elseSuite block
      return some .other
    else if word = "for".toList then
      let _ ← take
      forStatement n block
      return some .other
    else if word = "with".toList then
      let _ ← take
      withStatement n block
      return some .other
    else if word = "try".toList then
      let _ ← take
      tryStatement n block
      return some .other
    else if word = "class".toList then
      let _ ← take
      return some (← classStatement n block)
    else if word = "def".toList then
      let _ ← take
      return some (← functionStatement n block)
    else if word = "async".toList then
      let _ ← take
      if ← accept (kw "def") then return some (← functionStatement n block)
      else if ← accept (kw "for") then
        forStatement n block
        return some .other
      else
        expect (kw "with")
        withStatement n block
        return some .other
    else return none
  | _ => return none

/-- Decorators, each on its line; says whether there is one. -/
def decorators : Parser Bool := do
  let lines ← many (do
    if ← accept (sym "@") then
      let _ ← named (expression n)
      expect .newline
      return some ()
    else return none) n
  return !lines.isEmpty

/-- A class or a function behind its decorators. -/
def decorated : Parser Action := do
  if ← accept (kw "class") then classStatement n block
  else
    let _ ← accept (kw "async")
    expect (kw "def")
    functionStatement n block

/-- A statement that holds blocks; `none` if no such statement starts here. -/
def compoundStatement : Parser (Option Action) := do
  if ← decorators n then return some (← decorated n block)
  else
    match ← keywordStatement n block with
    | some action => return some action
    | none =>
      match ← optional (matchHeader n) with
      | some _ =>
        matchCases n block
        return some .other
      | none => return none

end

/-- A statement or a line of simple ones, only checked. -/
def checkedStatement (n : Nat) (block : Parser Unit) : Parser Unit := do
  match ← compoundStatement n block with
  | some _ => return ()
  | none =>
    let _ ← simpleLine (simpleStatement n) n

/-- A block: the rest of the line, or indented statements, nested to a depth. -/
def blockAt (n : Nat) : Nat → List Token → Option (Unit × List Token)
  | 0, _ => none
  | depth + 1, tokens =>
    (do
      if ← accept .newline then
        expect .indent
        let inner : Parser Unit := blockAt n depth
        checkedStatement n inner
        let _ ← many (do
          if ← accept .dedent then return none
          else
            checkedStatement n inner
            return some ()) n
      else
        let _ ← simpleLine (simpleStatement n) n : Parser Unit) tokens

/-- The tokens that a parser takes, beside its answer. -/
def withTokens {α : Type} (p : Parser α) : Parser (α × List Token) :=
  fun tokens =>
    match p tokens with
    | some (a, rest) => some ((a, tokens.take (tokens.length - rest.length)), rest)
    | none => none

/-- A simple statement with its tokens. -/
def keptSimple (n : Nat) : Parser Statement := do
  let (action, tokens) ← withTokens (simpleStatement n)
  return ⟨action, tokens⟩

/-- A statement at the top level, or several on one line. -/
def statement (n : Nat) : Parser (List Statement) := do
  match ← withTokens (compoundStatement n (blockAt n n)) with
  | (some action, tokens) => return [⟨action, tokens⟩]
  | (none, _) => simpleLine (keptSimple n) n

/-- The statements of a script whose tokens are used up. -/
def statements (n : Nat) : Nat → List Token → Option (List Statement)
  | _, [] => some []
  | 0, _ => none
  | k + 1, tokens =>
    match statement n tokens with
    | some (first, rest) => (statements n k rest).map (first ++ ·)
    | none => none

end Caret.Script.Parser

namespace Caret.Script

/-- The statements of a script, if it is well formed. -/
def parse? [CharacterNames] (source : Text) : Option (List Statement) :=
  match Lexer.tokens? source with
  | some tokens =>
    let n := 2 * source.length + 4
    Parser.statements n n tokens
  | none => none

end Caret.Script
