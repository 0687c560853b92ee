import Caret.Script.Outline
import Caret.Text.Line

/-!
# Where an import goes

A new import goes behind what has to stay at the top of a script: a line that names the interpreter,
a declaration of the encoding in the first two lines, and the text that documents the script. If
imports follow there, it goes behind them and behind the blank and comment lines after them.
-/

namespace Caret.Imports

/-- Whether a line declares an encoding. -/
def declaresEncoding : Text → Bool
  | [] => false
  | c :: cs =>
    ("coding".toList.isPrefixOf (c :: cs) && declared (cs.drop 5)) || declaresEncoding cs
where
  /-- Whether a sign and then the name of an encoding follow. -/
  declared : Text → Bool
    | sign :: rest =>
      (sign == ':' || sign == '=') &&
        ((rest.dropWhile Text.isSpace).head?).any fun c => c == '-' || c == '.' || Text.isWord c
    | [] => false

/-- The number of parentheses open after a line of code, comments left out, and whether the line
asks to be continued. More are never closed than were open. -/
def openAfter (depth : Nat) (line : Text) : Nat × Bool :=
  let code := Text.trimEnd (Text.beforeFirst '#' line)
  (depth + code.count '(' - code.count ')', Text.endsWith code ['\\'])

/-- Whether a line starts an import. -/
def startsImport (line : Text) : Bool :=
  let code := Text.trim line
  Text.startsWith code "import ".toList || Text.startsWith code "from ".toList

/-- Whether a line is blank or a comment. -/
def isIdle (line : Text) : Bool :=
  let code := Text.trim line
  code.isEmpty || Text.startsWith code ['#']

/-- How many lines belong to a block of imports: the imports, each with the lines that continue it,
and after the first one also blank and comment lines. `inside` is the number of parentheses open in
an import that goes on. -/
def importLines : Bool → Option Nat → List Text → Nat
  | _, _, [] => 0
  | found, inside, line :: rest =>
    if inside.isSome || startsImport line then
      let (depth, continued) := openAfter (inside.getD 0) line
      1 + importLines true (if depth = 0 ∧ !continued then none else some depth) rest
    else if found && isIdle line then 1 + importLines found none rest
    else 0

/-- The number of lines that stay at the top of a script whatever is imported. -/
def headLines (lines : List Text) (statements? : Option (List Script.Statement)) : Nat :=
  let interpreter := if (lines.head?).any (Text.startsWith · ['#', '!']) then 1 else 0
  let encoding :=
    if ((lines.drop 1).head?).any declaresEncoding then 2
    else if (lines.head?).any declaresEncoding then 1 else 0
  let documentation :=
    ((statements?.bind Script.documentation?).map (·.lastLine)).getD 0
  max (max interpreter encoding) documentation

/-- The number of lines behind which a new import goes. -/
def position (source : Text) (statements? : Option (List Script.Statement)) : Nat :=
  let lines := Text.lines source
  let head := if lines.isEmpty then 0 else headLines lines statements?
  head + importLines false none (lines.drop head)

end Caret.Imports
