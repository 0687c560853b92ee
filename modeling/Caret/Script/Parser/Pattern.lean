import Caret.Script.Parser.Expression

/-!
# Patterns from tokens

The patterns of a `case`. Only whether they are well formed matters, so a pattern has no value.
-/

namespace Caret.Script.Parser

variable [CharacterNames]

section

variable (n : Nat) (pattern : Parser Unit)

/-- Whether the next token keeps a name from being captured: it would go on as a dotted name, a
class or a keyword. -/
def isNameContinued : Parser Bool := do
  return (← isNext (sym ".")) || (← isNext (sym "(")) || (← isNext (sym "="))

/-- A name that is bound by a pattern. -/
def capture : Parser Unit := do
  if ← isNext (.name ['_']) then fail
  else
    let _ ← name
    if ← isNameContinued then fail

/-- Takes the sign of a sum or a difference if one comes next. -/
def sumSign : Parser Bool := do
  if ← accept (sym "+") then return true else accept (sym "-")

/-- A number with an optional sign, or the sum of a real and an imaginary one. -/
def patternNumber : Parser Unit := do
  let _ ← accept (sym "-")
  match ← take with
  | .number first =>
    if ← sumSign then
      match first, ← take with
      | .imaginary _, _ => fail
      | _, .number (.imaginary _) => return ()
      | _, _ => fail
  | _ => fail

/-- A literal in a pattern. -/
def patternLiteral : Parser Unit := do
  match ← peek with
  | some (.number _) => patternNumber
  | some (.string _) =>
    let _ ← strings n (expression n) (primary n)
  | some (.keyword word) =>
    let _ ← take
    if ["None", "True", "False"].any (·.toList == word) then return () else fail
  | some (.symbol s) => if s = "-".toList then patternNumber else fail
  | _ => fail

/-- The names after the first in a dotted name: how many there are. -/
def dottedRest : Parser Nat := do
  let names ← many (do
    if ← accept (sym ".") then return some (← name) else return none) n
  return names.length

/-- A pattern, or a starred name in a sequence; says whether it is starred. -/
def starPattern : Parser Bool := do
  if ← accept (sym "*") then
    if ← accept (.name ['_']) then return true
    else
      capture
      return true
  else
    pattern
    return false

/-- One pattern inside the parentheses of a class, allowed at a stage, and the stage after it: none
yet, patterns by position, or by keyword. Behind patterns by position a wildcard is none of the
keywords. -/
def classPattern (stage? : Option Stage) : Parser Stage := do
  let wildcard ← isNext (.name ['_'])
  if ← isNameBefore "=" then
    let _ ← take
    let _ ← take
    pattern
    match stage? with
    | some .position => if wildcard then fail else return .byName
    | _ => return .byName
  else
    pattern
    match stage? with
    | some .byName => fail
    | _ => return .position

/-- The patterns inside the parentheses of a class, those by keyword last. -/
def classPatterns : Nat → Option Stage → Parser Unit
  | 0, _ => fail
  | k + 1, stage? => do
    if ← accept (sym ")") then return ()
    else
      let stage ← classPattern pattern stage?
      if ← accept (sym ",") then classPatterns k (some stage) else expect (sym ")")

/-- One item of a mapping; says whether it takes the rest of the mapping. -/
def mappingItem : Parser Bool := do
  if ← accept (sym "**") then
    capture
    return true
  else
    match ← peek with
    | some (.name _) =>
      let _ ← take
      if (← dottedRest n) = 0 then fail
    | _ => patternLiteral n
    expect (sym ":")
    pattern
    return false

/-- The items of a mapping and the closing brace. What takes the rest comes last. -/
def mappingItems : Nat → Parser Unit
  | 0 => fail
  | k + 1 => do
    if ← accept (sym "\x7d") then return ()
    else
      let rest ← mappingItem n pattern
      let comma ← accept (sym ",")
      if comma && !rest then mappingItems k else expect (sym "\x7d")

/-- A pattern without alternatives. -/
def closedPattern : Parser Unit := do
  match ← peek with
  | some (.name spelling) =>
    let _ ← take
    if spelling = ['_'] then return ()
    else
      let _ ← dottedRest n
      if ← accept (sym "(") then classPatterns pattern n none
      else if ← isNext (sym "=") then fail
  | some (.symbol s) =>
    if s = "(".toList then
      let _ ← take
      let (items, ended) ← commaList (starPattern pattern) n
      expect (sym ")")
      match items, ended with
      | [true], false => fail
      | _, _ => return ()
    else if s = "[".toList then
      let _ ← take
      let _ ← commaList (starPattern pattern) n
      expect (sym "]")
    else if s = "\x7b".toList then
      let _ ← take
      mappingItems n pattern n
    else patternLiteral n
  | _ => patternLiteral n

/-- Alternatives, perhaps bound to a name. -/
def boundPattern : Parser Unit := do
  let _ ← sepBy (closedPattern n pattern) (sym "|") n
  if ← accept (kw "as") then capture

end

/-- A pattern, nested to a depth. -/
def patternAt (n : Nat) : Nat → List Token → Option (Unit × List Token)
  | 0, _ => none
  | depth + 1, tokens => boundPattern n (patternAt n depth) tokens

/-- The pattern of a `case`: one pattern, or several in a sequence. -/
def casePattern (n : Nat) : Parser Unit := do
  match ← commaList (starPattern (patternAt n n)) n with
  | ([], _) => fail
  | ([true], false) => fail
  | _ => return ()

end Caret.Script.Parser
