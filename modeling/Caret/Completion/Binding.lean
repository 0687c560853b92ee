import Caret.Line.Context
import Caret.Script.Name

/-!
# A binding to infer the type of

The type of an expression is asked for through a name that a script binds to it. If the line being
typed is itself an assignment of the expression, the last name that it assigns is taken; otherwise
the line is replaced by an assignment of the expression to a name that occurs nowhere.
-/

namespace Caret.Completion

/-- The bracket that closes an opening one. -/
def closerOf? : Char → Option Char
  | '(' => some ')'
  | '[' => some ']'
  | '{' => some '}'
  | _ => none

/-- Puts a character in front of the first part. -/
def consFirst (c : Char) : List Text → List Text
  | [] => [[c]]
  | part :: parts => (c :: part) :: parts

/-- The parts of a text between the commas outside brackets and quotes, given the brackets due to be
closed and the quote that a string is waiting for. There are none if brackets or quotes stay open. -/
def splitWithin : List Char → Option Char → Text → Option (List Text)
  | due, quote, [] => if due.isEmpty && quote.isNone then some [[]] else none
  | due, some q, c :: cs =>
    (splitWithin due (if c = q then none else some q) cs).map (consFirst c)
  | due, none, c :: cs =>
    if Line.isQuote c then (splitWithin due (some c) cs).map (consFirst c)
    else
      match closerOf? c with
      | some closer => (splitWithin (closer :: due) none cs).map (consFirst c)
      | none =>
        if c = ')' ∨ c = ']' ∨ c = '}' then
          match due with
          | closer :: outer =>
            if c = closer then (splitWithin outer none cs).map (consFirst c) else none
          | [] => none
        else if c = ',' ∧ due = [] then (splitWithin due none cs).map ([] :: ·)
        else (splitWithin due none cs).map (consFirst c)

/-- The parts of a text between the commas outside brackets and quotes. -/
def splitTopLevel? (text : Text) : Option (List Text) :=
  splitWithin [] none text

/-- The name that a fresh one is made from. -/
def freshBase : Text := "__completion_target__".toList

/-- The first numbered name from a number on that is not taken. Each name that is taken uses up one
of them, so their number is fuel enough. -/
def freshFrom (taken : List Text) (base : Text) : Nat → Nat → Text
  | 0, k => base ++ Text.ofNat k
  | fuel + 1, k =>
    let name := base ++ Text.ofNat k
    if taken.contains name then freshFrom taken base fuel (k + 1) else name

/-- A name that is not taken: the base itself, or the base with the least number that makes it new. -/
def freshName (taken : List Text) (base : Text) : Text :=
  if taken.contains base then freshFrom taken base taken.length 1 else base

/-- An assignment: what stands left of the sign and right of it. The left side is made of names,
commas and blanks, and the right side is on the same line. -/
def assignment? (statement : Text) : Option (Text × Text) :=
  let text := statement.dropWhile Text.isBlank
  let isLeft := fun c => Text.isWord c || Text.isBlank c || c == ','
  let left := text.takeWhile isLeft
  if !(left.head?).any Text.isNameStart then none
  else
    match text.dropWhile isLeft with
    | '=' :: rest =>
      let right := Text.withoutFinalNewline (rest.dropWhile Text.isBlank)
      if rest.head? == some '=' || right.contains '\n' then none
      else some (Text.dropEndWhile Text.isBlank left, right)
    | _ => none

/-- The last name that a statement assigns, if it assigns as many values as names and the last value
is the expression. -/
def assignmentTarget? (statement expression : Text) : Option Text :=
  match assignment? statement with
  | none => none
  | some (left, right) =>
    let targets := (Text.splitOn ',' left).map Text.trim
    match splitTopLevel? right with
    | none => none
    | some values =>
      if values.length = targets.length && values.getLast?.map Text.trim == some expression &&
          targets.all Script.isName then
        targets.getLast?
      else none

/-- A source and the name in it that is bound to the expression in question. -/
structure Binding where
  source : Text
  name : Text
  deriving DecidableEq

/-- The binding for a member access. -/
def bindingFor (context : Line.Context) (expression member : Text) : Binding :=
  let line := context.line
  let own := Text.indentation line
  let stop := line.length - 1 - member.length
  let (base, indentation) :=
    if context.isRepaired then (context.rawPrior, context.block) else (context.prior, own)
  match assignmentTarget? (line.take stop) expression with
  | some target => ⟨base ++ indentation ++ (line.take stop).drop own.length, target⟩
  | none =>
    let name := freshName (Script.wordsIn (context.rawPrior ++ line)) freshBase
    ⟨base ++ indentation ++ name ++ " = ".toList ++ expression, name⟩

end Caret.Completion
