import Caret.Script.Number
import Caret.Text.Line

/-!
# From text to tokens

The lexer walks over the text once. At the start of a line it measures the indentation, in two ways
that must agree about what is deeper so that a mixture of tabs and spaces cannot be misread; blank
and comment lines are passed over. Inside a line it takes one token after the other. Inside brackets
lines do not matter. A text that cannot be cut into tokens gives none at all.
-/

namespace Caret.Script.Lexer

/-- The text as lines that end in a line feed each, the last one too. After a final pair of carriage
return and line feed one more empty line is added. -/
def prepared (source : Text) : Text :=
  let text := Text.unifyBreaks source
  if Text.endsWith source ['\r', '\n'] || !Text.endsWith text ['\n'] then text ++ ['\n'] else text

/-- How deep a line stands: the column with tabs going to the next multiple of eight, and the
column with a tab as wide as a space. -/
structure Depth where
  column : Nat
  narrow : Nat
  deriving DecidableEq

/-- The blanks in front of a line, from a depth on. A form feed starts over. A backslash before a
line's end joins the next line, and the first one fixes the depth unless it stands in column zero. -/
def leading : Text → Depth → Nat → Nat → Option (Text × Depth × Nat)
  | [], depth, _, line => some ([], depth, line)
  | c :: cs, depth, joined, line =>
    if c = ' ' then leading cs ⟨depth.column + 1, depth.narrow + 1⟩ joined line
    else if c = '\t' then
      leading cs ⟨(depth.column / 8 + 1) * 8, depth.narrow + 1⟩ joined line
    else if c = '\x0c' then leading cs ⟨0, 0⟩ joined line
    else if c = '\\' then
      match cs with
      | '\n' :: d :: more =>
        leading (d :: more) depth (if joined = 0 then depth.column else joined) (line + 1)
      | _ => none
    else some (c :: cs, if joined = 0 then depth else ⟨joined, joined⟩, line)

/-- The most levels of indentation. -/
def maxIndents : Nat := 100

/-- The most brackets open at a time. -/
def maxBrackets : Nat := 200

/-- The changes of indentation at a line of some depth, and the levels open after them. -/
def reindent (depth : Depth) : List Depth → Option (List Lexeme × List Depth)
  | [] =>
    if depth.column = 0 then if depth.narrow = 0 then some ([], []) else none
    else if depth.narrow = 0 then none
    else some ([.indent], [depth])
  | level :: outer =>
    if depth.column = level.column then
      if depth.narrow = level.narrow then some ([], level :: outer) else none
    else if level.column < depth.column then
      if depth.narrow ≤ level.narrow ∨ maxIndents ≤ outer.length + 2 then none
      else some ([.indent], depth :: level :: outer)
    else shallower depth outer
where
  /-- The levels that a line closes once it has closed one. It must meet one of those before. -/
  shallower (depth : Depth) : List Depth → Option (List Lexeme × List Depth)
    | [] => if depth.column = 0 ∧ depth.narrow = 0 then some ([.dedent], []) else none
    | level :: outer =>
      if depth.column < level.column then
        (shallower depth outer).map fun (closed, open_) => (.dedent :: closed, open_)
      else if depth = level then some ([.dedent], level :: outer)
      else none

/-- The rest of a string of one line, after its opening quote. -/
def shortString? (quote : Char) : Text → Nat → Option (Text × Text × Nat)
  | [], _ => none
  | [c], line => if c = quote then some ([], [], line) else none
  | c :: d :: cs, line =>
    if c = quote then some ([], d :: cs, line)
    else if c = '\n' then none
    else if c = '\\' then
      (shortString? quote cs (if d = '\n' then line + 1 else line)).map
        fun (body, rest, line) => (c :: d :: body, rest, line)
    else (shortString? quote (d :: cs) line).map fun (body, rest, line) => (c :: body, rest, line)

/-- The rest of a string that three quotes end, after its opening quotes. -/
def longString? (quote : Char) : Text → Nat → Option (Text × Text × Nat)
  | c :: d :: e :: cs, line =>
    if c = quote ∧ d = quote ∧ e = quote then some ([], cs, line)
    else if c = '\\' then
      (longString? quote (e :: cs) (if d = '\n' then line + 1 else line)).map
        fun (body, rest, line) => (c :: d :: body, rest, line)
    else
      (longString? quote (d :: e :: cs) (if c = '\n' then line + 1 else line)).map
        fun (body, rest, line) => (c :: body, rest, line)
  | _, _ => none

/-- A string from its first quote on: body, rest and the line on which it ends. -/
def string? (text : Text) (line : Nat) : Option (Text × Text × Nat) :=
  match text with
  | q :: r :: s :: rest =>
    if q = r ∧ r = s then longString? q rest line else shortString? q (r :: s :: rest) line
  | q :: rest => shortString? q rest line
  | [] => none

/-- What letters in front of a quote ask for; `none` when they are not a string's letters. -/
def stringLetters? (letters : Text) : Option (Text → Quotation) :=
  let small := letters.map fun c => if 'A' ≤ c ∧ c ≤ 'Z' then Char.ofNat (c.toNat + 32) else c
  if small = [] ∨ small = ['u'] then some (⟨false, false, false, ·⟩)
  else if small = ['r'] then some (⟨false, false, true, ·⟩)
  else if small = ['b'] then some (⟨true, false, false, ·⟩)
  else if small = ['b', 'r'] ∨ small = ['r', 'b'] then some (⟨true, false, true, ·⟩)
  else if small = ['f'] then some (⟨false, true, false, ·⟩)
  else if small = ['f', 'r'] ∨ small = ['r', 'f'] then some (⟨false, true, true, ·⟩)
  else none

/-- The symbols of the language, longest first. -/
def symbols : List Text :=
  ["**=", "//=", ">>=", "<<=", "...", "!=", "%=", "&=", "**", "*=", "+=", "-=", "->", "//", "/=",
    ":=", "<<", "<=", "<>", "==", ">=", ">>", "@=", "^=", "|=", "(", ")", "[", "]", "\x7b", "\x7d",
    ":", ",", ";", "+", "-", "*", "/", "|", "&", "<", ">", "=", ".", "%", "~", "^", "@"].map
    String.toList

/-- The longest symbol at the front of a text. -/
def symbol? (text : Text) : Option (Text × Text) :=
  (symbols.find? (·.isPrefixOf text)).map fun symbol => (symbol, text.drop symbol.length)

/-- The bracket that closes an opening one. -/
def closer? : Char → Option Char
  | '(' => some ')'
  | '[' => some ']'
  | '{' => some '}'
  | _ => none

/-- The brackets still to be closed after a symbol. A closing bracket must be the one that is due. -/
def bracketsAfter (due : List Char) : Text → Option (List Char)
  | [c] =>
    match closer? c with
    | some closer => if due.length < maxBrackets then some (closer :: due) else none
    | none =>
      if c = ')' ∨ c = ']' ∨ c = '}' then
        match due with
        | closer :: rest => if c = closer then some rest else none
        | [] => none
      else some due
  | _ => some due

/-- Where the lexer stands. -/
structure State where
  rest : Text
  line : Nat
  fresh : Bool
  levels : List Depth
  due : List Char

/-- One lexeme from the front of a text that starts with neither a blank nor a line's end: the
lexeme, the rest, and the line on which it ends. -/
def lexeme? (text : Text) (line : Nat) : Option (Lexeme × Text × Nat) :=
  match text with
  | [] => none
  | c :: cs =>
    if Text.isNameStart c ∨ 0x80 ≤ c.toNat then
      let word := text.takeWhile Number.continuesName
      let rest := text.dropWhile Number.continuesName
      let quoted := (rest.head?).any fun q => q == '\'' || q == '"'
      match if quoted then stringLetters? word else none with
      | some quotation =>
        (string? rest line).map fun (body, rest, last) => (.string (quotation body), rest, last)
      | none =>
        if isKeyword word then some (.keyword word, rest, line)
        else if Text.isIdentifier word then some (.name word, rest, line)
        else none
    else if Text.isAsciiDigit c ∨ (c = '.' ∧ (cs.head?).any Text.isAsciiDigit) then
      (Number.scan? text).map fun (value, rest) => (.number value, rest, line)
    else if c = '\'' ∨ c = '"' then
      (string? text line).map fun (body, rest, last) =>
        (.string ⟨false, false, false, body⟩, rest, last)
    else (symbol? text).map fun (symbol, rest) => (.symbol symbol, rest, line)

/-- The tokens from a state on. Each step passes over characters or goes from the start of a line
into it, so twice the length of the text is fuel enough. -/
def run : Nat → State → Option (List Token)
  | 0, _ => none
  | fuel + 1, state =>
    if state.fresh then
      match leading state.rest ⟨0, 0⟩ 0 state.line with
      | none => none
      | some ([], _, line) =>
        if state.due.isEmpty then some (state.levels.map fun _ => ⟨.dedent, line, line⟩) else none
      | some (c :: cs, depth, line) =>
        if c = '\n' then run fuel { state with rest := cs, line := line + 1 }
        else if c = '#' then
          run fuel { state with rest := (c :: cs).dropWhile (· ≠ '\n'), line := line }
        else if !state.due.isEmpty then
          run fuel { state with rest := c :: cs, line := line, fresh := false }
        else
          match reindent depth state.levels with
          | none => none
          | some (changes, levels) =>
            (run fuel { state with rest := c :: cs, line, fresh := false, levels }).map
              (changes.map (⟨·, line, line⟩) ++ ·)
    else
      match state.rest with
      | [] => none
      | c :: cs =>
        if c = ' ' ∨ c = '\t' ∨ c = '\x0c' then run fuel { state with rest := cs }
        else if c = '#' then run fuel { state with rest := (c :: cs).dropWhile (· ≠ '\n') }
        else if c = '\n' then
          let next := { state with rest := cs, line := state.line + 1, fresh := true }
          if state.due.isEmpty then
            (run fuel next).map (⟨.newline, state.line, state.line⟩ :: ·)
          else run fuel next
        else if c = '\\' then
          match cs with
          | '\n' :: d :: more =>
            run fuel { state with rest := d :: more, line := state.line + 1 }
          | _ => none
        else
          match lexeme? (c :: cs) state.line with
          | none => none
          | some (lexeme, rest, last) =>
            let due? := match lexeme with
              | .symbol symbol => bracketsAfter state.due symbol
              | _ => some state.due
            match due? with
            | none => none
            | some due =>
              (run fuel { state with rest, line := last, due }).map
                (⟨lexeme, state.line, last⟩ :: ·)

/-- The tokens of a text, if it can be cut into tokens. -/
def tokens? (source : Text) : Option (List Token) :=
  if source.contains '\x00' then none
  else
    let text := prepared source
    run (2 * text.length + 2) ⟨text, 1, true, [], []⟩

end Caret.Script.Lexer
