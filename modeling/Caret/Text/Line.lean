import Caret.Text.Basic

/-!
# Lines

A text seen as lines. An editor's line ends at any of the line and paragraph breaks of Unicode, each
of which stays with the line that it ends; a file that is read as text has only line feeds.
-/

namespace Caret.Text

/-- The characters that end a line. -/
def isLineBreak (c : Char) : Bool :=
  (10 ≤ c.toNat && c.toNat ≤ 13) || (28 ≤ c.toNat && c.toNat ≤ 30) ||
    c.toNat == 0x85 || c.toNat == 0x2028 || c.toNat == 0x2029

/-- The lines of a text, each with its break. A carriage return and the line feed after it are one
break. Joined, the lines are the text again. -/
def lines : Text → List Text
  | [] => []
  | [c] => [[c]]
  | c :: d :: cs =>
    if c = '\r' ∧ d = '\n' then [c, d] :: lines cs
    else if isLineBreak c then [c] :: lines (d :: cs)
    else
      match lines (d :: cs) with
      | [] => [[c]]
      | line :: rest => (c :: line) :: rest

/-- A line without its final carriage returns and line feeds. -/
def lineBody (line : Text) : Text :=
  dropEndWhile (fun c => c == '\r' || c == '\n') line

/-- Writes every line break of a file as a line feed. -/
def unifyBreaks : Text → Text
  | [] => []
  | [c] => [if c = '\r' then '\n' else c]
  | c :: d :: cs =>
    if c = '\r' then
      if d = '\n' then '\n' :: unifyBreaks cs else '\n' :: unifyBreaks (d :: cs)
    else c :: unifyBreaks (d :: cs)

/-- Writes each tab as spaces up to the next multiple of eight columns, from a column on. -/
def expandTabsFrom (column : Nat) : Text → Text
  | [] => []
  | c :: cs =>
    if c = '\t' then
      let width := 8 - column % 8
      List.replicate width ' ' ++ expandTabsFrom (column + width) cs
    else c :: expandTabsFrom (if c = '\n' ∨ c = '\r' then 0 else column + 1) cs

/-- Writes each tab as spaces up to the next multiple of eight columns. -/
def expandTabs (text : Text) : Text :=
  expandTabsFrom 0 text

end Caret.Text
