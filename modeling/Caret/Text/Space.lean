import Caret.Text.Span

/-!
# White space

White space in the wide sense: the blanks and breaks of ASCII, its four separators, and the spaces
of other scripts.
-/

namespace Caret.Text

/-- White space beyond ASCII. -/
def spaceRows : List String := [
  "85 a0 1680 2000-200a 2028-2029 202f 205f 3000"
]

/-- The spans of `spaceRows`. -/
def spaceSpans : List Span := spans spaceRows

/-- White space of any script. -/
def isSpace (c : Char) : Bool :=
  if c.toNat < 0x80 then (9 ≤ c.toNat && c.toNat ≤ 13) || (28 ≤ c.toNat && c.toNat ≤ 32)
  else inSpans spaceSpans c.toNat

/-- Removes white space at both ends. -/
def trim (text : Text) : Text :=
  trimBy isSpace text

/-- Removes white space at the end. -/
def trimEnd (text : Text) : Text :=
  dropEndWhile isSpace text

/-- The longest runs of characters that are not white space. -/
def words (text : Text) : List Text :=
  text.foldr (fun c parts =>
    if isSpace c then [] :: parts
    else match parts with
      | [] => [[c]]
      | part :: rest => (c :: part) :: rest) [[]]
  |>.filter (· ≠ [])

end Caret.Text
