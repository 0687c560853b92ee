/-!
# Text

A text is its list of characters, so that a caret, a column and a length all count characters.
This module holds the cutting and searching that the rest of the library is written in. Each
operation is a plain recursion on the characters or a short composition of list operations.

Characters are idealised in one respect: half of a surrogate pair is none. An escape that stands for
one gives another character in its place, so that two texts that differ in such a half only may be the
same text here.
-/

namespace Caret

/-- A text, as the list of its characters. -/
abbrev Text := List Char

namespace Text

/-- The texts between the occurrences of a separator: one more than there are separators. -/
def splitOn (sep : Char) : Text → List Text
  | [] => [[]]
  | c :: cs =>
    if c = sep then [] :: splitOn sep cs
    else
      match splitOn sep cs with
      | [] => [[c]]
      | part :: parts => (c :: part) :: parts

/-- The parts in a row, with a separator between each two. -/
def join (sep : Text) : List Text → Text
  | [] => []
  | [part] => part
  | part :: next :: parts => part ++ sep ++ join sep (next :: parts)

/-- Splits at the first occurrence of a separator, which is dropped. -/
def splitFirst? (sep : Char) : Text → Option (Text × Text)
  | [] => none
  | c :: cs =>
    if c = sep then some ([], cs)
    else (splitFirst? sep cs).map fun (before, after) => (c :: before, after)

/-- Splits at the last occurrence of a separator, which is dropped. -/
def splitLast? (sep : Char) : Text → Option (Text × Text)
  | [] => none
  | c :: cs =>
    match splitLast? sep cs with
    | some (before, after) => some (c :: before, after)
    | none => if c = sep then some ([], cs) else none

/-- What stands before the first separator: all of the text when there is none. -/
def beforeFirst (sep : Char) (text : Text) : Text :=
  text.takeWhile (· ≠ sep)

/-- What stands before the last separator: all of the text when there is none. -/
def beforeLast (sep : Char) (text : Text) : Text :=
  match splitLast? sep text with
  | some (before, _) => before
  | none => text

/-- What stands after the last separator: all of the text when there is none. -/
def afterLast (sep : Char) (text : Text) : Text :=
  match splitLast? sep text with
  | some (_, after) => after
  | none => text

/-- The text up to a position. A position below zero is counted from the end. -/
def upTo (text : Text) (stop : Int) : Text :=
  text.take (if stop < 0 then stop + text.length else stop).toNat

/-- Removes the longest final run of characters of a class. -/
def dropEndWhile (p : Char → Bool) (text : Text) : Text :=
  (text.reverse.dropWhile p).reverse

/-- The longest final run of characters of a class. -/
def takeEndWhile (p : Char → Bool) (text : Text) : Text :=
  (text.reverse.takeWhile p).reverse

/-- Removes the runs of characters of a class at both ends. -/
def trimBy (p : Char → Bool) (text : Text) : Text :=
  dropEndWhile p (text.dropWhile p)

/-- Whether a text begins with another one. -/
def startsWith (text start : Text) : Bool :=
  start.isPrefixOf text

/-- Whether a text ends with another one. -/
def endsWith (text finish : Text) : Bool :=
  finish.isSuffixOf text

/-- Whether a text occurs somewhere in another one. -/
def occursIn (needle : Text) : Text → Bool
  | [] => needle.isEmpty
  | c :: cs => needle.isPrefixOf (c :: cs) || occursIn needle cs

/-- Spaces and tabs: what separates words inside a line and indents it. -/
def isBlank (c : Char) : Bool :=
  c == ' ' || c == '\t'

/-- The spaces and tabs that a line begins with. -/
def indentation (line : Text) : Text :=
  line.takeWhile isBlank

/-- A text without one final line feed: where a pattern's end of line is. -/
def withoutFinalNewline (text : Text) : Text :=
  if endsWith text ['\n'] then text.dropLast else text

/-- Order by code point, a text before its extensions. -/
def le : Text → Text → Bool
  | [], _ => true
  | _ :: _, [] => false
  | a :: as, b :: bs => a.toNat < b.toNat || (a == b && le as bs)

/-- Removes each text that equals the one before it. -/
def dropRepeats : List Text → List Text
  | [] => []
  | [a] => [a]
  | a :: b :: rest => if a = b then dropRepeats (b :: rest) else a :: dropRepeats (b :: rest)

/-- The distinct texts of a list in code point order. -/
def sortedSet (texts : List Text) : List Text :=
  dropRepeats (texts.mergeSort le)

/-- The distinct texts of a list in order of first occurrence. -/
def distinct (texts : List Text) : List Text :=
  texts.foldl (fun kept text => if kept.contains text then kept else kept ++ [text]) []

/-- Writes a number in decimal. -/
def ofNat (n : Nat) : Text :=
  Nat.toDigits 10 n

/-- Writes an integer in decimal. -/
def ofInt : Int → Text
  | .ofNat n => ofNat n
  | .negSucc n => '-' :: ofNat (n + 1)

/-- The value of a hexadecimal digit. -/
def hexDigit? (c : Char) : Option Nat :=
  if '0' ≤ c ∧ c ≤ '9' then some (c.toNat - '0'.toNat)
  else if 'a' ≤ c ∧ c ≤ 'f' then some (c.toNat - 'a'.toNat + 10)
  else if 'A' ≤ c ∧ c ≤ 'F' then some (c.toNat - 'A'.toNat + 10)
  else none

/-- The number that hexadecimal digits write; other characters count as zeros. -/
def hexValue (digits : Text) : Nat :=
  digits.foldl (fun value c => value * 16 + (hexDigit? c).getD 0) 0

/-- The lower case hexadecimal digits of a number, with zeros in front up to a width. -/
def hexDigits (width n : Nat) : Text :=
  let digits := Nat.toDigits 16 n
  List.replicate (width - digits.length) '0' ++ digits

/-- The character with a code point, or the replacement character when there is none. -/
def charOfNat (n : Nat) : Char :=
  if n.isValidChar then Char.ofNat n else '�'

end Text

end Caret
