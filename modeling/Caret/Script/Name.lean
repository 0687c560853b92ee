import Caret.Text.Identifier
import Caret.Text.Space

/-!
# Names

A name is an identifier that is not one of the language's keywords. White space around it is not
looked at.
-/

namespace Caret.Script

/-- The words that cannot be names. -/
def keywords : List Text :=
  ["False", "None", "True", "and", "as", "assert", "async", "await", "break", "class", "continue",
    "def", "del", "elif", "else", "except", "finally", "for", "from", "global", "if", "import",
    "in", "is", "lambda", "nonlocal", "not", "or", "pass", "raise", "return", "try", "while",
    "with", "yield"].map String.toList

/-- Whether a word is a keyword. -/
def isKeyword (word : Text) : Bool :=
  keywords.contains word

/-- Whether a text, white space around it apart, is a name. -/
def isName (text : Text) : Bool :=
  let word := Text.trim text
  Text.isIdentifier word && !isKeyword word

/-- The words that start at an ASCII letter or underscore and go on over word characters, each as
long as possible, from left to right. Between two of them a search for the next start goes on
character by character, so that a word may start inside a longer run of word characters. -/
def wordsIn (text : Text) : List Text :=
  scan [] text
where
  /-- The words of a text, the one being read held back to front. -/
  scan : Text → Text → List Text
    | [], [] => []
    | word, [] => [word.reverse]
    | [], c :: cs => if Text.isNameStart c then scan [c] cs else scan [] cs
    | word, c :: cs =>
      if Text.isWord c then scan (c :: word) cs
      else word.reverse :: scan [] cs

end Caret.Script
