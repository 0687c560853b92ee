import Caret.Text.Basic

/-!
# Candidates

A candidate is one way to go on from what is typed: the text that replaces the seed, how it is
shown, and the import that it needs.
-/

namespace Caret.Completion

/-- One way to complete what is typed. -/
structure Candidate where
  replacement : Text
  display : Text
  importStatement : Text
  prefixMatch : Bool
  description : Text
  deriving DecidableEq

/-- A candidate that is shown as a text, or as its replacement where that text is empty. -/
def Candidate.shownAs (replacement display importStatement : Text) (prefixMatch : Bool)
    (description : Text) : Candidate :=
  ⟨replacement, if display.isEmpty then replacement else display, importStatement, prefixMatch,
    description⟩

end Caret.Completion
