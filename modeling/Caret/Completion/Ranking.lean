import Caret.Completion.Candidate

/-!
# Ranking

Candidates that go on with what is typed come first, and each group is in code point order of the
replacements. Equal replacements keep the order in which they were found.
-/

namespace Caret.Completion

/-- Where a candidate ranks: behind those that start with the seed unless it does too, and by its
replacement. -/
structure RankKey where
  behind : Bool
  text : Text
  deriving DecidableEq

/-- The rank of a candidate for a seed. -/
def rankKey (seed : Text) (candidate : Candidate) : RankKey :=
  ⟨!Text.startsWith candidate.replacement seed, candidate.replacement⟩

/-- Whether a rank comes before another or equals it. -/
def RankKey.le (a b : RankKey) : Bool :=
  (!a.behind && b.behind) || (a.behind == b.behind && Text.le a.text b.text)

/-- Candidates in the order of their ranks. -/
def rank (seed : Text) (candidates : List Candidate) : List Candidate :=
  candidates.mergeSort fun a b => (rankKey seed a).le (rankKey seed b)

end Caret.Completion
