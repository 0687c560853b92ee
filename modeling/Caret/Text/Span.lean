import Caret.Text.Basic

/-!
# Spans of code points

A property of characters beyond ASCII is a list of spans of code points. Such a table is written as
rows of hexadecimal items, `370-373` for a span and `aa` for a single code point, and read once.
-/

namespace Caret.Text

/-- The code points from `first` to `last`, both included. -/
structure Span where
  first : Nat
  last : Nat

namespace Span

/-- Whether a code point lies in the span. -/
def has (span : Span) (n : Nat) : Bool :=
  span.first ≤ n && n ≤ span.last

/-- Reads `370-373` or `aa`. -/
def read (item : Text) : Span :=
  match splitFirst? '-' item with
  | some (first, last) => ⟨hexValue first, hexValue last⟩
  | none => ⟨hexValue item, hexValue item⟩

end Span

/-- The items of a table's rows. -/
def items (rows : List String) : List Text :=
  rows.flatMap fun row => splitOn ' ' row.toList

/-- Reads a table of spans. -/
def spans (rows : List String) : List Span :=
  (items rows).map Span.read

/-- Whether a code point lies in one of the spans. -/
def inSpans (table : List Span) (n : Nat) : Bool :=
  table.any (·.has n)

end Caret.Text
