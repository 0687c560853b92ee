import Caret.Script.Token
import Mathlib.Data.List.Infix

/-!
# What tokens say and what they cost

The lexemes of tokens, whatever lines they stand on, and the part of them that a simple statement can
be made of. A lexeme has a weight, against which the fuel of the parsers is measured. A string weighs
more than any other lexeme, because the fields of a formatted string are read as expressions of their
own.
-/

namespace Caret.Script

/-- Whether a lexeme ends a simple statement. -/
def Lexeme.isEnd : Lexeme → Bool
  | .newline => true
  | .symbol text => text == [';']
  | _ => false

/-- What a lexeme costs to read. -/
def Lexeme.weight : Lexeme → Nat
  | .string quotation => 2 * quotation.body.length + 3
  | _ => 1

theorem Lexeme.one_le_weight (lexeme : Lexeme) : 1 ≤ lexeme.weight := by
  cases lexeme <;> simp only [Lexeme.weight] <;> omega

/-- What all members of a list cost together. -/
def total {α : Type} (cost : α → Nat) (members : List α) : Nat :=
  members.foldr (fun a sum => cost a + sum) 0

@[simp] theorem total_nil {α : Type} (cost : α → Nat) : total cost [] = 0 := rfl

@[simp] theorem total_cons {α : Type} (cost : α → Nat) (a : α) (members : List α) :
    total cost (a :: members) = cost a + total cost members := rfl

@[simp] theorem total_append {α : Type} (cost : α → Nat) (left right : List α) :
    total cost (left ++ right) = total cost left + total cost right := by
  induction left with
  | nil => exact (Nat.zero_add _).symm
  | cons a left ih => rw [List.cons_append, total_cons, total_cons, ih, Nat.add_assoc]

/-- What lexemes cost to read. -/
def weight (lexemes : List Lexeme) : Nat :=
  total Lexeme.weight lexemes

@[simp] theorem weight_nil : weight [] = 0 := rfl

@[simp] theorem weight_cons (lexeme : Lexeme) (lexemes : List Lexeme) :
    weight (lexeme :: lexemes) = lexeme.weight + weight lexemes := rfl

@[simp] theorem weight_append (left right : List Lexeme) :
    weight (left ++ right) = weight left + weight right :=
  total_append Lexeme.weight left right

/-- What tokens say. -/
def lexemes (tokens : List Token) : List Lexeme :=
  tokens.map (·.lexeme)

@[simp] theorem lexemes_nil : lexemes [] = [] := rfl

@[simp] theorem lexemes_cons (token : Token) (tokens : List Token) :
    lexemes (token :: tokens) = token.lexeme :: lexemes tokens := rfl

@[simp] theorem lexemes_append (left right : List Token) :
    lexemes (left ++ right) = lexemes left ++ lexemes right := by
  simp [lexemes]

/-- The lexemes up to the first one that ends a simple statement, which is the last of them. -/
def segment : List Token → List Lexeme
  | [] => []
  | token :: tokens =>
    if token.lexeme.isEnd then [token.lexeme] else token.lexeme :: segment tokens

theorem segment_cons_of_isEnd {token : Token} (hend : token.lexeme.isEnd = true)
    (tokens : List Token) : segment (token :: tokens) = [token.lexeme] := by
  rw [segment, if_pos hend]

theorem segment_cons_of_not_isEnd {token : Token} (hend : token.lexeme.isEnd = false)
    (tokens : List Token) : segment (token :: tokens) = token.lexeme :: segment tokens := by
  rw [segment, if_neg (by simp [hend])]

theorem segment_append {taken : List Token} (hinside : ∀ l ∈ lexemes taken, l.isEnd = false)
    (rest : List Token) : segment (taken ++ rest) = lexemes taken ++ segment rest := by
  induction taken with
  | nil => rfl
  | cons token taken ih =>
    rw [List.cons_append, segment_cons_of_not_isEnd (hinside _ (by simp)),
      ih fun l hl => hinside l (by simp [hl])]
    rfl

theorem head?_segment (tokens : List Token) :
    (segment tokens).head? = tokens.head?.map (·.lexeme) := by
  cases tokens with
  | nil => rfl
  | cons token tokens =>
    rw [segment]
    split <;> rfl

theorem weight_segment_le (tokens : List Token) : weight (segment tokens) ≤ weight (lexemes tokens) := by
  induction tokens with
  | nil => exact Nat.le_refl _
  | cons token tokens ih =>
    rw [segment]
    split <;> simp only [lexemes_cons, weight_cons, weight_nil] <;> omega

end Caret.Script
