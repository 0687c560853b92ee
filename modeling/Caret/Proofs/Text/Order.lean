import Caret.Text.Basic
import Mathlib.Data.List.Infix

/-!
# The order of texts

Texts are compared character by character, by code point. The comparison that sorting uses is a
linear order, and it is the lexicographic one.
-/

namespace Caret.Text

theorem char_eq_of_toNat_eq {a b : Char} (h : a.toNat = b.toNat) : a = b :=
  Char.ext (UInt32.toNat_inj.mp h)

theorem le_cons_cons {a b : Char} {as bs : Text} :
    le (a :: as) (b :: bs) = true ↔ a.toNat < b.toNat ∨ (a = b ∧ le as bs = true) := by
  rw [le, Bool.or_eq_true, Bool.and_eq_true, decide_eq_true_iff, beq_iff_eq]

@[simp] theorem le_refl (text : Text) : le text text = true := by
  induction text with
  | nil => rfl
  | cons c cs ih => exact le_cons_cons.mpr (.inr ⟨rfl, ih⟩)

theorem le_trans {a b c : Text} (hab : le a b = true) (hbc : le b c = true) : le a c = true := by
  induction a generalizing b c with
  | nil => rfl
  | cons x xs ih =>
    cases b with
    | nil => cases hab
    | cons y ys =>
      cases c with
      | nil => cases hbc
      | cons z zs =>
        rw [le_cons_cons] at hab hbc ⊢
        rcases hab with hxy | ⟨rfl, hxy⟩
        · rcases hbc with hyz | ⟨rfl, _⟩
          · exact .inl (by omega)
          · exact .inl hxy
        · rcases hbc with hyz | ⟨rfl, hyz⟩
          · exact .inl hyz
          · exact .inr ⟨rfl, ih hxy hyz⟩

theorem le_total (a b : Text) : le a b = true ∨ le b a = true := by
  induction a generalizing b with
  | nil => exact .inl rfl
  | cons x xs ih =>
    cases b with
    | nil => exact .inr rfl
    | cons y ys =>
      rw [le_cons_cons, le_cons_cons]
      rcases Nat.lt_trichotomy x.toNat y.toNat with hlt | heq | hgt
      · exact .inl (.inl hlt)
      · obtain rfl := char_eq_of_toNat_eq heq
        rcases ih ys with h | h
        · exact .inl (.inr ⟨rfl, h⟩)
        · exact .inr (.inr ⟨rfl, h⟩)
      · exact .inr (.inl hgt)

theorem le_antisymm {a b : Text} (hab : le a b = true) (hba : le b a = true) : a = b := by
  induction a generalizing b with
  | nil =>
    cases b with
    | nil => rfl
    | cons y ys => cases hba
  | cons x xs ih =>
    cases b with
    | nil => cases hab
    | cons y ys =>
      rw [le_cons_cons] at hab hba
      rcases hab with hlt | ⟨rfl, hxy⟩
      · rcases hba with hgt | ⟨rfl, _⟩
        · omega
        · omega
      · rcases hba with hgt | ⟨_, hyx⟩
        · omega
        · rw [ih hxy hyx]

/-- The strict order by code point, a text before its extensions. -/
def CodePointLT (a b : Text) : Prop :=
  List.Lex (fun x y : Char => x.toNat < y.toNat) a b

theorem le_iff_eq_or_codePointLT {a b : Text} : le a b = true ↔ a = b ∨ CodePointLT a b := by
  induction a generalizing b with
  | nil =>
    cases b with
    | nil => exact ⟨fun _ => .inl rfl, fun _ => rfl⟩
    | cons y ys => exact ⟨fun _ => .inr .nil, fun _ => rfl⟩
  | cons x xs ih =>
    cases b with
    | nil =>
      constructor
      · intro h
        cases h
      · rintro (h | h)
        · cases h
        · cases h
    | cons y ys =>
      rw [le_cons_cons, ih]
      constructor
      · rintro (hlt | ⟨rfl, rfl | hlt⟩)
        · exact .inr (.rel hlt)
        · exact .inl rfl
        · exact .inr (.cons hlt)
      · rintro (heq | hlt)
        · obtain ⟨rfl, rfl⟩ := List.cons.inj heq
          exact .inr ⟨rfl, .inl rfl⟩
        · cases hlt with
          | rel hlt => exact .inl hlt
          | cons hlt => exact .inr ⟨rfl, .inr hlt⟩

end Caret.Text
