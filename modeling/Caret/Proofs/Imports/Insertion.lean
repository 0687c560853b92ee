import Caret.Imports.Insert
import Caret.Proofs.Text.Cut

/-!
# Edits that are one insertion

`insertedSpan?` compares two texts from the front and asks whether what is left is the old text behind
something new. It finds an insertion if there is one. The place that it names may lie further back than
the one where the insertion was made, by as many characters as the text behind that place has in common
with what was inserted.
-/

namespace Caret.Imports

open insertedSpan? (commonLength)

theorem commonLength_append (left : Text) (as bs : Text) :
    commonLength (left ++ as) (left ++ bs) = left.length + commonLength as bs := by
  induction left with
  | nil => rw [List.nil_append, List.nil_append, List.length_nil, Nat.zero_add]
  | cons c left ih =>
    rw [List.cons_append, List.cons_append, commonLength, if_pos rfl, ih, List.length_cons]
    omega

theorem commonLength_of_head?_ne {as bs : Text} (h : as.head? ≠ bs.head?) : commonLength as bs = 0 := by
  cases as with
  | nil => rfl
  | cons a as =>
    cases bs with
    | nil => rfl
    | cons b bs =>
      rw [commonLength, if_neg]
      rintro rfl
      exact h rfl

theorem take_commonLength (as bs : Text) : as.take (commonLength as bs) = bs.take (commonLength as bs) := by
  induction as generalizing bs with
  | nil => rfl
  | cons a as ih =>
    cases bs with
    | nil => rfl
    | cons b bs =>
      rw [commonLength]
      split
      · rename_i heq
        rw [List.take_succ_cons, List.take_succ_cons, heq, ih]
      · rfl

theorem commonLength_le (as bs : Text) : commonLength as bs ≤ as.length := by
  induction as generalizing bs with
  | nil => exact Nat.le_refl 0
  | cons a as ih =>
    cases bs with
    | nil => exact Nat.zero_le _
    | cons b bs =>
      rw [commonLength]
      split
      · exact Nat.succ_le_succ (ih bs)
      · exact Nat.zero_le _

/-- A text arises from another one by an insertion behind a part of it. -/
def IsInsertion (left old new : Text) : Prop :=
  ∃ right inserted, inserted ≠ [] ∧ old = left ++ right ∧ new = left ++ (inserted ++ right)

theorem IsInsertion.around {left old new : Text} (h : IsInsertion left old new) (front back : Text) :
    IsInsertion (front ++ left) (front ++ (old ++ back)) (front ++ (new ++ back)) := by
  obtain ⟨right, inserted, hne, rfl, rfl⟩ := h
  exact ⟨right ++ back, inserted, hne, by simp, by simp⟩

/-- What is found is an insertion that leads from the old text to the new one. -/
theorem insertedSpan?_eq_some {old new inserted : Text} {place : Nat}
    (h : insertedSpan? old new = some (place, inserted)) :
    place ≤ old.length ∧ new = old.take place ++ (inserted ++ old.drop place) := by
  unfold insertedSpan? at h
  dsimp only at h
  split at h
  · cases h
  · split at h
    · rename_i hsame
      cases h
      refine ⟨commonLength_le old new, ?_⟩
      rw [take_commonLength, ← hsame, ← List.drop_drop, List.take_append_drop, List.take_append_drop]
    · cases h

/-- An insertion is found, and not before the place where it was made. -/
theorem insertedSpan?_of_insertion (left right : Text) {inserted : Text} (hne : inserted ≠ []) :
    ∃ found, insertedSpan? (left ++ right) (left ++ (inserted ++ right)) =
      some (left.length + commonLength right (inserted ++ right), found) := by
  have hdelta : (left ++ (inserted ++ right)).length - (left ++ right).length = inserted.length := by
    simp only [List.length_append]
    omega
  have hpos := List.length_pos_iff.mpr hne
  unfold insertedSpan?
  simp only [hdelta, commonLength_append]
  generalize commonLength right (inserted ++ right) = common
  have hsame : (left ++ (inserted ++ right)).drop (left.length + common + inserted.length) =
      (left ++ right).drop (left.length + common) := by
    rw [show left.length + common + inserted.length = left.length + (inserted.length + common) by omega,
      List.drop_length_add_append, List.drop_length_add_append, List.drop_length_add_append]
  rw [if_neg (by omega), if_pos hsame]
  exact ⟨_, rfl⟩

theorem IsInsertion.insertedSpan?_ne_none {left old new : Text} (h : IsInsertion left old new) :
    insertedSpan? old new ≠ none := by
  obtain ⟨right, inserted, hne, rfl, rfl⟩ := h
  obtain ⟨found, hfound⟩ := insertedSpan?_of_insertion left right hne
  rw [hfound]
  exact nofun

/-- Where two texts part with different characters, an insertion is found only if all that is left of the
old text ends the new one. -/
theorem insertedSpan?_of_parting {old new : Text} (front : Text) (hparting : old.head? ≠ new.head?)
    (h : ¬ old <:+ new) : insertedSpan? (front ++ old) (front ++ new) = none := by
  unfold insertedSpan?
  dsimp only
  split
  · rfl
  · rw [commonLength_append, commonLength_of_head?_ne hparting, if_neg]
    intro hsame
    rw [Nat.add_zero, List.drop_left, List.drop_length_add_append] at hsame
    exact h (hsame ▸ List.drop_suffix _ _)

theorem insertedSpan?_self (text : Text) : insertedSpan? text text = none := by
  unfold insertedSpan?
  dsimp only
  rw [Nat.sub_self, if_pos rfl]

/-- What is found is not empty. -/
theorem ne_nil_of_insertedSpan? {old new inserted : Text} {place : Nat}
    (h : insertedSpan? old new = some (place, inserted)) : inserted ≠ [] := by
  rintro rfl
  have hnew := (insertedSpan?_eq_some h).2
  rw [List.nil_append, List.take_append_drop] at hnew
  rw [hnew, insertedSpan?_self] at h
  cases h

/-- Exactly where a text arises from another one by an insertion, one is found. What is found leads from the
old text to the new one, and no insertion that does so is made further back. -/
theorem insertedSpan?_decides (old new : Text) :
    (insertedSpan? old new ≠ none ↔
      ∃ place inserted, inserted ≠ [] ∧ new = old.take place ++ (inserted ++ old.drop place)) ∧
    ∀ place inserted, insertedSpan? old new = some (place, inserted) →
      place ≤ old.length ∧ new = old.take place ++ (inserted ++ old.drop place) ∧
      new.length = old.length + inserted.length ∧
      ∀ other more, other ≤ old.length → more ≠ [] →
        new = old.take other ++ (more ++ old.drop other) → other ≤ place := by
  refine ⟨⟨fun hfound => ?_, ?_⟩, fun place inserted hfound => ?_⟩
  · obtain ⟨⟨place, inserted⟩, hspan⟩ := Option.ne_none_iff_exists'.mp hfound
    exact ⟨place, inserted, ne_nil_of_insertedSpan? hspan, (insertedSpan?_eq_some hspan).2⟩
  · rintro ⟨place, inserted, hne, hnew⟩
    have hinsertion : IsInsertion (old.take place) old new :=
      ⟨old.drop place, inserted, hne, (List.take_append_drop place old).symm, hnew⟩
    exact hinsertion.insertedSpan?_ne_none
  · obtain ⟨hplace, hnew⟩ := insertedSpan?_eq_some hfound
    refine ⟨hplace, hnew, ?_, fun other more hother hne hmore => ?_⟩
    · have hlength := congrArg List.length hnew
      rw [List.length_append, List.length_append, List.length_take, List.length_drop] at hlength
      omega
    · -- From any other place the texts go on alike up to the place that is found.
      obtain ⟨_, hspan⟩ := insertedSpan?_of_insertion (old.take other) (old.drop other) hne
      rw [← hmore, List.take_append_drop, hfound, List.length_take] at hspan
      have hsame := (Prod.mk.inj (Option.some.inj hspan)).1
      omega

/-- A character that is inserted before others like it is found behind them. -/
theorem insertedSpan?_decides_repeated :
    insertedSpan? "aab".toList "aaab".toList = some (2, "a".toList) ∧
      "aaab".toList = "aab".toList.take 2 ++ ("a".toList ++ "aab".toList.drop 2) ∧
      "aaab".toList.length = "aab".toList.length + "a".toList.length := by
  have hspan : insertedSpan? "aab".toList "aaab".toList = some (2, "a".toList) := by decide
  obtain ⟨-, hnew, hlength, -⟩ := (insertedSpan?_decides "aab".toList "aaab".toList).2 _ _ hspan
  exact ⟨hspan, hnew, hlength⟩

end Caret.Imports
