import Caret.Proofs.Text.Cut
import Mathlib.Tactic.Common

/-!
# Parts of a text

Splitting a text at a separator and joining parts with one undo each other: what was split is put
together again, and parts that do not hold the separator come back out of their join.
-/

namespace Caret.Text

variable {sep : Char}

/-! ### Splitting -/

theorem exists_splitOn (sep : Char) (text : Text) : ∃ part parts, splitOn sep text = part :: parts := by
  fun_cases splitOn sep text with
  | case1 => exact ⟨_, _, rfl⟩
  | case2 => exact ⟨_, _, rfl⟩
  | case3 => exact ⟨_, _, rfl⟩
  | case4 => exact ⟨_, _, rfl⟩

@[simp] theorem splitOn_ne_nil (sep : Char) (text : Text) : splitOn sep text ≠ [] := by
  obtain ⟨part, parts, hparts⟩ := exists_splitOn sep text
  simp [hparts]

theorem splitOn_of_not_mem {text : Text} (h : sep ∉ text) : splitOn sep text = [text] := by
  induction text with
  | nil => rfl
  | cons c cs ih =>
    rw [List.mem_cons, not_or] at h
    rw [splitOn, if_neg (Ne.symm h.1), ih h.2]

/-- A separator ends one part and starts another. -/
theorem splitOn_append (sep : Char) (before after : Text) :
    splitOn sep (before ++ sep :: after) = splitOn sep before ++ splitOn sep after := by
  induction before with
  | nil => simp [splitOn]
  | cons c cs ih =>
    rw [List.cons_append, splitOn, splitOn, ih]
    obtain ⟨part, parts, hparts⟩ := exists_splitOn sep cs
    split <;> simp [hparts]

theorem not_mem_of_mem_splitOn {text part : Text} (hpart : part ∈ splitOn sep text) : sep ∉ part := by
  induction text generalizing part with
  | nil =>
    obtain rfl := List.mem_singleton.mp hpart
    exact List.not_mem_nil
  | cons c cs ih =>
    obtain ⟨first, more, hsplit⟩ := exists_splitOn sep cs
    rw [splitOn, hsplit] at hpart
    rw [hsplit] at ih
    split at hpart
    · rcases List.mem_cons.mp hpart with rfl | hpart
      · exact List.not_mem_nil
      · exact ih hpart
    · rename_i hc
      rcases List.mem_cons.mp hpart with rfl | hpart
      · rw [List.mem_cons, not_or]
        exact ⟨Ne.symm hc, ih List.mem_cons_self⟩
      · exact ih (List.mem_cons_of_mem _ hpart)

/-! ### Joining -/

@[simp] theorem join_nil (sep : Text) : join sep [] = [] := rfl

@[simp] theorem join_singleton (sep part : Text) : join sep [part] = part := rfl

theorem join_cons (sep part : Text) {parts : List Text} (hparts : parts ≠ []) :
    join sep (part :: parts) = part ++ sep ++ join sep parts := by
  cases parts with
  | nil => exact absurd rfl hparts
  | cons next parts => rfl

theorem join_cons_cons (sep : Text) (c : Char) (part : Text) (parts : List Text) :
    join sep ((c :: part) :: parts) = c :: join sep (part :: parts) := by
  cases parts <;> rfl

theorem join_append (sep : Text) {front back : List Text} (hfront : front ≠ []) (hback : back ≠ []) :
    join sep (front ++ back) = join sep front ++ sep ++ join sep back := by
  induction front with
  | nil => exact absurd rfl hfront
  | cons part parts ih =>
    by_cases hparts : parts = []
    · subst hparts
      rw [List.singleton_append, join_cons sep part hback, join_singleton]
    · rw [List.cons_append, join_cons sep part (by simp [hparts]), join_cons sep part hparts, ih hparts]
      simp only [List.append_assoc]

/-- A text at the end of the last part is at the end of the join. -/
theorem join_concat_append (sep : Text) (front : List Text) (part finish : Text) :
    join sep (front ++ [part ++ finish]) = join sep (front ++ [part]) ++ finish := by
  by_cases hfront : front = []
  · simp [hfront]
  · simp [join_append sep hfront]

theorem mem_join {sep : Text} {parts : List Text} {c : Char} (hc : c ∈ join sep parts) :
    c ∈ sep ∨ ∃ part ∈ parts, c ∈ part := by
  fun_induction join sep parts with
  | case1 => simp at hc
  | case2 part => exact .inr ⟨part, by simp, hc⟩
  | case3 part next parts ih =>
    rw [List.mem_append, List.mem_append] at hc
    rcases hc with (hc | hc) | hc
    · exact .inr ⟨part, by simp, hc⟩
    · exact .inl hc
    · rcases ih hc with hsep | ⟨part, hpart, hmem⟩
      · exact .inl hsep
      · exact .inr ⟨part, List.mem_cons_of_mem _ hpart, hmem⟩

theorem mem_join_of_mem (sep : Text) {parts : List Text} {part : Text} {c : Char}
    (hpart : part ∈ parts) (hc : c ∈ part) : c ∈ join sep parts := by
  fun_induction join sep parts with
  | case1 => exact absurd hpart List.not_mem_nil
  | case2 first =>
    obtain rfl := List.mem_singleton.mp hpart
    exact hc
  | case3 first next parts ih =>
    rcases List.mem_cons.mp hpart with rfl | hpart
    · exact List.mem_append_left _ (List.mem_append_left _ hc)
    · exact List.mem_append_right _ (ih hpart)

theorem join_splitOn (sep : Char) (text : Text) : join [sep] (splitOn sep text) = text := by
  induction text with
  | nil => rfl
  | cons c cs ih =>
    obtain ⟨part, parts, hparts⟩ := exists_splitOn sep cs
    rw [hparts] at ih
    by_cases hc : c = sep
    · rw [splitOn, if_pos hc, hparts, join, ih, hc]
      rfl
    · rw [splitOn, if_neg hc, hparts]
      dsimp only
      rw [join_cons_cons, ih]

theorem splitOn_join {parts : List Text} (hparts : parts ≠ []) (hfree : ∀ part ∈ parts, sep ∉ part) :
    splitOn sep (join [sep] parts) = parts := by
  induction parts with
  | nil => exact absurd rfl hparts
  | cons part parts ih =>
    have hpart : splitOn sep part = [part] := splitOn_of_not_mem (hfree part List.mem_cons_self)
    by_cases hrest : parts = []
    · subst hrest
      exact hpart
    · rw [join_cons _ _ hrest, List.append_assoc, List.singleton_append, splitOn_append, hpart,
        ih hrest fun part hpart => hfree part (List.mem_cons_of_mem _ hpart)]
      rfl

end Caret.Text
