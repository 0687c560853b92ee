import Caret.Completion.Provider
import Caret.Proofs.Text.Cut

/-!
# Keeping the first of each kind

Three places of the library go through a list and keep an item unless an equal one was kept before:
names by themselves, symbols and modules by their names, and candidates by replacement and import.
They are one loop, `keepNew`, for three notions of equality. What the loop keeps is said once: an
item stays exactly when it is the first of its kind.
-/

namespace Caret.Completion

open scoped List

section

variable {α : Type} (same : α → α → Bool)

/-- Goes on keeping items that are not the same as one kept before. -/
def keepNew (kept items : List α) : List α :=
  items.foldl (fun kept item => if kept.any (same · item) then kept else kept ++ [item]) kept

@[simp] theorem keepNew_nil (kept : List α) : keepNew same kept [] = kept := rfl

theorem keepNew_cons (kept : List α) (item : α) (items : List α) :
    keepNew same kept (item :: items) =
      keepNew same (if kept.any (same · item) then kept else kept ++ [item]) items := rfl

/-- What is kept is what was kept before and then some of the items, in their order. -/
theorem keepNew_eq_append (kept items : List α) :
    ∃ more, keepNew same kept items = kept ++ more ∧ more <+ items := by
  induction items generalizing kept with
  | nil => exact ⟨[], by simp, .slnil⟩
  | cons item items ih =>
    rw [keepNew_cons]
    split
    · obtain ⟨more, heq, hsub⟩ := ih kept
      exact ⟨more, heq, hsub.cons item⟩
    · obtain ⟨more, heq, hsub⟩ := ih (kept ++ [item])
      exact ⟨item :: more, by rw [heq, List.append_assoc, List.singleton_append], hsub.cons_cons item⟩

theorem keepNew_sublist (items : List α) : keepNew same [] items <+ items := by
  obtain ⟨more, heq, hsub⟩ := keepNew_eq_append same [] items
  rwa [heq, List.nil_append]

/-- No two kept items are the same. -/
theorem keepNew_pairwise (kept items : List α)
    (hkept : kept.Pairwise fun a b => same a b = false) :
    (keepNew same kept items).Pairwise fun a b => same a b = false := by
  induction items generalizing kept with
  | nil => exact hkept
  | cons item items ih =>
    rw [keepNew_cons]
    split
    · exact ih kept hkept
    · rename_i hnew
      refine ih _ (List.pairwise_append.mpr ⟨hkept, List.pairwise_singleton _ _, ?_⟩)
      intro a ha b hb
      obtain rfl := List.mem_singleton.mp hb
      exact Bool.eq_false_iff.mpr fun hsame => hnew (List.any_eq_true.mpr ⟨a, ha, hsame⟩)

end

section

variable {α κ : Type} [DecidableEq κ] (key : α → κ)

/-- Having the same key. -/
def sameKey (a b : α) : Bool :=
  decide (key a = key b)

theorem sameKey_iff {a b : α} : sameKey key a b = true ↔ key a = key b :=
  decide_eq_true_iff

/-- Every key of an item is the key of a kept one. -/
theorem exists_mem_keepNew (kept items : List α) {item : α} (hitem : item ∈ kept ∨ item ∈ items) :
    ∃ first ∈ keepNew (sameKey key) kept items, key first = key item := by
  induction items generalizing kept with
  | nil =>
    rcases hitem with hitem | hitem
    · exact ⟨item, hitem, rfl⟩
    · exact absurd hitem List.not_mem_nil
  | cons next items ih =>
    rw [keepNew_cons]
    split
    · rename_i hold
      rcases hitem with hitem | hitem
      · exact ih kept (.inl hitem)
      rcases List.mem_cons.mp hitem with rfl | hitem
      · obtain ⟨old, hmem, hsame⟩ := List.any_eq_true.mp hold
        obtain ⟨first, hfirst, hkey⟩ := keepNew_eq_append (sameKey key) kept items
        refine ⟨old, ?_, (sameKey_iff key).mp hsame⟩
        rw [hfirst]
        exact List.mem_append_left _ hmem
      · exact ih kept (.inr hitem)
    · apply ih (kept ++ [next])
      rcases hitem with hitem | hitem
      · exact .inl (List.mem_append_left _ hitem)
      rcases List.mem_cons.mp hitem with rfl | hitem
      · exact .inl (List.mem_append_right _ (List.mem_singleton.mpr rfl))
      · exact .inr hitem

/-- A kept item was kept before, or it is the first item with its key and that key is new. -/
theorem mem_keepNew {kept items : List α} {item : α}
    (hitem : item ∈ keepNew (sameKey key) kept items) :
    item ∈ kept ∨ ((∀ old ∈ kept, key old ≠ key item) ∧
      items.find? (sameKey key · item) = some item) := by
  induction items generalizing kept with
  | nil => exact .inl hitem
  | cons next items ih =>
    rw [keepNew_cons] at hitem
    split at hitem
    · rename_i hold
      obtain ⟨old, hmem, hsame⟩ := List.any_eq_true.mp hold
      rcases ih hitem with hkept | ⟨hnew, hfirst⟩
      · exact .inl hkept
      · refine .inr ⟨hnew, ?_⟩
        have hne : ¬ sameKey key next item = true := by
          rw [sameKey_iff]
          exact fun heq => hnew old hmem (((sameKey_iff key).mp hsame).trans heq)
        exact (List.find?_cons_of_neg (p := (sameKey key · item)) hne).trans hfirst
    · rename_i hnext
      rcases ih hitem with hkept | ⟨hnew, hfirst⟩
      · rcases List.mem_append.mp hkept with hkept | hkept
        · exact .inl hkept
        · obtain rfl := List.mem_singleton.mp hkept
          refine .inr ⟨fun old hmem heq => ?_, ?_⟩
          · exact hnext (List.any_eq_true.mpr ⟨old, hmem, (sameKey_iff key).mpr heq⟩)
          · exact List.find?_cons_of_pos ((sameKey_iff key).mpr rfl)
      · refine .inr ⟨fun old hmem => hnew old (List.mem_append_left _ hmem), ?_⟩
        have hne : ¬ sameKey key next item = true := by
          rw [sameKey_iff]
          exact hnew next (List.mem_append_right _ (List.mem_singleton.mpr rfl))
        exact (List.find?_cons_of_neg (p := (sameKey key · item)) hne).trans hfirst

/-- The kept items are the first ones with their keys. -/
theorem find?_of_mem_keepNew {items : List α} {item : α}
    (hitem : item ∈ keepNew (sameKey key) [] items) :
    items.find? (sameKey key · item) = some item := by
  rcases mem_keepNew key hitem with hitem | ⟨_, hfirst⟩
  · exact absurd hitem List.not_mem_nil
  · exact hfirst

/-- A choice that looks at keys only can be made before or after. -/
theorem keepNew_filter (choose : κ → Bool) (kept items : List α) :
    keepNew (sameKey key) (kept.filter fun item => choose (key item))
        (items.filter fun item => choose (key item)) =
      (keepNew (sameKey key) kept items).filter fun item => choose (key item) := by
  induction items generalizing kept with
  | nil => rfl
  | cons next items ih =>
    rw [keepNew_cons]
    by_cases hchosen : choose (key next) = true
    · -- what has the key of a chosen item is chosen, too
      have hany : (kept.filter fun item => choose (key item)).any (sameKey key · next) =
          kept.any (sameKey key · next) := by
        rw [List.any_filter, Bool.eq_iff_iff, List.any_eq_true, List.any_eq_true]
        refine exists_congr fun item => and_congr_right fun _ => ?_
        rw [Bool.and_eq_true, and_iff_right_iff_imp, sameKey_iff]
        intro hkey
        rwa [hkey]
      rw [List.filter_cons, if_pos hchosen, keepNew_cons, hany]
      split
      · exact ih kept
      · rw [← ih, List.filter_append, List.filter_cons, if_pos hchosen, List.filter_nil]
    · rw [List.filter_cons, if_neg hchosen]
      split
      · exact ih kept
      · rw [← ih, List.filter_append, List.filter_cons, if_neg hchosen, List.filter_nil, List.append_nil]

end

/-! ### The three uses -/

theorem firstByKey_eq {α : Type} (key : α → Text) (items : List α) :
    firstByKey key items = keepNew (sameKey key) [] items := by
  have hsame : ∀ a b : α, (key a == key b) = sameKey key a b := by
    intro a b
    rw [Bool.eq_iff_iff, sameKey_iff, beq_iff_eq]
  simp only [firstByKey, keepNew, hsame]

theorem firstByKey_filter {α : Type} (key : α → Text) (choose : Text → Bool) (items : List α) :
    firstByKey key (items.filter fun item => choose (key item)) =
      (firstByKey key items).filter fun item => choose (key item) := by
  rw [firstByKey_eq, firstByKey_eq, ← keepNew_filter]
  rfl

theorem distinct_eq (texts : List Text) : Text.distinct texts = keepNew (sameKey id) [] texts := by
  have hsame : ∀ (kept : List Text) (text : Text),
      kept.contains text = kept.any (sameKey id · text) := by
    intro kept text
    rw [Bool.eq_iff_iff, List.contains_iff_mem, List.any_eq_true]
    simp [sameKey]
  simp only [Text.distinct, keepNew, hsame]

/-- What tells candidates apart. -/
def Candidate.key (candidate : Candidate) : Text × Text :=
  (candidate.replacement, candidate.importStatement)

theorem distinctCandidates_eq (candidates : List Candidate) :
    distinctCandidates candidates = keepNew (sameKey Candidate.key) [] candidates := by
  have hsame : ∀ a b : Candidate,
      (a.replacement == b.replacement && a.importStatement == b.importStatement) =
        sameKey Candidate.key a b := by
    intro a b
    rw [Bool.eq_iff_iff, sameKey_iff]
    simp [Candidate.key]
  simp only [distinctCandidates, keepNew, hsame]

theorem mem_of_mem_firstByKey {α : Type} {key : α → Text} {items : List α} {item : α}
    (hitem : item ∈ firstByKey key items) : item ∈ items :=
  (keepNew_sublist _ items).subset (firstByKey_eq key items ▸ hitem)

theorem mem_of_mem_distinct {texts : List Text} {text : Text} (htext : text ∈ Text.distinct texts) :
    text ∈ texts :=
  (keepNew_sublist _ texts).subset (distinct_eq texts ▸ htext)

end Caret.Completion
