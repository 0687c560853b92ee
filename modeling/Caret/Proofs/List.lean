import Caret.Proofs.Except
import Mathlib.Data.List.Forall2
import Mathlib.Data.List.Nodup

/-!
# Lists

What the rest needs to know of lists in general: going over a list in several passes, and going over it
with a function that may fail.
-/

namespace List

variable {α β γ ε : Type}

/-- Where all but one item give nothing, the whole is what that one gives. -/
theorem flatMap_eq_of_nodup [DecidableEq α] {items : List α} {f : α → List β} {item : α}
    (hnodup : items.Nodup) (hother : ∀ other ∈ items, other ≠ item → f other = []) :
    items.flatMap f = if item ∈ items then f item else [] := by
  induction items with
  | nil => rfl
  | cons first rest ih =>
    obtain ⟨hfirst, hrest⟩ := List.nodup_cons.mp hnodup
    have ih := ih hrest fun other hmem => hother other (List.mem_cons_of_mem _ hmem)
    rw [List.flatMap_cons, ih]
    by_cases heq : first = item
    · subst heq
      simp [hfirst]
    · rw [hother first List.mem_cons_self heq, List.nil_append]
      simp [Ne.symm heq]

/-- Items that are paired with something first and then named give the same names that are kept, if each
of them that has such a name can be paired. -/
theorem filterMap_filterMap_map (own : α → Option β) (name : α → Option γ)
    (keep : γ → Bool) {items : List α}
    (hown : ∀ item ∈ items, ∀ c, name item = some c → keep c = true → (own item).isSome = true) :
    ((items.filterMap fun item => (own item).map (·, item)).filterMap fun found =>
      name found.2).filter keep = (items.filterMap name).filter keep := by
  induction items with
  | nil => rfl
  | cons item items ih =>
    have ih := ih fun item hitem => hown item (List.mem_cons_of_mem _ hitem)
    have hown := hown item List.mem_cons_self
    rw [List.filterMap_cons, List.filterMap_cons]
    cases hname : name item with
    | none => cases own item <;> simp [hname, ih]
    | some c =>
      cases howned : own item with
      | some b => simp [hname, List.filter_cons, ih]
      | none =>
        have hdrop : keep c = false := by
          rw [Bool.eq_false_iff]
          intro hkeep
          have := hown c hname hkeep
          rw [howned] at this
          cases this
        simp [ih, hdrop]

/-! ### Functions that may fail -/

/-- Going over a list that succeeds gives the result of each item. -/
theorem mapM_eq_ok_iff {f : α → Except ε β} {items : List α} {results : List β} :
    items.mapM f = .ok results ↔ List.Forall₂ (fun item result => f item = .ok result) items results := by
  induction items generalizing results with
  | nil =>
    rw [List.mapM_nil, Except.pure_eq_ok_iff, List.forall₂_nil_left_iff]
    exact eq_comm
  | cons item items ih =>
    rw [List.mapM_cons, List.forall₂_cons_left_iff]
    simp only [Except.bind_eq_ok_iff, Except.pure_eq_ok_iff, ih, exists_and_left, @eq_comm _ results]

theorem mapM_eq_ok {f : α → Except ε β} {g : α → β} {items : List α}
    (hitems : ∀ item ∈ items, f item = .ok (g item)) : items.mapM f = .ok (items.map g) := by
  rw [mapM_eq_ok_iff, List.forall₂_map_right_iff, List.forall₂_same]
  exact hitems

/-- Going over a list succeeds where it does for every item. -/
theorem exists_mapM_eq_ok_iff {f : α → Except ε β} {items : List α} :
    (∃ results, items.mapM f = .ok results) ↔ ∀ item ∈ items, ∃ result, f item = .ok result := by
  induction items with
  | nil => exact iff_of_true ⟨[], rfl⟩ (by simp)
  | cons item items ih =>
    rw [List.mapM_cons, List.forall_mem_cons, ← ih]
    simp only [Except.bind_eq_ok_iff, Except.pure_eq_ok_iff]
    constructor
    · rintro ⟨-, result, hitem, rest, hrest, -⟩
      exact ⟨⟨result, hitem⟩, rest, hrest⟩
    · rintro ⟨⟨result, hitem⟩, rest, hrest⟩
      exact ⟨_, result, hitem, rest, hrest, rfl⟩

/-- The fault of a list is that of one of its items. -/
theorem exists_of_mapM_eq_error {f : α → Except ε β} {items : List α} {fault : ε}
    (hfault : items.mapM f = .error fault) : ∃ item ∈ items, f item = .error fault := by
  induction items with
  | nil => cases hfault
  | cons item items ih =>
    simp only [List.mapM_cons, Except.bind_eq_error_iff] at hfault
    rcases hfault with hitem | ⟨-, -, hitems | ⟨-, -, ⟨⟩⟩⟩
    · exact ⟨item, List.mem_cons_self, hitem⟩
    · obtain ⟨found, hfound, heq⟩ := ih hitems
      exact ⟨found, List.mem_cons_of_mem _ hfound, heq⟩

end List
