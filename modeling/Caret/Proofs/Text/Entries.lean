import Caret.Proofs.Text.Sorted
import Caret.Text.Entries
import Mathlib.Data.List.Nodup
import Mathlib.Tactic.Common

/-!
# Entering and looking up

A key that is entered has its value, and no other key is touched. Where no key comes twice, entries are
known by what is looked up in them, up to their order; brought into the order of their keys, they are
known exactly.
-/

namespace Caret.Entries

open scoped List

variable {α β : Type} {key other : Text} {value found : α} {entries others : Entries α}

/-! ### Looking up -/

theorem get?_cons (k : Text) (v : α) (rest : Entries α) (key : Text) :
    get? ((k, v) :: rest) key = if key = k then some v else get? rest key := by
  rw [get?, get?, List.lookup_cons]
  by_cases heq : key = k
  · simp [heq]
  · rw [beq_eq_false_iff_ne.mpr heq, if_neg heq]

theorem get?_insert (key other : Text) (value : α) (entries : Entries α) :
    get? (insert key value entries) other = if other = key then some value else get? entries other := by
  induction entries with
  | nil => exact get?_cons key value [] other
  | cons entry rest ih =>
    obtain ⟨k, v⟩ := entry
    rw [insert]
    by_cases hk : k = key
    · subst hk
      rw [if_pos rfl, get?_cons, get?_cons]
      split <;> rfl
    · rw [if_neg hk, get?_cons, ih, get?_cons]
      by_cases hother : other = k
      · rw [if_pos hother, if_pos hother, if_neg (fun heq => hk (hother.symm.trans heq))]
      · rw [if_neg hother, if_neg hother]

theorem get?_insert_self (key : Text) (value : α) (entries : Entries α) :
    get? (insert key value entries) key = some value := by
  rw [get?_insert, if_pos rfl]

theorem get?_insert_of_ne (hne : other ≠ key) (value : α) (entries : Entries α) :
    get? (insert key value entries) other = get? entries other := by
  rw [get?_insert, if_neg hne]

/-- Of two values that a key is given, the second one counts. -/
theorem insert_insert (key : Text) (value found : α) (entries : Entries α) :
    insert key value (insert key found entries) = insert key value entries := by
  induction entries with
  | nil => rw [insert, insert, insert, if_pos rfl]
  | cons entry rest ih =>
    obtain ⟨k, v⟩ := entry
    rw [insert, insert]
    by_cases hk : k = key
    · rw [if_pos hk, if_pos hk, insert, if_pos rfl]
    · rw [if_neg hk, if_neg hk, insert, if_neg hk, ih]

/-- A key that is given the value it has keeps everything as it is. -/
theorem insert_of_get? (hget : get? entries key = some value) : insert key value entries = entries := by
  induction entries with
  | nil => cases hget
  | cons entry rest ih =>
    obtain ⟨k, v⟩ := entry
    rw [get?_cons] at hget
    rw [insert]
    split at hget
    · rename_i hk
      rw [if_pos hk.symm, Option.some.inj hget, hk]
    · rename_i hk
      rw [if_neg (Ne.symm hk), ih hget]

theorem mem_of_get? (hget : get? entries key = some value) : (key, value) ∈ entries := by
  obtain ⟨before, after, rfl, -⟩ := List.lookup_eq_some_iff.mp hget
  exact List.mem_append_right _ List.mem_cons_self

theorem get?_eq_none_iff : get? entries key = none ↔ key ∉ entries.map (·.1) := by
  induction entries with
  | nil => simp [get?]
  | cons entry rest ih =>
    obtain ⟨k, v⟩ := entry
    rw [get?_cons, List.map_cons, List.mem_cons, not_or, ← ih]
    split <;> simp_all

theorem mem_insert (hmem : (other, found) ∈ insert key value entries) :
    (other, found) ∈ entries ∨ (other = key ∧ found = value) := by
  induction entries with
  | nil =>
    obtain ⟨rfl, rfl⟩ := Prod.mk.inj (List.mem_singleton.mp hmem)
    exact .inr ⟨rfl, rfl⟩
  | cons entry rest ih =>
    obtain ⟨k, v⟩ := entry
    rw [insert] at hmem
    split at hmem
    · rcases List.mem_cons.mp hmem with heq | hmem
      · obtain ⟨rfl, rfl⟩ := Prod.mk.inj heq
        exact .inr ⟨rfl, rfl⟩
      · exact .inl (List.mem_cons_of_mem _ hmem)
    · rcases List.mem_cons.mp hmem with heq | hmem
      · rw [heq]
        exact .inl List.mem_cons_self
      · rcases ih hmem with hrest | hnew
        · exact .inl (List.mem_cons_of_mem _ hrest)
        · exact .inr hnew

theorem get?_map (f : α → β) (entries : Entries α) (key : Text) :
    get? (entries.map fun entry => (entry.1, f entry.2)) key = (get? entries key).map f := by
  induction entries with
  | nil => rfl
  | cons entry rest ih =>
    obtain ⟨k, v⟩ := entry
    rw [List.map_cons, get?_cons, get?_cons, ih]
    split <;> rfl

/-! ### Distinct keys -/

/-- No key comes twice. -/
def IsDistinct (entries : Entries α) : Prop :=
  (entries.map (·.1)).Nodup

instance (entries : Entries α) : Decidable entries.IsDistinct :=
  inferInstanceAs (Decidable (List.Nodup _))

theorem keys_insert (key : Text) (value : α) (entries : Entries α) :
    (insert key value entries).map (·.1) =
      if key ∈ entries.map (·.1) then entries.map (·.1) else entries.map (·.1) ++ [key] := by
  induction entries with
  | nil => rfl
  | cons entry rest ih =>
    obtain ⟨k, v⟩ := entry
    rw [insert]
    by_cases hk : k = key
    · simp [hk]
    · rw [if_neg hk, List.map_cons, ih, List.map_cons]
      have hne : key ≠ k := Ne.symm hk
      by_cases hmem : key ∈ rest.map (·.1)
      · rw [if_pos hmem, if_pos (List.mem_cons_of_mem _ hmem)]
      · rw [if_neg hmem, if_neg (by simpa [hne] using hmem), List.cons_append]

theorem IsDistinct.insert (hdistinct : IsDistinct entries) (key : Text) (value : α) :
    IsDistinct (Entries.insert key value entries) := by
  rw [IsDistinct, keys_insert]
  split
  · exact hdistinct
  · rename_i hnew
    refine List.nodup_append.mpr ⟨hdistinct, List.pairwise_singleton _ key, ?_⟩
    intro a ha b hb heq
    rw [List.mem_singleton.mp hb] at heq
    exact hnew (heq ▸ ha)

theorem IsDistinct.get?_eq_some (hdistinct : IsDistinct entries) :
    get? entries key = some value ↔ (key, value) ∈ entries := by
  refine ⟨mem_of_get?, fun hmem => ?_⟩
  induction entries with
  | nil => exact absurd hmem List.not_mem_nil
  | cons entry rest ih =>
    obtain ⟨k, v⟩ := entry
    obtain ⟨hfirst, hrest⟩ := List.nodup_cons.mp hdistinct
    rw [get?_cons]
    rcases List.mem_cons.mp hmem with heq | hlater
    · obtain ⟨rfl, rfl⟩ := Prod.mk.inj heq
      exact if_pos rfl
    · have hne : key ≠ k := by
        rintro rfl
        exact hfirst (List.mem_map.mpr ⟨_, hlater, rfl⟩)
      rw [if_neg hne]
      exact ih hrest hlater

theorem IsDistinct.perm (hdistinct : IsDistinct entries) (hperm : entries ~ others) :
    IsDistinct others :=
  (hperm.map _).nodup_iff.mp hdistinct

theorem IsDistinct.nodup (hdistinct : IsDistinct entries) : entries.Nodup :=
  List.Nodup.of_map _ hdistinct

/-- Entries with the same look-ups are the same but for their order. -/
theorem IsDistinct.perm_of_get? (hdistinct : IsDistinct entries) (hothers : IsDistinct others)
    (hget : ∀ key, get? entries key = get? others key) : entries ~ others := by
  rw [List.perm_ext_iff_of_nodup hdistinct.nodup hothers.nodup]
  rintro ⟨key, value⟩
  rw [← hdistinct.get?_eq_some, ← hothers.get?_eq_some, hget]

theorem IsDistinct.get?_of_perm (hdistinct : IsDistinct entries) (hperm : entries ~ others)
    (key : Text) : get? entries key = get? others key := by
  ext value
  rw [hdistinct.get?_eq_some, (hdistinct.perm hperm).get?_eq_some, hperm.mem_iff]

theorem insert_of_not_mem (hnew : key ∉ entries.map (·.1)) (value : α) :
    insert key value entries = entries ++ [(key, value)] := by
  induction entries with
  | nil => rfl
  | cons entry rest ih =>
    obtain ⟨k, v⟩ := entry
    rw [List.map_cons, List.mem_cons, not_or] at hnew
    rw [insert, if_neg (Ne.symm hnew.1), ih hnew.2, List.cons_append]

/-- Entering distinct new keys one after the other puts them in a row. -/
theorem insertAll_of_isDistinct {done rest : Entries α} (hdistinct : IsDistinct (done ++ rest)) :
    insertAll done rest = done ++ rest := by
  induction rest generalizing done with
  | nil => exact (List.append_nil done).symm
  | cons entry rest ih =>
    obtain ⟨key, value⟩ := entry
    have hnew : insert key value done = done ++ [(key, value)] := by
      apply insert_of_not_mem
      intro hmem
      rw [IsDistinct, List.map_append, List.nodup_append] at hdistinct
      exact hdistinct.2.2 key hmem key (by simp) rfl
    change insertAll (insert key value done) rest = _
    rw [hnew, ih (by simpa using hdistinct), List.append_assoc, List.singleton_append]

theorem insertAll_nil (hdistinct : IsDistinct entries) : insertAll [] entries = entries :=
  insertAll_of_isDistinct hdistinct

theorem isDistinct_insertAll (entries more : Entries α) (hdistinct : IsDistinct entries) :
    IsDistinct (insertAll entries more) := by
  rw [insertAll]
  induction more generalizing entries with
  | nil => exact hdistinct
  | cons entry more ih => exact ih _ (hdistinct.insert entry.1 entry.2)

theorem mem_insertAll {entries more : Entries α} (hmem : (other, found) ∈ insertAll entries more) :
    (other, found) ∈ entries ∨ (other, found) ∈ more := by
  rw [insertAll] at hmem
  induction more generalizing entries with
  | nil => exact .inl hmem
  | cons entry more ih =>
    rcases ih hmem with hentered | hrest
    · rcases mem_insert hentered with hold | ⟨rfl, rfl⟩
      · exact .inl hold
      · exact .inr List.mem_cons_self
    · exact .inr (List.mem_cons_of_mem _ hrest)

/-! ### Order of keys -/

/-- The entries in the order of their keys. -/
def inOrder (entries : Entries α) : Entries α :=
  entries.mergeSort fun a b => Text.le a.1 b.1

theorem inOrder_perm (entries : Entries α) : inOrder entries ~ entries :=
  List.mergeSort_perm _ _

theorem inOrder_pairwise (entries : Entries α) :
    (inOrder entries).Pairwise fun a b => Text.le a.1 b.1 = true := by
  apply List.pairwise_mergeSort
  · intro a b c hab hbc
    exact Text.le_trans hab hbc
  · intro a b
    simpa using Text.le_total a.1 b.1

theorem inOrder_eq_self (hsorted : entries.Pairwise fun a b => Text.le a.1 b.1 = true) :
    inOrder entries = entries :=
  List.mergeSort_of_pairwise hsorted

/-- Distinct keys have one order only. -/
theorem IsDistinct.inOrder_eq (hdistinct : IsDistinct entries) (hperm : entries ~ others) :
    inOrder entries = inOrder others := by
  have hdistinct' := hdistinct.perm (inOrder_perm entries).symm
  have hall := (inOrder_perm entries).trans (hperm.trans (inOrder_perm others).symm)
  refine hall.eq_of_pairwise ?_ (inOrder_pairwise entries) (inOrder_pairwise others)
  rintro ⟨k, v⟩ ⟨k', v'⟩ hmem hmem' hle hle'
  obtain rfl : k = k' := Text.le_antisymm hle hle'
  have hvalue := hdistinct'.get?_eq_some.mpr hmem
  rw [hdistinct'.get?_eq_some.mpr (hall.mem_iff.mpr hmem')] at hvalue
  rw [Option.some.inj hvalue]

/-- Entries under distinct keys ascend strictly once they are in order. -/
theorem IsDistinct.inOrder_ascending (hdistinct : IsDistinct entries) :
    (inOrder entries).Pairwise fun a b => Text.CodePointLT a.1 b.1 := by
  have hne : (inOrder entries).Pairwise fun a b => a.1 ≠ b.1 :=
    List.pairwise_map.mp (hdistinct.perm (inOrder_perm entries).symm)
  exact ((inOrder_pairwise entries).and hne).imp fun ⟨hle, hne⟩ =>
    Text.codePointLT_of_le_of_ne hle hne

theorem inOrder_map (f : α → β) (entries : Entries α) :
    inOrder (entries.map fun entry => (entry.1, f entry.2)) =
      (inOrder entries).map fun entry => (entry.1, f entry.2) :=
  (List.map_mergeSort (f := fun entry : Text × α => (entry.1, f entry.2))
    fun _ _ _ _ => rfl).symm

end Caret.Entries
