import Caret.Proofs.Settings.Reload
import Caret.Proofs.Value.Alike

/-!
# Reading back what was set

After a value was set, its key has a value that is alike. The one exception is null for a key that has no
value: such a key reads as null already, so that nothing is set, and later reads give their default.
-/

namespace Caret.Settings

open Files

variable {value found : Value} {key : Text}

theorem isProper_of_get? {path : List Text} (hvalue : value.IsProper) (hget : get? value path = some found) :
    found.IsProper := by
  induction path generalizing value with
  | nil =>
    rw [get?] at hget
    exact Option.some.inj hget ▸ hvalue
  | cons key rest ih =>
    obtain ⟨members, inner, rfl, hinner, hrest⟩ := exists_of_get?_cons hget
    exact ih ((Value.isProper_object_get?.mp hvalue).2 key inner hinner) hrest

namespace Store

variable {path : Option Text} {defaults : Option Members} {store : Store}

/-! ### States of a store -/

/-- A store that was new and that settings were loaded into, set in and saved from, in any order. Loading and
saving count also where they fail. -/
inductive IsReachable (path : Option Text) (defaults : Option Members) : Store → Prop where
  | new : IsReachable path defaults (Store.new path defaults)
  | load {store : Store} (disk : Disk) (hstore : IsReachable path defaults store) :
      IsReachable path defaults (store.load disk).2
  | set {store stored : Store} {key : Text} {value : Value} {changed : Bool} (hvalue : value.IsProper)
      (hset : store.set key value = .ok (changed, stored)) (hstore : IsReachable path defaults store) :
      IsReachable path defaults stored
  | save {store : Store} (disk : Disk) (hstore : IsReachable path defaults store) :
      IsReachable path defaults (store.save disk).2.2

theorem IsSound.save {path : Option Text} {defaults : Members} (hsound : IsSound path defaults store)
    (disk : Disk) : IsSound path defaults (store.save disk).2.2 := by
  obtain ⟨rfl, rfl, hdefaults, hdata⟩ := hsound
  rw [Store.save]
  split
  · exact ⟨rfl, rfl, hdefaults, hdata⟩
  · split <;> exact ⟨rfl, rfl, hdefaults, hdata⟩

theorem IsReachable.isSound (hdefaults : Value.IsProper (.object (defaults.getD builtIn)))
    (hstore : IsReachable path defaults store) :
    IsSound (Store.new path defaults).path (defaults.getD builtIn) store := by
  induction hstore with
  | new => exact ⟨rfl, rfl, hdefaults, isProper_fill isProper_nil hdefaults⟩
  | load disk _ ih =>
    have hcall : (Call.load disk).IsProper := trivial
    exact ih.after hcall
  | @set store stored key value changed hvalue hset _ ih =>
    have hcall : (Call.set key value).IsProper := hvalue
    have hsound := ih.after hcall
    rwa [Store.after, hset] at hsound
  | save disk _ ih => exact ih.save disk

/-! ### What setting does -/

/-- A value that counts as equal to what is read is not set. Every other value is set, unless the key is
empty. -/
theorem set_cases (store : Store) (key : Text) (value : Value) :
    ((store.get key .null).same value = true ∧ store.set key value = .ok (false, store)) ∨
    ((store.get key .null).same value = false ∧ key = [] ∧ store.set key value = .error .emptyKey) ∨
    ∃ first rest, (store.get key .null).same value = false ∧ Settings.path key = first :: rest ∧
      store.set key value =
        .ok (true, { store with data := Settings.set store.data first rest value, dirty := true }) := by
  rw [set]
  cases hsame : (store.get key .null).same value with
  | true => exact .inl ⟨rfl, rfl⟩
  | false =>
    by_cases hkey : key = []
    · subst hkey
      exact .inr (.inl ⟨rfl, rfl, rfl⟩)
    · obtain ⟨first, rest, hpath⟩ := exists_path hkey
      rw [setDotted_of_path hpath]
      exact .inr (.inr ⟨first, rest, rfl, hpath, rfl⟩)

theorem get_of_some (hget : get? (.object store.data) (Settings.path key) = some found) (default : Value) :
    store.get key default = found := by
  rw [get, getDotted, hget, Option.getD_some]

theorem get_of_none (hget : get? (.object store.data) (Settings.path key) = none) (default : Value) :
    store.get key default = default := by
  rw [get, getDotted, hget, Option.getD_none]

theorem eq_null_of_same (hsame : Value.same .null value = true) : value = .null := by
  cases value with
  | null => rfl
  | _ => cases hsame

theorem not_alike_null (b : Bool) : ¬ Value.Alike (.bool b) .null := by
  intro halike
  cases halike with
  | number _ hnull => cases hnull

/-- Whatever state a store is in, a value is set at every key that is not empty. If the store says that it
changed, the key has just that value; otherwise the store is as it was. So the key reads as a value that is
alike, whatever the default, except if the value is null and the key has none: then it reads as the default. -/
theorem get_alike_of_set (hdefaults : Value.IsProper (.object (defaults.getD builtIn)))
    (hstore : IsReachable path defaults store) (hkey : key ≠ []) (hvalue : value.IsProper) :
    ∃ changed stored, store.set key value = .ok (changed, stored) ∧
      (changed = true → ∀ default, stored.get key default = value) ∧
      (changed = false → stored = store) ∧
      ((∀ default, (stored.get key default).Alike value) ↔
        (value = .null → get? (.object store.data) (Settings.path key) ≠ none)) := by
  rcases set_cases store key value with ⟨hsame, hset⟩ | ⟨-, hempty, -⟩ | ⟨first, rest, hsame, hpath, hset⟩
  · refine ⟨false, store, hset, by simp, fun _ => rfl, ?_⟩
    cases hget : get? (.object store.data) (Settings.path key) with
    | none =>
      rw [get_of_none hget] at hsame
      obtain rfl := eq_null_of_same hsame
      -- a default that is not null is read as it is
      refine ⟨fun halike => absurd (halike (.bool true)) ?_, fun hbound => absurd rfl (hbound rfl)⟩
      rw [get_of_none hget]
      exact not_alike_null true
    | some found =>
      rw [get_of_some hget] at hsame
      have hfound := isProper_of_get? (hstore.isSound hdefaults).data_isProper hget
      refine ⟨fun _ _ => Option.some_ne_none found, fun _ default => ?_⟩
      rw [get_of_some hget]
      exact Value.alike_of_same hfound hvalue hsame
  · exact absurd hempty hkey
  · have hread : ∀ default,
        { store with data := Settings.set store.data first rest value, dirty := true }.get key default = value := by
      intro default
      rw [get, getDotted, hpath, get?_set, Option.getD_some]
    refine ⟨true, _, hset, fun _ => hread, by simp, fun _ hnull hget => ?_, fun _ default => ?_⟩
    · rw [get_of_none hget, hnull] at hsame
      cases hsame
    · rw [hread]
      exact .refl value

/-- False is not set in the place of zero and reads as zero; null is not set in the place of nothing and reads
as the default. -/
theorem get_alike_of_set_unchanged :
    (∃ stored, (new none none).set "completion.debug".toList (.bool false) = .ok (false, stored) ∧
      ∀ default, (stored.get "completion.debug".toList default).Alike (.bool false)) ∧
    ∃ stored, (new none (some [])).set "a".toList .null = .ok (false, stored) ∧
      ¬ ∀ default, (stored.get "a".toList default).Alike .null := by
  constructor
  · have hdefaults : Value.IsProper (.object (Option.getD none builtIn)) := isProper_builtIn
    have hstore : IsReachable none none (new none none) := .new
    have hkey : "completion.debug".toList ≠ [] := by decide
    have hvalue : Value.IsProper (.bool false) := trivial
    obtain ⟨changed, stored, hset, -, -, halike⟩ := get_alike_of_set hdefaults hstore hkey hvalue
    have hsame : (new none none).set "completion.debug".toList (.bool false) = .ok (false, new none none) := rfl
    cases hsame.symm.trans hset
    exact ⟨_, hset, halike.mpr (by rintro ⟨⟩)⟩
  · have hdefaults : Value.IsProper (.object (Option.getD (some []) builtIn)) := isProper_nil
    have hstore : IsReachable none (some []) (new none (some [])) := .new
    have hkey : "a".toList ≠ [] := by decide
    have hvalue : Value.IsProper .null := trivial
    obtain ⟨changed, stored, hset, -, -, halike⟩ := get_alike_of_set hdefaults hstore hkey hvalue
    have hsame : (new none (some [])).set "a".toList .null = .ok (false, new none (some [])) := rfl
    cases hsame.symm.trans hset
    exact ⟨_, hset, fun hall => halike.mp hall rfl rfl⟩

end Store

end Caret.Settings
