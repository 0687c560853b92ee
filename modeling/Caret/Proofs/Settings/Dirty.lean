import Caret.Proofs.Settings.ReadBack
import Mathlib.Data.List.DropRight

/-!
# The flag of a store

Settings are settled when they were loaded or saved. An operation that settles them takes the flag down, one that
changes them raises it, and every other leaves data and flag as they are; `perform_cases` says so, and nothing else
about the operations is used for whole runs. So the flag is up exactly if the settings were changed since they were
last settled, and where it is down, the data are those that were settled last.
-/

namespace Caret.Settings.Store

open Files

/-! ### Operations -/

/-- An operation on a store. Loading and saving find the disk as it is then. -/
inductive Operation where
  | load (disk : Disk)
  | set (key : Text) (value : Value)
  | save (disk : Disk)

/-- How an operation ends. -/
inductive Outcome where
  /-- The settings were loaded or saved. -/
  | settled
  /-- A value was set. -/
  | changed
  /-- A value was there already. -/
  | unchanged
  /-- The operation failed. -/
  | failed (fault : Fault)
  deriving DecidableEq

/-- How loading or saving ends. -/
def Outcome.ofSettling : Except Fault Unit → Outcome
  | .ok () => .settled
  | .error fault => .failed fault

/-- An operation that was performed: how it ended, and the store after it. -/
structure Event where
  outcome : Outcome
  store : Store

/-- Performs an operation. A store in which setting fails stays in use. -/
def perform (store : Store) : Operation → Event
  | .load disk => ⟨.ofSettling (store.load disk).1, (store.load disk).2⟩
  | .save disk => ⟨.ofSettling (store.save disk).1, (store.save disk).2.2⟩
  | .set key value =>
    match store.set key value with
    | .ok (true, stored) => ⟨.changed, stored⟩
    | .ok (false, stored) => ⟨.unchanged, stored⟩
    | .error fault => ⟨.failed fault, store⟩

/-- A store after operations one after the other, whatever becomes of each. -/
def performAll (store : Store) (operations : List Operation) : Store :=
  operations.foldl (fun store operation => (store.perform operation).store) store

/-- What happens when operations are performed one after the other. -/
def history (store : Store) : List Operation → List Event
  | [] => []
  | operation :: rest => store.perform operation :: (store.perform operation).store.history rest

/-- The store as of the last event that settled the settings; the one at the start if none did. -/
def lastSettled (start : Store) (events : List Event) : Store :=
  ((events.filter (·.outcome = .settled)).getLast?.map (·.store)).getD start

/-- What happened since the settings were last settled. -/
def sinceSettled (events : List Event) : List Event :=
  events.rtakeWhile (·.outcome ≠ .settled)

variable {start store : Store}

/-! ### One operation -/

theorem load_cases (store : Store) (disk : Disk) :
    ((store.load disk).1 = .ok () ∧ (store.load disk).2.dirty = false) ∨
    ∃ fault, store.load disk = (.error fault, { store with problem := none }) := by
  rw [load]
  split
  · exact .inr ⟨_, rfl⟩
  · exact .inl ⟨rfl, rfl⟩
  · exact .inl ⟨rfl, rfl⟩

theorem save_cases (store : Store) (disk : Disk) :
    ((store.save disk).1 = .ok () ∧ (store.save disk).2.2 = { store with dirty := false, problem := none }) ∨
    ∃ fault, (store.save disk).1 = .error fault ∧ (store.save disk).2.2 = store := by
  rw [save]
  split
  · exact .inl ⟨rfl, rfl⟩
  split
  · exact .inl ⟨rfl, rfl⟩
  · exact .inr ⟨_, rfl, rfl⟩

/-- Setting either changes the settings and raises the flag, or leaves the store as it is. -/
theorem perform_set_cases (store : Store) (key : Text) (value : Value) :
    ((store.perform (.set key value)).outcome = .changed ∧ (store.perform (.set key value)).store.dirty = true) ∨
    ((store.perform (.set key value)).outcome ≠ .settled ∧ (store.perform (.set key value)).outcome ≠ .changed ∧
      (store.perform (.set key value)).store = store) := by
  rw [perform]
  rcases set_cases store key value with ⟨-, hset⟩ | ⟨-, -, hset⟩ | ⟨first, rest, -, -, hset⟩
  · rw [hset]
    exact .inr ⟨Outcome.noConfusion, Outcome.noConfusion, rfl⟩
  · rw [hset]
    exact .inr ⟨Outcome.noConfusion, Outcome.noConfusion, rfl⟩
  · rw [hset]
    exact .inl ⟨rfl, rfl⟩

/-- Saving that fails leaves the store as it is. -/
theorem perform_save_of_failed {disk : Disk} {fault : Fault}
    (hfailed : (store.perform (.save disk)).outcome = .failed fault) :
    (store.perform (.save disk)).store = store := by
  rw [perform] at hfailed ⊢
  rcases save_cases store disk with ⟨hanswer, -⟩ | ⟨-, -, hsaved⟩
  · rw [hanswer] at hfailed
    cases hfailed
  · exact hsaved

/-- What an operation does to the flag and to the data. -/
theorem perform_cases (store : Store) (operation : Operation) :
    ((store.perform operation).outcome = .settled ∧ (store.perform operation).store.dirty = false) ∨
    ((store.perform operation).outcome = .changed ∧ (store.perform operation).store.dirty = true) ∨
    ((store.perform operation).outcome ≠ .settled ∧ (store.perform operation).outcome ≠ .changed ∧
      (store.perform operation).store.data = store.data ∧
      (store.perform operation).store.dirty = store.dirty) := by
  cases operation with
  | load disk =>
    rw [perform]
    rcases load_cases store disk with ⟨hanswer, hdirty⟩ | ⟨fault, hload⟩
    · rw [hanswer]
      exact .inl ⟨rfl, hdirty⟩
    · rw [hload]
      exact .inr (.inr ⟨Outcome.noConfusion, Outcome.noConfusion, rfl, rfl⟩)
  | set key value =>
    rcases perform_set_cases store key value with hchanged | ⟨hsettled, hchanged, hsame⟩
    · exact .inr (.inl hchanged)
    · rw [hsame]
      exact .inr (.inr ⟨hsettled, hchanged, rfl, rfl⟩)
  | save disk =>
    rw [perform]
    rcases save_cases store disk with ⟨hanswer, hsaved⟩ | ⟨fault, hanswer, hsaved⟩
    · rw [hanswer, hsaved]
      exact .inl ⟨rfl, rfl⟩
    · rw [hanswer, hsaved]
      exact .inr (.inr ⟨Outcome.noConfusion, Outcome.noConfusion, rfl, rfl⟩)

/-! ### Runs -/

theorem performAll_concat (start : Store) (operations : List Operation) (operation : Operation) :
    start.performAll (operations ++ [operation]) = ((start.performAll operations).perform operation).store := by
  rw [performAll, List.foldl_concat, performAll]

theorem history_concat (start : Store) (operations : List Operation) (operation : Operation) :
    start.history (operations ++ [operation]) =
      start.history operations ++ [(start.performAll operations).perform operation] := by
  induction operations generalizing start with
  | nil => rfl
  | cons first rest ih =>
    rw [List.cons_append, history, ih, history, List.cons_append]
    rfl

section

variable {event : Event}

theorem lastSettled_concat_of_settled (start : Store) (events : List Event) (hevent : event.outcome = .settled) :
    lastSettled start (events ++ [event]) = event.store := by
  simp [lastSettled, hevent]

theorem lastSettled_concat_of_not_settled (start : Store) (events : List Event)
    (hevent : event.outcome ≠ .settled) : lastSettled start (events ++ [event]) = lastSettled start events := by
  simp [lastSettled, hevent]

theorem sinceSettled_concat_of_settled (events : List Event) (hevent : event.outcome = .settled) :
    sinceSettled (events ++ [event]) = [] :=
  List.rtakeWhile_concat_neg _ _ _ (by simpa using hevent)

theorem sinceSettled_concat_of_not_settled (events : List Event) (hevent : event.outcome ≠ .settled) :
    sinceSettled (events ++ [event]) = sinceSettled events ++ [event] :=
  List.rtakeWhile_concat_pos _ _ _ (by simpa using hevent)

end

/-- The flag of a store tells whether the settings were changed since they were last settled, and where it is down,
the data are as they were then. -/
structure IsTracked (start : Store) (events : List Event) (store : Store) : Prop where
  dirty_iff : store.dirty = true ↔ ∃ event ∈ sinceSettled events, event.outcome = .changed
  data_eq : store.dirty = false → store.data = (lastSettled start events).data

theorem IsTracked.perform {events : List Event} (htracked : IsTracked start events store) (operation : Operation) :
    IsTracked start (events ++ [store.perform operation]) (store.perform operation).store := by
  obtain ⟨hdirty, hdata⟩ := htracked
  rcases perform_cases store operation with
    ⟨hsettled, hflag⟩ | ⟨hchanged, hflag⟩ | ⟨hsettled, hchanged, hkept, hflag⟩
  · constructor
    · simp [sinceSettled_concat_of_settled events hsettled, hflag]
    · rw [lastSettled_concat_of_settled start events hsettled]
      exact fun _ => rfl
  · have hsettled : (store.perform operation).outcome ≠ .settled := by
      rw [hchanged]
      decide
    constructor
    · simp [sinceSettled_concat_of_not_settled events hsettled, hflag, hchanged]
    · simp [hflag]
  · constructor
    · simp [sinceSettled_concat_of_not_settled events hsettled, hflag, hchanged, hdirty]
    · rw [lastSettled_concat_of_not_settled start events hsettled, hkept, hflag]
      exact hdata

theorem isTracked_performAll (hstart : start.dirty = false) (operations : List Operation) :
    IsTracked start (start.history operations) (start.performAll operations) := by
  -- from the end, where `lastSettled` and `sinceSettled` look first
  induction operations using List.reverseRecOn with
  | nil => exact ⟨by simp [performAll, history, sinceSettled, hstart], fun _ => rfl⟩
  | append_singleton operations operation ih =>
    rw [performAll_concat, history_concat]
    exact ih.perform operation

/-- The flag is never stale. After operations in any order, on whatever disk each finds and whether or not it fails,
the flag is up exactly if a value was set since the settings were last loaded or saved; where it is down, the data are
as they were then. Where setting does not change the settings, data and flag stay, and where saving fails, so does
the problem. -/
theorem dirty_tracks_data (path : Option Text) (defaults : Option Members) (operations : List Operation) :
    let start := new path defaults
    let store := start.performAll operations
    (store.dirty = false → store.data = (lastSettled start (start.history operations)).data) ∧
    (store.dirty = true ↔ ∃ event ∈ sinceSettled (start.history operations), event.outcome = .changed) ∧
    (∀ key value, (store.perform (.set key value)).outcome ≠ .changed →
      (store.perform (.set key value)).store.data = store.data ∧
      (store.perform (.set key value)).store.dirty = store.dirty) ∧
    ∀ disk fault, (store.perform (.save disk)).outcome = .failed fault →
      (store.perform (.save disk)).store.data = store.data ∧
      (store.perform (.save disk)).store.dirty = store.dirty ∧
      (store.perform (.save disk)).store.problem = store.problem := by
  intro start store
  have hstart : start.dirty = false := rfl
  have htracked := isTracked_performAll hstart operations
  refine ⟨htracked.data_eq, htracked.dirty_iff, fun key value hchanged => ?_, fun disk fault hfailed => ?_⟩
  · rcases perform_set_cases store key value with ⟨hset, -⟩ | ⟨-, -, hsame⟩
    · exact absurd hset hchanged
    · rw [hsame]
      exact ⟨rfl, rfl⟩
  · rw [perform_save_of_failed hfailed]
    exact ⟨rfl, rfl, rfl⟩

/-- A file stands in the place of the directory that settings are to be saved in. -/
def blockedDisk : Disk where
  tree := .directory [("conf".toList, .file (.bytes []))]
  cwd := "/".toList
  home := "/".toList
  library := "/".toList

/-- A value is set and saved at the second try, with a failure to set something in between. Setting it again changes
nothing, and another save fails. -/
def interrupted : List Operation :=
  [.set "theme".toList (.bool true), .save blockedDisk, .set [] .null, .save bareDisk,
    .set "theme".toList (.bool true), .save blockedDisk]

theorem dirty_tracks_data_interrupted :
    let start := new (some "conf/s.json".toList) (some [])
    let blocked := Fault.unwritable "conf/s.json".toList ⟨.exists, "conf".toList⟩
    (start.history interrupted).map (·.outcome) =
      [.changed, .failed blocked, .failed .emptyKey, .settled, .unchanged, .failed blocked] ∧
    (start.performAll interrupted).dirty = false ∧
    (start.performAll interrupted).data = (lastSettled start (start.history interrupted)).data := by
  intro start blocked
  have houtcomes : (start.history interrupted).map (·.outcome) =
      [.changed, .failed blocked, .failed .emptyKey, .settled, .unchanged, .failed blocked] := by decide +kernel
  have hdirty : (start.performAll interrupted).dirty = false := by decide +kernel
  obtain ⟨hdata, -⟩ := dirty_tracks_data (some "conf/s.json".toList) (some []) interrupted
  exact ⟨houtcomes, hdirty, hdata hdirty⟩

end Caret.Settings.Store
