import Caret.Proofs.Settings.Path
import Caret.Proofs.Value.Ordered

/-!
# Filling in defaults

What is looked up in an object with defaults filled in: its own value where it has one, with the
defaults filled in there if both are objects, and otherwise the default. So filling in does not depend
on the order of members, and it leaves no key twice. Along a path the object's own values come first as far
as they go, and the defaults show only where nothing is set and nothing stands in the way.
-/

namespace Caret.Settings

open Value (IsProper ordered)

variable {members others defaults : Members} {key : Text} {value : Value}

theorem filled_object (members defaults : Members) :
    filled (.object members) (.object defaults) = .object (fill members defaults) := by
  rw [filled]

/-- The value of a key with defaults filled in. -/
def filledValue? : Option Value → Option Value → Option Value
  | none, default? => default?
  | some value, none => some value
  | some value, some default => some (filled value default)

theorem get?_fill (members : Members) (hdefaults : defaults.IsDistinct) (key : Text) :
    Entries.get? (fill members defaults) key =
      filledValue? (Entries.get? members key) (Entries.get? defaults key) := by
  induction defaults generalizing members with
  | nil =>
    rw [fill]
    cases Entries.get? members key <;> rfl
  | cons entry rest ih =>
    obtain ⟨first, default⟩ := entry
    obtain ⟨hfirst, hrest⟩ := List.nodup_cons.mp hdefaults
    -- the key that is filled in here does not come again
    have hnone : Entries.get? rest first = none := Entries.get?_eq_none_iff.mpr hfirst
    rw [fill, Entries.get?_cons]
    by_cases heq : key = first
    · subst heq
      cases hget : Entries.get? members key with
      | none => simp [ih _ hrest, Entries.get?_insert_self, hnone, filledValue?]
      | some value => simp [ih _ hrest, Entries.get?_insert_self, hnone, filledValue?]
    · rw [if_neg heq]
      cases Entries.get? members first with
      | none => simp only [ih _ hrest, Entries.get?_insert_of_ne heq]
      | some value => simp only [ih _ hrest, Entries.get?_insert_of_ne heq]

theorem isDistinct_fill (hmembers : members.IsDistinct) (defaults : Members) :
    (fill members defaults).IsDistinct := by
  induction defaults generalizing members with
  | nil => rwa [fill]
  | cons entry rest ih =>
    obtain ⟨first, default⟩ := entry
    rw [fill]
    split
    · exact ih (hmembers.insert first _)
    · exact ih (hmembers.insert first _)

theorem isProper_filled {default : Value} (hdefault : default.IsProper) (hvalue : value.IsProper) :
    (filled value default).IsProper := by
  induction default using Value.induction generalizing value with
  | object defaults ih =>
    cases value with
    | object members =>
      obtain ⟨hdefaults, hdefault⟩ := Value.isProper_object_get?.mp hdefault
      obtain ⟨hmembers, hvalue⟩ := Value.isProper_object_get?.mp hvalue
      rw [filled_object, Value.isProper_object_get?]
      refine ⟨isDistinct_fill hmembers defaults, fun key found hfound => ?_⟩
      rw [get?_fill members hdefaults] at hfound
      cases hget : Entries.get? members key with
      | none =>
        rw [hget] at hfound
        exact hdefault key found hfound
      | some value =>
        rw [hget] at hfound
        cases hget' : Entries.get? defaults key with
        | none =>
          rw [hget'] at hfound
          exact Option.some.inj hfound ▸ hvalue key value hget
        | some default =>
          rw [hget'] at hfound
          rw [← Option.some.inj hfound]
          exact ih _ (Entries.mem_of_get? hget') (hdefault key default hget') (hvalue key value hget)
    | _ => exact hvalue
  | _ => exact hvalue

theorem isProper_fill (hmembers : IsProper (.object members)) (hdefaults : IsProper (.object defaults)) :
    IsProper (.object (fill members defaults)) := by
  rw [← filled_object]
  exact isProper_filled hdefaults hmembers

/-- Filling in does not depend on the order of members. -/
theorem ordered_filled {other default : Value} (hdefault : default.IsProper) (hvalue : value.IsProper)
    (hother : other.IsProper) (heq : value.ordered = other.ordered) :
    (filled value default).ordered = (filled other default).ordered := by
  induction default using Value.induction generalizing value other with
  | object defaults ih =>
    cases value with
    | object members =>
      cases other with
      | object others =>
        obtain ⟨hdefaults, hdefault⟩ := Value.isProper_object_get?.mp hdefault
        obtain ⟨hmembers, hvalue⟩ := Value.isProper_object_get?.mp hvalue
        obtain ⟨hothers, hother⟩ := Value.isProper_object_get?.mp hother
        rw [Value.ordered_object_eq hmembers hothers] at heq
        rw [filled_object, filled_object, Value.ordered_object_eq (isDistinct_fill hmembers defaults)
          (isDistinct_fill hothers defaults)]
        intro key
        rw [get?_fill members hdefaults, get?_fill others hdefaults]
        have hkey := heq key
        cases hget : Entries.get? members key with
        | none =>
          rw [hget, Option.map_none, eq_comm, Option.map_eq_none_iff] at hkey
          rw [hkey]
        | some value =>
          rw [hget, Option.map_some, eq_comm, Option.map_eq_some_iff] at hkey
          obtain ⟨other, hget', hsame⟩ := hkey
          rw [hget']
          cases hdef : Entries.get? defaults key with
          | none => exact congrArg some hsame.symm
          | some default =>
            exact congrArg some (ih _ (Entries.mem_of_get? hdef) (hdefault key default hdef)
              (hvalue key value hget) (hother key other hget') hsame.symm)
      | _ => simp [ordered] at heq
    | _ =>
      cases other with
      | object others => simp [ordered] at heq
      | _ => exact heq
  | _ => exact heq

/-! ### Along a path -/

theorem filled_of_members? (hvalue : value.members? = none) (default : Value) : filled value default = value := by
  cases value with
  | object members => cases hvalue
  | _ => cases default <;> rw [filled] <;> simp

theorem filled_of_default {default : Value} (hdefault : default.members? = none) (value : Value) :
    filled value default = value := by
  cases default with
  | object defaults => cases hdefault
  | _ => rw [filled]; simp

/-- Where a path leads to a value, the defaults are filled in there. -/
theorem get?_filled_of_get? {default found : Value} {path : List Text} (hdefault : default.IsProper)
    (hget : get? value path = some found) :
    get? (filled value default) path = filledValue? (some found) (get? default path) := by
  induction path generalizing value default with
  | nil =>
    rw [get?] at hget ⊢
    rw [get?, Option.some.inj hget, filledValue?]
  | cons key rest ih =>
    obtain ⟨members, inner, rfl, hinner, hrest⟩ := exists_of_get?_cons hget
    cases hdefaults : default.members? with
    | none => rw [filled_of_default hdefaults, get?_cons_of_members? hdefaults, hget, filledValue?]
    | some defaults =>
      obtain rfl := eq_object_of_members? hdefaults
      obtain ⟨hdistinct, hproper⟩ := Value.isProper_object_get?.mp hdefault
      rw [filled_object, get?_object_cons, get?_object_cons, get?_fill members hdistinct, hinner]
      cases hkey : Entries.get? defaults key with
      | none => rw [filledValue?, Option.bind_some, Option.bind_none, hrest, filledValue?]
      | some default => exact ih (hproper key default hkey) hrest

/-- Something that is no object stands in the way of a path. -/
def IsBlocked (value : Value) (path : List Text) : Prop :=
  ∃ front found, front <+: path ∧ front ≠ path ∧ get? value front = some found ∧ found.members? = none

theorem get?_of_isBlocked {path : List Text} (hblocked : IsBlocked value path) : get? value path = none := by
  obtain ⟨front, found, ⟨more, rfl⟩, hne, hget, hfound⟩ := hblocked
  cases more with
  | nil => exact absurd (List.append_nil front).symm hne
  | cons key rest => rw [get?_append, hget, Option.bind_some, get?_cons_of_members? hfound]

theorem IsBlocked.cons {inner : Value} {path : List Text} (hkey : Entries.get? members key = some inner)
    (hblocked : IsBlocked inner path) : IsBlocked (.object members) (key :: path) := by
  obtain ⟨front, found, hfront, hne, hget, hfound⟩ := hblocked
  refine ⟨key :: front, found, List.cons_prefix_cons.mpr ⟨rfl, hfront⟩, ?_, ?_, hfound⟩
  · exact fun heq => hne (List.cons.inj heq).2
  · rw [get?_object_cons, hkey, Option.bind_some, hget]

/-- Where a path leads nowhere and nothing stands in its way, it leads where it does in the defaults. -/
theorem get?_filled_of_not_isBlocked {default : Value} {path : List Text} (hdefault : default.IsProper)
    (hget : get? value path = none) (hfree : ¬ IsBlocked value path) :
    get? (filled value default) path = get? default path := by
  induction path generalizing value default with
  | nil =>
    rw [get?] at hget
    cases hget
  | cons key rest ih =>
    cases hmembers : value.members? with
    | none =>
      refine absurd ⟨[], value, List.nil_prefix, ?_, ?_, hmembers⟩ hfree
      · exact (List.cons_ne_nil key rest).symm
      · rw [get?]
    | some members =>
      obtain rfl := eq_object_of_members? hmembers
      cases hdefaults : default.members? with
      | none => rw [filled_of_default hdefaults, hget, get?_cons_of_members? hdefaults]
      | some defaults =>
        obtain rfl := eq_object_of_members? hdefaults
        obtain ⟨hdistinct, hproper⟩ := Value.isProper_object_get?.mp hdefault
        rw [get?_object_cons] at hget
        rw [filled_object, get?_object_cons, get?_object_cons, get?_fill members hdistinct]
        cases hinner : Entries.get? members key with
        | none => rw [filledValue?]
        | some inner =>
          rw [hinner, Option.bind_some] at hget
          cases hkey : Entries.get? defaults key with
          | none => rw [filledValue?, Option.bind_some, Option.bind_none, hget]
          | some default => exact ih (hproper key default hkey) hget fun hblocked => hfree (hblocked.cons hinner)

/-! ### Filling in again -/

/-- Nothing is filled in where every default has its place already. -/
theorem fill_eq_self (hdefaults : ∀ entry ∈ defaults, ∃ value,
    Entries.get? members entry.1 = some value ∧ filled value entry.2 = value) :
    fill members defaults = members := by
  induction defaults with
  | nil => rw [fill]
  | cons entry rest ih =>
    obtain ⟨key, default⟩ := entry
    obtain ⟨⟨value, hget, hfilled⟩, hrest⟩ := List.forall_mem_cons.mp hdefaults
    rw [fill, hget]
    dsimp only
    rw [hfilled, Entries.insert_of_get? hget, ih hrest]

theorem filled_self {default : Value} (hdefault : default.IsProper) : filled default default = default := by
  induction default using Value.induction with
  | object defaults ih =>
    obtain ⟨hdistinct, hproper⟩ := Value.isProper_object.mp hdefault
    rw [filled_object]
    refine congrArg Value.object (fill_eq_self fun entry hentry => ?_)
    exact ⟨entry.2, hdistinct.get?_eq_some.mpr hentry, ih entry hentry (hproper entry hentry)⟩
  | _ => exact filled_of_default rfl _

/-- Defaults that were filled in once are not filled in again. -/
theorem filled_filled {default : Value} (hdefault : default.IsProper) (value : Value) :
    filled (filled value default) default = filled value default := by
  induction default using Value.induction generalizing value with
  | object defaults ih =>
    cases hmembers : value.members? with
    | none => rw [filled_of_members? hmembers, filled_of_members? hmembers]
    | some members =>
      obtain rfl := eq_object_of_members? hmembers
      obtain ⟨hdistinct, hproper⟩ := Value.isProper_object.mp hdefault
      rw [filled_object, filled_object]
      refine congrArg Value.object (fill_eq_self fun entry hentry => ?_)
      obtain ⟨key, default⟩ := entry
      rw [get?_fill members hdistinct, hdistinct.get?_eq_some.mpr hentry]
      cases Entries.get? members key with
      | none => exact ⟨default, rfl, filled_self (hproper _ hentry)⟩
      | some value => exact ⟨_, rfl, ih _ hentry (hproper _ hentry) value⟩
  | _ => rw [filled_of_default rfl, filled_of_default rfl]

/-- A value that is set and is no object is kept, with the defaults filled in around it. -/
theorem get?_filled_of_members? {default found : Value} {path : List Text} (hdefault : default.IsProper)
    (hget : get? value path = some found) (hfound : found.members? = none) :
    get? (filled value default) path = some found := by
  rw [get?_filled_of_get? hdefault hget]
  cases get? default path with
  | none => rfl
  | some default => rw [filledValue?, filled_of_members? hfound]

theorem IsBlocked.filled {default : Value} {path : List Text} (hdefault : default.IsProper)
    (hblocked : IsBlocked value path) : IsBlocked (filled value default) path := by
  obtain ⟨front, found, hfront, hne, hget, hfound⟩ := hblocked
  exact ⟨front, found, hfront, hne, get?_filled_of_members? hdefault hget hfound, hfound⟩

/-- What filling in means along every path: a value that is set and is no object is kept, and hides the
defaults below it; a path on which nothing is set leads where it does in the defaults; and an object that is
set stays an object. Filling in once more changes nothing. -/
theorem get?_fill_path (hdefaults : IsProper (.object defaults)) (data : Members) :
    (∀ path,
      (∀ value, get? (.object data) path = some value → value.members? = none →
        get? (.object (fill data defaults)) path = some value) ∧
      (IsBlocked (.object data) path → get? (.object (fill data defaults)) path = none) ∧
      (get? (.object data) path = none → ¬ IsBlocked (.object data) path →
        get? (.object (fill data defaults)) path = get? (.object defaults) path) ∧
      (∀ members, get? (.object data) path = some (.object members) →
        ∃ merged, get? (.object (fill data defaults)) path = some (.object merged))) ∧
    fill (fill data defaults) defaults = fill data defaults := by
  have hagain := filled_filled hdefaults (.object data)
  rw [filled_object, filled_object] at hagain
  refine ⟨fun path => ?_, Value.object.inj hagain⟩
  rw [← filled_object]
  refine ⟨fun value => get?_filled_of_members? hdefaults, fun hblocked => ?_,
    get?_filled_of_not_isBlocked hdefaults, fun members hget => ?_⟩
  · exact get?_of_isBlocked (hblocked.filled hdefaults)
  · rw [get?_filled_of_get? hdefaults hget]
    cases get? (.object defaults) path with
    | none => exact ⟨members, rfl⟩
    | some default =>
      cases hmembers : default.members? with
      | none => exact ⟨members, congrArg some (filled_of_default hmembers _)⟩
      | some defaults =>
        rw [eq_object_of_members? hmembers]
        exact ⟨_, congrArg some (filled_object members defaults)⟩

/-- Settings with a number in the place of an object. -/
def numberForObject : Members :=
  [("a".toList, .object [("x".toList, .int 1)]), ("b".toList, .int 0)]

/-- Defaults with objects inside. -/
def nestedDefaults : Members :=
  [("a".toList, .object [("x".toList, .int 0), ("y".toList, .int 2)]),
    ("b".toList, .object [("z".toList, .int 3)])]

theorem isProper_nestedDefaults : IsProper (.object nestedDefaults) := by
  refine Value.isProper_object.mpr ⟨by decide, ?_⟩
  simp only [nestedDefaults, List.forall_mem_cons, Value.isProper_object]
  simp [IsProper, Value.Everywhere, Value.HasDistinctKeys, Entries.IsDistinct]

theorem get?_fill_path_nested :
    get? (.object (fill numberForObject nestedDefaults)) ["a".toList, "x".toList] = some (.int 1) ∧
      get? (.object (fill numberForObject nestedDefaults)) ["a".toList, "y".toList] = some (.int 2) ∧
      get? (.object (fill numberForObject nestedDefaults)) ["b".toList, "z".toList] = none ∧
      fill (fill numberForObject nestedDefaults) nestedDefaults = fill numberForObject nestedDefaults := by
  obtain ⟨hpath, hagain⟩ := get?_fill_path isProper_nestedDefaults numberForObject
  refine ⟨?_, ?_, ?_, hagain⟩
  · exact (hpath _).1 (.int 1) rfl rfl
  · refine ((hpath _).2.2.1 rfl ?_).trans rfl
    rintro ⟨front, found, hfront, hne, hget, hfound⟩
    -- what stands on the way are the settings themselves and the object in them
    rw [← List.mem_inits] at hfront
    simp only [List.inits, List.map_cons, List.map_nil, List.mem_cons, List.not_mem_nil, or_false] at hfront
    rcases hfront with rfl | rfl | rfl
    · cases hget
      cases hfound
    · cases hget
      cases hfound
    · exact hne rfl
  · exact (hpath _).2.1 ⟨["b".toList], .int 0, by decide, by decide, rfl, rfl⟩

end Caret.Settings
