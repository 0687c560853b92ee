import Caret.Proofs.Settings.Fill
import Caret.Settings.Normalize

/-!
# Normal settings and the order of keys

Completion settings are made from the values of the known keys and from the members that are not known.
So filling in the defaults beforehand changes nothing. The order of keys in the objects among the values
shows only in the two settings that are texts made from a value.
-/

namespace Caret.Settings

open Value (ordered sorted)

variable {members : Members}

/-- The value of a known key: its own or the default. -/
def settingOf (members : Members) (key : Text) : Value :=
  (Entries.get? members key).getD ((Entries.get? (Completion.toMembers {}) key).getD .null)

/-- The members that are not known. -/
def unknown (members : Members) : Members :=
  members.filter fun (key, _) => !keys.contains key

/-- The load path that the value of its key makes. -/
def loadPathOf (value : Value) : Except Fault (List Text) :=
  listed value >>= directoriesOf

/-- The settings that the values of known keys make. -/
def ofValues (value : Text → Value) (other : Members) : Except Fault Completion := do
  let maxItems ← (value "max_items".toList).toIntOr 500
  let archive ← (value "library_archive".toList).displayTrue
  let loadPath ← loadPathOf (value "load_path".toList)
  let debug ← (value "debug".toList).toIntOr 0
  return {
    enabled := (value "enabled".toList).isTrue
    maxItems := clamp 5 5000 maxItems
    caseSensitiveMembers := (value "case_sensitive_members".toList).isTrue
    libraryArchive := Text.trim archive
    loadPath
    classDiscovery := (value "class_discovery".toList).isTrue
    debug := clamp 0 3 debug
    other }

theorem unknown_cons (key : Text) (value : Value) (rest : Members) :
    unknown ((key, value) :: rest) = if key ∈ keys then unknown rest else (key, value) :: unknown rest := by
  rw [unknown, List.filter_cons]
  by_cases hkey : key ∈ keys
  · rw [if_neg (by simpa using hkey), if_pos hkey, unknown]
  · rw [if_pos (by simpa using hkey), if_neg hkey, unknown]

theorem normalize_eq (config : Value) :
    normalize config =
      ofValues (settingOf (config.members?.getD [])) (unknown (config.members?.getD [])) := by
  rw [ofValues]
  simp only [loadPathOf, bind_assoc]
  rfl

/-- The load path of settings of which nothing else is a fault. -/
theorem loadPath_ofValues {value : Text → Value} (other : Members) {maxItems debug : Int} {archive : Text}
    (hmax : (value "max_items".toList).toIntOr 500 = .ok maxItems)
    (harchive : (value "library_archive".toList).displayTrue = .ok archive)
    (hdebug : (value "debug".toList).toIntOr 0 = .ok debug) :
    (ofValues value other).map (·.loadPath) = loadPathOf (value "load_path".toList) := by
  rw [ofValues, hmax, harchive, hdebug]
  cases loadPathOf (value "load_path".toList) <;> rfl

/-! ### Filling in the defaults -/

theorem isDistinct_toMembers : (Completion.toMembers {}).IsDistinct := by
  decide

/-- The defaults are no objects, and known keys have them. -/
theorem default_cases {key : Text} {default : Value}
    (hdefault : (key, default) ∈ Completion.toMembers {}) :
    key ∈ keys ∧ default.ordered = default ∧ ∀ value, filled value default = value := by
  simp only [Completion.toMembers, List.append_nil, List.mem_cons, Prod.mk.injEq, List.not_mem_nil,
    or_false, List.map_nil] at hdefault
  rcases hdefault with ⟨rfl, rfl⟩ | ⟨rfl, rfl⟩ | ⟨rfl, rfl⟩ | ⟨rfl, rfl⟩ | ⟨rfl, rfl⟩ | ⟨rfl, rfl⟩ |
    ⟨rfl, rfl⟩ <;> exact ⟨by decide, rfl, fun value => by rw [filled]; simp⟩

theorem settingOf_fill (members : Members) (key : Text) :
    settingOf (fill members (Completion.toMembers {})) key = settingOf members key := by
  rw [settingOf, settingOf, get?_fill members isDistinct_toMembers]
  cases hdefault : Entries.get? (Completion.toMembers {}) key with
  | none => cases Entries.get? members key <;> rfl
  | some default =>
    cases Entries.get? members key with
    | none => rfl
    | some value =>
      rw [filledValue?, (default_cases (Entries.mem_of_get? hdefault)).2.2]

theorem unknown_insert {key : Text} (hkey : key ∈ keys) (value : Value) (members : Members) :
    unknown (Entries.insert key value members) = unknown members := by
  induction members with
  | nil => rw [Entries.insert, unknown_cons, if_pos hkey]
  | cons member rest ih =>
    obtain ⟨k, v⟩ := member
    rw [Entries.insert]
    split
    · subst k
      rw [unknown_cons, unknown_cons, if_pos hkey, if_pos hkey]
    · rw [unknown_cons, unknown_cons, ih]

theorem unknown_fill {defaults : Members} (hdefaults : ∀ entry ∈ defaults, entry.1 ∈ keys)
    (members : Members) : unknown (fill members defaults) = unknown members := by
  induction defaults generalizing members with
  | nil => rw [fill]
  | cons entry rest ih =>
    obtain ⟨key, default⟩ := entry
    obtain ⟨hkey, hrest⟩ := List.forall_mem_cons.mp hdefaults
    rw [fill]
    split
    · rw [ih hrest, unknown_insert hkey]
    · rw [ih hrest, unknown_insert hkey]

/-- Settings with the defaults filled in are the same settings. -/
theorem normalize_fill (members : Members) :
    normalize (.object (fill members (Completion.toMembers {}))) = normalize (.object members) := by
  rw [normalize_eq, normalize_eq]
  have hsetting : settingOf (fill members (Completion.toMembers {})) = settingOf members :=
    funext (settingOf_fill members)
  have hunknown : unknown (fill members (Completion.toMembers {})) = unknown members :=
    unknown_fill (fun entry hentry => (default_cases hentry).1) members
  exact congrArg₂ ofValues hsetting hunknown

/-! ### The order of keys -/

/-- Settings with the members that are not known in order. -/
def Completion.inOrder (settings : Completion) : Completion :=
  { settings with other := sorted settings.other }

theorem toIntOr_ordered (default : Int) (value : Value) :
    value.ordered.toIntOr default = value.toIntOr default := by
  cases value with
  | list items =>
    rw [Value.ordered_list]
    rfl
  | object members =>
    rw [Value.ordered_object]
    rfl
  | _ => rfl

theorem get?_unknown (members : Members) (key : Text) :
    Entries.get? (unknown members) key = if key ∈ keys then none else Entries.get? members key := by
  induction members with
  | nil => split <;> rfl
  | cons member rest ih =>
    obtain ⟨k, v⟩ := member
    rw [unknown_cons, Entries.get?_cons]
    by_cases hkey : k ∈ keys
    · rw [if_pos hkey, ih]
      split
      · rfl
      · rename_i hother
        rw [if_neg (by rintro rfl; exact hother hkey)]
    · rw [if_neg hkey, Entries.get?_cons, ih]
      by_cases heq : key = k
      · rw [if_pos heq, if_pos heq, if_neg (heq ▸ hkey)]
      · rw [if_neg heq, if_neg heq]

/-- A setting is its key's own value, or it is in order. -/
theorem settingOf_cases (members : Members) (key : Text) :
    Entries.get? members key = some (settingOf members key) ∨
      (settingOf members key).ordered = settingOf members key := by
  rw [settingOf]
  cases Entries.get? members key with
  | some value => exact .inl rfl
  | none =>
    cases hdefault : Entries.get? (Completion.toMembers {}) key with
    | none => exact .inr rfl
    | some default => exact .inr (default_cases (Entries.mem_of_get? hdefault)).2.1

theorem settingOf_sorted (hdistinct : members.IsDistinct) (key : Text) :
    settingOf (sorted members) key = (settingOf members key).ordered := by
  rw [settingOf, Value.get?_sorted hdistinct]
  cases hget : Entries.get? members key with
  | some value => rw [settingOf, hget, Option.map_some, Option.getD_some, Option.getD_some]
  | none =>
    rcases settingOf_cases members key with hown | hordered
    · rw [hget] at hown
      cases hown
    · rw [hordered, settingOf, hget, Option.map_none]

theorem sorted_unknown_sorted (hproper : Value.IsProper (.object members)) :
    sorted (unknown (sorted members)) = sorted (unknown members) := by
  obtain ⟨hdistinct, hmembers⟩ := Value.isProper_object_get?.mp hproper
  have hunknown : ∀ members : Members, members.IsDistinct → (unknown members).IsDistinct := by
    intro members hdistinct
    exact hdistinct.sublist (List.filter_sublist.map _)
  apply Value.object.inj
  rw [← Value.ordered_object, ← Value.ordered_object,
    Value.ordered_object_eq (hunknown _ (Value.isDistinct_sorted hdistinct)) (hunknown _ hdistinct)]
  intro key
  rw [get?_unknown, get?_unknown, Value.get?_sorted hdistinct]
  split
  · rfl
  · cases hget : Entries.get? members key with
    | none => rfl
    | some value => exact congrArg some (Value.ordered_ordered (hmembers key value hget))

/-- Settings from values that differ in the order of keys only are the same but for that order, if the
library and the load path do not differ. -/
theorem ofValues_ordered {value value' : Text → Value} {other other' : Members}
    (hvalues : ∀ key, (value' key).ordered = (value key).ordered)
    (harchive : value' "library_archive".toList = value "library_archive".toList)
    (hpath : value' "load_path".toList = value "load_path".toList) (hother : sorted other' = sorted other) :
    (ofValues value' other').map Completion.inOrder = (ofValues value other).map Completion.inOrder := by
  have hint : ∀ key default, (value' key).toIntOr default = (value key).toIntOr default := by
    intro key default
    rw [← toIntOr_ordered, hvalues, toIntOr_ordered]
  have htrue : ∀ key, (value' key).isTrue = (value key).isTrue := by
    intro key
    rw [← Value.isTrue_ordered, hvalues, Value.isTrue_ordered]
  rw [ofValues, ofValues]
  simp only [hint, htrue, harchive, hpath]
  cases (value "max_items".toList).toIntOr 500 with
  | error fault => rfl
  | ok maxItems =>
    cases (value "library_archive".toList).displayTrue with
    | error fault => rfl
    | ok archive =>
      cases loadPathOf (value "load_path".toList) with
      | error fault => rfl
      | ok loadPath =>
        cases (value "debug".toList).toIntOr 0 with
        | error fault => rfl
        | ok debug =>
          change Except.ok (Completion.inOrder _) = Except.ok (Completion.inOrder _)
          rw [Completion.inOrder, Completion.inOrder, hother]

/-- Bringing settings into order leaves them the same but for that order, if the library and the load
path are in order already. -/
theorem normalize_sorted (hproper : Value.IsProper (.object members))
    (harchive : ∀ value, Entries.get? members "library_archive".toList = some value → value.ordered = value)
    (hpath : ∀ value, Entries.get? members "load_path".toList = some value → value.ordered = value) :
    (normalize (.object (sorted members))).map Completion.inOrder =
      (normalize (.object members)).map Completion.inOrder := by
  obtain ⟨hdistinct, hmembers⟩ := Value.isProper_object_get?.mp hproper
  rw [normalize_eq, normalize_eq]
  apply ofValues_ordered
  · intro key
    change (settingOf (sorted members) key).ordered = (settingOf members key).ordered
    rw [settingOf_sorted hdistinct]
    rcases settingOf_cases members key with hget | hordered
    · exact Value.ordered_ordered (hmembers key _ hget)
    · rw [hordered, hordered]
  · exact (settingOf_sorted hdistinct _).trans ((settingOf_cases members _).elim (harchive _) id)
  · exact (settingOf_sorted hdistinct _).trans ((settingOf_cases members _).elim (hpath _) id)
  · exact sorted_unknown_sorted hproper

end Caret.Settings
