import Caret.Proofs.List
import Caret.Proofs.Settings.Normalize
import Caret.Proofs.Text.Cut
import Caret.Proofs.Value.Writable

/-!
# Settings that have a normal form

Bringing settings into normal form fails for three reasons only: one of the two numbers is infinite, the load
path is a value that has no items, or the library or a directory of the load path is a value that cannot be
written. In normal form the numbers are in their range and the texts have nothing to trim. Such settings are
their own normal form, so that it does no harm to bring them into it again.
-/

namespace Caret.Settings

variable {members : Members} {value : Text → Value} {other : Members} {settings : Completion}

/-- A value that directories can be read from: one with items, or one that counts as nothing. -/
def IsListing : Value → Prop
  | .text _ | .list _ | .object _ => True
  | value => value.isTrue = false

/-- Members that completion settings can be made from: no number is infinite, the load path has items, and
what is to be a text can be written. -/
structure HasNormalForm (members : Members) : Prop where
  max_items : ∀ negative, Entries.get? members "max_items".toList ≠ some (.real (.infinite negative))
  library_archive : ∀ value, Entries.get? members "library_archive".toList = some value → value.isWritable = true
  load_path : ∀ value, Entries.get? members "load_path".toList = some value → IsListing value
  directories : ∀ items, Entries.get? members "load_path".toList = some (.list items) →
    ∀ item ∈ items, item.isWritable = true
  debug : ∀ negative, Entries.get? members "debug".toList ≠ some (.real (.infinite negative))

/-- What stands in the way of a normal form, and the fault that it is. The library and the load path are looked
at after the one number and before the other. -/
inductive Obstacle (members : Members) : Fault → Prop where
  | max_items {negative : Bool}
      (hmax : Entries.get? members "max_items".toList = some (.real (.infinite negative))) :
      Obstacle members .overflow
  | library_archive {value : Value}
      (hmax : ∀ negative, Entries.get? members "max_items".toList ≠ some (.real (.infinite negative)))
      (harchive : Entries.get? members "library_archive".toList = some value)
      (hvalue : value.isWritable = false) :
      Obstacle members .badValue
  | load_path {value : Value}
      (hmax : ∀ negative, Entries.get? members "max_items".toList ≠ some (.real (.infinite negative)))
      (harchive : ∀ value, Entries.get? members "library_archive".toList = some value → value.isWritable = true)
      (hpath : Entries.get? members "load_path".toList = some value) (hvalue : ¬ IsListing value) :
      Obstacle members .badType
  | directory {items : List Value} {item : Value}
      (hmax : ∀ negative, Entries.get? members "max_items".toList ≠ some (.real (.infinite negative)))
      (hpath : Entries.get? members "load_path".toList = some (.list items)) (hitem : item ∈ items)
      (hvalue : item.isWritable = false) :
      Obstacle members .badValue
  | debug {negative : Bool}
      (harchive : ∀ value, Entries.get? members "library_archive".toList = some value → value.isWritable = true)
      (hpath : ∀ value, Entries.get? members "load_path".toList = some value → IsListing value)
      (hitems : ∀ items, Entries.get? members "load_path".toList = some (.list items) →
        ∀ item ∈ items, item.isWritable = true)
      (hdebug : Entries.get? members "debug".toList = some (.real (.infinite negative))) :
      Obstacle members .overflow

theorem hasNormalForm_iff : HasNormalForm members ↔ ∀ fault, ¬ Obstacle members fault := by
  constructor
  · rintro ⟨hmax, harchive, hpath, hitems, hdebug⟩ fault hobstacle
    cases hobstacle with
    | max_items hinfinite => exact hmax _ hinfinite
    | library_archive _ hget hvalue => exact Bool.false_ne_true (hvalue.symm.trans (harchive _ hget))
    | load_path _ _ hget hvalue => exact hvalue (hpath _ hget)
    | directory _ hget hitem hvalue => exact Bool.false_ne_true (hvalue.symm.trans (hitems _ hget _ hitem))
    | debug _ _ _ hinfinite => exact hdebug _ hinfinite
  · intro hfree
    have hmax : ∀ negative, Entries.get? members "max_items".toList ≠ some (.real (.infinite negative)) :=
      fun negative hinfinite => hfree _ (.max_items hinfinite)
    have harchive : ∀ value, Entries.get? members "library_archive".toList = some value →
        value.isWritable = true := by
      intro value hget
      by_contra hvalue
      exact hfree _ (.library_archive hmax hget (Bool.eq_false_iff.mpr hvalue))
    have hpath : ∀ value, Entries.get? members "load_path".toList = some value → IsListing value := by
      intro value hget
      by_contra hvalue
      exact hfree _ (.load_path hmax harchive hget hvalue)
    have hitems : ∀ items, Entries.get? members "load_path".toList = some (.list items) →
        ∀ item ∈ items, item.isWritable = true := by
      intro items hget item hitem
      by_contra hvalue
      exact hfree _ (.directory hmax hget hitem (Bool.eq_false_iff.mpr hvalue))
    exact ⟨hmax, harchive, hpath, hitems,
      fun negative hinfinite => hfree _ (.debug harchive hpath hitems hinfinite)⟩

/-! ### Making settings from values -/

theorem toIntOr_eq_error_iff {default : Int} {value : Value} {fault : Fault} :
    value.toIntOr default = .error fault ↔
      fault = .overflow ∧ ∃ negative, value = .real (.infinite negative) := by
  cases value with
  | real x =>
    cases x with
    | infinite negative => simp [Value.toIntOr, Value.toInt, eq_comm]
    | nan => simp [Value.toIntOr, Value.toInt]
    | finite negative mantissa exponent =>
      rw [Value.toIntOr, Value.toInt]
      cases Binary64.truncate? (.finite negative mantissa exponent) <;> simp
  | text t =>
    rw [Value.toIntOr, Value.toInt]
    cases Text.toInt? t <;> simp
  | _ => simp [Value.toIntOr, Value.toInt]

theorem listed_eq_error_iff {value : Value} {fault : Fault} :
    listed value = .error fault ↔ fault = .badType ∧ ¬ IsListing value := by
  cases value with
  | text t => simp [listed, IsListing]
  | list items => simp [listed, IsListing]
  | object members => simp [listed, IsListing]
  | _ =>
    unfold listed IsListing
    dsimp only
    split <;> rename_i hvalue <;> simp [hvalue, eq_comm]

theorem directoriesOf_eq_error_iff {items : List Value} {fault : Fault} :
    directoriesOf items = .error fault ↔ fault = .badValue ∧ ∃ item ∈ items, item.isWritable = false := by
  have hall : ∀ other, items.mapM Value.displayTrue = .error other →
      other = .badValue ∧ ∃ item ∈ items, item.isWritable = false := by
    intro other hother
    obtain ⟨item, hitem, hdisplay⟩ := List.exists_of_mapM_eq_error hother
    obtain ⟨hfault, hvalue⟩ := Value.displayTrue_eq_error_iff.mp hdisplay
    exact ⟨hfault, item, hitem, hvalue⟩
  rw [directoriesOf, Except.map_eq_error_iff]
  refine ⟨hall fault, ?_⟩
  rintro ⟨rfl, item, hitem, hvalue⟩
  cases hitems : items.mapM Value.displayTrue with
  | error other => rw [(hall other hitems).1]
  | ok texts =>
    obtain ⟨text, htext⟩ := List.exists_mapM_eq_ok_iff.mp ⟨texts, hitems⟩ item hitem
    rw [Value.displayTrue_eq_error_iff.mpr ⟨rfl, hvalue⟩] at htext
    cases htext

/-- The items of anything but a list are texts. -/
theorem mem_listed {value item : Value} {items : List Value} (hlisted : listed value = .ok items)
    (hitem : item ∈ items) : value = .list items ∨ ∃ text, item = .text text := by
  cases value with
  | list own =>
    cases hlisted
    exact .inl rfl
  | text t =>
    cases hlisted
    split at hitem
    · cases hitem
    · exact .inr ⟨t, List.mem_singleton.mp hitem⟩
  | object own =>
    cases hlisted
    obtain ⟨⟨key, value⟩, -, rfl⟩ := List.mem_map.mp hitem
    exact .inr ⟨key, rfl⟩
  | _ =>
    unfold listed at hlisted
    dsimp only at hlisted
    split at hlisted
    · cases hlisted
    · cases hlisted
      cases hitem

theorem loadPathOf_eq_error_iff {value : Value} {fault : Fault} :
    loadPathOf value = .error fault ↔
      fault = .badType ∧ ¬ IsListing value ∨
      fault = .badValue ∧ ∃ items, value = .list items ∧ ∃ item ∈ items, item.isWritable = false := by
  rw [loadPathOf, Except.bind_eq_error_iff, listed_eq_error_iff]
  refine or_congr_right ⟨?_, ?_⟩
  · rintro ⟨items, hlisted, hfault⟩
    obtain ⟨rfl, item, hitem, hvalue⟩ := directoriesOf_eq_error_iff.mp hfault
    rcases mem_listed hlisted hitem with hlist | ⟨text, rfl⟩
    · exact ⟨rfl, items, hlist, item, hitem, hvalue⟩
    · cases hvalue
  · rintro ⟨rfl, items, rfl, hitem⟩
    exact ⟨items, rfl, directoriesOf_eq_error_iff.mpr ⟨rfl, hitem⟩⟩

/-- What settings that are made from values are made of. -/
theorem ofValues_eq_ok_iff :
    ofValues value other = .ok settings ↔
      ∃ maxItems archive loadPath debug, (value "max_items".toList).toIntOr 500 = .ok maxItems ∧
        (value "library_archive".toList).displayTrue = .ok archive ∧
        loadPathOf (value "load_path".toList) = .ok loadPath ∧ (value "debug".toList).toIntOr 0 = .ok debug ∧
        settings = {
          enabled := (value "enabled".toList).isTrue
          maxItems := clamp 5 5000 maxItems
          caseSensitiveMembers := (value "case_sensitive_members".toList).isTrue
          libraryArchive := Text.trim archive
          loadPath
          classDiscovery := (value "class_discovery".toList).isTrue
          debug := clamp 0 3 debug
          other } := by
  simp only [ofValues, Except.bind_eq_ok_iff, Except.pure_eq_ok_iff, exists_and_left, @eq_comm _ settings]

/-- The first value that cannot be used is the fault. -/
theorem ofValues_eq_error_iff {fault : Fault} :
    ofValues value other = .error fault ↔
      (value "max_items".toList).toIntOr 500 = .error fault ∨
      (∀ fault', (value "max_items".toList).toIntOr 500 ≠ .error fault') ∧
        ((value "library_archive".toList).displayTrue = .error fault ∨
          (∀ fault', (value "library_archive".toList).displayTrue ≠ .error fault') ∧
            (loadPathOf (value "load_path".toList) = .error fault ∨
              (∀ fault', loadPathOf (value "load_path".toList) ≠ .error fault') ∧
                (value "debug".toList).toIntOr 0 = .error fault)) := by
  -- nothing that comes later depends on what a value was read as
  simp only [ofValues, Except.bind_eq_error_iff, ← Except.exists_eq_ok_iff]
  simp [pure, Except.pure]

/-- What is not so of the default of a setting is so only where the setting is there. -/
theorem settingOf_iff {key : Text} (P : Value → Prop) (hdefault : ¬ P (settingOf [] key)) :
    P (settingOf members key) ↔ ∃ value, Entries.get? members key = some value ∧ P value := by
  cases hget : Entries.get? members key with
  | none =>
    have hsame : settingOf members key = settingOf [] key := by
      rw [settingOf, hget]
      rfl
    simp [hsame, hdefault]
  | some own => simp [settingOf, hget]

theorem number_eq_error_iff {key : Text} {default : Int} {fault : Fault}
    (hdefault : ∀ negative, settingOf [] key ≠ .real (.infinite negative)) :
    (settingOf members key).toIntOr default = .error fault ↔
      fault = .overflow ∧ ∃ negative, Entries.get? members key = some (.real (.infinite negative)) := by
  rw [toIntOr_eq_error_iff]
  refine and_congr_right fun _ => exists_congr fun negative => ?_
  rw [settingOf_iff (· = .real (.infinite negative)) (hdefault negative)]
  simp

theorem archive_eq_error_iff {fault : Fault} :
    (settingOf members "library_archive".toList).displayTrue = .error fault ↔
      fault = .badValue ∧
        ∃ value, Entries.get? members "library_archive".toList = some value ∧ value.isWritable = false := by
  rw [Value.displayTrue_eq_error_iff, settingOf_iff (·.isWritable = false) Bool.noConfusion]

theorem loadPath_eq_error_iff {fault : Fault} :
    loadPathOf (settingOf members "load_path".toList) = .error fault ↔
      (fault = .badType ∧ ∃ value, Entries.get? members "load_path".toList = some value ∧ ¬ IsListing value) ∨
      fault = .badValue ∧ ∃ items, Entries.get? members "load_path".toList = some (.list items) ∧
        ∃ item ∈ items, item.isWritable = false := by
  rw [settingOf_iff (loadPathOf · = .error fault) (by rintro ⟨⟩)]
  simp only [loadPathOf_eq_error_iff, and_or_left, exists_or]
  refine or_congr (by simp only [and_left_comm, exists_and_left]) ⟨?_, ?_⟩
  · rintro ⟨value, hget, rfl, items, rfl, hitem⟩
    exact ⟨rfl, items, hget, hitem⟩
  · rintro ⟨rfl, items, hget, hitem⟩
    exact ⟨_, hget, rfl, items, rfl, hitem⟩

theorem normalize_eq_error_iff {config : Value} {fault : Fault} :
    normalize config = .error fault ↔ Obstacle (config.members?.getD []) fault := by
  rw [normalize_eq, ofValues_eq_error_iff]
  generalize config.members?.getD [] = members
  have hnumber : ∀ key ∈ ["max_items".toList, "debug".toList], ∀ negative,
      settingOf [] key ≠ .real (.infinite negative) := by
    simp only [List.forall_mem_cons]
    exact ⟨nofun, nofun, nofun⟩
  simp only [ne_eq, number_eq_error_iff (hnumber "max_items".toList (by simp)),
    number_eq_error_iff (hnumber "debug".toList (by simp)), archive_eq_error_iff, loadPath_eq_error_iff,
    not_or, not_and, forall_and, forall_eq, not_exists, Bool.not_eq_false, not_not]
  constructor
  · rintro (⟨rfl, negative, hmax⟩ | ⟨hmax, ⟨rfl, value, hget, hvalue⟩ | ⟨harchive,
      (⟨rfl, value, hget, hvalue⟩ | ⟨rfl, items, hget, item, hitem, hvalue⟩) |
        ⟨⟨hpath, hitems⟩, rfl, negative, hdebug⟩⟩⟩)
    · exact .max_items hmax
    · exact .library_archive hmax hget hvalue
    · exact .load_path hmax harchive hget hvalue
    · exact .directory hmax hget hitem hvalue
    · exact .debug harchive hpath hitems hdebug
  · intro hobstacle
    cases hobstacle with
    | max_items hmax => exact .inl ⟨rfl, _, hmax⟩
    | library_archive hmax hget hvalue => exact .inr ⟨hmax, .inl ⟨rfl, _, hget, hvalue⟩⟩
    | load_path hmax harchive hget hvalue =>
      exact .inr ⟨hmax, .inr ⟨harchive, .inl (.inl ⟨rfl, _, hget, hvalue⟩)⟩⟩
    | directory hmax hget hitem hvalue =>
      -- a library that cannot be written is the same fault as a directory that cannot
      by_cases harchive : ∃ value, Entries.get? members "library_archive".toList = some value ∧
          value.isWritable = false
      · exact .inr ⟨hmax, .inl ⟨rfl, harchive⟩⟩
      · simp only [not_exists, not_and, Bool.not_eq_false] at harchive
        exact .inr ⟨hmax, .inr ⟨harchive, .inl (.inr ⟨rfl, _, hget, _, hitem, hvalue⟩)⟩⟩
    | debug harchive hpath hitems hdebug =>
      -- and an infinite number is the same fault whether it is the first number or the second
      by_cases hmax : ∃ negative, Entries.get? members "max_items".toList = some (.real (.infinite negative))
      · exact .inl ⟨rfl, hmax⟩
      · rw [not_exists] at hmax
        exact .inr ⟨hmax, .inr ⟨harchive, .inr ⟨⟨hpath, hitems⟩, rfl, _, hdebug⟩⟩⟩

theorem exists_normalize_members_iff (config : Value) :
    (∃ settings, normalize config = .ok settings) ↔ HasNormalForm (config.members?.getD []) := by
  rw [Except.exists_eq_ok_iff, hasNormalForm_iff]
  exact forall_congr' fun fault => not_congr normalize_eq_error_iff

/-- Whatever value settings are made from, they have a normal form unless one of the numbers is infinite, the
load path has no items, or the library or a directory cannot be written; then the fault is the one that stands
in the way. -/
theorem normalize_outcome (config : Value) :
    ((∃ settings, normalize config = .ok settings) ↔ HasNormalForm (config.members?.getD [])) ∧
      ∀ fault, normalize config = .error fault ↔ Obstacle (config.members?.getD []) fault :=
  ⟨exists_normalize_members_iff config, fun _ => normalize_eq_error_iff⟩

/-! ### Normal settings -/

/-- A text with no white space around it. -/
def IsTrimmed (text : Text) : Prop :=
  (∀ c ∈ text.head?, Text.isSpace c = false) ∧ ∀ c ∈ text.getLast?, Text.isSpace c = false

/-- Settings in normal form: numbers in their range, texts with nothing to trim, and no known key among the
settings that are not known. -/
structure Completion.IsNormal (settings : Completion) : Prop where
  maxItems : 5 ≤ settings.maxItems ∧ settings.maxItems ≤ 5000
  libraryArchive : IsTrimmed settings.libraryArchive
  loadPath : ∀ directory ∈ settings.loadPath, directory ≠ [] ∧ IsTrimmed directory
  debug : 0 ≤ settings.debug ∧ settings.debug ≤ 3
  other : ∀ member ∈ settings.other, member.1 ∉ keys

theorem isTrimmed_trim (text : Text) : IsTrimmed (Text.trim text) :=
  ⟨Text.head?_trimBy, Text.getLast?_trimBy⟩

theorem isTrimmed_iff {text : Text} : IsTrimmed text ↔ Text.trim text = text := by
  constructor
  · rintro ⟨hhead, hlast⟩
    exact Text.trimBy_eq_self hhead hlast
  · intro htrim
    rw [← htrim]
    exact isTrimmed_trim text

theorem clamp_bounds {low high : Int} (hle : low ≤ high) (i : Int) :
    low ≤ clamp low high i ∧ clamp low high i ≤ high := by
  unfold clamp
  omega

theorem clamp_eq_self {low high i : Int} (hbounds : low ≤ i ∧ i ≤ high) : clamp low high i = i := by
  unfold clamp
  omega

theorem mem_directoriesOf {items : List Value} {directories : List Text} {directory : Text}
    (hdirectories : directoriesOf items = .ok directories) (hmem : directory ∈ directories) :
    directory ≠ [] ∧ IsTrimmed directory := by
  rw [directoriesOf] at hdirectories
  cases hitems : items.mapM Value.displayTrue with
  | error fault =>
    rw [hitems] at hdirectories
    cases hdirectories
  | ok texts =>
    rw [hitems] at hdirectories
    cases hdirectories
    obtain ⟨htrimmed, hne⟩ := List.mem_filter.mp hmem
    obtain ⟨text, -, rfl⟩ := List.mem_map.mp htrimmed
    exact ⟨by simpa using hne, isTrimmed_trim text⟩

theorem mem_loadPathOf {value : Value} {loadPath : List Text} {directory : Text}
    (hloadPath : loadPathOf value = .ok loadPath) (hmem : directory ∈ loadPath) :
    directory ≠ [] ∧ IsTrimmed directory := by
  rw [loadPathOf] at hloadPath
  cases hlisted : listed value with
  | error fault =>
    rw [hlisted] at hloadPath
    cases hloadPath
  | ok items =>
    rw [hlisted] at hloadPath
    exact mem_directoriesOf hloadPath hmem

theorem displayTrue_text (t : Text) : (Value.text t).displayTrue = .ok t := by
  cases t <;> rfl

/-- Directories that are trimmed and not blank are read back. -/
theorem directoriesOf_map_text {directories : List Text}
    (hdirectories : ∀ directory ∈ directories, directory ≠ [] ∧ IsTrimmed directory) :
    directoriesOf (directories.map .text) = .ok directories := by
  have htexts : (directories.map .text).mapM Value.displayTrue = .ok directories := by
    rw [List.mapM_map]
    exact (List.mapM_eq_ok fun text _ => displayTrue_text text).trans (congrArg _ (List.map_id' directories))
  have htrim : directories.map Text.trim = directories := by
    rw [List.map_congr_left fun directory hmem => isTrimmed_iff.mp (hdirectories directory hmem).2, List.map_id']
  have hkept : directories.filter (!·.isEmpty) = directories := by
    rw [List.filter_eq_self]
    intro directory hmem
    simpa using (hdirectories directory hmem).1
  rw [directoriesOf, htexts, Except.map, htrim, hkept]

theorem unknown_eq_self (hmembers : ∀ member ∈ members, member.1 ∉ keys) : unknown members = members := by
  rw [unknown, List.filter_eq_self]
  intro member hmem
  simpa using hmembers member hmem

theorem unknown_toMembers (settings : Completion) : unknown settings.toMembers = unknown settings.other := by
  simp [Completion.toMembers, unknown_cons, keys]

theorem isNormal_of_normalize {config : Value} (hsettings : normalize config = .ok settings) :
    settings.IsNormal := by
  rw [normalize_eq] at hsettings
  obtain ⟨maxItems, archive, loadPath, debug, -, -, hloadPath, -, rfl⟩ := ofValues_eq_ok_iff.mp hsettings
  refine ⟨clamp_bounds (by decide) _, isTrimmed_trim _, fun directory => mem_loadPathOf hloadPath,
    clamp_bounds (by decide) _, fun member hmem => ?_⟩
  simpa using (List.mem_filter.mp hmem).2

/-- Settings in normal form are made from their own values. -/
theorem normalize_of_isNormal (hnormal : settings.IsNormal) :
    normalize (.object settings.toMembers) = .ok settings := by
  rw [normalize_eq, ofValues_eq_ok_iff]
  refine ⟨settings.maxItems, settings.libraryArchive, settings.loadPath, settings.debug, rfl,
    displayTrue_text settings.libraryArchive, directoriesOf_map_text hnormal.loadPath, rfl, ?_⟩
  have hother : unknown settings.toMembers = settings.other := by
    rw [unknown_toMembers, unknown_eq_self hnormal.other]
  change settings = {
    enabled := settings.enabled
    maxItems := clamp 5 5000 settings.maxItems
    caseSensitiveMembers := settings.caseSensitiveMembers
    libraryArchive := Text.trim settings.libraryArchive
    loadPath := settings.loadPath
    classDiscovery := settings.classDiscovery
    debug := clamp 0 3 settings.debug
    other := unknown settings.toMembers }
  rw [clamp_eq_self hnormal.maxItems, clamp_eq_self hnormal.debug, isTrimmed_iff.mp hnormal.libraryArchive,
    hother]

theorem normalize_toMembers {config : Value} (hsettings : normalize config = .ok settings) :
    normalize (.object settings.toMembers) = .ok settings :=
  normalize_of_isNormal (isNormal_of_normalize hsettings)

/-- Settings that are not known are kept. -/
theorem get?_toMembers_of_not_mem {config : Value} (hsettings : normalize config = .ok settings) {key : Text}
    (hkey : key ∉ keys) :
    Entries.get? settings.toMembers key = Entries.get? (config.members?.getD []) key := by
  have hunknown : ∀ members : Members, Entries.get? (unknown members) key = Entries.get? members key := by
    intro members
    rw [get?_unknown, if_neg hkey]
  rw [normalize_eq] at hsettings
  obtain ⟨maxItems, archive, loadPath, debug, -, -, -, -, hsettings⟩ := ofValues_eq_ok_iff.mp hsettings
  rw [← hunknown, unknown_toMembers, hunknown, hsettings, hunknown]

/-- Whatever settings are made from, they are in normal form, keep what is not known and do not change when
they are made once more. And all settings in normal form are such: each is made from itself. -/
theorem normalize_isNormal (settings : Completion) :
    (∀ config, normalize config = .ok settings →
      settings.IsNormal ∧
      (∀ key ∉ keys, Entries.get? settings.toMembers key = Entries.get? (config.members?.getD []) key) ∧
      normalize (.object settings.toMembers) = .ok settings) ∧
    (settings.IsNormal → normalize (.object settings.toMembers) = .ok settings) := by
  refine ⟨fun config hsettings => ⟨isNormal_of_normalize hsettings, ?_, ?_⟩, normalize_of_isNormal⟩
  · exact fun key => get?_toMembers_of_not_mem hsettings
  · exact normalize_toMembers hsettings

/-- Settings with numbers in text and out of range, a directory that is not trimmed and a key that is not
known. -/
def roughSettings : Value :=
  .object [("max_items".toList, .text "99999".toList), ("debug".toList, .int 7),
    ("load_path".toList, .text "  /opt/scripts ".toList), ("library_archive".toList, .null),
    ("theme".toList, .text "dark".toList)]

theorem normalize_isNormal_rough :
    ∃ settings, normalize roughSettings = .ok settings ∧ settings.maxItems = 5000 ∧
      settings.loadPath = ["/opt/scripts".toList] ∧ settings.IsNormal ∧
      Entries.get? settings.toMembers "theme".toList = some (.text "dark".toList) ∧
      normalize (.object settings.toMembers) = .ok settings := by
  obtain ⟨settings, hsettings, hmax, hpath⟩ : ∃ settings, normalize roughSettings = .ok settings ∧
      settings.maxItems = 5000 ∧ settings.loadPath = ["/opt/scripts".toList] := ⟨_, rfl, rfl, rfl⟩
  obtain ⟨hnormal, hother, hagain⟩ := (normalize_isNormal settings).1 roughSettings hsettings
  exact ⟨settings, hsettings, hmax, hpath, hnormal, hother "theme".toList (by decide), hagain⟩

end Caret.Settings
