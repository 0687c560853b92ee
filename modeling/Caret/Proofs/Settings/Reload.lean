import Caret.Proofs.Files.Write
import Caret.Proofs.Settings.Normalize
import Caret.Proofs.Text.Lines
import Caret.Proofs.Text.Utf8
import Caret.Proofs.Value.RoundTrip
import Caret.Settings.Store

/-!
# Saving settings and loading them again

Whatever was loaded and set, the data of a store are objects without a key twice. What is saved of them
can be read again: the file holds the data with the keys of every object in order, and a store that loads
it has the data with the defaults filled in, but for the order of keys. That order shows in completion
settings only where a text is made from an object, so apart from that they survive as well.
-/

namespace Caret.Settings

open Files
open Value (IsProper ordered sorted)

variable {members : Members} {value : Value}

/-! ### Setting a value -/

theorem isProper_nil : IsProper (.object []) :=
  Value.isProper_object.mpr (by simp [Entries.IsDistinct])

theorem isProper_insert (hmembers : IsProper (.object members)) (hvalue : value.IsProper) (key : Text) :
    IsProper (.object (Entries.insert key value members)) := by
  obtain ⟨hdistinct, hmembers⟩ := Value.isProper_object_get?.mp hmembers
  rw [Value.isProper_object_get?]
  refine ⟨hdistinct.insert key value, fun other found hfound => ?_⟩
  rw [Entries.get?_insert] at hfound
  split at hfound
  · exact Option.some.inj hfound ▸ hvalue
  · exact hmembers other found hfound

theorem isProper_set (hmembers : IsProper (.object members)) (hvalue : value.IsProper) (first : Text)
    (rest : List Text) : IsProper (.object (set members first rest value)) := by
  induction rest generalizing members first with
  | nil => exact isProper_insert hmembers hvalue first
  | cons key more ih =>
    rw [set]
    refine isProper_insert hmembers (ih ?_ key) first
    split
    · rename_i inner hinner
      exact (Value.isProper_object_get?.mp hmembers).2 first _ hinner
    · exact isProper_nil

/-! ### Runs of a store -/

/-- A call that changes the data of a store: the file is loaded, from the disk as it is then, or a value
is set. -/
inductive Call where
  | load (disk : Disk)
  | set (key : Text) (value : Value)

/-- A value that is set has no key of an object twice. -/
def Call.IsProper : Call → Prop
  | .load _ => True
  | .set _ value => value.IsProper

namespace Store

/-- A store after a call. A call that fails to set a value leaves the store as it is. -/
def after (store : Store) : Call → Store
  | .load disk => (store.load disk).2
  | .set key value =>
    match store.set key value with
    | .ok (_, store) => store
    | .error _ => store

/-- A store after several calls. -/
def run (store : Store) (calls : List Call) : Store :=
  calls.foldl after store

/-- What calls leave as it is: the file, the defaults, and that no object has a key twice. -/
structure IsSound (path : Option Text) (defaults : Members) (store : Store) : Prop where
  path_eq : store.path = path
  defaults_eq : store.defaults = defaults
  defaults_isProper : Value.IsProper (.object defaults)
  data_isProper : Value.IsProper (.object store.data)

variable {path : Option Text} {defaults : Members} {store : Store}

theorem isProper_of_readFile {disk : Disk} {path : Text} (hread : readFile disk path = .ok members) :
    Value.IsProper (.object members) := by
  rw [readFile] at hread
  split at hread
  · cases hread
  split at hread
  · cases hread
  · rename_i found hfound
    cases hread
    obtain ⟨text, -, htext⟩ := Option.bind_eq_some_iff.mp hfound
    exact Json.isProper_of_read? htext
  · cases hread

theorem isProper_of_readMembers {disk : Disk} (hread : store.readMembers disk = .ok (.ok members)) :
    Value.IsProper (.object members) := by
  rw [readMembers] at hread
  split at hread
  · cases hread
    exact isProper_nil
  split at hread
  · cases hread
  · cases hread
    exact isProper_nil
  · exact isProper_of_readFile (Except.ok.inj hread)

theorem IsSound.after (hsound : IsSound path defaults store) {call : Call} (hcall : call.IsProper) :
    IsSound path defaults (store.after call) := by
  obtain ⟨rfl, rfl, hdefaults, hdata⟩ := hsound
  cases call with
  | load disk =>
    rw [Store.after, Store.load]
    split
    · exact ⟨rfl, rfl, hdefaults, hdata⟩
    · rename_i found hread
      exact ⟨rfl, rfl, hdefaults, isProper_fill (isProper_of_readMembers hread) hdefaults⟩
    · exact ⟨rfl, rfl, hdefaults, isProper_fill isProper_nil hdefaults⟩
  | set key value =>
    rw [Store.after, Store.set]
    split
    · rename_i changed store' hset
      split at hset
      · cases hset
        exact ⟨rfl, rfl, hdefaults, hdata⟩
      · rw [setDotted] at hset
        split at hset
        · cases hset
        · rename_i first rest hpath
          cases hset
          exact ⟨rfl, rfl, hdefaults, isProper_set hdata hcall first rest⟩
    · exact ⟨rfl, rfl, hdefaults, hdata⟩

theorem IsSound.run (hsound : IsSound path defaults store) {calls : List Call}
    (hcalls : ∀ call ∈ calls, call.IsProper) : IsSound path defaults (store.run calls) := by
  induction calls generalizing store with
  | nil => exact hsound
  | cons call calls ih =>
    obtain ⟨hcall, hcalls⟩ := List.forall_mem_cons.mp hcalls
    exact ih (hsound.after hcall) hcalls

theorem isSound_new (path : Text) (defaults : Option Members)
    (hdefaults : Value.IsProper (.object (defaults.getD builtIn))) :
    IsSound (new (some path) defaults).path (defaults.getD builtIn) (new (some path) defaults) :=
  ⟨rfl, rfl, hdefaults, isProper_fill isProper_nil hdefaults⟩

/-! ### What a saved file holds -/

theorem readBytes_of_writeFile {disk disk' : Disk} {path : Text} {data : Members}
    (hwrite : writeFile disk path data = (.ok (), disk')) :
    disk'.checkExists path = .ok true ∧
      disk'.readBytes path = .ok (Text.encode (Json.write (.object data))) := by
  have hnode : disk'.node path = .ok (.file (.bytes (Text.encode (Json.write (.object data))))) := by
    rw [writeFile] at hwrite
    split at hwrite
    · cases hwrite
    split at hwrite
    · cases hwrite
    split at hwrite
    · rename_i hwritten
      cases hwrite
      exact Disk.node_of_write hwritten
    · cases hwrite
  rw [Disk.checkExists, Disk.readBytes, Disk.read, hnode]
  exact ⟨rfl, rfl⟩

/-- A saved file holds the data in order. -/
theorem readFile_of_writeFile {disk disk' : Disk} {path : Text} {data : Members}
    (hproper : Value.IsProper (.object data)) (hlegible : Json.IsLegible (.object data))
    (hwrite : writeFile disk path data = (.ok (), disk')) : readFile disk' path = .ok (sorted data) := by
  have hplain := Json.isPlain_of_mem_indented 0 (.object data)
  have hdecode : Text.decode? (Text.encode (Json.write (.object data))) = some (Json.write (.object data)) := by
    apply Text.decode?_encode
    intro c hc
    rcases hplain c hc with rfl | hprintable
    · decide
    · omega
  have hbreaks : Text.unifyBreaks (Json.write (.object data)) = Json.write (.object data) := by
    apply Text.unifyBreaks_of_not_mem
    intro hreturn
    exact absurd (hplain _ hreturn) (by decide)
  rw [readFile, (readBytes_of_writeFile hwrite).2]
  simp only [hdecode, Option.bind_some, hbreaks, Json.read?_write hproper hlegible, Value.ordered_object]

/-- Saving does not change the data. -/
theorem data_of_save {saved : Store} {disk disk' : Disk} {answer : Except Fault Unit}
    (hsave : store.save disk = (answer, disk', saved)) : saved.data = store.data := by
  rw [save] at hsave
  split at hsave
  · cases hsave
    rfl
  · split at hsave <;> cases hsave <;> rfl

theorem load_of_save {fresh saved : Store} {disk disk' : Disk} {path : Text}
    (hproper : Value.IsProper (.object store.data)) (hlegible : Json.IsLegible (.object store.data))
    (hpath : store.path = some path) (hfresh : fresh.path = some path)
    (hsave : store.save disk = (.ok (), disk', saved)) :
    ∃ loaded, fresh.load disk' = (.ok (), loaded) ∧ loaded.problem = none ∧ loaded.dirty = false ∧
      loaded.data = fill (sorted store.data) fresh.defaults := by
  rw [save, hpath] at hsave
  dsimp only at hsave
  split at hsave
  · rename_i written hwrite
    cases hsave
    rw [load, readMembers, hfresh]
    dsimp only
    rw [(readBytes_of_writeFile hwrite).1]
    dsimp only
    rw [readFile_of_writeFile hproper hlegible hwrite]
    exact ⟨_, rfl, rfl, rfl, rfl⟩
  · cases hsave

/-! ### Completion settings -/

theorem completion_eq (store : Store) :
    store.completion = normalize ((Entries.get? store.data "completion".toList).getD (.object [])) := by
  have hpath : Settings.path "completion".toList = ["completion".toList] := by decide
  rw [completion, get, getDotted, hpath, get?]
  cases Entries.get? store.data "completion".toList <;> rfl

/-- A setting of completion by its dotted key. -/
theorem get_setting (hget : Entries.get? store.data "completion".toList = some (.object members))
    {dotted key : Text} (hpath : Settings.path dotted = ["completion".toList, key]) (default : Value) :
    store.get dotted default = (Entries.get? members key).getD default := by
  rw [get, getDotted, hpath, get?, hget, Option.bind_some, get?]
  cases Entries.get? members key <;> rfl

theorem isDistinct_builtIn : builtIn.IsDistinct := by
  decide

/-- Filling in the built-in defaults does not change the settings. -/
theorem completion_fill {loaded : Store} (store : Store) (hdata : loaded.data = fill store.data builtIn) :
    loaded.completion = store.completion := by
  rw [completion_eq, completion_eq, hdata, get?_fill _ isDistinct_builtIn]
  have hdefault : Entries.get? builtIn "completion".toList = some (.object (Completion.toMembers {})) := rfl
  rw [hdefault]
  cases Entries.get? store.data "completion".toList with
  | none => exact normalize_fill []
  | some value =>
    rw [filledValue?, Option.getD_some, Option.getD_some]
    cases value with
    | object members => rw [filled_object, normalize_fill]
    | _ => rfl

/-- Bringing the data into order does not change the settings but for the order of keys, if the library
and the load path are in order. -/
theorem completion_sorted {loaded : Store} (hproper : Value.IsProper (.object store.data))
    (hdata : loaded.data = sorted store.data)
    (hsettings : ∀ key ∈ ["completion.library_archive", "completion.load_path"],
      (store.get key.toList .null).ordered = store.get key.toList .null) :
    loaded.completion.map Completion.inOrder = store.completion.map Completion.inOrder := by
  obtain ⟨hdistinct, hmembers⟩ := Value.isProper_object_get?.mp hproper
  rw [completion_eq, completion_eq, hdata, Value.get?_sorted hdistinct]
  cases hget : Entries.get? store.data "completion".toList with
  | none => rfl
  | some value =>
    rw [Option.map_some, Option.getD_some, Option.getD_some]
    cases value with
    | object members =>
      rw [Value.ordered_object]
      have hsetting : ∀ dotted ∈ ["completion.library_archive", "completion.load_path"], ∀ key,
          Settings.path dotted.toList = ["completion".toList, key] →
          ∀ value, Entries.get? members key = some value → value.ordered = value := by
        intro dotted hdotted key hpath value hvalue
        have hordered := hsettings dotted hdotted
        rwa [get_setting hget hpath, hvalue] at hordered
      exact normalize_sorted (hmembers _ _ hget)
        (hsetting "completion.library_archive" (by simp) _ (by decide))
        (hsetting "completion.load_path" (by simp) _ (by decide))
    | list items =>
      rw [Value.ordered_list]
      rfl
    | _ => rfl

/-! ### Loading what was saved -/

/-- After any calls, what a store saves is loaded again: the same data with the defaults filled in, but
for the order of keys. With the built-in defaults the settings of completion are those of the data in
order; they are the same as before, but for the order of keys, unless the library or the load path holds
an object with keys out of order. -/
theorem load_saved {path : Text} (hpath : path ≠ []) {defaults : Option Members}
    (hdefaults : Value.IsProper (.object (defaults.getD builtIn))) {calls : List Call}
    (hcalls : ∀ call ∈ calls, call.IsProper) {store saved : Store} {disk disk' : Disk}
    (hstore : (new (some path) defaults).run calls = store)
    (hsave : store.save disk = (.ok (), disk', saved)) (hlegible : Json.IsLegible (.object store.data)) :
    ∃ loaded, (new (some path) defaults).load disk' = (.ok (), loaded) ∧
      loaded.problem = none ∧ loaded.dirty = false ∧
      ordered (.object loaded.data) = ordered (.object (fill store.data (defaults.getD builtIn))) ∧
      (defaults.getD builtIn = builtIn →
        loaded.completion = { saved with data := sorted saved.data }.completion ∧
        ((∀ key ∈ ["completion.library_archive", "completion.load_path"],
            (saved.get key.toList .null).ordered = saved.get key.toList .null) →
          loaded.completion.map Completion.inOrder = saved.completion.map Completion.inOrder)) := by
  have hsound := (isSound_new path defaults hdefaults).run hcalls
  rw [hstore] at hsound
  have hfresh : (new (some path) defaults).path = some (Path.tidy path) := by
    rw [new]
    cases path with
    | nil => exact absurd rfl hpath
    | cons c cs => rfl
  have hproper := hsound.data_isProper
  have hsaved := data_of_save hsave
  obtain ⟨loaded, hload, hproblem, hdirty, hdata⟩ :=
    load_of_save hproper hlegible (hsound.path_eq.trans hfresh) hfresh hsave
  refine ⟨loaded, hload, hproblem, hdirty, ?_, fun hbuiltIn => ?_⟩
  · have hsorted := Value.isProper_ordered hproper
    have hsame := Value.ordered_ordered hproper
    rw [Value.ordered_object] at hsorted hsame
    rw [hdata, ← filled_object, ← filled_object]
    exact ordered_filled hdefaults hsorted hproper (hsame.trans (Value.ordered_object store.data).symm)
  · rw [← hsaved] at hproper hdata
    have hcompletion : loaded.completion = { saved with data := sorted saved.data }.completion :=
      completion_fill _ (hdata.trans (congrArg (fill (sorted saved.data)) hbuiltIn))
    refine ⟨hcompletion, fun hsettings => ?_⟩
    rw [hcompletion]
    exact completion_sorted hproper rfl hsettings

/-- A disk with nothing on it. -/
def bareDisk : Disk where
  tree := .directory []
  cwd := "/".toList
  home := "/".toList
  library := "/".toList

/-- An object with its keys out of order. -/
def swapped : Value :=
  .object [("b".toList, .int 1), ("a".toList, .int 2)]

/-- The settings with such an object in the place of one of them. -/
def swappedSettings (key : Text) : Members :=
  Entries.insert key swapped (Completion.toMembers {})

/-- A store in which such an object was set. -/
def swappedStore (key : Text) : Store :=
  (new (some "s.json".toList) none).run [.load bareDisk, .set key swapped]

theorem isProper_swapped : swapped.IsProper :=
  Value.isProper_object.mpr ⟨by decide, by simp [Value.IsProper, Value.Everywhere, Value.HasDistinctKeys]⟩

theorem isProper_builtIn : Value.IsProper (.object builtIn) := by
  refine Value.isProper_object.mpr ⟨isDistinct_builtIn, List.forall_mem_singleton.mpr ?_⟩
  refine Value.isProper_object.mpr ⟨isDistinct_toMembers, ?_⟩
  simp [Completion.toMembers, Value.IsProper, Value.Everywhere, Value.EverywhereItems, Value.HasDistinctKeys]

theorem isLegible_swappedStore {key setting : Text}
    (hdata : (swappedStore key).data =
      [("completion".toList, .object (swappedSettings setting))]) :
    Json.IsLegible (.object (swappedStore key).data) := by
  have hnumbers : ∀ i ∈ [0, 1, 2, 500], Json.read? (Json.write (.int i)) = some (.int i) := by
    simp only [List.forall_mem_cons]
    exact ⟨rfl, rfl, rfl, rfl, List.forall_mem_nil _⟩
  have hdefaults : Json.IsLegible (.object (Completion.toMembers {})) := by
    simp [Json.IsLegible, Value.Everywhere, Value.EverywhereMembers, Value.EverywhereItems, Json.ReadsBack,
      Json.isNumber, Completion.toMembers, hnumbers]
  have hswapped : Json.IsLegible swapped := by
    simp [Json.IsLegible, Value.Everywhere, Value.EverywhereMembers, Json.ReadsBack, Json.isNumber, swapped,
      hnumbers]
  have hobject : ∀ members, Json.ReadsBack (.object members) := by rintro members ⟨⟩
  rw [hdata]
  refine Value.everywhere_object.mpr ⟨hobject _, List.forall_mem_singleton.mpr ?_⟩
  refine Value.everywhere_object.mpr ⟨hobject _, ?_⟩
  rintro ⟨other, value⟩ hmem
  rcases Entries.mem_insert hmem with hmem | ⟨rfl, rfl⟩
  · exact (Value.everywhere_object.mp hdefaults).2 _ hmem
  · exact hswapped

theorem save_swappedStore : ∀ key ∈ ["completion.theme", "completion.load_path"],
    ∃ disk' saved, (swappedStore key.toList).save bareDisk = (.ok (), disk', saved) := by
  have hanswer : ∀ key ∈ ["completion.theme", "completion.load_path"],
      ((swappedStore key.toList).save bareDisk).1.isOk = true := by decide +kernel
  intro key hkey
  have hok := hanswer key hkey
  rcases hsave : (swappedStore key.toList).save bareDisk with ⟨fault | ⟨⟩, disk', saved⟩
  · rw [hsave] at hok
    cases hok
  · exact ⟨disk', saved, rfl⟩

theorem load_saved_unknown_setting :
    ∃ disk' saved loaded, (swappedStore "completion.theme".toList).save bareDisk = (.ok (), disk', saved) ∧
      (new (some "s.json".toList) none).load disk' = (.ok (), loaded) ∧
      ordered (.object loaded.data) =
        ordered (.object (fill (swappedStore "completion.theme".toList).data builtIn)) ∧
      loaded.completion.map Completion.inOrder = saved.completion.map Completion.inOrder := by
  have hpath : "s.json".toList ≠ [] := by decide
  have hdefaults : Value.IsProper (.object (Option.getD none builtIn)) := isProper_builtIn
  have hcalls : ∀ call ∈ [Call.load bareDisk, Call.set "completion.theme".toList swapped], call.IsProper := by
    simp [Call.IsProper, isProper_swapped]
  obtain ⟨disk', saved, hsave⟩ := save_swappedStore "completion.theme" (by decide)
  obtain ⟨loaded, hload, -, -, hdata, hcompletion⟩ :=
    load_saved hpath hdefaults hcalls rfl hsave (isLegible_swappedStore rfl)
  refine ⟨disk', saved, loaded, hsave, hload, hdata, (hcompletion rfl).2 ?_⟩
  simp only [List.forall_mem_cons, get, data_of_save hsave]
  exact ⟨rfl, rfl, nofun⟩

theorem ordered_swapped : swapped.ordered = .object [("a".toList, .int 2), ("b".toList, .int 1)] := by
  have hdistinct := (Value.isProper_object.mp isProper_swapped).1
  rw [swapped, Value.ordered_object, sorted, hdistinct.inOrder_eq (.swap _ _ _),
    Entries.inOrder_eq_self (by decide)]
  rfl

/-- A load path that is an object lists its keys, and these come back in order. -/
theorem load_path_of_object_reordered :
    ∃ disk' saved loaded, (swappedStore "completion.load_path".toList).save bareDisk = (.ok (), disk', saved) ∧
      (new (some "s.json".toList) none).load disk' = (.ok (), loaded) ∧
      saved.completion.map (·.loadPath) = .ok ["b".toList, "a".toList] ∧
      loaded.completion.map (·.loadPath) = .ok ["a".toList, "b".toList] := by
  obtain ⟨disk', saved, hsave⟩ := save_swappedStore "completion.load_path" (by decide)
  have hsound : IsSound _ _ (swappedStore "completion.load_path".toList) :=
    (isSound_new "s.json".toList none isProper_builtIn).run (by simp [Call.IsProper, isProper_swapped])
  have hfresh : (new (some "s.json".toList) none).path = some (Path.tidy "s.json".toList) := rfl
  obtain ⟨loaded, hload, -, -, hdata⟩ :=
    load_of_save hsound.data_isProper (isLegible_swappedStore rfl) rfl hfresh hsave
  refine ⟨disk', saved, loaded, hsave, hload, ?_, ?_⟩
  · rw [completion_eq, data_of_save hsave]
    rfl
  obtain ⟨hdistinct, hproper⟩ := Value.isProper_object_get?.mp hsound.data_isProper
  have hget : Entries.get? (swappedStore "completion.load_path".toList).data "completion".toList =
      some (.object (swappedSettings "load_path".toList)) := rfl
  have hsettings := (Value.isProper_object.mp (hproper _ _ hget)).1
  rw [completion_fill { loaded with data := sorted (swappedStore "completion.load_path".toList).data } hdata,
    completion_eq, Value.get?_sorted hdistinct, hget, Option.map_some, Value.ordered_object,
    Option.getD_some, normalize_eq]
  -- the values in order, of which only the load path differs
  have hmax : (settingOf (sorted (swappedSettings "load_path".toList)) "max_items".toList).toIntOr 500 =
      .ok 500 := by
    rw [settingOf_sorted hsettings, toIntOr_ordered]
    rfl
  have harchive :
      (settingOf (sorted (swappedSettings "load_path".toList)) "library_archive".toList).displayTrue = .ok [] := by
    rw [settingOf_sorted hsettings]
    rfl
  have hdebug : (settingOf (sorted (swappedSettings "load_path".toList)) "debug".toList).toIntOr 0 = .ok 0 := by
    rw [settingOf_sorted hsettings, toIntOr_ordered]
    rfl
  refine (loadPath_ofValues _ hmax harchive hdebug).trans ?_
  have hpath : settingOf (swappedSettings "load_path".toList) "load_path".toList = swapped := rfl
  rw [settingOf_sorted hsettings, hpath, ordered_swapped]
  rfl

end Store

end Caret.Settings
