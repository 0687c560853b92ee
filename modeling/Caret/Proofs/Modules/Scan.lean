import Caret.Modules.LoadPath
import Caret.Proofs.Files.Walk
import Caret.Proofs.List
import Caret.Proofs.Modules.Name

/-!
# Searching and scanning

A search for modules starts in the directory that a name so far leads to; a scan lists all modules of a
directory. The search finds what the scan would keep of its list, in the same order: going down by one
part of the name loses only files that have too few parts and files in other directories.
-/

namespace Caret.Modules

open Files
open Caret.Path (IsEntryName IsNormal IsRoot ofNames)
open Script (isName)

variable {disk : Disk} {root : Text} {above : List Text}

/-! ### Where names come from -/

theorem exists_path_of_mem_inArchive {archive : Archive} {module entry : Text}
    (hmem : (module, entry) ∈ inArchive archive) : ∃ path, nameOfPath? path = some module := by
  obtain ⟨found, -, hfound⟩ := List.mem_filterMap.mp hmem
  obtain ⟨-, hfound⟩ := Option.ite_none_right_eq_some.mp hfound
  obtain ⟨name, hname, heq⟩ := Option.map_eq_some_iff.mp hfound
  obtain ⟨rfl, -⟩ := Prod.mk.inj heq
  exact ⟨_, hname⟩

theorem exists_path_of_mem_inDirectory {directory module file : Text}
    (hmem : (module, file) ∈ inDirectory disk directory) : ∃ path, nameOfPath? path = some module := by
  obtain ⟨found, -, hfound⟩ := List.mem_filterMap.mp hmem
  obtain ⟨name, hname, heq⟩ := Option.map_eq_some_iff.mp hfound
  obtain ⟨rfl, -⟩ := Prod.mk.inj heq
  exact ⟨_, hname⟩

/-! ### The files below a directory -/

theorem isName_of_isEntered {name : Text} (hentered : isEntered name = true) : isName name = true := by
  rw [isEntered, Bool.and_eq_true] at hentered
  exact hentered.2

theorem isEntryName_of_isEntered {name : Text} (hentered : isEntered name = true) :
    IsEntryName name :=
  Script.isEntryName_of_isName (isName_of_isEntered hentered)

/-- The files of modules among the names in a directory. -/
def filesAmong (disk : Disk) (directory : Text) (names : List Text) : List Text :=
  (sorted (names.filter fun name => !disk.isDirectory (Path.join directory name))).filter
    fun name => Text.endsWith name fileEnding

/-- The subdirectories among the names in a directory that are entered. -/
def enteredAmong (disk : Disk) (directory : Text) (names : List Text) : List Text :=
  sorted ((names.filter fun name => disk.isDirectory (Path.join directory name)).filter isEntered)

theorem filesBelow_of_error {depth : Nat} {directory : Text} {cause : Cause}
    (hlist : disk.list directory = .error cause) : filesBelow disk depth directory = [] := by
  cases depth with
  | zero => rfl
  | succ depth => simp only [filesBelow, hlist]

theorem filesBelow_succ {depth : Nat} {directory : Text} {names : List Text}
    (hlist : disk.list directory = .ok names) :
    filesBelow disk (depth + 1) directory =
      (filesAmong disk directory names).map (Path.join directory) ++
        (enteredAmong disk directory names).flatMap fun name =>
          filesBelow disk depth (Path.join directory name) := by
  simp only [filesBelow, hlist, List.partition_eq_filter_filter, filesAmong, enteredAmong]
  rfl

theorem mem_filesAmong {directory name : Text} {names : List Text}
    (hname : name ∈ filesAmong disk directory names) :
    name ∈ names ∧ Text.endsWith name fileEnding = true := by
  obtain ⟨hname, hends⟩ := List.mem_filter.mp hname
  exact ⟨(List.mem_filter.mp ((List.mergeSort_perm _ _).mem_iff.mp hname)).1, hends⟩

theorem mem_enteredAmong {directory name : Text} {names : List Text} :
    name ∈ enteredAmong disk directory names ↔
      name ∈ names ∧ disk.isDirectory (Path.join directory name) = true ∧ isEntered name = true := by
  rw [enteredAmong, sorted, (List.mergeSort_perm _ _).mem_iff, List.mem_filter, List.mem_filter,
    and_assoc]

/-- No path is long enough for a deeper search to come to more files. -/
theorem filesBelow_deeper {depth : Nat} {directory : Text}
    (hdeep : maxPath ≤ byteLength directory + depth) :
    filesBelow disk (depth + 1) directory = filesBelow disk depth directory := by
  induction depth generalizing directory with
  | zero =>
    cases hlist : disk.list directory with
    | error cause => rw [filesBelow_of_error hlist, filesBelow_of_error hlist]
    | ok names =>
      have := Disk.byteLength_lt_of_list hlist
      omega
  | succ depth ih =>
    cases hlist : disk.list directory with
    | error cause => rw [filesBelow_of_error hlist, filesBelow_of_error hlist]
    | ok names =>
      rw [filesBelow_succ hlist, filesBelow_succ hlist]
      congr 1
      refine List.flatMap_congr fun name hname => ih ?_
      have hentry := isEntryName_of_isEntered (mem_enteredAmong.mp hname).2.2
      have := byteLength_lt_join directory hentry
      omega

/-- The files below a directory are the files in it and the files below its subdirectories. -/
theorem filesBelow_eq {directory : Text} {names : List Text}
    (hlist : disk.list directory = .ok names) :
    filesBelow disk maxPath directory =
      (filesAmong disk directory names).map (Path.join directory) ++
        (enteredAmong disk directory names).flatMap fun name =>
          filesBelow disk maxPath (Path.join directory name) := by
  rw [← filesBelow_deeper (Nat.le_add_left maxPath (byteLength directory)), filesBelow_succ hlist]

theorem filesBelow_of_not_isDirectory {depth : Nat} {directory : Text}
    (hnot : disk.isDirectory directory = false) : filesBelow disk depth directory = [] := by
  cases hlist : disk.list directory with
  | error cause => exact filesBelow_of_error hlist
  | ok names =>
    obtain ⟨entries, hnode, -⟩ := Disk.list_eq_ok.mp hlist
    rw [Disk.isDirectory_iff.mpr ⟨entries, hnode⟩] at hnot
    cases hnot

/-- A file that is found below a directory: the directories on the way to it, and its name. -/
structure Found (disk : Disk) (below : List Text) (stem : Text) : Prop where
  areNames : ∀ name ∈ below, isName name = true
  isEntryName : IsEntryName (stem ++ fileEnding)
  free : disk.tree.IsFreeOf '\\' → '\\' ∉ stem ++ fileEnding

theorem exists_found_of_mem_filesBelow (hproper : disk.tree.IsProper) (hroot : IsRoot root)
    (habove : ∀ name ∈ above, IsEntryName name) {depth : Nat} {file : Text}
    (hfile : file ∈ filesBelow disk depth (ofNames root above)) :
    ∃ below stem, Found disk below stem ∧
      file = ofNames root (above ++ (below ++ [stem ++ fileEnding])) := by
  induction depth generalizing above with
  | zero => exact absurd hfile List.not_mem_nil
  | succ depth ih =>
    cases hlist : disk.list (ofNames root above) with
    | error cause =>
      rw [filesBelow_of_error hlist] at hfile
      exact absurd hfile List.not_mem_nil
    | ok names =>
      rw [filesBelow_succ hlist, List.mem_append, List.mem_map, List.mem_flatMap] at hfile
      rcases hfile with ⟨name, hname, rfl⟩ | ⟨name, hname, hfile⟩
      · obtain ⟨hmem, hends⟩ := mem_filesAmong hname
        obtain ⟨stem, rfl⟩ := Text.endsWith_iff.mp hends
        have hentry := (hproper.list hlist).2 _ hmem
        refine ⟨[], stem, ⟨by simp, hentry, fun hfree => hfree.list hlist _ hmem⟩, ?_⟩
        exact Path.join_ofNames hroot habove hentry
      · have hentered := (mem_enteredAmong.mp hname).2.2
        have hentry := isEntryName_of_isEntered hentered
        rw [Path.join_ofNames hroot habove hentry] at hfile
        have hall : ∀ name' ∈ above ++ [name], IsEntryName name' :=
          List.forall_mem_append.mpr ⟨habove, by simpa using hentry⟩
        obtain ⟨below, stem, hfound, rfl⟩ := ih hall hfile
        refine ⟨name :: below, stem, ⟨?_, hfound.isEntryName, hfound.free⟩, by simp⟩
        simpa using ⟨isName_of_isEntered hentered, hfound.areNames⟩

/-! ### The names of files -/

/-- The name of the module in a file, below a directory. -/
def nameBelow? (disk : Disk) (directory file : Text) : Option Text :=
  nameOfPath? (Path.relative disk.cwd file directory)

theorem Found.isEntryName_of_mem {below : List Text} {stem : Text} (hfound : Found disk below stem) :
    ∀ name ∈ below ++ [stem ++ fileEnding], IsEntryName name := by
  intro name hname
  rcases List.mem_append.mp hname with hname | hname
  · exact Script.isEntryName_of_isName (hfound.areNames name hname)
  · obtain rfl := List.mem_singleton.mp hname
    exact hfound.isEntryName

theorem forall_isEntryName {below : List Text} (habove : ∀ name ∈ above, IsEntryName name)
    (hbelow : ∀ name ∈ below, isName name = true) : ∀ name ∈ above ++ below, IsEntryName name :=
  List.forall_mem_append.mpr ⟨habove, fun name hname => Script.isEntryName_of_isName (hbelow name hname)⟩

theorem Found.append {further below : List Text} {stem : Text}
    (hfurther : ∀ name ∈ further, isName name = true) (hfound : Found disk below stem) :
    Found disk (further ++ below) stem :=
  ⟨List.forall_mem_append.mpr ⟨hfurther, hfound.areNames⟩, hfound.isEntryName, hfound.free⟩

theorem Found.nameBelow? {below : List Text} {stem : Text} (hfound : Found disk below stem)
    (hfree : '\\' ∉ stem ++ fileEnding) (hroot : IsRoot root)
    (habove : ∀ name ∈ above, IsEntryName name) :
    nameBelow? disk (ofNames root above) (ofNames root (above ++ (below ++ [stem ++ fileEnding]))) =
      nameOfParts? (partsOf below stem) := by
  rw [Modules.nameBelow?, Path.relative_ofNames _ hroot habove hfound.isEntryName_of_mem (by simp)]
  apply nameOfPath?_join
  intro name hname
  refine ⟨hfound.isEntryName_of_mem name hname, ?_⟩
  rcases List.mem_append.mp hname with hname | hname
  · exact Script.not_mem_of_isName (hfound.areNames name hname) (by decide)
  · obtain rfl := List.mem_singleton.mp hname
    exact hfree

/-! ### Going down -/

section Descent

variable {head last : Text}

/-- The names below a directory of the modules in one of its subdirectories. -/
def namesIn (disk : Disk) (root : Text) (above below : List Text) : List Text :=
  (filesBelow disk maxPath (ofNames root (above ++ below))).filterMap
    (nameBelow? disk (ofNames root above))

/-- Where a name starts as asked for, the parts that were asked for are the first of its parts. -/
theorem parts_isPrefix {parts : List Text} {name : Text} (hparts : nameOfParts? parts = some name)
    (hstart : Text.startsWith name (head ++ '.' :: last) = true) :
    Text.splitOn '.' head <+: parts ∧ (Text.splitOn '.' head).length < parts.length := by
  obtain ⟨hne, hnames, rfl⟩ := nameOfParts?_eq_some.mp hparts
  exact prefix_of_startsWith hne hnames (Text.startsWith_iff.mp hstart)

theorem filter_names_eq_nil (hfree : disk.tree.IsFreeOf '\\') (hroot : IsRoot root)
    (habove : ∀ name ∈ above, IsEntryName name) {files : List Text}
    (hfiles : ∀ file ∈ files, ∃ below stem, Found disk below stem ∧
      file = ofNames root (above ++ (below ++ [stem ++ fileEnding])) ∧
      (Text.splitOn '.' head <+: partsOf below stem →
        (partsOf below stem).length ≤ (Text.splitOn '.' head).length)) :
    (files.filterMap (nameBelow? disk (ofNames root above))).filter
      (Text.startsWith · (head ++ '.' :: last)) = [] := by
  refine List.filter_eq_nil_iff.mpr fun name hname hstart => ?_
  obtain ⟨file, hfile, hname⟩ := List.mem_filterMap.mp hname
  obtain ⟨below, stem, hfound, rfl, hshort⟩ := hfiles file hfile
  rw [hfound.nameBelow? (hfound.free hfree) hroot habove] at hname
  obtain ⟨hfront, hlong⟩ := parts_isPrefix hname hstart
  have := hshort hfront
  omega

/-- A file in the directory itself has no more parts than were asked for. -/
theorem filter_filesAmong_eq_nil (hproper : disk.tree.IsProper) (hfree : disk.tree.IsFreeOf '\\')
    (hroot : IsRoot root) (habove : ∀ name ∈ above, IsEntryName name) {done rest names : List Text}
    {part : Text} (hparts : Text.splitOn '.' head = done ++ part :: rest)
    (hdone : ∀ name ∈ done, isName name = true)
    (hlist : disk.list (ofNames root (above ++ done)) = .ok names) :
    (((filesAmong disk (ofNames root (above ++ done)) names).map
      (Path.join (ofNames root (above ++ done)))).filterMap (nameBelow? disk (ofNames root above))).filter
        (Text.startsWith · (head ++ '.' :: last)) = [] := by
  have hentry := (hproper.list hlist).2
  apply filter_names_eq_nil hfree hroot habove
  intro file hfile
  obtain ⟨entry, hmem, rfl⟩ := List.mem_map.mp hfile
  obtain ⟨hmem, hends⟩ := mem_filesAmong hmem
  obtain ⟨stem, rfl⟩ := Text.endsWith_iff.mp hends
  refine ⟨done, stem, ⟨hdone, hentry _ hmem, fun hfree => hfree.list hlist _ hmem⟩, ?_, ?_⟩
  · rw [Path.join_ofNames hroot (forall_isEntryName habove hdone) (hentry _ hmem), List.append_assoc]
  · intro _
    have hshort := (partsOf_isPrefix done stem).length_le
    simp only [hparts, List.length_append, List.length_cons, List.length_nil] at hshort ⊢
    omega

/-- A file in another subdirectory has another part at this point. -/
theorem filter_filesBelow_eq_nil (hproper : disk.tree.IsProper) (hfree : disk.tree.IsFreeOf '\\')
    (hroot : IsRoot root) (habove : ∀ name ∈ above, IsEntryName name) {done rest : List Text}
    {part other : Text} (hparts : Text.splitOn '.' head = done ++ part :: rest)
    (hdone : ∀ name ∈ done, isName name = true) (hother : isEntered other = true) (hne : other ≠ part) :
    ((filesBelow disk maxPath (Path.join (ofNames root (above ++ done)) other)).filterMap
      (nameBelow? disk (ofNames root above))).filter (Text.startsWith · (head ++ '.' :: last)) = [] := by
  have hhere := forall_isEntryName habove hdone
  have hotherEntry := isEntryName_of_isEntered hother
  apply filter_names_eq_nil hfree hroot habove
  intro file hfile
  rw [Path.join_ofNames hroot hhere hotherEntry] at hfile
  obtain ⟨below, stem, hfound, rfl⟩ := exists_found_of_mem_filesBelow hproper hroot
    (List.forall_mem_append.mpr ⟨hhere, by simpa using hotherEntry⟩) hfile
  refine ⟨done ++ [other] ++ below, stem, hfound.append ?_, by simp, ?_⟩
  · exact List.forall_mem_append.mpr ⟨hdone, by simpa using isName_of_isEntered hother⟩
  · intro hfront
    have hsame := hfront.trans (partsOf_isPrefix _ _)
    rw [hparts, List.append_assoc, List.append_assoc, List.prefix_append_right_inj] at hsame
    exact absurd (List.cons_prefix_cons.mp hsame).1 hne.symm

/-- One part further down: the files that are left behind have other names. -/
theorem filter_namesIn_step (hproper : disk.tree.IsProper) (hfree : disk.tree.IsFreeOf '\\')
    (hroot : IsRoot root) (habove : ∀ name ∈ above, IsEntryName name)
    {done rest : List Text} {part : Text} (hparts : Text.splitOn '.' head = done ++ part :: rest)
    (hentered : ∀ part ∈ Text.splitOn '.' head, isEntered part = true) :
    (namesIn disk root above done).filter (Text.startsWith · (head ++ '.' :: last)) =
      (namesIn disk root above (done ++ [part])).filter (Text.startsWith · (head ++ '.' :: last)) := by
  have hdone : ∀ name ∈ done, isName name = true := by
    intro name hname
    exact isName_of_isEntered (hentered name (by simp [hparts, hname]))
  have hpart : isEntered part = true := hentered part (by simp [hparts])
  have hhere := forall_isEntryName habove hdone
  have hjoin := Path.join_ofNames hroot hhere (isEntryName_of_isEntered hpart)
  have hlisted : disk.isDirectory (Path.join (ofNames root (above ++ done)) part) = true →
      ∃ names, disk.list (ofNames root (above ++ done)) = .ok names ∧ part ∈ names :=
    Disk.mem_list_of_isDirectory_join hroot hhere (isEntryName_of_isEntered hpart)
  rw [List.append_assoc] at hjoin
  rw [hjoin] at hlisted
  cases hlist : disk.list (ofNames root (above ++ done)) with
  | error cause =>
    have hnot : disk.isDirectory (ofNames root (above ++ (done ++ [part]))) = false := by
      rw [Bool.eq_false_iff]
      intro hdirectory
      obtain ⟨names, hnames, -⟩ := hlisted hdirectory
      rw [hlist] at hnames
      cases hnames
    rw [namesIn, namesIn, filesBelow_of_error hlist, filesBelow_of_not_isDirectory hnot]
  | ok names =>
    have hmem : part ∈ enteredAmong disk (ofNames root (above ++ done)) names ↔
        disk.isDirectory (ofNames root (above ++ (done ++ [part]))) = true := by
      rw [mem_enteredAmong, hjoin]
      refine ⟨fun h => h.2.1, fun hdirectory => ⟨?_, hdirectory, hpart⟩⟩
      obtain ⟨names', hnames, hmem⟩ := hlisted hdirectory
      rw [hlist] at hnames
      rwa [Except.ok.inj hnames]
    have hsub : (enteredAmong disk (ofNames root (above ++ done)) names).Nodup :=
      (List.mergeSort_perm _ _).nodup_iff.mpr (((hproper.list hlist).1.filter _).filter _)
    rw [namesIn, namesIn, filesBelow_eq hlist, List.filterMap_append, List.filter_append,
      filter_filesAmong_eq_nil hproper hfree hroot habove hparts hdone hlist, List.nil_append,
      List.filterMap_flatMap, List.filter_flatMap, List.flatMap_eq_of_nodup hsub fun other hother =>
        filter_filesBelow_eq_nil hproper hfree hroot habove hparts hdone (mem_enteredAmong.mp hother).2.2,
      hjoin]
    split
    · rfl
    · rename_i hnot
      rw [hmem, Bool.not_eq_true] at hnot
      rw [filesBelow_of_not_isDirectory hnot]
      rfl

/-- All the way down. -/
theorem filter_namesIn (hproper : disk.tree.IsProper) (hfree : disk.tree.IsFreeOf '\\')
    (hroot : IsRoot root) (habove : ∀ name ∈ above, IsEntryName name)
    (hentered : ∀ part ∈ Text.splitOn '.' head, isEntered part = true) :
    (namesIn disk root above []).filter (Text.startsWith · (head ++ '.' :: last)) =
      (namesIn disk root above (Text.splitOn '.' head)).filter
        (Text.startsWith · (head ++ '.' :: last)) := by
  have hdown : ∀ rest done : List Text, Text.splitOn '.' head = done ++ rest →
      (namesIn disk root above done).filter (Text.startsWith · (head ++ '.' :: last)) =
        (namesIn disk root above (Text.splitOn '.' head)).filter
          (Text.startsWith · (head ++ '.' :: last)) := by
    intro rest
    induction rest with
    | nil =>
      intro done hparts
      rw [hparts, List.append_nil]
    | cons part rest ih =>
      intro done hparts
      rw [filter_namesIn_step hproper hfree hroot habove hparts hentered]
      apply ih
      rw [hparts, List.append_assoc, List.singleton_append]
  exact hdown _ [] rfl

end Descent

/-! ### Search and scan -/

theorem map_fst_inDirectory (hroot : IsRoot root) (habove : ∀ name ∈ above, IsEntryName name) :
    (inDirectory disk (ofNames root above)).map (·.1) = namesIn disk root above [] := by
  rw [inDirectory, namesIn, Path.absolute_ofNames _ hroot habove, List.append_nil, List.map_filterMap]
  refine List.filterMap_congr fun file _ => ?_
  rw [nameBelow?]
  cases nameOfPath? (Path.relative disk.cwd file (ofNames root above)) <;> rfl

/-- What a search keeps is what it would keep of all names in the directory that it starts in. -/
theorem startingWith_eq_of_start (hproper : disk.tree.IsProper) (hfree : disk.tree.IsFreeOf '\\')
    (hroot : IsRoot root) (habove : ∀ name ∈ above, IsEntryName name) {parts : List Text}
    {name : Text} (hparts : ∀ part ∈ parts, isName part = true)
    (hstart : startDirectory (ofNames root above) name = ofNames root (above ++ parts))
    (hlong : ∀ found found', nameOfParts? found = some found' →
      Text.startsWith found' name = true → parts.length < found.length) :
    startingWith disk (ofNames root above) name =
      (namesIn disk root above parts).filter (Text.startsWith · name) := by
  have hhere := forall_isEntryName habove hparts
  rw [startingWith, under, hstart, Path.absolute_ofNames _ hroot habove, inDirectory,
    Path.absolute_ofNames _ hroot hhere, namesIn]
  split
  · apply List.filterMap_filterMap_map (nameBelow? disk (ofNames root (above ++ parts)))
      (nameBelow? disk (ofNames root above)) (Text.startsWith · name)
    intro file hfile found hname hkeep
    obtain ⟨below, stem, hfound, rfl⟩ := exists_found_of_mem_filesBelow hproper hroot hhere hfile
    rw [hfound.nameBelow? (hfound.free hfree) hroot hhere]
    rw [List.append_assoc, ← List.append_assoc parts,
      (hfound.append hparts).nameBelow? (hfound.free hfree) hroot habove] at hname
    have hlength := hlong _ _ hname hkeep
    have hsplit := partsOf_append hlength
    obtain ⟨-, hnames, -⟩ := nameOfParts?_eq_some.mp hname
    rw [hsplit] at hlength hnames
    rw [Option.isSome_iff_exists]
    refine ⟨_, nameOfParts?_eq_some.mpr ⟨?_, fun part hpart => ?_, rfl⟩⟩
    · rintro hnil
      simp [hnil] at hlength
    · exact hnames part (List.mem_append_right _ hpart)
  · rename_i hnot
    rw [filesBelow_of_not_isDirectory (by simpa using hnot)]
    rfl

/-- A text with a part before its last dot that is no name starts no module's name. -/
theorem filter_startsWith_eq_nil {names : List Text} {head last : Text}
    (hnames : ∀ name ∈ names, ∃ path, nameOfPath? path = some name)
    (hpart : ∃ part ∈ Text.splitOn '.' head, ¬ isName part = true) :
    names.filter (Text.startsWith · (head ++ '.' :: last)) = [] := by
  obtain ⟨part, hmem, hnot⟩ := hpart
  refine List.filter_eq_nil_iff.mpr fun name hname hstart => hnot ?_
  obtain ⟨path, hpath⟩ := hnames name hname
  obtain ⟨parts, hparts⟩ := exists_parts_of_nameOfPath? hpath
  have hfront := (parts_isPrefix hparts hstart).1
  exact (nameOfParts?_eq_some.mp hparts).2.1 part (hfront.subset hmem)

/-- A search finds the names that a scan of the directory would find and that start as asked for. -/
theorem startingWith_eq_filter (hproper : disk.tree.IsProper) (hfree : disk.tree.IsFreeOf '\\')
    {directory name : Text} (hnormal : IsNormal directory)
    (hname : ∀ part ∈ (Text.splitOn '.' name).dropLast, part ∉ excludedDirectories) :
    startingWith disk directory name =
      ((inDirectory disk directory).map (·.1)).filter (Text.startsWith · name) := by
  obtain ⟨root, above, hroot, habove, rfl⟩ := hnormal.exists_ofNames
  rw [map_fst_inDirectory hroot habove]
  have hhere : startDirectory (ofNames root above) name = ofNames root above →
      startingWith disk (ofNames root above) name =
        (namesIn disk root above []).filter (Text.startsWith · name) := by
    intro hstart
    refine startingWith_eq_of_start hproper hfree hroot habove (by simp) ?_ ?_
    · rw [hstart, List.append_nil]
    · intro found found' hfound _
      exact List.length_pos_iff.mpr (nameOfParts?_eq_some.mp hfound).1
  cases hsplit : Text.splitLast? '.' name with
  | none =>
    apply hhere
    rw [startDirectory, if_neg]
    simpa using Text.splitLast?_eq_none hsplit
  | some found =>
    obtain ⟨head, last⟩ := found
    obtain ⟨rfl, hlast⟩ := Text.splitLast?_eq_some hsplit
    have hdirectory : startDirectory (ofNames root above) (head ++ '.' :: last) =
        if head.isEmpty then ofNames root above
        else Path.joinAll (ofNames root above) (Text.splitOn '.' head) := by
      rw [startDirectory, if_pos (by simp), Text.beforeLast, hsplit]
    by_cases hempty : head.isEmpty = true
    · rw [if_pos hempty] at hdirectory
      exact hhere hdirectory
    rw [if_neg hempty] at hdirectory
    by_cases hnames : ∀ part ∈ Text.splitOn '.' head, isName part = true
    · have hentered : ∀ part ∈ Text.splitOn '.' head, isEntered part = true := by
        intro part hpart
        have hkept := hname part (by
          rw [Text.splitOn_append, Text.splitOn_of_not_mem hlast, List.dropLast_concat]
          exact hpart)
        rw [isEntered, hnames part hpart]
        simpa using hkept
      rw [Path.joinAll_ofNames hroot habove fun part hpart =>
        Script.isEntryName_of_isName (hnames part hpart)] at hdirectory
      rw [filter_namesIn hproper hfree hroot habove hentered]
      refine startingWith_eq_of_start hproper hfree hroot habove hnames hdirectory ?_
      intro found found' hfound hstart
      exact (parts_isPrefix hfound hstart).2
    · push Not at hnames
      have hpart : ∃ part ∈ Text.splitOn '.' head, ¬ isName part = true := by simpa using hnames
      rw [startingWith, filter_startsWith_eq_nil _ hpart, filter_startsWith_eq_nil _ hpart]
      · intro name hname
        obtain ⟨file, -, hfile⟩ := List.mem_filterMap.mp hname
        exact ⟨_, hfile⟩
      · intro name hname
        rw [under] at hname
        split at hname
        · obtain ⟨⟨_, file⟩, -, hfile⟩ := List.mem_filterMap.mp hname
          exact ⟨_, hfile⟩
        · exact absurd hname List.not_mem_nil

theorem inLibrary_of_isDirectory {directory : Text} (hdirectory : disk.isDirectory directory = true) :
    inLibrary disk directory = .ok ((inDirectory disk directory).map (·.1)) := by
  obtain ⟨entries, hnode⟩ := Disk.isDirectory_iff.mp hdirectory
  rw [inLibrary, hnode]

/-- Keeping the first of equal texts in one pass. -/
theorem distinct_eq_eraseDups (texts : List Text) : Text.distinct texts = texts.eraseDups := by
  have hfold : ∀ (rest kept : List Text),
      rest.foldl (fun kept text => if kept.contains text then kept else kept ++ [text]) kept =
        kept ++ (rest.filter fun text => !kept.contains text).eraseDups := by
    intro rest
    induction rest with
    | nil => simp
    | cons text rest ih =>
      intro kept
      rw [List.foldl_cons, ih]
      by_cases hkept : kept.contains text = true
      · rw [if_pos hkept, List.filter_cons_of_neg (by simpa using hkept)]
      · have hfilter : (rest.filter fun other => !(kept ++ [text]).contains other) =
            (rest.filter fun other => !kept.contains other).filter fun other => !other == text := by
          rw [List.filter_filter]
          refine List.filter_congr fun other _ => ?_
          rw [Bool.eq_iff_iff]
          simp [and_comm]
        rw [if_neg hkept, List.filter_cons_of_pos (by simpa using hkept), List.eraseDups_cons, hfilter]
        simp
  have hall := hfold texts []
  simp only [List.contains_nil, Bool.not_false, List.filter_true, List.nil_append] at hall
  exact hall

/-- Searching the load path for a name so far gives what scanning its directories would give: the
names that start so, each where it comes first. Only the directories that are never entered must not
be asked for. -/
theorem modulesStartingWith_eq_scans (hproper : disk.tree.IsProper) (hfree : disk.tree.IsFreeOf '\\')
    {name : Text} (hname : ∀ part ∈ (Text.splitOn '.' name).dropLast, part ∉ excludedDirectories) :
    (∀ directory, IsNormal directory → disk.isDirectory directory = true →
      ∃ names, inLibrary disk directory = .ok names ∧
        startingWith disk directory name = names.filter (Text.startsWith · name)) ∧
    ∀ loadPath : LoadPath, (∀ directory ∈ loadPath.directories,
        IsNormal directory ∧ disk.isDirectory directory = true) →
      ∃ scans, loadPath.directories.mapM (inLibrary disk) = .ok scans ∧
        loadPath.modulesStartingWith disk name =
          (scans.flatten.filter (Text.startsWith · name)).eraseDups := by
  constructor
  · intro directory hnormal hdirectory
    exact ⟨_, inLibrary_of_isDirectory hdirectory, startingWith_eq_filter hproper hfree hnormal hname⟩
  · intro loadPath hdirectories
    refine ⟨_, List.mapM_eq_ok fun directory hmem =>
      inLibrary_of_isDirectory (hdirectories directory hmem).2, ?_⟩
    rw [LoadPath.modulesStartingWith, distinct_eq_eraseDups, ← List.flatMap_def, List.filter_flatMap]
    congr 1
    refine List.flatMap_congr fun directory hmem => ?_
    exact startingWith_eq_filter hproper hfree (hdirectories directory hmem).1 hname

/-- Two directories with a package of one name, which has a linked package in it in the first. -/
def packageDisk : Disk where
  tree := .directory [
    ("inner".toList, .directory [("__init__.py".toList, .file (.bytes []))]),
    ("lib".toList, .directory [("pkg".toList, .directory [("m.py".toList, .file (.bytes [])),
      ("sub".toList, .link "/inner".toList)])]),
    ("more".toList, .directory [("pkg".toList, .directory [("m.py".toList, .file (.bytes []))])])]
  cwd := "/".toList
  home := "/home".toList
  library := []

/-- The load path of the two directories. -/
def packagePath : LoadPath :=
  ⟨[⟨"/lib".toList, "/lib".toList⟩, ⟨"/more".toList, "/more".toList⟩]⟩

theorem modulesStartingWith_eq_scans_package :
    packageDisk.tree.IsProper ∧ packageDisk.tree.IsFreeOf '\\' ∧
      packagePath.modulesStartingWith packageDisk "pkg.".toList =
        ["pkg.m".toList, "pkg.sub".toList] ∧
      ∃ scans, packagePath.directories.mapM (inLibrary packageDisk) = .ok scans ∧
        packagePath.modulesStartingWith packageDisk "pkg.".toList =
          (scans.flatten.filter (Text.startsWith · "pkg.".toList)).eraseDups := by
  have hproper : packageDisk.tree.IsProper := by decide
  have hfree : packageDisk.tree.IsFreeOf '\\' := by decide
  have hname : ∀ part ∈ (Text.splitOn '.' "pkg.".toList).dropLast, part ∉ excludedDirectories := by
    decide
  refine ⟨hproper, hfree, by decide +kernel, ?_⟩
  exact (modulesStartingWith_eq_scans hproper hfree hname).2 packagePath (by decide)

end Caret.Modules
