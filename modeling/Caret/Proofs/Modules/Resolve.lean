import Caret.Proofs.Modules.Scan

/-!
# Offering and resolving modules

The modules that are offered come from a walk over files, the file of a module from a look-up of its
name. They meet where a file is plain: it is there, and its name can be read off the name of its
module. A name that is offered because of a plain file, below a directory in normal form, is resolved.
-/

namespace Caret.Modules

open Files
open Caret.Path (IsEntryName IsNormal IsRoot ofNames)
open Script (isName)

variable {disk : Disk}

/-- A module is offered for a name so far because of a file below a directory. -/
structure Offers (disk : Disk) (directory start name file : Text) : Prop where
  isDirectory : disk.isDirectory (startDirectory directory start) = true
  listed : ∃ own, (own, file) ∈ inDirectory disk (startDirectory directory start)
  named : nameBelow? disk (Path.absolute disk.cwd directory) file = some name
  starts : Text.startsWith name start = true

/-- A path leads to a file whose name has no backslash and more to it than the ending. -/
structure IsPlain (disk : Disk) (file : Text) : Prop where
  isFile : disk.isFile file = true
  free : '\\' ∉ Path.fileName file
  hasStem : Path.fileName file ≠ fileEnding

theorem mem_startingWith {directory start name : Text} :
    name ∈ startingWith disk directory start ↔ ∃ file, Offers disk directory start name file := by
  rw [startingWith, List.mem_filter, under]
  constructor
  · rintro ⟨hname, hstarts⟩
    split at hname
    · rename_i hdirectory
      obtain ⟨⟨own, file⟩, hlisted, hnamed⟩ := List.mem_filterMap.mp hname
      exact ⟨file, hdirectory, ⟨own, hlisted⟩, hnamed, hstarts⟩
    · exact absurd hname List.not_mem_nil
  · rintro ⟨file, hdirectory, ⟨own, hlisted⟩, hnamed, hstarts⟩
    rw [if_pos hdirectory]
    exact ⟨List.mem_filterMap.mpr ⟨(own, file), hlisted, hnamed⟩, hstarts⟩

theorem LoadPath.mem_modulesStartingWith_iff {loadPath : LoadPath} {start name : Text} :
    name ∈ loadPath.modulesStartingWith disk start ↔
      ∃ directory ∈ loadPath.directories, ∃ file, Offers disk directory start name file := by
  simp only [LoadPath.modulesStartingWith, distinct_eq_eraseDups, List.mem_eraseDups, List.mem_flatMap,
    mem_startingWith]

/-! ### From a file to its name and back -/

/-- A search that offers something has started below the directory, in one that names lead to. -/
theorem Offers.exists_parts {root : Text} {above : List Text} {start name file : Text}
    (hroot : IsRoot root) (habove : ∀ name ∈ above, IsEntryName name)
    (hoffers : Offers disk (ofNames root above) start name file) :
    ∃ parts, (∀ part ∈ parts, isName part = true) ∧
      startDirectory (ofNames root above) start = ofNames root (above ++ parts) := by
  cases hsplit : Text.splitLast? '.' start with
  | none =>
    refine ⟨[], by simp, ?_⟩
    rw [startDirectory, if_neg, List.append_nil]
    simpa using Text.splitLast?_eq_none hsplit
  | some found =>
    obtain ⟨head, last⟩ := found
    obtain ⟨rfl, -⟩ := Text.splitLast?_eq_some hsplit
    rw [startDirectory, if_pos (by simp), Text.beforeLast, hsplit]
    dsimp only
    split
    · exact ⟨[], by simp, by rw [List.append_nil]⟩
    · obtain ⟨parts, hparts⟩ := exists_parts_of_nameOfPath? hoffers.named
      have hfront := (parts_isPrefix hparts hoffers.starts).1
      have hnames : ∀ part ∈ Text.splitOn '.' head, isName part = true := by
        intro part hpart
        exact (nameOfParts?_eq_some.mp hparts).2.1 part (hfront.subset hpart)
      refine ⟨Text.splitOn '.' head, hnames, ?_⟩
      exact Path.joinAll_ofNames hroot habove fun part hpart =>
        Script.isEntryName_of_isName (hnames part hpart)

theorem partsOf_of_ne_nil (above : List Text) {stem : Text} (hstem : stem ≠ []) :
    partsOf above stem = if stem = packageFile then above else above ++ [stem] := by
  rw [partsOf, if_neg hstem, foldPackage]
  simp

/-- The name of a module leads to the file that it was read off. -/
theorem find?_isSome_of_found {root : Text} {above below : List Text} {stem : Text}
    (hroot : IsRoot root) (habove : ∀ name ∈ above, IsEntryName name) (hfound : Found disk below stem)
    (hstem : stem ≠ [])
    (hfile : disk.isFile (ofNames root (above ++ (below ++ [stem ++ fileEnding]))) = true)
    (hparts : ∀ part ∈ partsOf below stem, isName part = true) :
    ([Path.joinAll (ofNames root above) (partsOf below stem) ++ fileEnding,
      Path.join (Path.joinAll (ofNames root above) (partsOf below stem))
        (packageFile ++ fileEnding)].find? disk.isFile).isSome = true := by
  have hentries : ∀ part ∈ partsOf below stem, IsEntryName part := by
    intro part hpart
    exact Script.isEntryName_of_isName (hparts part hpart)
  rw [Path.joinAll_ofNames hroot habove hentries, List.find?_isSome]
  rw [partsOf_of_ne_nil below hstem] at hentries ⊢
  split
  · rename_i hpackage
    rw [if_pos hpackage] at hentries
    refine ⟨_, List.mem_cons_of_mem _ List.mem_cons_self, ?_⟩
    rw [Path.join_ofNames hroot (List.forall_mem_append.mpr ⟨habove, hentries⟩)
      (hpackage ▸ hfound.isEntryName), ← hpackage, List.append_assoc]
    exact hfile
  · refine ⟨_, List.mem_cons_self, ?_⟩
    rw [ofNames, List.append_assoc, ← List.append_assoc above, ← Text.join_concat_append,
      List.append_assoc above]
    exact hfile

/-- A name on the load path comes from a file. If the file is plain and the directory in normal form,
then the name leads to a file. -/
theorem moduleFile?_isSome_of_offers (hproper : disk.tree.IsProper) (loadPath : LoadPath)
    (start name : Text) :
    (name ∈ loadPath.modulesStartingWith disk start ↔
      ∃ directory ∈ loadPath.directories, ∃ file, Offers disk directory start name file) ∧
    ∀ directory ∈ loadPath.directories, ∀ file, Offers disk directory start name file →
      IsNormal directory → IsPlain disk file → (loadPath.moduleFile? disk name).isSome = true := by
  refine ⟨LoadPath.mem_modulesStartingWith_iff, ?_⟩
  intro directory hdirectory file hoffers hnormal hplain
  obtain ⟨root, above, hroot, habove, rfl⟩ := hnormal.exists_ofNames
  obtain ⟨parts, hparts, hstart⟩ := hoffers.exists_parts hroot habove
  have hhere : ∀ name ∈ above ++ parts, IsEntryName name :=
    List.forall_mem_append.mpr
      ⟨habove, fun part hpart => Script.isEntryName_of_isName (hparts part hpart)⟩
  obtain ⟨own, hlisted⟩ := hoffers.listed
  rw [hstart, inDirectory, Path.absolute_ofNames _ hroot hhere] at hlisted
  obtain ⟨file', hfile, hown⟩ := List.mem_filterMap.mp hlisted
  obtain rfl : file' = file := by
    obtain ⟨_, _, heq⟩ := Option.map_eq_some_iff.mp hown
    exact congrArg Prod.snd heq
  obtain ⟨below, stem, hfound, rfl⟩ := exists_found_of_mem_filesBelow hproper hroot hhere hfile
  -- seen from the directory, the search has gone down by the parts that it started with
  have hfound := hfound.append hparts
  rw [List.append_assoc, ← List.append_assoc parts] at hoffers hplain
  have hname := hplain.free
  have hstem := hplain.hasStem
  rw [← List.append_assoc, Path.fileName_ofNames hroot hfound.isEntryName] at hname hstem
  have hnamed := hoffers.named
  rw [Path.absolute_ofNames _ hroot habove, hfound.nameBelow? hname hroot habove] at hnamed
  obtain ⟨hne, hnames, rfl⟩ := nameOfParts?_eq_some.mp hnamed
  rw [LoadPath.moduleFile?, nameParts_join hne hnames, if_neg (by simpa using hne),
    List.findSome?_isSome_iff]
  refine ⟨ofNames root above, hdirectory, ?_⟩
  apply find?_isSome_of_found hroot habove hfound _ hplain.isFile hnames
  rintro rfl
  exact hstem rfl

/-- The file of a linked package is offered, plain and found. -/
theorem moduleFile?_isSome_of_offers_package :
    packageDisk.tree.IsProper ∧
      Offers packageDisk "/lib".toList "pkg.".toList "pkg.sub".toList
        "/lib/pkg/sub/__init__.py".toList ∧
      IsNormal "/lib".toList ∧ IsPlain packageDisk "/lib/pkg/sub/__init__.py".toList ∧
      (packagePath.moduleFile? packageDisk "pkg.sub".toList).isSome = true := by
  have hproper : packageDisk.tree.IsProper := by decide
  have hoffers : Offers packageDisk "/lib".toList "pkg.".toList "pkg.sub".toList
      "/lib/pkg/sub/__init__.py".toList :=
    ⟨by decide +kernel, ⟨"sub".toList, by decide +kernel⟩, by decide +kernel, by decide⟩
  have hnormal : IsNormal "/lib".toList := by decide
  have hplain : IsPlain packageDisk "/lib/pkg/sub/__init__.py".toList :=
    ⟨by decide +kernel, by decide, by decide⟩
  refine ⟨hproper, hoffers, hnormal, hplain, ?_⟩
  exact (moduleFile?_isSome_of_offers hproper packagePath "pkg.".toList "pkg.sub".toList).2
    "/lib".toList (by decide) _ hoffers hnormal hplain

end Caret.Modules
