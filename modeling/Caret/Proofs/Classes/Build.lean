import Caret.Classes.Index
import Caret.Proofs.Modules.Index
import Mathlib.Data.List.TakeWhile
import Mathlib.Tactic.MkIffOfInductiveProp

/-!
# The classes that an index is built from

An index is built from the sources of all modules in some libraries. What cannot be read is passed over:
a library that cannot be opened, a file that is not there, a damaged entry of an archive. The one
exception is a locked entry, which ends the scan of its archive, so that the modules listed behind it are
lost. `beforeLocked` is what is left of the modules of an archive; everything else about an index follows
from `mem_sources_iff`, which says where the sources come from.
-/

namespace Caret

open Files

namespace Modules

variable {disk : Disk} {archive : Archive} {module source : Text}

/-! ### Sources in an archive -/

/-- Whether the entry that a name gives is locked. -/
def isLocked (archive : Archive) (name : Text) : Bool :=
  (archive.entry? name).any fun found => found.obstacle = some .encrypted

/-- The entry that a name gives can be read, and this is its text. -/
def ReadsAs (archive : Archive) (name source : Text) : Prop :=
  ∃ found, archive.entry? name = some found ∧ found.obstacle = none ∧
    Text.decodeReplacing found.content = source

/-- The modules of an archive that are listed before the first locked one. -/
def beforeLocked (archive : Archive) : List (Text × Text) :=
  (inArchive archive).takeWhile fun listed => !isLocked archive listed.2

/-- The sources are those of the entries that can be read, as far as no locked entry comes first. -/
theorem mem_archiveSources_iff {entries : List (Text × Text)} :
    (module, source) ∈ (archiveSources archive entries).1 ↔
      ∃ name, (module, name) ∈ entries.takeWhile (fun listed => !isLocked archive listed.2) ∧
        ReadsAs archive name source := by
  induction entries with
  | nil => simp [archiveSources]
  | cons first rest ih =>
    obtain ⟨other, name⟩ := first
    -- an entry that is passed over is not locked and has no source
    have hpassed (hunlocked : isLocked archive name = false)
        (hunread : ∀ text, ¬ ReadsAs archive name text) :
        (∃ name', (module, name') ∈ ((other, name) :: rest).takeWhile
            (fun listed => !isLocked archive listed.2) ∧ ReadsAs archive name' source) ↔
          ∃ name', (module, name') ∈ rest.takeWhile (fun listed => !isLocked archive listed.2) ∧
            ReadsAs archive name' source := by
      rw [List.takeWhile_cons_of_pos (by simp [hunlocked])]
      refine exists_congr fun name' => and_congr_left fun hreads => ?_
      rw [List.mem_cons, or_iff_right]
      rintro ⟨⟩
      exact hunread source hreads
    rw [archiveSources]
    cases hentry : archive.entry? name with
    | none =>
      refine ih.trans (hpassed (by simp [isLocked, hentry]) ?_).symm
      rintro text ⟨found, hfound, -⟩
      rw [hentry] at hfound
      cases hfound
    | some found =>
      dsimp only
      cases hobstacle : found.obstacle with
      | none =>
        have hreads : ∀ text, ReadsAs archive name text ↔ Text.decodeReplacing found.content = text := by
          simp [ReadsAs, hentry, hobstacle]
        rw [List.takeWhile_cons_of_pos (by simp [isLocked, hentry, hobstacle])]
        simp only [List.mem_cons, ih, or_and_right, exists_or]
        refine or_congr_left ⟨?_, ?_⟩
        · rintro ⟨⟩
          exact ⟨name, rfl, (hreads _).mpr rfl⟩
        · rintro ⟨name', ⟨⟩, hsource⟩
          rw [(hreads source).mp hsource]
      | some obstacle =>
        have hunread : ∀ text, ¬ ReadsAs archive name text := by
          simp [ReadsAs, hentry, hobstacle]
        cases obstacle with
        | badChecksum => exact ih.trans (hpassed (by simp [isLocked, hentry, hobstacle]) hunread).symm
        | encrypted =>
          rw [List.takeWhile_cons_of_neg (by simp [isLocked, hentry, hobstacle])]
          simp

/-! ### Sources in a library -/

/-- A library has a module with a source: a file below a directory, or an entry of an archive that is
among those listed of it. -/
@[mk_iff]
inductive HasSource (disk : Disk) (listed : Archive → List (Text × Text))
    (location module source : Text) : Prop where
  | file {entries : List (Text × Node)} {path : Text}
      (hlocation : disk.node location = .ok (.directory entries))
      (hlisted : (module, path) ∈ inDirectory disk location)
      (hread : disk.readReplacing path = .ok source)
  | entry {content : Content} {archive : Archive} {name : Text}
      (hlocation : disk.node location = .ok (.file content)) (hopened : content.opened = .entries archive)
      (hlisted : (module, name) ∈ listed archive) (hread : ReadsAs archive name source)

theorem mem_sources_iff {location : Text} :
    (module, source) ∈ (sources disk location).1 ↔ HasSource disk beforeLocked location module source := by
  rw [sources, hasSource_iff]
  cases hnode : disk.node location with
  | error cause => simp
  | ok node =>
    cases node with
    | link target => simp
    | directory entries =>
      simp only [List.mem_filterMap, Prod.exists, Except.ok.injEq, Node.directory.injEq, reduceCtorEq,
        false_and, exists_false, or_false]
      constructor
      · rintro ⟨name, path, hlisted, hread⟩
        split at hread
        · rename_i text htext
          obtain ⟨rfl, rfl⟩ := Prod.mk.inj (Option.some.inj hread)
          exact ⟨entries, path, rfl, hlisted, htext⟩
        · cases hread
      · rintro ⟨-, path, -, hlisted, hread⟩
        exact ⟨module, path, hlisted, by rw [hread]⟩
    | file content =>
      dsimp only
      cases hopened : content.opened with
      | other => simp [hopened]
      | broken => simp [hopened]
      | entries archive => simp [hopened, mem_archiveSources_iff, beforeLocked]

/-- A library in which no module is locked: no archive, or one whose modules can all be opened. -/
def IsUnlocked (disk : Disk) (location : Text) : Prop :=
  ∀ content archive, disk.node location = .ok (.file content) → content.opened = .entries archive →
    ∀ listed ∈ inArchive archive, isLocked archive listed.2 = false

theorem IsUnlocked.hasSource_iff {location : Text} (hunlocked : IsUnlocked disk location) :
    HasSource disk beforeLocked location module source ↔
      HasSource disk inArchive location module source := by
  constructor
  · rintro (⟨hlocation, hlisted, hread⟩ | ⟨hlocation, hopened, hlisted, hread⟩)
    · exact .file hlocation hlisted hread
    · exact .entry hlocation hopened ((List.takeWhile_prefix _).subset hlisted) hread
  · rintro (⟨hlocation, hlisted, hread⟩ | ⟨hlocation, hopened, hlisted, hread⟩)
    · exact .file hlocation hlisted hread
    · refine .entry hlocation hopened ?_ hread
      rw [beforeLocked, List.takeWhile_eq_self_iff.mpr]
      · exact hlisted
      · intro listed hmem
        simp [hunlocked _ _ hlocation hopened listed hmem]

end Modules

namespace Classes

open Modules
open Text (Listing)

variable {disk : Disk}

/-- A source is a script that defines a class at its top level, under a name that can be written. -/
def Defines [CharacterNames] (source name : Text) : Prop :=
  ∃ statements, Script.parse? source = some statements ∧
    (∃ statement ∈ statements, statement.action = .defineClass name) ∧ Script.isName name = true

theorem mem_classNames_iff [CharacterNames] {source name : Text} :
    name ∈ Script.classNames source ↔ Defines source name := by
  rw [Script.classNames, Defines]
  cases Script.parse? source with
  | none => simp
  | some statements =>
    simp only [Option.getD_some, List.mem_filterMap, Option.some.injEq, exists_eq_left']
    constructor
    · rintro ⟨statement, hmem, hname⟩
      split at hname
      · rename_i defined haction
        obtain ⟨hvalid, heq⟩ := Option.ite_none_right_eq_some.mp hname
        obtain rfl := Option.some.inj heq
        exact ⟨⟨statement, hmem, haction⟩, hvalid⟩
      · cases hname
    · rintro ⟨⟨statement, hmem, haction⟩, hvalid⟩
      refine ⟨statement, hmem, ?_⟩
      rw [haction]
      exact if_pos hvalid

/-- The qualified name of a class in one of some libraries, of whose archives some modules are listed. -/
def IsClassIn [CharacterNames] (disk : Disk) (listed : Archive → List (Text × Text))
    (locations : List Text) (qualified : Text) : Prop :=
  ∃ location ∈ locations, ∃ module source name, HasSource disk listed location module source ∧
    Defines source name ∧ qualified = module ++ '.' :: name

theorem mem_inLibrary_iff [CharacterNames] {location qualified : Text} :
    qualified ∈ inLibrary disk location ↔
      ∃ module source name, HasSource disk beforeLocked location module source ∧ Defines source name ∧
        qualified = module ++ '.' :: name := by
  simp only [inLibrary, List.mem_flatMap, List.mem_map, Prod.exists, mem_sources_iff, mem_classNames_iff,
    eq_comm, exists_and_left]

/-- An index lists the classes of every module that can be read, in whatever library it is and whatever
else cannot be read, up to the first locked module of an archive. Where no module is locked it lists them
all. -/
theorem listing_indexOf [CharacterNames] (disk : Disk) (locations : List Text) :
    Listing (IsClassIn disk beforeLocked locations) (indexOf disk locations).names.names ∧
      ((∀ location ∈ locations, IsUnlocked disk location) →
        Listing (IsClassIn disk inArchive locations) (indexOf disk locations).names.names) := by
  have hlisting : Listing (IsClassIn disk beforeLocked locations) (indexOf disk locations).names.names := by
    refine (Modules.Index.names_ofNames _).congr fun qualified => ?_
    simp only [List.mem_flatMap, mem_inLibrary_iff, IsClassIn]
  refine ⟨hlisting, fun hunlocked => hlisting.congr fun qualified => ?_⟩
  refine exists_congr fun location => and_congr_right fun hlocation => ?_
  simp only [(hunlocked location hlocation).hasSource_iff]

/-- Some ASCII text as the bytes of a file. -/
def bytesOf (text : String) : Text.Bytes :=
  text.toList.map fun c => c.toNat.toUInt8

/-- An archive with a damaged entry, and one with a locked entry in between. -/
def partialDisk : Disk where
  tree := .directory [
    ("damaged.zip".toList, .file (.archive [
      ⟨"a.py".toList, bytesOf "class A: pass\n", some .badChecksum⟩,
      ⟨"b.py".toList, bytesOf "class B: pass\n", none⟩])),
    ("locked.zip".toList, .file (.archive [
      ⟨"c.py".toList, bytesOf "class C: pass\n", none⟩,
      ⟨"d.py".toList, bytesOf "class D: pass\n", some .encrypted⟩,
      ⟨"e.py".toList, bytesOf "class E: pass\n", none⟩]))]
  cwd := "/".toList
  home := "/home".toList
  library := []

section

open scoped CharacterNames

/-- A damaged entry and a library that is missing cost nothing else; a locked entry costs what comes behind
it. -/
theorem listing_indexOf_partial :
    (∀ location ∈ ["damaged.zip".toList, "missing".toList], IsUnlocked partialDisk location) ∧
      (indexOf partialDisk ["damaged.zip".toList, "missing".toList]).names.names = ["b.B".toList] ∧
      Listing (IsClassIn partialDisk inArchive ["damaged.zip".toList, "missing".toList])
        ["b.B".toList] ∧
      Listing (IsClassIn partialDisk beforeLocked ["locked.zip".toList]) ["c.C".toList] := by
  have hdamaged : (indexOf partialDisk ["damaged.zip".toList, "missing".toList]).names.names =
      ["b.B".toList] := by decide +kernel
  have hlocked : (indexOf partialDisk ["locked.zip".toList]).names.names = ["c.C".toList] := by
    decide +kernel
  have hunlocked : ∀ location ∈ ["damaged.zip".toList, "missing".toList],
      IsUnlocked partialDisk location := by
    intro location hlocation content archive hnode hopened
    simp only [List.mem_cons, List.not_mem_nil, or_false] at hlocation
    rcases hlocation with rfl | rfl
    · cases hnode
      cases hopened
      decide
    · cases hnode
  refine ⟨hunlocked, hdamaged, ?_, ?_⟩
  · rw [← hdamaged]
    exact (listing_indexOf partialDisk _).2 hunlocked
  · rw [← hlocked]
    exact (listing_indexOf partialDisk _).1

end

end Classes

end Caret
