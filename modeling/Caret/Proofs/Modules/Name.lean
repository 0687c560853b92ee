import Caret.Modules.Name
import Caret.Proofs.Files.Path
import Caret.Proofs.Text.Space

/-!
# Names of modules and paths of files

A module's name is made of parts that are names, so taking it apart at its dots gives these parts back.
For a file below a directory they are the names on the way to it, with the ending cut off and the file
of a package left out. `nameOfPath?_join` says which parts these are; the rest of the theory speaks of
parts and not of texts.
-/

namespace Caret

open Caret.Path (IsEntryName)

namespace Text

theorem mem_trim {text : Text} {c : Char} (hc : c ∈ text) (hspace : isSpace c = false) :
    c ∈ trim text := by
  have hnot : ∀ {rest : Text}, (∀ d ∈ rest, isSpace d = true) → c ∉ rest := by
    intro rest hrest hmem
    rw [hrest c hmem] at hspace
    cases hspace
  rw [← List.takeWhile_append_dropWhile (p := isSpace) (l := text), List.mem_append] at hc
  have hc := hc.resolve_left (hnot (List.all_eq_true.mp List.all_takeWhile))
  rw [← dropEndWhile_append_takeEndWhile isSpace (text.dropWhile isSpace), List.mem_append] at hc
  exact hc.resolve_right (hnot (List.all_eq_true.mp (all_takeEndWhile _ _)))

end Text

namespace Script

variable {text : Text}

/-- A name has no character in it that is neither white space nor part of identifiers. -/
theorem not_mem_of_isName {c : Char} (hname : isName text = true)
    (hother : (!Text.isSpace c && !Text.isIdentifierStart c && !Text.isIdentifierRest c) = true) :
    c ∉ text := by
  simp only [Bool.and_eq_true, Bool.not_eq_true'] at hother
  obtain ⟨⟨hspace, hstart⟩, hrest⟩ := hother
  intro hc
  have hmem := Text.mem_trim hc hspace
  rw [isName, Bool.and_eq_true] at hname
  cases htrim : Text.trim text with
  | nil => simp [htrim] at hmem
  | cons d ds =>
    have hword := hname.1
    rw [htrim, Text.isIdentifier, Bool.and_eq_true, List.all_eq_true] at hword
    rw [htrim] at hmem
    rcases List.mem_cons.mp hmem with rfl | hmem
    · rw [hword.1] at hstart
      cases hstart
    · rw [hword.2 c hmem] at hrest
      cases hrest

theorem ne_nil_of_isName (hname : isName text = true) : text ≠ [] := by
  rintro rfl
  exact absurd hname (by decide)

theorem dot_not_mem_of_isName (hname : isName text = true) : '.' ∉ text :=
  not_mem_of_isName hname (by decide)

theorem isEntryName_of_isName (hname : isName text = true) : IsEntryName text := by
  have hdot := dot_not_mem_of_isName hname
  refine ⟨ne_nil_of_isName hname, ?_, ?_, not_mem_of_isName hname (by decide)⟩
  · rintro rfl
    simp at hdot
  · rintro rfl
    simp [Path.parentName] at hdot

end Script

namespace Modules

open Script (isName)

/-! ### Names and their parts -/

theorem splitOn_join_names {parts : List Text} (hparts : parts ≠ [])
    (hnames : ∀ part ∈ parts, isName part = true) :
    Text.splitOn '.' (Text.join ['.'] parts) = parts :=
  Text.splitOn_join hparts fun part hpart => Script.dot_not_mem_of_isName (hnames part hpart)

theorem nameParts_join {parts : List Text} (hparts : parts ≠ [])
    (hnames : ∀ part ∈ parts, isName part = true) : nameParts (Text.join ['.'] parts) = parts := by
  rw [nameParts, splitOn_join_names hparts hnames]
  refine List.filter_eq_self.mpr fun part hpart => ?_
  simpa using Script.ne_nil_of_isName (hnames part hpart)

/-- A name that starts with a text up to a dot has the parts of that text and at least one more. -/
theorem prefix_of_startsWith {parts : List Text} {head last : Text} (hparts : parts ≠ [])
    (hnames : ∀ part ∈ parts, isName part = true)
    (hstart : head ++ '.' :: last <+: Text.join ['.'] parts) :
    Text.splitOn '.' head <+: parts ∧ (Text.splitOn '.' head).length < parts.length := by
  obtain ⟨rest, hrest⟩ := hstart
  have hsplit := splitOn_join_names hparts hnames
  rw [← hrest, List.append_assoc, List.cons_append, Text.splitOn_append] at hsplit
  refine ⟨⟨_, hsplit⟩, ?_⟩
  rw [← hsplit, List.length_append]
  have := List.length_pos_iff.mpr (Text.splitOn_ne_nil '.' (last ++ rest))
  omega

/-! ### The parts for a file -/

/-- The parts of a module's name without the file that stands for its package. -/
def foldPackage (parts : List Text) : List Text :=
  if parts.getLast? = some packageFile then parts.dropLast else parts

/-- The parts of a module's name, from the directories above its file and the name of the file without
the ending. -/
def partsOf (above : List Text) (stem : Text) : List Text :=
  foldPackage (if stem = [] then above else above ++ [stem])

theorem foldPackage_isPrefix (parts : List Text) : foldPackage parts <+: parts := by
  rw [foldPackage]
  split
  · exact List.dropLast_prefix parts
  · exact List.prefix_refl parts

theorem partsOf_isPrefix (above : List Text) (stem : Text) : partsOf above stem <+: above ++ [stem] := by
  refine (foldPackage_isPrefix _).trans ?_
  split
  · exact List.prefix_append above [stem]
  · exact List.prefix_refl _

/-- Directories further up come before the parts, unless nothing is left but them. -/
theorem partsOf_append {further above : List Text} {stem : Text}
    (hlong : further.length < (partsOf (further ++ above) stem).length) :
    partsOf (further ++ above) stem = further ++ partsOf above stem := by
  have hfold : ∀ parts : List Text, further.length < (foldPackage (further ++ parts)).length →
      foldPackage (further ++ parts) = further ++ foldPackage parts := by
    intro parts hlong
    have hparts : parts ≠ [] := by
      rintro rfl
      have := (foldPackage_isPrefix (further ++ [])).length_le
      rw [List.append_nil] at this hlong
      omega
    rw [foldPackage, foldPackage, List.getLast?_append_of_ne_nil _ hparts]
    split
    · rw [List.dropLast_append_of_ne_nil hparts]
    · rfl
  have hparts : (if stem = [] then further ++ above else further ++ above ++ [stem]) =
      further ++ if stem = [] then above else above ++ [stem] := by
    split
    · rfl
    · rw [List.append_assoc]
  rw [partsOf, hparts] at hlong
  rw [partsOf, hparts, hfold _ hlong, partsOf]

/-- The name with given parts, if there are any and all of them are names. -/
def nameOfParts? (parts : List Text) : Option Text :=
  if parts.isEmpty || !parts.all isName then none else some (Text.join ['.'] parts)

theorem nameOfParts?_eq_some {parts : List Text} {name : Text} :
    nameOfParts? parts = some name ↔
      parts ≠ [] ∧ (∀ part ∈ parts, isName part = true) ∧ Text.join ['.'] parts = name := by
  rw [nameOfParts?, Option.ite_none_left_eq_some]
  simp [and_assoc]

/-- A name comes from parts, whatever the path is. -/
theorem exists_parts_of_nameOfPath? {path name : Text} (hname : nameOfPath? path = some name) :
    ∃ parts, nameOfParts? parts = some name := by
  simp only [nameOfPath?] at hname
  split at hname
  · cases hname
  · exact ⟨_, hname⟩

/-- The name for a file with a module's ending, below the directory that modules are looked up in. -/
theorem nameOfPath?_join {above : List Text} {stem : Text}
    (hnames : ∀ name ∈ above ++ [stem ++ fileEnding], IsEntryName name ∧ '\\' ∉ name) :
    nameOfPath? (Text.join ['/'] (above ++ [stem ++ fileEnding])) =
      nameOfParts? (partsOf above stem) := by
  have hentry := fun name hname => (hnames name hname).1
  have habove : ∀ name ∈ above, name ≠ [] := by
    intro name hname
    exact (hentry name (List.mem_append_left _ hname)).1
  have hslash : ∀ name ∈ above ++ [stem], '/' ∉ name := by
    intro name hname
    rcases List.mem_append.mp hname with hname | hname
    · exact (hentry name (List.mem_append_left _ hname)).2.2.2
    · obtain rfl := List.mem_singleton.mp hname
      have hfile := (hentry (name ++ fileEnding) (by simp)).2.2.2
      exact fun hmem => hfile (List.mem_append_left _ hmem)
  -- the path is not changed: it has no backslash, and no slash at its ends
  have hmap : (Text.join ['/'] (above ++ [stem ++ fileEnding])).map
      (fun c => if c = '\\' then '/' else c) = Text.join ['/'] (above ++ [stem ++ fileEnding]) := by
    refine (List.map_congr_left fun c hc => if_neg ?_).trans (List.map_id _)
    rintro rfl
    rcases Text.mem_join hc with hsep | ⟨name, hname, hmem⟩
    · simp at hsep
    · exact (hnames name hname).2 hmem
  have hsplit : Text.splitOn '/' (Text.join ['/'] (above ++ [stem])) = above ++ [stem] :=
    Text.splitOn_join (by simp) hslash
  have hjoin := Text.join_concat_append ['/'] above stem fileEnding
  have hlast : ∀ c ∈ (Text.join ['/'] (above ++ [stem ++ fileEnding])).getLast?,
      (c == '/') = false := by
    intro c hc
    rw [hjoin, List.getLast?_append] at hc
    obtain rfl : 'y' = c := by simpa [fileEnding] using hc
    rfl
  have hhead : ∀ c ∈ (Text.join ['/'] (above ++ [stem ++ fileEnding])).head?,
      (c == '/') = false := by
    intro c hc
    have hne := Path.head?_join hentry
    rw [Option.mem_def.mp hc, ne_eq, Option.some.injEq] at hne
    simpa using hne
  have hends : Text.endsWith (Text.join ['/'] (above ++ [stem ++ fileEnding])) fileEnding = true := by
    rw [Text.endsWith_iff, hjoin]
    exact List.suffix_append _ _
  have hfilter : (above ++ [stem]).filter (!·.isEmpty) = if stem = [] then above else above ++ [stem] := by
    have hkept : above.filter (!·.isEmpty) = above := by
      refine List.filter_eq_self.mpr fun name hname => ?_
      simpa using habove name hname
    rw [List.filter_append, hkept]
    by_cases hstem : stem = [] <;> simp [hstem]
  have htake : (Text.join ['/'] (above ++ [stem ++ fileEnding])).take
      ((Text.join ['/'] (above ++ [stem ++ fileEnding])).length - 3) =
      Text.join ['/'] (above ++ [stem]) := by
    rw [hjoin, List.length_append]
    exact List.take_left' rfl
  simp only [nameOfPath?, hmap, Text.trimBy_eq_self hhead hlast, hends, htake, hsplit, hfilter,
    Bool.not_true, Bool.false_eq_true, if_false]
  rfl

end Modules

end Caret
