import Caret.Proofs.Classes.Index
import Caret.Proofs.Classes.Source

/-!
# Completing an imported name

On a line that imports names from a package the last name is completed. The line is told by its parts:
what the index is asked for depends on whether anything of the last name is typed, but either way the
answer is the classes of the package that start with it. Each of them gives a candidate, because its
completed line goes on from the typed one; what stands before the last name stays as it is typed.
-/

namespace Caret.Classes

open Completion
open Text (Listing)

/-! ### A line that imports names -/

/-- Blanks, `from`, blanks, a package, blanks, `import`, blanks and a list of names. The list is not
looked into. -/
structure IsImportLine (lead gap package space after names line : Text) : Prop where
  isBlank_lead : ∀ c ∈ lead, Text.isBlank c = true
  isBlank_gap : ∀ c ∈ gap, Text.isBlank c = true
  gap_ne_nil : gap ≠ []
  isPathChar_package : ∀ c ∈ package, Line.isPathChar c = true
  package_ne_nil : package ≠ []
  isBlank_space : ∀ c ∈ space, Text.isBlank c = true
  space_ne_nil : space ≠ []
  isBlank_after : ∀ c ∈ after, Text.isBlank c = true
  after_ne_nil : after ≠ []
  isNameChar_names : ∀ c ∈ names, Line.isPathChar c = true ∨ c = ',' ∨ Text.isBlank c = true
  line_eq : line =
    lead ++ ("from".toList ++ (gap ++ (package ++ (space ++ ("import".toList ++ (after ++ names))))))

/-- A list of names whose last one is being typed: earlier names up to a comma, blanks, and the last
name as far as it is typed, with no blanks behind it. -/
structure IsLastName (names earlier blanks typed : Text) : Prop where
  names_eq : names = earlier ++ (blanks ++ typed)
  earlier_end : ∀ c ∈ earlier.getLast?, c = ','
  isBlank_blanks : ∀ c ∈ blanks, Text.isBlank c = true
  comma_not_mem : ',' ∉ typed
  typed_head : ∀ c ∈ typed.head?, Text.isBlank c = false
  typed_end : ∀ c ∈ typed.getLast?, Text.isBlank c = false

/-! ### The last name -/

section

variable {names earlier blanks typed : Text} (hlast : IsLastName names earlier blanks typed)

include hlast

/-- Without the blanks in front of them, the names still end in the last one. -/
theorem IsLastName.dropWhile_names :
    ∃ front more, names.dropWhile Text.isBlank = front ++ (more ++ typed) ∧
      (∀ c ∈ front.getLast?, c = ',') ∧ ∀ c ∈ more, Text.isBlank c = true := by
  rw [hlast.names_eq]
  by_cases hempty : earlier = []
  · refine ⟨[], [], ?_, by simp, by simp⟩
    rw [hempty]
    exact Text.dropWhile_run hlast.isBlank_blanks hlast.typed_head
  · obtain ⟨front, c, rfl⟩ := (List.eq_nil_or_concat' earlier).resolve_left hempty
    obtain rfl : c = ',' := hlast.earlier_end c (by simp)
    refine ⟨(front ++ [',']).dropWhile Text.isBlank, blanks, ?_, ?_, hlast.isBlank_blanks⟩
    · rw [List.dropWhile_append, if_neg]
      rw [List.isEmpty_iff, List.dropWhile_eq_nil_iff]
      intro hall
      exact absurd (hall ',' (by simp)) (by decide)
    · intro c hc
      obtain ⟨start, hstart⟩ := List.dropWhile_suffix (l := front ++ [',']) Text.isBlank
      have hend := congrArg List.getLast? hstart
      rw [List.getLast?_append, Option.mem_def.mp hc, List.getLast?_concat] at hend
      exact Option.some.inj hend

theorem IsLastName.takeEndWhile :
    ∃ more, Text.takeEndWhile (· ≠ ',') (names.dropWhile Text.isBlank) = more ++ typed ∧
      ∀ c ∈ more, Text.isBlank c = true := by
  obtain ⟨front, more, hnames, hfront, hmore⟩ := hlast.dropWhile_names
  refine ⟨more, ?_, hmore⟩
  rw [hnames]
  apply Text.takeEndWhile_run
  · intro c hc
    simp [hfront c hc]
  · intro c hc
    rw [decide_eq_true_iff]
    rintro rfl
    rcases List.mem_append.mp hc with hmem | hmem
    · exact absurd (hmore ',' hmem) (by decide)
    · exact hlast.comma_not_mem hmem

variable (hchars : ∀ c ∈ names, Line.isPathChar c = true ∨ c = ',' ∨ Text.isBlank c = true)

include hchars

theorem IsLastName.not_isSpace {c : Char} (hmem : c ∈ typed) (hblank : Text.isBlank c = false) :
    Text.isSpace c = false := by
  have hnames : c ∈ names := by
    rw [hlast.names_eq]
    exact List.mem_append_right _ (List.mem_append_right _ hmem)
  rcases hchars c hnames with hpath | rfl | hc
  · exact Line.isSpace_of_isPathChar hpath
  · exact absurd hmem hlast.comma_not_mem
  · rw [hc] at hblank
    cases hblank

theorem IsLastName.dropWhile_isSpace {more : Text} (hmore : ∀ c ∈ more, Text.isBlank c = true) :
    (more ++ typed).dropWhile Text.isSpace = typed := by
  refine Text.dropWhile_run (fun c hc => Text.isSpace_of_isBlank (hmore c hc)) fun c hc => ?_
  exact hlast.not_isSpace hchars (List.mem_of_mem_head? hc) (hlast.typed_head c hc)

theorem IsLastName.trim {more : Text} (hmore : ∀ c ∈ more, Text.isBlank c = true) :
    Text.trim (more ++ typed) = typed := by
  rw [Text.trim, Text.trimBy, hlast.dropWhile_isSpace hchars hmore]
  refine Text.dropEndWhile_eq_self fun c hc => ?_
  exact hlast.not_isSpace hchars (List.mem_of_getLast? hc) (hlast.typed_end c hc)

end

/-! ### The place of such a line -/

section

variable {lead gap package space after names line : Text}
  (hline : IsImportLine lead gap package space after names line)

include hline

theorem IsImportLine.newline_not_mem : '\n' ∉ line := by
  have hblank : ∀ {text : Text}, (∀ c ∈ text, Text.isBlank c = true) → '\n' ∉ text :=
    fun htext hmem => absurd (htext _ hmem) (by decide)
  have hnames : '\n' ∉ names := by
    intro hmem
    rcases hline.isNameChar_names _ hmem with h | h | h
    · exact absurd h (by decide)
    · exact absurd h (by decide)
    · exact absurd h (by decide)
  have hpackage : '\n' ∉ package :=
    fun hmem => absurd (hline.isPathChar_package _ hmem) (by decide)
  rw [hline.line_eq]
  simp only [List.mem_append, not_or]
  exact ⟨hblank hline.isBlank_lead, by decide, hblank hline.isBlank_gap, hpackage,
    hblank hline.isBlank_space, by decide, hblank hline.isBlank_after, hnames⟩

/-- Behind `from` stands the package. -/
theorem IsImportLine.keyword?_from :
    Line.keyword? "from" (line.dropWhile Text.isBlank) =
      some (package ++ (space ++ ("import".toList ++ (after ++ names)))) := by
  rw [Line.keyword?_eq_some_iff]
  refine ⟨gap, hline.gap_ne_nil, hline.isBlank_gap, ?_, ?_⟩
  · intro c hc
    rw [List.head?_append_of_ne_nil _ hline.package_ne_nil] at hc
    exact Line.isBlank_of_isPathChar (hline.isPathChar_package c (List.mem_of_mem_head? hc))
  · rw [hline.line_eq]
    apply Text.dropWhile_run hline.isBlank_lead
    rintro c ⟨⟩
    decide

/-- Behind `import` stand the names, without the blanks in front of them. -/
theorem IsImportLine.keyword?_import :
    Line.keyword? "import" ("import".toList ++ (after ++ names)) =
      some (names.dropWhile Text.isBlank) := by
  rw [Line.keyword?_eq_some_iff]
  refine ⟨after ++ names.takeWhile Text.isBlank, ?_, ?_, Text.head?_dropWhile, ?_⟩
  · simp [hline.after_ne_nil]
  · intro c hc
    rcases List.mem_append.mp hc with hc | hc
    · exact hline.isBlank_after c hc
    · exact List.all_eq_true.mp List.all_takeWhile c hc
  · rw [List.append_assoc, List.takeWhile_append_dropWhile]

theorem IsImportLine.head?_space {text : Text} :
    ∀ c ∈ (space ++ text).head?, Text.isBlank c = true := by
  intro c hc
  rw [List.head?_append_of_ne_nil _ hline.space_ne_nil] at hc
  exact hline.isBlank_space c (List.mem_of_mem_head? hc)

/-- The line does not end with the package. -/
theorem IsImportLine.packagePlace?_eq_none : packagePlace? line = none := by
  rw [packagePlace?, Text.withoutFinalNewline_of_not_mem hline.newline_not_mem, hline.keyword?_from,
    Option.bind_some, Option.bind_eq_none_iff]
  rintro ⟨path, behind⟩ hpath
  obtain ⟨hpath, -, htext⟩ := Line.path?_eq_some_iff.mp hpath
  apply if_neg
  intro hempty
  rw [List.isEmpty_iff.mp hempty, List.append_nil] at htext
  obtain ⟨c, rest, hspace⟩ := List.exists_cons_of_ne_nil hline.space_ne_nil
  have hmem : c ∈ path := by
    rw [← htext, hspace]
    simp
  have hblank := hline.isBlank_space c (by simp [hspace])
  rw [Line.isBlank_of_isPathChar (hpath.isPathChar c hmem)] at hblank
  cases hblank

/-- The line asks for the names of its package, and is divided before the last name. -/
theorem IsImportLine.place?_eq {earlier blanks typed : Text}
    (hlast : IsLastName names earlier blanks typed) :
    ∃ head, line = head ++ typed ∧ place? line = some (.importedName package head typed) := by
  have hbehind : ∀ c ∈ (space ++ ("import".toList ++ (after ++ names))).head?,
      Line.isPathChar c = false := fun c hc => Line.isPathChar_of_isBlank (hline.head?_space c hc)
  have hword : ∀ c ∈ ("import".toList ++ (after ++ names)).head?, Text.isBlank c = false := by
    rintro c ⟨⟩
    decide
  have hany : ((space ++ ("import".toList ++ (after ++ names))).head?).any Text.isBlank = true := by
    rw [Text.any_head?_iff, Text.takeWhile_run hline.isBlank_space hword]
    exact hline.space_ne_nil
  have hnames : (names.dropWhile Text.isBlank).all
      (fun c => Line.isPathChar c || c == ',' || Text.isBlank c) = true := by
    rw [List.all_eq_true]
    intro c hc
    have hc := hline.isNameChar_names c ((List.dropWhile_suffix _).subset hc)
    simpa [or_assoc] using hc
  obtain ⟨more, htake, hmore⟩ := hlast.takeEndWhile
  have hsuffix : typed <:+ line := by
    rw [hline.line_eq, hlast.names_eq]
    simp only [← List.append_assoc]
    exact List.suffix_append _ _
  refine ⟨line.take (line.length - typed.length), (Text.take_append_of_suffix hsuffix).symm, ?_⟩
  rw [place?, hline.packagePlace?_eq_none, Option.none_or, importedNamePlace?,
    Text.withoutFinalNewline_of_not_mem hline.newline_not_mem, hline.keyword?_from]
  simp only [Option.bind_some, Text.takeWhile_run hline.isPathChar_package hbehind,
    Text.dropWhile_run hline.isPathChar_package hbehind, hany,
    Text.dropWhile_run hline.isBlank_space hword, hline.keyword?_import, hnames, htake,
    hlast.dropWhile_isSpace hline.isNameChar_names hmore, hlast.trim hline.isNameChar_names hmore]
  simp [hline.package_ne_nil]

end

/-! ### What is offered there -/

/-- A package that ends in no dot is asked for as it stands. -/
theorem packageAsked_eq_self {package : Text} (hchars : ∀ c ∈ package, Line.isPathChar c = true)
    (hdot : ∀ c ∈ package.getLast?, c ≠ '.') : packageAsked package = package := by
  rw [packageAsked, Text.trim_of_not_isSpace fun c hc => Line.isSpace_of_isPathChar (hchars c hc)]
  exact Text.dropEndWhile_eq_self fun c hc => beq_eq_false_iff_ne.mpr (hdot c hc)

/-- Whether or not something of the name is typed, the classes of the package that start with it are
offered, in code point order. -/
theorem offers_importedName (indexed : List Text) (indentation head typed : Text) {package : Text}
    (hchars : ∀ c ∈ package, Line.isPathChar c = true) (hne : package ≠ [])
    (hdot : ∀ c ∈ package.getLast?, c ≠ '.') :
    ∃ classes, Listing
        (fun name => name ∈ indexed ∧ IsWithin package name ∧ typed <+: simpleName name) classes ∧
      offers (.ofBuild (.done (.ofNames indexed))) indentation (.importedName package head typed) =
        .ok (classes.map fun name => ⟨head ++ simpleName name, simpleName name, []⟩) := by
  by_cases hempty : typed = []
  · subst hempty
    refine ⟨(Index.ofNames indexed).ofPackage package, ?_, rfl⟩
    refine (Index.listing_ofPackage indexed package).congr fun name => ?_
    rw [packageAsked_eq_self hchars hdot, and_iff_right hne, and_iff_left List.nil_prefix]
  · refine ⟨_, Index.listing_startingWith_filter indexed package typed, ?_⟩
    rw [offers, if_neg (by rwa [List.isEmpty_iff])]
    rfl

theorem candidates_of_place? {discovery : Discovery} {line seed : Text} {place : Place}
    (hready : discovery.isReady = .ok true) (hends : Text.endsWith line seed = true)
    (hplace : place? line = some place) :
    candidates (some discovery) line seed =
      (offers discovery (Text.indentation line) place).map (·.filterMap (aligned line seed)) := by
  simp only [candidates, hready, hends, hplace, Bool.not_true, Bool.false_eq_true, if_false]

/-- No offer is dropped where each goes on from what stands before the seed, and the candidates then
lead to the offered lines. -/
theorem completed_filterMap_aligned {line seed : Text} {offered : List Offer}
    (hkept : ∀ offer ∈ offered, line.take (line.length - seed.length) <+: offer.line) :
    (offered.filterMap (aligned line seed)).map
        (fun candidate => line.take (line.length - seed.length) ++ candidate.replacement) =
      offered.map (·.line) := by
  induction offered with
  | nil => rfl
  | cons offer offered ih =>
    obtain ⟨hfirst, hrest⟩ := List.forall_mem_cons.mp hkept
    cases haligned : aligned line seed offer with
    | none => simp [aligned, Text.startsWith_iff.mpr hfirst] at haligned
    | some candidate =>
      rw [List.filterMap_cons_some haligned, List.map_cons, List.map_cons, ih hrest,
        (leadsTo_of_aligned haligned).completed_eq]

/-- The last name of an import is completed to each class of the package that starts with what is typed
of it, in the order of the index, and the line up to that name stays as it is typed. -/
theorem candidates_importedName (indexed : List Text)
    {lead gap package space after names earlier blanks typed line : Text}
    (hline : IsImportLine lead gap package space after names line)
    (hdot : ∀ c ∈ package.getLast?, c ≠ '.') (hlast : IsLastName names earlier blanks typed) :
    ∃ head classes found, line = head ++ typed ∧
      Listing (fun name => name ∈ indexed ∧ IsWithin package name ∧ typed <+: simpleName name) classes ∧
      candidates (some (.ofBuild (.done (.ofNames indexed)))) line (Line.typedToken line) = .ok found ∧
      found.map (fun candidate =>
          line.take (line.length - (Line.typedToken line).length) ++ candidate.replacement) =
        classes.map fun name => head ++ simpleName name := by
  obtain ⟨head, hhead, hplace⟩ := hline.place?_eq hlast
  obtain ⟨classes, hclasses, hoffers⟩ := offers_importedName indexed (Text.indentation line) head typed
    hline.isPathChar_package hline.package_ne_nil hdot
  have hends : Text.endsWith line (Line.typedToken line) = true :=
    Text.endsWith_iff.mpr (Line.typedToken_suffix hline.newline_not_mem)
  have hcandidates : candidates (some (.ofBuild (.done (.ofNames indexed)))) line
      (Line.typedToken line) = _ := candidates_of_place? rfl hends hplace
  rw [hoffers] at hcandidates
  refine ⟨head, classes, _, hhead, hclasses, hcandidates, ?_⟩
  rw [completed_filterMap_aligned, List.map_map]
  · rfl
  · intro offer hoffer
    obtain ⟨name, hname, rfl⟩ := List.mem_map.mp hoffer
    obtain ⟨-, -, htyped⟩ := (hclasses.mem_iff name).mp hname
    calc line.take (line.length - (Line.typedToken line).length)
        <+: line := List.take_prefix _ _
      _ = head ++ typed := hhead
      _ <+: head ++ simpleName name := (List.prefix_append_right_inj head).mpr htyped

/-- Classes of a package, of a package inside it, and of none, in code point order. -/
def shapeNames : List Text :=
  ["Shade".toList, "geo.Line".toList, "geo.Shadow".toList, "geo.Shape".toList, "geo.flat.ShapeList".toList]

/-- Behind an earlier name with blanks around it, two classes complete what is typed. -/
theorem candidates_importedName_second :
    let line := "\tfrom  geo import Line ,\t Sha".toList
    IsImportLine ['\t'] "  ".toList "geo".toList [' '] [' '] "Line ,\t Sha".toList line ∧
      IsLastName "Line ,\t Sha".toList "Line ,".toList "\t ".toList "Sha".toList ∧
      candidates (some (.ofBuild (.done (.ofNames shapeNames)))) line (Line.typedToken line) =
        .ok [.shownAs "Shadow".toList "Shadow".toList [] true [],
          .shownAs "Shape".toList "Shape".toList [] true []] ∧
      ∃ head classes found, line = head ++ "Sha".toList ∧
        Listing (fun name => name ∈ shapeNames ∧ IsWithin "geo".toList name ∧
          "Sha".toList <+: simpleName name) classes ∧
        candidates (some (.ofBuild (.done (.ofNames shapeNames)))) line (Line.typedToken line) =
          .ok found ∧
        found.map (fun candidate =>
            line.take (line.length - (Line.typedToken line).length) ++ candidate.replacement) =
          classes.map fun name => head ++ simpleName name := by
  have hline : IsImportLine ['\t'] "  ".toList "geo".toList [' '] [' '] "Line ,\t Sha".toList
      "\tfrom  geo import Line ,\t Sha".toList :=
    { isBlank_lead := Text.forall_mem_of_all (by decide)
      isBlank_gap := Text.forall_mem_of_all (by decide)
      gap_ne_nil := by decide
      isPathChar_package := Text.forall_mem_of_all (by decide)
      package_ne_nil := by decide
      isBlank_space := Text.forall_mem_of_all (by decide)
      space_ne_nil := by decide
      isBlank_after := Text.forall_mem_of_all (by decide)
      after_ne_nil := by decide
      isNameChar_names := Text.forall_mem_of_all (by decide)
      line_eq := by decide }
  have hlast : IsLastName "Line ,\t Sha".toList "Line ,".toList "\t ".toList "Sha".toList :=
    { names_eq := by decide
      earlier_end := by
        rintro c ⟨⟩
        rfl
      isBlank_blanks := Text.forall_mem_of_all (by decide)
      comma_not_mem := by decide
      typed_head := by
        rintro c ⟨⟩
        decide
      typed_end := by
        rintro c ⟨⟩
        decide }
  have hsorted : Text.sortedSet shapeNames = shapeNames := by
    rw [Text.sortedSet, List.mergeSort_of_pairwise (by decide)]
    decide
  have hindex : Index.ofNames shapeNames = ⟨⟨shapeNames⟩, shapeNames.foldl Index.group []⟩ := by
    rw [Index.ofNames, Modules.Index.ofNames, hsorted]
  have hdot : ∀ c ∈ "geo".toList.getLast?, c ≠ '.' := by
    rintro c ⟨⟩
    decide
  refine ⟨hline, hlast, ?_, candidates_importedName shapeNames hline hdot hlast⟩
  rw [hindex]
  decide +kernel

end Caret.Classes
