import Caret.Proofs.Classes.Build
import Caret.Proofs.Classes.Index
import Caret.Proofs.Classes.Source
import Caret.Proofs.Imports.Site
import Caret.Proofs.Modules.Scan

/-!
# The import that comes with a class

A capitalised name is completed to a class of the index, and the candidate carries the import of that
class. The completed line goes on from the typed one and ends with the name of the class. Where that
name and its module are made of word characters, the import is read as a request that binds the name,
so that no script refuses it; a name of the language can hold other characters, such as combining
marks.
-/

namespace Caret

open Completion

namespace Modules

/-- Every module with a source has its name from a path. -/
theorem exists_path_of_mem_sources {disk : Files.Disk} {location module source : Text}
    (hmem : (module, source) ∈ (sources disk location).1) :
    ∃ path, nameOfPath? path = some module := by
  rcases mem_sources_iff.mp hmem with ⟨-, hlisted, -⟩ | ⟨-, -, hlisted, -⟩
  · exact exists_path_of_mem_inDirectory hlisted
  · exact exists_path_of_mem_inArchive ((List.takeWhile_prefix _).subset hlisted)

/-- A module's name is more than white space. -/
theorem trim_ne_nil_of_nameOfPath? {path module : Text} (hname : nameOfPath? path = some module) :
    Text.trim module ≠ [] := by
  obtain ⟨parts, hparts⟩ := exists_parts_of_nameOfPath? hname
  obtain ⟨hne, hnames, rfl⟩ := nameOfParts?_eq_some.mp hparts
  obtain ⟨part, hpart⟩ := List.exists_mem_of_ne_nil parts hne
  have hword : (Text.trim part).isEmpty = false := by
    have hname := hnames part hpart
    rw [Script.isName, Bool.and_eq_true] at hname
    cases htrim : Text.trim part with
    | nil =>
      rw [htrim] at hname
      cases hname.1
    | cons c cs => rfl
  obtain ⟨c, hc, hspace⟩ := Text.isEmpty_trim_eq_false.mp hword
  have hmodule := Text.isEmpty_trim_eq_false.mpr ⟨c, Text.mem_join_of_mem ['.'] hpart hc, hspace⟩
  simpa using hmodule

end Modules

namespace Classes

open Imports (Request insertStatement isPathText isWordText statementFor)

/-! ### The classes of an index -/

theorem mem_simplyStartingWith {names : List Text} {text qualified : Text}
    (hmem : qualified ∈ (Index.ofNames names).simplyStartingWith text) :
    qualified ∈ (Index.ofNames names).names.names ∧ text <+: simpleName qualified := by
  obtain ⟨hname, hstarts⟩ := (Index.mem_simplyStartingWith names).mp hmem
  exact ⟨Text.mem_sortedSet.mpr hname, hstarts⟩

/-- A class has a name behind the last dot and a module before it, which is more than white space. -/
theorem exists_package_of_mem_indexOf [CharacterNames] {disk : Files.Disk} {locations : List Text}
    {qualified : Text} (hmem : qualified ∈ (indexOf disk locations).names.names) :
    ∃ package simple, qualified = package ++ '.' :: simple ∧ '.' ∉ simple ∧ Text.trim package ≠ [] := by
  have hmem := Text.mem_sortedSet.mp hmem
  obtain ⟨location, -, hmem⟩ := List.mem_flatMap.mp hmem
  obtain ⟨⟨module, source⟩, hsource, hmem⟩ := List.mem_flatMap.mp hmem
  obtain ⟨name, -, rfl⟩ := List.mem_map.mp hmem
  obtain ⟨path, hpath⟩ := Modules.exists_path_of_mem_sources hsource
  have hmodule := Modules.trim_ne_nil_of_nameOfPath? hpath
  cases hsplit : Text.splitLast? '.' name with
  | none => exact ⟨module, name, rfl, Text.splitLast?_eq_none hsplit, hmodule⟩
  | some found =>
    obtain ⟨before, after⟩ := found
    obtain ⟨rfl, hafter⟩ := Text.splitLast?_eq_some hsplit
    refine ⟨module ++ '.' :: before, after, by simp, hafter, ?_⟩
    obtain ⟨c, hc, hspace⟩ := Text.isEmpty_trim_eq_false.mp (by simpa using hmodule)
    have hpackage := Text.isEmpty_trim_eq_false.mpr
      ⟨c, List.mem_append_left ('.' :: before) hc, hspace⟩
    simpa using hpackage

/-! ### The statement for a class -/

/-- The names of a class and of its module are made of word characters. -/
def IsWordy (qualified : Text) : Prop :=
  isPathText (Text.trim (packageName qualified)) = true ∧ isWordText (simpleName qualified) = true

instance : DecidablePred IsWordy :=
  fun _ => inferInstanceAs (Decidable (_ ∧ _))

theorem not_isSpace_of_isWordText {word : Text} (hword : isWordText word = true) :
    ∀ c ∈ word, Text.isSpace c = false := by
  intro c hc
  exact Text.isSpace_of_isWord (List.all_eq_true.mp hword c hc)

theorem not_isSpace_of_isPathText {word : Text} (hword : isPathText word = true) :
    ∀ c ∈ word, Text.isSpace c = false := by
  intro c hc
  exact Line.isSpace_of_isPathChar (List.all_eq_true.mp hword c hc)

/-- The statement imports the class from its module, white space in front of which is left out. -/
theorem statementFor_append {module name : Text} (hdot : '.' ∉ name) (hne : name ≠ [])
    (hname : ∀ c ∈ name, Text.isSpace c = false) :
    statementFor (module ++ '.' :: name) =
      "from ".toList ++ module.dropWhile Text.isSpace ++ " import ".toList ++ name := by
  have hstart : (module ++ '.' :: name).dropWhile Text.isSpace =
      module.dropWhile Text.isSpace ++ '.' :: name := by
    rw [List.dropWhile_append]
    split
    · rename_i hempty
      rw [List.isEmpty_iff.mp hempty, List.nil_append]
      exact List.dropWhile_cons_of_neg (by decide)
    · rfl
  have hlast : ∀ c ∈ (module.dropWhile Text.isSpace ++ '.' :: name).getLast?,
      Text.isSpace c = false := by
    intro c hc
    rw [List.append_cons, List.getLast?_append_of_ne_nil _ hne] at hc
    exact hname c (List.mem_of_getLast? hc)
  have htrim : Text.trim (module ++ '.' :: name) = module.dropWhile Text.isSpace ++ '.' :: name := by
    rw [Text.trim, Text.trimBy, hstart, Text.dropEndWhile_eq_self hlast]
  rw [statementFor, htrim, Text.splitLast?_append hdot]

theorem read?_statementFor {module name : Text} (hdot : '.' ∉ name) (hne : name ≠ [])
    (hmodule : Text.trim module ≠ []) (hpath : isPathText (Text.trim module) = true)
    (hword : isWordText name = true) :
    Request.read? (statementFor (module ++ '.' :: name)) =
      some (.ofMember (Text.trim module) name []) := by
  have hname := not_isSpace_of_isWordText hword
  have hwords : Text.words (statementFor (module ++ '.' :: name)) =
      ["from".toList, Text.trim module, "import".toList, name] := by
    have hspace : Text.isSpace ' ' = true := by decide
    have hfrom : Text.words "from".toList = ["from".toList] := by decide
    have himport : Text.words "import".toList = ["import".toList] := by decide
    have htext : statementFor (module ++ '.' :: name) = "from".toList ++ ' ' ::
        (module.dropWhile Text.isSpace ++ ' ' :: ("import".toList ++ ' ' :: name)) := by
      rw [statementFor_append hdot hne hname]
      simp
    rw [htext, Text.words_append hspace, Text.words_append hspace, Text.words_append hspace, hfrom,
      himport, Text.words_dropWhile, ← Text.words_trim module,
      Text.words_of_not_isSpace hmodule (not_isSpace_of_isPathText hpath),
      Text.words_of_not_isSpace hne hname]
    rfl
  rw [Request.read?, hwords]
  simp [hpath, hword]

/-! ### Candidates with an import -/

theorem importStatement_of_aligned {line seed : Text} {offer : Offer} {candidate : Candidate}
    (haligned : aligned line seed offer = some candidate) :
    candidate.importStatement = statementFor offer.qualified := by
  simp only [aligned] at haligned
  split at haligned
  · rw [← Option.some.inj haligned]
    rfl
  · cases haligned

/-- Only a capitalised name is completed with an import. -/
theorem simpleName_of_offer {discovery : Discovery} {indentation : Text} {place : Place}
    {offered : List Offer} {offer : Offer}
    (hoffered : offers discovery indentation place = .ok offered) (hoffer : offer ∈ offered)
    (hqualified : offer.qualified ≠ []) :
    ∃ head typed found, place = .simpleName head typed ∧
      discovery.simplyStartingWith typed = .ok found ∧ offer.qualified ∈ found ∧
      offer.line = head ++ simpleName offer.qualified := by
  cases place with
  | package path =>
    obtain ⟨names, -, rfl⟩ := map_eq_ok hoffered
    obtain ⟨name, -, rfl⟩ := List.mem_map.mp hoffer
    exact absurd rfl hqualified
  | importedName package head typed =>
    obtain ⟨names, -, rfl⟩ := map_eq_ok hoffered
    obtain ⟨name, -, rfl⟩ := List.mem_map.mp hoffer
    exact absurd rfl hqualified
  | simpleName head typed =>
    obtain ⟨names, hnames, rfl⟩ := map_eq_ok hoffered
    obtain ⟨name, hname, rfl⟩ := List.mem_map.mp hoffer
    exact ⟨head, typed, names, rfl, hnames, hname, rfl⟩

theorem simpleNamePlace?_of_place? {line head typed : Text}
    (hplace : place? line = some (.simpleName head typed)) :
    simpleNamePlace? line = some (.simpleName head typed) := by
  rcases place?_cases hplace with h | h | h
  · obtain ⟨_, heq⟩ := packagePlace?_eq_some h
    cases heq
  · obtain ⟨rest, -, hrest⟩ := Option.bind_eq_some_iff.mp h
    dsimp only at hrest
    split at hrest
    · cases hrest
    · obtain ⟨names, -, hnames⟩ := Option.bind_eq_some_iff.mp hrest
      obtain ⟨-, heq⟩ := Option.ite_none_right_eq_some.mp hnames
      cases heq
  · exact h

/-- A line that ends with its typed word, and in a capitalised name, has no line feed behind them. -/
theorem line_eq_of_simpleName {line head typed : Text}
    (hplace : place? line = some (.simpleName head typed))
    (hends : Text.endsWith line (Line.typedToken line) = true) : line = head ++ typed ∧ typed ≠ [] := by
  have hplace := simpleNamePlace?_of_place? hplace
  rw [simpleNamePlace?] at hplace
  obtain ⟨hfits, heq⟩ := Option.ite_none_right_eq_some.mp hplace
  obtain ⟨rfl, rfl⟩ := Place.simpleName.inj (Option.some.inj heq)
  generalize htyped : Text.takeEndWhile (fun c => !isDelimiter c) (Text.withoutFinalNewline line) =
    typed at hfits ⊢
  have hsuffix : typed <:+ Text.withoutFinalNewline line := htyped ▸ Text.takeEndWhile_suffix _ _
  simp only [Bool.and_eq_true, decide_eq_true_eq, List.all_eq_true] at hfits
  obtain ⟨⟨⟨⟨-, hlength⟩, hchars⟩, -⟩, -⟩ := hfits
  have hne : typed ≠ [] := by
    rintro rfl
    simp at hlength
  rw [Text.take_append_of_suffix hsuffix]
  refine ⟨?_, hne⟩
  rw [Text.withoutFinalNewline]
  split
  · rename_i hfeed
    -- the typed word would end in the line feed, which is no word character
    exfalso
    obtain ⟨start, c, rfl⟩ := (List.eq_nil_or_concat' typed).resolve_left hne
    have hc : Text.isWord c = true := Text.isWord_of_isNameChar (hchars c (by simp))
    have hlast : [c] <:+ Line.typedToken line :=
      Text.suffix_takeEndWhile ((List.suffix_append start [c]).trans hsuffix) (by simp [hc])
    obtain ⟨before, hbefore⟩ := hlast.trans (Text.endsWith_iff.mp hends)
    obtain ⟨before', hbefore'⟩ := Text.endsWith_iff.mp hfeed
    have hfeed : c = '\n' := by
      rw [← hbefore'] at hbefore
      simpa using congrArg List.getLast? hbefore
    rw [hfeed] at hc
    exact absurd hc (by decide)
  · rfl

/-- The import that a class candidate carries is that of a class of the index. The completed line goes
on from the typed one and ends with the name of the class; if the names are made of word characters,
that is the name which the import binds, and no script refuses the import. -/
theorem candidate_import_binds [CharacterNames] (disk : Files.Disk) (locations : List Text) (line : Text)
    {found : List Candidate} {candidate : Candidate}
    (hfound : candidates (some (.ofBuild (.done (indexOf disk locations)))) line
      (Line.typedToken line) = .ok found)
    (hcandidate : candidate ∈ found) (himport : candidate.importStatement ≠ []) :
    ∃ completed, LeadsTo line (Line.typedToken line) candidate completed ∧ line <+: completed ∧
      ∃ qualified ∈ (indexOf disk locations).names.names,
        candidate.importStatement = statementFor qualified ∧ simpleName qualified <:+ completed ∧
        (IsWordy qualified →
          (∃ request, Request.read? candidate.importStatement = some request ∧
            request.bind = simpleName qualified) ∧
          ∀ source, (insertStatement source candidate.importStatement).status ≠ .error) := by
  obtain ⟨discovery, place, offered, offer, hdiscovery, hends, hplace, hoffered, hoffer, haligned⟩ :=
    exists_offer_of_mem_candidates hfound hcandidate
  obtain rfl := Option.some.inj hdiscovery
  have hstatement := importStatement_of_aligned haligned
  have hqualified : offer.qualified ≠ [] := by
    intro hnil
    rw [hstatement, hnil] at himport
    exact himport rfl
  obtain ⟨head, typed, names, rfl, hnames, hmem, hline⟩ :=
    simpleName_of_offer hoffered hoffer hqualified
  obtain ⟨rfl, htyped⟩ := line_eq_of_simpleName hplace hends
  obtain rfl := Except.ok.inj hnames
  obtain ⟨hindexed, hstarts⟩ := mem_simplyStartingWith hmem
  refine ⟨offer.line, leadsTo_of_aligned haligned, ?_, offer.qualified, hindexed, hstatement, ?_, ?_⟩
  · rw [hline]
    exact (List.prefix_append_right_inj head).mpr hstarts
  · rw [hline]
    exact List.suffix_append _ _
  · rintro ⟨hpath, hword⟩
    obtain ⟨package, simple, heq, hdot, hpackage⟩ := exists_package_of_mem_indexOf hindexed
    have hsplit : Text.splitLast? '.' (package ++ '.' :: simple) = some (package, simple) :=
      Text.splitLast?_append hdot
    rw [heq, packageName, Text.beforeLast, hsplit] at hpath
    rw [heq, simpleName, Text.afterLast, hsplit] at hword hstarts ⊢
    have hne : simple ≠ [] := by
      rintro rfl
      exact htyped (List.prefix_nil.mp hstarts)
    have hread := read?_statementFor hdot hne hpackage hpath hword
    rw [hstatement, heq]
    refine ⟨⟨_, hread, rfl⟩, fun source => ?_⟩
    rw [insertStatement, hread]
    rcases Imports.insert_cases source (Imports.spaceless_of_read? hread) with
      ⟨-, hinsert⟩ | ⟨-, text, hinsert, -⟩
    · simp [hinsert]
    · simp [hinsert]

/-- A library of one module with one class. -/
def classDisk : Files.Disk where
  tree := .directory [("lib".toList, .directory [("m.py".toList,
    .file (.bytes (bytesOf "class Foo: pass\n")))])]
  cwd := "/".toList
  home := "/home".toList
  library := []

section

open scoped CharacterNames

/-- The import of the class is read, binds its name, and is refused by no script. -/
theorem candidate_import_binds_class :
    ∃ candidate, candidates (some (.ofBuild (.done (indexOf classDisk ["/lib".toList])))) "x = Fo".toList
        (Line.typedToken "x = Fo".toList) = .ok [candidate] ∧
      candidate.importStatement = "from m import Foo".toList ∧
      (∃ completed, LeadsTo "x = Fo".toList (Line.typedToken "x = Fo".toList) candidate completed ∧
        "x = Fo".toList <+: completed ∧ "Foo".toList <:+ completed) ∧
      (∃ request, Request.read? candidate.importStatement = some request ∧
        request.bind = "Foo".toList) ∧
      ∀ source, (insertStatement source candidate.importStatement).status ≠ .error := by
  have hfound : candidates (some (.ofBuild (.done (indexOf classDisk ["/lib".toList]))))
      "x = Fo".toList (Line.typedToken "x = Fo".toList) =
        .ok [.shownAs "Foo".toList "Foo".toList "from m import Foo".toList true "m.Foo".toList] := by
    decide +kernel
  have hnames : (indexOf classDisk ["/lib".toList]).names.names = ["m.Foo".toList] := by decide +kernel
  obtain ⟨completed, hleads, hprefix, qualified, hqualified, -, hsuffix, hwordy⟩ :=
    candidate_import_binds classDisk ["/lib".toList] "x = Fo".toList hfound List.mem_cons_self (by decide)
  rw [hnames, List.mem_singleton] at hqualified
  subst hqualified
  obtain ⟨hrequest, hrefused⟩ := hwordy (by decide)
  exact ⟨_, hfound, rfl, ⟨completed, hleads, hprefix, hsuffix⟩, hrequest, hrefused⟩

end

end Classes

end Caret
