import Caret.Classes.Index
import Caret.Proofs.Modules.Index
import Caret.Proofs.Text.Entries

/-!
# Looking up classes

The index groups the names of classes by their last part once and for all, and finds those of a package
among the names that start with it. Either way it answers as a scan of all names would. The groups are a
partition of the names: each name is in the group of its last part, in the order of the names, and in no
other. This is what grouping one more name keeps.
-/

namespace Caret.Classes

open Text (CodePointLT Listing)

variable {name part package : Text}

/-! ### The parts of a name -/

/-- What stands behind the last dot of a name: all of it if there is none. -/
def LastPart (name part : Text) : Prop :=
  '.' ∉ part ∧ (name = part ∨ ∃ package, name = package ++ '.' :: part)

/-- The package that is asked for: white space around it is left out, and then the dots behind it. -/
def packageAsked (query : Text) : Text :=
  Text.dropEndWhile (· == '.') (Text.trim query)

/-- A name that is a package, a dot and one part more. -/
def IsWithin (package name : Text) : Prop :=
  ∃ part, '.' ∉ part ∧ name = package ++ '.' :: part

theorem simpleName_eq_iff : simpleName name = part ↔ LastPart name part := by
  rw [simpleName]
  constructor
  · rintro rfl
    refine ⟨Text.not_mem_afterLast '.' name, ?_⟩
    rw [Text.afterLast]
    cases hsplit : Text.splitLast? '.' name with
    | none => exact .inl rfl
    | some found => exact .inr ⟨found.1, (Text.splitLast?_eq_some hsplit).1⟩
  · rintro ⟨hfree, rfl | ⟨package, rfl⟩⟩
    · rw [Text.afterLast, Text.splitLast?_of_not_mem hfree]
    · rw [Text.afterLast, Text.splitLast?_append hfree]

theorem lastPart_simpleName (name : Text) : LastPart name (simpleName name) :=
  simpleName_eq_iff.mp rfl

theorem simpleName_append (hfree : '.' ∉ part) : simpleName (package ++ '.' :: part) = part :=
  simpleName_eq_iff.mpr ⟨hfree, .inr ⟨package, rfl⟩⟩

theorem packageName_append (hfree : '.' ∉ part) : packageName (package ++ '.' :: part) = package := by
  rw [packageName, Text.beforeLast, Text.splitLast?_append hfree]

/-- The last part begins right behind the package, if the part before the last dot is the package. -/
theorem packageName_eq_iff {typed : Text} :
    (package ++ '.' :: typed <+: name ∧ packageName name = package) ↔
      IsWithin package name ∧ typed <+: simpleName name := by
  constructor
  · rintro ⟨⟨rest, hrest⟩, hpackage⟩
    rw [packageName, Text.beforeLast] at hpackage
    cases hsplit : Text.splitLast? '.' name with
    | none =>
      refine absurd ?_ (Text.splitLast?_eq_none hsplit)
      rw [← hrest]
      simp
    | some found =>
      obtain ⟨before, after⟩ := found
      rw [hsplit] at hpackage
      obtain rfl : before = package := hpackage
      obtain ⟨rfl, hafter⟩ := Text.splitLast?_eq_some hsplit
      refine ⟨⟨after, hafter, rfl⟩, ?_⟩
      rw [simpleName_append hafter]
      exact ⟨rest, by simpa using hrest⟩
  · rintro ⟨⟨part, hfree, rfl⟩, htyped⟩
    rw [simpleName_append hfree] at htyped
    refine ⟨?_, packageName_append hfree⟩
    exact (List.prefix_append_right_inj package).mpr (List.cons_prefix_cons.mpr ⟨rfl, htyped⟩)

/-! ### Groups -/

/-- The groups are those of some names by their last parts. -/
structure Partitions (names : List Text) (groups : Entries (List Text)) : Prop where
  isDistinct : groups.IsDistinct
  get?_eq : ∀ simple, (Entries.get? groups simple).getD [] = names.filter (simpleName · = simple)

theorem partitions_nil : Partitions [] [] :=
  ⟨List.nodup_nil, fun _ => rfl⟩

namespace Partitions

variable {names : List Text} {groups : Entries (List Text)}

theorem group (hgroups : Partitions names groups) (qualified : Text) :
    Partitions (names ++ [qualified]) (Index.group groups qualified) where
  isDistinct := hgroups.isDistinct.insert _ _
  get?_eq simple := by
    rw [Index.group, Entries.get?_insert, List.filter_append, ← hgroups.get?_eq]
    by_cases hsimple : simple = simpleName qualified
    · subst hsimple
      simp
    · simp [hsimple, Ne.symm hsimple]

theorem foldl_group (hgroups : Partitions names groups) (more : List Text) :
    Partitions (names ++ more) (more.foldl Index.group groups) := by
  induction more generalizing names groups with
  | nil => rwa [List.append_nil]
  | cons qualified more ih =>
    rw [List.append_cons]
    exact ih (hgroups.group qualified)

theorem eq_filter_of_mem (hgroups : Partitions names groups) {simple : Text} {found : List Text}
    (hfound : (simple, found) ∈ groups) : found = names.filter (simpleName · = simple) := by
  rw [← hgroups.get?_eq, hgroups.isDistinct.get?_eq_some.mpr hfound, Option.getD_some]

theorem exists_group (hgroups : Partitions names groups) (hname : name ∈ names) :
    ∃ found, (simpleName name, found) ∈ groups ∧ name ∈ found := by
  have hmem : name ∈ (Entries.get? groups (simpleName name)).getD [] := by
    rw [hgroups.get?_eq]
    exact List.mem_filter.mpr ⟨hname, by simp⟩
  cases hget : Entries.get? groups (simpleName name) with
  | none => simp [hget] at hmem
  | some found => exact ⟨found, Entries.mem_of_get? hget, by simpa [hget] using hmem⟩

end Partitions

/-! ### The order of last parts -/

/-- The order of the last parts, and that of the names where these are the same. -/
def SimplyBefore (a b : Text) : Prop :=
  ∃ s t, LastPart a s ∧ LastPart b t ∧ (CodePointLT s t ∨ s = t ∧ CodePointLT a b)

theorem simplyBefore_irrefl (name : Text) : ¬ SimplyBefore name name := by
  rintro ⟨s, t, hs, ht, hlt⟩
  obtain rfl := (simpleName_eq_iff.mpr hs).symm.trans (simpleName_eq_iff.mpr ht)
  rcases hlt with hlt | ⟨-, hlt⟩
  · exact Text.codePointLT_irrefl s hlt
  · exact Text.codePointLT_irrefl name hlt

namespace Index

variable (names : List Text)

theorem partitions_ofNames :
    Partitions (Modules.Index.ofNames names).names (ofNames names).bySimpleName :=
  partitions_nil.foldl_group _

/-- The groups whose last parts start with a text, in the order of these. -/
def groupsStartingWith (index : Index) (text : Text) : Entries (List Text) :=
  Entries.inOrder (index.bySimpleName.filter fun entry => Text.startsWith entry.1 text)

theorem simplyStartingWith_eq (index : Index) (text : Text) :
    index.simplyStartingWith text = (index.groupsStartingWith text).flatMap (·.2) := rfl

theorem mem_groupsStartingWith {index : Index} {text : Text} {entry : Text × List Text} :
    entry ∈ index.groupsStartingWith text ↔ entry ∈ index.bySimpleName ∧ text <+: entry.1 := by
  rw [groupsStartingWith, (Entries.inOrder_perm _).mem_iff, List.mem_filter, Text.startsWith_iff]

theorem mem_simplyStartingWith {text : Text} :
    name ∈ (ofNames names).simplyStartingWith text ↔ name ∈ names ∧ text <+: simpleName name := by
  have hgroups := partitions_ofNames names
  have hnames := (Modules.Index.names_ofNames names).mem_iff name
  simp only [simplyStartingWith_eq, List.mem_flatMap, mem_groupsStartingWith]
  constructor
  · rintro ⟨⟨simple, found⟩, ⟨hfound, hstarts⟩, hmem⟩
    rw [hgroups.eq_filter_of_mem hfound] at hmem
    obtain ⟨hmem, hsimple⟩ := List.mem_filter.mp hmem
    rw [of_decide_eq_true hsimple]
    exact ⟨hnames.mp hmem, hstarts⟩
  · rintro ⟨hmem, hstarts⟩
    obtain ⟨found, hfound, hname⟩ := hgroups.exists_group (hnames.mpr hmem)
    exact ⟨(simpleName name, found), ⟨hfound, hstarts⟩, hname⟩

theorem simplyStartingWith_pairwise (text : Text) :
    ((ofNames names).simplyStartingWith text).Pairwise SimplyBefore := by
  have hgroups := partitions_ofNames names
  have hgroup : ∀ entry ∈ (ofNames names).groupsStartingWith text,
      entry.2 = (Modules.Index.ofNames names).names.filter (simpleName · = entry.1) :=
    fun entry hentry => hgroups.eq_filter_of_mem (mem_groupsStartingWith.mp hentry).1
  have hlast : ∀ entry ∈ (ofNames names).groupsStartingWith text, ∀ qualified ∈ entry.2,
      LastPart qualified entry.1 := by
    intro entry hentry qualified hqualified
    rw [hgroup entry hentry] at hqualified
    exact simpleName_eq_iff.mp (of_decide_eq_true (List.mem_filter.mp hqualified).2)
  rw [simplyStartingWith_eq, List.pairwise_flatMap]
  constructor
  · -- inside a group the order is that of the names
    intro entry hentry
    have hascending := (Modules.Index.names_ofNames names).ascending.filter (simpleName · = entry.1)
    rw [← hgroup entry hentry] at hascending
    refine hascending.imp_of_mem fun {a b} ha hb hlt => ?_
    exact ⟨entry.1, entry.1, hlast entry hentry a ha, hlast entry hentry b hb, .inr ⟨rfl, hlt⟩⟩
  · have hdistinct : Entries.IsDistinct ((ofNames names).bySimpleName.filter fun entry =>
        Text.startsWith entry.1 text) :=
      hgroups.isDistinct.sublist (List.filter_sublist.map _)
    refine hdistinct.inOrder_ascending.imp_of_mem fun {a b} ha hb hlt => ?_
    intro first hfirst second hsecond
    exact ⟨a.1, b.1, hlast a ha first hfirst, hlast b hb second hsecond, .inl hlt⟩

theorem listing_named (simple : Text) :
    Listing (fun name => name ∈ names ∧ LastPart name simple) ((ofNames names).named simple) := by
  rw [named, (partitions_ofNames names).get?_eq]
  refine ((Modules.Index.names_ofNames names).filter _).congr fun name => ?_
  rw [decide_eq_true_iff, simpleName_eq_iff]

/-- The classes of a package whose last part starts with what is typed are found under the package, a
dot and what is typed. -/
theorem listing_startingWith_filter (package typed : Text) :
    Listing (fun name => name ∈ names ∧ IsWithin package name ∧ typed <+: simpleName name)
      (((ofNames names).startingWith (package ++ '.' :: typed)).filter
        fun name => packageName name == package) := by
  refine ((Modules.Index.listing_startingWith names _).filter _).congr fun name => ?_
  rw [beq_iff_eq, and_assoc, packageName_eq_iff]

theorem listing_ofPackage (query : Text) :
    Listing (fun name => name ∈ names ∧ packageAsked query ≠ [] ∧ IsWithin (packageAsked query) name)
      ((ofNames names).ofPackage query) := by
  rw [ofPackage, ← packageAsked]
  by_cases hempty : packageAsked query = []
  · rw [if_pos (List.isEmpty_iff.mpr hempty)]
    exact ⟨fun name => by simp [hempty], .nil⟩
  · rw [if_neg (by rwa [List.isEmpty_iff])]
    refine (listing_startingWith_filter names _ []).congr fun name => ?_
    rw [and_iff_left List.nil_prefix, and_iff_right hempty]

/-! ### Look-ups and scans -/

/-- Both indexes find by bisection what a scan finds: the names that start with a text, and whether a
name is there at all. -/
theorem startingWith_eq_scan (text : Text) :
    Listing (fun name => name ∈ names ∧ text <+: name) ((Modules.Index.ofNames names).startingWith text) ∧
      Listing (fun name => name ∈ names ∧ text <+: name) ((ofNames names).startingWith text) ∧
      ∀ name, (Modules.Index.ofNames names).has name = true ↔ name ∈ names := by
  refine ⟨Modules.Index.listing_startingWith names text, Modules.Index.listing_startingWith names text,
    fun name => ?_⟩
  have hnames := Modules.Index.names_ofNames names
  rw [Modules.Index.has_iff hnames.ascending, hnames.mem_iff]

/-- The look-ups by last part and by package find what a scan finds: the names with a last part, those
whose last part starts with a text, and those that are a package, a dot and one part more. No package at
all holds nothing. -/
theorem named_ofPackage_eq_scan :
    (∀ simple, Listing (fun name => name ∈ names ∧ LastPart name simple) ((ofNames names).named simple)) ∧
      (∀ text, (∀ name, name ∈ (ofNames names).simplyStartingWith text ↔
            name ∈ names ∧ ∃ part, LastPart name part ∧ text <+: part) ∧
          ((ofNames names).simplyStartingWith text).Nodup ∧
          ((ofNames names).simplyStartingWith text).Pairwise SimplyBefore) ∧
      ∀ query, Listing
        (fun name => name ∈ names ∧ packageAsked query ≠ [] ∧ IsWithin (packageAsked query) name)
        ((ofNames names).ofPackage query) := by
  refine ⟨listing_named names, fun text => ⟨fun name => ?_, ?_, simplyStartingWith_pairwise names text⟩,
    listing_ofPackage names⟩
  · rw [mem_simplyStartingWith]
    refine and_congr_right fun _ => ⟨fun hstarts => ⟨_, lastPart_simpleName name, hstarts⟩, ?_⟩
    rintro ⟨part, hpart, hstarts⟩
    rwa [simpleName_eq_iff.mpr hpart]
  · refine (simplyStartingWith_pairwise names text).imp fun {a b} hbefore => ?_
    rintro rfl
    exact simplyBefore_irrefl a hbefore

end Index

end Caret.Classes
