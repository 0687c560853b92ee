import Caret.Line.Context
import Caret.Proofs.Text.Space
import Mathlib.Data.List.TakeWhile

/-!
# Lines that import

Two forms of a line are imports: a module path behind a keyword, and a name that is imported from a
module. What such a line looks like is said here by its parts, and each reader of the forms is shown to
take a line apart in just that way. The parts are told from each other by their characters alone, so that
a line has them in one way at most.
-/

namespace Caret.Line

/-- A module path: an ASCII letter or an underscore, and then word characters and dots. -/
def IsPath (path : Text) : Prop :=
  ∃ c rest, path = c :: rest ∧ Text.isNameStart c = true ∧ ∀ d ∈ rest, isPathChar d = true

/-- A line that is blanks, a keyword, blanks and a module path. -/
structure IsPackageLine (lead keyword gap path line : Text) : Prop where
  isBlank_lead : ∀ c ∈ lead, Text.isBlank c = true
  keyword_eq : keyword = "import".toList ∨ keyword = "from".toList
  isBlank_gap : ∀ c ∈ gap, Text.isBlank c = true
  gap_ne_nil : gap ≠ []
  isPath : IsPath path
  line_eq : line = lead ++ (keyword ++ (gap ++ path))

/-- A line that imports a name from a module, up to that name. The blanks behind the second keyword may be
missing. -/
structure IsMemberLine (lead gap module space after name line : Text) : Prop where
  isBlank_lead : ∀ c ∈ lead, Text.isBlank c = true
  isBlank_gap : ∀ c ∈ gap, Text.isBlank c = true
  gap_ne_nil : gap ≠ []
  isPath : IsPath module
  isBlank_space : ∀ c ∈ space, Text.isBlank c = true
  space_ne_nil : space ≠ []
  isBlank_after : ∀ c ∈ after, Text.isBlank c = true
  isWord_name : ∀ c ∈ name, Text.isWord c = true
  line_eq : line =
    lead ++ ("from".toList ++ (gap ++ (module ++ (space ++ ("import".toList ++ (after ++ name))))))

/-! ### Characters -/

theorem isPathChar_of_isBlank {c : Char} (h : Text.isBlank c = true) : isPathChar c = false := by
  rw [Text.isBlank, Bool.or_eq_true, beq_iff_eq, beq_iff_eq] at h
  rcases h with rfl | rfl <;> decide

theorem isBlank_of_isPathChar {c : Char} (h : isPathChar c = true) : Text.isBlank c = false := by
  rw [← Bool.not_eq_true]
  intro hblank
  rw [isPathChar_of_isBlank hblank] at h
  cases h

theorem isPathChar_of_isWord {c : Char} (h : Text.isWord c = true) : isPathChar c = true := by
  rw [isPathChar, h, Bool.true_or]

theorem isSpace_of_isPathChar {c : Char} (h : isPathChar c = true) : Text.isSpace c = false := by
  rw [isPathChar, Bool.or_eq_true, beq_iff_eq] at h
  rcases h with hword | rfl
  · exact Text.isSpace_of_isWord hword
  · decide

theorem IsPath.isPathChar {path : Text} (h : IsPath path) : ∀ c ∈ path, isPathChar c = true := by
  obtain ⟨c, rest, rfl, hc, hrest⟩ := h
  have hword : Text.isWord c = true := Text.isWord_of_isNameChar (by rw [hc, Bool.true_or])
  exact List.forall_mem_cons.mpr ⟨isPathChar_of_isWord hword, hrest⟩

theorem IsPath.head_not_isBlank {path : Text} (h : IsPath path) (rest : Text) :
    ∀ c ∈ (path ++ rest).head?, Text.isBlank c = false := by
  have hpath := h.isPathChar
  obtain ⟨c, cs, rfl, -, -⟩ := h
  rintro d ⟨⟩
  exact isBlank_of_isPathChar (hpath c List.mem_cons_self)

/-! ### A keyword and a path -/

theorem keyword?_eq_some_iff {word : String} {text rest : Text} :
    keyword? word text = some rest ↔ ∃ gap, gap ≠ [] ∧ (∀ c ∈ gap, Text.isBlank c = true) ∧
      (∀ c ∈ rest.head?, Text.isBlank c = false) ∧ text = word.toList ++ (gap ++ rest) := by
  simp only [keyword?, Option.ite_none_right_eq_some, List.isPrefixOf_iff_prefix, Option.some.injEq]
  constructor
  · rintro ⟨⟨behind, rfl⟩, hblank, rfl⟩
    rw [List.drop_left] at hblank ⊢
    exact ⟨behind.takeWhile Text.isBlank, Text.any_head?_iff.mp hblank, fun c hc => List.mem_takeWhile_imp hc,
      Text.head?_dropWhile, by rw [List.takeWhile_append_dropWhile]⟩
  · rintro ⟨gap, hne, hgap, hrest, rfl⟩
    rw [List.drop_left, Text.any_head?_iff, Text.takeWhile_run hgap hrest]
    exact ⟨⟨_, rfl⟩, hne, Text.dropWhile_run hgap hrest⟩

theorem path?_eq_some_iff {text path after : Text} :
    path? text = some (path, after) ↔
      IsPath path ∧ (∀ c ∈ after.head?, isPathChar c = false) ∧ text = path ++ after := by
  rw [path?, Option.ite_none_right_eq_some, Option.some.injEq, Prod.mk.injEq]
  constructor
  · rintro ⟨hstart, rfl, rfl⟩
    refine ⟨?_, Text.head?_dropWhile, List.takeWhile_append_dropWhile.symm⟩
    cases text with
    | nil => cases hstart
    | cons c cs =>
      rw [List.head?_cons, Option.any_some] at hstart
      have hpath := isPathChar_of_isWord (Text.isWord_of_isNameChar (by rw [hstart, Bool.true_or]))
      rw [List.takeWhile_cons, if_pos hpath]
      exact ⟨c, _, rfl, hstart, fun d hd => List.mem_takeWhile_imp hd⟩
  · rintro ⟨hpath, hafter, rfl⟩
    refine ⟨?_, Text.takeWhile_run hpath.isPathChar hafter, Text.dropWhile_run hpath.isPathChar hafter⟩
    obtain ⟨c, cs, rfl, hc, -⟩ := hpath
    exact hc

/-- What follows the module that a name is imported from. -/
theorem importedName_iff {text name : Text} :
    ((text.head?).any Text.isBlank = true ∧ "import".toList.isPrefixOf (text.dropWhile Text.isBlank) = true ∧
      ((text.dropWhile Text.isBlank).drop 6).dropWhile Text.isBlank = name ∧
      ∀ c ∈ name, Text.isWord c = true) ↔
    ∃ space after, space ≠ [] ∧ (∀ c ∈ space, Text.isBlank c = true) ∧ (∀ c ∈ after, Text.isBlank c = true) ∧
      (∀ c ∈ name, Text.isWord c = true) ∧ text = space ++ ("import".toList ++ (after ++ name)) := by
  rw [List.isPrefixOf_iff_prefix]
  constructor
  · rintro ⟨hblank, ⟨behind, hbehind⟩, rfl, hname⟩
    have htext := List.takeWhile_append_dropWhile (p := Text.isBlank) (l := text)
    have hdrop : (text.dropWhile Text.isBlank).drop 6 = behind := by
      rw [← hbehind]
      rfl
    rw [hdrop] at hname ⊢
    refine ⟨text.takeWhile Text.isBlank, behind.takeWhile Text.isBlank, Text.any_head?_iff.mp hblank,
      fun c hc => List.mem_takeWhile_imp hc, fun c hc => List.mem_takeWhile_imp hc, hname, ?_⟩
    rw [List.takeWhile_append_dropWhile, hbehind, htext]
  · rintro ⟨space, after, hne, hspace, hafter, hname, rfl⟩
    have himport : ∀ c ∈ ("import".toList ++ (after ++ name)).head?, Text.isBlank c = false := by
      rintro c ⟨⟩
      decide
    have hhead : ∀ c ∈ name.head?, Text.isBlank c = false := fun c hc =>
      isBlank_of_isPathChar (isPathChar_of_isWord (hname c (List.mem_of_mem_head? hc)))
    rw [Text.any_head?_iff, Text.takeWhile_run hspace himport, Text.dropWhile_run hspace himport]
    exact ⟨hne, ⟨_, rfl⟩, Text.dropWhile_run hafter hhead, hname⟩

/-! ### The two forms -/

section

variable {line : Text} {form : Form}

theorem packageBehind_eq_some_iff {word : String} {c : Char} (hc : word.toList.head? = some c)
    (hblank : Text.isBlank c = false) :
    ((keyword? word (line.dropWhile Text.isBlank)).bind fun rest =>
      (path? rest).bind fun (path, after) =>
      if after.isEmpty then some (Form.package word.toList path (line.length - path.length))
      else none) = some form ↔
    ∃ lead gap path, (∀ c ∈ lead, Text.isBlank c = true) ∧ (∀ c ∈ gap, Text.isBlank c = true) ∧ gap ≠ [] ∧
      IsPath path ∧ line = lead ++ (word.toList ++ (gap ++ path)) ∧
      form = .package word.toList path (lead ++ (word.toList ++ gap)).length := by
  have hlength : ∀ lead gap path : Text, (lead ++ (word.toList ++ (gap ++ path))).length - path.length =
      (lead ++ (word.toList ++ gap)).length := by
    intro lead gap path
    simp only [List.length_append]
    omega
  simp only [Option.bind_eq_some_iff, Prod.exists, keyword?_eq_some_iff, path?_eq_some_iff,
    Option.ite_none_right_eq_some, List.isEmpty_iff, Option.some.injEq]
  constructor
  · rintro ⟨_, ⟨gap, hne, hgap, -, htext⟩, path, _, ⟨hpath, -, rfl⟩, rfl, rfl⟩
    rw [List.append_nil] at htext
    have hline := List.takeWhile_append_dropWhile (p := Text.isBlank) (l := line)
    rw [htext] at hline
    refine ⟨line.takeWhile Text.isBlank, gap, path, fun c hc => List.mem_takeWhile_imp hc, hgap, hne,
      hpath, hline.symm, ?_⟩
    rw [← hlength, hline]
  · rintro ⟨lead, gap, path, hlead, hgap, hne, hpath, rfl, rfl⟩
    have hhead : ∀ d ∈ (word.toList ++ (gap ++ path)).head?, Text.isBlank d = false := by
      rw [List.head?_append, hc]
      rintro d ⟨⟩
      exact hblank
    have hstart := hpath.head_not_isBlank []
    rw [List.append_nil] at hstart
    exact ⟨path, ⟨gap, hne, hgap, hstart, Text.dropWhile_run hlead hhead⟩, path, [],
      ⟨hpath, fun _ h => absurd h (by simp), (List.append_nil path).symm⟩, rfl, by rw [hlength]⟩

variable (hfree : '\n' ∉ line)

include hfree

theorem packageForm?_eq_some_iff :
    packageForm? line = some form ↔ ∃ lead keyword gap path, IsPackageLine lead keyword gap path line ∧
      form = .package keyword path (lead ++ (keyword ++ gap)).length := by
  simp only [packageForm?, Text.withoutFinalNewline_of_not_mem hfree]
  rw [Option.or_eq_some_iff, packageBehind_eq_some_iff (c := 'i') (by decide) (by decide),
    packageBehind_eq_some_iff (c := 'f') (by decide) (by decide)]
  constructor
  · rintro (⟨lead, gap, path, hlead, hgap, hne, hpath, hline, hform⟩ |
      ⟨-, lead, gap, path, hlead, hgap, hne, hpath, hline, hform⟩)
    · exact ⟨lead, _, gap, path, ⟨hlead, .inl rfl, hgap, hne, hpath, hline⟩, hform⟩
    · exact ⟨lead, _, gap, path, ⟨hlead, .inr rfl, hgap, hne, hpath, hline⟩, hform⟩
  · rintro ⟨lead, keyword, gap, path, ⟨hlead, rfl | rfl, hgap, hne, hpath, hline⟩, hform⟩
    · exact .inl ⟨lead, gap, path, hlead, hgap, hne, hpath, hline, hform⟩
    · refine .inr ⟨?_, lead, gap, path, hlead, hgap, hne, hpath, hline, hform⟩
      have htext : line.dropWhile Text.isBlank = "from".toList ++ (gap ++ path) := by
        rw [hline]
        refine Text.dropWhile_run hlead ?_
        rintro c ⟨⟩
        decide
      rw [htext]
      rfl

theorem memberForm?_eq_some_iff :
    memberForm? line = some form ↔ ∃ lead gap module space after name,
      IsMemberLine lead gap module space after name line ∧ form = .member module name := by
  simp only [memberForm?, Text.withoutFinalNewline_of_not_mem hfree, Option.bind_eq_some_iff, Prod.exists,
    keyword?_eq_some_iff, path?_eq_some_iff, Option.ite_none_left_eq_some, Option.ite_none_right_eq_some,
    Bool.not_eq_true', Bool.not_eq_false, Option.some.injEq]
  constructor
  · rintro ⟨_, ⟨gap, hne, hgap, -, htext⟩, module, rest, ⟨hmodule, -, rfl⟩, hblank, himport, hword, rfl⟩
    generalize hname : ((rest.dropWhile Text.isBlank).drop 6).dropWhile Text.isBlank = name at hword ⊢
    have hword := List.all_eq_true.mp hword
    obtain ⟨space, after, hspace_ne, hspace, hafter, -, rfl⟩ :=
      importedName_iff.mp ⟨hblank, himport, hname, hword⟩
    have hline := List.takeWhile_append_dropWhile (p := Text.isBlank) (l := line)
    rw [htext] at hline
    exact ⟨line.takeWhile Text.isBlank, gap, module, space, after, name,
      ⟨fun c hc => List.mem_takeWhile_imp hc, hgap, hne, hmodule, hspace, hspace_ne, hafter, hword,
        hline.symm⟩, rfl⟩
  · rintro ⟨lead, gap, module, space, after, name, h, rfl⟩
    have htext : line.dropWhile Text.isBlank = "from".toList ++ (gap ++ (module ++ (space ++
        ("import".toList ++ (after ++ name))))) := by
      rw [h.line_eq]
      refine Text.dropWhile_run h.isBlank_lead ?_
      rintro c ⟨⟩
      decide
    have hbehind : ∀ c ∈ (space ++ ("import".toList ++ (after ++ name))).head?, isPathChar c = false := by
      obtain ⟨d, ds, rfl⟩ := List.exists_cons_of_ne_nil h.space_ne_nil
      rintro c ⟨⟩
      exact isPathChar_of_isBlank (h.isBlank_space d List.mem_cons_self)
    obtain ⟨hblank, himport, hname, hword⟩ := importedName_iff.mpr
      ⟨space, after, h.space_ne_nil, h.isBlank_space, h.isBlank_after, h.isWord_name, rfl⟩
    refine ⟨_, ⟨gap, h.gap_ne_nil, h.isBlank_gap, h.isPath.head_not_isBlank _, htext⟩, module, _,
      ⟨h.isPath, hbehind, rfl⟩, hblank, himport, ?_, by rw [hname]⟩
    rw [hname, List.all_eq_true]
    exact hword

end

end Caret.Line
