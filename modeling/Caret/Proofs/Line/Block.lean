import Caret.Proofs.Line.Header

/-!
# What a repair does

A text with an open block gets one statement more, behind an indentation of blanks that is deeper than
the header's; any other text stays as it is. The new statement opens no block, so that there is nothing
left to repair.
-/

namespace Caret.Line

theorem isBlank_of_blockHeader? {prior header : Text} {start : Nat}
    (h : blockHeader? prior = some (start, header)) : ∀ c ∈ header, Text.isBlank c = true := by
  obtain ⟨-, _, _, _, _, -, -, -, -, -, hheader⟩ := blockHeader?_eq_some_iff.mp h
  exact hheader.isBlank

/-! ### The indentation of a block -/

/-- The indentation of a block is made of blanks, and there is one. -/
theorem blockIndentation_blanks {header : Text} (h : ∀ c ∈ header, Text.isBlank c = true) (line : Text) :
    blockIndentation header line ≠ [] ∧ ∀ c ∈ blockIndentation header line, Text.isBlank c = true := by
  unfold blockIndentation
  dsimp only
  split
  · rename_i hdeeper
    refine ⟨fun hnil => ?_, isBlank_of_mem_indentation⟩
    rw [hnil] at hdeeper
    exact Nat.not_lt_zero _ hdeeper
  · have hstep : ∀ c ∈ "    ".toList, Text.isBlank c = true := Text.forall_mem_of_all (by decide)
    refine ⟨List.append_ne_nil_of_right_ne_nil _ (by decide), fun c hc => ?_⟩
    exact (List.mem_append.mp hc).elim (h c) (hstep c)

theorem width_lt_width_blockIndentation (header line : Text) :
    width header < width (blockIndentation header line) := by
  unfold blockIndentation
  dsimp only
  split
  · assumption
  · have hspaces : '\t' ∉ "    ".toList := by decide
    rw [width, width, Text.expandTabs, Text.expandTabs, Text.length_expandTabsFrom_append hspaces]
    exact Nat.lt_add_of_pos_right (by decide)

theorem blockIndentation_eq_own {header own rest : Text} (hown : ∀ c ∈ own, Text.isBlank c = true)
    (hrest : ∀ c ∈ rest.head?, Text.isBlank c = false) (hdeeper : width header < width own) :
    blockIndentation header (own ++ rest) = own := by
  have hindentation : Text.indentation (own ++ rest) = own := Text.takeWhile_run hown hrest
  unfold blockIndentation
  dsimp only
  rw [hindentation, if_pos hdeeper]

/-! ### The repaired text -/

theorem repair_of_none {prior : Text} (h : blockHeader? prior = none) (line : Text) :
    repair prior line = (prior, []) := by
  rw [repair, h]

theorem repair_of_some {prior header : Text} {start : Nat} (h : blockHeader? prior = some (start, header))
    (line : Text) :
    repair prior line = (prior ++ blockIndentation header line ++ placeholder ++ ['\n'],
      blockIndentation header line) := by
  rw [repair, h]

/-- A text before a line stays as it is, or a placeholder in an open block is added to it. -/
theorem repair_cases (prior line : Text) :
    repair prior line = (prior, []) ∨ ∃ block, block ≠ [] ∧ (∀ c ∈ block, Text.isBlank c = true) ∧
      repair prior line = (prior ++ block ++ placeholder ++ ['\n'], block) := by
  cases hheader : blockHeader? prior with
  | none => exact .inl (repair_of_none hheader line)
  | some found =>
    obtain ⟨hne, hblanks⟩ := blockIndentation_blanks (isBlank_of_blockHeader? hheader) line
    exact .inr ⟨_, hne, hblanks, repair_of_some hheader line⟩

/-- The line of a placeholder is the last one, it is not blank, and it has no colon. -/
theorem blockHeader?_placeholder {prior block : Text} (hprior : prior.getLast? = some '\n')
    (hblock : ∀ c ∈ block, Text.isBlank c = true) :
    blockHeader? (prior ++ block ++ placeholder ++ ['\n']) = none := by
  have hplain : ∀ c ∈ block ++ placeholder, c ≠ ':' ∧ Text.isLineBreak c = false := by
    intro c hc
    rcases List.mem_append.mp hc with hc | hc
    · have hblank := hblock c hc
      rw [Text.isBlank, Bool.or_eq_true, beq_iff_eq, beq_iff_eq] at hblank
      rcases hblank with rfl | rfl <;> decide
    · exact Text.forall_mem_of_all (p := fun c => c ≠ ':' ∧ Text.isLineBreak c = false) (by decide) c hc
  have hline : Text.IsLines (block ++ placeholder ++ ['\n']) [block ++ placeholder ++ ['\n']] :=
    .cons (fun c hc => (hplain c hc).2) (.inr ⟨'\n', rfl, by decide⟩) (fun h => absurd h (by decide)) .nil
  have hlines := Text.lines_eq_iff.mpr ((Text.isLines_lines prior).append (.inr hprior) hline)
  have hends : Text.endsWith (prior ++ (block ++ placeholder ++ ['\n'])) ['\n'] = true := by
    rw [Text.endsWith_singleton, ← List.append_assoc, List.getLast?_concat]
  have hblank : ¬ (Text.trim (Text.lineBody (block ++ placeholder ++ ['\n']))).isEmpty = true := by
    rw [isEmpty_trim_lineBody]
    intro hspace
    exact absurd (hspace 'p' (by simp [placeholder])) (by decide)
  have hheader : headerIndentation? (Text.lineBody (block ++ placeholder ++ ['\n'])) = none := by
    cases hfound : headerIndentation? (Text.lineBody (block ++ placeholder ++ ['\n'])) with
    | none => rfl
    | some indentation =>
      have hcolon := (headerIndentation?_eq_some_iff.mp hfound).colon_mem
      rcases List.mem_append.mp ((Text.dropEndWhile_isPrefix _ _).subset hcolon) with hmem | hmem
      · exact absurd rfl (hplain _ hmem).1
      · exact absurd hmem (by decide)
  rw [List.append_assoc, List.append_assoc, ← List.append_assoc block, blockHeader?, if_pos hends, hlines,
    List.reverse_append, List.reverse_singleton, List.singleton_append, headerAmong?, if_neg hblank, hheader]
  rfl

/-- A text with no open block stays as it is. In an open block a placeholder is added to the text, deeper
than the header, and with the indentation of the line if that is deeper. No block is open in the result, so
that it is not repaired again. -/
theorem repair_once (prior line : Text) :
    (blockHeader? prior = none → repair prior line = (prior, [])) ∧
    (∀ start header, blockHeader? prior = some (start, header) → ∃ block,
      repair prior line = (prior ++ block ++ "pass\n".toList, block) ∧
      block ≠ [] ∧ (∀ c ∈ block, c = ' ' ∨ c = '\t') ∧
      (Text.expandTabs header).length < (Text.expandTabs block).length ∧
      ∀ own rest, line = own ++ rest → (∀ c ∈ own, c = ' ' ∨ c = '\t') →
        (∀ c ∈ rest.head?, c ≠ ' ' ∧ c ≠ '\t') →
        (Text.expandTabs header).length < (Text.expandTabs own).length → block = own) ∧
    blockHeader? (repair prior line).1 = none ∧
    ∀ other, repair (repair prior line).1 other = ((repair prior line).1, []) := by
  have hblank : ∀ {c : Char}, Text.isBlank c = true ↔ c = ' ' ∨ c = '\t' := by
    intro c
    rw [Text.isBlank, Bool.or_eq_true, beq_iff_eq, beq_iff_eq]
  have hclosed : blockHeader? (repair prior line).1 = none := by
    cases hheader : blockHeader? prior with
    | none => rwa [repair_of_none hheader]
    | some found =>
      rw [repair_of_some hheader]
      exact blockHeader?_placeholder (blockHeader?_eq_some_iff.mp hheader).1
        (blockIndentation_blanks (isBlank_of_blockHeader? hheader) line).2
  refine ⟨fun hnone => repair_of_none hnone line, fun start header hheader => ?_, hclosed,
    fun other => repair_of_none hclosed other⟩
  obtain ⟨hne, hblanks⟩ := blockIndentation_blanks (isBlank_of_blockHeader? hheader) line
  refine ⟨blockIndentation header line, ?_, hne, fun c hc => hblank.mp (hblanks c hc),
    width_lt_width_blockIndentation header line, ?_⟩
  · rw [repair_of_some hheader, List.append_assoc _ placeholder]
    rfl
  · rintro own rest rfl hown hrest hdeeper
    refine blockIndentation_eq_own (fun c hc => hblank.mpr (hown c hc)) (fun c hc => ?_) hdeeper
    rw [← Bool.not_eq_true, hblank, not_or]
    exact hrest c hc

/-- A blank and a tab are as wide as one tab, so that a line with two tabs is deeper. -/
theorem repair_once_tabs :
    blockHeader? " \tif a:\n".toList = some (0, " \t".toList) ∧
    (Text.expandTabs " \t".toList).length < (Text.expandTabs "\t\t".toList).length ∧
    repair " \tif a:\n".toList "\t\tb".toList = (" \tif a:\n\t\tpass\n".toList, "\t\t".toList) ∧
    ∀ other, repair " \tif a:\n\t\tpass\n".toList other = (" \tif a:\n\t\tpass\n".toList, []) := by
  have hheader : blockHeader? " \tif a:\n".toList = some (0, " \t".toList) := by decide
  have hdeeper : (Text.expandTabs " \t".toList).length < (Text.expandTabs "\t\t".toList).length := by decide
  obtain ⟨-, hopen, -, hagain⟩ := repair_once " \tif a:\n".toList "\t\tb".toList
  obtain ⟨block, hrepair, -, -, -, hown⟩ := hopen _ _ hheader
  have hblock : block = "\t\t".toList := by
    refine hown "\t\t".toList "b".toList (by decide) (Text.forall_mem_of_all (by decide)) ?_ hdeeper
    rintro c ⟨⟩
    decide
  subst hblock
  rw [hrepair] at hagain
  exact ⟨hheader, hdeeper, hrepair, hagain⟩

end Caret.Line
