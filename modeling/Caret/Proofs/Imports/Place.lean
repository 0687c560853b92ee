import Caret.Proofs.Imports.Site

/-!
# The place of a new line

A line for the import of a module is inserted between two lines of the script, whether or not the script
is well formed, and nothing else changes, except that a last line without its end gets one. The place is
behind the line that names the interpreter and behind the lines that declare an encoding.
-/

namespace Caret.Imports

open Script.Lexer (EndsInBreak)

/-! ### Declarations of an encoding -/

/-- A line declares an encoding: the word is followed by a sign, white space and the name of an encoding. -/
def NamesEncoding (line : Text) : Prop :=
  ∃ (before : Text) (sign : Char) (space : Text) (first : Char) (after : Text),
    line = before ++ ("coding".toList ++ sign :: (space ++ first :: after)) ∧ (sign = ':' ∨ sign = '=') ∧
      (∀ c ∈ space, Text.isSpace c = true) ∧ (first = '-' ∨ first = '.' ∨ Text.isWord first = true)

theorem declared_iff {text : Text} : declaresEncoding.declared text = true ↔
    ∃ (sign : Char) (space : Text) (first : Char) (after : Text), text = sign :: (space ++ first :: after) ∧
      (sign = ':' ∨ sign = '=') ∧ (∀ c ∈ space, Text.isSpace c = true) ∧
        (first = '-' ∨ first = '.' ∨ Text.isWord first = true) := by
  constructor
  · intro h
    cases text with
    | nil => cases h
    | cons sign rest =>
      rw [declaresEncoding.declared, Bool.and_eq_true, Bool.or_eq_true, beq_iff_eq, beq_iff_eq] at h
      obtain ⟨hsign, hname⟩ := h
      obtain ⟨first, hhead, hfirst⟩ := (Option.any_eq_true _ _).mp hname
      obtain ⟨after, hafter⟩ := List.head?_eq_some_iff.mp hhead
      refine ⟨sign, rest.takeWhile Text.isSpace, first, after, ?_, hsign, fun c hc => List.mem_takeWhile_imp hc, ?_⟩
      · rw [← hafter, List.takeWhile_append_dropWhile]
      · simpa [or_assoc] using hfirst
  · rintro ⟨sign, space, first, after, rfl, hsign, hspace, hfirst⟩
    have hink : Text.isSpace first = false := by
      rcases hfirst with rfl | rfl | hword
      · decide
      · decide
      · exact Text.isSpace_of_isWord hword
    have hrest : (space ++ first :: after).dropWhile Text.isSpace = first :: after :=
      Text.dropWhile_run hspace (by rintro c ⟨⟩; exact hink)
    rw [declaresEncoding.declared, hrest]
    simp only [List.head?_cons, Option.any_some, Bool.and_eq_true, Bool.or_eq_true, beq_iff_eq]
    exact ⟨hsign, or_assoc.mpr hfirst⟩

theorem namesEncoding_iff {line : Text} : NamesEncoding line ↔
    ∃ before text, line = before ++ ("coding".toList ++ text) ∧ declaresEncoding.declared text = true := by
  constructor
  · rintro ⟨before, sign, space, first, after, hline, hparts⟩
    exact ⟨before, _, hline, declared_iff.mpr ⟨sign, space, first, after, rfl, hparts⟩⟩
  · rintro ⟨before, text, hline, hdeclared⟩
    obtain ⟨sign, space, first, after, rfl, hparts⟩ := declared_iff.mp hdeclared
    exact ⟨before, sign, space, first, after, hline, hparts⟩

theorem declaresEncoding_iff {line : Text} : declaresEncoding line = true ↔ NamesEncoding line := by
  rw [namesEncoding_iff]
  induction line with
  | nil =>
    refine ⟨fun h => absurd h (by decide), ?_⟩
    rintro ⟨before, text, hline, -⟩
    exact absurd (List.append_eq_nil_iff.mp (List.append_eq_nil_iff.mp hline.symm).2).1 (by decide)
  | cons c cs ih =>
    rw [declaresEncoding, Bool.or_eq_true, Bool.and_eq_true, List.isPrefixOf_iff_prefix, ih]
    constructor
    · rintro (⟨⟨text, htext⟩, hdeclared⟩ | ⟨before, text, rfl, hdeclared⟩)
      · refine ⟨[], text, htext.symm, ?_⟩
        rwa [← List.drop_succ_cons (a := c), ← htext, List.drop_left' (by decide)] at hdeclared
      · exact ⟨c :: before, text, rfl, hdeclared⟩
    · rintro ⟨before, text, hline, hdeclared⟩
      cases before with
      | nil =>
        rw [List.nil_append] at hline
        refine .inl ⟨⟨text, hline.symm⟩, ?_⟩
        rwa [← List.drop_succ_cons (a := c), hline, List.drop_left' (by decide)]
      | cons b before =>
        rw [List.cons_append] at hline
        exact .inr ⟨before, text, (List.cons.inj hline).2, hdeclared⟩

/-! ### The end of a line -/

/-- The place behind a number of lines. -/
def lineEnd (source : Text) (count : Nat) : Nat :=
  ((Text.lines source).take count).flatten.length

theorem lines_around (source : Text) (count : Nat) :
    ((Text.lines source).take count).flatten ++ ((Text.lines source).drop count).flatten = source := by
  rw [← List.flatten_append, List.take_append_drop, Text.flatten_lines]

theorem take_lineEnd (source : Text) (count : Nat) :
    source.take (lineEnd source count) = ((Text.lines source).take count).flatten := by
  nth_rewrite 2 [← lines_around source count]
  exact List.take_left

theorem drop_lineEnd (source : Text) (count : Nat) :
    source.drop (lineEnd source count) = ((Text.lines source).drop count).flatten := by
  nth_rewrite 2 [← lines_around source count]
  exact List.drop_left

theorem lineEnd_mono (source : Text) {count count' : Nat} (h : count ≤ count') :
    lineEnd source count ≤ lineEnd source count' := by
  have hprefix : (Text.lines source).take count <+: (Text.lines source).take count' :=
    List.take_prefix_take_left h
  obtain ⟨more, hmore⟩ := hprefix
  rw [lineEnd, lineEnd, ← hmore, List.flatten_append, List.length_append]
  exact Nat.le_add_right _ _

theorem lineEnd_eq_length_iff {source : Text} {count : Nat} :
    lineEnd source count = source.length ↔ (Text.lines source).length ≤ count := by
  have hlength := congrArg List.length (lines_around source count)
  rw [List.length_append] at hlength
  have hrest : ((Text.lines source).drop count).flatten.length = 0 ↔ (Text.lines source).length ≤ count := by
    rw [List.length_eq_zero_iff, List.flatten_eq_nil_iff, ← List.drop_eq_nil_iff]
    refine ⟨fun h => List.eq_nil_iff_forall_not_mem.mpr fun line hline => ?_, fun h line hline => ?_⟩
    · exact Text.ne_nil_of_mem_lines (List.mem_of_mem_drop hline) (h line hline)
    · rw [h] at hline
      cases hline
  rw [← hrest, lineEnd]
  omega

/-! ### The new line -/

/-- A place at the end of a script whose last line has no end. -/
def EndsOpen (source : Text) (place : Nat) : Prop :=
  place = source.length ∧ source ≠ [] ∧ ¬ EndsInBreak source

/-- A line goes behind a number of lines, and behind a line feed if one is missing there. -/
theorem insertLine_at (source : Text) (index : Nat) (line : Text) :
    ∃ feed, insertLine source index line = source.take (lineEnd source index) ++
        (feed ++ line ++ source.drop (lineEnd source index)) ∧
      (EndsOpen source (lineEnd source index) ∧ feed = ['\n'] ∨
        ¬ EndsOpen source (lineEnd source index) ∧ feed = []) := by
  obtain ⟨before, hinsert, hbefore⟩ := insertLine_eq source index line
  rw [hinsert, take_lineEnd, drop_lineEnd]
  rcases hbefore with ⟨rfl, hclosed⟩ | ⟨rfl, hlength, hopen⟩
  · refine ⟨[], by rw [List.nil_append], .inr ⟨?_, rfl⟩⟩
    rintro ⟨hend, hne, hopen⟩
    exact (hclosed (lineEnd_eq_length_iff.mp hend)).elim hne hopen
  · refine ⟨['\n'], ?_, .inl ⟨⟨lineEnd_eq_length_iff.mpr hlength, ?_, hopen⟩, rfl⟩⟩
    · rw [List.take_of_length_le hlength, Text.flatten_lines]
      simp
    · rintro rfl
      have hempty : insertLine [] index line = line := by simp [insertLine, Text.lines]
      have hsame := congrArg List.length (hempty.symm.trans hinsert)
      simp only [List.length_append, List.length_cons, List.length_nil] at hsame
      omega

/-- A place for imports: between two lines, behind the line that names the interpreter and behind the lines
that declare an encoding. -/
structure IsImportPlace (source : Text) (place : Nat) : Prop where
  boundary : ∃ count ≤ (Text.lines source).length, place = lineEnd source count
  interpreter : ∀ line ∈ (Text.lines source).head?, ['#', '!'] <+: line → lineEnd source 1 ≤ place
  encoding : ∀ index < 2, ∀ line ∈ (Text.lines source)[index]?, NamesEncoding line →
    lineEnd source (index + 1) ≤ place

theorem lt_headLines_of_interpreter {lines : List Text} {line : Text} (hline : line ∈ lines.head?)
    (hstart : ['#', '!'] <+: line) (statements? : Option (List Script.Statement)) :
    0 < headLines lines statements? := by
  have hany : (lines.head?).any (Text.startsWith · ['#', '!']) = true := by
    rw [Option.mem_def.mp hline]
    exact Text.startsWith_iff.mpr hstart
  unfold headLines
  dsimp only
  rw [if_pos hany]
  omega

theorem lt_headLines_of_encoding {lines : List Text} {line : Text} {index : Nat} (hindex : index < 2)
    (hline : line ∈ lines[index]?) (hnames : NamesEncoding line)
    (statements? : Option (List Script.Statement)) : index < headLines lines statements? := by
  have hdeclares := declaresEncoding_iff.mpr hnames
  have hany : (lines[index]?).any declaresEncoding = true := by
    rw [Option.mem_def.mp hline]
    exact hdeclares
  unfold headLines
  refine Nat.lt_of_lt_of_le ?_ ((Nat.le_max_right _ _).trans (Nat.le_max_left _ _))
  obtain rfl | rfl : index = 0 ∨ index = 1 := by omega
  · rw [← List.head?_eq_getElem?] at hany
    rw [if_pos hany]
    split <;> omega
  · rw [← List.head?_drop] at hany
    rw [if_pos hany]
    omega

/-- New imports go to a place for imports, whatever the parser says about the script. -/
theorem isImportPlace_position (source : Text) (statements? : Option (List Script.Statement)) :
    IsImportPlace source (lineEnd source (position source statements?)) where
  boundary := by
    by_cases hle : position source statements? ≤ (Text.lines source).length
    · exact ⟨_, hle, rfl⟩
    · refine ⟨_, Nat.le_refl _, ?_⟩
      rw [lineEnd_eq_length_iff.mpr (Nat.le_of_not_le hle), lineEnd_eq_length_iff.mpr (Nat.le_refl _)]
  interpreter line hline hstart := by
    have hne := List.ne_nil_of_mem (List.mem_of_mem_head? hline)
    have hhead := lt_headLines_of_interpreter hline hstart statements?
    exact lineEnd_mono source (hhead.trans_le (headLines_le_position hne statements?))
  encoding index hindex line hline hnames := by
    have hne := List.ne_nil_of_mem (List.mem_of_getElem? hline)
    have hhead := lt_headLines_of_encoding hindex hline hnames statements?
    exact lineEnd_mono source (hhead.trans_le (headLines_le_position hne statements?))

/-! ### The import of a module -/

/-- The request for a module, white space around it and its name left out. -/
def moduleRequest (module bind : Text) : Request :=
  .ofModule (Text.trim module) (Text.trim bind)

theorem insertModule_eq [CharacterNames] (source module bind : Text) :
    insertModule source module bind = insert source (moduleRequest module bind) := by
  have htrim : ∀ text, Text.trim (Text.trim text) = Text.trim text := Text.trimBy_trimBy Text.isSpace
  rw [moduleRequest, insert, insertModule, insertModule]
  simp only [htrim]

/-- A module that is imported already leaves the script as it is. For any other the line for its import is
inserted at a place for imports, behind a line feed exactly if the script ends there without one. -/
theorem insertModule_at_place [CharacterNames] {source module bind : Text}
    (hmodule : Text.trim module ≠ []) :
    (((Script.parse? source).getD []).any (moduleRequest module bind).isMetBy = true ∧
        insertModule source module bind = ⟨source, .already⟩) ∨
      (((Script.parse? source).getD []).any (moduleRequest module bind).isMetBy = false ∧
        ∃ place feed,
          insertModule source module bind =
            ⟨source.take place ++ (feed ++ ((moduleRequest module bind).text ++ ['\n']) ++ source.drop place),
              .updated⟩ ∧
          (EndsOpen source place ∧ feed = ['\n'] ∨ ¬ EndsOpen source place ∧ feed = []) ∧
          IsImportPlace source place) := by
  have hspaceless : (moduleRequest module bind).Spaceless :=
    ⟨hmodule, Text.trimBy_trimBy _ _, Text.trimBy_trimBy _ _⟩
  rw [insertModule_eq]
  refine (insert_cases source hspaceless).imp_right ?_
  rintro ⟨hunmet, text, hinsert, hedit⟩
  refine ⟨hunmet, ?_⟩
  cases hedit with
  | name _ _ hopen => cases hopen
  | line hsite =>
    rw [site_eq_line hsite] at hinsert
    obtain ⟨feed, htext, hfeed⟩ := insertLine_at source (position source (Script.parse? source))
      ((moduleRequest module bind).text ++ ['\n'])
    rw [htext] at hinsert
    exact ⟨_, feed, hinsert, hfeed, isImportPlace_position source _⟩

section

open scoped CharacterNames

/-- A script that is not well formed gets its import behind the lines that have to stay first. -/
theorem insertModule_at_place_unclosed :
    Text.trim " m ".toList ≠ [] ∧
      insertModule "#!/x\n# coding: u\nx = (".toList " m ".toList "n".toList =
        ⟨"#!/x\n# coding: u\nimport m as n\nx = (".toList, .updated⟩ ∧
      ∃ place feed,
        "#!/x\n# coding: u\nimport m as n\nx = (".toList =
          "#!/x\n# coding: u\nx = (".toList.take place ++
            (feed ++ "import m as n\n".toList ++ "#!/x\n# coding: u\nx = (".toList.drop place) ∧
        IsImportPlace "#!/x\n# coding: u\nx = (".toList place := by
  have hmodule : Text.trim " m ".toList ≠ [] := by decide
  have hinsert : insertModule "#!/x\n# coding: u\nx = (".toList " m ".toList "n".toList =
      ⟨"#!/x\n# coding: u\nimport m as n\nx = (".toList, .updated⟩ := by decide +kernel
  refine ⟨hmodule, hinsert, ?_⟩
  have hline : (moduleRequest " m ".toList "n".toList).text ++ ['\n'] = "import m as n\n".toList := by
    decide +kernel
  rcases @insertModule_at_place _ "#!/x\n# coding: u\nx = (".toList _ "n".toList hmodule with
    ⟨-, halready⟩ | ⟨-, place, feed, htext, -, hplace⟩
  · rw [hinsert] at halready
    cases congrArg Edit.status halready
  · rw [hinsert, hline] at htext
    exact ⟨place, feed, congrArg Edit.text htext, hplace⟩

end

end Caret.Imports
