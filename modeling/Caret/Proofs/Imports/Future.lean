import Caret.Proofs.Imports.Preserve
import Caret.Proofs.Script.FirstLine

/-!
# What has to stay first

Imports from `__future__` have to come before all other statements, the text that documents the script
apart. A new line goes behind them, if the search for its place does not overlook one: the search reads
the starts of lines, and it takes a blank or a comment before the first import for the end of the imports.
-/

namespace Caret.Imports

open Script (Statement parse?)
open Script.Lexer (EndsInBreak MeetApart)
open Script.Number (continuesName)

/-- Whether a statement imports from `__future__`. -/
def isFuture (statement : Statement) : Bool :=
  (namesFrom? "__future__".toList statement).isSome

/-- The statements that nothing may come before: the text that documents a script, and the imports from
`__future__` that follow it. -/
def preamble (statements : List Statement) : List Statement :=
  let documentation := (Script.documentation? statements).toList
  documentation ++ (statements.drop documentation.length).takeWhile isFuture

/-- The first word of a line. -/
def firstWord (line : Text) : Text :=
  (Text.trim line).takeWhile continuesName

/-- Whether the start of a line shows what it is: there is code on it, and if that is an import, then one
that the search for the place of imports sees. -/
def showsStart (line : Text) : Bool :=
  !isIdle line && !Text.startsWith (Text.trim line) ['\\'] &&
    (startsImport line || firstWord line != "from".toList)

/-- Whether the lines up to a place end as they do for the lexer, and the next line shows what it is. -/
def showsPlace (source : Text) (index : Nat) : Bool :=
  ((Text.lines source)[index]?).all fun line =>
    ((Text.lines source).take index).all isClosed && showsStart line

theorem of_documentation? {statements : List Statement} {first : Statement}
    (h : Script.documentation? statements = some first) :
    ∃ value more, statements = first :: more ∧ first.action = .evaluate (.text value) := by
  unfold Script.documentation? at h
  split at h
  · split at h
    · cases h
      exact ⟨_, _, rfl, ‹_›⟩
    · cases h
  · cases h

theorem preamble_isPrefix (statements : List Statement) : preamble statements <+: statements := by
  unfold preamble
  cases hdoc : Script.documentation? statements with
  | none => exact List.takeWhile_prefix _
  | some first =>
    obtain ⟨_, more, rfl, -⟩ := of_documentation? hdoc
    exact List.cons_prefix_cons.mpr ⟨rfl, List.takeWhile_prefix _⟩

/-- A statement of the preamble imports from `__future__`, or it is the first one and documents the script. -/
theorem preamble_cases {statements : List Statement} {k : Nat} {statement : Statement}
    (h : (preamble statements)[k]? = some statement) :
    isFuture statement = true ∨ k = 0 ∧ Script.documentation? statements = some statement := by
  unfold preamble at h
  cases hdoc : Script.documentation? statements with
  | none =>
    rw [hdoc] at h
    exact .inl (List.mem_takeWhile_imp (List.mem_of_getElem? h))
  | some first =>
    rw [hdoc] at h
    cases k with
    | zero => exact .inr ⟨rfl, h⟩
    | succ k => exact .inl (List.mem_takeWhile_imp (List.mem_of_getElem? (List.getElem?_cons_succ ▸ h)))

/-! ### The line at the place -/

/-- The search ends before a line that starts no import. -/
theorem startsImport_of_importLines {found : Bool} {inside : Option Nat} {lines : List Text} {line : Text}
    (h : lines[importLines found inside lines]? = some line) : startsImport line = false := by
  fun_induction importLines found inside lines with
  | case1 => cases h
  | case2 found inside first rest _ depth continued _ ih =>
    rw [Nat.add_comm, List.getElem?_cons_succ] at h
    exact ih h
  | case3 found inside first rest _ _ ih =>
    rw [Nat.add_comm, List.getElem?_cons_succ] at h
    exact ih h
  | case4 found inside first rest hstart _ =>
    cases h
    rw [Bool.or_eq_true, not_or] at hstart
    exact Bool.eq_false_iff.mpr hstart.2

theorem startsImport_of_position {source line : Text} {statements? : Option (List Statement)}
    (h : (Text.lines source)[position source statements?]? = some line) : startsImport line = false := by
  unfold position at h
  dsimp only at h
  rw [← List.getElem?_drop] at h
  exact startsImport_of_importLines h

/-- The place is behind the text that documents the script. -/
theorem lastLine_le_position [CharacterNames] {source : Text} {statements : List Statement}
    {first : Statement} (hparse : parse? source = some statements)
    (h : Script.documentation? statements = some first) :
    first.lastLine ≤ position source (some statements) := by
  have hlines : Text.lines source ≠ [] := by
    intro hnil
    obtain rfl : source = [] := by rw [← Text.flatten_lines source, hnil]; rfl
    rw [Script.parse?_nil] at hparse
    cases hparse
    cases h
  have hhead : first.lastLine ≤ headLines (Text.lines source) (some statements) := by
    unfold headLines
    dsimp only
    rw [Option.bind_some, h, Option.map_some, Option.getD_some]
    exact Nat.le_max_right _ _
  exact hhead.trans (headLines_le_position hlines _)

/-! ### The first word -/

/-- The white space in front of the code of a line breaks no line. -/
theorem not_break_of_takeWhile {source line cs : Text} {c : Char} (hline : line ∈ Text.lines source)
    (h : line.dropWhile Text.isSpace = c :: cs) :
    ∀ e ∈ line.takeWhile Text.isSpace, Text.isSpace e = true ∧ e ≠ '\n' ∧ e ≠ '\r' := by
  intro e he
  refine ⟨List.mem_takeWhile_imp he, ?_⟩
  obtain ⟨body, ending, hsplit, hbody, hending⟩ := Text.exists_body_of_mem_lines hline
  rw [← List.takeWhile_append_dropWhile (p := Text.isSpace) (l := line), h] at hsplit
  rcases List.append_eq_append_iff.mp hsplit with ⟨more, rfl, -⟩ | ⟨more, -, hmore⟩
  · exact hbody e (List.mem_append_left _ he)
  · have hc := Text.isEnding_of_lines hending c (by simp [hmore])
    have hspace : Text.isSpace c = true := by
      rw [Bool.or_eq_true, beq_iff_eq, beq_iff_eq] at hc
      rcases hc with rfl | rfl <;> decide
    rw [(Text.head?_trim h).2] at hspace
    cases hspace

/-- The code of a line is followed by white space, if anything follows it. -/
theorem getLast?_or_drop {source line cs : Text} {index : Nat} {c : Char}
    (hline : (Text.lines source)[index]? = some line) (h : line.dropWhile Text.isSpace = c :: cs) :
    (∃ d, (c :: cs).getLast? = some d ∧ Text.isSpace d = true) ∨
      ∀ d ∈ ((Text.lines source).drop (index + 1)).flatten, Text.isSpace d = true := by
  by_cases hmore : index + 1 < (Text.lines source).length
  · obtain ⟨d, hlast, hd⟩ := Text.isLineBreak_of_lines hline hmore
    refine .inl ⟨d, ?_, Text.isSpace_of_isLineBreak hd⟩
    rw [← hlast, ← List.takeWhile_append_dropWhile (p := Text.isSpace) (l := line), h,
      List.getLast?_append_of_ne_nil _ (List.cons_ne_nil _ _)]
  · refine .inr fun d hd => ?_
    rw [List.drop_of_length_le (by omega)] at hd
    cases hd

/-- A script that starts with an import has its keyword on its first line, if there is code on it. -/
theorem firstWord_of_importFrom [CharacterNames] {source line : Text} {index : Nat}
    {statement : Statement} {more : List Statement} {names : List Script.Alias}
    {module? : Option Text} {level : Nat} (hline : (Text.lines source)[index]? = some line)
    (hparse : parse? ((Text.lines source).drop index).flatten = some (statement :: more))
    (haction : statement.action = .importFrom level module? names) (hidle : isIdle line = false)
    (hjoined : Text.startsWith (Text.trim line) ['\\'] = false) :
    firstWord line = "from".toList := by
  have hmem := List.mem_of_getElem? hline
  rw [isIdle, Bool.or_eq_false_iff, List.isEmpty_eq_false_iff] at hidle
  obtain ⟨c, cs, hcode⟩ : ∃ c cs, line.dropWhile Text.isSpace = c :: cs := by
    refine List.exists_cons_of_ne_nil fun hnil => hidle.1 ?_
    rw [Text.trim, Text.trimBy, hnil]
    rfl
  obtain ⟨hhead, hspace⟩ := Text.head?_trim hcode
  have hne : ∀ {d : Char}, Text.startsWith (Text.trim line) [d] = false → c ≠ d := by
    rintro d hstart rfl
    obtain ⟨_, htrim⟩ := List.head?_eq_some_iff.mp hhead
    rw [htrim] at hstart
    simp [Text.startsWith] at hstart
  have hspaces : ∀ {d : Char}, Text.isSpace d = true → c ≠ d := by
    rintro d hd rfl
    rw [hd] at hspace
    cases hspace
  have hstart : Script.Lexer.startsLexeme c = true := by
    simp [Script.Lexer.startsLexeme, Script.Lexer.isCode, hspaces (d := ' ') (by decide),
      hspaces (d := '\t') (by decide), hspaces (d := '\x0c') (by decide), hspaces (d := '\n') (by decide),
      hne hidle.2, hne hjoined]
  have hrest : ((Text.lines source).drop index).flatten = line.takeWhile Text.isSpace ++
      c :: (cs ++ ((Text.lines source).drop (index + 1)).flatten) := by
    obtain ⟨hlt, hget⟩ := List.getElem?_eq_some_iff.mp hline
    rw [List.drop_eq_getElem_cons hlt, hget, List.flatten_cons, ← List.cons_append, ← hcode,
      ← List.append_assoc, List.takeWhile_append_dropWhile]
  obtain ⟨tokens, rest, n, htokens, -, -, hrun⟩ := Script.parse?_first hparse (by rw [haction]; rintro ⟨⟩)
  rw [haction] at hrun
  have hfirst : (Script.lexemes tokens).head? = some (.keyword ['f', 'r', 'o', 'm']) := by
    rw [Script.lexemes, List.head?_map]
    exact Script.Parser.first_of_importFrom hrun
  rw [hrest] at htokens
  have hword := Script.Lexer.firstWord_of_tokens? htokens hfirst (not_break_of_takeWhile hmem hcode) hstart
    (hspaces (by decide)) (by decide)
  -- The word ends on the line, and before the white space at the end of it.
  have hfrom : ∀ e ∈ ['f', 'r', 'o', 'm'], Text.isSpace e = false := Text.forall_mem_of_all (by decide)
  rw [← List.cons_append] at hword
  have hcut := Text.takeWhile_of_append hword hfrom (getLast?_or_drop hline hcode)
  rw [← Text.dropEndWhile_append_takeEndWhile Text.isSpace (c :: cs)] at hcut
  have htrim := Text.takeWhile_of_append hcut hfrom
    (.inr (List.all_eq_true.mp (Text.all_takeEndWhile Text.isSpace (c :: cs))))
  rw [firstWord, Text.trim, Text.trimBy, hcode, htrim]
  rfl

/-! ### The preamble -/

/-- Each line that ends as it does for the lexer gives a line break. -/
theorem le_count_unifyBreaks {source : Text} {index : Nat} (hle : index ≤ (Text.lines source).length)
    (hclosed : ∀ line ∈ (Text.lines source).take index, isClosed line = true) :
    index ≤ (Text.unifyBreaks ((Text.lines source).take index).flatten).count '\n' := by
  induction index with
  | zero => exact Nat.zero_le _
  | succ k ih =>
    obtain ⟨line, hline⟩ : ∃ line, (Text.lines source)[k]? = some line :=
      ⟨_, List.getElem?_eq_getElem (Nat.lt_of_succ_le hle)⟩
    have hne := Text.ne_nil_of_mem_lines (List.mem_of_getElem? hline)
    have hmem : line ∈ (Text.lines source).take (k + 1) := by
      rw [List.take_add_one, hline]
      simp
    have hends : EndsInBreak line := (isClosed_iff.mp (hclosed line hmem)).resolve_left hne
    have hmeet : MeetApart ((Text.lines source).take k).flatten line := by
      intro hlast hhead
      refine Text.lines_cut source k hlast ?_
      obtain ⟨hlt, hget⟩ := List.getElem?_eq_some_iff.mp hline
      rw [List.drop_eq_getElem_cons hlt, hget, List.flatten_cons, List.head?_append_of_ne_nil _ hne, hhead]
    have hone : 0 < (Text.unifyBreaks line).count '\n' :=
      List.count_pos_iff.mpr (List.mem_of_getLast? (Script.Lexer.getLast?_unifyBreaks hends))
    have hmore := ih (by omega) fun line hmem =>
      hclosed line (List.take_subset_take_left _ (Nat.le_succ k) hmem)
    rw [flatten_take_succ hline, Script.Lexer.unifyBreaks_append hmeet, List.count_append]
    omega

/-- There is a line behind the place if there is a statement. -/
theorem exists_line_of_parse? [CharacterNames] {source : Text} {index : Nat} {first : Statement}
    {more : List Statement}
    (h : parse? ((Text.lines source).drop index).flatten = some (first :: more)) :
    ∃ line, (Text.lines source)[index]? = some line := by
  refine ⟨_, List.getElem?_eq_getElem ?_⟩
  by_contra hge
  rw [List.drop_of_length_le (Nat.le_of_not_lt hge), List.flatten_nil, Script.parse?_nil] at h
  cases h

/-- No import from `__future__` comes first behind the place. -/
theorem isFuture_of_position [CharacterNames] {source : Text}
    {statements? : Option (List Statement)} {first : Statement} {more : List Statement}
    (hshows : showsPlace source (position source statements?) = true)
    (hright : parse? ((Text.lines source).drop (position source statements?)).flatten =
      some (first :: more)) :
    isFuture first = false := by
  by_contra hfuture
  obtain ⟨names, haction⟩ := action_of_namesFrom? (Bool.eq_true_of_not_eq_false hfuture)
  obtain ⟨line, hline⟩ := exists_line_of_parse? hright
  simp only [showsPlace, showsStart, hline, Option.all_some, Bool.and_eq_true, Bool.not_eq_true',
    Bool.or_eq_true, bne_iff_ne] at hshows
  obtain ⟨-, ⟨hidle, hjoined⟩, hstart⟩ := hshows
  have hword := firstWord_of_importFrom hline hright haction hidle hjoined
  rw [startsImport_of_position hline] at hstart
  exact hstart.elim Bool.false_ne_true fun hne => hne hword

/-- Behind lines without statements, the text that documents a script ends on a later line. -/
theorem count_lt_of_documentation? [CharacterNames] {source : Text} {index : Nat}
    {statements : List Statement} {first : Statement} (hparse : parse? source = some statements)
    (hdoc : Script.documentation? statements = some first)
    (hclosed : ((Text.lines source).take index).flatten = [] ∨
      EndsInBreak ((Text.lines source).take index).flatten)
    (hleft : parse? (Text.unifyBreaks ((Text.lines source).take index).flatten) = some [])
    (hright : ((Text.lines source).drop index).flatten ≠ []) :
    (Text.unifyBreaks ((Text.lines source).take index).flatten).count '\n' < first.lastLine := by
  obtain ⟨value, more, rfl, haction⟩ := of_documentation? hdoc
  obtain ⟨tokens, rest, n, htokens, rfl, hne, -⟩ := Script.parse?_first hparse (by rw [haction]; exact id)
  have hsource : ((Text.lines source).take index).flatten ++ ((Text.lines source).drop index).flatten =
      source := by
    rw [← List.flatten_append, List.take_append_drop, Text.flatten_lines]
  have hlines := Script.count_lt_lastLine hclosed (meetApart_lines source index) hright hleft
    (hsource ▸ htokens)
  have hlast := List.getLast?_eq_some_getLast hne
  rw [Statement.lastLine, hlast]
  exact hlines _ (List.mem_append_left _ (List.getLast_mem hne))

/-- What nothing may come before is before the place. -/
theorem preamble_before [CharacterNames] {source front : Text}
    {statements before after : List Statement} {index : Nat}
    (hparse : parse? source = some statements) (hindex : index = position source (some statements))
    (hshows : showsPlace source index = true)
    (hfront : ((Text.lines source).drop index).flatten ≠ [] → front = (Site.line index).front source)
    (hclosed : front = [] ∨ EndsInBreak front)
    (hleft : parse? (Text.unifyBreaks front) = some before)
    (hright : parse? ((Text.lines source).drop index).flatten = some after)
    (hgists : statements.map Statement.gist = (before ++ after).map Statement.gist) :
    (preamble statements).map Statement.gist <+: before.map Statement.gist := by
  have hprefix := (preamble_isPrefix statements).map Statement.gist
  by_cases hle : (preamble statements).length ≤ before.length
  · rw [hgists, List.map_append] at hprefix
    exact List.prefix_of_prefix_length_le hprefix (List.prefix_append _ _) (by simpa using hle)
  · -- Otherwise a statement of the preamble comes first behind the place.
    exfalso
    obtain ⟨statement, hstatement⟩ : ∃ statement, (preamble statements)[before.length]? = some statement :=
      ⟨_, List.getElem?_eq_getElem (Nat.lt_of_not_le hle)⟩
    have hsame : (after.map Statement.gist).head? = some statement.gist := by
      obtain ⟨tail, htail⟩ := hprefix
      have hget : ((before ++ after).map Statement.gist)[before.length]? = some statement.gist := by
        rw [← hgists, ← htail, List.getElem?_append_left (by simpa using hle), List.getElem?_map, hstatement]
        rfl
      rw [List.map_append, List.getElem?_append_right (by simp), List.length_map, Nat.sub_self] at hget
      rw [List.head?_eq_getElem?, hget]
    obtain ⟨first, more, rfl, hgist⟩ : ∃ first more, after = first :: more ∧ first.gist = statement.gist := by
      cases after with
      | nil => cases hsame
      | cons first more => exact ⟨first, more, rfl, Option.some.inj hsame⟩
    rcases preamble_cases hstatement with hfuture | ⟨hzero, hdoc⟩
    · have hno := isFuture_of_position (hindex ▸ hshows) (hindex ▸ hright)
      have haction : first.action = statement.action := congrArg Prod.fst hgist
      rw [isFuture, namesFrom?, haction, ← namesFrom?, ← isFuture, hfuture] at hno
      cases hno
    · obtain rfl := List.length_eq_zero_iff.mp hzero
      obtain ⟨line, hline⟩ := exists_line_of_parse? hright
      have hrest : ((Text.lines source).drop index).flatten ≠ [] := by
        intro hnil
        rw [hnil, Script.parse?_nil] at hright
        cases hright
      obtain rfl : front = ((Text.lines source).take index).flatten := hfront hrest
      have hlt := count_lt_of_documentation? hparse hdoc hclosed hleft hrest
      have hlast := hindex ▸ lastLine_le_position hparse hdoc
      simp only [showsPlace, hline, Option.all_some, Bool.and_eq_true, List.all_eq_true] at hshows
      have hcount := le_count_unifyBreaks (Nat.le_of_lt (List.getElem?_eq_some_iff.mp hline).1) hshows.1
      omega

/-- A new line for an import, at a place between statements where the next line shows what it is, goes
behind the text that documents the script and behind the imports from `__future__`. -/
theorem insertStatement_behind_preamble [CharacterNames] {source statement : Text} {request : Request}
    {statements : List Statement} {index : Nat} (hparse : parse? source = some statements)
    (hread : Request.read? statement = some request) (hsite : site source request = .line index)
    (hupdated : (insertStatement source statement).status = .updated)
    (hclear : (Site.line index).isClear source request = true) (hshows : showsPlace source index = true) :
    ∃ front rest before after,
      (insertStatement source statement).text = front ++ (request.text ++ ['\n'] ++ rest) ∧
      (front = [] ∨ EndsInBreak front) ∧ parse? front = some before ∧ parse? rest = some after ∧
      statements.map Statement.gist = (before ++ after).map Statement.gist ∧
      (preamble statements).map Statement.gist <+: before.map Statement.gist := by
  obtain ⟨request', hread', -, hedit⟩ := insertStatement_cases hupdated
  obtain rfl : request = request' := Option.some.inj (hread.symm.trans hread')
  generalize (insertStatement source statement).text = text at hedit
  cases hedit with
  | name hsite' => cases hsite.symm.trans hsite'
  | line hsite' =>
    cases hsite.symm.trans hsite'
    have hindex := site_eq_line hsite
    rw [hparse] at hindex
    obtain ⟨front, before, after, hinsert, hfront, hclosed, hleft, hright, hgists⟩ :=
      insertLine_parts (request.text ++ ['\n']) hclear hparse
    have hbefore := preamble_before hparse hindex hshows hfront hclosed hleft hright hgists
    obtain ⟨before', hleft', hsame⟩ := Script.parse?_of_unifyBreaks hleft
    refine ⟨front, _, before', after, hinsert, hclosed, hleft', hright, ?_, ?_⟩
    · rw [hgists, List.map_append, List.map_append, hsame]
    · rwa [hsame]

section

open scoped CharacterNames

/-- An import goes between the other imports and the code. -/
theorem insertStatement_behind_preamble_pass :
    ∃ statements front rest before after, (preamble statements).length = 1 ∧
      parse? "from __future__ import a\nimport b\npass\n".toList = some statements ∧
      "from __future__ import a\nimport b\nimport c\npass\n".toList =
        front ++ ("import c\n".toList ++ rest) ∧
      parse? front = some before ∧ parse? rest = some after ∧
      (preamble statements).map Statement.gist <+: before.map Statement.gist := by
  have hread : Request.read? "import c".toList = some (.ofModule "c".toList []) := by decide +kernel
  have htext : insertStatement "from __future__ import a\nimport b\npass\n".toList "import c".toList =
      ⟨"from __future__ import a\nimport b\nimport c\npass\n".toList, .updated⟩ := by decide +kernel
  have hsite : site "from __future__ import a\nimport b\npass\n".toList (.ofModule "c".toList []) =
      .line 2 := by
    decide +kernel
  obtain ⟨statements, hparse, hlength⟩ : ∃ statements,
      parse? "from __future__ import a\nimport b\npass\n".toList = some statements ∧
        ((preamble statements).length == 1) = true :=
    (Option.any_eq_true _ _).mp (by decide +kernel)
  obtain ⟨front, rest, before, after, heq, -, hfront, hrest, -, hprefix⟩ :=
    insertStatement_behind_preamble hparse hread hsite (by rw [htext]) (by decide +kernel) (by decide +kernel)
  rw [htext] at heq
  exact ⟨statements, front, rest, before, after, beq_iff_eq.mp hlength, hparse, heq, hfront, hrest, hprefix⟩

end

end Caret.Imports
