import Caret.Line.SearchPath
import Caret.Proofs.Text.Cut
import Caret.Proofs.Text.Parts
import Mathlib.Data.List.Forall2

/-!
# Calls that extend the search path

What a call looks like is said here by its parts, without the functions that take it apart. The search
finds every call of a text whose lines have no other use of the name that calls start with, and it takes
each directory as it stands, also one that looks like a call itself: behind a call the search goes on
after it, and before a call nothing is found, since the name cannot start in one place and end in another.
-/

namespace Caret.Line

/-! ### The parts of a call -/

/-- What every call starts with. -/
def searchPathName : Text := "sys.path.".toList

/-- Spaces and tabs. -/
def IsGap (gap : Text) : Prop :=
  ∀ c ∈ gap, Text.isBlank c = true

instance : DecidablePred IsGap :=
  fun _ => decidable_of_iff _ List.all_eq_true

/-- The part of a call before the directory: a word with a parenthesis, and for an insertion also the place,
a decimal number with or without a minus sign. -/
inductive IsOpening : Text → Prop where
  | append {gap : Text} (hgap : IsGap gap) : IsOpening ("append".toList ++ (gap ++ ['(']))
  | insert {gap beforePlace sign digits afterPlace : Text} (hgap : IsGap gap) (hbefore : IsGap beforePlace)
      (hsign : sign = [] ∨ sign = ['-']) (hne : digits ≠ []) (hdigits : ∀ c ∈ digits, Text.isDigit c = true)
      (hafter : IsGap afterPlace) :
      IsOpening ("insert".toList ++
        (gap ++ '(' :: (beforePlace ++ (sign ++ (digits ++ (afterPlace ++ [',']))))))

/-- A call that adds a directory. The directory stands between two quotes of a sort that it does not have, on
one line, and a letter may mark the sort of the text. -/
inductive IsCall : Text → Text → Prop where
  | of {opening gap mark directory ending : Text} {quote : Char} (hopening : IsOpening opening) (hgap : IsGap gap)
      (hmark : mark = [] ∨ mark = ['r'] ∨ mark = ['b'] ∨ mark = ['u']) (hquote : quote = '\'' ∨ quote = '"')
      (hdirectory : quote ∉ directory) (hline : '\n' ∉ directory) (hending : IsGap ending) :
      IsCall (searchPathName ++
        (opening ++ (gap ++ (mark ++ quote :: (directory ++ quote :: (ending ++ [')'])))))) directory

/-- The directories that a line adds: the name that calls start with comes only at the start of a call or
inside one. -/
inductive Adds : Text → List Text → Prop where
  | nothing {line : Text} (hfree : ¬ searchPathName <:+: line) : Adds line []
  | call {before call directory after : Text} {directories : List Text}
      (hbefore : ¬ searchPathName <:+: before) (hcall : IsCall call directory) (hafter : Adds after directories) :
      Adds (before ++ (call ++ after)) (directory :: directories)

/-! ### Taking a call apart -/

@[simp] theorem after?_append (start text : Text) : after? start (start ++ text) = some text := by
  rw [after?, if_pos (List.isPrefixOf_iff_prefix.mpr (List.prefix_append _ _)), List.drop_left]

@[simp] theorem after?_cons (c : Char) (text : Text) : after? [c] (c :: text) = some text :=
  after?_append [c] text

theorem after?_eq_none {start text : Text} (h : ¬ start <+: text) : after? start text = none := by
  rw [after?, if_neg (fun hstart => h (List.isPrefixOf_iff_prefix.mp hstart))]

theorem skipBlanks_append {gap rest : Text} (hgap : IsGap gap)
    (hrest : ∀ c ∈ rest.head?, Text.isBlank c = false) : skipBlanks (gap ++ rest) = rest :=
  Text.dropWhile_run hgap hrest

theorem not_isBlank_of_isDigit {c : Char} (h : Text.isDigit c = true) : Text.isBlank c = false := by
  cases hblank : Text.isBlank c with
  | false => rfl
  | true =>
    rw [Text.isBlank, Bool.or_eq_true, beq_iff_eq, beq_iff_eq] at hblank
    rcases hblank with rfl | rfl <;> exact absurd h (by decide)

theorem afterPlace?_append {sign digits rest : Text} (hsign : sign = [] ∨ sign = ['-']) (hne : digits ≠ [])
    (hdigits : ∀ c ∈ digits, Text.isDigit c = true) (hrest : ∀ c ∈ rest.head?, Text.isDigit c = false) :
    afterPlace? (sign ++ (digits ++ rest)) = some rest := by
  obtain ⟨first, more, rfl⟩ := List.exists_cons_of_ne_nil hne
  have hfirst := hdigits first List.mem_cons_self
  have hstart : (after? ['-'] (sign ++ (first :: more ++ rest))).getD (sign ++ (first :: more ++ rest)) =
      first :: more ++ rest := by
    rcases hsign with rfl | rfl
    · have hminus : ¬ ['-'] <+: first :: (more ++ rest) := by
        rw [List.cons_prefix_cons]
        rintro ⟨rfl, -⟩
        exact absurd hfirst (by decide)
      rw [List.nil_append, List.cons_append, after?_eq_none hminus, Option.getD_none]
    · rw [after?_append, Option.getD_some]
  rw [afterPlace?]
  simp only [hstart]
  rw [List.cons_append, List.head?_cons, Option.any_some, if_pos hfirst, ← List.cons_append,
    Text.dropWhile_run hdigits hrest]

/-- What starts another word does not depend on what follows it. -/
theorem not_prefix_append {word other : Text} (hlength : word.length ≤ other.length) (h : ¬ word <+: other)
    (rest : Text) : ¬ word <+: other ++ rest :=
  fun hprefix => h (List.prefix_of_prefix_length_le hprefix (List.prefix_append _ _) hlength)

theorem head?_cons_not {p : Char → Bool} {c : Char} (h : p c = false) (text : Text) :
    ∀ d ∈ (c :: text).head?, p d = false := by
  rintro d ⟨⟩
  exact h

theorem head?_append_not {p : Char → Bool} {run rest : Text} (hrun : ∀ c ∈ run, p c = false)
    (hrest : ∀ c ∈ rest.head?, p c = false) : ∀ c ∈ (run ++ rest).head?, p c = false := by
  cases run with
  | nil => exact hrest
  | cons c run => exact head?_cons_not (hrun c List.mem_cons_self) _

theorem afterOpening?_append (text : Text) :
    afterOpening? (searchPathName ++ ("append".toList ++ text)) = some text := by
  unfold afterOpening? searchPathName
  rewrite [after?_append]
  dsimp only
  rw [after?_append]

theorem afterOpening?_insert {gap beforePlace sign digits afterPlace : Text} (hgap : IsGap gap)
    (hbefore : IsGap beforePlace) (hsign : sign = [] ∨ sign = ['-']) (hne : digits ≠ [])
    (hdigits : ∀ c ∈ digits, Text.isDigit c = true) (hafter : IsGap afterPlace) (text : Text) :
    afterOpening? (searchPathName ++ ("insert".toList ++
      (gap ++ '(' :: (beforePlace ++ (sign ++ (digits ++ (afterPlace ++ ',' :: text))))))) = some text := by
  have hcomma := head?_cons_not (p := Text.isBlank) (c := ',') (by decide) text
  have hopen := head?_cons_not (p := Text.isBlank) (c := '(') (by decide)
  have hbehind : ∀ c ∈ (afterPlace ++ ',' :: text).head?, Text.isDigit c = false := by
    refine head?_append_not (fun c hc => ?_) (head?_cons_not (by decide) text)
    by_contra hdigit
    have hblank := hafter c hc
    rw [not_isBlank_of_isDigit (by simpa using hdigit)] at hblank
    cases hblank
  have hplace : ∀ c ∈ (sign ++ (digits ++ (afterPlace ++ ',' :: text))).head?, Text.isBlank c = false := by
    rcases hsign with rfl | rfl
    · obtain ⟨first, more, rfl⟩ := List.exists_cons_of_ne_nil hne
      exact head?_cons_not (not_isBlank_of_isDigit (hdigits first List.mem_cons_self)) _
    · exact head?_cons_not (by decide) _
  have hword : ∀ rest, after? "append".toList ("insert".toList ++ rest) = none :=
    fun rest => after?_eq_none (not_prefix_append (by decide) (by decide) rest)
  unfold afterOpening? searchPathName
  rewrite [after?_append]
  dsimp only
  rewrite [hword]
  dsimp only
  rw [after?_append, Option.bind_some, skipBlanks_append hgap (hopen _), after?_cons, Option.bind_some,
    skipBlanks_append hbefore hplace, afterPlace?_append hsign hne hdigits hbehind, Option.bind_some,
    skipBlanks_append hafter hcomma, after?_cons]

/-- Behind the opening of a call comes its argument, whether or not a parenthesis is left to be taken. -/
theorem IsOpening.argument {opening gap argument : Text} (hopening : IsOpening opening) (hgap : IsGap gap)
    (hblank : ∀ c ∈ argument.head?, Text.isBlank c = false) (hopen : ¬ ['('] <+: argument) :
    ∃ rest, afterOpening? (searchPathName ++ (opening ++ (gap ++ argument))) = some rest ∧
      skipBlanks ((after? ['('] (skipBlanks rest)).getD (skipBlanks rest)) = argument := by
  cases hopening with
  | @append gap' hgap' =>
    refine ⟨gap' ++ '(' :: (gap ++ argument), ?_, ?_⟩
    · have happend := afterOpening?_append (gap' ++ '(' :: (gap ++ argument))
      generalize "append".toList = word at happend ⊢
      simpa only [List.append_assoc, List.cons_append, List.nil_append] using happend
    · rw [skipBlanks_append hgap' (head?_cons_not (by decide) _), after?_cons, Option.getD_some,
        skipBlanks_append hgap hblank]
  | insert hgap' hbefore hsign hne hdigits hafter =>
    refine ⟨gap ++ argument, ?_, ?_⟩
    · have hinsert := afterOpening?_insert hgap' hbefore hsign hne hdigits hafter (gap ++ argument)
      generalize "insert".toList = word at hinsert ⊢
      simpa only [List.append_assoc, List.cons_append, List.nil_append] using hinsert
    · rw [skipBlanks_append hgap hblank, after?_eq_none hopen, Option.getD_none]
      exact skipBlanks_append (List.forall_mem_nil _) hblank

/-- A directory goes up to the first quote of its sort. -/
theorem quotedDirectory?_append {quote : Char} {directory ending : Text} (hdirectory : quote ∉ directory)
    (hline : '\n' ∉ directory) (hending : IsGap ending) (rest : Text) :
    quotedDirectory? quote (directory ++ quote :: (ending ++ ')' :: rest)) = some (directory, rest) := by
  induction directory with
  | nil =>
    rw [List.nil_append, quotedDirectory?, if_pos rfl,
      skipBlanks_append hending (head?_cons_not (by decide) rest), after?_cons]
  | cons c directory ih =>
    rw [List.mem_cons, not_or] at hdirectory hline
    rw [List.cons_append, quotedDirectory?, if_neg (Ne.symm hdirectory.1)]
    dsimp only
    rw [if_neg (Ne.symm hline.1), ih hdirectory.2 hline.2, Option.map_some]

/-- A call at the front of a text is taken as a whole. -/
theorem IsCall.searchPathCall? {call directory : Text} (h : IsCall call directory) (rest : Text) :
    searchPathCall? (call ++ rest) = some (directory, rest) := by
  cases h with
  | @of opening gap mark _ ending quote hopening hgap hmark hquote hdirectory hline hending =>
    have hquoted := quotedDirectory?_append hdirectory hline hending rest
    generalize hbody : directory ++ quote :: (ending ++ ')' :: rest) = body at hquoted
    have hblank : ∀ c ∈ (mark ++ quote :: body).head?, Text.isBlank c = false := by
      rcases hmark with rfl | rfl | rfl | rfl <;> rcases hquote with rfl | rfl <;>
        exact head?_cons_not (by decide) _
    have hopen : ¬ ['('] <+: mark ++ quote :: body := by
      rcases hmark with rfl | rfl | rfl | rfl <;> rcases hquote with rfl | rfl <;>
        simp [List.cons_prefix_cons]
    obtain ⟨after, hafter, hargument⟩ := hopening.argument hgap hblank hopen
    have htext : searchPathName ++ (opening ++ (gap ++ (mark ++ quote :: (directory ++ quote ::
        (ending ++ [')']))))) ++ rest = searchPathName ++ (opening ++ (gap ++ (mark ++ quote :: body))) := by
      simp [← hbody]
    rw [htext, Line.searchPathCall?, hafter]
    dsimp only
    rw [hargument]
    rcases hmark with rfl | rfl | rfl | rfl <;> rcases hquote with rfl | rfl <;> exact hquoted

/-! ### The search -/

theorem searchPathCall?_eq_none {text : Text} (h : ¬ searchPathName <+: text) : searchPathCall? text = none := by
  have hnone : after? "sys.path.".toList text = none := after?_eq_none h
  rw [searchPathCall?, afterOpening?, hnone]

theorem searchPathFrom_skip (skip : Nat) (text : Text) :
    searchPathFrom skip text = searchPathFrom 0 (text.drop skip) := by
  induction text generalizing skip with
  | nil => cases skip <;> rfl
  | cons c cs ih =>
    cases skip with
    | zero => rfl
    | succ k => exact ih k

/-- The search goes on behind a call. -/
theorem IsCall.searchPathFrom {call directory : Text} (h : IsCall call directory) (rest : Text) :
    searchPathFrom 0 (call ++ rest) = directory :: searchPathFrom 0 rest := by
  have hcall := h.searchPathCall? rest
  have hne : call ≠ [] := by
    cases h
    exact List.append_ne_nil_of_left_ne_nil (by decide) _
  obtain ⟨c, cs, rfl⟩ := List.exists_cons_of_ne_nil hne
  rw [List.cons_append] at hcall ⊢
  rw [Line.searchPathFrom, hcall]
  dsimp only
  rw [searchPathFrom_skip, List.length_append, Nat.add_sub_cancel, List.drop_left]

/-- A text does not start with the rest of the name that calls start with. -/
def StartsApart (text : Text) : Prop :=
  ∀ start rest, start ≠ [] → rest ≠ [] → searchPathName = start ++ rest → ¬ rest <+: text

theorem startsApart_nil : StartsApart [] :=
  fun _ _ _ hne _ hprefix => hne (List.prefix_nil.mp hprefix)

theorem startsApart_newline (text : Text) : StartsApart ('\n' :: text) := by
  intro start rest _ hne hname hprefix
  obtain ⟨c, cs, rfl⟩ := List.exists_cons_of_ne_nil hne
  have hmem : c ∈ searchPathName := by simp [hname]
  rw [(List.cons_prefix_cons.mp hprefix).1] at hmem
  exact absurd hmem (by decide)

/-- The name that calls start with does not overlap itself. -/
theorem startsApart_name (text : Text) : StartsApart (searchPathName ++ text) := by
  intro start rest hstart hne hname hprefix
  have hlength := congrArg List.length hname
  have hpositive := List.length_pos_iff.mpr hstart
  rw [List.length_append] at hlength
  have hborder : ∀ tail ∈ searchPathName.tails, tail <+: searchPathName →
      tail = [] ∨ tail = searchPathName := by
    decide
  have hshort := List.prefix_of_prefix_length_le hprefix (List.prefix_append _ _) (by omega)
  rcases hborder rest ((List.mem_tails _ _).mpr ⟨start, hname.symm⟩) hshort with hnil | hall
  · exact hne hnil
  · rw [hall] at hlength
    omega

theorem IsCall.startsApart {call directory : Text} (h : IsCall call directory) (rest : Text) :
    StartsApart (call ++ rest) := by
  cases h
  rw [List.append_assoc]
  exact startsApart_name _

theorem searchPathFrom_cons {c : Char} {text : Text} (h : ¬ searchPathName <+: c :: text) :
    searchPathFrom 0 (c :: text) = searchPathFrom 0 text := by
  rw [searchPathFrom, searchPathCall?_eq_none h]

/-- Nothing is found in a text without the name that calls start with. -/
theorem searchPathFrom_of_free {front rest : Text} (hfree : ¬ searchPathName <:+: front)
    (hrest : StartsApart rest) : searchPathFrom 0 (front ++ rest) = searchPathFrom 0 rest := by
  induction front with
  | nil => rfl
  | cons c front ih =>
    have hstart : ¬ searchPathName <+: c :: (front ++ rest) := by
      rintro ⟨more, hmore⟩
      rw [← List.cons_append] at hmore
      rcases List.append_eq_append_iff.mp hmore with ⟨between, hfront, -⟩ | ⟨between, hname, hbetween⟩
      · exact hfree (hfront ▸ (List.prefix_append _ _).isInfix)
      · by_cases hnil : between = []
        · rw [hnil, List.append_nil] at hname
          exact hfree (hname ▸ List.infix_rfl)
        · exact hrest _ between (List.cons_ne_nil _ _) hnil hname ⟨more, hbetween.symm⟩
    rw [List.cons_append, searchPathFrom_cons hstart]
    exact ih fun hinside => hfree (hinside.trans (List.infix_cons List.infix_rfl))

/-- What a line adds is found, whatever comes behind the line. -/
theorem Adds.searchPathFrom {line : Text} {directories : List Text} (h : Adds line directories) {rest : Text}
    (hrest : StartsApart rest) : searchPathFrom 0 (line ++ rest) = directories ++ searchPathFrom 0 rest := by
  induction h with
  | nothing hfree => exact searchPathFrom_of_free hfree hrest
  | call hbefore hcall _ ih =>
    rw [List.append_assoc, List.append_assoc, searchPathFrom_of_free hbefore (hcall.startsApart _),
      hcall.searchPathFrom, ih, List.cons_append]

/-- All directories are found that the lines of a text add, in order and as they are written. -/
theorem searchPath_lines {lines : List Text} {found : List (List Text)} (h : List.Forall₂ Adds lines found) :
    searchPath (Text.join ['\n'] lines) = found.flatten := by
  rw [searchPath]
  induction h with
  | nil => rfl
  | @cons line directories lines found hline hlines ih =>
    rw [List.flatten_cons, ← ih]
    by_cases hlast : lines = []
    · rw [hlast]
      simpa using hline.searchPathFrom startsApart_nil
    · have hbreak : ¬ searchPathName <+: '\n' :: Text.join ['\n'] lines := by
        intro hprefix
        have hfirst := List.prefix_of_prefix_length_le (List.prefix_append ['\n'] _) hprefix (by decide)
        exact absurd hfirst (by decide)
      rw [Text.join_cons _ _ hlast, List.append_assoc, List.singleton_append,
        hline.searchPathFrom (startsApart_newline _), searchPathFrom_cons hbreak]

/-- A directory that looks like a call itself is taken as it stands. -/
theorem searchPath_lines_nested :
    List.Forall₂ Adds
        ["import sys".toList, "sys.path.append( r\"sys.path.append('a')\" )".toList,
          "sys.path.insert(-1, 'b')".toList]
        [[], ["sys.path.append('a')".toList], ["b".toList]] ∧
      searchPath "import sys\nsys.path.append( r\"sys.path.append('a')\" )\nsys.path.insert(-1, 'b')".toList =
        ["sys.path.append('a')".toList, "b".toList] := by
  have happend : IsOpening "append(".toList := @IsOpening.append [] (by decide)
  have hinsert : IsOpening "insert(-1,".toList :=
    @IsOpening.insert [] [] ['-'] ['1'] [] (by decide) (by decide) (by decide) (by decide)
      (Text.forall_mem_of_all (by decide)) (by decide)
  have hnested : IsCall "sys.path.append( r\"sys.path.append('a')\" )".toList "sys.path.append('a')".toList :=
    @IsCall.of _ [' '] ['r'] "sys.path.append('a')".toList [' '] '"' happend (by decide) (by decide) (by decide)
      (by decide) (by decide) (by decide)
  have hplain : IsCall "sys.path.insert(-1, 'b')".toList "b".toList :=
    @IsCall.of _ [' '] [] "b".toList [] '\'' hinsert (by decide) (by decide) (by decide) (by decide) (by decide)
      (by decide)
  have hempty : Adds [] [] := .nothing (by decide)
  have hlines : List.Forall₂ Adds
      ["import sys".toList, "sys.path.append( r\"sys.path.append('a')\" )".toList,
        "sys.path.insert(-1, 'b')".toList]
      [[], ["sys.path.append('a')".toList], ["b".toList]] :=
    .cons (.nothing (by decide)) (.cons (@Adds.call [] _ _ [] _ (by decide) hnested hempty)
      (.cons (@Adds.call [] _ _ [] _ (by decide) hplain hempty) .nil))
  have hfound := searchPath_lines hlines
  refine ⟨hlines, Eq.trans (congrArg searchPath ?_) hfound⟩
  decide

end Caret.Line
