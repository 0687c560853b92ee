import Caret.Proofs.Script.Lexeme

/-!
# The lexer step by step

The run of the lexer as a relation: what one step does at a spot in the text, and which lexemes come of
all steps together. Neither fuel nor the numbers of lines occur in it. `Lexes` holds exactly when a run
with enough fuel gives tokens that say these lexemes, so the facts about whole texts are proved by
induction on it, one case for each kind of step.
-/

namespace Caret.Script.Lexer

/-- Where the lexer stands, whatever the number of the line. -/
structure Spot where
  rest : Text
  fresh : Bool
  levels : List Depth
  due : List Char

/-- The spot of a state. -/
def State.spot (state : State) : Spot :=
  ⟨state.rest, state.fresh, state.levels, state.due⟩

/-- The code of the line in front of the lexer starts with a character, at a depth. -/
def Leads (text : Text) (c : Char) (cs : Text) (depth : Depth) : Prop :=
  ∃ line last, leading text ⟨0, 0⟩ 0 line = some (c :: cs, depth, last)

/-- A text starts with a lexeme. -/
def Reads (text : Text) (lexeme : Lexeme) (rest : Text) : Prop :=
  ∃ line last, lexeme? text line = some (lexeme, rest, last)

/-- Only blanks are left of a text. -/
def Spent (text : Text) : Prop :=
  ∃ line found last, leading text ⟨0, 0⟩ 0 line = some ([], found, last)

/-- The brackets still to be closed after a lexeme. -/
def dueAfter (due : List Char) : Lexeme → Option (List Char)
  | .symbol symbol => bracketsAfter due symbol
  | _ => some due

/-- Whether a lexeme can start with a character. -/
def startsLexeme (c : Char) : Bool :=
  isCode c && c != '\n' && c != '#'

/-- One step of the lexer, with the lexemes that it gives. -/
inductive Step : Spot → List Lexeme → Spot → Prop
  | emptyLine {rest cs levels due depth} (hlead : Leads rest '\n' cs depth) :
      Step ⟨rest, true, levels, due⟩ [] ⟨cs, true, levels, due⟩
  | commentLine {rest cs levels due depth} (hlead : Leads rest '#' cs depth) :
      Step ⟨rest, true, levels, due⟩ [] ⟨('#' :: cs).dropWhile (· ≠ '\n'), true, levels, due⟩
  | joinedLine {rest c cs levels due depth} (hlead : Leads rest c cs depth)
      (hstart : startsLexeme c = true) (hdue : due ≠ []) :
      Step ⟨rest, true, levels, due⟩ [] ⟨c :: cs, false, levels, due⟩
  | line {rest c cs levels levels' depth changes} (hlead : Leads rest c cs depth)
      (hstart : startsLexeme c = true) (hlevels : reindent depth levels = some (changes, levels')) :
      Step ⟨rest, true, levels, []⟩ changes ⟨c :: cs, false, levels', []⟩
  | blank {c cs levels due} (hblank : c = ' ' ∨ c = '\t' ∨ c = '\x0c') :
      Step ⟨c :: cs, false, levels, due⟩ [] ⟨cs, false, levels, due⟩
  | comment {cs levels due} :
      Step ⟨'#' :: cs, false, levels, due⟩ [] ⟨('#' :: cs).dropWhile (· ≠ '\n'), false, levels, due⟩
  | lineEnd {cs levels} :
      Step ⟨'\n' :: cs, false, levels, []⟩ [.newline] ⟨cs, true, levels, []⟩
  | lineBreak {cs levels due} (hdue : due ≠ []) :
      Step ⟨'\n' :: cs, false, levels, due⟩ [] ⟨cs, true, levels, due⟩
  | splice {cs levels due} (hmore : cs ≠ []) :
      Step ⟨'\\' :: '\n' :: cs, false, levels, due⟩ [] ⟨cs, false, levels, due⟩
  | lexeme {c cs levels due due' lexeme rest} (hstart : startsLexeme c = true)
      (hread : Reads (c :: cs) lexeme rest) (hdue : dueAfter due lexeme = some due') :
      Step ⟨c :: cs, false, levels, due⟩ [lexeme] ⟨rest, false, levels, due'⟩

/-- The lexemes from a spot on. -/
inductive Lexes : Spot → List Lexeme → Prop
  | done {rest levels} (hspent : Spent rest) :
      Lexes ⟨rest, true, levels, []⟩ (levels.map fun _ => .dedent)
  | step {spot next : Spot} {out more : List Lexeme} (hstep : Step spot out next)
      (hmore : Lexes next more) : Lexes spot (out ++ more)

theorem startsLexeme_of_leads {text cs : Text} {c : Char} {depth : Depth} (h : Leads text c cs depth)
    (hbreak : c ≠ '\n') (hcomment : c ≠ '#') : startsLexeme c = true := by
  obtain ⟨line, last, hlead⟩ := h
  simp [startsLexeme, isCode_of_leading hlead, hbreak, hcomment]

/-! ### Lines -/

/-- The blanks in front of a line count their line breaks. -/
theorem leading_line {text rest : Text} {depth found : Depth} {joined line last : Nat}
    (h : leading text depth joined line = some (rest, found, last)) :
    line ≤ last ∧ last + rest.count '\n' = line + text.count '\n' := by
  fun_induction leading text depth joined line with
  | case1 => cases h; exact ⟨Nat.le_refl _, rfl⟩
  | case2 cs depth joined line ih => simpa using ih h
  | case3 cs depth joined line _ ih => simpa using ih h
  | case4 cs depth joined line _ _ ih => simpa using ih h
  | case5 depth joined line _ _ _ d more ih =>
    have hmore := ih h
    rw [List.count_cons_of_ne (by decide), List.count_cons_self]
    omega
  | case6 => cases h
  | case7 => cases h; exact ⟨Nat.le_refl _, rfl⟩

theorem line_le_of_shortString? {quote : Char} {text body rest : Text} {line last : Nat}
    (h : shortString? quote text line = some (body, rest, last)) : line ≤ last := by
  fun_induction shortString? quote text line generalizing body with
  | case1 => cases h
  | case2 => cases h; exact Nat.le_refl _
  | case3 => cases h
  | case4 => cases h; exact Nat.le_refl _
  | case5 => cases h
  | case6 d cs line _ _ ih =>
    obtain ⟨found, hfound, heq⟩ := Option.map_eq_some_iff.mp h
    cases heq
    have hle := ih hfound
    split at hle <;> omega
  | case7 c d cs line _ _ _ ih =>
    obtain ⟨found, hfound, heq⟩ := Option.map_eq_some_iff.mp h
    cases heq
    exact ih hfound

theorem line_le_of_longString? {quote : Char} {text body rest : Text} {line last : Nat}
    (h : longString? quote text line = some (body, rest, last)) : line ≤ last := by
  fun_induction longString? quote text line generalizing body with
  | case1 => cases h; exact Nat.le_refl _
  | case2 d e cs line _ ih =>
    obtain ⟨found, hfound, heq⟩ := Option.map_eq_some_iff.mp h
    cases heq
    have hle := ih hfound
    split at hle <;> omega
  | case3 c d e cs line _ _ ih =>
    obtain ⟨found, hfound, heq⟩ := Option.map_eq_some_iff.mp h
    cases heq
    have hle := ih hfound
    split at hle <;> omega
  | case4 => cases h

theorem line_le_of_string? {text body rest : Text} {line last : Nat}
    (h : string? text line = some (body, rest, last)) : line ≤ last := by
  unfold string? at h
  split at h
  · split at h
    · exact line_le_of_longString? h
    · exact line_le_of_shortString? h
  · exact line_le_of_shortString? h
  · cases h

/-- A lexeme does not end before the line on which it starts. -/
theorem line_le_of_lexeme? {text rest : Text} {lexeme : Lexeme} {line last : Nat}
    (h : lexeme? text line = some (lexeme, rest, last)) : line ≤ last := by
  cases lexeme?_eq_some_iff.mp h with
  | lettered _ _ hstring | string _ hstring => exact line_le_of_string? hstring
  | word | number | symbol => exact Nat.le_refl _

/-! ### From runs to steps -/

/-- A step from a state to the next one, with the tokens that it gives. None of them ends before the line on
which the lexer stands, and the lexer does not go back. -/
structure Goes (state : State) (out : List Token) (next : State) : Prop where
  step : Step state.spot (lexemes out) next.spot
  line_le : state.line ≤ next.line
  lastLine : ∀ token ∈ out, state.line ≤ token.lastLine

/-- A run goes on: it takes a step, and another run gives the other tokens. -/
def GoesOn (fuel : Nat) (state : State) (tokens : List Token) : Prop :=
  ∃ out next more, Goes state out next ∧ run fuel next = some more ∧ tokens = out ++ more

theorem goesOn_silent {fuel : Nat} {state next : State} {tokens : List Token}
    (hrun : run fuel next = some tokens) (hstep : Step state.spot [] next.spot)
    (hline : state.line ≤ next.line) : GoesOn fuel state tokens :=
  ⟨[], next, tokens, ⟨hstep, hline, fun _ h => absurd h List.not_mem_nil⟩, hrun, rfl⟩

theorem goesOn_single {fuel : Nat} {state next : State} {token : Token} {tokens : List Token}
    (hrun : (run fuel next).map (token :: ·) = some tokens)
    (hstep : Step state.spot [token.lexeme] next.spot) (hline : state.line ≤ next.line)
    (htoken : state.line ≤ token.lastLine) : GoesOn fuel state tokens := by
  obtain ⟨more, hmore, rfl⟩ := Option.map_eq_some_iff.mp hrun
  exact ⟨[token], next, more, ⟨hstep, hline, by simpa using htoken⟩, hmore, rfl⟩

/-- A run at the start of a line ends, with the levels that are still open, or goes on. -/
theorem run_fresh_cases {fuel line : Nat} {rest : Text} {levels : List Depth} {due : List Char}
    {tokens : List Token} (h : run (fuel + 1) ⟨rest, line, true, levels, due⟩ = some tokens) :
    (due = [] ∧ Spent rest ∧ ∃ last, line ≤ last ∧ tokens = levels.map fun _ => ⟨.dedent, last, last⟩) ∨
      GoesOn fuel ⟨rest, line, true, levels, due⟩ tokens := by
  rw [run] at h
  simp only [if_true] at h
  split at h
  · cases h
  · rename_i found last hlead
    split at h
    · rename_i hdue
      cases h
      exact .inl ⟨by simpa using hdue, ⟨line, found, last, hlead⟩, last, (leading_line hlead).1, rfl⟩
    · cases h
  rename_i c cs depth last hlead
  have hleads : Leads rest c cs depth := ⟨line, last, hlead⟩
  have hle := (leading_line hlead).1
  right
  split at h
  · rename_i hbreak
    subst hbreak
    exact goesOn_silent h (.emptyLine hleads) (Nat.le_succ_of_le hle)
  rename_i hbreak
  split at h
  · rename_i hcomment
    subst hcomment
    have hstep : Step ⟨rest, true, levels, due⟩ [] _ := .commentLine hleads
    exact goesOn_silent h hstep hle
  rename_i hcomment
  have hstart := startsLexeme_of_leads hleads hbreak hcomment
  split at h
  · rename_i hdue
    exact goesOn_silent h (.joinedLine hleads hstart (by simpa using hdue)) hle
  rename_i hdue
  obtain rfl : due = [] := by simpa using hdue
  split at h
  · cases h
  rename_i changes levels' hlevels
  obtain ⟨more, hmore, rfl⟩ := Option.map_eq_some_iff.mp h
  refine ⟨_, _, more, ⟨?_, hle, ?_⟩, hmore, rfl⟩
  · simpa [lexemes, State.spot, Function.comp_def] using Step.line hleads hstart hlevels
  · intro token htoken
    obtain ⟨change, -, rfl⟩ := List.mem_map.mp htoken
    exact hle

/-- A run inside a line goes on. -/
theorem run_within_cases {fuel line : Nat} {rest : Text} {levels : List Depth} {due : List Char}
    {tokens : List Token} (h : run (fuel + 1) ⟨rest, line, false, levels, due⟩ = some tokens) :
    GoesOn fuel ⟨rest, line, false, levels, due⟩ tokens := by
  rw [run] at h
  simp only [Bool.false_eq_true, if_false] at h
  split at h
  · cases h
  rename_i c cs
  split at h
  · rename_i hblank
    exact goesOn_silent h (.blank hblank) (Nat.le_refl _)
  rename_i hblank
  split at h
  · rename_i hcomment
    subst hcomment
    exact goesOn_silent h .comment (Nat.le_refl _)
  rename_i hcomment
  split at h
  · rename_i hbreak
    subst hbreak
    split at h
    · rename_i hdue
      obtain rfl : due = [] := by simpa using hdue
      exact goesOn_single h .lineEnd (Nat.le_succ _) (Nat.le_refl _)
    · rename_i hdue
      exact goesOn_silent h (.lineBreak (by simpa using hdue)) (Nat.le_succ _)
  rename_i hbreak
  split at h
  · rename_i hslash
    subst hslash
    split at h
    · exact goesOn_silent h (.splice (by simp)) (Nat.le_succ _)
    · cases h
  rename_i hslash
  split at h
  · cases h
  rename_i lexeme rest last hread
  split at h
  · cases h
  rename_i due' hdue
  have hstart : startsLexeme c = true := by
    simp only [not_or] at hblank
    simp [startsLexeme, isCode, hblank, hcomment, hbreak, hslash]
  have hdueAfter : dueAfter due lexeme = some due' := by cases lexeme <;> exact hdue
  have hle := line_le_of_lexeme? hread
  exact goesOn_single h (.lexeme hstart ⟨line, last, hread⟩ hdueAfter) hle hle

theorem lexes_of_run {fuel : Nat} {state : State} {tokens : List Token}
    (h : run fuel state = some tokens) : Lexes state.spot (lexemes tokens) := by
  induction fuel generalizing state tokens with
  | zero => cases h
  | succ fuel ih =>
    have hgoes : ∀ {state : State}, GoesOn fuel state tokens → Lexes state.spot (lexemes tokens) := by
      rintro state ⟨out, next, more, hgoes, hmore, rfl⟩
      rw [lexemes_append]
      exact .step hgoes.step (ih hmore)
    obtain ⟨rest, line, _ | _, levels, due⟩ := state
    · exact hgoes (run_within_cases h)
    · rcases run_fresh_cases h with ⟨rfl, hspent, last, -, rfl⟩ | hmore
      · have hdone : Lexes ⟨rest, true, levels, []⟩ _ := .done hspent
        simpa [lexemes, State.spot, Function.comp_def] using hdone
      · exact hgoes hmore

/-- No token ends before the line on which the lexer stands. -/
theorem line_le_of_run {fuel : Nat} {state : State} {tokens : List Token}
    (h : run fuel state = some tokens) :
    ∀ token ∈ tokens, state.line ≤ token.lastLine := by
  induction fuel generalizing state tokens with
  | zero => cases h
  | succ fuel ih =>
    have hgoes : ∀ {state : State}, GoesOn fuel state tokens → ∀ token ∈ tokens, state.line ≤ token.lastLine := by
      rintro state ⟨out, next, more, hgoes, hmore, rfl⟩ token htoken
      rcases List.mem_append.mp htoken with htoken | htoken
      · exact hgoes.lastLine token htoken
      · exact Nat.le_trans hgoes.line_le (ih hmore token htoken)
    obtain ⟨rest, line, _ | _, levels, due⟩ := state
    · exact hgoes (run_within_cases h)
    · rcases run_fresh_cases h with ⟨-, -, last, hle, rfl⟩ | hmore
      · intro token htoken
        obtain ⟨level, -, rfl⟩ := List.mem_map.mp htoken
        exact hle
      · exact hgoes hmore

/-- Where a lexeme starts inside a line, it is read in the next step. -/
theorem Step.reads_of_startsLexeme {c : Char} {cs : Text} {levels : List Depth} {due : List Char}
    {out : List Lexeme} {next : Spot} (h : Step ⟨c :: cs, false, levels, due⟩ out next)
    (hc : startsLexeme c = true) : ∃ lexeme, out = [lexeme] ∧ Reads (c :: cs) lexeme next.rest := by
  cases h with
  | blank hblank =>
    rcases hblank with rfl | rfl | rfl <;> exact absurd hc (by decide)
  | comment => exact absurd hc (by decide)
  | lineEnd => exact absurd hc (by decide)
  | lineBreak hdue => exact absurd hc (by decide)
  | splice hmore => exact absurd hc (by decide)
  | lexeme hstart hread hdue => exact ⟨_, rfl, hread⟩

/-! ### From steps to runs -/

theorem Leads.anyLine {text cs : Text} {c : Char} {depth : Depth} (h : Leads text c cs depth)
    (line : Nat) : ∃ last, leading text ⟨0, 0⟩ 0 line = some (c :: cs, depth, last) := by
  obtain ⟨line', last, hlead⟩ := h
  obtain ⟨raw, rfl, hmore⟩ := leading_eq_some hlead
  exact hmore cs line

theorem Spent.anyLine {text : Text} (h : Spent text) (line : Nat) :
    ∃ found last, leading text ⟨0, 0⟩ 0 line = some ([], found, last) := by
  obtain ⟨line', found, last, hlead⟩ := h
  obtain ⟨last', hlast⟩ := leading_nil_anyLine hlead line
  exact ⟨found, last', hlast⟩

theorem Leads.length_le {text cs : Text} {c : Char} {depth : Depth} (h : Leads text c cs depth) :
    cs.length < text.length := by
  obtain ⟨line, last, hlead⟩ := h
  obtain ⟨raw, rfl, -⟩ := leading_eq_some hlead
  simp only [List.length_append, List.length_cons]
  omega

theorem Reads.anyLine {text rest : Text} {lexeme : Lexeme} (h : Reads text lexeme rest) (line : Nat) :
    ∃ last, lexeme? text line = some (lexeme, rest, last) := by
  obtain ⟨line', last, hread⟩ := h
  exact lexeme?_anyLine hread line

theorem Reads.weight_le {text rest : Text} {lexeme : Lexeme} (h : Reads text lexeme rest) :
    lexeme.weight + 2 * rest.length ≤ 2 * text.length := by
  obtain ⟨line, last, hread⟩ := h
  exact weight_of_lexeme? hread

/-- What is left of a comment is shorter. -/
theorem length_dropWhile_comment (cs : Text) :
    (('#' :: cs).dropWhile (· ≠ '\n')).length ≤ cs.length := by
  rw [List.dropWhile_cons, if_pos (by decide)]
  exact (List.dropWhile_suffix _).length_le

/-- A step with fuel for it: the rest of the run goes on from the next spot. -/
theorem run_of_step {spot next : Spot} {out : List Lexeme} (h : Step spot out next) {state : State}
    (hstate : state.spot = spot) :
    ∃ state' tokens, state'.spot = next ∧ lexemes tokens = out ∧
      ∀ fuel, run (fuel + 1) state = (run fuel state').map (tokens ++ ·) := by
  have hnothing : ∀ result : Option (List Token), result = result.map (([] : List Token) ++ ·) := by
    intro result
    cases result <;> rfl
  obtain ⟨text, line, fresh, levels, due⟩ := state
  cases h with
  | emptyLine hlead =>
    cases hstate
    obtain ⟨last, hlast⟩ := hlead.anyLine line
    refine ⟨⟨_, last + 1, true, levels, due⟩, [], rfl, rfl, fun fuel => ?_⟩
    rw [run]
    simp only [if_true, hlast]
    exact hnothing _
  | commentLine hlead =>
    cases hstate
    obtain ⟨last, hlast⟩ := hlead.anyLine line
    refine ⟨⟨_, last, true, levels, due⟩, [], rfl, rfl, fun fuel => ?_⟩
    rw [run]
    simp only [if_true, hlast]
    exact hnothing _
  | joinedLine hlead hstart hdue =>
    cases hstate
    obtain ⟨last, hlast⟩ := hlead.anyLine line
    refine ⟨⟨_, last, false, levels, due⟩, [], rfl, rfl, fun fuel => ?_⟩
    simp only [startsLexeme, Bool.and_eq_true, bne_iff_ne, ne_eq] at hstart
    rw [run]
    simp only [if_true, hlast, hstart, if_false, List.isEmpty_eq_false_iff.mpr hdue, Bool.not_false]
    exact hnothing _
  | @line _ c cs _ levels' depth _ hlead hstart hlevels =>
    cases hstate
    obtain ⟨last, hlast⟩ := hlead.anyLine line
    refine ⟨⟨_, last, false, levels', []⟩, out.map (⟨·, last, last⟩), rfl, ?_, fun fuel => ?_⟩
    · simp [lexemes, Function.comp_def]
    · simp only [startsLexeme, Bool.and_eq_true, bne_iff_ne, ne_eq] at hstart
      rw [run]
      simp only [if_true, hlast, hstart, if_false, hlevels, List.isEmpty_nil, Bool.not_true,
        Bool.false_eq_true]
  | blank hblank =>
    cases hstate
    refine ⟨⟨_, line, false, levels, due⟩, [], rfl, rfl, fun fuel => ?_⟩
    rw [run]
    simp only [Bool.false_eq_true, if_false, if_pos hblank]
    exact hnothing _
  | comment =>
    cases hstate
    refine ⟨⟨_, line, false, levels, due⟩, [], rfl, rfl, fun fuel => ?_⟩
    rw [run]
    exact hnothing _
  | lineEnd =>
    cases hstate
    exact ⟨⟨_, line + 1, true, levels, []⟩, [⟨.newline, line, line⟩], rfl, rfl, fun fuel => rfl⟩
  | lineBreak hdue =>
    cases hstate
    refine ⟨⟨_, line + 1, true, levels, due⟩, [], rfl, rfl, fun fuel => ?_⟩
    obtain ⟨closer, others, rfl⟩ := List.exists_cons_of_ne_nil hdue
    rw [run]
    exact hnothing _
  | splice hmore =>
    cases hstate
    refine ⟨⟨_, line + 1, false, levels, due⟩, [], rfl, rfl, fun fuel => ?_⟩
    obtain ⟨d, more, rfl⟩ := List.exists_cons_of_ne_nil hmore
    rw [run]
    exact hnothing _
  | @lexeme c cs _ _ due' lexeme rest hstart hread hdue =>
    cases hstate
    obtain ⟨last, hlast⟩ := hread.anyLine line
    refine ⟨⟨rest, last, false, levels, due'⟩, [⟨lexeme, line, last⟩], rfl, rfl, fun fuel => ?_⟩
    simp only [startsLexeme, isCode, Bool.and_eq_true, bne_iff_ne, ne_eq] at hstart
    obtain ⟨⟨⟨⟨⟨hspace, htab⟩, hfeed⟩, hslash⟩, hbreak⟩, hcomment⟩ := hstart
    rw [run]
    simp only [Bool.false_eq_true, if_false, hspace, htab, hfeed, hslash, hbreak, hcomment, or_self,
      hlast]
    cases lexeme with
    | symbol symbol =>
      simp only [dueAfter] at hdue
      simp only [hdue]
      rfl
    | _ =>
      cases hdue
      rfl

/-- What the fuel of a run is measured against: a step passes over characters or goes from the start
of a line into it. -/
def Spot.size (spot : Spot) : Nat :=
  2 * spot.rest.length + if spot.fresh then 1 else 0

theorem Step.size_lt {spot next : Spot} {out : List Lexeme} (h : Step spot out next) :
    next.size < spot.size := by
  cases h with
  | emptyLine hlead =>
    have := hlead.length_le
    simp only [Spot.size, if_true]
    omega
  | @commentLine rest cs levels due depth hlead =>
    have hless := hlead.length_le
    have hle := length_dropWhile_comment cs
    simp only [Spot.size, if_true]
    omega
  | joinedLine hlead hstart hdue =>
    have := hlead.length_le
    simp only [Spot.size, if_true, Bool.false_eq_true, if_false, List.length_cons]
    omega
  | line hlead hstart hlevels =>
    have := hlead.length_le
    simp only [Spot.size, if_true, Bool.false_eq_true, if_false, List.length_cons]
    omega
  | blank hblank => simp [Spot.size]
  | @comment cs levels due =>
    have hle := length_dropWhile_comment cs
    simp only [Spot.size, Bool.false_eq_true, if_false, List.length_cons]
    omega
  | lineEnd | lineBreak hdue | splice hmore =>
    simp only [Spot.size, Bool.false_eq_true, if_false, if_true, List.length_cons]
    omega
  | @lexeme c cs levels due due' lexeme rest hstart hread hdue =>
    have hle := hread.weight_le
    have hone := lexeme.one_le_weight
    simp only [Spot.size, Bool.false_eq_true, if_false]
    omega

theorem run_of_lexes {spot : Spot} {found : List Lexeme} (h : Lexes spot found) {state : State}
    (hstate : state.spot = spot) {fuel : Nat} (hfuel : spot.size < fuel) :
    ∃ tokens, run fuel state = some tokens ∧ lexemes tokens = found := by
  induction h generalizing state fuel with
  | @done rest levels hspent =>
    obtain ⟨text, line, fresh, levels', due⟩ := state
    cases hstate
    obtain ⟨fuel, rfl⟩ : ∃ k, fuel = k + 1 := ⟨fuel - 1, by omega⟩
    obtain ⟨found, last, hlast⟩ := hspent.anyLine line
    refine ⟨levels'.map fun _ => ⟨.dedent, last, last⟩, ?_, by simp [lexemes]⟩
    rw [run]
    simp only [if_true, hlast, List.isEmpty_nil]
  | step hstep hmore ih =>
    obtain ⟨state', tokens, hnext, hout, hrun⟩ := run_of_step hstep hstate
    have hless := hstep.size_lt
    obtain ⟨fuel, rfl⟩ : ∃ k, fuel = k + 1 := ⟨fuel - 1, by omega⟩
    obtain ⟨more, hrest, hfound⟩ := ih hnext (show _ < fuel by omega)
    refine ⟨tokens ++ more, ?_, by rw [lexemes_append, hout, hfound]⟩
    rw [hrun, hrest]
    rfl

/-- The tokens of a text say the lexemes that the steps give. -/
theorem tokens?_iff {source : Text} {found : List Lexeme} :
    (∃ tokens, tokens? source = some tokens ∧ lexemes tokens = found) ↔
      '\x00' ∉ source ∧ Lexes ⟨prepared source, true, [], []⟩ found := by
  unfold tokens?
  by_cases hnull : '\x00' ∈ source
  · simp [hnull]
  · simp only [List.contains_iff_mem, hnull, if_false, not_false_eq_true, true_and]
    constructor
    · rintro ⟨tokens, htokens, rfl⟩
      exact lexes_of_run htokens
    · intro hlexes
      exact run_of_lexes hlexes rfl (by simp [Spot.size])

/-! ### The weight of what is read -/

theorem changes_of_shallower {depth : Depth} {levels levels' : List Depth} {changes : List Lexeme}
    (h : reindent.shallower depth levels = some (changes, levels')) :
    weight changes + levels'.length = levels.length + 1 := by
  induction levels generalizing changes levels' with
  | nil =>
    rw [reindent.shallower] at h
    split at h
    · cases h; rfl
    · cases h
  | cons level outer ih =>
    rw [reindent.shallower] at h
    split at h
    · obtain ⟨⟨closed, open_⟩, hclosed, heq⟩ := Option.map_eq_some_iff.mp h
      have hcount := ih hclosed
      cases heq
      simp only [weight_cons, Lexeme.weight, List.length_cons]
      omega
    · split at h
      · cases h
        simp [Lexeme.weight]
        omega
      · cases h

/-- A line that is not indented opens no level. -/
theorem changes_of_reindent {depth : Depth} {levels levels' : List Depth} {changes : List Lexeme}
    (h : reindent depth levels = some (changes, levels')) :
    weight changes + levels'.length ≤ levels.length + if depth.column = 0 then 0 else 2 := by
  cases levels with
  | nil =>
    rw [reindent] at h
    split at h
    · split at h
      · cases h; simp
      · cases h
    · rename_i hcolumn
      split at h
      · cases h
      · cases h
        simp [Lexeme.weight, hcolumn]
  | cons level outer =>
    rw [reindent] at h
    split at h
    · split at h
      · cases h; simp
      · cases h
    · split at h
      · rename_i hdeeper
        have hcolumn : depth.column ≠ 0 := by omega
        split at h
        · cases h
        · cases h
          simp [Lexeme.weight, hcolumn]
          omega
      · have hcount := changes_of_shallower h
        rw [List.length_cons]
        omega

theorem Leads.length_of_column {text cs : Text} {c : Char} {depth : Depth} (h : Leads text c cs depth)
    (hcolumn : depth.column ≠ 0) : (c :: cs).length < text.length := by
  obtain ⟨line, last, hlead⟩ := h
  obtain ⟨raw, rfl, -⟩ := leading_eq_some hlead
  cases raw with
  | cons d ds =>
    simp only [List.length_append, List.length_cons]
    omega
  | nil =>
    rw [List.nil_append, leading_code (isCode_of_leading hlead)] at hlead
    cases hlead
    exact absurd rfl hcolumn

/-- What a spot can still cost. -/
def Spot.load (spot : Spot) : Nat :=
  2 * spot.rest.length + spot.levels.length

theorem Step.weight_le {spot next : Spot} {out : List Lexeme} (h : Step spot out next) :
    weight out + next.load ≤ spot.load := by
  cases h with
  | emptyLine hlead =>
    have := hlead.length_le
    simp only [Spot.load, weight_nil]
    omega
  | @commentLine rest cs levels due depth hlead =>
    have hless := hlead.length_le
    have hle := length_dropWhile_comment cs
    simp only [Spot.load, weight_nil]
    omega
  | joinedLine hlead hstart hdue =>
    have := hlead.length_le
    simp only [Spot.load, weight_nil, List.length_cons]
    omega
  | @line rest c cs levels levels' depth changes hlead hstart hlevels =>
    have hless := hlead.length_le
    have hcount := changes_of_reindent hlevels
    simp only [Spot.load, List.length_cons]
    split at hcount
    · omega
    · rename_i hcolumn
      have hindent := hlead.length_of_column hcolumn
      rw [List.length_cons] at hindent
      omega
  | @comment cs levels due =>
    have hle := length_dropWhile_comment cs
    simp only [Spot.load, weight_nil, List.length_cons]
    omega
  | lineEnd =>
    simp only [Spot.load, weight_cons, weight_nil, Lexeme.weight, List.length_cons]
    omega
  | blank hblank | lineBreak hdue | splice hmore =>
    simp only [Spot.load, weight_nil, List.length_cons]
    omega
  | @lexeme c cs levels due due' lexeme rest hstart hread hdue =>
    have hle := hread.weight_le
    simp only [Spot.load, weight_cons, weight_nil]
    omega

theorem weight_of_lexes {spot : Spot} {found : List Lexeme} (h : Lexes spot found) :
    weight found ≤ spot.load := by
  induction h with
  | @done rest levels hspent =>
    have hcount : weight (levels.map fun _ => Lexeme.dedent) = levels.length := by
      induction levels with
      | nil => rfl
      | cons level levels ih =>
        simp only [List.map_cons, weight_cons, ih, Lexeme.weight, List.length_cons]
        omega
    rw [hcount]
    exact Nat.le_add_left _ _
  | step hstep hmore ih =>
    have hle := hstep.weight_le
    rw [weight_append]
    omega

theorem length_unifyBreaks_le (text : Text) : (Text.unifyBreaks text).length ≤ text.length := by
  fun_induction Text.unifyBreaks text with
  | case1 => exact Nat.le_refl _
  | case2 c => exact Nat.le_refl _
  | case3 cs ih => simp only [List.length_cons]; omega
  | case4 d cs _ ih => simp only [List.length_cons] at ih ⊢; omega
  | case5 c d cs _ ih => simp only [List.length_cons] at ih ⊢; omega

/-- The tokens of a text weigh at most twice its length and a line feed. -/
theorem weight_of_tokens? {source : Text} {tokens : List Token} (h : tokens? source = some tokens) :
    weight (lexemes tokens) ≤ 2 * source.length + 2 := by
  obtain ⟨-, hlexes⟩ := tokens?_iff.mp ⟨tokens, h, rfl⟩
  have hle := weight_of_lexes hlexes
  have hunified := length_unifyBreaks_le source
  have hprepared : (prepared source).length ≤ source.length + 1 := by
    unfold prepared
    dsimp only
    split
    · rw [List.length_append, List.length_singleton]
      omega
    · omega
  simp only [Spot.load, List.length_nil] at hle
  omega

end Caret.Script.Lexer
