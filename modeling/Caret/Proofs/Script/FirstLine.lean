import Caret.Proofs.Script.ExtendText
import Mathlib.Data.List.TakeWhile

/-!
# The first line of a script

How a script starts: the first statement starts with the first code of the text, and the lines that its
tokens stand on are counted from there.
-/

namespace Caret.Script

namespace Parser

variable {n : Nat}

/-! ### The first statement -/

theorem startsNone_of_isEnd {lexeme : Lexeme} (h : lexeme.isEnd = true) : startsNone lexeme := by
  cases lexeme with
  | newline => decide
  | symbol text =>
    obtain rfl : text = [';'] := by simpa [Lexeme.isEnd] using h
    decide
  | _ => cases h

/-- The first statement of a line is followed by something that ends it. -/
theorem exists_kept_of_simpleLine {α : Type} {p : Parser α} {k : Nat} {x rest : List Token} {a : α}
    {more : List α}
    (h : simpleLine p k x = some (a :: more, rest)) :
    ∃ token tokens, token.lexeme.isEnd = true ∧ p x = some (a, token :: tokens) := by
  cases k with
  | zero => cases h
  | succ k =>
    obtain ⟨b, ⟨newline, hnewline, hp, hfound⟩ | ⟨semicolon, newline, hsemicolon, -, hp, hfound⟩ |
      ⟨semicolon, middle, more, hsemicolon, -, hp, -, hfound⟩⟩ := simpleLine_cases h
    · cases hfound
      exact ⟨newline, rest, by rw [hnewline]; rfl, hp⟩
    · cases hfound
      exact ⟨semicolon, _, by rw [hsemicolon]; rfl, hp⟩
    · cases hfound
      exact ⟨semicolon, _, by rw [hsemicolon]; rfl, hp⟩

/-- The tokens of a program start with those of its first statement, if that holds no blocks. -/
theorem Program.first [CharacterNames] {x : List Token} {s : Statement} {more : List Statement}
    (h : Program n x (s :: more)) (hlt : weight (lexemes x) < n) (hsimple : ¬ HoldsBlocks s.action) :
    ∃ rest, x = s.tokens ++ rest ∧ s.tokens ≠ [] ∧ simpleStatement n x = some (s.action, rest) := by
  generalize hfound : s :: more = found at h
  cases h with
  | nil => cases hfound
  | @cons _ rest first others hfirst hmore =>
    obtain ⟨s', first, rfl⟩ := List.exists_cons_of_ne_nil (statement_ne_nil hfirst)
    obtain ⟨rfl, -⟩ := List.cons.inj hfound
    obtain ⟨⟨o, tokens⟩, middle, hwith, hrest⟩ := bind_eq_some hfirst
    have hcompound := withTokens_eq_some hwith
    cases o with
    | some action =>
      obtain ⟨hfound, -⟩ := Prod.mk.inj (Option.some.inj hrest)
      cases hfound
      exact absurd (Gives.compoundStatement x _ middle hcompound action rfl) hsimple
    | none =>
      obtain ⟨rfl, -⟩ :=
        (Offers.compoundStatement (Repeats.blockAt (Nat.le_refl _) (Nat.le_refl _) (Nat.le_refl _)
        (Nat.le_refl _)) (Nat.le_refl _) (Nat.le_refl _) (Nat.le_refl _)).missing x middle hlt hcompound
      obtain ⟨token, tokens, hend, hkept⟩ := exists_kept_of_simpleLine hrest
      obtain ⟨hx, -, hrun, -⟩ := keptSimple_eq_some (Nat.le_refl n) hlt hkept
      refine ⟨token :: tokens, hx, fun hnil => ?_, hrun⟩
      rw [hnil, List.nil_append] at hx
      rw [Rejects.simpleStatement (startsNone_of_isEnd hend) middle (by rw [hx]; rfl)] at hrun
      cases hrun

end Parser

namespace Lexer

open Number (continuesName)

/-! ### The first word -/

theorem leading_of_blanks {blanks : Text} (hblanks : ∀ c ∈ blanks, isBlank c = true) {c : Char}
    (hc : isCode c = true) (cs : Text) (depth : Depth) (line : Nat) :
    ∃ found, leading (blanks ++ c :: cs) depth 0 line = some (c :: cs, found, line) := by
  induction blanks generalizing depth with
  | nil => exact ⟨depth, leading_code hc cs depth 0 line⟩
  | cons blank blanks ih =>
    have hrest : ∀ c ∈ blanks, isBlank c = true := fun c hc => hblanks c (List.mem_cons_of_mem _ hc)
    have hblank : (blank = ' ' ∨ blank = '\t') ∨ blank = '\x0c' := by
      simpa [isBlank] using hblanks blank List.mem_cons_self
    rcases hblank with (rfl | rfl) | rfl
    · rw [List.cons_append, leading_space]
      exact ih hrest _
    · rw [List.cons_append, leading_tab]
      exact ih hrest _
    · rw [List.cons_append, leading_feed]
      exact ih hrest _

/-- The code of a line starts with the first character that is no blank. -/
theorem Leads.eq_of_blanks {blanks cs cs' : Text} {c c' : Char} {depth : Depth}
    (h : Leads (blanks ++ c :: cs) c' cs' depth) (hblanks : ∀ c ∈ blanks, isBlank c = true)
    (hc : isCode c = true) : c' = c ∧ cs' = cs := by
  obtain ⟨line, last, hlead⟩ := h
  obtain ⟨found, hfound⟩ := leading_of_blanks hblanks hc cs ⟨0, 0⟩ line
  rw [hlead] at hfound
  cases hfound
  exact ⟨rfl, rfl⟩

/-- A keyword is the whole word where it is read. -/
theorem Reads.takeWhile_of_keyword {text word rest : Text} (h : Reads text (.keyword word) rest) :
    text.takeWhile continuesName = word := by
  obtain ⟨line, last, h⟩ := h
  cases lexeme?_eq_some_iff.mp h with
  | word hstart hletters hword =>
    rcases wordLexeme?_eq_some hword with heq | heq
    · exact (Lexeme.keyword.inj heq).symm
    · cases heq

/-- Inside a line, a keyword that comes next stands at the front. -/
theorem Lexes.takeWhile_of_keyword {cs word : Text} {c : Char} {levels : List Depth} {due : List Char}
    {more : List Lexeme} (h : Lexes ⟨c :: cs, false, levels, due⟩ (.keyword word :: more))
    (hc : startsLexeme c = true) : (c :: cs).takeWhile continuesName = word := by
  generalize hfound : Lexeme.keyword word :: more = found at h
  cases h with
  | step hstep hmore =>
    obtain ⟨lexeme, rfl, hread⟩ := hstep.reads_of_startsLexeme hc
    cases hfound
    exact hread.takeWhile_of_keyword

/-- A text whose first lexeme is a keyword starts with it, apart from blanks. -/
theorem Lexes.takeWhile_of_first {blanks cs word : Text} {c : Char} {more : List Lexeme}
    (h : Lexes ⟨blanks ++ c :: cs, true, [], []⟩ (.keyword word :: more))
    (hblanks : ∀ c ∈ blanks, isBlank c = true) (hc : startsLexeme c = true) :
    (c :: cs).takeWhile continuesName = word := by
  have hcode : isCode c = true ∧ c ≠ '\n' ∧ c ≠ '#' := by
    simpa [startsLexeme, and_assoc] using hc
  generalize hfound : Lexeme.keyword word :: more = found at h
  generalize htext : blanks ++ c :: cs = text at h
  cases h with
  | done hspent => cases hfound
  | @step _ next out more' hstep hmore =>
    cases hstep with
    | emptyLine hlead =>
      subst htext
      exact absurd (hlead.eq_of_blanks hblanks hcode.1).1.symm hcode.2.1
    | commentLine hlead =>
      subst htext
      exact absurd (hlead.eq_of_blanks hblanks hcode.1).1.symm hcode.2.2
    | joinedLine hlead hstart hdue => exact absurd rfl hdue
    | @line _ _ _ _ levels' depth changes hlead hstart hlevels =>
      subst htext
      obtain ⟨rfl, rfl⟩ := hlead.eq_of_blanks hblanks hcode.1
      have hindent : out.head? ≠ some .indent := by
        intro hhead
        obtain ⟨_, rfl⟩ := List.head?_eq_some_iff.mp hhead
        cases hfound
      obtain ⟨-, rfl, -⟩ := reindent_nil hlevels hindent
      rw [List.nil_append] at hfound
      exact (hfound ▸ hmore).takeWhile_of_keyword hc

/-- The first word of a text is not changed when breaks are unified. -/
theorem takeWhile_unifyBreaks (text : Text) :
    (Text.unifyBreaks text).takeWhile continuesName = text.takeWhile continuesName := by
  fun_induction Text.unifyBreaks text with
  | case1 => rfl
  | case2 c =>
    by_cases hc : c = '\r'
    · rw [if_pos hc, hc]
      rfl
    · rw [if_neg hc]
  | case3 cs ih => rfl
  | case4 d cs _ ih => rfl
  | case5 c d cs _ ih => rw [List.takeWhile_cons, List.takeWhile_cons, ih]

/-- The lexer finds the first line of a text as it is written. -/
theorem exists_prepared_eq {front : Text} (hfront : ∀ d ∈ front, d ≠ '\n' ∧ d ≠ '\r') (cs : Text) :
    ∃ ds, prepared (front ++ cs) = front ++ ds ∧ ds.takeWhile continuesName = cs.takeWhile continuesName := by
  have hmeet : MeetApart front cs := fun hlast => absurd rfl (hfront _ (List.mem_of_getLast? hlast)).2
  have hunify : Text.unifyBreaks (front ++ cs) = front ++ Text.unifyBreaks cs := by
    rw [unifyBreaks_append hmeet, Text.unifyBreaks_of_not_mem fun hmem => (hfront _ hmem).2 rfl]
  unfold prepared
  dsimp only
  rw [hunify]
  split
  · refine ⟨Text.unifyBreaks cs ++ ['\n'], by rw [List.append_assoc], ?_⟩
    rw [← takeWhile_unifyBreaks cs, List.takeWhile_append]
    split
    · rename_i hlength
      rw [List.takeWhile_cons, if_neg (by decide), List.append_nil]
      exact ((List.takeWhile_prefix _).eq_of_length hlength).symm
    · rfl
  · exact ⟨Text.unifyBreaks cs, rfl, takeWhile_unifyBreaks cs⟩

/-- White space that is no blank is taken for code. -/
theorem startsLexeme_of_isSpace {c : Char} (hspace : Text.isSpace c = true) (hbreak : c ≠ '\n')
    (hblank : isBlank c = false) : startsLexeme c = true := by
  have hslash : c ≠ '\\' := by
    rintro rfl
    exact absurd hspace (by decide)
  have hcomment : c ≠ '#' := by
    rintro rfl
    exact absurd hspace (by decide)
  simp only [isBlank, Bool.or_eq_false_iff, beq_eq_false_iff_ne] at hblank
  simp [startsLexeme, isCode, hblank, hslash, hbreak, hcomment]

/-- A script whose first lexeme is a keyword starts with it, behind the white space of its first line. -/
theorem firstWord_of_tokens? {space cs word : Text} {c d : Char} {tokens : List Token}
    (h : tokens? (space ++ c :: cs) = some tokens)
    (hfirst : (lexemes tokens).head? = some (.keyword (d :: word)))
    (hspace : ∀ e ∈ space, Text.isSpace e = true ∧ e ≠ '\n' ∧ e ≠ '\r') (hc : startsLexeme c = true)
    (hreturn : c ≠ '\r') (hd : Text.isSpace d = false) : (c :: cs).takeWhile continuesName = d :: word := by
  obtain ⟨more, hmore⟩ := List.head?_eq_some_iff.mp hfirst
  obtain ⟨-, hlexes⟩ := tokens?_iff.mp ⟨tokens, h, rfl⟩
  have hfront : ∀ e ∈ space ++ [c], e ≠ '\n' ∧ e ≠ '\r' := by
    intro e he
    rcases List.mem_append.mp he with he | he
    · exact (hspace e he).2
    · obtain rfl := List.mem_singleton.mp he
      refine ⟨?_, hreturn⟩
      rintro rfl
      exact absurd hc (by decide)
  obtain ⟨ds, hprepared, hword⟩ := exists_prepared_eq hfront cs
  rw [List.append_cons, hprepared, ← List.append_cons, hmore] at hlexes
  by_cases hblanks : ∀ e ∈ space, isBlank e = true
  · rw [← hlexes.takeWhile_of_first hblanks hc, List.takeWhile_cons, List.takeWhile_cons, hword]
  · -- Other white space is no code that a word could start with.
    have hdrop : space.dropWhile isBlank ≠ [] := fun hnil => hblanks (List.dropWhile_eq_nil_iff.mp hnil)
    obtain ⟨e, others, hothers⟩ := List.exists_cons_of_ne_nil hdrop
    have hblank : isBlank e = false := by
      have hhead := List.head?_dropWhile_not isBlank space
      rw [hothers] at hhead
      simpa using hhead
    have he : e ∈ space := (List.dropWhile_suffix isBlank).subset (hothers ▸ List.mem_cons_self)
    have hsplit : space = space.takeWhile isBlank ++ e :: others := by
      rw [← hothers, List.takeWhile_append_dropWhile]
    rw [hsplit, List.append_assoc, List.cons_append] at hlexes
    have hstart := startsLexeme_of_isSpace (hspace e he).1 (hspace e he).2.1 hblank
    have hlead := List.takeWhile_prefix (l := e :: (others ++ c :: ds)) continuesName
    rw [hlexes.takeWhile_of_first (fun _ h => List.mem_takeWhile_imp h) hstart] at hlead
    rw [(List.cons_prefix_cons.mp hlead).1, (hspace e he).1] at hd
    cases hd

/-! ### Lines without code -/

/-- Where a lexeme starts, there is one. -/
theorem not_lexes_nil {c : Char} {cs : Text} {levels : List Depth} {due : List Char}
    (hc : startsLexeme c = true) : ¬ Lexes ⟨c :: cs, false, levels, due⟩ [] := by
  intro h
  generalize hfound : ([] : List Lexeme) = found at h
  cases h with
  | step hstep hmore =>
    obtain ⟨lexeme, rfl, -⟩ := hstep.reads_of_startsLexeme hc
    cases hfound

/-- Lines without code are passed over, and counted. -/
theorem run_of_idle {text : Text} (h : Lexes ⟨text, true, [], []⟩ [])
    (hend : text = [] ∨ text.getLast? = some '\n') {rest : Text} {line fuel : Nat} {tokens : List Token}
    (hrun : run fuel ⟨text ++ rest, line, true, [], []⟩ = some tokens) :
    ∃ fuel', run fuel' ⟨rest, line + text.count '\n', true, [], []⟩ = some tokens := by
  generalize hfound : ([] : List Lexeme) = found at h
  generalize hspot : (⟨text, true, [], []⟩ : Spot) = spot at h
  induction h generalizing text line fuel with
  | @done blanks levels hspent =>
    cases hspot
    obtain ⟨_, _, _, hlead⟩ := hspent
    obtain rfl : blanks = [] := hend.resolve_right (getLast?_of_leading_nil hlead)
    exact ⟨fuel, hrun⟩
  | @step spot next out more hstep hmore ih =>
    obtain ⟨rfl, rfl⟩ := List.append_eq_nil_iff.mp hfound.symm
    obtain ⟨fuel, rfl⟩ : ∃ k, fuel = k + 1 := by
      cases fuel with
      | zero => cases hrun
      | succ fuel => exact ⟨fuel, rfl⟩
    rw [run] at hrun
    cases hstep with
    | @emptyLine _ cs _ _ depth hlead =>
      cases hspot
      obtain ⟨_, _, hlead⟩ := hlead
      obtain ⟨raw, rfl, hagain⟩ := leading_eq_some hlead
      obtain ⟨last, hlast⟩ := hagain (cs ++ rest) line
      have hcount := (leading_line hlast).2
      simp only [if_true, List.append_assoc, List.cons_append, hlast] at hrun
      have hends : cs = [] ∨ cs.getLast? = some '\n' := by
        by_cases hnil : cs = []
        · exact .inl hnil
        · have hsuffix : cs <:+ raw ++ '\n' :: cs := ⟨raw ++ ['\n'], by simp⟩
          exact .inr ((getLast?_of_suffix hsuffix hnil).trans (hend.resolve_left (by simp)))
      obtain ⟨fuel', hrun'⟩ := ih hends hrun rfl rfl
      refine ⟨fuel', ?_⟩
      simp only [List.count_append, List.count_cons_self] at hcount ⊢
      rwa [show line + (raw.count '\n' + (cs.count '\n' + 1)) = last + 1 + cs.count '\n' by omega]
    | @commentLine _ cs _ _ depth hlead =>
      cases hspot
      obtain ⟨_, _, hlead⟩ := hlead
      obtain ⟨raw, rfl, hagain⟩ := leading_eq_some hlead
      obtain ⟨last, hlast⟩ := hagain (cs ++ rest) line
      have hcount := (leading_line hlast).2
      have hbreak : ('#' :: cs).getLast? = some '\n' :=
        (getLast?_of_suffix (List.suffix_append raw _) (List.cons_ne_nil _ _)).trans
          (hend.resolve_left (by simp))
      obtain ⟨hdrop, hlastBreak⟩ := dropWhile_append_of_break hbreak rest
      have hkept : (('#' :: cs).dropWhile (· ≠ '\n')).count '\n' = ('#' :: cs).count '\n' := by
        have hsplit := List.takeWhile_append_dropWhile (p := (· ≠ '\n')) (l := '#' :: cs)
        have hnone : (('#' :: cs).takeWhile (· ≠ '\n')).count '\n' = 0 := by
          refine List.count_eq_zero.mpr fun hmem => ?_
          exact absurd (List.mem_takeWhile_imp hmem) (by decide)
        have hboth := congrArg (List.count '\n') hsplit
        rw [List.count_append, hnone, Nat.zero_add] at hboth
        exact hboth
      simp only [if_true, List.append_assoc, List.cons_append, hlast] at hrun
      rw [if_neg (by decide)] at hrun
      rw [← List.cons_append, hdrop] at hrun
      obtain ⟨fuel', hrun'⟩ := ih (.inr hlastBreak) hrun rfl rfl
      refine ⟨fuel', ?_⟩
      rw [hkept] at hrun'
      rw [← List.cons_append] at hcount
      simp only [List.count_append] at hcount ⊢
      rwa [show line + (raw.count '\n' + ('#' :: cs).count '\n') = last + ('#' :: cs).count '\n' by omega]
    | joinedLine hlead hstart hdue =>
      cases hspot
      exact absurd rfl hdue
    | line hlead hstart hlevels =>
      cases hspot
      exact absurd hmore (not_lexes_nil hstart)
    | _ => cases hspot

end Lexer

open Lexer

/-- The tokens behind lines without statements do not end on these lines. -/
theorem count_lt_lastLine [CharacterNames] {left right : Text} (hend : left = [] ∨ EndsInBreak left)
    (hmeet : MeetApart left right) (hright : right ≠ [])
    (hleft : parse? (Text.unifyBreaks left) = some []) {tokens : List Token}
    (htokens : tokens? (left ++ right) = some tokens) :
    ∀ token ∈ tokens, (Text.unifyBreaks left).count '\n' < token.lastLine := by
  have hidle : Lexes ⟨Text.unifyBreaks left, true, [], []⟩ [] := by
    obtain ⟨none, hnone, hprogram⟩ := parse?_iff.mp hleft
    obtain rfl := Parser.eq_nil_of_program_nil hprogram
    obtain ⟨-, hlexes⟩ := tokens?_iff.mp ⟨[], hnone, rfl⟩
    rcases hend with rfl | hend
    · exact .done ⟨0, _, _, rfl⟩
    · rwa [prepared_unifyBreaks hend] at hlexes
  have hclosed : Text.unifyBreaks left = [] ∨ (Text.unifyBreaks left).getLast? = some '\n' := by
    rcases hend with rfl | hend
    · exact .inl rfl
    · exact .inr (getLast?_unifyBreaks hend)
  unfold tokens? at htokens
  split at htokens
  · cases htokens
  · dsimp only at htokens
    rw [prepared_append hright hmeet] at htokens
    obtain ⟨fuel, hrun⟩ := run_of_idle hidle hclosed htokens
    intro token htoken
    have hle := line_le_of_run hrun token htoken
    dsimp only at hle
    omega

/-- The first statement of a script, if it holds no blocks: what it starts with, and where it ends. -/
theorem parse?_first [CharacterNames] {source : Text} {s : Statement} {more : List Statement}
    (h : parse? source = some (s :: more)) (hsimple : ¬ Parser.HoldsBlocks s.action) :
    ∃ tokens rest n, tokens? source = some tokens ∧ tokens = s.tokens ++ rest ∧ s.tokens ≠ [] ∧
      Parser.simpleStatement n tokens = some (s.action, rest) := by
  obtain ⟨tokens, htokens, hprogram⟩ := parse?_iff.mp h
  have hlt : weight (lexemes tokens) < fuelFor source := by
    have := weight_of_tokens? htokens
    unfold fuelFor
    omega
  obtain ⟨rest, hx, hne, hrun⟩ := hprogram.first hlt hsimple
  exact ⟨tokens, rest, _, htokens, hx, hne, hrun⟩

end Caret.Script
