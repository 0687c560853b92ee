import Caret.Proofs.Script.Lexing
import Caret.Proofs.Script.Program
import Caret.Proofs.Text.Cut
import Caret.Proofs.Text.Lines

/-!
# Two texts one after the other

Where a text ends with its line, a text that follows it is cut into tokens as it is by itself: lines
are complete, no bracket is open, and the levels that are still open are closed by the first line that
follows, just as the end of the text would close them. So the statements of two scripts together are
those of the first and those of the second.
-/

namespace Caret.Script.Lexer

/-! ### Steps before another text -/

theorem Leads.append {text cs : Text} {c : Char} {depth : Depth} (h : Leads text c cs depth)
    (more : Text) : Leads (text ++ more) c (cs ++ more) depth := by
  obtain ⟨line, last, hlead⟩ := h
  obtain ⟨raw, rfl, hmore⟩ := leading_eq_some hlead
  obtain ⟨last', hlast⟩ := hmore (cs ++ more) line
  exact ⟨line, last', by rw [List.append_assoc, List.cons_append]; exact hlast⟩

theorem Leads.suffix {text cs : Text} {c : Char} {depth : Depth} (h : Leads text c cs depth) :
    c :: cs <:+ text := by
  obtain ⟨line, last, hlead⟩ := h
  obtain ⟨raw, rfl, -⟩ := leading_eq_some hlead
  exact List.suffix_append raw _

theorem Reads.before_stop {text rest : Text} {lexeme : Lexeme} (h : Reads (text ++ ['\n']) lexeme rest) :
    ∃ before, rest = before ++ ['\n'] ∧ ∀ stop more, isStop stop = true →
      Reads (text ++ stop :: more) lexeme (before ++ stop :: more) := by
  obtain ⟨line, last, hread⟩ := h
  obtain ⟨before, rfl, hbefore⟩ := lexeme?_before_stop hread
  exact ⟨before, rfl, fun stop more hstop =>
    have ⟨last', hlast⟩ := hbefore stop more line hstop
    ⟨line, last', hlast⟩⟩

/-- A text ends with its line: with a line feed, or in front of a new line with nothing. -/
def Spot.endsLine (spot : Spot) : Prop :=
  spot.rest.getLast? = some '\n' ∨ (spot.rest = [] ∧ spot.fresh = true)

theorem getLast?_of_suffix {text rest : Text} (h : rest <:+ text) (hne : rest ≠ []) :
    rest.getLast? = text.getLast? := by
  obtain ⟨before, rfl⟩ := h
  rw [List.getLast?_append_of_ne_nil _ hne]

theorem dropWhile_append_of_break {cs : Text} (h : cs.getLast? = some '\n') (more : Text) :
    (cs ++ more).dropWhile (· ≠ '\n') = cs.dropWhile (· ≠ '\n') ++ more ∧
      (cs.dropWhile (· ≠ '\n')).getLast? = some '\n' := by
  obtain ⟨before, rfl⟩ := List.getLast?_eq_some_iff.mp h
  have hstop : (decide ('\n' ≠ '\n')) = false := by decide
  rw [List.append_assoc, List.singleton_append, dropWhile_append_stop hstop, dropWhile_append_stop hstop]
  simp

theorem Step.append {text : Text} {fresh : Bool} {levels : List Depth} {due : List Char}
    {out : List Lexeme} {next : Spot} (h : Step ⟨text, fresh, levels, due⟩ out next)
    (hend : text.getLast? = some '\n') (more : Text) :
    Step ⟨text ++ more, fresh, levels, due⟩ out { next with rest := next.rest ++ more } ∧
      next.endsLine := by
  have hcode : ∀ {c cs depth}, Leads text c cs depth → (c :: cs).getLast? = some '\n' :=
    fun hlead => (getLast?_of_suffix hlead.suffix (by simp)).trans hend
  have hmore : ∀ {c : Char} {cs : Text}, (c :: cs).getLast? = some '\n' → c ≠ '\n' →
      cs.getLast? = some '\n' := by
    intro c cs hlast hne
    cases cs with
    | nil => exact absurd (by simpa using hlast) hne
    | cons d ds => rwa [List.getLast?_cons_cons] at hlast
  have hafter : ∀ {c : Char} {cs : Text}, (c :: cs).getLast? = some '\n' →
      cs.getLast? = some '\n' ∨ (cs = [] ∧ true = true) := by
    intro c cs hlast
    cases cs with
    | nil => exact .inr ⟨rfl, rfl⟩
    | cons d ds => exact .inl (by rwa [List.getLast?_cons_cons] at hlast)
  cases h with
  | emptyLine hlead => exact ⟨.emptyLine (hlead.append more), hafter (hcode hlead)⟩
  | @commentLine _ cs _ _ _ hlead =>
    obtain ⟨hdrop, hlast⟩ := dropWhile_append_of_break (hcode hlead) more
    refine ⟨?_, .inl hlast⟩
    rw [← hdrop]
    exact .commentLine (hlead.append more)
  | joinedLine hlead hstart hdue => exact ⟨.joinedLine (hlead.append more) hstart hdue, .inl (hcode hlead)⟩
  | line hlead hstart hlevels => exact ⟨.line (hlead.append more) hstart hlevels, .inl (hcode hlead)⟩
  | blank hblank =>
    refine ⟨.blank hblank, .inl (hmore hend ?_)⟩
    rintro rfl
    revert hblank
    decide
  | @comment cs =>
    obtain ⟨hdrop, hlast⟩ := dropWhile_append_of_break hend more
    refine ⟨?_, .inl hlast⟩
    rw [← hdrop]
    exact .comment
  | lineEnd => exact ⟨.lineEnd, hafter hend⟩
  | lineBreak hdue => exact ⟨.lineBreak hdue, hafter hend⟩
  | @splice cs _ _ hne =>
    refine ⟨.splice (by simp [hne]), .inl ?_⟩
    rw [← hend]
    exact getLast?_of_suffix (List.suffix_append ['\\', '\n'] cs) hne
  | @lexeme c cs _ _ due' lexeme rest hstart hread hdue =>
    obtain ⟨before, hbefore⟩ := List.getLast?_eq_some_iff.mp hend
    rw [hbefore] at hread
    obtain ⟨before', rfl, hagain⟩ := hread.before_stop
    refine ⟨?_, .inl (by simp)⟩
    have hread' : Reads (c :: cs ++ more) lexeme (before' ++ ['\n'] ++ more) := by
      rw [hbefore, List.append_assoc, List.append_assoc]
      exact hagain '\n' more (by decide)
    exact .lexeme hstart hread' hdue

/-! ### Levels of indentation -/

/-- Every open level is indented. -/
def Indented (levels : List Depth) : Prop :=
  ∀ level ∈ levels, 0 < level.column

theorem Indented.tail {level : Depth} {levels : List Depth} (h : Indented (level :: levels)) :
    Indented levels :=
  fun l hl => h l (List.mem_cons_of_mem _ hl)

theorem shallower_suffix {depth : Depth} {levels levels' : List Depth} {changes : List Lexeme}
    (h : reindent.shallower depth levels = some (changes, levels')) : levels' <:+ levels := by
  induction levels generalizing changes levels' with
  | nil =>
    rw [reindent.shallower] at h
    split at h
    · cases h
      exact List.suffix_refl _
    · cases h
  | cons level outer ih =>
    rw [reindent.shallower] at h
    split at h
    · obtain ⟨⟨closed, levels''⟩, hclosed, heq⟩ := Option.map_eq_some_iff.mp h
      cases heq
      exact (ih hclosed).trans (List.suffix_cons _ _)
    · split at h
      · cases h
        exact List.suffix_refl _
      · cases h

theorem indented_of_reindent {depth : Depth} {levels levels' : List Depth} {changes : List Lexeme}
    (h : reindent depth levels = some (changes, levels')) (hlevels : Indented levels) :
    Indented levels' := by
  cases levels with
  | nil =>
    rw [reindent] at h
    split at h
    · split at h
      · cases h
        exact hlevels
      · cases h
    · rename_i hcolumn
      split at h
      · cases h
      · cases h
        simpa [Indented] using Nat.pos_of_ne_zero hcolumn
  | cons level outer =>
    rw [reindent] at h
    split at h
    · split at h
      · cases h
        exact hlevels
      · cases h
    · split at h
      · rename_i hdeeper
        split at h
        · cases h
        · cases h
          intro l hl
          rcases List.mem_cons.mp hl with rfl | hl
          · exact Nat.lt_of_le_of_lt (Nat.zero_le _) hdeeper
          · exact hlevels l hl
      · exact fun l hl => hlevels l (List.mem_cons_of_mem _ ((shallower_suffix h).subset hl))

theorem Step.indented {spot next : Spot} {out : List Lexeme} (h : Step spot out next)
    (hlevels : Indented spot.levels) : Indented next.levels := by
  cases h with
  | line hlead hstart hreindent => exact indented_of_reindent hreindent hlevels
  | _ => exact hlevels

theorem shallower_zero {levels : List Depth} (hlevels : Indented levels) :
    reindent.shallower ⟨0, 0⟩ levels = some (.dedent :: levels.map fun _ => .dedent, []) := by
  induction levels with
  | nil => rfl
  | cons level outer ih =>
    rw [reindent.shallower, if_pos (hlevels level (by simp)), ih hlevels.tail]
    rfl

/-- A line that is not indented closes all levels. -/
theorem reindent_zero {levels : List Depth} (hlevels : Indented levels) :
    reindent ⟨0, 0⟩ levels = some (levels.map fun _ => .dedent, []) := by
  cases levels with
  | nil => rfl
  | cons level outer =>
    have hpos := hlevels level (by simp)
    rw [reindent, if_neg (Nat.ne_of_lt hpos), if_neg (Nat.not_lt_zero _), shallower_zero hlevels.tail]
    rfl

theorem reindent_nil {depth : Depth} {levels : List Depth} {changes : List Lexeme}
    (h : reindent depth [] = some (changes, levels)) (hindent : changes.head? ≠ some .indent) :
    depth = ⟨0, 0⟩ ∧ changes = [] ∧ levels = [] := by
  obtain ⟨column, narrow⟩ := depth
  rw [reindent] at h
  split at h
  · rename_i hcolumn
    split at h
    · rename_i hnarrow
      cases h
      exact ⟨by rw [show column = 0 from hcolumn, show narrow = 0 from hnarrow], rfl, rfl⟩
    · cases h
  · split at h
    · cases h
    · cases h
      exact absurd rfl hindent

/-- The first line of a text closes the levels that are open before it, as the end of the text
would. -/
theorem Lexes.closing {text : Text} {found : List Lexeme} (h : Lexes ⟨text, true, [], []⟩ found)
    (hindent : found.head? ≠ some .indent) {levels : List Depth} (hlevels : Indented levels) :
    Lexes ⟨text, true, levels, []⟩ ((levels.map fun _ => .dedent) ++ found) := by
  generalize hspot : (⟨text, true, [], []⟩ : Spot) = spot at h
  induction h generalizing text with
  | done hspent =>
    cases hspot
    simpa using Lexes.done hspent
  | @step _ _ out more hstep hmore ih =>
    cases hstep with
    | emptyLine hlead =>
      cases hspot
      have hnext := Lexes.step (.emptyLine hlead) (ih hindent rfl)
      exact hnext
    | commentLine hlead =>
      cases hspot
      have hnext := Lexes.step (.commentLine hlead) (ih hindent rfl)
      exact hnext
    | joinedLine hlead hstart hdue =>
      cases hspot
      exact absurd rfl hdue
    | line hlead hstart hreindent =>
      cases hspot
      have hchanges : out.head? ≠ some .indent := by
        cases out with
        | nil => simp
        | cons lexeme out => exact hindent
      obtain ⟨rfl, rfl, rfl⟩ := reindent_nil hreindent hchanges
      exact .step (.line hlead hstart (reindent_zero hlevels)) hmore
    | _ => cases hspot

theorem Step.rest_ne_nil {spot next : Spot} {out : List Lexeme} (h : Step spot out next) :
    spot.rest ≠ [] := by
  have hlead : ∀ {rest c cs depth}, Leads rest c cs depth → rest ≠ [] := by
    rintro rest c cs depth hlead rfl
    exact absurd hlead.length_le (Nat.not_lt_zero _)
  cases h with
  | emptyLine h => exact hlead h
  | commentLine h => exact hlead h
  | joinedLine h => exact hlead h
  | line h => exact hlead h
  | _ => simp

theorem Lexes.append {spot : Spot} {left right : List Lexeme} {more : Text} (h : Lexes spot left)
    (hend : spot.endsLine) (hlevels : Indented spot.levels)
    (hmore : Lexes ⟨more, true, [], []⟩ right) (hindent : right.head? ≠ some .indent) :
    Lexes { spot with rest := spot.rest ++ more } (left ++ right) := by
  induction h with
  | @done rest levels hspent =>
    obtain ⟨line, found, last, hleading⟩ := hspent
    have hnil : rest = [] := hend.elim (fun h => absurd h (getLast?_of_leading_nil hleading)) (·.1)
    subst hnil
    exact hmore.closing hindent hlevels
  | @step spot next out found hstep _ ih =>
    have htext : spot.rest.getLast? = some '\n' := hend.resolve_right fun h => hstep.rest_ne_nil h.1
    obtain ⟨hstep', hend'⟩ := Step.append hstep htext more
    rw [List.append_assoc]
    exact .step hstep' (ih hend' (hstep.indented hlevels))

/-! ### Line breaks -/

/-- Two texts do not meet in the middle of a line break. -/
def MeetApart (left right : Text) : Prop :=
  left.getLast? = some '\r' → right.head? ≠ some '\n'

theorem MeetApart.tail {c : Char} {cs right : Text} (h : MeetApart (c :: cs) right) :
    MeetApart cs right := by
  intro hlast
  cases cs with
  | nil => cases hlast
  | cons d ds => exact h (by rwa [List.getLast?_cons_cons])

theorem unifyBreaks_return {cs : Text} (hcs : cs.head? ≠ some '\n') :
    Text.unifyBreaks ('\r' :: cs) = '\n' :: Text.unifyBreaks cs := by
  cases cs with
  | nil => rfl
  | cons d ds =>
    have hd : d ≠ '\n' := fun h => hcs (by rw [h]; rfl)
    rw [Text.unifyBreaks, if_pos rfl, if_neg hd]

theorem unifyBreaks_append {left right : Text} (h : MeetApart left right) :
    Text.unifyBreaks (left ++ right) = Text.unifyBreaks left ++ Text.unifyBreaks right := by
  fun_induction Text.unifyBreaks left with
  | case1 => rfl
  | case2 c =>
    by_cases hc : c = '\r'
    · subst hc
      exact unifyBreaks_return (h rfl)
    · rw [List.singleton_append, Text.unifyBreaks_cons hc, if_neg hc]
      rfl
  | case3 cs ih =>
    rw [List.cons_append, List.cons_append, Text.unifyBreaks, if_pos rfl, if_pos rfl, ih h.tail.tail]
    rfl
  | case4 d cs hd ih =>
    rw [List.cons_append, unifyBreaks_return (by simpa using hd), ih h.tail]
    rfl
  | case5 c d cs hc ih =>
    rw [List.cons_append, Text.unifyBreaks_cons hc, ih h.tail]
    rfl

theorem unifyBreaks_ne_nil {text : Text} (h : text ≠ []) : Text.unifyBreaks text ≠ [] := by
  fun_induction Text.unifyBreaks text with
  | case1 => exact absurd rfl h
  | _ => simp

theorem mem_unifyBreaks {c : Char} (hc : c ≠ '\n') (hc' : c ≠ '\r') (text : Text) :
    c ∈ Text.unifyBreaks text ↔ c ∈ text := by
  fun_induction Text.unifyBreaks text with
  | case1 => rfl
  | case2 d =>
    by_cases hd : d = '\r'
    · simp [hd, hc, hc']
    · simp [hd]
  | case3 cs ih => simp [hc, hc', ih]
  | case4 d cs _ ih => simp [hc, hc', ih]
  | case5 d e cs _ ih => simp [ih]

theorem not_return_mem_unifyBreaks (text : Text) : '\r' ∉ Text.unifyBreaks text := by
  fun_induction Text.unifyBreaks text with
  | case1 => simp
  | case2 c =>
    by_cases hc : c = '\r'
    · simp [hc]
    · simpa [hc] using Ne.symm hc
  | case3 cs ih => simpa using ih
  | case4 d cs _ ih => simpa using ih
  | case5 c d cs hc ih => simpa using ⟨Ne.symm hc, by simpa using ih⟩

/-- A text that ends with a line break. -/
def EndsInBreak (text : Text) : Prop :=
  text.getLast? = some '\n' ∨ text.getLast? = some '\r'

theorem EndsInBreak.tail {c : Char} {cs : Text} (h : EndsInBreak (c :: cs)) (hne : cs ≠ []) :
    EndsInBreak cs := by
  unfold EndsInBreak
  rwa [getLast?_of_suffix (List.suffix_cons c cs) hne]

theorem getLast?_unifyBreaks {text : Text} (h : EndsInBreak text) :
    (Text.unifyBreaks text).getLast? = some '\n' := by
  have hcons : ∀ {c : Char} {cs : Text}, cs ≠ [] → (Text.unifyBreaks cs).getLast? = some '\n' →
      (c :: Text.unifyBreaks cs).getLast? = some '\n' := by
    intro c cs hne hlast
    rwa [← getLast?_of_suffix (List.suffix_cons _ _) (unifyBreaks_ne_nil hne)]
  fun_induction Text.unifyBreaks text with
  | case1 => simp [EndsInBreak] at h
  | case2 c =>
    by_cases hc : c = '\r'
    · simp [hc]
    · simpa [EndsInBreak, hc] using h
  | case3 cs ih =>
    cases cs with
    | nil => rfl
    | cons d ds => exact hcons (by simp) (ih ((h.tail (by simp)).tail (by simp)))
  | case4 d cs _ ih => exact hcons (by simp) (ih (h.tail (by simp)))
  | case5 c d cs _ ih => exact hcons (by simp) (ih (h.tail (by simp)))

theorem endsWith_append {left right finish : Text} (h : finish.length ≤ right.length) :
    Text.endsWith (left ++ right) finish = Text.endsWith right finish := by
  rw [Bool.eq_iff_iff, Text.endsWith_iff, Text.endsWith_iff]
  constructor
  · intro hsuffix
    exact List.suffix_of_suffix_length_le hsuffix (List.suffix_append _ _) h
  · intro hsuffix
    exact hsuffix.trans (List.suffix_append _ _)

theorem prepared_append {left right : Text} (hright : right ≠ []) (h : MeetApart left right) :
    prepared (left ++ right) = Text.unifyBreaks left ++ prepared right := by
  have hpair : Text.endsWith (left ++ right) ['\r', '\n'] = Text.endsWith right ['\r', '\n'] := by
    rcases right with _ | ⟨c, _ | ⟨d, ds⟩⟩
    · exact absurd rfl hright
    · -- A pair could only have its carriage return at the end of the first text.
      rw [Bool.eq_iff_iff, Text.endsWith_iff, Text.endsWith_iff]
      constructor
      · rintro ⟨before, hbefore⟩
        have hsplit : (before ++ ['\r']) ++ ['\n'] = left ++ [c] := by simpa using hbefore
        obtain ⟨rfl, hc⟩ := List.append_inj' hsplit rfl
        cases hc
        exact absurd rfl (h (by simp))
      · intro hsuffix
        exact absurd hsuffix.length_le (by simp)
    · exact endsWith_append (by simp)
  have hbreak : Text.endsWith (Text.unifyBreaks left ++ Text.unifyBreaks right) ['\n'] =
      Text.endsWith (Text.unifyBreaks right) ['\n'] :=
    endsWith_append (List.length_pos_iff.mpr (unifyBreaks_ne_nil hright))
  unfold prepared
  simp only [unifyBreaks_append h, hpair, hbreak]
  split
  · rw [List.append_assoc]
  · rfl

theorem prepared_unifyBreaks {text : Text} (h : EndsInBreak text) :
    prepared (Text.unifyBreaks text) = Text.unifyBreaks text := by
  have hno := not_return_mem_unifyBreaks text
  have hpair : Text.endsWith (Text.unifyBreaks text) ['\r', '\n'] = false := by
    rw [Bool.eq_false_iff]
    intro hends
    exact hno ((Text.endsWith_iff.mp hends).subset (by simp))
  have hbreak : Text.endsWith (Text.unifyBreaks text) ['\n'] = true := by
    obtain ⟨before, hbefore⟩ := List.getLast?_eq_some_iff.mp (getLast?_unifyBreaks h)
    rw [Text.endsWith_iff, hbefore]
    exact List.suffix_append _ _
  unfold prepared
  simp only [Text.unifyBreaks_of_not_mem hno, hpair, hbreak]
  rfl

theorem tokens?_nil : tokens? [] = some [] := rfl

/-- The tokens of two texts, the first of which ends with its line, say what the tokens of the first
say and then what those of the second say. -/
theorem tokens?_append {left right : Text} {leftTokens rightTokens : List Token}
    (hend : EndsInBreak left) (hmeet : MeetApart left right)
    (hleft : tokens? (Text.unifyBreaks left) = some leftTokens)
    (hright : tokens? right = some rightTokens)
    (hindent : (lexemes rightTokens).head? ≠ some .indent) :
    ∃ tokens, tokens? (left ++ right) = some tokens ∧
      lexemes tokens = lexemes leftTokens ++ lexemes rightTokens := by
  obtain ⟨hnull, hlexes⟩ := tokens?_iff.mp ⟨leftTokens, hleft, rfl⟩
  obtain ⟨hnull', hlexes'⟩ := tokens?_iff.mp ⟨rightTokens, hright, rfl⟩
  rw [mem_unifyBreaks (by decide) (by decide)] at hnull
  rw [prepared_unifyBreaks hend] at hlexes
  have hboth : Lexes ⟨Text.unifyBreaks left ++ prepared right, true, [], []⟩
      (lexemes leftTokens ++ lexemes rightTokens) :=
    hlexes.append (.inl (getLast?_unifyBreaks hend)) (by simp [Indented]) hlexes' hindent
  refine tokens?_iff.mpr ⟨by simp [hnull, hnull'], ?_⟩
  cases right with
  | cons c cs =>
    rw [prepared_append (by simp) hmeet]
    exact hboth
  | nil =>
    rw [tokens?_nil] at hright
    cases hright
    rw [lexemes_nil, List.append_nil] at hboth ⊢
    rw [List.append_nil]
    unfold prepared
    dsimp only
    split
    · exact hboth
    · exact hlexes

end Caret.Script.Lexer

namespace Caret.Script

open Lexer

/-- The statements of two scripts together. Line breaks of the first one are read as line feeds, which
matters where it ends in a pair of carriage return and line feed. -/
theorem parse?_append [CharacterNames] {left right : Text} {before after : List Statement}
    (hend : left = [] ∨ EndsInBreak left) (hmeet : MeetApart left right)
    (hleft : parse? (Text.unifyBreaks left) = some before) (hright : parse? right = some after) :
    ∃ found, parse? (left ++ right) = some found ∧
      found.map Statement.gist = before.map Statement.gist ++ after.map Statement.gist := by
  rcases hend with rfl | hend
  · have hnil : before = [] := Option.some.inj (hleft.symm.trans rfl)
    subst hnil
    exact ⟨after, hright, rfl⟩
  · have hlength := length_unifyBreaks_le left
    refine parse?_of_lexemes hleft hright (by simp; omega) (by simp) fun leftTokens rightTokens hl hr => ?_
    have hindent : (lexemes rightTokens).head? ≠ some .indent := by
      obtain ⟨tokens, htokens, hprogram⟩ := parse?_iff.mp hright
      cases hr.symm.trans htokens
      have halike := hprogram.startAlike .indent (by decide)
      rw [lexemes, List.head?_map]
      intro h
      cases halike.mpr h
    exact tokens?_append hend hmeet hl hr hindent

end Caret.Script
