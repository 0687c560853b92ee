import Caret.Proofs.Script.Breaks
import Caret.Proofs.Script.Extend

/-!
# The text of one more name

Code that ends in an import, with a comma and one more name behind it. A comment may follow, and the
line ends. The text is read as the code is, with the name added to its last statement.
-/

namespace Caret.Script

open Lexer
open Caret.Script.Parser (EndsPlain Extends Imported sym)

/-- White space inside a line. -/
def isBlank (c : Char) : Bool :=
  c == ' ' || c == '\t' || c == '\x0c'

/-- What the lexer passes over between the code of a line and its end: blanks and a comment. -/
def Trailing (tail : Text) : Prop :=
  ∃ gap comment, tail = gap ++ comment ∧ (∀ c ∈ gap, isBlank c = true) ∧
    (comment = [] ∨ ∃ remark, comment = '#' :: remark ∧ '\n' ∉ remark)

theorem Trailing.spans {tail : Text} (h : Trailing tail) (rest : Text) :
    Spans (tail ++ '\n' :: rest) [] ('\n' :: rest) := by
  obtain ⟨gap, comment, rfl, hgap, hcomment⟩ := h
  induction gap with
  | nil =>
    rcases hcomment with rfl | ⟨remark, rfl, hremark⟩
    · exact fun _ _ _ hmore => hmore
    · intro levels due
      have hdrop : ('#' :: (remark ++ '\n' :: rest)).dropWhile (· ≠ '\n') = '\n' :: rest := by
        rw [← List.cons_append, List.dropWhile_append_of_pos]
        · simp
        · intro c hc
          rcases List.mem_cons.mp hc with rfl | hc
          · decide
          · have hne : c ≠ '\n' := fun h => hremark (h ▸ hc)
            simpa using hne
      have hstep : Step ⟨'#' :: (remark ++ '\n' :: rest), false, levels, due⟩ []
          ⟨('#' :: (remark ++ '\n' :: rest)).dropWhile (· ≠ '\n'), false, levels, due⟩ := .comment
      rw [hdrop] at hstep
      exact hstep.passes
  | cons c gap ih =>
    have hblank : c = ' ' ∨ c = '\t' ∨ c = '\x0c' := by
      simpa [isBlank, or_assoc] using hgap c List.mem_cons_self
    have hspans := ih fun d hd => hgap d (List.mem_cons_of_mem _ hd)
    exact fun levels due => (Step.blank hblank).passes.trans (hspans levels due)

theorem Trailing.exists_stop {tail : Text} (h : Trailing tail) (rest : Text) :
    ∃ c cs, tail ++ '\n' :: rest = c :: cs ∧ isStop c = true := by
  obtain ⟨gap, comment, rfl, hgap, hcomment⟩ := h
  cases gap with
  | nil =>
    rcases hcomment with rfl | ⟨remark, rfl, -⟩
    · exact ⟨'\n', rest, rfl, by decide⟩
    · exact ⟨'#', _, rfl, by decide⟩
  | cons c gap =>
    refine ⟨c, _, rfl, isStop_iff.mpr ?_⟩
    have hblank : c = ' ' ∨ c = '\t' ∨ c = '\x0c' := by
      simpa [isBlank, or_assoc] using hgap c List.mem_cons_self
    rcases hblank with h | h | h
    · exact .inr (.inr (.inl h))
    · exact .inr (.inr (.inr (.inl h)))
    · exact .inr (.inr (.inr (.inr (.inl h))))

/-- What may stand between the code of a line and its end: nothing, or a blank and a comment. -/
def Idle (idle : Text) : Prop :=
  idle = [] ∨ ∃ comment, idle = ' ' :: '#' :: comment ∧ ∀ c ∈ comment, c ≠ '\n' ∧ c ≠ '\r' ∧ c ≠ '\x00'

theorem Idle.trailing {idle : Text} (h : Idle idle) : Trailing idle := by
  rcases h with rfl | ⟨comment, rfl, hcomment⟩
  · exact ⟨[], [], rfl, nofun, .inl rfl⟩
  · exact ⟨[' '], '#' :: comment, rfl, Text.forall_mem_of_all (by decide),
      .inr ⟨comment, rfl, fun h => (hcomment _ h).1 rfl⟩⟩

theorem Idle.exists_border {idle : Text} (h : Idle idle) (rest : Text) :
    ∃ c cs, idle ++ '\n' :: rest = c :: cs ∧ isBorder c = true := by
  rcases h with rfl | ⟨comment, rfl, -⟩
  · exact ⟨'\n', rest, rfl, by decide⟩
  · exact ⟨' ', _, rfl, by decide⟩

theorem prepared_of_endsInName {code : Text} (hreturn : '\r' ∉ code) (hcode : EndsInName code) :
    prepared code = code ++ ['\n'] := by
  obtain ⟨c, hlast, hname⟩ := hcode
  have hbreak : Text.endsWith code ['\n'] = false := by
    rw [Bool.eq_false_iff]
    intro hends
    obtain ⟨before, rfl⟩ := Text.endsWith_iff.mp hends
    rw [List.getLast?_concat] at hlast
    cases hlast
    revert hname
    decide
  unfold prepared
  simp only [Text.unifyBreaks_of_not_mem hreturn, hbreak]
  simp

/-- A text whose last line goes on with blanks and a comment says what its code says. -/
theorem parse?_trailing [CharacterNames] {code tail text : Text} {found : List Statement}
    (hreturn : '\r' ∉ code) (hcode : EndsInName code) (hcomment : Uncommented code)
    (h : parse? code = some found) (htail : Trailing tail) (hnull : '\x00' ∉ text)
    (hlength : code.length ≤ text.length) (htext : prepared text = code ++ (tail ++ ['\n'])) :
    ∃ found', parse? text = some found' ∧ found'.map Statement.gist = found.map Statement.gist := by
  refine parse?_of_tokens? h hlength fun tokens htokens => ?_
  obtain ⟨-, hlexes⟩ := tokens?_iff.mp ⟨tokens, htokens, rfl⟩
  rw [prepared_of_endsInName hreturn hcode] at hlexes
  obtain ⟨front, lexeme, levels, hfound, -, hpasses⟩ := hlexes.before_end hcode hcomment
  have hend : Lexes ⟨['\n'], false, levels, []⟩ (.newline :: levels.map fun _ => .dedent) :=
    .step .lineEnd (.done ⟨0, _, _, rfl⟩)
  have hspans := htail.spans [] levels [] _ hend
  obtain ⟨c, cs, hstart, hstop⟩ := htail.exists_stop []
  rw [hstart] at hspans
  refine tokens?_iff.mpr ⟨hnull, ?_⟩
  rw [htext, hstart, hfound]
  have hwhole := hpasses c cs hstop _ hspans
  rwa [List.nil_append, List.append_assoc] at hwhole

/-- Where a text ends with its line, no level is open. -/
theorem unindented_of_eq {front other : List Lexeme} {lexeme : Lexeme} {levels : List Depth}
    (h : front ++ lexeme :: .newline :: (levels.map fun _ => .dedent) = other ++ [.newline]) :
    levels = [] ∧ other = front ++ [lexeme] := by
  rcases List.eq_nil_or_concat' levels with rfl | ⟨levels, level, rfl⟩
  · have hsplit : (front ++ [lexeme]) ++ [.newline] = other ++ [.newline] := by simpa using h
    exact ⟨rfl, (List.append_cancel_right hsplit).symm⟩
  · have hsplit : (front ++ lexeme :: .newline :: levels.map fun _ => .dedent) ++ [.dedent] =
        other ++ [.newline] := by simpa using h
    obtain ⟨-, heq⟩ := List.append_inj' hsplit rfl
    cases heq

/-- A comma, a name to import, and what may stand behind it on the line. -/
theorem spans_furtherName {new : Imported} {idle : Text} (hnew : PlainImport new) (hidle : Idle idle)
    (rest : Text) :
    Spans (", ".toList ++ (importedText new ++ (idle ++ '\n' :: rest))) (sym "," :: new.lexemes)
      ('\n' :: rest) := by
  have hend := hidle.trailing.spans rest
  obtain ⟨c, cs, hborder, hc⟩ := hidle.exists_border rest
  rw [hborder] at hend ⊢
  have hname := (spans_imported hnew hc cs).trans hend
  rw [List.append_nil] at hname
  exact (spans_comma _).trans ((spans_blank _).trans hname)

theorem furtherName_free {new : Imported} {idle : Text} (hnew : PlainImport new) (hidle : Idle idle) :
    ∀ c ∈ ", ".toList ++ (importedText new ++ idle), c ≠ '\n' ∧ c ≠ '\r' ∧ c ≠ '\x00' := by
  have hcomma : ∀ c ∈ ", ".toList, c ≠ '\n' ∧ c ≠ '\r' ∧ c ≠ '\x00' :=
    Text.forall_mem_of_all (by decide)
  have hinline : ∀ c : Char, isInline c = true → c ≠ '\n' ∧ c ≠ '\r' ∧ c ≠ '\x00' := by
    intro c hc
    refine ⟨?_, ?_, ?_⟩
    all_goals
      rintro rfl
      revert hc
      decide
  have hidle : ∀ c ∈ idle, c ≠ '\n' ∧ c ≠ '\r' ∧ c ≠ '\x00' := by
    rcases hidle with rfl | ⟨comment, rfl, hcomment⟩
    · simp
    · intro c hc
      rcases List.mem_cons.mp hc with rfl | hc
      · decide
      · rcases List.mem_cons.mp hc with rfl | hc
        · decide
        · exact hcomment c hc
  intro c hc
  rcases List.mem_append.mp hc with hc | hc
  · exact hcomma c hc
  · exact (List.mem_append.mp hc).elim (fun hc => hinline c (isInline_importedText hnew c hc)) (hidle c)

/-- Code whose last statement imports from a module, with one more name before the end of its line. -/
theorem parse?_extend [CharacterNames] {code idle : Text} {init : List Statement} {last : Statement}
    {path : Text} {names : List Alias} {new : Imported} (hreturn : '\r' ∉ code) (hcode : EndsInName code)
    (hcomment : Uncommented code) (h : parse? code = some (init ++ [last]))
    (haction : last.action = .importFrom 0 (some path) names) (hnew : PlainImport new) (hidle : Idle idle) :
    ∃ init' last', parse? (code ++ (", ".toList ++ (importedText new ++ (idle ++ ['\n'])))) =
        some (init' ++ [last']) ∧
      init'.map Statement.gist = init.map Statement.gist ∧ Extends new last last' := by
  obtain ⟨tokens, htokens, hprogram⟩ := parse?_iff.mp h
  obtain ⟨hnull, hlexes⟩ := tokens?_iff.mp ⟨tokens, htokens, rfl⟩
  rw [prepared_of_endsInName hreturn hcode] at hlexes
  obtain ⟨front, lexeme, levels, hfound, hsymbol, hpasses⟩ := hlexes.before_end hcode hcomment
  have hfree : ∀ c ∈ ", ".toList ++ (importedText new ++ (idle ++ ['\n'])), c ≠ '\r' ∧ c ≠ '\x00' := by
    have hbreak : ∀ c ∈ ['\n'], c ≠ '\r' ∧ c ≠ '\x00' := Text.forall_mem_of_all (by decide)
    intro c hc
    rw [← List.append_assoc, ← List.append_assoc, List.append_assoc _ _ idle] at hc
    exact (List.mem_append.mp hc).elim (fun hc => (furtherName_free hnew hidle c hc).2) (hbreak c)
  have hspans := spans_furtherName hnew hidle []
  generalize hadded : ", ".toList ++ (importedText new ++ (idle ++ ['\n'])) = added at *
  have hlast : added.getLast? = some '\n' := by
    rw [← hadded, ← List.append_assoc, ← List.append_assoc, List.getLast?_concat]
  have hne : added ≠ [] := by
    rintro rfl
    cases hlast
  have hfuel : fuelFor code < fuelFor (code ++ added) := by
    have hpos := List.length_pos_iff.mpr hne
    unfold fuelFor
    rw [List.length_append]
    omega
  have hlight : weight (lexemes tokens) < fuelFor code := by
    have := weight_of_tokens? htokens
    unfold fuelFor
    omega
  obtain ⟨taken, newline, rfl, hnewline, -, hextend⟩ := hprogram.extend hfuel hlight haction
  rw [lexemes_append, lexemes_cons, hnewline, lexemes_nil] at hfound
  obtain ⟨rfl, htaken⟩ := unindented_of_eq hfound.symm
  have hplain : EndsPlain taken := by
    intro text htext
    rw [htaken, List.getLast?_concat] at htext
    exact hsymbol text (Option.some.inj htext)
  have hlexes' : Lexes ⟨code ++ added, true, [], []⟩
      (lexemes taken ++ (sym "," :: new.lexemes ++ [.newline])) := by
    have hspent : Spent [] := ⟨0, _, _, rfl⟩
    have hend : Lexes ⟨['\n'], false, [], []⟩ [.newline] := .step .lineEnd (.done hspent)
    rw [htaken, ← hadded]
    rw [← hadded] at hspans
    exact hpasses ',' _ (by decide) _ (hspans [] [] _ hend)
  have hprepared : prepared (code ++ added) = code ++ added := by
    have hreturn' : '\r' ∉ code ++ added := by
      rw [List.mem_append, not_or]
      exact ⟨hreturn, fun hmem => (hfree _ hmem).1 rfl⟩
    have hends : EndsInBreak (code ++ added) := .inl (by rw [List.getLast?_append_of_ne_nil _ hne, hlast])
    have hprepared := prepared_unifyBreaks hends
    rwa [Text.unifyBreaks_of_not_mem hreturn'] at hprepared
  have hnull' : '\x00' ∉ code ++ added := by
    rw [List.mem_append, not_or]
    exact ⟨hnull, fun hmem => (hfree _ hmem).2 rfl⟩
  obtain ⟨tokens', htokens', hsame⟩ := tokens?_iff.mpr ⟨hnull', hprepared.symm ▸ hlexes'⟩
  rw [← List.append_assoc] at hsame
  obtain ⟨y, last', rfl, hy, hlast'⟩ := List.map_eq_append_iff.mp hsame
  obtain ⟨newline', nothing, rfl, hnewline', hnothing⟩ := List.map_eq_cons_iff.mp hlast'
  obtain rfl : nothing = [] := List.map_eq_nil_iff.mp hnothing
  obtain ⟨init', last', hprogram', hinit, hextends⟩ := hextend hplain new y newline' hy hnewline'
  exact ⟨init', last', parse?_iff.mpr ⟨_, htokens', hprogram'⟩, hinit, hextends⟩

end Caret.Script
