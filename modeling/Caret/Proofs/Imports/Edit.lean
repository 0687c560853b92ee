import Caret.Imports.Insert
import Caret.Proofs.Script.Breaks
import Caret.Proofs.Script.ExtendText
import Caret.Proofs.Text.Lines
import Mathlib.Data.List.TakeWhile

/-!
# Edits of a script's text

The two edits that an import makes, as texts around the place of the edit: a line between two groups of
lines, and a line with more behind its code.
-/

namespace Caret.Imports

open Script.Lexer (EndsInBreak MeetApart)

/-! ### A new line -/

theorem endsInBreak_iff {text : Text} :
    (Text.endsWith text ['\n'] || Text.endsWith text ['\r']) = true ↔ EndsInBreak text := by
  rw [Bool.or_eq_true, Text.endsWith_singleton, Text.endsWith_singleton]
  rfl

/-- A script ends in a line break if its last line does. -/
theorem endsInBreak_of_lines {source last : Text} {init : List Text}
    (h : Text.lines source = init ++ [last]) : EndsInBreak last ↔ EndsInBreak source := by
  have hne : last ≠ [] := by
    have hmem : last ∈ Text.lines source := by simp [h]
    exact Text.ne_nil_of_mem_lines hmem
  have hsource : source = init.flatten ++ last := by
    have hflatten := Text.flatten_lines source
    rw [h] at hflatten
    simpa using hflatten.symm
  rw [hsource]
  unfold EndsInBreak
  rw [List.getLast?_append_of_ne_nil _ hne]

/-- What stands before a new line, and that a last line which is not ended gets its end. -/
theorem insertLine_eq (source : Text) (index : Nat) (line : Text) :
    ∃ before, insertLine source index line = before ++ (line ++ ((Text.lines source).drop index).flatten) ∧
      ((before = ((Text.lines source).take index).flatten ∧
          ((Text.lines source).length ≤ index → source = [] ∨ EndsInBreak source)) ∨
        (before = source ++ ['\n'] ∧ (Text.lines source).length ≤ index ∧ ¬ EndsInBreak source)) := by
  rcases List.eq_nil_or_concat' (Text.lines source) with hnil | ⟨init, last, hlines⟩
  · have hsource : source = [] := by simpa [hnil] using Text.flatten_lines source
    refine ⟨[], ?_, .inl ⟨by simp [hnil], fun _ => .inl hsource⟩⟩
    simp [insertLine, hnil]
  · have hends := endsInBreak_of_lines hlines
    have hlast : (Text.lines source).getLast? = some last := by rw [hlines, List.getLast?_concat]
    unfold insertLine
    simp only [hlast]
    split
    · rename_i hopen
      simp only [Bool.and_eq_true, Bool.not_eq_true', decide_eq_true_eq, ← Bool.not_eq_true,
        endsInBreak_iff] at hopen
      have hsource : (init ++ [last]).flatten = source := by rw [← hlines, Text.flatten_lines]
      refine ⟨source ++ ['\n'], ?_, .inr ⟨rfl, hopen.2, hends.not.mp hopen.1⟩⟩
      have hlength : init.length + 1 ≤ index := by simpa [hlines] using hopen.2
      rw [hlines, List.dropLast_concat, List.take_of_length_le (by simpa using hlength),
        List.drop_of_length_le (by simpa using hlength), List.drop_of_length_le (by simpa using hlength),
        ← hsource]
      simp
    · rename_i hclosed
      refine ⟨_, List.append_assoc _ _ _, .inl ⟨rfl, fun hlength => .inr (hends.mp ?_)⟩⟩
      rw [← endsInBreak_iff]
      by_contra hopen
      exact hclosed (by rw [Bool.eq_false_iff.mpr hopen]; simpa using hlength)

/-! ### The parts of a line -/

theorem flatten_around {source raw : Text} {index : Nat} (h : (Text.lines source)[index]? = some raw) :
    source = ((Text.lines source).take index).flatten ++
      (raw ++ ((Text.lines source).drop (index + 1)).flatten) := by
  obtain ⟨hlt, hget⟩ := List.getElem?_eq_some_iff.mp h
  have hdrop : (Text.lines source).drop index = raw :: (Text.lines source).drop (index + 1) := by
    rw [← hget, List.getElem_cons_drop hlt]
  rw [← List.flatten_cons, ← hdrop, ← List.flatten_append, List.take_append_drop, Text.flatten_lines]

/-- The code of a line, without the comment after it. -/
def codeOf (raw : Text) : Text :=
  Text.trimEnd (Text.beforeFirst '#' (Text.lineBody raw))

/-- The white space between the code of a line and its comment or its end. -/
def gapOf (raw : Text) : Text :=
  Text.takeEndWhile Text.isSpace (Text.beforeFirst '#' (Text.lineBody raw))

/-- The comment of a line. -/
def commentOf (raw : Text) : Text :=
  (Text.lineBody raw).dropWhile (· ≠ '#')

/-- The carriage return and line feed that end a line. -/
def endingOf (raw : Text) : Text :=
  raw.drop (Text.lineBody raw).length

theorem prefix_beforeFirst (sep : Char) (text : Text) : Text.beforeFirst sep text <+: text :=
  List.takeWhile_prefix _

theorem lineBody_eq (raw : Text) : Text.lineBody raw = codeOf raw ++ (gapOf raw ++ commentOf raw) := by
  rw [← List.append_assoc, codeOf, gapOf, Text.trimEnd, Text.dropEndWhile_append_takeEndWhile]
  exact List.takeWhile_append_dropWhile.symm

/-- A line is its code, white space, its comment and its end. -/
theorem line_eq (raw : Text) : raw = codeOf raw ++ (gapOf raw ++ (commentOf raw ++ endingOf raw)) := by
  have hraw : Text.lineBody raw ++ endingOf raw = raw :=
    Text.append_drop_of_prefix (Text.dropEndWhile_isPrefix _ raw)
  rw [lineBody_eq, List.append_assoc, List.append_assoc] at hraw
  exact hraw.symm

theorem isSpace_of_mem_gapOf {raw : Text} : ∀ c ∈ gapOf raw, Text.isSpace c = true :=
  List.all_eq_true.mp (Text.all_takeEndWhile Text.isSpace _)

/-- Code holds no comment and, in a line of a script, no line break. -/
theorem codeOf_free {source raw : Text} (hraw : raw ∈ Text.lines source) :
    ∀ c ∈ codeOf raw, c ≠ '#' ∧ c ≠ '\n' ∧ c ≠ '\r' := by
  obtain ⟨ending, -, hbody, -⟩ := Text.lineBody_of_mem_lines hraw
  intro c hc
  have hbefore : c ∈ Text.beforeFirst '#' (Text.lineBody raw) := (Text.dropEndWhile_isPrefix _ _).subset hc
  refine ⟨?_, hbody c ((prefix_beforeFirst _ _).subset hbefore)⟩
  simpa using List.mem_takeWhile_imp hbefore

theorem exists_commentOf_eq {raw : Text} (h : commentOf raw ≠ []) : ∃ rest, commentOf raw = '#' :: rest := by
  cases hcomment : commentOf raw with
  | nil => exact absurd hcomment h
  | cons c rest =>
    have hhead := List.head?_dropWhile_not (· ≠ '#') (Text.lineBody raw)
    rw [show (Text.lineBody raw).dropWhile (· ≠ '#') = c :: rest from hcomment] at hhead
    obtain rfl : c = '#' := by simpa using hhead
    exact ⟨rest, rfl⟩

theorem isEnding_endingOf {source raw : Text} (hraw : raw ∈ Text.lines source) :
    Text.IsEnding (endingOf raw) := by
  obtain ⟨ending, hsplit, -, hending⟩ := Text.lineBody_of_mem_lines hraw
  have hdrop : endingOf raw = ending := by
    rw [endingOf]
    nth_rewrite 2 [hsplit]
    exact List.drop_left
  rwa [hdrop]

/-! ### A line with more behind its code -/

/-- Whether a line may get one more name: it has neither parentheses nor backslashes. -/
def isPlain (raw : Text) : Bool :=
  !(Text.lineBody raw).any fun c => c == '(' || c == ')' || c == '\\'

/-- What stands between a name that is added to a line and the end of the line. -/
def remarkOf (raw : Text) : Text :=
  if (commentOf raw).isEmpty then [] else ' ' :: commentOf raw

/-- What ends a line to which a name is added. -/
def breakOf (raw : Text) : Text :=
  if (endingOf raw).isEmpty then ['\n'] else endingOf raw

theorem breakOf_of_ne {raw : Text} (h : endingOf raw ≠ []) : breakOf raw = endingOf raw := by
  rw [breakOf, if_neg (by rwa [List.isEmpty_iff])]

theorem breakOf_of_eq {raw : Text} (h : endingOf raw = []) : breakOf raw = ['\n'] := by
  rw [breakOf, h]
  rfl

theorem remarkOf_of_ne {raw : Text} (h : commentOf raw ≠ []) : remarkOf raw = ' ' :: commentOf raw := by
  rw [remarkOf, if_neg (by rwa [List.isEmpty_iff])]

theorem remarkOf_of_eq {raw : Text} (h : commentOf raw = []) : remarkOf raw = [] := by
  rw [remarkOf, h]
  rfl

/-- A line with a name added to it. -/
def extended (raw token : Text) : Text :=
  codeOf raw ++ (", ".toList ++ (token ++ (remarkOf raw ++ breakOf raw)))

theorem extendLine_eq (raw token : Text) :
    extendLine raw token = if isPlain raw then some (extended raw token) else none := by
  have hcomment : (Text.lineBody raw).drop (Text.beforeFirst '#' (Text.lineBody raw)).length =
      commentOf raw := by
    nth_rewrite 2 [← List.takeWhile_append_dropWhile (l := Text.lineBody raw) (p := (· ≠ '#'))]
    exact List.drop_left
  have hline : Text.trimEnd (Text.beforeFirst '#' (Text.lineBody raw)) ++ ", ".toList ++ token ++
      remarkOf raw ++ breakOf raw = extended raw token := by
    unfold extended codeOf
    generalize ", ".toList = comma
    simp only [List.append_assoc]
  unfold extendLine
  simp only [hcomment]
  rw [← show _ = extended raw token from hline, isPlain]
  cases (Text.lineBody raw).any fun c => c == '(' || c == ')' || c == '\\' <;> rfl

/-- A comment of a script's line, with a blank in front of it, may follow code. -/
theorem idle_remarkOf {source raw : Text} (hraw : raw ∈ Text.lines source) (hnull : '\x00' ∉ source) :
    Script.Idle (remarkOf raw) := by
  obtain ⟨ending, hsplit, hbody, -⟩ := Text.lineBody_of_mem_lines hraw
  have hfree : ∀ c ∈ Text.lineBody raw, c ≠ '\x00' := by
    rintro c hc rfl
    have hmem : '\x00' ∈ raw := by
      rw [hsplit]
      exact List.mem_append_left _ hc
    refine hnull ?_
    rw [← Text.flatten_lines source]
    exact List.mem_flatten.mpr ⟨raw, hraw, hmem⟩
  unfold remarkOf
  by_cases hcomment : commentOf raw = []
  · rw [hcomment]
    exact .inl rfl
  · obtain ⟨rest, hrest⟩ := exists_commentOf_eq hcomment
    rw [hrest]
    refine .inr ⟨rest, rfl, fun c hc => ?_⟩
    have hcomment : c ∈ commentOf raw := hrest ▸ List.mem_cons_of_mem _ hc
    have hmem : c ∈ Text.lineBody raw := (List.dropWhile_suffix (· ≠ '#')).subset hcomment
    exact ⟨(hbody c hmem).1, (hbody c hmem).2, hfree c hmem⟩

/-- What ends a line that is written anew. -/
def IsBreak (ending : Text) : Prop :=
  ending = ['\n'] ∨ ending = ['\r'] ∨ ending = ['\r', '\n']

theorem isBreak_breakOf {source raw : Text} (hraw : raw ∈ Text.lines source) : IsBreak (breakOf raw) := by
  unfold breakOf
  rcases isEnding_endingOf hraw with h | h | h | h
  all_goals rw [h]
  · exact .inl rfl
  · exact .inl rfl
  · exact .inr (.inl rfl)
  · exact .inr (.inr rfl)

end Caret.Imports
