import Caret.Proofs.Text.Cut
import Caret.Text.Line

/-!
# Lines and the text that they make up

The lines of a text joined are the text, none of them is empty, and no cut between two lines goes
through a carriage return and the line feed after it. In a line, carriage returns and line feeds stand
only at its end. A grammar that knows nothing of the reader says which lines a text has.
-/

namespace Caret.Text

@[simp] theorem flatten_lines (text : Text) : (lines text).flatten = text := by
  fun_induction lines text with
  | case1 => rfl
  | case2 c => rfl
  | case3 c d cs hpair ih => simp [ih]
  | case4 c d cs _ hbreak ih => simp [ih]
  | case5 c d cs _ _ hnil ih => simp [hnil] at ih
  | case6 c d cs _ _ line rest hlines ih =>
    rw [hlines] at ih
    rw [List.flatten_cons, List.cons_append, ← List.flatten_cons, ih]

theorem ne_nil_of_mem_lines {text line : Text} (h : line ∈ lines text) : line ≠ [] := by
  fun_induction lines text with
  | case1 => cases h
  | case2 c => simp_all
  | case3 c d cs hpair ih =>
    rcases List.mem_cons.mp h with rfl | h
    · simp
    · exact ih h
  | case4 c d cs _ hbreak ih =>
    rcases List.mem_cons.mp h with rfl | h
    · simp
    · exact ih h
  | case5 c d cs _ _ hnil ih => simp_all
  | case6 c d cs _ _ first rest hlines ih =>
    rcases List.mem_cons.mp h with rfl | h
    · simp
    · exact ih (by simp [hlines, h])

/-- What can end a line besides the breaks that only an editor knows. -/
def IsEnding (ending : Text) : Prop :=
  ending = [] ∨ ending = ['\n'] ∨ ending = ['\r'] ∨ ending = ['\r', '\n']

/-- Carriage returns and line feeds stand only at the end of a line. -/
theorem exists_body_of_mem_lines {text line : Text} (h : line ∈ lines text) :
    ∃ body ending, line = body ++ ending ∧ (∀ c ∈ body, c ≠ '\n' ∧ c ≠ '\r') ∧ IsEnding ending := by
  have hsingle : ∀ c : Char, ∃ body ending, [c] = body ++ ending ∧
      (∀ c ∈ body, c ≠ '\n' ∧ c ≠ '\r') ∧ IsEnding ending := by
    intro c
    by_cases hfeed : c = '\n'
    · exact ⟨[], ['\n'], by simp [hfeed], by simp, .inr (.inl rfl)⟩
    · by_cases hreturn : c = '\r'
      · exact ⟨[], ['\r'], by simp [hreturn], by simp, .inr (.inr (.inl rfl))⟩
      · exact ⟨[c], [], rfl, by simp [hfeed, hreturn], .inl rfl⟩
  fun_induction lines text generalizing line with
  | case1 => cases h
  | case2 c =>
    obtain rfl := List.mem_singleton.mp h
    exact hsingle c
  | case3 c d cs hpair ih =>
    rcases List.mem_cons.mp h with rfl | h
    · exact ⟨[], ['\r', '\n'], by simp [hpair], by simp, .inr (.inr (.inr rfl))⟩
    · exact ih h
  | case4 c d cs _ hbreak ih =>
    rcases List.mem_cons.mp h with rfl | h
    · exact hsingle c
    · exact ih h
  | case5 c d cs _ _ hnil ih =>
    obtain rfl := List.mem_singleton.mp h
    exact hsingle c
  | case6 c d cs _ hbreak first rest hlines ih =>
    rcases List.mem_cons.mp h with rfl | h
    · have hfirst : first ∈ lines (d :: cs) := by simp [hlines]
      obtain ⟨body, ending, rfl, hbody, hending⟩ := ih hfirst
      refine ⟨c :: body, ending, rfl, ?_, hending⟩
      intro e he
      rcases List.mem_cons.mp he with rfl | he
      · constructor
        all_goals
          rintro rfl
          exact hbreak (by decide)
      · exact hbody e he
    · exact ih (by simp [hlines, h])

theorem isEnding_of_lines {ending : Text} (h : IsEnding ending) :
    ∀ c ∈ ending, (c == '\r' || c == '\n') = true := by
  rcases h with rfl | rfl | rfl | rfl <;> exact forall_mem_of_all (by decide)

/-- The body of a line is what stands before its carriage return and line feed. -/
theorem lineBody_of_mem_lines {text line : Text} (h : line ∈ lines text) :
    ∃ ending, line = lineBody line ++ ending ∧ (∀ c ∈ lineBody line, c ≠ '\n' ∧ c ≠ '\r') ∧
      IsEnding ending := by
  obtain ⟨body, ending, rfl, hbody, hending⟩ := exists_body_of_mem_lines h
  have hdrop : lineBody (body ++ ending) = body := by
    refine dropEndWhile_run (fun c hc => ?_) (isEnding_of_lines hending)
    simpa using (hbody c (List.mem_of_getLast? hc)).symm
  exact ⟨ending, by rw [hdrop], by rwa [hdrop], hending⟩

/-- A cut between two lines does not go through a carriage return and the line feed after it. -/
theorem lines_cut (text : Text) (k : Nat) (h : ((lines text).take k).flatten.getLast? = some '\r') :
    ((lines text).drop k).flatten.head? ≠ some '\n' := by
  have hcons : ∀ {c : Char} {left right : Text}, (left.getLast? = some '\r' → right.head? ≠ some '\n') →
      (left = [] → c = '\r' → right.head? ≠ some '\n') → (c :: left).getLast? = some '\r' →
        right.head? ≠ some '\n' := by
    intro c left right hleft hnil hlast
    cases left with
    | nil => exact hnil rfl (by simpa using hlast)
    | cons d ds => exact hleft (by rwa [List.getLast?_cons_cons] at hlast)
  fun_induction lines text generalizing k with
  | case1 => simp at h
  | case2 c => cases k <;> simp at h ⊢
  | case3 c d cs hpair ih =>
    cases k with
    | zero => simp at h
    | succ k =>
      rw [hpair.1, hpair.2] at h
      exact hcons (hcons (ih k) fun _ hfeed => absurd hfeed (by decide)) nofun h
  | case4 c d cs hpair hbreak ih =>
    cases k with
    | zero => simp at h
    | succ k =>
      refine hcons (ih k) (fun hnil hc => ?_) h
      have hwhole := flatten_lines (d :: cs)
      rw [← List.take_append_drop k (lines (d :: cs)), List.flatten_append, hnil, List.nil_append] at hwhole
      rw [List.drop_succ_cons, hwhole]
      exact fun hd => hpair ⟨hc, Option.some.inj hd⟩
  | case5 c d cs _ _ hnil ih => cases k <;> simp at h ⊢
  | case6 c d cs hpair hbreak line rest hlines ih =>
    cases k with
    | zero => simp at h
    | succ k =>
      have hmore := ih (k + 1)
      rw [hlines] at hmore
      refine hcons hmore (fun _ hc => absurd ?_ hbreak) h
      rw [hc]
      decide

/-- A line that is not the last one ends with a line break. -/
theorem isLineBreak_of_lines {text line : Text} {k : Nat} (h : (lines text)[k]? = some line)
    (hmore : k + 1 < (lines text).length) : ∃ c, line.getLast? = some c ∧ isLineBreak c = true := by
  fun_induction lines text generalizing k line with
  | case1 => cases h
  | case2 c => simp at hmore
  | case3 c d cs hpair ih =>
    cases k with
    | zero =>
      cases h
      exact ⟨d, rfl, by rw [hpair.2]; decide⟩
    | succ k => exact ih h (by simpa using hmore)
  | case4 c d cs _ hbreak ih =>
    cases k with
    | zero =>
      cases h
      exact ⟨c, rfl, hbreak⟩
    | succ k => exact ih h (by simpa using hmore)
  | case5 c d cs _ _ hnil ih => simp at hmore
  | case6 c d cs _ _ first rest hlines ih =>
    rw [hlines] at ih
    cases k with
    | zero =>
      cases h
      obtain ⟨b, hlast, hb⟩ := ih (k := 0) rfl (by simpa using hmore)
      refine ⟨b, ?_, hb⟩
      rw [List.getLast?_cons, hlast, Option.getD_some]
    | succ k => exact ih (k := k + 1) h (by simpa using hmore)

/-! ### The grammar of lines -/

/-- What ends a line: one line break, or a carriage return and the line feed after it. -/
def IsLineEnd (ending : Text) : Prop :=
  ending = ['\r', '\n'] ∨ ∃ c, ending = [c] ∧ isLineBreak c = true

/-- A text cut into lines. A line has no line break but the one that ends it, which only the last line may
lack, and a carriage return that ends a line is not followed by a line feed. -/
inductive IsLines : Text → List Text → Prop where
  | nil : IsLines [] []
  | last {body : Text} (hne : body ≠ []) (hbody : ∀ c ∈ body, isLineBreak c = false) : IsLines body [body]
  | cons {body ending rest : Text} {more : List Text} (hbody : ∀ c ∈ body, isLineBreak c = false)
      (hending : IsLineEnd ending) (hcut : ending = ['\r'] → rest.head? ≠ some '\n')
      (hrest : IsLines rest more) : IsLines (body ++ (ending ++ rest)) ((body ++ ending) :: more)

theorem IsLines.cons_char {c : Char} (hc : isLineBreak c = false) {text line : Text} {more : List Text}
    (h : IsLines text (line :: more)) : IsLines (c :: text) ((c :: line) :: more) := by
  cases h with
  | last hne hbody => exact .last (List.cons_ne_nil _ _) (List.forall_mem_cons.mpr ⟨hc, hbody⟩)
  | cons hbody hending hcut hrest =>
    exact .cons (List.forall_mem_cons.mpr ⟨hc, hbody⟩) hending hcut hrest

theorem isLines_lines (text : Text) : IsLines text (lines text) := by
  have hbreak : ∀ {ending rest : Text}, IsLineEnd ending → (ending = ['\r'] → rest.head? ≠ some '\n') →
      IsLines rest (lines rest) → IsLines (ending ++ rest) (ending :: lines rest) :=
    fun hending hcut hrest => .cons (List.forall_mem_nil _) hending hcut hrest
  fun_induction lines text with
  | case1 => exact .nil
  | case2 c =>
    cases hc : isLineBreak c with
    | true => exact hbreak (.inr ⟨c, rfl, hc⟩) (fun _ => by decide) .nil
    | false => exact .last (List.cons_ne_nil _ _) (by simpa using hc)
  | case3 c d cs hpair ih =>
    obtain ⟨rfl, rfl⟩ := hpair
    exact hbreak (.inl rfl) (fun h => absurd h (by decide)) ih
  | case4 c d cs hpair hc ih =>
    refine hbreak (.inr ⟨c, rfl, hc⟩) (fun h hd => hpair ?_) ih
    exact ⟨(List.cons.inj h).1, Option.some.inj hd⟩
  | case5 c d cs _ _ hnil ih =>
    have hflat := flatten_lines (d :: cs)
    rw [hnil] at hflat
    cases hflat
  | case6 c d cs _ hc line rest hlines ih =>
    rw [hlines] at ih
    exact ih.cons_char (Bool.eq_false_iff.mpr hc)

theorem lines_cons_of_not_isLineBreak {c : Char} (hc : isLineBreak c = false) {text line : Text}
    {more : List Text} (h : lines text = line :: more) : lines (c :: text) = (c :: line) :: more := by
  cases text with
  | nil => cases h
  | cons d ds =>
    have hpair : ¬ (c = '\r' ∧ d = '\n') := by
      rintro ⟨rfl, -⟩
      exact absurd hc (by decide)
    rw [lines, if_neg hpair, if_neg (Bool.eq_false_iff.mp hc), h]

theorem lines_append_of_not_isLineBreak {body : Text} (hbody : ∀ c ∈ body, isLineBreak c = false)
    {text line : Text} {more : List Text} (h : lines text = line :: more) :
    lines (body ++ text) = (body ++ line) :: more := by
  induction body with
  | nil => exact h
  | cons c cs ih =>
    obtain ⟨hc, hcs⟩ := List.forall_mem_cons.mp hbody
    exact lines_cons_of_not_isLineBreak hc (ih hcs)

theorem lines_isLineEnd {ending rest : Text} (hending : IsLineEnd ending)
    (hcut : ending = ['\r'] → rest.head? ≠ some '\n') : lines (ending ++ rest) = ending :: lines rest := by
  rcases hending with rfl | ⟨c, rfl, hc⟩
  · exact if_pos ⟨rfl, rfl⟩
  · cases rest with
    | nil => rfl
    | cons d ds =>
      have hpair : ¬ (c = '\r' ∧ d = '\n') := by
        rintro ⟨rfl, rfl⟩
        exact hcut rfl rfl
      rw [List.singleton_append, lines, if_neg hpair, if_pos hc]

/-- There is one way to cut a text into lines. -/
theorem lines_eq_iff {text : Text} {found : List Text} : lines text = found ↔ IsLines text found := by
  refine ⟨fun h => h ▸ isLines_lines text, fun h => ?_⟩
  induction h with
  | nil => rfl
  | @last body hne hbody =>
    obtain ⟨front, c, rfl⟩ := (List.eq_nil_or_concat' body).resolve_left hne
    exact lines_append_of_not_isLineBreak (fun d hd => hbody d (List.mem_append_left _ hd)) rfl
  | cons hbody hending hcut _ ih =>
    rw [lines_append_of_not_isLineBreak hbody (lines_isLineEnd hending hcut), ih]

/-- Behind a line feed new lines begin. -/
theorem IsLines.append {text other : Text} {found more : List Text} (h : IsLines text found)
    (hend : text = [] ∨ text.getLast? = some '\n') (hother : IsLines other more) :
    IsLines (text ++ other) (found ++ more) := by
  induction h with
  | nil => exact hother
  | @last body hne hbody =>
    have hlast := hbody '\n' (List.mem_of_getLast? (hend.resolve_left hne))
    exact absurd hlast (by decide)
  | @cons body ending rest _ hbody hending hcut _ ih =>
    have htext : body ++ (ending ++ rest) ≠ [] := by
      rcases hending with rfl | ⟨c, rfl, -⟩ <;> simp
    have hlast := hend.resolve_left htext
    have hrest : rest = [] ∨ rest.getLast? = some '\n' := by
      by_cases hnil : rest = []
      · exact .inl hnil
      · rw [← List.append_assoc, List.getLast?_append_of_ne_nil _ hnil] at hlast
        exact .inr hlast
    rw [List.append_assoc, List.append_assoc, List.cons_append]
    refine .cons hbody hending (fun hreturn => ?_) (ih hrest)
    cases rest with
    | nil => simp [hreturn] at hlast
    | cons d ds => exact hcut hreturn

/-! ### Tabs -/

theorem length_expandTabsFrom_of_not_mem {text : Text} (h : '\t' ∉ text) (column : Nat) :
    (expandTabsFrom column text).length = text.length := by
  induction text generalizing column with
  | nil => rfl
  | cons c cs ih =>
    obtain ⟨hc, hcs⟩ := not_or.mp (List.mem_cons.not.mp h)
    rw [expandTabsFrom, if_neg (Ne.symm hc), List.length_cons, ih hcs, List.length_cons]

/-- What is no tab takes up one column, wherever it stands. -/
theorem length_expandTabsFrom_append {other : Text} (h : '\t' ∉ other) (text : Text) (column : Nat) :
    (expandTabsFrom column (text ++ other)).length = (expandTabsFrom column text).length + other.length := by
  induction text generalizing column with
  | nil =>
    rw [List.nil_append, length_expandTabsFrom_of_not_mem h]
    exact (Nat.zero_add _).symm
  | cons c cs ih =>
    rw [List.cons_append, expandTabsFrom, expandTabsFrom]
    split
    · rw [List.length_append, List.length_append, ih, Nat.add_assoc]
    · rw [List.length_cons, List.length_cons, ih, Nat.add_right_comm]

/-! ### Unified line breaks -/

theorem unifyBreaks_cons {c : Char} (hc : c ≠ '\r') (cs : Text) :
    unifyBreaks (c :: cs) = c :: unifyBreaks cs := by
  cases cs with
  | nil => simp [unifyBreaks, hc]
  | cons d ds => rw [unifyBreaks, if_neg hc]

theorem unifyBreaks_of_not_mem {text : Text} (h : '\r' ∉ text) : unifyBreaks text = text := by
  induction text with
  | nil => rfl
  | cons c cs ih =>
    rw [List.mem_cons, not_or] at h
    rw [unifyBreaks_cons (Ne.symm h.1), ih h.2]

end Caret.Text
