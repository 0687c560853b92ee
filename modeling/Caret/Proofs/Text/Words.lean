import Caret.Proofs.Text.Space

/-!
# Words

The words of a text are its runs of characters that are not white space. White space between two texts
keeps their words apart, and white space around a text adds none.
-/

namespace Caret.Text

/-- The texts between the white space characters of a text. -/
def runs (text : Text) : List Text :=
  text.foldr (fun c parts =>
    if isSpace c then [] :: parts
    else match parts with
      | [] => [[c]]
      | part :: rest => (c :: part) :: rest) [[]]

theorem words_eq (text : Text) : words text = (runs text).filter (· ≠ []) := rfl

theorem runs_cons_of_isSpace {c : Char} (hc : isSpace c = true) (text : Text) :
    runs (c :: text) = [] :: runs text := by
  rw [runs, List.foldr_cons, if_pos hc]
  rfl

theorem runs_cons_of_not_isSpace {c : Char} (hc : isSpace c = false) {text part : Text}
    {parts : List Text} (hparts : runs text = part :: parts) :
    runs (c :: text) = (c :: part) :: parts := by
  have hrest : runs (c :: text) = match runs text with
      | [] => [[c]]
      | part :: rest => (c :: part) :: rest := by
    rw [runs, List.foldr_cons, if_neg (by simp [hc])]
    rfl
  rw [hrest, hparts]

theorem exists_runs (text : Text) : ∃ part parts, runs text = part :: parts := by
  induction text with
  | nil => exact ⟨[], [], rfl⟩
  | cons c cs ih =>
    obtain ⟨part, parts, hparts⟩ := ih
    cases hc : isSpace c with
    | true => exact ⟨_, _, runs_cons_of_isSpace hc cs⟩
    | false => exact ⟨_, _, runs_cons_of_not_isSpace hc hparts⟩

theorem not_isSpace_of_mem_runs {text part : Text} (hpart : part ∈ runs text) :
    ∀ c ∈ part, isSpace c = false := by
  induction text generalizing part with
  | nil =>
    obtain rfl := List.mem_singleton.mp hpart
    simp
  | cons c cs ih =>
    obtain ⟨first, more, hmore⟩ := exists_runs cs
    cases hc : isSpace c with
    | true =>
      rw [runs_cons_of_isSpace hc] at hpart
      rcases List.mem_cons.mp hpart with rfl | hpart
      · simp
      · exact ih hpart
    | false =>
      rw [runs_cons_of_not_isSpace hc hmore] at hpart
      rw [hmore] at ih
      rcases List.mem_cons.mp hpart with rfl | hpart
      · exact List.forall_mem_cons.mpr ⟨hc, ih List.mem_cons_self⟩
      · exact ih (List.mem_cons_of_mem _ hpart)

theorem not_isSpace_of_mem_words {text word : Text} (h : word ∈ words text) :
    word ≠ [] ∧ ∀ c ∈ word, isSpace c = false := by
  obtain ⟨hmem, hne⟩ := List.mem_filter.mp h
  exact ⟨by simpa using hne, not_isSpace_of_mem_runs hmem⟩

/-- White space ends one word and comes before the next. -/
theorem words_append {c : Char} (hc : isSpace c = true) (before after : Text) :
    words (before ++ c :: after) = words before ++ words after := by
  have hruns : runs (before ++ c :: after) = runs before ++ runs after := by
    induction before with
    | nil => exact runs_cons_of_isSpace hc after
    | cons d ds ih =>
      obtain ⟨part, parts, hparts⟩ := exists_runs ds
      cases hd : isSpace d with
      | true => rw [List.cons_append, runs_cons_of_isSpace hd, runs_cons_of_isSpace hd, ih, List.cons_append]
      | false =>
        rw [hparts, List.cons_append] at ih
        rw [List.cons_append, runs_cons_of_not_isSpace hd ih, runs_cons_of_not_isSpace hd hparts,
          List.cons_append]
  rw [words_eq, words_eq, words_eq, hruns, List.filter_append]

theorem words_of_not_isSpace {word : Text} (hne : word ≠ []) (hword : ∀ c ∈ word, isSpace c = false) :
    words word = [word] := by
  have hruns : ∀ text : Text, (∀ c ∈ text, isSpace c = false) → runs text = [text] := by
    intro text htext
    induction text with
    | nil => rfl
    | cons c cs ih =>
      obtain ⟨hc, hcs⟩ := List.forall_mem_cons.mp htext
      exact runs_cons_of_not_isSpace hc (ih hcs)
  rw [words_eq, hruns word hword]
  simp [hne]

theorem words_dropWhile (text : Text) : words (text.dropWhile isSpace) = words text := by
  induction text with
  | nil => rfl
  | cons c cs ih =>
    cases hc : isSpace c with
    | true =>
      rw [List.dropWhile_cons_of_pos hc, ih]
      exact (words_append hc [] cs).symm
    | false => rw [List.dropWhile_cons_of_neg (by simp [hc])]

theorem words_dropEndWhile (text : Text) : words (dropEndWhile isSpace text) = words text := by
  have hspace : ∀ before after : Text, (∀ c ∈ after, isSpace c = true) →
      words (before ++ after) = words before := by
    intro before after hafter
    induction after generalizing before with
    | nil => rw [List.append_nil]
    | cons c cs ih =>
      obtain ⟨hc, hcs⟩ := List.forall_mem_cons.mp hafter
      have hnil : words cs = [] := ih [] hcs
      rw [words_append hc, hnil, List.append_nil]
  have hsplit := dropEndWhile_append_takeEndWhile isSpace text
  conv_rhs => rw [← hsplit]
  exact (hspace _ _ (List.all_eq_true.mp (all_takeEndWhile isSpace text))).symm

theorem words_trim (text : Text) : words (trim text) = words text := by
  rw [trim, trimBy, words_dropEndWhile, words_dropWhile]

end Caret.Text
