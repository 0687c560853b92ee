import Caret.Editor.Buffer
import Caret.Proofs.Imports.Insertion
import Caret.Proofs.Imports.Site

/-!
# The import of a candidate in the buffer

The editor takes over an edit of its text only if it is one insertion. A new line always is. A name that
is added to a line is, unless the rest of the line is written anew: white space behind the code is
dropped, a comment gets one blank in front of it, and a last line gets its end. Exactly then the buffer
stays as it is.
-/

namespace Caret.Imports

open Script.Lexer (boundText importedText)

/-! ### The name that is added -/

/-- What is left after trimming does not end in white space. -/
theorem not_isSpace_of_getLast?_trim {word : Text} {c : Char} (htrim : Text.trim word = word)
    (hlast : word.getLast? = some c) : Text.isSpace c = false := by
  have hhead := List.head?_dropWhile_not Text.isSpace (word.dropWhile Text.isSpace).reverse
  have hreverse : ((word.dropWhile Text.isSpace).reverse.dropWhile Text.isSpace).head? = some c := by
    rw [← List.getLast?_reverse]
    exact (congrArg List.getLast? htrim).trans hlast
  rw [hreverse] at hhead
  simpa using hhead

/-- A text ends in a character that is no white space. -/
def EndsInInk (text : Text) : Prop :=
  ∃ c, text.getLast? = some c ∧ Text.isSpace c = false

theorem endsInInk_append {word : Text} (front : Text) (hne : word ≠ []) (htrim : Text.trim word = word) :
    EndsInInk (front ++ word) := by
  obtain ⟨c, hlast⟩ : ∃ c, word.getLast? = some c := ⟨_, List.getLast?_eq_some_getLast hne⟩
  exact ⟨c, by rw [List.getLast?_append, hlast, Option.some_or], not_isSpace_of_getLast?_trim htrim hlast⟩

theorem Request.Spaceless.endsInInk_token {request : Request} (h : request.Spaceless) :
    EndsInInk request.token := by
  have hbound : ∀ {name bind : Text} (usual : Text), name ≠ [] → Text.trim name = name →
      Text.trim bind = bind →
        EndsInInk (name ++ boundText (if bind = [] ∨ bind = usual then none else some bind)) := by
    intro name bind usual hne hname hbind
    by_cases hdefault : bind = [] ∨ bind = usual
    · rw [if_pos hdefault, boundText, List.append_nil]
      exact endsInInk_append [] hne hname
    · rw [if_neg hdefault, boundText, ← List.append_assoc]
      exact endsInInk_append _ (not_or.mp hdefault).1 hbind
  cases request with
  | ofModule module bind => exact hbound _ h.1 h.2.1 h.2.2
  | ofMember module name bind => exact hbound _ h.2.2.1 h.2.2.2.1 h.2.2.2.2

/-! ### Lines that keep their rest -/

/-- A line stays as it is apart from a name that is added to its code: no white space follows the code,
except for one blank before a comment, and a comment is followed by the end of the line. -/
def KeepsRest (raw : Text) : Prop :=
  if commentOf raw = [] then gapOf raw = []
  else endingOf raw ≠ [] ∧ (gapOf raw = [] ∨ gapOf raw = [' '])

instance : DecidablePred KeepsRest :=
  fun raw => inferInstanceAs (Decidable (if commentOf raw = [] then _ else _ ∧ (_ ∨ _)))

theorem KeepsRest.isInsertion {raw : Text} (h : KeepsRest raw) (token : Text) :
    IsInsertion (codeOf raw) raw (extended raw token) := by
  have hraw := line_eq raw
  have hcomma : ∀ more, ", ".toList ++ more ≠ [] := fun more => by simp
  unfold extended
  generalize ", ".toList = comma at hcomma ⊢
  unfold KeepsRest at h
  split at h
  · rename_i hcomment
    rw [h, hcomment, List.nil_append, List.nil_append] at hraw
    rw [remarkOf_of_eq hcomment, List.nil_append]
    by_cases hending : endingOf raw = []
    · rw [hending] at hraw
      exact ⟨[], _, hcomma (token ++ ['\n']), hraw, by rw [breakOf_of_eq hending]; simp⟩
    · exact ⟨endingOf raw, _, hcomma token, hraw, by rw [breakOf_of_ne hending]; simp⟩
  · rename_i hcomment
    rw [remarkOf_of_ne hcomment, breakOf_of_ne h.1]
    rcases h.2 with hgap | hgap
    · rw [hgap, List.nil_append] at hraw
      exact ⟨commentOf raw ++ endingOf raw, _, hcomma (token ++ [' ']), hraw, by simp⟩
    · rw [hgap] at hraw
      exact ⟨' ' :: (commentOf raw ++ endingOf raw), _, hcomma token, hraw, by simp⟩

/-! ### Lines whose rest is written anew -/

theorem append_suffix_append_iff {before before' after : Text} :
    before ++ after <:+ before' ++ after ↔ before <:+ before' := by
  constructor
  · rintro ⟨front, hfront⟩
    rw [← List.append_assoc] at hfront
    exact ⟨front, List.append_cancel_right hfront⟩
  · rintro ⟨front, rfl⟩
    exact ⟨front, by rw [List.append_assoc]⟩

theorem getLast?_of_suffix {before before' : Text} (hne : before ≠ []) (h : before <:+ before') :
    before'.getLast? = before.getLast? := by
  obtain ⟨front, rfl⟩ := h
  rw [List.getLast?_append_of_ne_nil _ hne]

/-- White space does not end a text that ends otherwise. -/
theorem EndsInInk.not_suffix {text gap : Text} (h : EndsInInk text) (hne : gap ≠ [])
    (hgap : ∀ c ∈ gap, Text.isSpace c = true) : ¬ gap <:+ text := by
  intro hsuffix
  obtain ⟨c, hlast, hink⟩ := h
  rw [getLast?_of_suffix hne hsuffix] at hlast
  rw [hgap c (List.mem_of_getLast? hlast)] at hink
  cases hink

/-- What is left of a line behind its code does not end the line with a name added to it, if its rest is
written anew. -/
theorem not_suffix_of_not_keepsRest {source raw : Text} (hraw : raw ∈ Text.lines source)
    (h : ¬ KeepsRest raw) {token : Text} (htoken : EndsInInk token) :
    ¬ gapOf raw ++ (commentOf raw ++ endingOf raw) <:+
      ", ".toList ++ (token ++ (remarkOf raw ++ breakOf raw)) := by
  have hbody : ∀ c ∈ gapOf raw ++ commentOf raw, c ≠ '\n' := by
    obtain ⟨_, -, hbody, -⟩ := Text.lineBody_of_mem_lines hraw
    rw [lineBody_eq] at hbody
    exact fun c hc => (hbody c (List.mem_append_right _ hc)).1
  have hspace := @isSpace_of_mem_gapOf raw
  have hink : EndsInInk (", ".toList ++ token) := by
    obtain ⟨c, hlast, hc⟩ := htoken
    exact ⟨c, by rw [List.getLast?_append, hlast, Option.some_or], hc⟩
  generalize ", ".toList = comma at hink ⊢
  by_cases hending : endingOf raw = []
  · -- The line ends in a line feed that it did not have.
    have hne : gapOf raw ++ commentOf raw ≠ [] := by
      intro hnil
      obtain ⟨hgap, hcomment⟩ := List.append_eq_nil_iff.mp hnil
      exact h (by rw [KeepsRest, if_pos hcomment]; exact hgap)
    intro hsuffix
    rw [hending, breakOf_of_eq hending, List.append_nil, ← List.append_assoc, ← List.append_assoc] at hsuffix
    have hlast := getLast?_of_suffix hne hsuffix
    rw [List.getLast?_concat] at hlast
    exact hbody _ (List.mem_of_getLast? hlast.symm) rfl
  · rw [breakOf_of_ne hending, ← List.append_assoc, ← List.append_assoc, ← List.append_assoc,
      append_suffix_append_iff]
    by_cases hcomment : commentOf raw = []
    · have hgap : gapOf raw ≠ [] := by rwa [KeepsRest, if_pos hcomment] at h
      rw [hcomment, remarkOf_of_eq hcomment, List.append_nil, List.append_nil]
      exact hink.not_suffix hgap hspace
    · rw [KeepsRest, if_neg hcomment, not_and, not_or] at h
      obtain ⟨hgap, hblank⟩ := h hending
      rw [remarkOf_of_ne hcomment, ← List.singleton_append, ← List.append_assoc, append_suffix_append_iff]
      rcases List.eq_nil_or_concat' (gapOf raw) with hnil | ⟨gap, c, hconcat⟩
      · exact absurd hnil hgap
      · intro hsuffix
        have hc : c = ' ' := by
          have hlast := getLast?_of_suffix hgap hsuffix
          rw [hconcat, List.getLast?_concat, List.getLast?_concat] at hlast
          exact (Option.some.inj hlast).symm
        rw [hconcat, hc, append_suffix_append_iff] at hsuffix
        rw [hconcat, hc] at hspace hblank
        refine hink.not_suffix ?_ (fun c hc => hspace c (List.mem_append_left _ hc)) hsuffix
        rintro rfl
        exact hblank rfl

/-- A line whose rest is written anew does not arise by an insertion, whatever stands around it. -/
theorem insertedSpan?_extended {source raw : Text} (hraw : raw ∈ Text.lines source)
    (h : ¬ KeepsRest raw) {token : Text} (htoken : EndsInInk token) (front back : Text) :
    insertedSpan? (front ++ (raw ++ back)) (front ++ (extended raw token ++ back)) = none := by
  have hsuffix := not_suffix_of_not_keepsRest hraw h htoken
  have hparting : (gapOf raw ++ (commentOf raw ++ endingOf raw) ++ back).head? ≠ some ',' := by
    rw [List.append_assoc, List.append_assoc]
    cases hgap : gapOf raw with
    | nil =>
      have hcomment : commentOf raw ≠ [] := by
        intro hcomment
        exact h (by rw [KeepsRest, if_pos hcomment]; exact hgap)
      obtain ⟨rest, hrest⟩ := exists_commentOf_eq hcomment
      rw [hrest]
      exact nofun
    | cons c gap =>
      have hspace : Text.isSpace c = true := isSpace_of_mem_gapOf c (by rw [hgap]; exact List.mem_cons_self)
      intro hhead
      obtain rfl : c = ',' := Option.some.inj hhead
      exact absurd hspace (by decide)
  have hline : raw ++ back = codeOf raw ++ (gapOf raw ++ (commentOf raw ++ endingOf raw) ++ back) := by
    nth_rewrite 1 [line_eq raw]
    rw [List.append_assoc]
  have hextended : extended raw token ++ back =
      codeOf raw ++ (", ".toList ++ (token ++ (remarkOf raw ++ breakOf raw)) ++ back) := by
    rw [extended, List.append_assoc (codeOf raw)]
  rw [hline, hextended, ← List.append_assoc front, ← List.append_assoc front]
  refine insertedSpan?_of_parting _ hparting ?_
  rwa [append_suffix_append_iff]

/-! ### Edits of a script -/

/-- A new line is an insertion. -/
theorem isInsertion_insertLine (source : Text) (index : Nat) {line : Text} (hne : line ≠ []) :
    IsInsertion ((Text.lines source).take index).flatten source (insertLine source index line) := by
  have hsource : source = ((Text.lines source).take index).flatten ++
      ((Text.lines source).drop index).flatten := by
    rw [← List.flatten_append, List.take_append_drop, Text.flatten_lines]
  obtain ⟨before, hinsert, ⟨rfl, -⟩ | ⟨rfl, hlength, -⟩⟩ := insertLine_eq source index line
  · exact ⟨_, line, hne, hsource, hinsert⟩
  · refine ⟨[], '\n' :: line, List.cons_ne_nil _ _, ?_, ?_⟩
    · rw [List.take_of_length_le hlength, Text.flatten_lines, List.append_nil]
    · rw [hinsert, List.take_of_length_le hlength, Text.flatten_lines, List.drop_of_length_le hlength]
      simp

/-- Whether a name is added to a line whose rest is written anew. -/
def Site.respaces (source : Text) : Site → Bool
  | .line _ => false
  | .name index => !decide (KeepsRest (((Text.lines source)[index]?).getD []))

/-- An edit that does not write the rest of a line anew is an insertion. -/
theorem EditedTo.isInsertion [CharacterNames] {source new : Text} {request : Request}
    (h : EditedTo source request new) (hkeeps : (site source request).respaces source = false) :
    IsInsertion ((site source request).front source) source new := by
  cases h with
  | @line index hsite =>
    rw [hsite]
    exact isInsertion_insertLine source index (List.append_ne_nil_of_left_ne_nil request.text_ne_nil ['\n'])
  | @name found raw hsite hstatement hopen hraw hplain =>
    rw [hsite, Site.respaces, hraw, Option.getD_some, Bool.not_eq_false', decide_eq_true_eq] at hkeeps
    have hinsertion := (hkeeps.isInsertion request.token).around
      ((Text.lines source).take (found.firstLine - 1)).flatten
      ((Text.lines source).drop (found.firstLine - 1 + 1)).flatten
    rw [← flatten_around hraw] at hinsertion
    rw [hsite, Site.front, hraw, Option.getD_some]
    exact hinsertion

/-- An edit that writes the rest of a line anew is not found to be an insertion. -/
theorem EditedTo.insertedSpan?_eq_none [CharacterNames] {source new : Text} {request : Request}
    (h : EditedTo source request new)
    (hspaceless : request.Spaceless) (hrespaces : (site source request).respaces source = true) :
    insertedSpan? source new = none := by
  cases h with
  | @line index hsite =>
    rw [hsite] at hrespaces
    cases hrespaces
  | @name found raw hsite hstatement hopen hraw hplain =>
    rw [hsite, Site.respaces, hraw, Option.getD_some, Bool.not_eq_true', decide_eq_false_iff_not] at hrespaces
    have hnone := insertedSpan?_extended (List.mem_of_getElem? hraw) hrespaces hspaceless.endsInInk_token
      ((Text.lines source).take (found.firstLine - 1)).flatten
      ((Text.lines source).drop (found.firstLine - 1 + 1)).flatten
    rwa [← flatten_around hraw] at hnone

/-- Whether the edit for a statement adds a name to a line whose rest it writes anew. -/
def respaces [CharacterNames] (source statement : Text) : Bool :=
  (Request.read? statement).any fun request => (site source request).respaces source

/-- An edit is found to be an insertion exactly if it does not write the rest of a line anew. -/
theorem insertedSpan?_insertStatement [CharacterNames] {source statement : Text}
    (h : (insertStatement source statement).status = .updated) :
    insertedSpan? source (insertStatement source statement).text = none ↔
      respaces source statement = true := by
  obtain ⟨request, hread, hspaceless, hedit⟩ := insertStatement_cases h
  rw [respaces, hread, Option.any_some]
  constructor
  · intro hnone
    by_contra hkeeps
    exact (hedit.isInsertion (Bool.eq_false_iff.mpr hkeeps)).insertedSpan?_ne_none hnone
  · exact hedit.insertedSpan?_eq_none hspaceless

end Caret.Imports

namespace Caret.Editor.Buffer

open Imports

section

open scoped CharacterNames

end

end Caret.Editor.Buffer
