import Caret.Line.Block
import Caret.Proofs.Text.Lines
import Caret.Proofs.Text.Space
import Mathlib.Data.List.TakeWhile

/-!
# The header of an open block

Which line is a header, and which one is looked at, is said here without the functions that look for it.
A header is an indentation, code that ends in a colon, blanks and a comment; the line in question is the
last one of the text that is not blank. Its start is counted from the start of the text, while the search
counts what is left before it.
-/

namespace Caret.Line

/-! ### Headers -/

/-- The parts of a block's header. The code has two characters at least, starts with neither white space
nor a comment, and ends in a colon. -/
structure IsHeaderOf (indentation code blanks comment : Text) : Prop where
  indentation : ∀ c ∈ indentation, Text.isBlank c = true
  start : ∀ c ∈ code.head?, Text.isSpace c = false ∧ c ≠ '#'
  length : 2 ≤ code.length
  colon : code.getLast? = some ':'
  free : '#' ∉ code
  blanks : ∀ c ∈ blanks, Text.isBlank c = true
  comment : ∀ c ∈ comment.head?, c = '#'

/-- A line's body that is a block's header with an indentation. -/
def IsHeader (body indentation : Text) : Prop :=
  ∃ code blanks comment, IsHeaderOf indentation code blanks comment ∧
    body = indentation ++ (code ++ (blanks ++ comment))

theorem isBlank_of_mem_indentation {line : Text} : ∀ c ∈ Text.indentation line, Text.isBlank c = true :=
  fun _ hc => List.mem_takeWhile_imp hc

section

variable {indentation code blanks comment : Text} (h : IsHeaderOf indentation code blanks comment)

include h

theorem IsHeaderOf.exists_cons : ∃ c cs, code = c :: cs ∧ Text.isSpace c = false ∧ c ≠ '#' := by
  cases code with
  | nil => exact absurd h.length (by decide)
  | cons c cs => exact ⟨c, cs, rfl, h.start c rfl⟩

theorem IsHeaderOf.indentation_eq :
    Text.indentation (indentation ++ (code ++ (blanks ++ comment))) = indentation := by
  obtain ⟨c, cs, rfl, hc, -⟩ := h.exists_cons
  refine Text.takeWhile_run h.indentation ?_
  rintro d ⟨⟩
  exact Text.isBlank_of_not_isSpace hc

theorem IsHeaderOf.beforeFirst_eq :
    Text.beforeFirst '#' (code ++ (blanks ++ comment)) = code ++ blanks := by
  rw [← List.append_assoc]
  refine Text.takeWhile_run (fun c hc => ?_) fun c hc => by simp [h.comment c hc]
  rw [decide_eq_true_eq]
  rintro rfl
  rcases List.mem_append.mp hc with hc | hc
  · exact h.free hc
  · exact absurd (h.blanks _ hc) (by decide)

theorem IsHeaderOf.code_eq : Text.dropEndWhile Text.isBlank (code ++ blanks) = code := by
  refine Text.dropEndWhile_run (fun c hc => ?_) h.blanks
  rw [h.colon] at hc
  cases hc
  decide

end

theorem headerIndentation?_eq_some_iff {body indentation : Text} :
    headerIndentation? body = some indentation ↔ IsHeader body indentation := by
  unfold headerIndentation?
  dsimp only
  rw [Option.ite_none_right_eq_some, Option.some.injEq]
  constructor
  · rintro ⟨hheader, rfl⟩
    simp only [Bool.and_eq_true, decide_eq_true_eq] at hheader
    obtain ⟨⟨hstart, hlength⟩, hends⟩ := hheader
    have hbody := Text.append_drop_of_prefix (List.takeWhile_prefix (p := Text.isBlank) (l := body))
    rw [← Text.indentation] at hbody
    generalize body.drop (Text.indentation body).length = statement at hbody hstart hlength hends
    have hstatement : Text.beforeFirst '#' statement ++ statement.dropWhile (· ≠ '#') = statement :=
      List.takeWhile_append_dropWhile
    have hfront := Text.dropEndWhile_append_takeEndWhile Text.isBlank (Text.beforeFirst '#' statement)
    generalize hcode : Text.dropEndWhile Text.isBlank (Text.beforeFirst '#' statement) = code
      at hfront hlength hends
    have hwhole : code ++ (Text.takeEndWhile Text.isBlank (Text.beforeFirst '#' statement) ++
        statement.dropWhile (· ≠ '#')) = statement := by
      rw [← List.append_assoc, hfront, hstatement]
    refine ⟨code, _, _, ⟨isBlank_of_mem_indentation, fun c hc => ?_, hlength, ?_, fun hmem => ?_,
      List.all_eq_true.mp (Text.all_takeEndWhile _ _), fun c hc => ?_⟩, by rw [hwhole, hbody]⟩
    · rw [← hwhole, List.head?_append, Option.mem_def.mp hc, Option.some_or, Option.any_some,
        Bool.and_eq_true, Bool.not_eq_true', bne_iff_ne] at hstart
      exact hstart
    · exact Text.endsWith_singleton.mp hends
    · have hkept : '#' ∈ Text.beforeFirst '#' statement := hfront ▸ List.mem_append_left _ hmem
      simpa using List.mem_takeWhile_imp hkept
    · simpa using Text.head?_dropWhile c hc
  · rintro ⟨code, blanks, comment, h, rfl⟩
    rw [h.indentation_eq, List.drop_left, h.beforeFirst_eq, h.code_eq]
    obtain ⟨c, cs, hcode, hspace, hcomment⟩ := h.exists_cons
    have hends := Text.endsWith_singleton.mpr h.colon
    have hhead : (code ++ (blanks ++ comment)).head? = some c := by rw [hcode]; rfl
    simp [hhead, hspace, hcomment, h.length, hends]

theorem IsHeader.isBlank {body indentation : Text} (h : IsHeader body indentation) :
    ∀ c ∈ indentation, Text.isBlank c = true := by
  obtain ⟨code, blanks, comment, hparts, -⟩ := h
  exact hparts.indentation

theorem IsHeader.colon_mem {body indentation : Text} (h : IsHeader body indentation) : ':' ∈ body := by
  obtain ⟨code, blanks, comment, hparts, rfl⟩ := h
  have hmem := List.mem_of_getLast? hparts.colon
  exact List.mem_append_right _ (List.mem_append_left _ hmem)

/-! ### The line that is looked at -/

/-- A line is blank without its final carriage returns and line feeds if it is blank with them. -/
theorem isEmpty_trim_lineBody {raw : Text} :
    (Text.trim (Text.lineBody raw)).isEmpty = true ↔ ∀ c ∈ raw, Text.isSpace c = true := by
  have hending : ∀ c ∈ Text.takeEndWhile (fun c => c == '\r' || c == '\n') raw, Text.isSpace c = true := by
    intro c hc
    have hbreak := List.all_eq_true.mp (Text.all_takeEndWhile _ raw) c hc
    rw [Bool.or_eq_true, beq_iff_eq, beq_iff_eq] at hbreak
    rcases hbreak with rfl | rfl <;> decide
  have hraw : Text.lineBody raw ++ Text.takeEndWhile (fun c => c == '\r' || c == '\n') raw = raw :=
    Text.dropEndWhile_append_takeEndWhile _ raw
  rw [← Bool.not_eq_false, Text.isEmpty_trim_eq_false]
  constructor
  · intro hblank c hc
    rw [← hraw, List.mem_append] at hc
    rcases hc with hc | hc
    · exact Bool.not_eq_false _ ▸ fun hspace => hblank ⟨c, hc, hspace⟩
    · exact hending c hc
  · rintro hblank ⟨c, hc, hspace⟩
    rw [hblank c (hraw ▸ List.mem_append_left _ hc)] at hspace
    cases hspace

theorem IsHeader.not_blank {line indentation : Text} (h : IsHeader (Text.lineBody line) indentation) :
    ¬ ∀ c ∈ line, Text.isSpace c = true := by
  obtain ⟨code, blanks, comment, hparts, hbody⟩ := h
  obtain ⟨c, cs, hcode, hspace, -⟩ := hparts.exists_cons
  have hmem : c ∈ Text.lineBody line := by
    rw [hbody, hcode]
    simp
  intro hblank
  rw [hblank c ((Text.dropEndWhile_isPrefix _ line).subset hmem)] at hspace
  cases hspace

/-- The search stops at the last line that is not blank. -/
theorem headerAmong?_eq_some_iff {found : List Text} {start : Nat} {indentation : Text} :
    headerAmong? found.reverse = some (start, indentation) ↔
      ∃ before line after, found = before ++ line :: after ∧
        (∀ blank ∈ after, ∀ c ∈ blank, Text.isSpace c = true) ∧
        start = before.flatten.length ∧ IsHeader (Text.lineBody line) indentation := by
  induction found using List.reverseRecOn with
  | nil => simp [headerAmong?]
  | append_singleton front raw ih =>
    -- the last line is the one in question, or it is one of the blank lines behind that
    have hsplit : ∀ {before after : List Text} {line : Text}, front ++ [raw] = before ++ line :: after →
        (front = before ∧ raw = line ∧ after = []) ∨
          ∃ more, after = more ++ [raw] ∧ front = before ++ line :: more := by
      intro before after line heq
      rcases List.eq_nil_or_concat' after with rfl | ⟨more, last, rfl⟩
      · obtain ⟨rfl, hlast⟩ := List.append_inj' heq rfl
        exact .inl ⟨rfl, (List.cons.inj hlast).1, rfl⟩
      · rw [← List.cons_append, ← List.append_assoc] at heq
        obtain ⟨rfl, hlast⟩ := List.append_inj' heq rfl
        exact .inr ⟨more, by rw [hlast], rfl⟩
    rw [List.reverse_append, List.reverse_singleton, List.singleton_append, headerAmong?]
    by_cases hblank : (Text.trim (Text.lineBody raw)).isEmpty = true
    · rw [if_pos hblank, ih]
      rw [isEmpty_trim_lineBody] at hblank
      constructor
      · rintro ⟨before, line, after, rfl, hafter, hstart, hheader⟩
        refine ⟨before, line, after ++ [raw], by simp, fun blank hmem => ?_, hstart, hheader⟩
        rcases List.mem_append.mp hmem with hmem | hmem
        · exact hafter blank hmem
        · exact List.mem_singleton.mp hmem ▸ hblank
      · rintro ⟨before, line, after, heq, hafter, hstart, hheader⟩
        rcases hsplit heq with ⟨-, rfl, -⟩ | ⟨more, rfl, rfl⟩
        · exact absurd hblank hheader.not_blank
        · exact ⟨before, line, more, rfl, fun blank hmem => hafter blank (List.mem_append_left _ hmem),
            hstart, hheader⟩
    · have hlength : front.reverse.flatten.length = front.flatten.length :=
        (List.reverse_perm front).flatten.length_eq
      rw [if_neg hblank, hlength]
      rw [isEmpty_trim_lineBody] at hblank
      constructor
      · intro hfound
        obtain ⟨_, hheader, heq⟩ := Option.map_eq_some_iff.mp hfound
        cases heq
        exact ⟨front, raw, [], rfl, List.forall_mem_nil _, rfl, headerIndentation?_eq_some_iff.mp hheader⟩
      · rintro ⟨before, line, after, heq, hafter, hstart, hheader⟩
        rcases hsplit heq with ⟨rfl, rfl, -⟩ | ⟨more, rfl, -⟩
        · rw [headerIndentation?_eq_some_iff.mpr hheader, hstart]
          rfl
        · exact absurd (hafter raw (by simp)) hblank

/-- A block is open at the end of a text: the text ends with a line feed, and the last of its lines that is
not blank is, without its final carriage returns and line feeds, a header. -/
def OpensBlock (text : Text) (start : Nat) (indentation : Text) : Prop :=
  text.getLast? = some '\n' ∧ ∃ before body ending after,
    Text.IsLines text (before ++ (body ++ ending) :: after) ∧
    (∀ blank ∈ after, ∀ c ∈ blank, Text.isSpace c = true) ∧
    (∀ c ∈ ending, c = '\r' ∨ c = '\n') ∧ (∀ c ∈ body.getLast?, c ≠ '\r' ∧ c ≠ '\n') ∧
    start = before.flatten.length ∧ IsHeader body indentation

theorem lineBody_eq_iff {line body : Text} :
    Text.lineBody line = body ↔ ∃ ending, line = body ++ ending ∧ (∀ c ∈ ending, c = '\r' ∨ c = '\n') ∧
      ∀ c ∈ body.getLast?, c ≠ '\r' ∧ c ≠ '\n' := by
  constructor
  · rintro rfl
    refine ⟨_, (Text.dropEndWhile_append_takeEndWhile _ line).symm, fun c hc => ?_, fun c hc => ?_⟩
    · simpa using List.all_eq_true.mp (Text.all_takeEndWhile _ line) c hc
    · simpa using Text.getLast?_dropEndWhile c hc
  · rintro ⟨ending, rfl, hending, hbody⟩
    exact Text.dropEndWhile_run (fun c hc => by simpa using hbody c hc) fun c hc => by simpa using hending c hc

theorem blockHeader?_eq_some_iff {text indentation : Text} {start : Nat} :
    blockHeader? text = some (start, indentation) ↔ OpensBlock text start indentation := by
  rw [blockHeader?, Option.ite_none_right_eq_some, Text.endsWith_singleton, headerAmong?_eq_some_iff]
  refine and_congr_right fun _ => ⟨?_, ?_⟩
  · rintro ⟨before, line, after, hlines, hafter, hstart, hheader⟩
    obtain ⟨ending, hline, hending, hbody⟩ := lineBody_eq_iff.mp (Eq.refl (Text.lineBody line))
    rw [hline] at hlines
    exact ⟨before, _, ending, after, Text.lines_eq_iff.mp hlines, hafter, hending, hbody, hstart, hheader⟩
  · rintro ⟨before, body, ending, after, hlines, hafter, hending, hbody, hstart, hheader⟩
    rw [← lineBody_eq_iff.mpr ⟨ending, rfl, hending, hbody⟩] at hheader
    exact ⟨before, _, after, Text.lines_eq_iff.mpr hlines, hafter, hstart, hheader⟩

/-- The header that is found is the header of the block that is open at the end of the text. Where no block
is open, none is found. -/
theorem blockHeader?_iff_opensBlock (text : Text) :
    (∀ start indentation,
      blockHeader? text = some (start, indentation) ↔ OpensBlock text start indentation) ∧
    ((∀ start indentation, ¬ OpensBlock text start indentation) → blockHeader? text = none) := by
  refine ⟨fun _ _ => blockHeader?_eq_some_iff, fun hnone => ?_⟩
  cases hheader : blockHeader? text with
  | none => rfl
  | some found => exact absurd (blockHeader?_eq_some_iff.mp hheader) (hnone found.1 found.2)

/-- A break that only an editor knows stays with its line: in a comment it does no harm, behind the colon
no header is left. -/
theorem blockHeader?_iff_opensBlock_vertical_tab :
    OpensBlock "a\n  b: # c\x0b\n\x1c\n".toList 2 "  ".toList ∧
      ∀ start indentation, ¬ OpensBlock "a\n  b:\x0b\n".toList start indentation := by
  have hopen : blockHeader? "a\n  b: # c\x0b\n\x1c\n".toList = some (2, "  ".toList) := by decide
  have hclosed : blockHeader? "a\n  b:\x0b\n".toList = none := by decide
  refine ⟨((blockHeader?_iff_opensBlock _).1 _ _).mp hopen, fun start indentation hopens => ?_⟩
  have hfound := ((blockHeader?_iff_opensBlock _).1 _ _).mpr hopens
  rw [hclosed] at hfound
  cases hfound

end Caret.Line
