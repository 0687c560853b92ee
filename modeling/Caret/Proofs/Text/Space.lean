import Caret.Proofs.Text.Cut
import Caret.Text.Line
import Caret.Text.Space
import Caret.Text.WordChar

/-!
# White space

White space is no part of a word, line breaks are white space, and texts that neither start nor end with
it are not changed when they are trimmed.
-/

namespace Caret.Text

/-! ### Classes of characters -/

/-- Whether no code point lies in two tables of spans. -/
def apart (table others : List Span) : Bool :=
  table.all fun span => others.all fun other => span.last < other.first || other.last < span.first

theorem inSpans_of_apart {table others : List Span} (h : apart table others = true) {n : Nat}
    (hn : inSpans table n = true) : inSpans others n = false := by
  obtain ⟨span, hspan, hhas⟩ := List.any_eq_true.mp hn
  rw [inSpans, List.any_eq_false]
  intro other hother hhas'
  have hapart := List.all_eq_true.mp (List.all_eq_true.mp h span hspan) other hother
  simp only [Span.has, Bool.and_eq_true, Bool.or_eq_true, decide_eq_true_eq] at hhas hhas' hapart
  omega

theorem spaceSpans_eq : spaceSpans =
    [⟨0x85, 0x85⟩, ⟨0xa0, 0xa0⟩, ⟨0x1680, 0x1680⟩, ⟨0x2000, 0x200a⟩, ⟨0x2028, 0x2029⟩, ⟨0x202f, 0x202f⟩,
      ⟨0x205f, 0x205f⟩, ⟨0x3000, 0x3000⟩] := by
  rfl

/-- No row of the table of letters and numerals has white space in it. -/
theorem apart_of_mem_wordRows : ∀ row ∈ wordRows, apart
    ((splitOn ' ' row.toList).map Span.read) spaceSpans = true := by
  -- The characters of a literal are known without evaluating its text.
  have hchars : ∀ chars : List Char, apart ((splitOn ' ' chars).map Span.read) spaceSpans = true →
      apart ((splitOn ' ' (String.ofList chars).toList).map Span.read) spaceSpans = true := by
    intro chars h
    rwa [String.toList_ofList]
  rw [spaceSpans_eq] at hchars ⊢
  simp only [wordRows, List.forall_mem_cons]
  and_intros
  all_goals first | exact hchars _ (by decide +kernel) | exact List.forall_mem_nil _

theorem apart_words_spaces : apart wordSpans spaceSpans = true := by
  rw [apart, wordSpans, spans, items, List.all_map, List.all_flatMap, List.all_eq_true]
  intro row hrow
  have h := apart_of_mem_wordRows row hrow
  rwa [apart, List.all_map] at h

theorem isSpace_of_isWord {c : Char} (h : isWord c = true) : isSpace c = false := by
  unfold isWord at h
  unfold isSpace
  split at h
  · rw [if_pos ‹_›]
    have hle : 48 ≤ c.toNat := by
      simp only [isAsciiLetter, isAsciiDigit, Bool.or_eq_true, Bool.and_eq_true, decide_eq_true_eq,
        beq_iff_eq, Char.le_def, UInt32.le_iff_toNat_le] at h
      rcases h with ((h | h) | h) | rfl
      · exact Nat.le_trans (by decide) h.1
      · exact Nat.le_trans (by decide) h.1
      · exact h.1
      · decide
    simp only [Bool.or_eq_false_iff, Bool.and_eq_false_iff, decide_eq_false_iff_not]
    omega
  · rw [if_neg ‹_›]
    exact inSpans_of_apart apart_words_spaces h

theorem isWord_of_isNameChar {c : Char} (hc : (isNameStart c || isAsciiDigit c) = true) :
    isWord c = true := by
  have hascii : c.toNat < 0x80 := by
    simp only [isNameStart, isAsciiLetter, isAsciiDigit, Bool.or_eq_true,
      Bool.and_eq_true, decide_eq_true_eq, beq_iff_eq, Char.le_def, UInt32.le_iff_toNat_le] at hc
    rcases hc with ((hc | hc) | rfl) | hc
    · exact Nat.lt_of_le_of_lt hc.2 (by decide)
    · exact Nat.lt_of_le_of_lt hc.2 (by decide)
    · decide
    · exact Nat.lt_of_le_of_lt hc.2 (by decide)
  rw [isWord, if_pos hascii, Bool.or_right_comm]
  exact hc

theorem isSpace_of_isLineBreak {c : Char} (h : isLineBreak c = true) : isSpace c = true := by
  simp only [isLineBreak, Bool.or_eq_true, Bool.and_eq_true, decide_eq_true_eq, beq_iff_eq] at h
  rw [isSpace]
  by_cases hascii : c.toNat < 0x80
  · rw [if_pos hascii]
    simp only [Bool.or_eq_true, Bool.and_eq_true, decide_eq_true_eq]
    omega
  · have hcode : c.toNat = 0x85 ∨ c.toNat = 0x2028 ∨ c.toNat = 0x2029 := by omega
    rw [if_neg hascii]
    rcases hcode with hcode | hcode | hcode <;> rw [hcode] <;> decide

theorem isBlank_of_not_isSpace {c : Char} (h : isSpace c = false) : isBlank c = false := by
  have hne : ∀ {d : Char}, isSpace d = true → c ≠ d := by
    rintro d hd rfl
    rw [h] at hd
    cases hd
  simp [isBlank, hne (d := ' ') (by decide), hne (d := '\t') (by decide)]

theorem isSpace_of_isBlank {c : Char} (h : isBlank c = true) : isSpace c = true := by
  cases hspace : isSpace c with
  | true => rfl
  | false =>
    rw [isBlank_of_not_isSpace hspace] at h
    cases h

/-! ### Trimming -/

theorem head?_trim {line cs : Text} {c : Char} (h : line.dropWhile isSpace = c :: cs) :
    (trim line).head? = some c ∧ isSpace c = false := by
  have hc : isSpace c = false := by
    have hhead := List.head?_dropWhile_not isSpace line
    rw [h] at hhead
    simpa using hhead
  refine ⟨?_, hc⟩
  have hsplit := dropEndWhile_append_takeEndWhile isSpace (c :: cs)
  have hspace := List.all_eq_true.mp (all_takeEndWhile isSpace (c :: cs))
  rw [trim, trimBy, h]
  cases htrim : dropEndWhile isSpace (c :: cs) with
  | nil =>
    rw [htrim, List.nil_append] at hsplit
    have hmem : c ∈ takeEndWhile isSpace (c :: cs) := by
      rw [hsplit]
      exact List.mem_cons_self
    rw [hspace c hmem] at hc
    cases hc
  | cons d ds =>
    rw [htrim, List.cons_append] at hsplit
    rw [(List.cons.inj hsplit).1, List.head?_cons]

/-- A text is more than white space exactly when something is left of it. -/
theorem isEmpty_trim_eq_false {text : Text} :
    (trim text).isEmpty = false ↔ ∃ c ∈ text, isSpace c = false := by
  cases hrest : text.dropWhile isSpace with
  | nil =>
    have hsplit := List.takeWhile_append_dropWhile (p := isSpace) (l := text)
    rw [hrest, List.append_nil] at hsplit
    have hspace := List.all_eq_true.mp (List.all_takeWhile (p := isSpace) (l := text))
    rw [hsplit] at hspace
    have htrim : trim text = [] := by rw [trim, trimBy, hrest]; rfl
    rw [htrim]
    refine ⟨fun h => absurd h (by decide), ?_⟩
    rintro ⟨c, hmem, hc⟩
    rw [hspace c hmem] at hc
    cases hc
  | cons c cs =>
    obtain ⟨hhead, hc⟩ := head?_trim hrest
    have hmem : c ∈ text := (List.dropWhile_suffix isSpace).subset (hrest ▸ List.mem_cons_self)
    refine ⟨fun _ => ⟨c, hmem, hc⟩, fun _ => ?_⟩
    cases htrim : trim text with
    | nil =>
      rw [htrim] at hhead
      cases hhead
    | cons d ds => rfl

theorem trim_eq_self {text : Text} (hhead : ∀ c ∈ text.head?, isSpace c = false)
    (hlast : ∀ c ∈ text.getLast?, isSpace c = false) : trim text = text :=
  trimBy_eq_self hhead hlast

theorem trim_of_not_isSpace {word : Text} (h : ∀ c ∈ word, isSpace c = false) : trim word = word :=
  trim_eq_self (fun c hc => h c (List.mem_of_mem_head? hc)) (fun c hc => h c (List.mem_of_getLast? hc))

/-- A word that stands before white space is there when what follows is cut off. -/
theorem takeWhile_of_append {p : Char → Bool} {text rest word : Text} (h : (text ++ rest).takeWhile p = word)
    (hword : ∀ c ∈ word, isSpace c = false)
    (hcut : (∃ c, text.getLast? = some c ∧ isSpace c = true) ∨ ∀ c ∈ rest, isSpace c = true) :
    text.takeWhile p = word := by
  rw [List.takeWhile_append] at h
  split at h
  · rename_i hlength
    have htext := (List.takeWhile_prefix p).eq_of_length hlength
    rcases hcut with ⟨c, hlast, hc⟩ | hrest
    · have hmem : c ∈ word := h ▸ List.mem_append_left _ (List.mem_of_getLast? hlast)
      rw [hword c hmem] at hc
      cases hc
    · have hnil : rest.takeWhile p = [] := by
        rw [List.eq_nil_iff_forall_not_mem]
        intro c hmem
        have hc := hrest c ((List.takeWhile_prefix p).subset hmem)
        rw [hword c (h ▸ List.mem_append_right _ hmem)] at hc
        cases hc
      rw [htext, ← h, hnil, List.append_nil]
  · exact h

end Caret.Text
