import Caret.Text.Basic
import Mathlib.Data.List.Infix

/-!
# Cutting a text

What the cutting operations on texts leave and what they take away. A text is always put together
again from the two sides of a cut, and the side that was cut off is known by its characters. The
rest of the theory uses the operations through these facts.
-/

namespace Caret.Text

theorem startsWith_iff {text start : Text} : startsWith text start = true ↔ start <+: text :=
  List.isPrefixOf_iff_prefix

theorem endsWith_iff {text finish : Text} : endsWith text finish = true ↔ finish <:+ text :=
  List.isSuffixOf_iff_suffix

theorem endsWith_singleton {text : Text} {c : Char} : endsWith text [c] = true ↔ text.getLast? = some c := by
  rw [endsWith_iff, List.getLast?_eq_some_iff]
  exact exists_congr fun _ => eq_comm

/-- A property of all characters of a text is decided one character after the other. -/
theorem forall_mem_of_all {p : Char → Prop} [DecidablePred p] {text : Text}
    (h : (text.all fun c => decide (p c)) = true) : ∀ c ∈ text, p c :=
  fun c hc => of_decide_eq_true (List.all_eq_true.mp h c hc)

/-! ### First runs -/

theorem any_head?_iff {p : Char → Bool} {text : Text} :
    (text.head?).any p = true ↔ text.takeWhile p ≠ [] := by
  cases text with
  | nil => simp
  | cons c cs =>
    rw [List.head?_cons, Option.any_some, List.takeWhile_cons]
    split <;> simp_all

section

variable {p : Char → Bool} {run rest : Text} (hrun : ∀ c ∈ run, p c = true)
  (hrest : ∀ c ∈ rest.head?, p c = false)

include hrun hrest

theorem dropWhile_run : (run ++ rest).dropWhile p = rest := by
  rw [List.dropWhile_append_of_pos hrun]
  cases rest with
  | nil => rfl
  | cons c cs => rw [List.dropWhile_cons, if_neg (by simp [hrest c rfl])]

/-- A run of a class is taken whole where what follows does not go on with it. -/
theorem takeWhile_run : (run ++ rest).takeWhile p = run := by
  have hsplit := List.takeWhile_append_dropWhile (p := p) (l := run ++ rest)
  rw [dropWhile_run hrun hrest] at hsplit
  exact List.append_cancel_right hsplit

end

theorem head?_dropWhile {p : Char → Bool} {text : Text} : ∀ c ∈ (text.dropWhile p).head?, p c = false := by
  intro c hc
  have hnot := List.head?_dropWhile_not p text
  rw [Option.mem_def.mp hc] at hnot
  simpa using hnot

/-! ### Final runs -/

theorem dropEndWhile_append_takeEndWhile (p : Char → Bool) (text : Text) :
    dropEndWhile p text ++ takeEndWhile p text = text := by
  rw [dropEndWhile, takeEndWhile, ← List.reverse_append, List.takeWhile_append_dropWhile,
    List.reverse_reverse]

theorem takeEndWhile_suffix (p : Char → Bool) (text : Text) : takeEndWhile p text <:+ text :=
  ⟨dropEndWhile p text, dropEndWhile_append_takeEndWhile p text⟩

theorem dropEndWhile_isPrefix (p : Char → Bool) (text : Text) : dropEndWhile p text <+: text :=
  ⟨takeEndWhile p text, dropEndWhile_append_takeEndWhile p text⟩

theorem all_takeEndWhile (p : Char → Bool) (text : Text) : (takeEndWhile p text).all p = true := by
  rw [takeEndWhile, List.all_reverse]
  exact List.all_takeWhile

/-- A suffix of characters of a class is part of the final run of that class. -/
theorem suffix_takeEndWhile {p : Char → Bool} {text finish : Text} (hfinish : finish <:+ text)
    (hall : finish.all p = true) : finish <:+ takeEndWhile p text := by
  obtain ⟨front, rfl⟩ := hfinish
  rw [takeEndWhile, List.reverse_append]
  have hreverse : ∀ c ∈ finish.reverse, p c = true := by
    intro c hc
    exact List.all_eq_true.mp hall c (List.mem_reverse.mp hc)
  rw [List.takeWhile_append_of_pos hreverse, List.reverse_append, List.reverse_reverse]
  exact List.suffix_append _ _

/-- Behind the part before a suffix stands the suffix. -/
theorem take_append_of_suffix {text finish : Text} (hfinish : finish <:+ text) :
    text.take (text.length - finish.length) ++ finish = text := by
  obtain ⟨front, rfl⟩ := hfinish
  rw [List.length_append, Nat.add_sub_cancel, List.take_left]

/-- Of two suffixes the longer one leaves less. -/
theorem take_prefix_take_of_suffix {text short long : Text} (hlong : short <:+ long) :
    text.take (text.length - long.length) <+: text.take (text.length - short.length) := by
  have := hlong.length_le
  exact List.take_prefix_take_left (by omega)

/-- A text without its last characters. -/
theorem upTo_length_sub {text : Text} {n : Nat} (hle : n ≤ text.length) :
    upTo text ((text.length : Int) - n) = text.take (text.length - n) := by
  have hpos : ¬ ((text.length : Int) - n < 0) := by omega
  rw [upTo, if_neg hpos]
  congr 1
  omega

/-- A text that starts with another one is put together from it and what comes behind it. -/
theorem append_drop_of_prefix {start text : Text} (hstart : start <+: text) :
    start ++ text.drop start.length = text :=
  (List.prefix_append_drop hstart).symm

theorem dropEndWhile_eq_self {p : Char → Bool} {text : Text}
    (hlast : ∀ c ∈ text.getLast?, p c = false) : dropEndWhile p text = text := by
  have hend : text.reverse.dropWhile p = text.reverse := by
    cases hreverse : text.reverse with
    | nil => rfl
    | cons c cs =>
      have hc : c ∈ text.getLast? := by rw [List.getLast?_eq_head?_reverse, hreverse]; rfl
      rw [List.dropWhile_cons, if_neg (by simp [hlast c hc])]
  rw [dropEndWhile, hend, List.reverse_reverse]

section

variable {p : Char → Bool} {front run : Text} (hfront : ∀ c ∈ front.getLast?, p c = false)
  (hrun : ∀ c ∈ run, p c = true)

include hfront hrun

theorem dropEndWhile_run : dropEndWhile p (front ++ run) = front := by
  have hreverse : ∀ c ∈ run.reverse, p c = true := fun c hc => hrun c (List.mem_reverse.mp hc)
  rw [dropEndWhile, List.reverse_append, List.dropWhile_append_of_pos hreverse, ← dropEndWhile,
    dropEndWhile_eq_self hfront]

/-- A final run of a class is taken whole where what stands before it does not end with the class. -/
theorem takeEndWhile_run : takeEndWhile p (front ++ run) = run := by
  have hsplit := dropEndWhile_append_takeEndWhile p (front ++ run)
  rw [dropEndWhile_run hfront hrun] at hsplit
  exact List.append_cancel_left hsplit

end

theorem getLast?_dropEndWhile {p : Char → Bool} {text : Text} :
    ∀ c ∈ (dropEndWhile p text).getLast?, p c = false := by
  intro c hc
  rw [dropEndWhile, List.getLast?_reverse] at hc
  exact head?_dropWhile c hc

/-- Where neither end is of a class, there is nothing to trim. -/
theorem trimBy_eq_self {p : Char → Bool} {text : Text} (hhead : ∀ c ∈ text.head?, p c = false)
    (hlast : ∀ c ∈ text.getLast?, p c = false) : trimBy p text = text := by
  have hstart : text.dropWhile p = text := by
    cases text with
    | nil => rfl
    | cons c cs => rw [List.dropWhile_cons, if_neg (by simp [hhead c rfl])]
  rw [trimBy, hstart, dropEndWhile_eq_self hlast]

theorem head?_trimBy {p : Char → Bool} {text : Text} : ∀ c ∈ (trimBy p text).head?, p c = false := by
  intro c hc
  have hstart : c ∈ (text.dropWhile p).head? := by
    obtain ⟨rest, hrest⟩ := dropEndWhile_isPrefix p (text.dropWhile p)
    rw [← hrest, List.head?_append, ← trimBy, Option.mem_def.mp hc]
    rfl
  exact head?_dropWhile c hstart

theorem getLast?_trimBy {p : Char → Bool} {text : Text} : ∀ c ∈ (trimBy p text).getLast?, p c = false :=
  getLast?_dropEndWhile

/-- A text that was trimmed has nothing more to trim. -/
theorem trimBy_trimBy (p : Char → Bool) (text : Text) : trimBy p (trimBy p text) = trimBy p text :=
  trimBy_eq_self head?_trimBy getLast?_trimBy

/-! ### The last separator -/

theorem splitLast?_eq_none {sep : Char} {text : Text} (hnone : splitLast? sep text = none) :
    sep ∉ text := by
  induction text with
  | nil => exact List.not_mem_nil
  | cons c cs ih =>
    rw [splitLast?] at hnone
    cases hrest : splitLast? sep cs with
    | some found => simp [hrest] at hnone
    | none =>
      rw [hrest] at hnone
      have hne : c ≠ sep := by
        intro heq
        simp [heq] at hnone
      rw [List.mem_cons, not_or]
      exact ⟨hne.symm, ih hrest⟩

theorem splitLast?_eq_some {sep : Char} {text before after : Text}
    (hsome : splitLast? sep text = some (before, after)) :
    text = before ++ sep :: after ∧ sep ∉ after := by
  induction text generalizing before with
  | nil => simp [splitLast?] at hsome
  | cons c cs ih =>
    rw [splitLast?] at hsome
    cases hrest : splitLast? sep cs with
    | some found =>
      obtain ⟨front, back⟩ := found
      rw [hrest] at hsome
      obtain ⟨rfl, rfl⟩ : c :: front = before ∧ back = after := by simpa using hsome
      obtain ⟨hcs, hback⟩ := ih hrest
      exact ⟨by rw [hcs, List.cons_append], hback⟩
    | none =>
      rw [hrest] at hsome
      by_cases heq : c = sep
      · obtain ⟨rfl, rfl⟩ : [] = before ∧ cs = after := by simpa [heq] using hsome
        exact ⟨by rw [heq, List.nil_append], splitLast?_eq_none hrest⟩
      · simp [heq] at hsome

theorem splitLast?_of_not_mem {sep : Char} {text : Text} (hfree : sep ∉ text) :
    splitLast? sep text = none := by
  cases hsplit : splitLast? sep text with
  | none => rfl
  | some found =>
    refine absurd ?_ hfree
    rw [(splitLast?_eq_some hsplit).1]
    exact List.mem_append_right _ List.mem_cons_self

theorem splitLast?_append {sep : Char} {before after : Text} (hfree : sep ∉ after) :
    splitLast? sep (before ++ sep :: after) = some (before, after) := by
  induction before with
  | nil => rw [List.nil_append, splitLast?, splitLast?_of_not_mem hfree, if_pos rfl]
  | cons c cs ih => rw [List.cons_append, splitLast?, ih]

theorem afterLast_suffix (sep : Char) (text : Text) : afterLast sep text <:+ text := by
  rw [afterLast]
  cases hsplit : splitLast? sep text with
  | none => exact List.suffix_refl text
  | some found =>
    obtain ⟨before, after⟩ := found
    rw [(splitLast?_eq_some hsplit).1]
    exact (List.suffix_cons sep after).trans (List.suffix_append _ _)

theorem not_mem_afterLast (sep : Char) (text : Text) : sep ∉ afterLast sep text := by
  rw [afterLast]
  cases hsplit : splitLast? sep text with
  | none => exact splitLast?_eq_none hsplit
  | some found => exact (splitLast?_eq_some hsplit).2

/-- A text without line feeds has no final one to lose. -/
theorem withoutFinalNewline_of_not_mem {text : Text} (hfree : '\n' ∉ text) :
    withoutFinalNewline text = text := by
  have hends : ¬ endsWith text ['\n'] = true := by
    rw [endsWith_iff]
    intro hsuffix
    exact hfree (hsuffix.subset (List.mem_singleton.mpr rfl))
  rw [withoutFinalNewline, if_neg hends]

end Caret.Text
