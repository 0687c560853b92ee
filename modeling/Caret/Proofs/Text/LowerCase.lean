import Caret.Text.LowerCase
import Mathlib.Data.List.Infix
import Mathlib.Data.List.TakeWhile

/-!
# Parts of a text in lower case

The lower case of a part of a text is a part of the text's lower case, but for one letter: a capital
sigma is written in two ways, as its neighbours want it. Most parts settle that by themselves. Two kinds do
not. One ends in a capital sigma, which is final unless a letter follows the part; the other starts with
one that no letter follows in it, which is final as soon as a letter stands before the part. The main
results are that these are all: every other text stays a part in lower case, wherever it occurs, and each
of these is lost somewhere.
-/

namespace Caret.Text

/-! ### Occurrence -/

theorem occursIn_iff {needle text : Text} : occursIn needle text = true ↔ needle <:+: text := by
  induction text with
  | nil => rw [occursIn, List.isEmpty_iff, List.infix_nil]
  | cons c cs ih => rw [occursIn, Bool.or_eq_true, List.isPrefixOf_iff_prefix, ih, List.infix_cons_iff]

/-! ### Seeing a letter -/

section

variable {text more : Text}

theorem meetsCased_append_of_all (hall : ∀ c ∈ text, isCaseIgnorable c = true) :
    meetsCased (text ++ more) = meetsCased more := by
  rw [meetsCased, List.dropWhile_append_of_pos hall, meetsCased]

theorem meetsCased_of_all (hall : ∀ c ∈ text, isCaseIgnorable c = true) : meetsCased text = false := by
  have happend : meetsCased (text ++ []) = meetsCased [] := meetsCased_append_of_all hall
  rwa [List.append_nil] at happend

/-- What the end of a word is seen through decides nothing; the first other character does. -/
theorem meetsCased_append_of_not_all (hnot : ¬ ∀ c ∈ text, isCaseIgnorable c = true) :
    meetsCased (text ++ more) = meetsCased text := by
  have hrest : text.dropWhile isCaseIgnorable ≠ [] := by
    rwa [Ne, List.dropWhile_eq_nil_iff]
  rw [meetsCased, meetsCased, List.dropWhile_append, if_neg (by rwa [List.isEmpty_iff]),
    List.head?_append_of_ne_nil _ hrest]

theorem meetsCased_append (hmeets : meetsCased text = true) : meetsCased (text ++ more) = true := by
  rw [meetsCased_append_of_not_all, hmeets]
  intro hall
  rw [meetsCased_of_all hall] at hmeets
  cases hmeets

end

/-! ### A text among its neighbours -/

/-- Whether a capital sigma between two texts, the first of them nearest first, is final. -/
def isFinal (before after : Text) : Bool :=
  meetsCased before && !meetsCased after

/-- The lower case of a text between two others, the first of them nearest first. -/
def lowerBetween (before after : Text) : Text → Text
  | [] => []
  | c :: cs =>
    (if c = 'Σ' then if isFinal before (cs ++ after) then ['ς'] else ['σ']
      else lowerChar c) ++ lowerBetween (c :: before) after cs

theorem lowerBetween_append (before after text more : Text) :
    lowerBetween before after (text ++ more) =
      lowerBetween before (more ++ after) text ++ lowerBetween (text.reverse ++ before) after more := by
  induction text generalizing before with
  | nil => rfl
  | cons c cs ih =>
    rw [List.cons_append, lowerBetween, ih, lowerBetween, List.reverse_cons, List.append_assoc,
      List.append_assoc, List.append_assoc]
    rfl

theorem lower_eq (text : Text) : lower text = lowerBetween [] [] text := by
  have hafter : ∀ before, lowerAfter before text = lowerBetween before [] text := by
    induction text with
    | nil => exact fun _ => rfl
    | cons c cs ih =>
      intro before
      rw [lowerAfter, lowerBetween, ih, List.append_nil]
      rfl
  exact hafter []

/-- Inside a text, a part is written as its neighbours there want it. -/
theorem lowerBetween_infix_lower (before text after : Text) :
    lowerBetween before.reverse after text <:+: lower (before ++ text ++ after) := by
  rw [lower_eq, lowerBetween_append, lowerBetween_append, List.append_nil, List.append_nil]
  exact ⟨_, _, rfl⟩

/-- Only the capital sigmas of a text look at its neighbours. -/
theorem lowerBetween_congr {before after before' after' text : Text}
    (hfinal : ∀ front rest, text = front ++ 'Σ' :: rest →
      isFinal (front.reverse ++ before) (rest ++ after) =
        isFinal (front.reverse ++ before') (rest ++ after')) :
    lowerBetween before after text = lowerBetween before' after' text := by
  induction text generalizing before before' with
  | nil => rfl
  | cons c cs ih =>
    have htail : lowerBetween (c :: before) after cs = lowerBetween (c :: before') after' cs := by
      apply ih
      intro front rest hsplit
      have hfinal := hfinal (c :: front) rest (by rw [hsplit, List.cons_append])
      simpa using hfinal
    rw [lowerBetween, lowerBetween, htail]
    by_cases hsigma : c = 'Σ'
    · have hhead := hfinal [] cs (by rw [hsigma, List.nil_append])
      rw [List.reverse_nil, List.nil_append, List.nil_append] at hhead
      rw [hhead]
    · rw [if_neg hsigma, if_neg hsigma]

/-! ### Where a sigma is open -/

/-- A text that ends in a capital sigma behind a letter, but for characters that casing ignores. -/
def EndsInSigma (text : Text) : Prop :=
  ∃ front rest, text = front ++ 'Σ' :: rest ∧ meetsCased front.reverse = true ∧
    ∀ c ∈ rest, isCaseIgnorable c = true

/-- A text that starts with a capital sigma, but for characters that casing ignores, and has no letter
next to it. -/
def StartsWithSigma (text : Text) : Prop :=
  ∃ front rest, text = front ++ 'Σ' :: rest ∧ (∀ c ∈ front, isCaseIgnorable c = true) ∧
    meetsCased rest = false

theorem not_endsInSigma_of_not_mem {text : Text} (hfree : 'Σ' ∉ text) : ¬ EndsInSigma text := by
  rintro ⟨front, rest, rfl, -, -⟩
  exact hfree (List.mem_append_right _ List.mem_cons_self)

theorem not_startsWithSigma_of_not_mem {text : Text} (hfree : 'Σ' ∉ text) : ¬ StartsWithSigma text := by
  rintro ⟨front, rest, rfl, -, -⟩
  exact hfree (List.mem_append_right _ List.mem_cons_self)

/-- A final sigma stays one as long as the text does not end in it. -/
theorem isFinal_append_of_not_endsInSigma {text front rest : Text} (hend : ¬ EndsInSigma text)
    (hsplit : text = front ++ 'Σ' :: rest) (after : Text) :
    isFinal front.reverse (rest ++ after) = isFinal front.reverse rest := by
  cases hmeets : meetsCased front.reverse with
  | false => rw [isFinal, isFinal, hmeets, Bool.false_and, Bool.false_and]
  | true =>
    rw [isFinal, isFinal, meetsCased_append_of_not_all]
    intro hall
    exact hend ⟨front, rest, hsplit, hmeets, hall⟩

theorem isFinal_of_not_startsWithSigma {text front rest : Text} (hstart : ¬ StartsWithSigma text)
    (hsplit : text = front ++ 'Σ' :: rest) (before after : Text) :
    isFinal (front.reverse ++ before) (rest ++ after) = isFinal front.reverse (rest ++ after) := by
  by_cases hall : ∀ c ∈ front, isCaseIgnorable c = true
  · have hmeets : meetsCased rest = true := by
      rw [← Bool.not_eq_false]
      exact fun hnone => hstart ⟨front, rest, hsplit, hall, hnone⟩
    rw [isFinal, isFinal, meetsCased_append hmeets, Bool.not_true, Bool.and_false, Bool.and_false]
  · rw [isFinal, isFinal, meetsCased_append_of_not_all]
    intro hreverse
    exact hall fun c hc => hreverse c (List.mem_reverse.mpr hc)

/-- A text that does not end in a sigma stays a part of what starts with it. -/
theorem lower_infix_of_isPrefix {text name : Text} (hend : ¬ EndsInSigma text) (hname : text <+: name) :
    lower text <:+: lower name := by
  obtain ⟨after, rfl⟩ := hname
  have hinfix := lowerBetween_infix_lower [] text after
  have hsame : lowerBetween [] after text = lower text := by
    rw [lower_eq]
    apply lowerBetween_congr
    intro front rest hsplit
    rw [List.append_nil, List.append_nil, isFinal_append_of_not_endsInSigma hend hsplit]
  rwa [List.reverse_nil, hsame, List.nil_append] at hinfix

/-- A text that neither ends in a sigma nor starts with one stays a part wherever it occurs. -/
theorem lower_infix_of_infix {text name : Text} (hend : ¬ EndsInSigma text)
    (hstart : ¬ StartsWithSigma text) (hname : text <:+: name) : lower text <:+: lower name := by
  obtain ⟨before, after, rfl⟩ := hname
  have hinfix := lowerBetween_infix_lower before text after
  have hsame : lowerBetween before.reverse after text = lower text := by
    rw [lower_eq]
    apply lowerBetween_congr
    intro front rest hsplit
    rw [isFinal_of_not_startsWithSigma hstart hsplit, isFinal_append_of_not_endsInSigma hend hsplit,
      List.append_nil, List.append_nil]
  rwa [hsame] at hinfix

/-! ### Where a part is lost

A letter put next to an open sigma changes how it is written, and all others that change do so in the same
direction. So the text holds more of one of the two small sigmas than what it is a part of.
-/

/-- Where more sigmas are final, there are more final small sigmas and fewer of the others. -/
theorem count_lowerBetween_le (before after before' after' text : Text)
    (hfinal : ∀ front rest, isFinal (front ++ before) (rest ++ after) = true →
      isFinal (front ++ before') (rest ++ after') = true) :
    (lowerBetween before after text).count 'ς' ≤ (lowerBetween before' after' text).count 'ς' ∧
      (lowerBetween before' after' text).count 'σ' ≤
        (lowerBetween before after text).count 'σ' := by
  induction text generalizing before before' with
  | nil => exact ⟨Nat.le_refl _, Nat.le_refl _⟩
  | cons c cs ih =>
    have htail := ih (c :: before) (c :: before') fun front rest => by
      simpa using hfinal (front ++ [c]) rest
    simp only [lowerBetween, List.count_append]
    by_cases hsigma : c = 'Σ'
    · simp only [if_pos hsigma]
      have hhead := hfinal [] cs
      rw [List.nil_append, List.nil_append] at hhead
      cases hleft : isFinal before (cs ++ after) with
      | true =>
        rw [hhead hleft]
        exact ⟨Nat.add_le_add_left htail.1 _, Nat.add_le_add_left htail.2 _⟩
      | false =>
        cases isFinal before' (cs ++ after') with
        | true => simp; omega
        | false => exact ⟨Nat.add_le_add_left htail.1 _, Nat.add_le_add_left htail.2 _⟩
    · simp only [if_neg hsigma]
      exact ⟨Nat.add_le_add_left htail.1 _, Nat.add_le_add_left htail.2 _⟩

/-- One sigma more that is final makes the difference. -/
theorem count_lowerBetween_lt (before after before' after' front rest : Text)
    (hfinal : ∀ front rest, isFinal (front ++ before) (rest ++ after) = true →
      isFinal (front ++ before') (rest ++ after') = true)
    (hopen : isFinal (front.reverse ++ before) (rest ++ after) = false)
    (hclosed : isFinal (front.reverse ++ before') (rest ++ after') = true) :
    (lowerBetween before after (front ++ 'Σ' :: rest)).count 'ς' <
        (lowerBetween before' after' (front ++ 'Σ' :: rest)).count 'ς' ∧
      (lowerBetween before' after' (front ++ 'Σ' :: rest)).count 'σ' <
        (lowerBetween before after (front ++ 'Σ' :: rest)).count 'σ' := by
  have hfront := count_lowerBetween_le before ('Σ' :: rest ++ after) before' ('Σ' :: rest ++ after')
    front fun more others h => by
      rw [← List.append_assoc] at h ⊢
      exact hfinal more (others ++ 'Σ' :: rest) h
  have hrest := count_lowerBetween_le ('Σ' :: (front.reverse ++ before)) after
    ('Σ' :: (front.reverse ++ before')) after' rest fun more others h => by
      simpa using hfinal (more ++ 'Σ' :: front.reverse) others (by simpa using h)
  rw [lowerBetween_append, lowerBetween_append, lowerBetween, lowerBetween, hopen, hclosed]
  simp only [List.count_append]
  have hcounts : ['σ'].count 'ς' = 0 ∧ ['ς'].count 'ς' = 1 ∧ ['σ'].count 'σ' = 1 ∧ ['ς'].count 'σ' = 0 := by
    decide
  simp only [if_true, Bool.false_eq_true, if_false, hcounts]
  omega

theorem isFinal_append_left {before more after : Text} (hfinal : isFinal before after = true) :
    isFinal (before ++ more) after = true := by
  rw [isFinal, Bool.and_eq_true] at hfinal ⊢
  exact ⟨meetsCased_append hfinal.1, hfinal.2⟩

theorem isFinal_of_append_right {before after more : Text} (hfinal : isFinal before (after ++ more) = true) :
    isFinal before after = true := by
  simp only [isFinal, Bool.and_eq_true, Bool.not_eq_true'] at hfinal ⊢
  refine ⟨hfinal.1, Bool.eq_false_iff.mpr fun hmeets => ?_⟩
  rw [meetsCased_append hmeets] at hfinal
  cases hfinal.2

theorem lowerBetween_letter (before after : Text) : lowerBetween before after ['a'] = ['a'] := by
  have hletter : lowerChar 'a' = ['a'] := by decide
  rw [lowerBetween, if_neg (by decide), hletter]
  rfl

theorem lower_concat_letter (text : Text) : lower (text ++ ['a']) = lowerBetween [] ['a'] text ++ ['a'] := by
  rw [lower_eq, lowerBetween_append, lowerBetween_letter, List.append_nil]

theorem lower_cons_letter (text : Text) : lower ('a' :: text) = ['a'] ++ lowerBetween ['a'] [] text := by
  rw [lower_eq, ← List.singleton_append, lowerBetween_append, lowerBetween_letter]
  rfl

/-- Behind a sigma at the end of a text, a letter makes it one that is not final. -/
theorem not_lower_infix_of_endsInSigma {text : Text} (hend : EndsInSigma text) :
    ¬ lower text <:+: lower (text ++ ['a']) := by
  obtain ⟨front, rest, rfl, hmeets, hall⟩ := hend
  have hcount := (count_lowerBetween_lt [] ['a'] [] [] front rest
    (fun before after hfinal => by
      rw [List.append_nil after]
      exact isFinal_of_append_right hfinal)
    (by
      have hletter : meetsCased ['a'] = true := by decide
      rw [isFinal, meetsCased_append_of_all hall, hletter, Bool.not_true, Bool.and_false])
    (by rw [List.append_nil, List.append_nil, isFinal, hmeets, meetsCased_of_all hall]; rfl)).1
  intro hinfix
  have hle := hinfix.sublist.count_le 'ς'
  rw [lower_eq, lower_concat_letter, List.count_append] at hle
  have hletter : ['a'].count 'ς' = 0 := by decide
  omega

/-- A letter before a sigma at the start of a text makes it a final one. -/
theorem not_lower_infix_of_startsWithSigma {text : Text} (hstart : StartsWithSigma text) :
    ¬ lower text <:+: lower ('a' :: text) := by
  obtain ⟨front, rest, rfl, hall, hmeets⟩ := hstart
  have hreverse : ∀ c ∈ front.reverse, isCaseIgnorable c = true :=
    fun c hc => hall c (List.mem_reverse.mp hc)
  have hcount := (count_lowerBetween_lt [] [] ['a'] [] front rest
    (fun before after hfinal => by
      rw [List.append_nil] at hfinal
      exact isFinal_append_left hfinal)
    (by rw [List.append_nil, isFinal, meetsCased_of_all hreverse, Bool.false_and])
    (by
      have hletter : meetsCased ['a'] = true := by decide
      rw [List.append_nil, isFinal, meetsCased_append_of_all hreverse, hletter, hmeets]
      rfl)).2
  intro hinfix
  have hle := hinfix.sublist.count_le 'σ'
  rw [lower_eq, lower_cons_letter, List.count_append] at hle
  have hletter : ['a'].count 'σ' = 0 := by decide
  omega

/-! ### Which texts stay parts -/

theorem forall_lower_infix_iff {text : Text} :
    (∀ name, text <:+: name → lower text <:+: lower name) ↔ ¬ EndsInSigma text ∧ ¬ StartsWithSigma text := by
  constructor
  · intro hkept
    constructor
    · intro hend
      exact not_lower_infix_of_endsInSigma hend (hkept _ (List.prefix_append text ['a']).isInfix)
    · intro hstart
      exact not_lower_infix_of_startsWithSigma hstart (hkept _ (List.suffix_cons 'a' text).isInfix)
  · rintro ⟨hend, hstart⟩ name hname
    exact lower_infix_of_infix hend hstart hname

theorem forall_lower_infix_of_isPrefix_iff {text : Text} :
    (∀ name, text <+: name → lower text <:+: lower name) ↔ ¬ EndsInSigma text := by
  constructor
  · intro hkept hend
    exact not_lower_infix_of_endsInSigma hend (hkept _ (List.prefix_append text ['a']))
  · intro hend name hname
    exact lower_infix_of_isPrefix hend hname

end Caret.Text
