import Caret.Script.Number
import Caret.Proofs.Text.Cut
import Mathlib.Data.List.Infix

/-!
# Reading a number stops where the number does

Two facts about the readers of numbers. What they make of a text in front of a line feed, a blank, a
comment or a comma depends neither on which of them it is nor on what follows; `Settled` says this of
any reader. And a reader leaves an end of what it was given.
-/

namespace Caret.Script

/-- The characters that no lexeme goes on with. -/
def isStop (c : Char) : Bool :=
  ['\n', ',', ' ', '\t', '\x0c', '#'].contains c

theorem isStop_iff {c : Char} :
    isStop c = true ↔ c = '\n' ∨ c = ',' ∨ c = ' ' ∨ c = '\t' ∨ c = '\x0c' ∨ c = '#' := by
  simp [isStop]

/-- What a reader makes of a text in front of a stop does not depend on the stop or on what follows
it, which is left as it is. -/
def Settled {β : Type} (read : Text → Option (β × Text)) (text : Text) : Prop :=
  ∃ result : Option (β × Text), ∀ stop rest, isStop stop = true →
    read (text ++ stop :: rest) = result.map fun found => (found.1, found.2 ++ stop :: rest)

/-- A test of what follows has one outcome in front of every stop. -/
def SettledTest (test : Text → Bool) (text : Text) : Prop :=
  ∃ outcome : Bool, ∀ stop rest, isStop stop = true → test (text ++ stop :: rest) = outcome

/-- A word without stops is at the front of a text whatever follows the next stop. -/
theorem isPrefixOf_append_stop {word : Text} (hword : ∀ c ∈ word, isStop c = false) (text : Text)
    {stop : Char} (rest : Text) (hstop : isStop stop = true) :
    word.isPrefixOf (text ++ stop :: rest) = word.isPrefixOf text := by
  induction text generalizing word with
  | nil =>
    cases word with
    | nil => rfl
    | cons w word =>
      have hne : w ≠ stop := fun h => by
        have := hword w (by simp)
        rw [h, hstop] at this
        cases this
      simp [List.isPrefixOf, hne]
  | cons c text ih =>
    cases word with
    | nil => rfl
    | cons w word =>
      simp only [List.cons_append, List.isPrefixOf]
      rw [ih fun c hc => hword c (by simp [hc])]

/-- A reader that is settled reads the same in front of any stop. -/
theorem Settled.before_stop {β : Type} {read : Text → Option (β × Text)} {text rest : Text} {value : β}
    (hsettled : Settled read text) (h : read (text ++ ['\n']) = some (value, rest)) :
    ∃ before, rest = before ++ ['\n'] ∧ ∀ stop more, isStop stop = true →
      read (text ++ stop :: more) = some (value, before ++ stop :: more) := by
  obtain ⟨result, hresult⟩ := hsettled
  rw [hresult '\n' [] rfl] at h
  cases result with
  | none => cases h
  | some found =>
    cases h
    exact ⟨found.2, rfl, fun stop more hstop => hresult stop more hstop⟩

/-- Reading on after a settled reader is settled. -/
theorem Settled.bind {β γ : Type} {read : Text → Option (β × Text)}
    {next : β × Text → Option (γ × Text)} {text : Text} (hread : Settled read text)
    (hnext : ∀ found rest, Settled (fun text => next (found, text)) rest) :
    Settled (fun text => (read text).bind next) text := by
  obtain ⟨result, hresult⟩ := hread
  cases result with
  | none =>
    refine ⟨none, fun stop rest hstop => ?_⟩
    simp only [hresult stop rest hstop, Option.map_none, Option.bind_none]
  | some found =>
    obtain ⟨result', hresult'⟩ := hnext found.1 found.2
    refine ⟨result', fun stop rest hstop => ?_⟩
    simp only [hresult stop rest hstop, Option.map_some, Option.bind_some]
    exact hresult' stop rest hstop

namespace Number

theorem not_continuesName_of_isStop {c : Char} (h : isStop c = true) : continuesName c = false := by
  rcases isStop_iff.mp h with rfl | rfl | rfl | rfl | rfl | rfl <;> decide

theorem not_isAsciiDigit_of_isStop {c : Char} (h : isStop c = true) :
    Text.isAsciiDigit c = false := by
  rcases isStop_iff.mp h with rfl | rfl | rfl | rfl | rfl | rfl <;> decide

/-! ### The digits, by their first character -/

section

variable {isDigit : Char → Bool} {c : Char}

theorem digits?_cons_of_isDigit (hc : isDigit c = true) (cs : Text) :
    digits? isDigit (c :: cs) = (digits? isDigit cs).map fun found => (c :: found.1, found.2) := by
  rw [digits?.eq_def]
  simp [hc]

theorem digits?_score (hscore : isDigit '_' = false) (cs : Text) :
    digits? isDigit ('_' :: cs) = if (cs.head?).any isDigit then digits? isDigit cs else none := by
  rw [digits?.eq_def]
  simp only [hscore, Bool.false_eq_true, if_false, if_true]
  cases cs <;> rfl

theorem digits?_cons_of_other (hc : isDigit c = false) (hscore : c ≠ '_') (cs : Text) :
    digits? isDigit (c :: cs) = some ([], c :: cs) := by
  rw [digits?.eq_def]
  simp [hc, hscore]

end

/-! ### Readers of numbers in front of a stop -/

theorem settled_digits? {isDigit : Char → Bool} (hdigit : ∀ c, isStop c = true → isDigit c = false)
    (text : Text) : Settled (digits? isDigit) text := by
  induction text with
  | nil =>
    refine ⟨some ([], []), fun stop rest hstop => ?_⟩
    have hne : stop ≠ '_' := by rcases isStop_iff.mp hstop with rfl | rfl | rfl | rfl | rfl | rfl <;> decide
    exact digits?_cons_of_other (hdigit stop hstop) hne rest
  | cons c cs ih =>
    obtain ⟨result, hresult⟩ := ih
    cases hc : isDigit c with
    | true =>
      refine ⟨result.map fun found => (c :: found.1, found.2), fun stop rest hstop => ?_⟩
      rw [List.cons_append, digits?_cons_of_isDigit hc, hresult stop rest hstop]
      cases result <;> rfl
    | false =>
      by_cases hscore : c = '_'
      · subst hscore
        refine ⟨if (cs.head?).any isDigit then result else none, fun stop rest hstop => ?_⟩
        have hhead : ((cs ++ stop :: rest).head?).any isDigit = (cs.head?).any isDigit := by
          cases cs with
          | nil => simp [hdigit stop hstop]
          | cons d more => rfl
        rw [List.cons_append, digits?_score hc, hhead, hresult stop rest hstop]
        split <;> rfl
      · exact ⟨some ([], c :: cs), fun stop rest _ => digits?_cons_of_other hc hscore _⟩

theorem settled_someDigits? {isDigit : Char → Bool}
    (hdigit : ∀ c, isStop c = true → isDigit c = false) (text : Text) :
    Settled (someDigits? isDigit) text := by
  cases text with
  | nil =>
    refine ⟨none, fun stop rest hstop => ?_⟩
    simp [someDigits?, hdigit stop hstop]
  | cons c cs =>
    obtain ⟨result, hresult⟩ := settled_digits? hdigit (c :: cs)
    refine ⟨if isDigit c then result else none, fun stop rest hstop => ?_⟩
    have hall := hresult stop rest hstop
    rw [List.cons_append] at hall ⊢
    rw [someDigits?]
    split
    · exact hall
    · rfl

theorem settledTest_endsBefore (text : Text) : SettledTest endsBefore text := by
  refine ⟨endsBefore text, fun stop rest hstop => ?_⟩
  have hhead : ((text ++ stop :: rest).head?).any continuesName = (text.head?).any continuesName := by
    cases text with
    | nil => simp [not_continuesName_of_isStop hstop]
    | cons c cs => rfl
  have hall : ∀ word ∈ ["and", "else", "for", "if", "in", "is", "or", "not"],
      (word.toList.all fun c => decide (isStop c = false)) = true := by decide
  have hword : ∀ word ∈ ["and", "else", "for", "if", "in", "is", "or", "not"],
      ∀ c ∈ word.toList, isStop c = false := fun word hmem => Text.forall_mem_of_all (hall word hmem)
  unfold endsBefore
  rw [hhead]
  simp only [List.any_cons, List.any_nil]
  simp only [isPrefixOf_append_stop (hword "and" (by simp)) text rest hstop,
    isPrefixOf_append_stop (hword "else" (by simp)) text rest hstop,
    isPrefixOf_append_stop (hword "for" (by simp)) text rest hstop,
    isPrefixOf_append_stop (hword "if" (by simp)) text rest hstop,
    isPrefixOf_append_stop (hword "in" (by simp)) text rest hstop,
    isPrefixOf_append_stop (hword "is" (by simp)) text rest hstop,
    isPrefixOf_append_stop (hword "or" (by simp)) text rest hstop,
    isPrefixOf_append_stop (hword "not" (by simp)) text rest hstop]

/-- The digits of an integer in another base, and what must not follow them. -/
def basedDigits? (base : Nat) (text : Text) : Option (Numeral × Text) :=
  match someDigits? (fun c => (Text.hexDigit? c).any (· < base)) text with
  | some (ds, rest) => if endsBefore rest then some (.integer (valueIn base ds), rest) else none
  | none => none

/-- The digits of an integer in another base may stand behind an underscore. -/
def afterUnderscore (text : Text) : Text :=
  match text with
  | '_' :: rest => rest
  | _ => text

theorem based?_eq (base : Nat) (text : Text) :
    based? base text = basedDigits? base (afterUnderscore text) := rfl

theorem afterUnderscore_suffix (text : Text) : afterUnderscore text <:+ text := by
  unfold afterUnderscore
  split
  · exact List.suffix_cons _ _
  · exact List.suffix_refl _

theorem based?_of_ne {base : Nat} {c : Char} (hc : c ≠ '_') (cs : Text) :
    based? base (c :: cs) = basedDigits? base (c :: cs) := by
  have hsame : afterUnderscore (c :: cs) = c :: cs := by
    unfold afterUnderscore
    split
    · rename_i heq
      exact absurd (List.cons.inj heq).1 hc
    · rfl
  rw [based?_eq, hsame]

theorem settled_basedDigits? (base : Nat) (text : Text) : Settled (basedDigits? base) text := by
  have hdigit : ∀ c, isStop c = true → (Text.hexDigit? c).any (· < base) = false := by
    intro c hc
    have hnone : Text.hexDigit? c = none := by
      rcases isStop_iff.mp hc with rfl | rfl | rfl | rfl | rfl | rfl <;> decide
    rw [hnone]
    rfl
  obtain ⟨result, hresult⟩ := settled_someDigits? hdigit text
  cases result with
  | none =>
    refine ⟨none, fun stop rest hstop => ?_⟩
    simp only [basedDigits?, hresult stop rest hstop, Option.map_none]
  | some found =>
    obtain ⟨outcome, houtcome⟩ := settledTest_endsBefore found.2
    refine ⟨if outcome then some (.integer (valueIn base found.1), found.2) else none,
      fun stop rest hstop => ?_⟩
    simp only [basedDigits?, hresult stop rest hstop, Option.map_some, houtcome stop rest hstop]
    split <;> rfl

theorem settled_based? (base : Nat) (text : Text) : Settled (based? base) text := by
  cases text with
  | nil =>
    obtain ⟨result, hresult⟩ := settled_basedDigits? base []
    refine ⟨result, fun stop rest hstop => ?_⟩
    rw [← hresult stop rest hstop]
    rcases isStop_iff.mp hstop with rfl | rfl | rfl | rfl | rfl | rfl <;> rfl
  | cons c cs =>
    by_cases hscore : c = '_'
    · subst hscore
      exact settled_basedDigits? base cs
    · obtain ⟨result, hresult⟩ := settled_basedDigits? base (c :: cs)
      refine ⟨result, fun stop rest hstop => ?_⟩
      rw [← hresult stop rest hstop]
      exact based?_of_ne hscore _

theorem settled_fraction? (text : Text) : Settled fraction? text := by
  cases text with
  | nil =>
    refine ⟨some (none, []), fun stop rest hstop => ?_⟩
    rcases isStop_iff.mp hstop with rfl | rfl | rfl | rfl | rfl | rfl <;> rfl
  | cons c cs =>
    by_cases hpoint : c = '.'
    · subst hpoint
      obtain ⟨result, hresult⟩ := settled_digits? (fun _ => not_isAsciiDigit_of_isStop) cs
      refine ⟨if (cs.head?).any Text.isAsciiDigit then result.map fun found => (some found.1, found.2)
        else some (some [], cs), fun stop rest hstop => ?_⟩
      have hhead : ((cs ++ stop :: rest).head?).any Text.isAsciiDigit =
          (cs.head?).any Text.isAsciiDigit := by
        cases cs with
        | nil => simp [not_isAsciiDigit_of_isStop hstop]
        | cons d more => rfl
      simp only [List.cons_append, fraction?, hhead, hresult stop rest hstop]
      split
      · cases result <;> rfl
      · rfl
    · refine ⟨some (none, c :: cs), fun stop rest hstop => ?_⟩
      unfold fraction?
      simp [hpoint]

/-- An exponent without a sign: its digits, or none where a keyword begins with the letter. -/
theorem settled_plainExponent (letter : Char) (text : Text) :
    Settled (fun text =>
      match someDigits? Text.isAsciiDigit text with
      | some (ds, rest) => some (some (valueIn 10 ds : Int), rest)
      | none => if (text.head?).any Text.isAsciiDigit then none
                else if endsBefore (letter :: text) then some (none, letter :: text) else none) text := by
  obtain ⟨result, hresult⟩ := settled_someDigits? (fun _ => not_isAsciiDigit_of_isStop) text
  cases result with
  | some found =>
    refine ⟨some (some (valueIn 10 found.1 : Int), found.2), fun stop rest hstop => ?_⟩
    simp only [hresult stop rest hstop, Option.map_some]
  | none =>
    obtain ⟨outcome, houtcome⟩ := settledTest_endsBefore (letter :: text)
    refine ⟨if (text.head?).any Text.isAsciiDigit then none
      else if outcome then some (none, letter :: text) else none, fun stop rest hstop => ?_⟩
    have hhead : ((text ++ stop :: rest).head?).any Text.isAsciiDigit =
        (text.head?).any Text.isAsciiDigit := by
      cases text with
      | nil => simp [not_isAsciiDigit_of_isStop hstop]
      | cons d more => rfl
    have hends := houtcome stop rest hstop
    rw [List.cons_append] at hends
    simp only [hresult stop rest hstop, Option.map_none, hhead, hends]
    split
    · rfl
    · split <;> rfl

/-- An exponent with a sign. -/
theorem settled_signedExponent (sign : Int) (text : Text) :
    Settled (fun text => (someDigits? Text.isAsciiDigit text).map fun found =>
      (some (sign * (valueIn 10 found.1 : Int)), found.2)) text := by
  obtain ⟨result, hresult⟩ := settled_someDigits? (fun _ => not_isAsciiDigit_of_isStop) text
  refine ⟨result.map fun found => (some (sign * (valueIn 10 found.1 : Int)), found.2),
    fun stop rest hstop => ?_⟩
  simp only [hresult stop rest hstop]
  cases result <;> rfl

theorem settled_exponent? (text : Text) : Settled exponent? text := by
  cases text with
  | nil =>
    refine ⟨some (none, []), fun stop rest hstop => ?_⟩
    rcases isStop_iff.mp hstop with rfl | rfl | rfl | rfl | rfl | rfl <;> rfl
  | cons c cs =>
    by_cases hletter : c = 'e' ∨ c = 'E'
    · cases cs with
      | nil =>
        obtain ⟨result, hresult⟩ := settled_plainExponent c []
        refine ⟨result, fun stop rest hstop => ?_⟩
        rw [← hresult stop rest hstop]
        unfold exponent?
        simp only [List.cons_append, if_pos hletter]
        rcases isStop_iff.mp hstop with rfl | rfl | rfl | rfl | rfl | rfl <;> rfl
      | cons d more =>
        by_cases hplus : d = '+'
        · subst hplus
          obtain ⟨result, hresult⟩ := settled_signedExponent 1 more
          refine ⟨result, fun stop rest hstop => ?_⟩
          rw [← hresult stop rest hstop]
          unfold exponent?
          simp only [List.cons_append, if_pos hletter, Int.one_mul]
        · by_cases hminus : d = '-'
          · subst hminus
            obtain ⟨result, hresult⟩ := settled_signedExponent (-1) more
            refine ⟨result, fun stop rest hstop => ?_⟩
            rw [← hresult stop rest hstop]
            unfold exponent?
            simp only [List.cons_append, if_pos hletter, Int.neg_mul, Int.one_mul]
          · obtain ⟨result, hresult⟩ := settled_plainExponent c (d :: more)
            refine ⟨result, fun stop rest hstop => ?_⟩
            rw [← hresult stop rest hstop]
            unfold exponent?
            simp only [List.cons_append, if_pos hletter]
            split
            · rename_i h; exact absurd (List.cons.inj h).1 hplus
            · rename_i h; exact absurd (List.cons.inj h).1 hminus
            · rfl
    · refine ⟨some (none, c :: cs), fun stop rest _ => ?_⟩
      unfold exponent?
      simp only [List.cons_append, if_neg hletter]
      rfl

/-- A reader that takes nothing and answers by whether some letter follows, if a number may end here. -/
theorem settled_ended {γ : Type} (answer : Bool → Option γ) (text : Text) :
    Settled (fun rest => if !endsBefore rest then none
      else (answer (rest.head? == some 'e')).map (·, rest)) text := by
  obtain ⟨outcome, houtcome⟩ := settledTest_endsBefore text
  have hletter : SettledTest (fun rest => rest.head? == some 'e') text := by
    cases text with
    | nil =>
      refine ⟨false, fun stop rest hstop => ?_⟩
      rcases isStop_iff.mp hstop with rfl | rfl | rfl | rfl | rfl | rfl <;> rfl
    | cons c cs => exact ⟨c == 'e', fun _ _ _ => rfl⟩
  obtain ⟨letter, hletter⟩ := hletter
  refine ⟨if !outcome then none else (answer letter).map (·, text), fun stop rest hstop => ?_⟩
  simp only [houtcome stop rest hstop, hletter stop rest hstop]
  split
  · rfl
  · cases answer letter <;> rfl

/-- What stands at the end of a decimal number: perhaps the letter of an imaginary one. -/
theorem settled_suffix (value : Binary64) (plain : Bool → Option Numeral) (text : Text) :
    Settled (fun rest =>
      match rest with
      | 'j' :: after => if endsBefore after then some (Numeral.imaginary value, after) else none
      | 'J' :: after => if endsBefore after then some (Numeral.imaginary value, after) else none
      | _ => if !endsBefore rest then none
        else (plain (rest.head? == some 'e')).map (·, rest)) text := by
  have himaginary : ∀ more, Settled (fun after =>
      if endsBefore after then some (Numeral.imaginary value, after) else none) more := by
    intro more
    obtain ⟨outcome, houtcome⟩ := settledTest_endsBefore more
    refine ⟨if outcome then some (.imaginary value, more) else none, fun stop rest hstop => ?_⟩
    simp only [houtcome stop rest hstop]
    split <;> rfl
  obtain ⟨result, hresult⟩ := settled_ended plain text
  cases text with
  | nil =>
    refine ⟨result, fun stop rest hstop => ?_⟩
    rw [← hresult stop rest hstop]
    rcases isStop_iff.mp hstop with rfl | rfl | rfl | rfl | rfl | rfl <;> rfl
  | cons c cs =>
    by_cases hsmall : c = 'j'
    · subst hsmall
      exact himaginary cs
    · by_cases hlarge : c = 'J'
      · subst hlarge
        exact himaginary cs
      · refine ⟨result, fun stop rest hstop => ?_⟩
        rw [← hresult stop rest hstop]
        simp only [List.cons_append]
        split
        · rename_i h
          exact absurd (List.cons.inj h).1 hsmall
        · rename_i h
          exact absurd (List.cons.inj h).1 hlarge
        · rfl

/-- The parts of a decimal number one after the other. -/
theorem decimal?_eq (text : Text) :
    decimal? text = (digits? Text.isAsciiDigit text).bind fun (whole, rest) =>
      (fraction? rest).bind fun (fraction, rest) =>
        (exponent? rest).bind fun (exponent, rest) =>
          let decimals := fraction.getD []
          let value := Binary64.ofDecimal false (valueIn 10 (whole ++ decimals))
            (exponent.getD 0 - decimals.length)
          match rest with
          | 'j' :: after => if endsBefore after then some (Numeral.imaginary value, after) else none
          | 'J' :: after => if endsBefore after then some (Numeral.imaginary value, after) else none
          | _ => if !endsBefore rest then none
            else (if fraction.isSome || exponent.isSome || (isPadded whole && rest.head? == some 'e') then
                some (Numeral.real value)
              else integer? whole).map (·, rest) := by
  unfold decimal?
  cases digits? Text.isAsciiDigit text with
  | none => rfl
  | some found =>
    obtain ⟨whole, rest⟩ := found
    dsimp only [Option.bind_some]
    cases fraction? rest with
    | none => rfl
    | some found =>
      obtain ⟨fraction, rest⟩ := found
      dsimp only [Option.bind_some]
      cases exponent? rest with
      | none => rfl
      | some found =>
        obtain ⟨exponent, rest⟩ := found
        have hplain : ∀ value : Numeral, (if !endsBefore rest then none
            else if fraction.isSome || exponent.isSome || (isPadded whole && rest.head? == some 'e') then
              some (value, rest)
            else (integer? whole).map (·, rest)) =
            if !endsBefore rest then none
            else (if fraction.isSome || exponent.isSome || (isPadded whole && rest.head? == some 'e') then
                some value
              else integer? whole).map (·, rest) := by
          intro value
          split
          · rfl
          · split <;> rfl
        dsimp only [Option.bind_some]
        rewrite [hplain]
        rfl

theorem settled_decimal? (text : Text) : Settled decimal? text := by
  have heq : decimal? = _ := funext decimal?_eq
  rw [heq]
  refine Settled.bind (settled_digits? (fun _ => not_isAsciiDigit_of_isStop) text) fun whole rest => ?_
  refine Settled.bind (settled_fraction? rest) fun fraction rest => ?_
  refine Settled.bind (settled_exponent? rest) fun exponent rest => ?_
  exact settled_suffix _ (fun letter =>
    if fraction.isSome || exponent.isSome || (isPadded whole && letter) then some (.real _)
    else integer? whole) rest

theorem settled_scan? (text : Text) : Settled scan? text := by
  cases text with
  | nil =>
    obtain ⟨result, hresult⟩ := settled_decimal? []
    refine ⟨result, fun stop rest hstop => ?_⟩
    rw [← hresult stop rest hstop]
    rcases isStop_iff.mp hstop with rfl | rfl | rfl | rfl | rfl | rfl <;> rfl
  | cons z cs =>
    obtain ⟨result, hresult⟩ := settled_decimal? (z :: cs)
    by_cases hzero : z = '0'
    · subst hzero
      cases cs with
      | nil =>
        refine ⟨result, fun stop rest hstop => ?_⟩
        rw [← hresult stop rest hstop]
        rcases isStop_iff.mp hstop with rfl | rfl | rfl | rfl | rfl | rfl <;> rfl
      | cons c more =>
        have hscan : ∀ tail, scan? ('0' :: c :: tail) = if c = 'x' ∨ c = 'X' then based? 16 tail
            else if c = 'o' ∨ c = 'O' then based? 8 tail
            else if c = 'b' ∨ c = 'B' then based? 2 tail else decimal? ('0' :: c :: tail) :=
          fun _ => rfl
        by_cases hx : c = 'x' ∨ c = 'X'
        · obtain ⟨based, hbased⟩ := settled_based? 16 more
          refine ⟨based, fun stop rest hstop => ?_⟩
          simp only [List.cons_append, hscan, if_pos hx, hbased stop rest hstop]
        · by_cases ho : c = 'o' ∨ c = 'O'
          · obtain ⟨based, hbased⟩ := settled_based? 8 more
            refine ⟨based, fun stop rest hstop => ?_⟩
            simp only [List.cons_append, hscan, if_neg hx, if_pos ho, hbased stop rest hstop]
          · by_cases hb : c = 'b' ∨ c = 'B'
            · obtain ⟨based, hbased⟩ := settled_based? 2 more
              refine ⟨based, fun stop rest hstop => ?_⟩
              simp only [List.cons_append, hscan, if_neg hx, if_neg ho, if_pos hb,
                hbased stop rest hstop]
            · refine ⟨result, fun stop rest hstop => ?_⟩
              rw [← hresult stop rest hstop]
              simp only [List.cons_append, hscan, if_neg hx, if_neg ho, if_neg hb]
    · refine ⟨result, fun stop rest hstop => ?_⟩
      rw [← hresult stop rest hstop]
      unfold scan?
      split
      · rename_i h
        exact absurd (List.cons.inj h).1 hzero
      · rfl

/-! ### What is left -/

theorem suffix_of_digits? {isDigit : Char → Bool} {text ds rest : Text}
    (h : digits? isDigit text = some (ds, rest)) : rest <:+ text := by
  induction text generalizing ds rest with
  | nil =>
    cases h
    exact List.suffix_refl _
  | cons c cs ih =>
    cases hc : isDigit c with
    | true =>
      rw [digits?_cons_of_isDigit hc] at h
      obtain ⟨found, hfound, heq⟩ := Option.map_eq_some_iff.mp h
      have hsuffix := ih hfound
      cases heq
      exact hsuffix.trans (List.suffix_cons _ _)
    | false =>
      by_cases hscore : c = '_'
      · rw [hscore, digits?_score (hscore ▸ hc)] at h
        split at h
        · exact (ih h).trans (List.suffix_cons _ _)
        · cases h
      · rw [digits?_cons_of_other hc hscore] at h
        cases h
        exact List.suffix_refl _

theorem suffix_of_someDigits? {isDigit : Char → Bool} {text ds rest : Text}
    (h : someDigits? isDigit text = some (ds, rest)) : rest <:+ text.tail := by
  cases text with
  | nil => cases h
  | cons c cs =>
    unfold someDigits? at h
    dsimp only at h
    split at h
    · rename_i hc
      rw [digits?_cons_of_isDigit hc] at h
      obtain ⟨found, hfound, heq⟩ := Option.map_eq_some_iff.mp h
      have hsuffix := suffix_of_digits? hfound
      cases heq
      exact hsuffix
    · cases h

theorem suffix_of_based? {base : Nat} {text rest : Text} {value : Numeral}
    (h : based? base text = some (value, rest)) : rest <:+ text := by
  rw [based?_eq, basedDigits?] at h
  split at h
  · rename_i ds more hdigits
    have hsuffix := (suffix_of_someDigits? hdigits).trans (List.tail_suffix _)
    split at h
    · cases h
      exact hsuffix.trans (afterUnderscore_suffix text)
    · cases h
  · cases h

theorem suffix_of_fraction? {text rest : Text} {fraction : Option Text}
    (h : fraction? text = some (fraction, rest)) :
    rest <:+ text ∧ (text.head? = some '.' → rest <:+ text.tail) := by
  unfold fraction? at h
  split at h
  · rename_i more
    have hsuffix : rest <:+ more := by
      split at h
      · obtain ⟨found, hfound, heq⟩ := Option.map_eq_some_iff.mp h
        have hsuffix := suffix_of_digits? hfound
        cases heq
        exact hsuffix
      · cases h
        exact List.suffix_refl _
    exact ⟨hsuffix.trans (List.suffix_cons _ _), fun _ => hsuffix⟩
  · rename_i hpoint
    cases h
    refine ⟨List.suffix_refl _, fun hhead => ?_⟩
    cases text with
    | nil => cases hhead
    | cons c cs => exact absurd (congrArg (· :: cs) (Option.some.inj hhead)) (hpoint cs)

theorem suffix_of_exponent? {text rest : Text} {exponent : Option Int}
    (h : exponent? text = some (exponent, rest)) : rest <:+ text := by
  unfold exponent? at h
  split at h
  · rename_i c cs
    split at h
    · split at h
      · rename_i more
        obtain ⟨found, hfound, heq⟩ := Option.map_eq_some_iff.mp h
        have hsuffix := (suffix_of_someDigits? hfound).trans (List.tail_suffix _)
        cases heq
        exact hsuffix.trans (List.suffix_append [c, '+'] more)
      · rename_i more
        obtain ⟨found, hfound, heq⟩ := Option.map_eq_some_iff.mp h
        have hsuffix := (suffix_of_someDigits? hfound).trans (List.tail_suffix _)
        cases heq
        exact hsuffix.trans (List.suffix_append [c, '-'] more)
      · split at h
        · rename_i hdigits
          have hsuffix := (suffix_of_someDigits? hdigits).trans (List.tail_suffix _)
          cases h
          exact hsuffix.trans (List.suffix_cons _ _)
        · split at h
          · cases h
          · split at h
            · cases h
              exact List.suffix_refl _
            · cases h
    · cases h
      exact List.suffix_refl _
  · cases h
    exact List.suffix_refl _

/-- Reading a number takes something if the text starts with a digit or a point. -/
theorem suffix_of_decimal? {c : Char} {cs rest : Text} {value : Numeral}
    (hc : Text.isAsciiDigit c = true ∨ c = '.') (h : decimal? (c :: cs) = some (value, rest)) :
    rest <:+ cs := by
  rw [decimal?_eq] at h
  obtain ⟨⟨whole, afterWhole⟩, hwhole, h⟩ := Option.bind_eq_some_iff.mp h
  obtain ⟨⟨fraction, afterFraction⟩, hfraction, h⟩ := Option.bind_eq_some_iff.mp h
  obtain ⟨⟨exponent, afterExponent⟩, hexponent, h⟩ := Option.bind_eq_some_iff.mp h
  have hstart : afterFraction <:+ cs := by
    rcases hc with hdigit | rfl
    · rw [digits?_cons_of_isDigit hdigit] at hwhole
      obtain ⟨found, hfound, heq⟩ := Option.map_eq_some_iff.mp hwhole
      have hsuffix := suffix_of_digits? hfound
      cases heq
      exact (suffix_of_fraction? hfraction).1.trans hsuffix
    · rw [digits?_cons_of_other (by decide) (by decide)] at hwhole
      cases hwhole
      exact (suffix_of_fraction? hfraction).2 rfl
  have hlast : rest <:+ afterExponent := by
    dsimp only at h
    split at h
    · split at h
      · cases h
        exact List.suffix_cons _ _
      · cases h
    · split at h
      · cases h
        exact List.suffix_cons _ _
      · cases h
    · split at h
      · cases h
      · obtain ⟨found, _, heq⟩ := Option.map_eq_some_iff.mp h
        cases heq
        exact List.suffix_refl _
  exact hlast.trans ((suffix_of_exponent? hexponent).trans hstart)

theorem suffix_of_scan? {c : Char} {cs rest : Text} {value : Numeral}
    (hc : Text.isAsciiDigit c = true ∨ c = '.') (h : scan? (c :: cs) = some (value, rest)) :
    rest <:+ cs := by
  unfold scan? at h
  split at h
  · rename_i letter more heq
    have hbased : ∀ base, based? base more = some (value, rest) → rest <:+ cs := fun base hbase => by
      obtain ⟨-, rfl⟩ := List.cons.inj heq
      exact (suffix_of_based? hbase).trans (List.suffix_cons _ _)
    split at h
    · exact hbased 16 h
    · split at h
      · exact hbased 8 h
      · split at h
        · exact hbased 2 h
        · exact suffix_of_decimal? hc h
  · exact suffix_of_decimal? hc h

end Number

end Caret.Script
