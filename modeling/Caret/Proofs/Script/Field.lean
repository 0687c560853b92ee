import Caret.Script.Field
import Mathlib.Data.List.Infix

/-!
# The expressions in a formatted string

The test for the expressions of a formatted string is only asked about texts that are shorter than the
string: each stands in a pair of braces. So two tests that agree on shorter texts find the same strings
well formed.
-/

namespace Caret.Script.Field

/-- An expression and what follows it are together no longer than the text they come from, and the
sign that ends the expression is left. -/
def Within (text : Text) (found : Text × Text) : Prop :=
  found.1.length + found.2.length ≤ text.length ∧ found.2 ≠ []

theorem within_of_keep {taken rest text : Text} {result : Option (Text × Text)} {found : Text × Text}
    (ih : ∀ {found}, result = some found → Within rest found)
    (h : (result.map fun (text, rest) => (taken ++ text, rest)) = some found)
    (hle : taken.length + rest.length ≤ text.length) : Within text found := by
  obtain ⟨inner, hinner, rfl⟩ := Option.map_eq_some_iff.mp h
  obtain ⟨hlength, hne⟩ := ih hinner
  refine ⟨?_, hne⟩
  dsimp only
  rw [List.length_append]
  omega

theorem within_of_expression? {fuel : Nat} {quote : Quote} {due : List Char} {text : Text}
    {found : Text × Text} (h : expression? fuel quote due text = some found) : Within text found := by
  fun_induction expression? fuel quote due text generalizing found
  case case1 | case2 | case3 | case14 | case19 | case22 => cases h
  case case15 | case18 => cases h; exact ⟨by simp, by simp⟩
  case case4 ih | case5 ih | case6 ih | case7 ih | case8 ih | case9 ih | case10 ih | case11 ih
      | case12 ih | case13 ih | case16 ih | case17 ih | case20 ih | case21 ih
      | case23 ih =>
    exact within_of_keep ih h (by simp only [List.length_cons, List.length_nil]; omega)

/-! ### One round of the check

The check is one loop over the string. Its round is cut here into the part that reads a field and the
part that passes over literal text; `next` is what the loop does with what follows. -/

/-- What follows the format of a field, if there is one. -/
def afterFormat? (next : Nat → Text → Text → Option Text) (depth : Nat) (text : Text) : Option Text :=
  match text with
  | ':' :: format => next (depth + 1) [] format
  | _ => some text

/-- What follows a field after its opening brace, if the field is well formed. -/
def afterField? (test : Text → Bool) (next : Nat → Text → Text → Option Text) (depth : Nat)
    (rest : Text) : Option Text :=
  match expression? (rest.length + 1) .outside [] rest with
  | none => none
  | some (expression, after) =>
    if expression.all isIgnored || !test expression then none
    else
      match skipConversion? (skipEquals after) with
      | none => none
      | some after =>
        match afterFormat? next depth after with
        | some ('}' :: after) => some after
        | _ => none

/-- The literal text held and what follows it, after a character that is not a brace. -/
def afterLiteral? (quotation : Quotation) (held : Text) (c : Char) (rest : Text) :
    Option (Text × Text) :=
  if c = '\\' ∧ !quotation.raw then
    match rest with
    | [] => some (c :: held, [])
    | d :: more =>
      if d = 'N' then
        match more with
        | '{' :: name =>
          let closing := name.dropWhile (· ≠ '}')
          some ((c :: d :: '{' :: name.takeWhile (· ≠ '}') ++ closing.take 1).reverse ++ held,
            closing.drop 1)
        | _ => none
      else if d = '{' ∨ d = '}' then some (c :: held, rest)
      else some (d :: c :: held, more)
  else some (c :: held, rest)

theorem afterField?_bind (test : Text → Bool) (next : Nat → Text → Text → Option Text) (depth : Nat)
    (rest : Text) :
    (afterField? test next depth rest).bind (next depth []) =
      match expression? (rest.length + 1) .outside [] rest with
      | none => none
      | some (expression, after) =>
        if expression.all isIgnored || !test expression then none
        else
          match skipConversion? (skipEquals after) with
          | none => none
          | some after =>
            match afterFormat? next depth after with
            | some ('}' :: after) => next depth [] after
            | _ => none := by
  unfold afterField?
  cases expression? (rest.length + 1) .outside [] rest with
  | none => rfl
  | some found =>
    dsimp only
    split
    · rfl
    · cases skipConversion? (skipEquals found.2) with
      | none => rfl
      | some after =>
        dsimp only
        generalize afterFormat? next depth after = closed?
        rcases closed? with _ | _ | ⟨d, more⟩
        · rfl
        · rfl
        · by_cases hd : d = '}'
          · subst hd
            rfl
          · simp [hd]

theorem afterLiteral?_bind (quotation : Quotation) (held : Text) (c : Char) (rest : Text)
    (next : Text → Text → Option Text) :
    ((afterLiteral? quotation held c rest).bind fun found => next found.1 found.2) =
      if c = '\\' ∧ !quotation.raw then
        match rest with
        | [] => next (c :: held) []
        | d :: more =>
          if d = 'N' then
            match more with
            | '{' :: name =>
              let closing := name.dropWhile (· ≠ '}')
              next ((c :: d :: '{' :: name.takeWhile (· ≠ '}') ++ closing.take 1).reverse ++ held)
                (closing.drop 1)
            | _ => none
          else if d = '{' ∨ d = '}' then next (c :: held) rest
          else next (d :: c :: held) more
      else next (c :: held) rest := by
  unfold afterLiteral?
  split
  · rcases rest with _ | ⟨d, more⟩
    · rfl
    · dsimp only
      split
      · rcases more with _ | ⟨e, more⟩
        · rfl
        · by_cases he : e = '{'
          · subst he
            rfl
          · simp [he]
      · split <;> rfl
  · rfl

theorem check_cons [CharacterNames] (quotation : Quotation) (test : Text → Bool) (fuel depth : Nat)
    (held : Text) (c : Char) (rest : Text) :
    check quotation test (fuel + 1) depth held (c :: rest) =
      if c = '{' then
        match (if depth = 0 then rest else []) with
        | '{' :: more =>
          if (quotation.part? held.reverse).isSome then check quotation test fuel depth [] more
          else none
        | _ =>
          if maxDepth ≤ depth ∨ !(quotation.part? held.reverse).isSome then none
          else (afterField? test (check quotation test fuel) depth rest).bind
            (check quotation test fuel depth [])
      else if c = '}' then
        if depth = 0 then
          match rest with
          | '}' :: more =>
            if (quotation.part? held.reverse).isSome then check quotation test fuel depth [] more
            else none
          | _ => none
        else if (quotation.part? held.reverse).isSome then some (c :: rest) else none
      else (afterLiteral? quotation held c rest).bind fun found =>
        check quotation test fuel depth found.1 found.2 := by
  rw [check.eq_def, afterField?_bind, afterLiteral?_bind]
  rfl

/-! ### How much is left, and what is asked -/

theorem length_skipEquals (text : Text) : (skipEquals text).length ≤ text.length := by
  unfold skipEquals
  split
  · exact Nat.le_succ_of_le (List.dropWhile_suffix _).length_le
  · exact Nat.le_refl _

theorem length_skipConversion? {text rest : Text} (h : skipConversion? text = some rest) :
    rest.length ≤ text.length := by
  unfold skipConversion? at h
  split at h
  · split at h
    · cases h
      simp only [List.length_cons]
      omega
    · cases h
  · cases h
  · cases h
    exact Nat.le_refl _

/-- A loop leaves no more than it was given. -/
def Shrinks (next : Nat → Text → Text → Option Text) : Prop :=
  ∀ depth held text rest, next depth held text = some rest → rest.length ≤ text.length

theorem length_afterField? {test : Text → Bool} {next : Nat → Text → Text → Option Text}
    (hnext : Shrinks next) {depth : Nat} {rest after : Text}
    (h : afterField? test next depth rest = some after) : after.length ≤ rest.length := by
  unfold afterField? at h
  split at h
  · cases h
  · rename_i expression tail hexpression
    have hwithin := (within_of_expression? hexpression).1
    split at h
    · cases h
    · split at h
      · cases h
      · rename_i left hleft
        have hless := length_skipConversion? hleft
        have hequals := length_skipEquals tail
        split at h
        · rename_i last hlast
          cases h
          have hclosed : ('}' :: after).length ≤ left.length := by
            unfold afterFormat? at hlast
            split at hlast
            · exact Nat.le_succ_of_le (hnext _ _ _ _ hlast)
            · cases hlast
              exact Nat.le_refl _
          rw [List.length_cons] at hclosed
          dsimp only at hwithin
          omega
        · cases h

theorem length_afterLiteral? {quotation : Quotation} {held rest : Text} {c : Char} {found : Text × Text}
    (h : afterLiteral? quotation held c rest = some found) : found.2.length ≤ rest.length := by
  unfold afterLiteral? at h
  split at h
  · split at h
    · cases h
      exact Nat.le_refl _
    · rename_i d more
      split at h
      · split at h
        · rename_i name
          cases h
          have hdrop := (List.dropWhile_suffix (l := name) (· ≠ '}')).length_le
          simp only [List.length_cons, List.length_drop]
          omega
        · cases h
      · split at h
        · cases h
          exact Nat.le_refl _
        · cases h
          exact Nat.le_succ _
  · cases h
    exact Nat.le_refl _

theorem shrinks_check [CharacterNames] (quotation : Quotation) (test : Text → Bool) (fuel : Nat) :
    Shrinks (check quotation test fuel) := by
  induction fuel with
  | zero => intro depth held text rest h; cases h
  | succ fuel ih =>
    intro depth held text left h
    cases text with
    | nil =>
      rw [check.eq_def] at h
      dsimp only at h
      split at h
      · cases h; exact Nat.le_refl _
      · cases h
    | cons c rest =>
      rw [check_cons] at h
      rw [List.length_cons]
      split at h
      · split at h
        · rename_i more hmore
          split at h
          · have hle := ih _ _ _ _ h
            split at hmore
            · rw [hmore, List.length_cons]
              omega
            · cases hmore
          · cases h
        · split at h
          · cases h
          · obtain ⟨after, hafter, hnext⟩ := Option.bind_eq_some_iff.mp h
            have hfield := length_afterField? ih hafter
            have hle := ih _ _ _ _ hnext
            omega
      · split at h
        · split at h
          · split at h
            · split at h
              · have hle := ih _ _ _ _ h
                rw [List.length_cons]
                omega
              · cases h
            · cases h
          · split at h
            · cases h
              exact Nat.le_refl _
            · cases h
        · obtain ⟨found, hfound, hnext⟩ := Option.bind_eq_some_iff.mp h
          have hliteral := length_afterLiteral? hfound
          have hle := ih _ _ _ _ hnext
          omega

theorem afterField?_congr {test test' : Text → Bool} {next next' : Nat → Text → Text → Option Text}
    {depth : Nat} {rest : Text} (htest : ∀ e : Text, e.length < rest.length → test e = test' e)
    (hnext : ∀ depth held text, text.length ≤ rest.length → next depth held text = next' depth held text) :
    afterField? test next depth rest = afterField? test' next' depth rest := by
  unfold afterField?
  cases hexpression : expression? (rest.length + 1) .outside [] rest with
  | none => rfl
  | some found =>
    obtain ⟨hlength, hleft⟩ := within_of_expression? hexpression
    have hpos := List.length_pos_iff.mpr hleft
    dsimp only
    rw [htest found.1 (by omega)]
    split
    · rfl
    · cases hskip : skipConversion? (skipEquals found.2) with
      | none => rfl
      | some after =>
        have hless := length_skipConversion? hskip
        have hequals := length_skipEquals found.2
        have hformat : afterFormat? next depth after = afterFormat? next' depth after := by
          unfold afterFormat?
          split
          · rw [List.length_cons] at hless
            exact hnext _ _ _ (by omega)
          · rfl
        dsimp only
        rw [hformat]

/-- Two tests that agree on what can stand in the braces of a text give the same check. -/
theorem check_congr [CharacterNames] {quotation : Quotation} {test test' : Text → Bool} {bound : Nat}
    (htest : ∀ e : Text, e.length + 2 ≤ bound → test e = test' e) (fuel depth : Nat) (held text : Text)
    (htext : text.length ≤ bound) :
    check quotation test fuel depth held text = check quotation test' fuel depth held text := by
  induction fuel generalizing depth held text with
  | zero => rfl
  | succ fuel ih =>
    cases text with
    | nil =>
      rw [check.eq_def, check.eq_def]
    | cons c rest =>
      rw [List.length_cons] at htext
      have hfield : afterField? test (check quotation test fuel) depth rest =
          afterField? test' (check quotation test' fuel) depth rest :=
        afterField?_congr (fun e he => htest e (by omega))
          fun depth held text hle => ih depth held text (by omega)
      rw [check_cons, check_cons, hfield]
      split
      · split
        · rename_i more hmore
          have hle : more.length ≤ bound := by
            split at hmore
            · rw [hmore, List.length_cons] at htext
              omega
            · cases hmore
          rw [ih _ _ _ hle]
        · split
          · rfl
          · cases hafter : afterField? test' (check quotation test' fuel) depth rest with
            | none => rfl
            | some after =>
              have hle := length_afterField? (shrinks_check quotation test' fuel) hafter
              exact ih _ _ _ (by omega)
      · split
        · split
          · split
            · rw [List.length_cons] at htext
              rw [ih _ _ _ (by omega)]
            · rfl
          · rfl
        · cases hliteral : afterLiteral? quotation held c rest with
          | none => rfl
          | some found =>
            have hle := length_afterLiteral? hliteral
            exact ih _ _ _ (by omega)

/-- Two tests that agree on texts shorter than a string by its braces find it well formed alike. -/
theorem areWellFormed_congr [CharacterNames] {quotation : Quotation} {test test' : Text → Bool}
    (htest : ∀ e : Text, e.length + 2 ≤ quotation.body.length → test e = test' e) :
    areWellFormed quotation test = areWellFormed quotation test' := by
  unfold areWellFormed
  rw [check_congr htest _ _ _ _ (Nat.le_refl _)]

end Caret.Script.Field
