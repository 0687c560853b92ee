import Caret.Completion.Binding
import Caret.Proofs.Line.Expression
import Caret.Proofs.Text.Parts

/-!
# Splitting at commas and joining with them

The splitter goes over a text once, with the brackets and the quote that are open. A character either
goes on with the part that it is in, or it is a comma outside of both, where the next part starts as the
whole text did, or no text goes on from it. `splitWithin_cons_cases` says so, and with it the parts are
the one way to cut a text at commas into pieces that are not cut further.

The grammar of the expression before the caret leads over the splitter in one piece as it does over the
walk. So what was read back from the caret is read on as one part, although the two keep their brackets
and quotes in opposite directions.
-/

namespace Caret.Completion

open Line (Inside IsUnit Units isBracket isPathChar isQuote opener?)

/-! ### Steps of a split -/

section

variable {due : List Char} {c : Char}

theorem closerOf?_of_opener? {opener closer : Char} (hpair : opener? closer = some opener) :
    closerOf? opener = some closer ∧ (closer = ')' ∨ closer = ']' ∨ closer = '}') := by
  unfold opener? at hpair
  split at hpair <;> cases hpair
  · exact ⟨rfl, .inl rfl⟩
  · exact ⟨rfl, .inr (.inl rfl)⟩
  · exact ⟨rfl, .inr (.inr rfl)⟩

theorem splitWithin_quote (hc : isQuote c = true) (cs : Text) :
    splitWithin due none (c :: cs) = (splitWithin due (some c) cs).map (consFirst c) := by
  rw [splitWithin.eq_def]
  exact if_pos hc

theorem splitWithin_open {closer : Char} (hquote : isQuote c = false) (hc : closerOf? c = some closer)
    (cs : Text) :
    splitWithin due none (c :: cs) = (splitWithin (closer :: due) none cs).map (consFirst c) := by
  rw [splitWithin.eq_def]
  dsimp only
  rw [hquote, if_neg Bool.false_ne_true, hc]

/-- What becomes of a character that neither quotes nor opens a bracket. -/
theorem splitWithin_rest (hquote : isQuote c = false) (hopens : closerOf? c = none) (cs : Text) :
    splitWithin due none (c :: cs) =
      if c = ')' ∨ c = ']' ∨ c = '}' then
        match due with
        | closer :: outer => if c = closer then (splitWithin outer none cs).map (consFirst c) else none
        | [] => none
      else if c = ',' ∧ due = [] then (splitWithin due none cs).map ([] :: ·)
      else (splitWithin due none cs).map (consFirst c) := by
  rw [splitWithin.eq_def]
  dsimp only
  rewrite [hquote, if_neg Bool.false_ne_true, hopens]
  rfl

/-- A character that neither quotes nor opens or closes a bracket, and is no comma between values, goes
on with the value. -/
theorem splitWithin_plain (hquote : isQuote c = false) (hbracket : isBracket c = false)
    (hcomma : c = ',' → due ≠ []) (cs : Text) :
    splitWithin due none (c :: cs) = (splitWithin due none cs).map (consFirst c) := by
  obtain ⟨hopener, hcloser⟩ := Line.isBracket_eq_false.mp hbracket
  have hopens : closerOf? c = none := by
    unfold closerOf?
    split
    · cases hopener
    · cases hopener
    · cases hopener
    · rfl
  have hcloses : ¬ (c = ')' ∨ c = ']' ∨ c = '}') := by
    rintro (rfl | rfl | rfl) <;> cases hcloser
  rw [splitWithin_rest hquote hopens, if_neg hcloses, if_neg fun h => hcomma h.1 h.2]

theorem splitWithin_close (hc : c = ')' ∨ c = ']' ∨ c = '}') (cs : Text) :
    splitWithin (c :: due) none (c :: cs) = (splitWithin due none cs).map (consFirst c) := by
  have hnone : isQuote c = false ∧ closerOf? c = none := by
    rcases hc with rfl | rfl | rfl <;> exact ⟨rfl, rfl⟩
  rw [splitWithin_rest hnone.1 hnone.2, if_pos hc]
  exact if_pos rfl

end

/-! ### Parts -/

/-- What a character does to a split, whatever follows it. -/
theorem splitWithin_cons_cases (due : List Char) (quote : Option Char) (c : Char) :
    (∃ due' quote', ∀ cs,
      splitWithin due quote (c :: cs) = (splitWithin due' quote' cs).map (consFirst c)) ∨
    (due = [] ∧ quote = none ∧ c = ',' ∧
      ∀ cs, splitWithin due quote (c :: cs) = (splitWithin [] none cs).map ([] :: ·)) ∨
    ∀ cs, splitWithin due quote (c :: cs) = none := by
  cases quote with
  | some q => exact .inl ⟨due, if c = q then none else some q, fun cs => by rw [splitWithin]⟩
  | none =>
    by_cases hquote : isQuote c = true
    · exact .inl ⟨due, some c, splitWithin_quote hquote⟩
    rw [Bool.not_eq_true] at hquote
    cases hopens : closerOf? c with
    | some closer => exact .inl ⟨closer :: due, none, splitWithin_open hquote hopens⟩
    | none =>
      have hrest := @splitWithin_rest due c hquote hopens
      by_cases hcloses : c = ')' ∨ c = ']' ∨ c = '}'
      · have hclose := fun cs => (hrest cs).trans (if_pos hcloses)
        cases due with
        | nil => exact .inr (.inr hclose)
        | cons closer outer =>
          by_cases hcloser : c = closer
          · exact .inl ⟨outer, none, fun cs => (hclose cs).trans (if_pos hcloser)⟩
          · exact .inr (.inr fun cs => (hclose cs).trans (if_neg hcloser))
      · have hplain := fun cs => (hrest cs).trans (if_neg hcloses)
        by_cases hcomma : c = ',' ∧ due = []
        · obtain ⟨rfl, rfl⟩ := hcomma
          exact .inr (.inl ⟨rfl, rfl, rfl, fun cs => (hplain cs).trans (if_pos ⟨rfl, rfl⟩)⟩)
        · exact .inl ⟨due, none, fun cs => (hplain cs).trans (if_neg hcomma)⟩

/-- The parts of a text make it up, and none of them is cut further: the first one from where the split
stands, the others from the start. -/
theorem parts_of_splitWithin {due : List Char} {quote : Option Char} {text : Text} {parts : List Text}
    (hsplit : splitWithin due quote text = some parts) :
    ∃ first rest, parts = first :: rest ∧ Text.join [','] parts = text ∧
      splitWithin due quote first = some [first] ∧ ∀ part ∈ rest, splitTopLevel? part = some [part] := by
  induction text generalizing due quote parts with
  | nil =>
    have hparts : parts = [[]] := by
      rw [splitWithin] at hsplit
      split at hsplit
      · exact (Option.some.inj hsplit).symm
      · cases hsplit
    subst hparts
    exact ⟨[], [], rfl, rfl, hsplit, nofun⟩
  | cons c cs ih =>
    rcases splitWithin_cons_cases due quote c with ⟨due', quote', hgo⟩ | ⟨rfl, rfl, rfl, hcut⟩ | hnone
    · rw [hgo, Option.map_eq_some_iff] at hsplit
      obtain ⟨more, hmore, rfl⟩ := hsplit
      obtain ⟨first, rest, rfl, hjoin, hfirst, hrest⟩ := ih hmore
      refine ⟨c :: first, rest, rfl, ?_, ?_, hrest⟩
      · rw [consFirst, Text.join_cons_cons, hjoin]
      · rw [hgo, hfirst]
        rfl
    · rw [hcut, Option.map_eq_some_iff] at hsplit
      obtain ⟨more, hmore, rfl⟩ := hsplit
      obtain ⟨first, rest, rfl, hjoin, hfirst, hrest⟩ := ih hmore
      refine ⟨[], first :: rest, rfl, ?_, rfl, List.forall_mem_cons.mpr ⟨hfirst, hrest⟩⟩
      rw [Text.join_cons _ _ (List.cons_ne_nil first rest), hjoin]
      rfl
    · rw [hnone] at hsplit
      cases hsplit

/-- Behind a text that is not cut, everything is closed, so a comma there ends the part. -/
theorem splitWithin_append_comma {due : List Char} {quote : Option Char} {part : Text}
    (hpart : splitWithin due quote part = some [part]) (text : Text) :
    splitWithin due quote (part ++ ',' :: text) = (splitTopLevel? text).map (part :: ·) := by
  induction part generalizing due quote with
  | nil =>
    rw [splitWithin] at hpart
    split at hpart
    · rename_i hclosed
      obtain ⟨hdue, hquote⟩ := Bool.and_eq_true_iff.mp hclosed
      rw [List.isEmpty_iff.mp hdue, Option.isNone_iff_eq_none.mp hquote]
      rfl
    · cases hpart
  | cons c cs ih =>
    rcases splitWithin_cons_cases due quote c with ⟨due', quote', hgo⟩ | ⟨-, -, -, hcut⟩ | hnone
    · rw [hgo, Option.map_eq_some_iff] at hpart
      obtain ⟨more, hmore, hfirst⟩ := hpart
      obtain ⟨first, rest, rfl, -⟩ := parts_of_splitWithin hmore
      obtain ⟨rfl, rfl⟩ : first = cs ∧ rest = [] := by simpa [consFirst] using hfirst
      rw [List.cons_append, hgo, ih hmore, Option.map_map]
      rfl
    · rw [hcut, Option.map_eq_some_iff] at hpart
      obtain ⟨more, -, hmore⟩ := hpart
      simp at hmore
    · rw [hnone] at hpart
      cases hpart

theorem splitTopLevel?_join {parts : List Text} (hne : parts ≠ [])
    (hparts : ∀ part ∈ parts, splitTopLevel? part = some [part]) :
    splitTopLevel? (Text.join [','] parts) = some parts := by
  induction parts with
  | nil => exact absurd rfl hne
  | cons part parts ih =>
    obtain ⟨hpart, hparts⟩ := List.forall_mem_cons.mp hparts
    by_cases hlast : parts = []
    · subst hlast
      exact hpart
    · rw [Text.join_cons _ _ hlast, List.append_assoc, List.singleton_append, splitTopLevel?,
        splitWithin_append_comma hpart, ih hlast hparts]
      rfl

/-- A text splits into parts exactly when it is their join and none of them splits any further. -/
theorem splitTopLevel?_eq_some_iff (text : Text) (parts : List Text) :
    splitTopLevel? text = some parts ↔
      parts ≠ [] ∧ Text.join [','] parts = text ∧
        ∀ part ∈ parts, splitTopLevel? part = some [part] := by
  constructor
  · intro hsplit
    obtain ⟨first, rest, rfl, hjoin, hfirst, hrest⟩ := parts_of_splitWithin hsplit
    exact ⟨List.cons_ne_nil first rest, hjoin, List.forall_mem_cons.mpr ⟨hfirst, hrest⟩⟩
  · rintro ⟨hne, rfl, hparts⟩
    exact splitTopLevel?_join hne hparts

/-! ### Splitting expressions -/

section

variable {due : List Char} {text first : Text} {more : List Text}

theorem splitWithin_string {q : Char} {body : Text} (hbody : q ∉ body)
    (hsplit : splitWithin due none text = some (first :: more)) :
    splitWithin due (some q) (body ++ q :: text) = some ((body ++ q :: first) :: more) := by
  induction body with
  | nil =>
    rw [List.nil_append, splitWithin, if_pos rfl, hsplit]
    rfl
  | cons c body ih =>
    obtain ⟨hc, hbody⟩ := not_or.mp (List.mem_cons.not.mp hbody)
    rw [List.cons_append, splitWithin, if_neg (Ne.symm hc), ih hbody]
    rfl

theorem splitWithin_inside {body : Text} (hbody : Inside body) (hdue : due ≠ [])
    (hsplit : splitWithin due none text = some (first :: more)) :
    splitWithin due none (body ++ text) = some ((body ++ first) :: more) := by
  induction hbody generalizing due text first more with
  | nil => exact hsplit
  | plain hquote hbracket _ ih =>
    rw [List.cons_append, splitWithin_plain hquote hbracket fun _ => hdue, ih hdue hsplit]
    rfl
  | string hq hbody _ ih =>
    rw [List.cons_append, List.append_assoc, List.cons_append, splitWithin_quote hq,
      splitWithin_string hbody (ih hdue hsplit), List.cons_append, List.append_assoc]
    rfl
  | @group opener closer body rest hpair _ _ ihbody ihrest =>
    obtain ⟨hcloser, hcloses⟩ := closerOf?_of_opener? hpair
    have hrest : splitWithin (closer :: due) none (closer :: (rest ++ text)) =
        some ((closer :: (rest ++ first)) :: more) := by
      rw [splitWithin_close hcloses, ihrest hdue hsplit]
      rfl
    rw [List.cons_append, List.append_assoc, List.cons_append,
      splitWithin_open (Line.opener?_cases hpair).2.1 hcloser,
      ihbody (List.cons_ne_nil closer due) hrest, List.cons_append, List.append_assoc]
    rfl

theorem splitTopLevel?_unit {unit : Text} (hunit : IsUnit unit)
    (hsplit : splitTopLevel? text = some (first :: more)) :
    splitTopLevel? (unit ++ text) = some ((unit ++ first) :: more) := by
  rw [splitTopLevel?] at hsplit ⊢
  cases hunit with
  | @char c hc =>
    have hne : ∀ {d : Char}, isPathChar d = false → c ≠ d := by
      rintro d hd rfl
      rw [hc] at hd
      cases hd
    have hquote : isQuote c = false := by
      simp [isQuote, hne (d := '\'') (by decide), hne (d := '"') (by decide)]
    have hopener : Line.isOpener c = false := by
      simp [Line.isOpener, hne (d := '(') (by decide), hne (d := '[') (by decide), hne (d := '{') (by decide)]
    have hbracket := Line.isBracket_eq_false.mpr ⟨hopener, Line.opener?_of_isPathChar hc⟩
    rw [List.singleton_append, splitWithin_plain hquote hbracket fun hcomma => absurd hcomma (hne (by decide)),
      hsplit]
    rfl
  | @group opener closer body hpair hbody =>
    obtain ⟨hcloser, hcloses⟩ := closerOf?_of_opener? hpair
    have hclose : splitWithin [closer] none (closer :: text) = some ((closer :: first) :: more) := by
      rw [splitWithin_close hcloses, hsplit]
      rfl
    rw [List.cons_append, List.append_assoc, List.singleton_append,
      splitWithin_open (Line.opener?_cases hpair).2.1 hcloser,
      splitWithin_inside hbody (List.cons_ne_nil closer []) hclose, List.cons_append, List.append_assoc]
    rfl

theorem splitTopLevel?_units {text : Text} (hunits : Units text) : splitTopLevel? text = some [text] := by
  obtain ⟨units, hunits, rfl⟩ := hunits
  induction units with
  | nil => rfl
  | cons unit units ih =>
    obtain ⟨hunit, hunits⟩ := List.forall_mem_cons.mp hunits
    exact splitTopLevel?_unit hunit (ih hunits)

end

/-- What is read back from a column as an expression is read on as one part. -/
theorem splitTopLevel?_of_expressionBefore? {line expression : Text} {column : Int}
    (hbefore : Line.expressionBefore? line column = some expression) (hne : expression ≠ []) :
    splitTopLevel? expression = some [expression] := by
  rw [Line.expressionBefore?] at hbefore
  split at hbefore
  · cases hbefore
  · have hreceiver := (Line.expressionAtEnd_eq_iff hne).mp (Option.some.inj hbefore)
    exact splitTopLevel?_units hreceiver.units

/-- Commas in brackets and brackets in quotes of either kind do not count. -/
theorem splitTopLevel?_of_expressionBefore?_quoted :
    Line.expressionBefore? "x = f(\"a'b\", ['[,']).".toList 20 = some "f(\"a'b\", ['[,'])".toList ∧
      splitTopLevel? "f(\"a'b\", ['[,'])".toList = some ["f(\"a'b\", ['[,'])".toList] := by
  have hbefore : Line.expressionBefore? "x = f(\"a'b\", ['[,']).".toList 20 =
      some "f(\"a'b\", ['[,'])".toList := by decide
  exact ⟨hbefore, splitTopLevel?_of_expressionBefore? hbefore (by decide)⟩

end Caret.Completion
