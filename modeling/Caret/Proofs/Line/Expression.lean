import Caret.Line.Expression
import Caret.Proofs.Text.Cut
import Mathlib.Tactic.Common

/-!
# The grammar of the expression before the caret

An expression is a row of units: characters of dotted names, and bracket groups. A group holds strings
in quotes, further groups, and any other characters. The grammar reads from left to right and knows
nothing of a walk; the walk reads from right to left and keeps a stack of brackets and a quote.

`Leads` says what a walk still has to pass over in each of its states, in terms of the grammar. A walk
that ends has passed over such a text and stands before a character that no expression goes on with; and
over each text of the grammar the walk goes in one piece. So the two agree on every line.
-/

namespace Caret.Line

/-! ### The grammar -/

def isBracket (c : Char) : Bool :=
  isOpener c || (opener? c).isSome

/-- What stands between a bracket and its partner. -/
inductive Inside : Text → Prop where
  | nil : Inside []
  | plain {c : Char} {rest : Text} (hquote : isQuote c = false) (hbracket : isBracket c = false)
      (hrest : Inside rest) : Inside (c :: rest)
  | string {q : Char} {body rest : Text} (hq : isQuote q = true) (hbody : q ∉ body)
      (hrest : Inside rest) : Inside (q :: (body ++ q :: rest))
  | group {opener closer : Char} {body rest : Text} (hpair : opener? closer = some opener)
      (hbody : Inside body) (hrest : Inside rest) : Inside (opener :: (body ++ closer :: rest))

inductive IsUnit : Text → Prop where
  | char {c : Char} (hc : isPathChar c = true) : IsUnit [c]
  | group {opener closer : Char} {body : Text} (hpair : opener? closer = some opener)
      (hbody : Inside body) : IsUnit (opener :: (body ++ [closer]))

/-- Any number of units in a row. -/
def Units (text : Text) : Prop :=
  ∃ units : List Text, (∀ unit ∈ units, IsUnit unit) ∧ units.flatten = text

/-- A text that no expression behind it reaches into: it ends, if it is not empty, with a character that
is neither part of a dotted name nor a closing bracket. -/
def IsBreak (before : Text) : Prop :=
  ∀ c ∈ before.getLast?, isPathChar c = false ∧ opener? c = none

/-- A digit, and characters of dotted names behind it. -/
def IsNumeral (text : Text) : Prop :=
  ∃ digit rest, text = digit :: rest ∧ Text.isDigit digit = true ∧ ∀ c ∈ rest, isPathChar c = true

/-- The expression that a dot at the end of a text is typed after. -/
structure IsReceiver (text expression : Text) : Prop where
  ne_nil : expression ≠ []
  units : Units expression
  not_dot : expression.head? ≠ some '.'
  not_numeral : ¬ IsNumeral expression
  behind : ∃ before, text = before ++ expression ∧ IsBreak before

section

variable {a b : Text}

theorem Inside.append (ha : Inside a) (hb : Inside b) : Inside (a ++ b) := by
  induction ha with
  | nil => exact hb
  | plain hquote hbracket _ ih => exact .plain hquote hbracket ih
  | string hq hbody _ ih =>
    rw [List.cons_append, List.append_assoc]
    exact .string hq hbody ih
  | group hpair hbody _ _ ih =>
    rw [List.cons_append, List.append_assoc]
    exact .group hpair hbody ih

theorem Units.append (ha : Units a) (hb : IsUnit b) : Units (a ++ b) := by
  obtain ⟨units, hunits, rfl⟩ := ha
  refine ⟨units ++ [b], ?_, by simp⟩
  intro unit hunit
  rcases List.mem_append.mp hunit with hunit | hunit
  · exact hunits unit hunit
  · exact List.mem_singleton.mp hunit ▸ hb

end

/-! ### Brackets and quotes -/

section

variable {c opener closer : Char}

theorem opener?_cases (hpair : opener? closer = some opener) :
    isOpener opener = true ∧ isQuote opener = false ∧ opener? opener = none ∧ isQuote closer = false := by
  unfold opener? at hpair
  split at hpair <;> cases hpair <;> decide

theorem opener?_of_isPathChar (hc : isPathChar c = true) : opener? c = none := by
  unfold opener?
  split <;> first | rfl | exact absurd hc (by decide)

theorem isBracket_eq_false : isBracket c = false ↔ isOpener c = false ∧ opener? c = none := by
  rw [isBracket, Bool.or_eq_false_iff, Option.isSome_eq_false_iff, Option.isNone_iff_eq_none]

end

/-! ### Steps of a walk -/

section

variable {due c opener : Char} {outer : List Char} {taken before : Text}

theorem walkBack_plain (hquote : isQuote c = false) (hbracket : isBracket c = false) :
    walkBack (due :: outer) none taken (c :: before) =
      walkBack (due :: outer) none (c :: taken) before := by
  obtain ⟨hopener, hcloser⟩ := isBracket_eq_false.mp hbracket
  rw [walkBack, hquote, if_neg Bool.false_ne_true, hcloser, hopener]
  rfl

theorem walkBack_quote (hquote : isQuote c = true) :
    walkBack (due :: outer) none taken (c :: before) =
      walkBack (due :: outer) (some c) (c :: taken) before := by
  rw [walkBack, if_pos hquote]

theorem walkBack_close (hpair : opener? c = some opener) :
    walkBack (due :: outer) none taken (c :: before) =
      walkBack (opener :: due :: outer) none (c :: taken) before := by
  rw [walkBack, (opener?_cases hpair).2.2.2, if_neg Bool.false_ne_true, hpair]

theorem walkBack_open {closer : Char} (hpair : opener? closer = some due) :
    walkBack (due :: outer) none taken (due :: before) = walkBack outer none (due :: taken) before := by
  obtain ⟨hopener, hquote, hcloser, -⟩ := opener?_cases hpair
  rw [walkBack, hquote, if_neg Bool.false_ne_true, hcloser]
  dsimp only
  rw [if_pos hopener, if_pos rfl]

end

/-! ### Walking over the grammar -/

section

variable {due : Char} {outer : List Char} {before : Text}

theorem walkBack_string {q : Char} {body : Text} (hbody : q ∉ body) (taken : Text) :
    walkBack (due :: outer) (some q) taken (body ++ q :: before) =
      walkBack (due :: outer) none (q :: (body.reverse ++ taken)) before := by
  induction body generalizing taken with
  | nil => rw [List.nil_append, walkBack, if_pos rfl, List.reverse_nil, List.nil_append]
  | cons c body ih =>
    obtain ⟨hc, hbody⟩ := not_or.mp (List.mem_cons.not.mp hbody)
    rw [List.cons_append, walkBack, if_neg (Ne.symm hc), ih hbody, List.reverse_cons, List.append_assoc,
      List.singleton_append]

theorem walkBack_inside {body : Text} (hbody : Inside body) (taken : Text) :
    walkBack (due :: outer) none taken (body.reverse ++ before) =
      walkBack (due :: outer) none (body ++ taken) before := by
  induction hbody generalizing due outer taken before with
  | nil => rfl
  | plain hquote hbracket _ ih =>
    rw [List.reverse_cons, List.append_assoc, ih, List.singleton_append, walkBack_plain hquote hbracket,
      List.cons_append]
  | @string q body rest hq hbody _ ih =>
    -- from the right: the rest, the closing quote, what it encloses, and the opening one
    have hreverse : (q :: (body ++ q :: rest)).reverse ++ before =
        rest.reverse ++ q :: (body.reverse ++ q :: before) := by simp
    have hfree : q ∉ body.reverse := mt List.mem_reverse.mp hbody
    rw [hreverse, ih, walkBack_quote hq, walkBack_string hfree, List.reverse_reverse, List.cons_append,
      List.append_assoc, List.cons_append]
  | @group opener closer body rest hpair _ _ ihbody ihrest =>
    have hreverse : (opener :: (body ++ closer :: rest)).reverse ++ before =
        rest.reverse ++ closer :: (body.reverse ++ opener :: before) := by simp
    rw [hreverse, ihrest, walkBack_close hpair, ihbody, walkBack_open hpair, List.cons_append,
      List.append_assoc, List.cons_append]

end

theorem walkBack_unit {unit : Text} (hunit : IsUnit unit) (taken before : Text) :
    walkBack [] none taken (unit.reverse ++ before) = walkBack [] none (unit ++ taken) before := by
  cases hunit with
  | @char c hc =>
    rw [List.reverse_singleton, List.singleton_append, walkBack, opener?_of_isPathChar hc]
    exact if_pos hc
  | @group opener closer body hpair hbody =>
    have hreverse : (opener :: (body ++ [closer])).reverse ++ before =
        closer :: (body.reverse ++ opener :: before) := by simp
    rw [hreverse, walkBack, hpair]
    dsimp only
    rw [walkBack_inside hbody, walkBack_open hpair, List.cons_append, List.append_assoc,
      List.singleton_append]

theorem walkBack_units {text : Text} (hunits : Units text) (taken before : Text) :
    walkBack [] none taken (text.reverse ++ before) = walkBack [] none (text ++ taken) before := by
  obtain ⟨units, hunits, rfl⟩ := hunits
  -- the unit on the left is passed over last
  induction units generalizing before with
  | nil => rfl
  | cons unit units ih =>
    obtain ⟨hunit, hunits⟩ := List.forall_mem_cons.mp hunits
    rw [List.flatten_cons, List.reverse_append, List.append_assoc, ih _ hunits, walkBack_unit hunit,
      List.append_assoc]

theorem walkBack_break {before : Text} (hbreak : IsBreak before) (taken : Text) :
    walkBack [] none taken before.reverse = some taken := by
  cases hreverse : before.reverse with
  | nil => rw [walkBack]
  | cons c rest =>
    have hlast : c ∈ before.getLast? := by rw [List.getLast?_eq_head?_reverse, hreverse]; rfl
    obtain ⟨hpath, hcloser⟩ := hbreak c hlast
    rw [walkBack, hcloser]
    exact if_neg (Bool.eq_false_iff.mp hpath)

/-! ### What a walk passes over -/

/-- What is left to pass over while brackets are to be opened: for each of them the inside of its group
and the bracket itself, and in front of the outermost one the rest of the expression. -/
def Opens : List Char → Text → Prop
  | [], left => Units left
  | opener :: outer, left => ∃ more body, left = more ++ opener :: body ∧ Inside body ∧ Opens outer more

/-- What is left to pass over in a state of a walk. A string that is begun comes first. -/
def Leads (due : List Char) (quote : Option Char) (left : Text) : Prop :=
  match due, quote with
  | _ :: _, some q => ∃ more body, left = more ++ q :: body ∧ q ∉ body ∧ Opens due more
  | _, _ => Opens due left

theorem leads_nil (quote : Option Char) (left : Text) : Leads [] quote left ↔ Units left :=
  Iff.rfl

theorem leads_none (due : List Char) (left : Text) : Leads due none left ↔ Opens due left := by
  cases due <;> exact Iff.rfl

/-- What is left inside a group may be followed by more of its inside. -/
theorem Opens.append {opener : Char} {outer : List Char} {left body : Text}
    (hleft : Opens (opener :: outer) left) (hbody : Inside body) : Opens (opener :: outer) (left ++ body) := by
  obtain ⟨more, inside, rfl, hinside, hmore⟩ := hleft
  exact ⟨more, inside ++ body, by simp, hinside.append hbody, hmore⟩

/-- A walk that ends has passed over what its state asks for, up to a break. -/
theorem leads_of_walkBack {due : List Char} {quote : Option Char} {taken before found : Text}
    (hwalk : walkBack due quote taken before = some found) :
    ∃ left rest, before = left.reverse ++ rest.reverse ∧ found = left ++ taken ∧ Leads due quote left ∧
      IsBreak rest := by
  -- one more character that was passed over stands at the right of what is left
  have hcons : ∀ {c : Char} {taken before : Text} {P Q : Text → Prop},
      (∃ left rest, before = left.reverse ++ rest.reverse ∧ found = left ++ c :: taken ∧ P left ∧
        IsBreak rest) →
      (∀ left, P left → Q (left ++ [c])) →
      ∃ left rest, c :: before = left.reverse ++ rest.reverse ∧ found = left ++ taken ∧ Q left ∧
        IsBreak rest := by
    rintro c taken before P Q ⟨left, rest, rfl, hfound, hleft, hrest⟩ hstep
    exact ⟨left ++ [c], rest, by simp, by simpa using hfound, hstep left hleft, hrest⟩
  have hunits : Units [] := ⟨[], nofun, rfl⟩
  fun_induction walkBack due quote taken before with
  | case1 quote taken =>
    cases hwalk
    exact ⟨[], [], rfl, rfl, hunits, nofun⟩
  | case2 => cases hwalk
  | case3 quote taken c before opener hpair ih =>
    refine hcons (ih hwalk) ?_
    rintro left ⟨more, body, rfl, hbody, hmore⟩
    rw [leads_nil, List.append_assoc, List.cons_append]
    exact Units.append hmore (.group hpair hbody)
  | case4 quote taken c before hnone hpath ih =>
    exact hcons (ih hwalk) fun left hleft => Units.append hleft (.char hpath)
  | case5 quote taken c before hnone hpath =>
    cases hwalk
    refine ⟨[], (c :: before).reverse, by simp, rfl, hunits, ?_⟩
    intro d hd
    obtain rfl : c = d := by simpa using hd
    exact ⟨Bool.eq_false_iff.mpr hpath, hnone⟩
  | case6 due outer q taken c before ih =>
    refine hcons (ih hwalk) fun left hleft => ?_
    split at hleft
    · rename_i heq
      subst heq
      exact ⟨left, [], rfl, List.not_mem_nil, hleft⟩
    · rename_i hne
      obtain ⟨more, body, rfl, hfree, hmore⟩ := hleft
      refine ⟨more, body ++ [c], by simp, ?_, hmore⟩
      simpa using ⟨hfree, Ne.symm hne⟩
  | case7 due outer taken c before hquote ih =>
    refine hcons (ih hwalk) ?_
    rintro left ⟨more, body, rfl, hfree, hmore⟩
    rw [leads_none, List.append_assoc, List.cons_append]
    exact Opens.append hmore (.string hquote hfree .nil)
  | case8 due outer taken c before hquote opener hpair ih =>
    refine hcons (ih hwalk) ?_
    rintro left ⟨more, body, rfl, hbody, hmore⟩
    rw [leads_none, List.append_assoc, List.cons_append]
    exact Opens.append hmore (.group hpair hbody .nil)
  | case9 outer taken c before hquote hnone hopener ih =>
    refine hcons (ih hwalk) fun left hleft => ?_
    exact ⟨left, [], rfl, .nil, (leads_none outer left).mp hleft⟩
  | case10 => cases hwalk
  | case11 due outer taken c before hquote hnone hopener ih =>
    refine hcons (ih hwalk) fun left hleft => Opens.append hleft (.plain ?_ ?_ .nil)
    · exact Bool.eq_false_iff.mpr hquote
    · exact isBracket_eq_false.mpr ⟨Bool.eq_false_iff.mpr hopener, hnone⟩

/-- A walk from the end of a text passes over the units between the last break and the end. -/
theorem walkBack_eq_some_iff {text found : Text} :
    walkBack [] none [] text.reverse = some found ↔
      Units found ∧ ∃ before, text = before ++ found ∧ IsBreak before := by
  constructor
  · intro hwalk
    obtain ⟨left, rest, hreverse, rfl, hunits, hbreak⟩ := leads_of_walkBack hwalk
    rw [List.append_nil]
    refine ⟨hunits, rest, ?_, hbreak⟩
    rw [← List.reverse_append, List.reverse_inj] at hreverse
    exact hreverse
  · rintro ⟨hunits, before, rfl, hbreak⟩
    rw [List.reverse_append, walkBack_units hunits, List.append_nil, walkBack_break hbreak]

/-! ### The expression before a column -/

theorem isNumberLike_eq_true {text : Text} : isNumberLike text = true ↔ IsNumeral text := by
  cases text with
  | nil => simp [isNumberLike, IsNumeral]
  | cons c cs => simp [isNumberLike, IsNumeral]

theorem expressionAtEnd_eq_iff {text expression : Text} (hne : expression ≠ []) :
    expressionAtEnd text = expression ↔ IsReceiver text expression := by
  have hexcluded : ∀ found : Text, ((found.head?).any (· == '.') || isNumberLike found) = false ↔
      found.head? ≠ some '.' ∧ ¬ IsNumeral found := by
    intro found
    rw [Bool.or_eq_false_iff, ← isNumberLike_eq_true, Bool.not_eq_true]
    cases found.head? <;> simp
  constructor
  · intro hexpression
    rw [expressionAtEnd] at hexpression
    split at hexpression
    · rename_i found hwalk
      split at hexpression
      · exact absurd hexpression.symm hne
      · rename_i hkept
        subst hexpression
        obtain ⟨hunits, hbehind⟩ := walkBack_eq_some_iff.mp hwalk
        obtain ⟨hdot, hnumeral⟩ := (hexcluded _).mp (Bool.eq_false_iff.mpr hkept)
        exact ⟨hne, hunits, hdot, hnumeral, hbehind⟩
    · exact absurd hexpression.symm hne
  · rintro ⟨-, hunits, hdot, hnumeral, hbehind⟩
    rw [expressionAtEnd, walkBack_eq_some_iff.mpr ⟨hunits, hbehind⟩]
    exact if_neg (Bool.eq_false_iff.mp ((hexcluded _).mpr ⟨hdot, hnumeral⟩))

/-- The expression before a column of a line is the one of the grammar, and nothing where the grammar has
none. Before the start of the line there is none. -/
theorem expressionBefore?_eq_some_iff {line : Text} {column : Int} (hcolumn : column ≤ line.length) :
    (∀ expression : Text, expression ≠ [] →
      (expressionBefore? line column = some expression ↔
        IsReceiver (line.take column.toNat) expression)) ∧
    ((∀ expression, ¬ IsReceiver (line.take column.toNat) expression) →
      expressionBefore? line column = some []) ∧
    (column < 0 → expressionBefore? line column = some []) := by
  have hbefore : expressionBefore? line column = some (expressionAtEnd (line.take column.toNat)) :=
    if_neg (Int.not_lt.mpr hcolumn)
  have hnone : (∀ expression, ¬ IsReceiver (line.take column.toNat) expression) →
      expressionBefore? line column = some [] := by
    intro hnone
    rw [hbefore]
    by_contra hsome
    have hne : expressionAtEnd (line.take column.toNat) ≠ [] := fun hnil => hsome (congrArg some hnil)
    exact hnone _ ((expressionAtEnd_eq_iff hne).mp rfl)
  refine ⟨?_, hnone, ?_⟩
  · intro expression hne
    rw [hbefore, Option.some.injEq]
    exact expressionAtEnd_eq_iff hne
  · intro hnegative
    refine hnone fun expression hreceiver => ?_
    obtain ⟨before, hbefore, -⟩ := hreceiver.behind
    rw [Int.toNat_of_nonpos (Int.le_of_lt hnegative), List.take_zero, eq_comm, List.append_eq_nil_iff] at hbefore
    exact hreceiver.ne_nil hbefore.2

/-- A bracket in quotes closes nothing. -/
theorem expressionBefore?_eq_some_iff_quoted_bracket :
    (13 : Int) ≤ "print(d['a)'].".toList.length ∧ "d['a)']".toList ≠ [] ∧
      IsReceiver ("print(d['a)'].".toList.take 13) "d['a)']".toList := by
  have hcolumn : (13 : Int) ≤ "print(d['a)'].".toList.length := by decide
  have hne : "d['a)']".toList ≠ [] := by decide
  refine ⟨hcolumn, hne, ((expressionBefore?_eq_some_iff hcolumn).1 _ hne).mp ?_⟩
  decide

/-- A column below zero is not counted from the end of the line, where an expression would end. -/
theorem expressionBefore?_below_zero :
    (-1 : Int) ≤ "abc".toList.length ∧ "ab".toList ≠ [] ∧
      ¬ (expressionBefore? "abc".toList (-1) = some "ab".toList ↔
        IsReceiver (Text.upTo "abc".toList (-1)) "ab".toList) := by
  refine ⟨by decide, by decide, fun hiff => ?_⟩
  have hreceiver : IsReceiver (Text.upTo "abc".toList (-1)) "ab".toList :=
    (expressionAtEnd_eq_iff (by decide)).mp (by decide)
  exact absurd (hiff.mpr hreceiver) (by decide)

end Caret.Line
