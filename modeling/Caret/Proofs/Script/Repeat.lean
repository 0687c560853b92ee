import Caret.Proofs.Script.Agreement

/-!
# Parsers that look past their end

A statement that holds blocks may look past its own end, at a keyword that would go on with it. Apart
from the few lexemes that are watched for there, what follows a statement plays no part. `Repeats` says
this of a parser and one with more fuel: what the first one answers, the second one answers too on
tokens that say the same, before anything that starts alike as far as the watched lexemes go.

Parsers that stay within a line agree, which is more. A line that has been taken to its end is the
same segment wherever it stands, so such parsers may come in front of one that takes the line's end.
-/

namespace Caret.Script

/-- What the first token says, if there is one. -/
def firstLexeme? (tokens : List Token) : Option Lexeme :=
  tokens.head?.map (·.lexeme)

/-- Two lists of tokens start alike as far as the watched lexemes go. -/
def StartAlike (watched : Lexeme → Prop) (x y : List Token) : Prop :=
  ∀ l, watched l → (firstLexeme? x = some l ↔ firstLexeme? y = some l)

variable {watched : Lexeme → Prop}

theorem firstLexeme?_cons {token : Token} {lexeme : Lexeme} (h : token.lexeme = lexeme)
    (tokens : List Token) : firstLexeme? (token :: tokens) = some lexeme :=
  congrArg some h

theorem firstLexeme?_append {taken : List Token} (hne : taken ≠ []) (rest : List Token) :
    firstLexeme? (taken ++ rest) = (lexemes taken).head? := by
  cases taken with
  | nil => exact absurd rfl hne
  | cons token taken => rfl

theorem StartAlike.append {taken taken' x y : List Token} (hsame : lexemes taken' = lexemes taken)
    (h : StartAlike watched x y) : StartAlike watched (taken ++ x) (taken' ++ y) := by
  cases taken with
  | nil =>
    obtain rfl : taken' = [] := by simpa [lexemes] using hsame
    exact h
  | cons token taken =>
    have hne : taken' ≠ [] := by
      rintro rfl
      cases hsame
    intro l _
    rw [firstLexeme?_append (by simp), firstLexeme?_append hne, hsame]

/-- Tokens that say the same as two lists together say the same as each of them in turn. -/
theorem exists_append_of_lexemes {taken left right : List Token}
    (h : lexemes taken = lexemes (left ++ right)) :
    ∃ left' right', taken = left' ++ right' ∧ lexemes left' = lexemes left ∧
      lexemes right' = lexemes right := by
  rw [lexemes_append] at h
  exact List.map_eq_append_iff.mp h

theorem exists_cons_of_lexemes {taken rest : List Token} {token : Token}
    (h : lexemes taken = lexemes (token :: rest)) :
    ∃ token' rest', taken = token' :: rest' ∧ token'.lexeme = token.lexeme ∧
      lexemes rest' = lexemes rest :=
  List.map_eq_cons_iff.mp h

theorem segment_congr {x y : List Token} (h : lexemes x = lexemes y) : segment x = segment y := by
  induction x generalizing y with
  | nil =>
    obtain rfl : y = [] := by simpa [lexemes] using h.symm
    rfl
  | cons s xs ih =>
    cases y with
    | nil => cases h
    | cons t ys =>
      rw [lexemes_cons, lexemes_cons, List.cons.injEq] at h
      rw [segment, segment, ih h.2, h.1]

/-- What follows an end is not part of the segment. -/
theorem segment_append_of_newline {taken : List Token} (hend : .newline ∈ lexemes taken)
    (rest : List Token) : segment (taken ++ rest) = segment taken := by
  induction taken with
  | nil => cases hend
  | cons token taken ih =>
    rw [List.cons_append, segment, segment]
    split
    · rfl
    · rename_i hinside
      rw [lexemes_cons, List.mem_cons] at hend
      rcases hend with hhere | hlater
      · exact absurd (by rw [← hhere]; rfl) hinside
      · rw [ih hlater]

theorem segment_eq_of_newline {taken taken' : List Token} (hsame : lexemes taken' = lexemes taken)
    (hend : .newline ∈ lexemes taken) (rest rest' : List Token) :
    segment (taken ++ rest) = segment (taken' ++ rest') := by
  have hend' : .newline ∈ lexemes taken' := hsame ▸ hend
  rw [segment_append_of_newline hend, segment_append_of_newline hend', segment_congr hsame]

theorem firstLexeme?_of_newline {taken taken' : List Token} (hsame : lexemes taken' = lexemes taken)
    (hend : .newline ∈ lexemes taken) (rest rest' : List Token) :
    firstLexeme? (taken ++ rest) = firstLexeme? (taken' ++ rest') := by
  have hne : taken ≠ [] := by
    rintro rfl
    cases hend
  have hne' : taken' ≠ [] := by
    rintro rfl
    exact hne (by simpa [lexemes] using hsame.symm)
  rw [firstLexeme?_append hne, firstLexeme?_append hne', hsame]

theorem weight_append_le {x taken rest : List Token} (hx : x = taken ++ rest) :
    weight (lexemes rest) ≤ weight (lexemes x) := by
  rw [hx, lexemes_append, weight_append]
  omega

theorem weight_lt_of_cons {token : Token} {tokens : List Token} {bound : Nat}
    (hlt : weight (lexemes (token :: tokens)) < bound) : weight (lexemes tokens) < bound := by
  rw [lexemes_cons, weight_cons] at hlt
  omega

namespace Parser

variable {α β : Type} {ended : Bool} {bound : Nat}

/-- A run that leaves some of the tokens is repeated by a parser. If it ended a line, the end of the
line is among what it took. -/
def RepeatedBy (watched : Lexeme → Prop) (ended : Bool) (x : List Token) (a : α) (rest : List Token)
    (q : Parser α) : Prop :=
  ∃ taken, x = taken ++ rest ∧ (ended = true → .newline ∈ lexemes taken) ∧
    ∀ taken' rest', lexemes taken' = lexemes taken → StartAlike watched rest rest' →
      q (taken' ++ rest') = some (a, rest')

/-- What the first parser answers, on tokens whose weight is below a bound, the second one repeats. -/
def Repeats (watched : Lexeme → Prop) (ended : Bool) (bound : Nat) (p q : Parser α) : Prop :=
  ∀ x a rest, weight (lexemes x) < bound → p x = some (a, rest) → RepeatedBy watched ended x a rest q

theorem Repeats.weaken {p q : Parser α} (h : Repeats watched ended bound p q) :
    Repeats watched false bound p q := by
  intro x a rest hlt hp
  obtain ⟨taken, hx, -, hq⟩ := h x a rest hlt hp
  exact ⟨taken, hx, by simp, hq⟩

theorem Repeats.pure {a : α} : Repeats watched false bound (pure a : Parser α) (Pure.pure a) := by
  intro x b rest _ hp
  cases hp
  exact ⟨[], rfl, by simp, fun taken' rest' hsame _ => by
    obtain rfl : taken' = [] := by simpa [lexemes] using hsame
    rfl⟩

theorem Repeats.fail {q : Parser α} : Repeats watched ended bound fail q :=
  fun _ _ _ _ hp => nomatch hp

theorem Repeats.ite {c : Prop} [Decidable c] {p q p' q' : Parser α}
    (hp : Repeats watched ended bound p p') (hq : Repeats watched ended bound q q') :
    Repeats watched ended bound (if c then p else q) (if c then p' else q') := by
  split
  · exact hp
  · exact hq

/-- A run after a run. -/
theorem RepeatedBy.bind {ended' : Bool} {q : Parser α} {g : α → Parser β} {x middle rest : List Token}
    {a : α} {b : β} (hq : RepeatedBy watched ended x a middle q)
    (hg : RepeatedBy watched ended' middle b rest (g a)) :
    RepeatedBy watched (ended || ended') x b rest (q >>= g) := by
  obtain ⟨taken, hx, hend, hq⟩ := hq
  obtain ⟨more, hmiddle, hend', hg⟩ := hg
  refine ⟨taken ++ more, by rw [hx, hmiddle, List.append_assoc], fun h => ?_, ?_⟩
  · rw [lexemes_append, List.mem_append]
    exact (Bool.or_eq_true _ _ ▸ h).imp hend hend'
  · intro taken' rest' hsame halike
    obtain ⟨left, right, rfl, hleft, hright⟩ := exists_append_of_lexemes hsame
    have halike' : StartAlike watched middle (right ++ rest') := by
      rw [hmiddle]
      exact halike.append hright
    rw [List.append_assoc, bind_of_eq_some (hq left (right ++ rest') hleft halike')]
    exact hg right rest' hright halike

theorem RepeatedBy.bound_lt {x rest : List Token} {a : α} {q : Parser α}
    (h : RepeatedBy watched ended x a rest q) (hlt : weight (lexemes x) < bound) :
    weight (lexemes rest) < bound := by
  obtain ⟨taken, hx, -⟩ := h
  exact Nat.lt_of_le_of_lt (weight_append_le hx) hlt

theorem Repeats.bind {ended' : Bool} {p q : Parser α} {f g : α → Parser β}
    (hp : Repeats watched ended bound p q) (hf : ∀ a, Repeats watched ended' bound (f a) (g a)) :
    Repeats watched (ended || ended') bound (p >>= f) (q >>= g) := by
  intro x b rest hlt h
  obtain ⟨a, middle, hpx, hfm⟩ := bind_eq_some h
  have hfirst := hp x a middle hlt hpx
  exact hfirst.bind (hf a middle b rest (hfirst.bound_lt hlt) hfm)

/-- One parser after another, the first of which ends a line. -/
theorem Repeats.andThen {p q : Parser α} {f g : α → Parser β} (hp : Repeats watched true bound p q)
    (hf : ∀ a, Repeats watched false bound (f a) (g a)) :
    Repeats watched true bound (p >>= f) (q >>= g) :=
  hp.bind hf

/-- One parser after another, where only the last one matters for the end of a line. -/
theorem Repeats.seq {p q : Parser α} {f g : α → Parser β} (hp : Repeats watched false bound p q)
    (hf : ∀ a, Repeats watched ended bound (f a) (g a)) :
    Repeats watched ended bound (p >>= f) (q >>= g) :=
  hp.bind hf

/-- The run of a parser that agrees with another: what it took, the other one takes before any tokens
with the same first segment. -/
theorem Agree.exists_taken {p q : Parser α} (h : Agree anyway bound p q) {x rest : List Token} {a : α}
    (hlt : weight (lexemes x) < bound) (hp : p x = some (a, rest)) :
    ∃ taken, x = taken ++ rest ∧ ∀ taken' rest', lexemes taken' = lexemes taken →
      segment rest = segment rest' → q (taken' ++ rest') = some (a, rest') := by
  have hseg : weight (segment x) < bound := Nat.lt_of_le_of_lt (weight_segment_le x) hlt
  have hself := h x x rfl hseg
  rw [hp] at hself
  generalize q x = right at hself
  cases hself with
  | @answered _ taken _ _ _ hx _ _ hinside _ =>
    refine ⟨taken, hx, fun taken' rest' hsame hrest => ?_⟩
    have hsegment : segment x = segment (taken' ++ rest') := by
      rw [hx, segment_append hinside, segment_append (hsame ▸ hinside), hsame, hrest]
    have hrun := h x _ hsegment hseg
    rw [hp] at hrun
    generalize hq : q _ = result at hrun
    cases hrun with
    | @answered _ mine yours _ left hmine hyours hboth _ _ =>
      obtain rfl : taken = mine := List.append_cancel_right (hx.symm.trans hmine)
      have hlength : taken'.length = yours.length := by
        have hleft := congrArg List.length hsame
        have hright := congrArg List.length hboth
        simp only [lexemes, List.length_map] at hleft hright
        omega
      obtain ⟨-, rfl⟩ := List.append_inj hyours hlength
      rfl

/-- Parsers that agree, in front of one that takes the end of the line. -/
theorem Repeats.line {p q : Parser α} {f g : α → Parser β} (hp : Agree anyway bound p q)
    (hf : ∀ a, Repeats watched true bound (f a) (g a)) :
    Repeats watched true bound (p >>= f) (q >>= g) := by
  intro x b rest hlt h
  obtain ⟨a, middle, hpx, hfm⟩ := bind_eq_some h
  obtain ⟨taken, hx, hq⟩ := hp.exists_taken hlt hpx
  obtain ⟨more, hmiddle, hend, hg⟩ :=
    hf a middle b rest (Nat.lt_of_le_of_lt (weight_append_le hx) hlt) hfm
  refine ⟨taken ++ more, by rw [hx, hmiddle, List.append_assoc], fun _ => ?_, ?_⟩
  · rw [lexemes_append, List.mem_append]
    exact .inr (hend rfl)
  · intro taken' rest' hsame halike
    obtain ⟨left, right, rfl, hleft, hright⟩ := exists_append_of_lexemes hsame
    have hsegment : segment middle = segment (right ++ rest') := by
      rw [hmiddle]
      exact segment_eq_of_newline hright (hend rfl) rest rest'
    rw [List.append_assoc, bind_of_eq_some (hq left (right ++ rest') hleft hsegment)]
    exact hg right rest' hright halike

/-! ### Looking at tokens and taking them -/

theorem accept_apply (lexeme : Lexeme) (tokens : List Token) :
    accept lexeme tokens =
      if firstLexeme? tokens = some lexeme then some (true, tokens.tail) else some (false, tokens) := by
  have hnext : isNext lexeme tokens = some (firstLexeme? tokens == some lexeme, tokens) := rfl
  rw [accept, bind_of_eq_some hnext]
  cases tokens with
  | nil => rfl
  | cons token tokens =>
    by_cases h : firstLexeme? (token :: tokens) = some lexeme
    · rw [if_pos h, h, beq_self_eq_true]
      rfl
    · rw [if_neg h, beq_false_of_ne h]
      rfl

theorem expect_apply (lexeme : Lexeme) (tokens : List Token) :
    expect lexeme tokens =
      if firstLexeme? tokens = some lexeme then some ((), tokens.tail) else none := by
  by_cases h : firstLexeme? tokens = some lexeme
  · rw [expect, bind_apply, accept_apply, if_pos h, if_pos h]
    rfl
  · rw [expect, bind_apply, accept_apply, if_neg h, if_neg h]
    rfl

theorem exists_cons_of_firstLexeme? {tokens : List Token} {lexeme : Lexeme}
    (h : firstLexeme? tokens = some lexeme) :
    ∃ token rest, tokens = token :: rest ∧ token.lexeme = lexeme := by
  cases tokens with
  | nil => cases h
  | cons token rest => exact ⟨token, rest, rfl, Option.some.inj h⟩

theorem Repeats.accept {lexeme : Lexeme} (hwatched : watched lexeme) :
    Repeats watched false bound (accept lexeme) (Parser.accept lexeme) := by
  intro x a rest _ h
  rw [accept_apply] at h
  split at h
  · rename_i hfirst
    obtain ⟨token, tokens, rfl, htoken⟩ := exists_cons_of_firstLexeme? hfirst
    cases h
    refine ⟨[token], rfl, by simp, fun taken' rest' hsame _ => ?_⟩
    obtain ⟨token', nothing, rfl, htoken', hnothing⟩ := exists_cons_of_lexemes hsame
    obtain rfl : nothing = [] := by simpa [lexemes] using hnothing
    rw [accept_apply, if_pos (by rw [← htoken, ← htoken']; rfl)]
    rfl
  · rename_i hfirst
    cases h
    refine ⟨[], rfl, by simp, fun taken' rest' hsame halike => ?_⟩
    obtain rfl : taken' = [] := by simpa [lexemes] using hsame
    rw [List.nil_append, accept_apply, if_neg fun hnext => hfirst ((halike lexeme hwatched).mpr hnext)]

/-- A token that must come is no look past the end. -/
theorem Repeats.expect {lexeme : Lexeme} (hended : ended = true → lexeme = .newline) :
    Repeats watched ended bound (expect lexeme) (Parser.expect lexeme) := by
  intro x a rest _ h
  rw [expect_apply] at h
  split at h
  · rename_i hfirst
    obtain ⟨token, tokens, rfl, htoken⟩ := exists_cons_of_firstLexeme? hfirst
    cases h
    refine ⟨[token], rfl, fun hend => ?_, fun taken' rest' hsame _ => ?_⟩
    · simp [htoken, hended hend]
    · obtain ⟨token', nothing, rfl, htoken', hnothing⟩ := exists_cons_of_lexemes hsame
      obtain rfl : nothing = [] := by simpa [lexemes] using hnothing
      rw [expect_apply, if_pos (by rw [← htoken, ← htoken']; rfl)]
      rfl
  · cases h

theorem Repeats.take : Repeats watched false bound take Parser.take := by
  intro x a rest _ h
  cases x with
  | nil => cases h
  | cons token tokens =>
    cases h
    refine ⟨[token], rfl, by simp, fun taken' rest' hsame _ => ?_⟩
    obtain ⟨token', nothing, rfl, htoken, hnothing⟩ := exists_cons_of_lexemes hsame
    obtain rfl : nothing = [] := by simpa [lexemes] using hnothing
    exact congrArg (fun l => some (l, rest')) htoken

/-- A run after a token that was asked for. -/
theorem RepeatedBy.accepted {ended' : Bool} {token : Token} {tokens rest : List Token} {a : α}
    {q q' : Parser α} (h : RepeatedBy watched ended' tokens a rest q)
    (hended : ended = true → ended' = true ∨ token.lexeme = .newline) :
    RepeatedBy watched ended (token :: tokens) a rest
      (Parser.accept token.lexeme >>= fun b => if b = true then q else q') := by
  obtain ⟨taken, rfl, hend, hq⟩ := h
  refine ⟨token :: taken, rfl, fun h => ?_, fun taken' rest' hsame halike => ?_⟩
  · rw [lexemes_cons, List.mem_cons]
    exact (hended h).elim (fun h => .inr (hend h)) (fun h => .inl h.symm)
  · obtain ⟨token', taken', rfl, htoken, hsame⟩ := exists_cons_of_lexemes hsame
    have hfirst : firstLexeme? (token' :: taken' ++ rest') = some token.lexeme := congrArg some htoken
    rw [bind_apply, accept_apply, if_pos hfirst]
    exact hq taken' rest' hsame halike

/-- Whether a certain token comes may be asked of any lexeme, if otherwise the end of the line is
taken: the token that was looked at is then one of those taken. -/
theorem Repeats.ifAccept {lexeme : Lexeme} {ended' : Bool} {p q p' q' : Parser β}
    (hp : Repeats watched ended' bound p p')
    (hended : ended = true → ended' = true ∨ lexeme = .newline)
    (hq : Repeats watched true bound q q') :
    Repeats watched ended bound (Parser.accept lexeme >>= fun b => if b = true then p else q)
      (Parser.accept lexeme >>= fun b => if b = true then p' else q') := by
  intro x b rest hlt h
  rw [bind_apply, accept_apply] at h
  by_cases hfirst : firstLexeme? x = some lexeme
  · obtain ⟨token, tokens, rfl, rfl⟩ := exists_cons_of_firstLexeme? hfirst
    rw [if_pos hfirst] at h
    exact (hp tokens b rest (weight_lt_of_cons hlt) h).accepted hended
  · rw [if_neg hfirst] at h
    obtain ⟨taken, rfl, hend, hq'⟩ := hq x b rest hlt h
    refine ⟨taken, rfl, fun _ => hend rfl, fun taken' rest' hsame halike => ?_⟩
    have hfirst' : firstLexeme? (taken' ++ rest') ≠ some lexeme := by
      rwa [← firstLexeme?_of_newline hsame (hend rfl) rest rest']
    rw [bind_apply, accept_apply, if_neg hfirst']
    exact hq' taken' rest' hsame halike

/-- One of two ways to the end of the line. -/
theorem Repeats.choose {lexeme : Lexeme} {p q p' q' : Parser β} (hp : Repeats watched true bound p p')
    (hq : Repeats watched true bound q q') :
    Repeats watched true bound (Parser.accept lexeme >>= fun b => if b = true then p else q)
      (Parser.accept lexeme >>= fun b => if b = true then p' else q') :=
  .ifAccept hp (fun _ => .inl rfl) hq

/-! ### Repetition -/

theorem Repeats.many {p q : Parser (Option α)} (h : Repeats watched false bound p q) {n m : Nat}
    (hnm : n ≤ m) : Repeats watched false bound (many p n) (Parser.many q m) := by
  induction n generalizing m with
  | zero => exact .fail
  | succ n ih =>
    obtain ⟨m, rfl⟩ : ∃ k, m = k + 1 := ⟨m - 1, by omega⟩
    refine .seq h fun o => ?_
    cases o with
    | none => exact .pure
    | some a => exact .seq (ih (Nat.le_of_succ_le_succ hnm)) fun _ => .pure

/-- A round of a loop that goes on to the end of a block. -/
def blockRound (p : Parser Unit) : Parser (Option Unit) := do
  if ← Parser.accept .dedent then return none
  else
    p
    return some ()

theorem many_blockRound (p : Parser Unit) (n : Nat) :
    Parser.many (blockRound p) (n + 1) = Parser.accept .dedent >>= fun b =>
      if b = true then Pure.pure []
      else p >>= fun _ => Parser.many (blockRound p) n >>= fun l => Pure.pure (() :: l) := by
  rw [Parser.many, blockRound, bind_assoc]
  congr 1
  funext b
  cases b with
  | true => rfl
  | false => simp only [Bool.false_eq_true, if_false, bind_assoc, pure_bind]

/-- Rounds up to the end of a block, each of which takes a line. -/
theorem Repeats.blockRounds {p q : Parser Unit} (h : Repeats watched true bound p q) {n m : Nat}
    (hnm : n ≤ m) :
    Repeats watched false bound (Parser.many (blockRound p) n) (Parser.many (blockRound q) m) := by
  induction n generalizing m with
  | zero => exact .fail
  | succ n ih =>
    obtain ⟨m, rfl⟩ : ∃ k, m = k + 1 := ⟨m - 1, by omega⟩
    rw [many_blockRound, many_blockRound]
    refine .ifAccept .pure (fun h => nomatch h) (h.andThen fun _ => ?_)
    exact .seq (ih (Nat.le_of_succ_le_succ hnm)) fun _ => .pure

/-! ### What may be there -/

/-- Two lists of tokens have the same first line and start alike after it. -/
def SameLine (watched : Lexeme → Prop) (x y : List Token) : Prop :=
  ∃ taken taken' rest rest', x = taken ++ rest ∧ y = taken' ++ rest' ∧
    lexemes taken' = lexemes taken ∧ .newline ∈ lexemes taken ∧ StartAlike watched rest rest'

/-- A parser for something that may be there or not is repeated: what is there ends a line, and where
nothing is there, the line alone decides that. -/
structure Offers (watched : Lexeme → Prop) (bound : Nat) (p q : Parser (Option α)) : Prop where
  found : ∀ x a rest, weight (lexemes x) < bound → p x = some (some a, rest) →
    RepeatedBy watched true x (some a) rest q
  missing : ∀ x rest, weight (lexemes x) < bound → p x = some (none, rest) →
    rest = x ∧ ∀ y, SameLine watched x y → q y = some (none, y)

/-- A parser answers only what is good. -/
def Gives (good : α → Prop) (p : Parser α) : Prop :=
  ∀ x a rest, p x = some (a, rest) → good a

/-- A parser never answers that nothing is there. -/
abbrev Certain (p : Parser (Option α)) : Prop :=
  Gives (·.isSome = true) p

theorem Gives.pure {good : α → Prop} {a : α} (h : good a) : Gives good (pure a : Parser α) := by
  intro x b rest hx
  cases hx
  exact h

theorem Gives.fail {good : α → Prop} : Gives good (fail : Parser α) :=
  fun _ _ _ hx => nomatch hx

theorem Gives.bind {good : β → Prop} {p : Parser α} {f : α → Parser β} (hf : ∀ a, Gives good (f a)) :
    Gives good (p >>= f) := by
  intro x b rest h
  obtain ⟨a, middle, -, hfm⟩ := bind_eq_some h
  exact hf a middle b rest hfm

theorem Gives.ite {good : α → Prop} {c : Prop} [Decidable c] {p q : Parser α} (hp : Gives good p)
    (hq : Gives good q) : Gives good (if c then p else q) := by
  split
  · exact hp
  · exact hq

theorem SameLine.first {x y : List Token} (h : SameLine watched x y) :
    firstLexeme? x = firstLexeme? y := by
  obtain ⟨taken, taken', rest, rest', rfl, rfl, hsame, hend, -⟩ := h
  exact firstLexeme?_of_newline hsame hend rest rest'

theorem SameLine.segment_eq {x y : List Token} (h : SameLine watched x y) : segment x = segment y := by
  obtain ⟨taken, taken', rest, rest', rfl, rfl, hsame, hend, -⟩ := h
  exact segment_eq_of_newline hsame hend rest rest'

/-- The rest of a line when the same has been taken from it. -/
theorem SameLine.rest {x y taken taken' rest rest' : List Token} (h : SameLine watched x y)
    (hx : x = taken ++ rest) (hy : y = taken' ++ rest') (hsame : lexemes taken = lexemes taken')
    (hinside : ∀ l ∈ lexemes taken, l.isEnd = false) : SameLine watched rest rest' := by
  obtain ⟨line, line', after, after', rfl, rfl, hline, hend, halike⟩ := h
  rcases List.append_eq_append_iff.mp hx with ⟨more, rfl, -⟩ | ⟨more, rfl, rfl⟩
  · have hnewline := hinside .newline (by rw [lexemes_append]; exact List.mem_append_left _ hend)
    cases hnewline
  · obtain ⟨left, right, rfl, hleft, hright⟩ := exists_append_of_lexemes hline
    have hlength : left.length = taken'.length := by
      have hlengths := congrArg List.length (hleft.trans hsame)
      simpa only [lexemes, List.length_map] using hlengths
    rw [List.append_assoc] at hy
    obtain ⟨-, rfl⟩ := List.append_inj hy hlength
    rw [lexemes_append, List.mem_append] at hend
    have hmore : .newline ∈ lexemes more := hend.resolve_left fun hmem => absurd (hinside _ hmem) (by decide)
    exact ⟨more, right, after, after', rfl, rfl, hright, hmore, halike⟩

theorem SameLine.tail {s t : Token} {x y : List Token} (h : SameLine watched (s :: x) (t :: y)) :
    StartAlike watched x y := by
  obtain ⟨line, line', rest, rest', hx, hy, hline, hend, halike⟩ := h
  cases line with
  | nil => cases hend
  | cons s' line =>
    obtain ⟨t', more', rfl, -, hmore⟩ := exists_cons_of_lexemes hline
    cases hx
    cases hy
    exact halike.append hmore

theorem Offers.of {p q : Parser (Option α)} (h : Repeats watched true bound p q) (hp : Certain p) :
    Offers watched bound p q where
  found x a rest hlt hx := h x (some a) rest hlt hx
  missing x rest _ hx := nomatch hp x none rest hx

/-- Something that a token opens, which has been looked at. -/
theorem Offers.opened {p q : Parser (Option α)} (h : Repeats watched true bound p q) (hp : Certain p) :
    Offers watched bound (Parser.take >>= fun _ => p) (Parser.take >>= fun _ => q) :=
  .of (.seq .take fun _ => h) (.bind fun _ => hp)

theorem Offers.nothing : Offers watched bound (pure none : Parser (Option α)) (pure none) where
  found x a rest _ hx := nomatch hx
  missing x rest _ hx := by
    cases hx
    exact ⟨rfl, fun y _ => rfl⟩

theorem Offers.ite {c : Prop} [Decidable c] {p q p' q' : Parser (Option α)}
    (hp : Offers watched bound p p') (hq : Offers watched bound q q') :
    Offers watched bound (if c then p else q) (if c then p' else q') := by
  split
  · exact hp
  · exact hq

theorem peek_bind_apply (f : Option Lexeme → Parser α) (x : List Token) :
    (peek >>= f) x = f (firstLexeme? x) x := rfl

theorem Offers.peek {f g : Option Lexeme → Parser (Option α)}
    (h : ∀ o, Offers watched bound (f o) (g o)) :
    Offers watched bound (peek >>= f) (Parser.peek >>= g) where
  found x a rest hlt hx := by
    rw [peek_bind_apply] at hx
    obtain ⟨taken, rfl, hend, hg⟩ := (h _).found x a rest hlt hx
    refine ⟨taken, rfl, hend, fun taken' rest' hsame halike => ?_⟩
    rw [peek_bind_apply, ← firstLexeme?_of_newline hsame (hend rfl) rest rest']
    exact hg taken' rest' hsame halike
  missing x rest hlt hx := by
    rw [peek_bind_apply] at hx
    obtain ⟨hrest, hg⟩ := (h _).missing x rest hlt hx
    refine ⟨hrest, fun y hline => ?_⟩
    rw [peek_bind_apply, ← hline.first]
    exact hg y hline

/-- Something that may be there, then the rest of a line. -/
theorem Offers.before {p q : Parser (Option α)} {f g : Option α → Parser β}
    (h : Offers watched bound p q) (hfound : ∀ a, Repeats watched false bound (f (some a)) (g (some a)))
    (hmissing : Repeats watched true bound (f none) (g none)) :
    Repeats watched true bound (p >>= f) (q >>= g) := by
  intro x b rest hlt hx
  obtain ⟨o, middle, hp, hf⟩ := bind_eq_some hx
  cases o with
  | some a =>
    have hfirst := h.found x a middle hlt hp
    exact hfirst.bind (hfound a middle b rest (hfirst.bound_lt hlt) hf)
  | none =>
    obtain ⟨rfl, hq⟩ := h.missing x middle hlt hp
    obtain ⟨taken, rfl, hend, hg⟩ := hmissing middle b rest hlt hf
    refine ⟨taken, rfl, hend, fun taken' rest' hsame halike => ?_⟩
    rw [bind_of_eq_some (hq _ ⟨taken, taken', rest, rest', rfl, rfl, hsame, hend rfl, halike⟩)]
    exact hg taken' rest' hsame halike

/-- Something that may be there, or else something else that may be there. -/
theorem Offers.orElse {p q : Parser (Option α)} {f g : Option α → Parser (Option β)}
    (h : Offers watched bound p q) (hfound : ∀ a, Repeats watched false bound (f (some a)) (g (some a)))
    (hcertain : ∀ a, Certain (f (some a))) (hmissing : Offers watched bound (f none) (g none)) :
    Offers watched bound (p >>= f) (q >>= g) where
  found x b rest hlt hx := by
    obtain ⟨o, middle, hp, hf⟩ := bind_eq_some hx
    cases o with
    | some a =>
      have hfirst := h.found x a middle hlt hp
      exact hfirst.bind (hfound a middle (some b) rest (hfirst.bound_lt hlt) hf)
    | none =>
      obtain ⟨rfl, hq⟩ := h.missing x middle hlt hp
      obtain ⟨taken, rfl, hend, hg⟩ := hmissing.found middle b rest hlt hf
      refine ⟨taken, rfl, hend, fun taken' rest' hsame halike => ?_⟩
      rw [bind_of_eq_some (hq _ ⟨taken, taken', rest, rest', rfl, rfl, hsame, hend rfl, halike⟩)]
      exact hg taken' rest' hsame halike
  missing x rest hlt hx := by
    obtain ⟨o, middle, hp, hf⟩ := bind_eq_some hx
    cases o with
    | some a => cases hcertain a middle none rest hf
    | none =>
      obtain ⟨rfl, hq⟩ := h.missing x middle hlt hp
      obtain ⟨hrest, hg⟩ := hmissing.missing middle rest hlt hf
      refine ⟨hrest, fun y hline => ?_⟩
      rw [bind_of_eq_some (hq y hline)]
      exact hg y hline

theorem Offers.ifAccept {lexeme : Lexeme} {p q : Parser (Option α)} (h : Repeats watched true bound p q)
    (hcertain : Certain p) :
    Offers watched bound (Parser.accept lexeme >>= fun b => if b = true then p else Pure.pure none)
      (Parser.accept lexeme >>= fun b => if b = true then q else Pure.pure none) where
  found x a rest hlt hx := by
    rw [bind_apply, accept_apply] at hx
    by_cases hfirst : firstLexeme? x = some lexeme
    · obtain ⟨token, tokens, rfl, rfl⟩ := exists_cons_of_firstLexeme? hfirst
      rw [if_pos hfirst] at hx
      exact (h tokens (some a) rest (weight_lt_of_cons hlt) hx).accepted fun _ => .inl rfl
    · rw [if_neg hfirst] at hx
      cases hx
  missing x rest hlt hx := by
    rw [bind_apply, accept_apply] at hx
    by_cases hfirst : firstLexeme? x = some lexeme
    · rw [if_pos hfirst] at hx
      cases hcertain _ none rest hx
    · rw [if_neg hfirst] at hx
      cases hx
      refine ⟨rfl, fun y hline => ?_⟩
      rw [bind_apply, accept_apply, if_neg (hline.first ▸ hfirst)]
      rfl

theorem Offers.manyBefore {p q : Parser (Option α)} {f g : List α → Parser β}
    (h : Offers watched bound p q) (hf : ∀ l, Repeats watched true bound (f l) (g l)) {n m : Nat}
    (hnm : n ≤ m) : Repeats watched true bound (Parser.many p n >>= f) (Parser.many q m >>= g) := by
  induction n generalizing m f g with
  | zero => exact fun x b rest _ hx => nomatch hx
  | succ n ih =>
    obtain ⟨m, rfl⟩ : ∃ k, m = k + 1 := ⟨m - 1, by omega⟩
    rw [Parser.many, Parser.many, bind_assoc, bind_assoc]
    refine h.before (fun a => ?_) (hf [])
    simp only [bind_assoc, pure_bind]
    exact (ih (fun l => hf (a :: l)) (Nat.le_of_succ_le_succ hnm)).weaken

/-- Lines that may be there, and something else that may be there if none of them is. -/
theorem Offers.manyOrElse {p q : Parser (Option α)} {f g : List α → Parser (Option β)}
    (h : Offers watched bound p q)
    (hfound : ∀ a l, Repeats watched true bound (f (a :: l)) (g (a :: l)))
    (hcertain : ∀ a l, Certain (f (a :: l))) (hmissing : Offers watched bound (f []) (g [])) {n m : Nat}
    (hnm : n ≤ m) : Offers watched bound (Parser.many p n >>= f) (Parser.many q m >>= g) := by
  cases n with
  | zero =>
    exact ⟨fun x a rest _ hx => (nomatch hx), fun x rest _ hx => (nomatch hx)⟩
  | succ n =>
    obtain ⟨m, rfl⟩ : ∃ k, m = k + 1 := ⟨m - 1, by omega⟩
    rw [Parser.many, Parser.many, bind_assoc, bind_assoc]
    refine h.orElse (fun a => ?_) (fun a => ?_) hmissing
    · simp only [bind_assoc, pure_bind]
      exact (h.manyBefore (fun l => hfound a l) (Nat.le_of_succ_le_succ hnm)).weaken
    · simp only [bind_assoc, pure_bind]
      exact .bind fun l => hcertain a l

end Parser

end Caret.Script
