import Caret.Proofs.Script.Repeat
import Caret.Proofs.Script.Simple

/-!
# Statements before other tokens

Statements that hold blocks look past their end only at the keywords that would go on with them, and at
an indentation, without which a line that looks like the head of a `match` is none. One lemma for each
parser, in the order of the grammar; the knot is tied by induction on the depth of the blocks.
-/

namespace Caret.Script.Parser

/-- The lexemes that statements watch for past their end. -/
def goesOn (lexeme : Lexeme) : Prop :=
  lexeme ∈ [kw "elif", kw "else", kw "except", kw "finally", .indent]

instance : DecidablePred goesOn :=
  fun lexeme => inferInstanceAs (Decidable (lexeme ∈ [_, _, _, _, _]))

variable {α : Type} {n m bound : Nat} {block block' : Parser Unit}

/-! ### Lines of simple statements -/

theorem Repeats.simpleLine {p q : Parser α} {j k : Nat} (h : Agree anyway bound p q) (hjk : j ≤ k) :
    Repeats goesOn true bound (simpleLine p j) (Parser.simpleLine q k) := by
  induction j generalizing k with
  | zero => exact .fail
  | succ j ih =>
    obtain ⟨k, rfl⟩ : ∃ i, k = i + 1 := ⟨k - 1, by omega⟩
    have hend : ∀ first : α, Repeats goesOn true bound
        (do Parser.expect .newline; return [first]) (do Parser.expect .newline; return [first]) :=
      fun first => .andThen (.expect fun _ => rfl) fun _ => .pure
    refine .line h fun first => .choose ?_ (hend first)
    refine .ifAccept .pure (fun _ => .inr rfl) ?_
    exact .andThen (ih (Nat.le_of_succ_le_succ hjk)) fun _ => .pure

/-! ### Blocks and what opens them -/

theorem Repeats.suite (hblock : Repeats goesOn true bound block block') :
    Repeats goesOn true bound (suite block) (Parser.suite block') :=
  .line (.expect rfl) fun _ => hblock

theorem Repeats.elseSuite (hblock : Repeats goesOn true bound block block') :
    Repeats goesOn false bound (elseSuite block) (Parser.elseSuite block') := by
  refine .seq (.accept (by decide)) fun more => ?_
  exact .ite hblock.suite.weaken .pure

variable [CharacterNames]

theorem Agree.withItem (hn : bound ≤ n) (hm : bound ≤ m) :
    Agree anyway bound (withItem n) (Parser.withItem m) := by
  refine .seq (.expression hn hm) fun _ => .ifAccept rfl ?_ (.pure rfl)
  exact .seq ((Agree.primary hn hm).target.lower (Nat.sub_le _ _)) fun _ => .pure rfl

theorem Agree.withHeader (hn : bound ≤ n) (hm : bound ≤ m) :
    Agree anyway bound (withHeader n) (Parser.withHeader m) := by
  have hitem := Agree.withItem hn hm
  refine .seq (.perhaps (.seq (.expect rfl) fun _ => .seq (hitem.commaList hn hm) fun found => ?_))
    fun o => ?_
  · rcases found with ⟨_ | ⟨item, items⟩, ended⟩
    · exact .fail
    · exact .seq (.expect rfl) fun _ => .expect rfl
  · cases o with
    | some _ => exact .pure rfl
    | none => exact .seq (.sepBy rfl hitem hn hm) fun _ => .expect rfl

/-- The line that opens a `match`, up to its end. -/
def matchSubject (n : Nat) : Parser Unit := do
  spelled "match"
  let subject ← tupleOf n (starOr (bitwise n (primary n)) (named (expression n)))
  if isStarred subject then fail else expect (sym ":")

theorem matchHeader_eq (n : Nat) :
    matchHeader n = matchSubject n >>= fun _ => expect .newline >>= fun _ => expect .indent := by
  unfold matchHeader matchSubject
  simp only [bind_assoc]
  congr 1
  funext _
  congr 1
  funext subject
  split
  · rfl
  · rfl

theorem Agree.matchSubject (hn : bound ≤ n) (hm : bound ≤ m) :
    Agree anyway bound (matchSubject n) (Parser.matchSubject m) := by
  have hsubject := (Agree.expression hn hm).item (.primary hn hm) hn hm
  exact .seq (.expect rfl) fun _ => .seq (hsubject.tupleOf hn hm) fun _ => .ite .fail (.expect rfl)

/-- Whether a line opens a block is decided by the line and the indentation after it. -/
theorem Offers.matchHeader (hn : bound ≤ n) (hm : bound ≤ m) :
    Offers goesOn bound (optional (matchHeader n)) (optional (Parser.matchHeader m)) where
  found x a rest hlt hx := by
    have hopens : Repeats goesOn true bound (Parser.matchHeader n) (Parser.matchHeader m) := by
      rw [matchHeader_eq, matchHeader_eq]
      exact .line (.matchSubject hn hm) fun _ => .andThen (.expect fun _ => rfl) fun _ =>
        .expect fun h => nomatch h
    have hheader : Parser.matchHeader n x = some (a, rest) := by
      unfold Parser.optional at hx
      split at hx
      · rename_i hp
        cases hx
        exact hp
      · cases hx
    obtain ⟨taken, rfl, hend, hq⟩ := hopens x a rest hlt hheader
    refine ⟨taken, rfl, hend, fun taken' rest' hsame halike => ?_⟩
    rw [Parser.optional, hq taken' rest' hsame halike]
  missing x rest hlt hx := by
    have hheader : Parser.matchHeader n x = none ∧ rest = x := by
      unfold Parser.optional at hx
      split at hx
      · cases hx
      · rename_i hp
        cases hx
        exact ⟨hp, rfl⟩
    refine ⟨hheader.2, fun y hline => ?_⟩
    suffices hnone : Parser.matchHeader m y = none by rw [Parser.optional, hnone]
    have hseg : weight (segment x) < bound := Nat.lt_of_le_of_lt (weight_segment_le x) hlt
    have hrun := Agree.matchSubject hn hm x y hline.segment_eq hseg
    replace hheader := hheader.1
    rw [matchHeader_eq, bind_apply] at hheader ⊢
    generalize Parser.matchSubject n x = left at hrun hheader
    generalize Parser.matchSubject m y = right at hrun
    cases hrun with
    | failed => rfl
    | @answered _ taken taken' after after' hx hy hsame hinside _ =>
      have hafter := hline.rest hx hy hsame hinside
      dsimp only at hheader ⊢
      rw [bind_apply, expect_apply] at hheader ⊢
      rw [← hafter.first]
      by_cases hfirst : firstLexeme? after = some .newline
      · rw [if_pos hfirst] at hheader ⊢
        obtain ⟨s, more, rfl, -⟩ := exists_cons_of_firstLexeme? hfirst
        obtain ⟨t, more', rfl, -⟩ := exists_cons_of_firstLexeme? (hafter.first ▸ hfirst)
        dsimp only [List.tail_cons] at hheader ⊢
        rw [expect_apply] at hheader ⊢
        have hindent := hafter.tail .indent (by decide)
        by_cases hnext : firstLexeme? more = some .indent
        · rw [if_pos hnext] at hheader
          cases hheader
        · rw [if_neg fun h => hnext (hindent.mpr h)]
      · rw [if_neg hfirst]

section

variable (hblock : Repeats goesOn true bound block block') (hn : bound ≤ n) (hm : bound ≤ m)
  (hnm : n ≤ m)

include hblock hn hm

theorem Repeats.branch :
    Repeats goesOn true bound (do let _ ← named (expression n); Parser.suite block)
      (do let _ ← named (expression m); Parser.suite block') :=
  .line (Agree.expression hn hm).named fun _ => hblock.suite

theorem Repeats.forStatement :
    Repeats goesOn true bound (forStatement n block) (Parser.forStatement m block') := by
  refine .line ((Agree.primary hn hm).targets hn hm) fun _ => .line (.expect rfl) fun _ =>
    .line (.expressions hn hm) fun _ => ?_
  exact .andThen hblock.suite fun _ => hblock.elseSuite

theorem Repeats.handler : Repeats goesOn true bound (handler n block) (Parser.handler m block') := by
  refine .line (.accepted rfl) fun group => .line (.isNext _) fun _ => .ite ?_ ?_
  · exact .andThen hblock.suite fun _ => .pure
  · exact .line (.expression hn hm) fun _ => .line .boundName fun _ =>
      .andThen hblock.suite fun _ => .pure

theorem Repeats.classStatement :
    Repeats goesOn true bound (classStatement n block) (Parser.classStatement m block') := by
  have hrest : ∀ id : Text, Repeats goesOn true bound
      (do Parser.suite block; return Action.defineClass id)
      (do Parser.suite block'; return Action.defineClass id) :=
    fun id => .andThen hblock.suite fun _ => .pure
  refine .line .anyName fun id => .line (.accepted rfl) fun _ => .ite ?_ (hrest id)
  exact .line ((Agree.expression hn hm).arguments _ (.primary hn hm) hn hm) fun _ => hrest id

theorem Repeats.functionStatement :
    Repeats goesOn true bound (functionStatement n block) (Parser.functionStatement m block') := by
  have hrest : ∀ id : Text, Repeats goesOn true bound
      (do Parser.suite block; return Action.defineFunction id)
      (do Parser.suite block'; return Action.defineFunction id) :=
    fun id => .andThen hblock.suite fun _ => .pure
  have hparameters := (Agree.expression hn hm).parameters true (sym ")") (.positional false false false)
    (.primary hn hm) hn hm hn hm
  refine .line .anyName fun id => .line (.expect rfl) fun _ => .line hparameters fun _ =>
    .line (.expect rfl) fun _ => .line (.accepted rfl) fun _ => .ite ?_ (hrest id)
  exact .line (.expression hn hm) fun _ => hrest id

theorem Repeats.caseBlock :
    Repeats goesOn true bound (caseBlock n block) (Parser.caseBlock m block') := by
  refine .line (.expect rfl) fun _ => .line (.casePattern hn hm) fun _ => .line (.accepted rfl) fun _ => ?_
  exact .ite (.line (Agree.expression hn hm).named fun _ => hblock.suite) hblock.suite

theorem Repeats.withStatement :
    Repeats goesOn true bound (withStatement n block) (Parser.withStatement m block') :=
  .line (.withHeader hn hm) fun _ => hblock

theorem Repeats.decorated :
    Repeats goesOn true bound (decorated n block) (Parser.decorated m block') := by
  refine .choose (hblock.classStatement hn hm) (.line (.accepted rfl) fun _ => ?_)
  exact .line (.expect rfl) fun _ => hblock.functionStatement hn hm

include hnm

theorem Repeats.ifStatement :
    Repeats goesOn true bound (ifStatement n block) (Parser.ifStatement m block') := by
  have hbranch := hblock.branch hn hm
  refine .andThen hbranch fun _ => .seq (.many ?_ hnm) fun _ => hblock.elseSuite
  refine .seq (.accept (by decide)) fun more => .ite ?_ .pure
  exact .seq hbranch.weaken fun _ => .pure

theorem Repeats.tryStatement :
    Repeats goesOn true bound (tryStatement n block) (Parser.tryStatement m block') := by
  have hhandlers : Repeats goesOn false bound
      (do if ← Parser.accept (kw "except") then return some (← Parser.handler n block) else return none)
      (do if ← Parser.accept (kw "except") then return some (← Parser.handler m block')
          else return none) :=
    .seq (.accept (by decide)) fun _ =>
      .ite (.seq (hblock.handler hn hm).weaken fun _ => .pure) .pure
  refine .andThen hblock.suite fun _ => .seq (.many hhandlers hnm) fun handlers => ?_
  refine .ite ?_ (.ite ?_ .fail)
  · exact .seq (.expect fun h => nomatch h) fun _ => hblock.suite.weaken
  · refine .seq hblock.elseSuite fun _ => .seq (.accept (by decide)) fun _ => ?_
    exact .ite hblock.suite.weaken .pure

theorem Repeats.matchCases :
    Repeats goesOn true bound (matchCases n block) (Parser.matchCases m block') := by
  have hcase := hblock.caseBlock hn hm
  exact .andThen hcase fun _ => .seq (hcase.blockRounds hnm) fun _ => .pure

/-! ### All statements that hold blocks -/

theorem Offers.keywordStatement :
    Offers goesOn bound (keywordStatement n block) (Parser.keywordStatement m block') := by
  have hfor := hblock.forStatement hn hm
  have hwith := hblock.withStatement hn hm
  have hfunction := hblock.functionStatement hn hm
  refine .peek fun next => ?_
  cases next with
  | none => exact .nothing
  | some lexeme =>
    cases lexeme with
    | keyword word =>
      have hother : ∀ {p q : Parser Unit}, Repeats goesOn true bound p q → Offers goesOn bound
          (Parser.take >>= fun _ => p >>= fun _ => Pure.pure (some Action.other))
          (Parser.take >>= fun _ => q >>= fun _ => Pure.pure (some Action.other)) :=
        fun h => .opened (h.andThen fun _ => .pure) (.bind fun _ => .pure rfl)
      have hdefine : ∀ {p q : Parser Action}, Repeats goesOn true bound p q → Offers goesOn bound
          (Parser.take >>= fun _ => p >>= fun a => Pure.pure (some a))
          (Parser.take >>= fun _ => q >>= fun a => Pure.pure (some a)) :=
        fun h => .opened (h.andThen fun _ => .pure) (.bind fun _ => .pure rfl)
      refine .ite (hother (hblock.ifStatement hn hm hnm)) (.ite ?_ (.ite (hother hfor)
        (.ite (hother hwith) (.ite (hother (hblock.tryStatement hn hm hnm))
        (.ite (hdefine (hblock.classStatement hn hm)) (.ite (hdefine hfunction)
        (.ite (.opened ?_ ?_) .nothing)))))))
      · exact .opened (.line (Agree.expression hn hm).named fun _ => .andThen hblock.suite fun _ =>
          .seq hblock.elseSuite fun _ => .pure) (.bind fun _ => .bind fun _ => .bind fun _ => .pure rfl)
      · refine .choose (.andThen hfunction fun _ => .pure) (.choose (.andThen hfor fun _ => .pure) ?_)
        exact .line (.expect rfl) fun _ => .andThen hwith fun _ => .pure
      · refine .bind fun _ => .ite (.bind fun _ => .pure rfl)
          (.bind fun _ => .ite (.bind fun _ => .pure rfl) ?_)
        exact .bind fun _ => .bind fun _ => .pure rfl
    | _ => exact .nothing

theorem Offers.undecorated : Offers goesOn bound
    (do match ← Parser.keywordStatement n block with
        | some action => return some action
        | none =>
          match ← optional (Parser.matchHeader n) with
          | some _ =>
            Parser.matchCases n block
            return some Action.other
          | none => return none)
    (do match ← Parser.keywordStatement m block' with
        | some action => return some action
        | none =>
          match ← optional (Parser.matchHeader m) with
          | some _ =>
            Parser.matchCases m block'
            return some Action.other
          | none => return none) := by
  refine .orElse (.keywordStatement hblock hn hm hnm) (fun _ => .pure) (fun _ => .pure rfl) ?_
  refine .orElse (.matchHeader hn hm) (fun _ => ?_) (fun _ => .bind fun _ => .pure rfl) .nothing
  exact .seq (hblock.matchCases hn hm hnm).weaken fun _ => .pure

/-- What stands on a line of its own behind its decorators. -/
theorem Offers.compoundStatement :
    Offers goesOn bound (compoundStatement n block) (Parser.compoundStatement m block') := by
  have hdecorator : Offers goesOn bound
      (do if ← Parser.accept (sym "@") then
            let _ ← named (expression n)
            Parser.expect .newline
            return some ()
          else return none)
      (do if ← Parser.accept (sym "@") then
            let _ ← named (expression m)
            Parser.expect .newline
            return some ()
          else return none) :=
    .ifAccept (.line (Agree.expression hn hm).named fun _ => .andThen (.expect fun _ => rfl) fun _ => .pure)
      (.bind fun _ => .bind fun _ => .pure rfl)
  have hdecorated : Repeats goesOn true bound
      (do return some (← Parser.decorated n block)) (do return some (← Parser.decorated m block')) :=
    .andThen (hblock.decorated hn hm) fun _ => .pure
  unfold Parser.compoundStatement Parser.decorators
  simp only [bind_assoc, pure_bind]
  have hcertain : Certain (do return some (← Parser.decorated n block)) := .bind fun _ => .pure rfl
  exact hdecorator.manyOrElse (fun _ _ => hdecorated) (fun _ _ => hcertain)
    (.undecorated hblock hn hm hnm) hnm

theorem Repeats.checkedStatement :
    Repeats goesOn true bound (checkedStatement n block) (Parser.checkedStatement m block') := by
  refine Offers.before (.compoundStatement hblock hn hm hnm) (fun _ => .pure) ?_
  exact .andThen (.simpleLine (.simpleStatement hn hm) hnm) fun _ => .pure

end

/-- The fuel of the loops must be enough for the weight; of the depth it is enough not to be less. -/
theorem Repeats.blockAt {depth depth' : Nat} (hn : bound ≤ n) (hm : bound ≤ m) (hnm : n ≤ m)
    (hdepth : depth ≤ depth') :
    Repeats goesOn true bound (blockAt n depth) (Parser.blockAt m depth') := by
  induction depth generalizing depth' with
  | zero => exact fun x a rest _ hx => nomatch hx
  | succ depth ih =>
    obtain ⟨depth', rfl⟩ : ∃ k, depth' = k + 1 := ⟨depth' - 1, by omega⟩
    have hstatement := (ih (Nat.le_of_succ_le_succ hdepth)).checkedStatement hn hm hnm
    refine Repeats.choose (?_ : Repeats goesOn true bound _ _) ?_
    · exact .seq (.expect fun h => nomatch h) fun _ => .andThen hstatement fun _ =>
        .seq (hstatement.blockRounds hnm) fun _ => .pure
    · exact .andThen (.simpleLine (.simpleStatement hn hm) hnm) fun _ => .pure

end Caret.Script.Parser
