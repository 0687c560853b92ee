import Caret.Proofs.Script.Pattern
import Caret.Script.Parser.Statement

/-!
# Simple statements are read from their own segment

A simple statement is read from the lexemes up to the end of its line or the next semicolon, and what
it does depends on nothing else.
-/

namespace Caret.Script.Parser

variable {n m bound : Nat}

/-! ### Imports -/

theorem Agree.dottedName (hn : bound ≤ n) (hm : bound ≤ m) :
    Agree anyway bound (dottedName n) (Parser.dottedName m) :=
  .seq (.sepBy rfl .anyName hn hm) fun _ => .pure rfl

theorem Agree.boundName : Agree anyway bound boundName Parser.boundName :=
  .ifAccept rfl (.seq .anyName fun _ => .pure rfl) (.pure rfl)

theorem Agree.importModules (hn : bound ≤ n) (hm : bound ≤ m) :
    Agree anyway bound (importModules n) (Parser.importModules m) := by
  refine .seq (.sepBy rfl ?_ hn hm) fun _ => .pure rfl
  exact .seq (.dottedName hn hm) fun _ => .seq .boundName fun _ => .pure rfl

theorem Agree.importLevel (hn : bound ≤ n) (hm : bound ≤ m) :
    Agree anyway bound (importLevel n) (Parser.importLevel m) :=
  .seq (.many (.ifAccept rfl (.pure rfl) (.ifAccept rfl (.pure rfl) (.pure rfl))) hn hm) fun _ => .pure rfl

theorem Agree.importedName : Agree anyway bound importedName Parser.importedName :=
  .seq .anyName fun _ => .seq .boundName fun _ => .pure rfl

theorem Agree.importedNames (hn : bound ≤ n) (hm : bound ≤ m) :
    Agree anyway bound (importedNames n) (Parser.importedNames m) := by
  refine .ifAccept rfl (.pure rfl) (.ifAccept rfl ?_ (.sepBy rfl .importedName hn hm))
  refine .seq ((Agree.importedName.commaList hn hm).lower (Nat.sub_le _ _)) fun found => ?_
  rcases found with ⟨_ | ⟨name, names⟩, ended⟩
  · exact .fail
  · exact .seq (.expect rfl) fun _ => .pure rfl

theorem Agree.importFrom (hn : bound ≤ n) (hm : bound ≤ m) :
    Agree anyway bound (importFrom n) (Parser.importFrom m) := by
  refine .seq (.importLevel hn hm) fun level => .seq (.isNext _) fun named => .ite .fail ?_
  have hrest : ∀ module? : Option Text, Agree anyway bound
      (do Parser.expect (kw "import"); return Action.importFrom level module? (← Parser.importedNames n))
      (do Parser.expect (kw "import"); return Action.importFrom level module? (← Parser.importedNames m)) :=
    fun module? => .seq (.expect rfl) fun _ => .seq (.importedNames hn hm) fun _ => .pure rfl
  cases named with
  | true => exact hrest none
  | false => exact .seq ((Agree.dottedName hn hm).map some) hrest

/-! ### Assignments and expressions -/

theorem isEnd_of_updates {s : Text} (hs : updates.contains s = true) :
    (Lexeme.symbol s).isEnd = false := by
  by_cases hend : s = [';']
  · subst hend
    exact absurd hs (by decide)
  · simpa [Lexeme.isEnd] using hend

variable [CharacterNames]

theorem Agree.yieldedHere (hn : bound ≤ n) (hm : bound ≤ m) :
    Agree anyway bound (Parser.yielded n (Parser.expression n) (Parser.primary n))
      (Parser.yielded m (Parser.expression m) (Parser.primary m)) :=
  (Agree.expression hn hm).yielded (.primary hn hm) hn hm

theorem Agree.assigned (hn : bound ≤ n) (hm : bound ≤ m) :
    Agree anyway bound (assigned n) (Parser.assigned m) :=
  .seq (.isNext _) fun _ => .ite (.yieldedHere hn hm) (.expressions hn hm)

theorem Agree.assignments {j k : Nat} (targets : List Expr) (hn : bound ≤ n) (hm : bound ≤ m)
    (hj : bound ≤ j) (hk : bound ≤ k) :
    Agree anyway bound (assignments n j targets) (Parser.assignments m k targets) := by
  induction bound generalizing j k targets with
  | zero => exact fun x y _ hlt => absurd hlt (Nat.not_lt_zero _)
  | succ bound ih =>
    obtain ⟨j, rfl⟩ : ∃ i, j = i + 1 := ⟨j - 1, by omega⟩
    obtain ⟨k, rfl⟩ : ∃ i, k = i + 1 := ⟨k - 1, by omega⟩
    have hmore := fun targets => ih targets (Nat.le_of_succ_le hn) (Nat.le_of_succ_le hm)
      (Nat.le_of_succ_le_succ hj) (Nat.le_of_succ_le_succ hk)
    exact .seq (.isNext _) fun _ => .seq (.assigned hn hm) fun value =>
      .ifAccept rfl (.ite .fail (hmore _)) (.pure rfl)

theorem Agree.groupGoingOn (hn : bound ≤ n) (hm : bound ≤ m) :
    Agree anyway bound (groupGoingOn n) (Parser.groupGoingOn m) :=
  .seq (.expect rfl) fun _ => .seq (.primary hn hm) fun _ => .seq (.expect rfl) fun _ =>
    .seq (.isNext _) fun _ => .ite .fail (.pure rfl)

theorem Agree.expressionStatement (hn : bound ≤ n) (hm : bound ≤ m) :
    Agree anyway bound (expressionStatement n) (Parser.expressionStatement m) := by
  have hless : bound - 1 ≤ bound := Nat.sub_le _ _
  have hvalue := (Agree.assigned hn hm).lower hless
  refine .seq (.succeeds (.groupGoingOn hn hm)) fun goesOn => .seq (.expressions hn hm) fun first =>
    .peek fun next => ?_
  cases next with
  | none => exact .pure rfl
  | some lexeme =>
    cases lexeme with
    | symbol s =>
      dsimp only
      split
      · rename_i hs
        subst hs
        refine .take rfl (.ite .fail (.seq ((Agree.expression hn hm).lower hless) fun _ =>
          .ifAccept rfl ?_ (.pure rfl)))
        exact .seq (hvalue.lower (Nat.sub_le _ _)) fun _ => .pure rfl
      · split
        · rename_i hs
          subst hs
          refine .take rfl (.ite ?_ .fail)
          exact (Agree.assignments [first] hn hm hn hm).lower hless
        · split
          · rename_i hs
            exact .take (isEnd_of_updates hs) (.ite .fail (.seq hvalue fun _ => .pure rfl))
          · exact .pure rfl
    | _ => exact .pure rfl

/-! ### All simple statements -/

theorem Agree.simpleStatement (hn : bound ≤ n) (hm : bound ≤ m) :
    Agree anyway bound (simpleStatement n) (Parser.simpleStatement m) := by
  have hless : bound - 1 ≤ bound := Nat.sub_le _ _
  have hexpression := (Agree.expression hn hm).lower hless
  refine .peek fun next => ?_
  cases next with
  | none => exact (Agree.expressionStatement hn hm).at _
  | some lexeme =>
    cases lexeme with
    | keyword word =>
      refine .ite (.take rfl ?_) (.ite (.take rfl ?_) (.ite (.take rfl (.pure rfl)) (.ite (.take rfl ?_)
        (.ite (.take rfl ?_) (.ite (.take rfl ?_) (.ite (.take rfl ?_) (.ite ?_ (.ite (.take rfl ?_)
        ((Agree.expressionStatement hn hm).at _)))))))))
      · exact (Agree.importModules hn hm).lower hless
      · exact (Agree.importFrom hn hm).lower hless
      · exact .seq ((Agree.expressions hn hm).lower hless).perhaps fun _ => .pure rfl
      · refine .seq hexpression.perhaps fun o => ?_
        cases o with
        | none => exact .pure rfl
        | some e =>
          exact .ifAccept rfl (.seq (hexpression.lower (Nat.sub_le _ _)) fun _ => .pure rfl)
            (.pure rfl)
      · exact .seq (.sepBy rfl .anyName (by omega) (by omega)) fun _ => .pure rfl
      · refine .seq ((Agree.primary hn hm).tupleOf hn hm |>.lower hless) fun e => .ite (.pure rfl) .fail
      · exact (Agree.seq (.yieldedHere hn hm) fun _ => .pure (by rfl)).at _
      · refine .seq hexpression fun _ => .ifAccept rfl ?_ (.pure rfl)
        exact .seq (hexpression.lower (Nat.sub_le _ _)) fun _ => .pure rfl
    | _ => exact (Agree.expressionStatement hn hm).at _

end Caret.Script.Parser
