import Caret.Proofs.Script.Expression
import Caret.Script.Parser.Pattern

/-!
# Patterns are read from their own segment

The same as for expressions: each parser of the pattern grammar agrees, given a parser for nested
patterns that does.
-/

namespace Caret.Script.Parser

variable {n m bound : Nat} {pattern pattern' : Parser Unit}

theorem Agree.isNameContinued : Agree anyway bound isNameContinued Parser.isNameContinued :=
  .seq (.isNext _) fun _ => .seq (.isNext _) fun _ => .seq (.isNext _) fun _ => .pure rfl

theorem Agree.capture : Agree anyway bound capture Parser.capture :=
  .seq (.isNext _) fun _ => .ite .fail (.seq .anyName fun _ => .seq .isNameContinued fun _ =>
    .ite .fail (.pure rfl))

theorem Agree.sumSign : Agree whenTrue bound sumSign Parser.sumSign :=
  .ifAccept rfl (.pure rfl) (.accept rfl)

theorem Agree.patternNumber : Agree anyway bound patternNumber Parser.patternNumber := by
  refine .seq (.accepted rfl) fun _ => .take (fun l hend => ?_) fun l => ?_
  · cases l with
    | number x => cases hend
    | _ => exact ⟨rfl, rfl⟩
  · cases l with
    | number first =>
      refine .seq (Agree.sumSign.weaken (fun _ => Nat.zero_le _) (Nat.le_refl _)) fun _ =>
        .ite ?_ (.pure rfl)
      refine .take (fun l hend => ?_) fun l => ?_
      · cases l with
        | number x => cases hend
        | _ => cases first <;> exact ⟨rfl, rfl⟩
      · cases first with
        | imaginary x => exact .fail
        | _ =>
          cases l with
          | number x =>
            cases x with
            | imaginary y => exact .pure rfl
            | _ => exact .fail
          | _ => exact .fail
    | _ => exact .fail

theorem Agree.dottedRest (hn : bound ≤ n) (hm : bound ≤ m) :
    Agree anyway bound (dottedRest n) (Parser.dottedRest m) :=
  .seq (.many (.ifAccept rfl (.seq .anyName fun _ => .pure rfl) (.pure rfl)) hn hm) fun _ => .pure rfl

theorem Agree.starPattern (h : Agree anyway bound pattern pattern') :
    Agree anyway bound (starPattern pattern) (Parser.starPattern pattern') :=
  .ifAccept rfl (.ifAccept rfl (.pure rfl) (.seq .capture fun _ => .pure rfl)) (.seq h fun _ => .pure rfl)

theorem Agree.classPattern (stage? : Option Stage) (h : Agree anyway bound pattern pattern') :
    Agree anyway bound (classPattern pattern stage?) (Parser.classPattern pattern' stage?) := by
  refine .seq (.isNext _) fun wildcard => .ifNameBefore rfl rfl rfl
    (.seq (h.lower (Nat.sub_le _ _)) fun _ => ?_) (.seq h fun _ => ?_)
  · rcases stage? with _ | _ | _ | _
    · exact .pure rfl
    · exact .ite .fail (.pure rfl)
    · exact .pure rfl
    · exact .pure rfl
  · rcases stage? with _ | _ | _ | _
    · exact .pure rfl
    · exact .pure rfl
    · exact .fail
    · exact .pure rfl

theorem Agree.classPatterns (stage? : Option Stage) (h : Agree anyway bound pattern pattern')
    (hn : bound ≤ n) (hm : bound ≤ m) :
    Agree anyway bound (classPatterns pattern n stage?) (Parser.classPatterns pattern' m stage?) := by
  induction bound generalizing n m stage? with
  | zero => exact fun x y _ hlt => absurd hlt (Nat.not_lt_zero _)
  | succ bound ih =>
    obtain ⟨n, rfl⟩ : ∃ k, n = k + 1 := ⟨n - 1, by omega⟩
    obtain ⟨m, rfl⟩ : ∃ k, m = k + 1 := ⟨m - 1, by omega⟩
    refine .ifAccept rfl (.pure rfl) (.seq (h.classPattern stage?) fun stage => .ifAccept rfl ?_
      (.expect rfl))
    exact ih (some stage) (h.lower (Nat.le_succ _)) (Nat.le_of_succ_le_succ hn)
      (Nat.le_of_succ_le_succ hm)

variable [CharacterNames]

theorem Agree.patternLiteral (hn : bound ≤ n) (hm : bound ≤ m) :
    Agree anyway bound (patternLiteral n) (Parser.patternLiteral m) := by
  have hstrings : Agree anyway bound (Parser.strings n (Parser.expression n) (Parser.primary n))
      (Parser.strings m (Parser.expression m) (Parser.primary m)) := by
    cases bound with
    | zero => exact fun x y _ hlt => absurd hlt (Nat.not_lt_zero _)
    | succ bound =>
      exact (Agree.expression (Nat.le_of_succ_le hn) (Nat.le_of_succ_le hm)).strings
        (.primary (Nat.le_of_succ_le hn) (Nat.le_of_succ_le hm)) hn hm
  refine .peek fun next => ?_
  cases next with
  | none => exact .fail
  | some lexeme =>
    cases lexeme with
    | number value => exact Agree.patternNumber.at _
    | string q => exact (hstrings.seq fun _ => .pure (by rfl)).at _
    | keyword word => exact .take rfl (.ite (.pure rfl) .fail)
    | symbol s => exact .ite (Agree.patternNumber.at _) .fail
    | _ => exact .fail

theorem Agree.mappingItem (h : Agree anyway bound pattern pattern') (hn : bound ≤ n) (hm : bound ≤ m) :
    Agree anyway bound (mappingItem n pattern) (Parser.mappingItem m pattern') := by
  have hrest : Agree anyway bound (do Parser.expect (sym ":"); pattern; return false)
      (do Parser.expect (sym ":"); pattern'; return false) :=
    .seq (.expect rfl) fun _ => .seq h fun _ => .pure rfl
  refine .ifAccept rfl (.seq .capture fun _ => .pure rfl) (.peek fun next => ?_)
  cases next with
  | none => exact (Agree.seq (.patternLiteral hn hm) fun _ => hrest).at _
  | some lexeme =>
    cases lexeme with
    | name spelling =>
      exact .take rfl (.seq (.dottedRest (by omega) (by omega)) fun names => .ite .fail
        (hrest.lower (Nat.sub_le _ _)))
    | _ => exact (Agree.seq (.patternLiteral hn hm) fun _ => hrest).at _

theorem Agree.mappingItems {j k : Nat} (h : Agree anyway bound pattern pattern') (hn : bound ≤ n)
    (hm : bound ≤ m) (hj : bound ≤ j) (hk : bound ≤ k) :
    Agree anyway bound (mappingItems n pattern j) (Parser.mappingItems m pattern' k) := by
  induction bound generalizing j k with
  | zero => exact fun x y _ hlt => absurd hlt (Nat.not_lt_zero _)
  | succ bound ih =>
    obtain ⟨j, rfl⟩ : ∃ i, j = i + 1 := ⟨j - 1, by omega⟩
    obtain ⟨k, rfl⟩ : ∃ i, k = i + 1 := ⟨k - 1, by omega⟩
    have hmore := ih (h.lower (Nat.le_succ _)) (by omega) (by omega) (Nat.le_of_succ_le_succ hj)
      (Nat.le_of_succ_le_succ hk)
    refine .ifAccept rfl (.pure rfl) (.seq (h.mappingItem hn hm) fun rest => .bind (.accept rfl)
      fun comma => ?_)
    cases comma with
    | true => exact .ite hmore (.expect rfl)
    | false => exact .expect rfl

/-- What is nested in a pattern stands behind a token that has been taken. -/
theorem Agree.closedPattern (h : Agree anyway bound pattern pattern') (hn : bound + 1 ≤ n)
    (hm : bound + 1 ≤ m) :
    Agree anyway (bound + 1) (closedPattern n pattern) (Parser.closedPattern m pattern') := by
  have hn' : bound ≤ n := Nat.le_of_succ_le hn
  have hm' : bound ≤ m := Nat.le_of_succ_le hm
  have hliteral := Agree.patternLiteral hn hm
  refine .peek fun next => ?_
  cases next with
  | none => exact hliteral.at _
  | some lexeme =>
    cases lexeme with
    | name spelling =>
      refine .take rfl (.ite (.pure rfl) (.seq (.dottedRest hn' hm') fun _ => .ifAccept rfl ?_
        (.seq (.isNext _) fun _ => .ite .fail (.pure rfl))))
      exact (h.classPatterns none hn' hm').lower (Nat.sub_le _ _)
    | symbol s =>
      have hitems := h.starPattern.commaList hn' hm'
      dsimp only
      split
      · rename_i hs
        subst hs
        refine .take rfl (.seq hitems fun found => .seq (.expect rfl) fun _ => ?_)
        rcases found with ⟨_ | ⟨_ | _, _ | _⟩, _ | _⟩
        all_goals first | exact .fail | exact .pure rfl
      · split
        · rename_i hs
          subst hs
          exact .take rfl (.seq hitems fun _ => .expect rfl)
        · split
          · rename_i hs
            subst hs
            exact .take rfl (h.mappingItems hn' hm' hn' hm')
          · exact hliteral.at _
    | _ => exact hliteral.at _

theorem Agree.boundPattern (h : Agree anyway bound pattern pattern') (hn : bound + 1 ≤ n)
    (hm : bound + 1 ≤ m) :
    Agree anyway (bound + 1) (boundPattern n pattern) (Parser.boundPattern m pattern') :=
  .seq (.sepBy rfl (h.closedPattern hn hm) hn hm) fun _ => .ifAccept rfl .capture (.pure rfl)

theorem Agree.patternAt {depth depth' : Nat} (hn : bound ≤ n) (hm : bound ≤ m) (hdepth : bound ≤ depth)
    (hdepth' : bound ≤ depth') :
    Agree anyway bound (patternAt n depth) (Parser.patternAt m depth') := by
  induction bound generalizing depth depth' with
  | zero => exact fun x y _ hlt => absurd hlt (Nat.not_lt_zero _)
  | succ bound ih =>
    obtain ⟨depth, rfl⟩ : ∃ k, depth = k + 1 := ⟨depth - 1, by omega⟩
    obtain ⟨depth', rfl⟩ : ∃ k, depth' = k + 1 := ⟨depth' - 1, by omega⟩
    have hnested := ih (Nat.le_of_succ_le hn) (Nat.le_of_succ_le hm) (Nat.le_of_succ_le_succ hdepth)
      (Nat.le_of_succ_le_succ hdepth')
    exact hnested.boundPattern hn hm

theorem Agree.casePattern (hn : bound ≤ n) (hm : bound ≤ m) :
    Agree anyway bound (casePattern n) (Parser.casePattern m) := by
  refine .seq ((Agree.patternAt hn hm hn hm).starPattern.commaList hn hm) fun found => ?_
  rcases found with ⟨_ | ⟨_ | _, _ | _⟩, _ | _⟩
  all_goals first | exact .fail | exact .pure rfl

end Caret.Script.Parser
