import Caret.Proofs.Script.Agreement
import Caret.Proofs.Script.Field
import Caret.Proofs.Script.Lexing
import Caret.Script.Parser.Expression

/-!
# Expressions are read from their own segment

One lemma for each parser of the expression grammar, in the order of the grammar: given parsers for
nested expressions that agree, the parser agrees. The knot is tied by induction on the bound of the
weight, since a nested expression stands behind a token that has been taken.
-/

namespace Caret.Script.Parser

variable {n m bound : Nat}

section

variable {expr expr' primary primary' : Parser Expr}

/-! ### Operators -/

theorem isEnd_symbol_of_any {symbols : List String} {s : Text}
    (hsymbols : symbols.any (·.toList == [';']) = false) (h : symbols.any (·.toList == s) = true) :
    (Lexeme.symbol s).isEnd = false := by
  by_cases hs : s = [';']
  · rw [hs, hsymbols] at h
    cases h
  · simpa [Lexeme.isEnd] using hs

theorem Agree.awaited (h : Agree anyway bound primary primary') :
    Agree anyway bound (awaited primary) (Parser.awaited primary') :=
  .ifAccept rfl (.seq (h.lower (Nat.sub_le _ _)) fun _ => .pure rfl) h

theorem Agree.chain {symbols : List String} (hsymbols : symbols.any (·.toList == [';']) = false)
    {p q : Parser Expr} (h : Agree anyway bound p q) (hn : bound ≤ n) (hm : bound ≤ m) :
    Agree anyway bound (chain n symbols p) (Parser.chain m symbols q) := by
  refine .seq h fun first => .seq (.many (.peek fun next => ?_) hn hm) fun rest => .pure rfl
  cases next with
  | none => exact .pure rfl
  | some lexeme =>
    cases lexeme with
    | symbol s =>
      dsimp only
      split
      · rename_i hs
        refine .take (isEnd_symbol_of_any hsymbols hs) ?_
        exact .seq (h.lower (Nat.sub_le _ _)) fun _ => .pure rfl
      · exact .pure rfl
    | _ => exact .pure rfl

theorem Agree.factor (h : Agree anyway bound primary primary') (hn : bound ≤ n) (hm : bound ≤ m) :
    Agree anyway bound (factor primary n) (Parser.factor primary' m) := by
  induction bound generalizing n m with
  | zero => exact fun x y _ hlt => absurd hlt (Nat.not_lt_zero _)
  | succ bound ih =>
    obtain ⟨n, rfl⟩ : ∃ k, n = k + 1 := ⟨n - 1, by omega⟩
    obtain ⟨m, rfl⟩ : ∃ k, m = k + 1 := ⟨m - 1, by omega⟩
    have hmore := ih (h.lower (Nat.le_succ _)) (Nat.le_of_succ_le_succ hn)
      (Nat.le_of_succ_le_succ hm)
    have hpower : Agree anyway (bound + 1) (Parser.power primary (Parser.factor primary n))
        (Parser.power primary' (Parser.factor primary' m)) := by
      refine .seq h fun base => .ifAccept rfl ?_ (.pure rfl)
      exact .seq hmore fun _ => .pure rfl
    rw [Parser.factor, Parser.factor]
    refine .peek fun next => ?_
    cases next with
    | none => exact hpower.at _
    | some lexeme =>
      cases lexeme with
      | symbol s =>
        dsimp only
        split
        · rename_i hs
          exact .take (isEnd_symbol_of_any (by decide) hs) (.seq hmore fun _ => .pure rfl)
        · exact hpower.at _
      | _ => exact hpower.at _

theorem Agree.bitwise (h : Agree anyway bound primary primary') (hn : bound ≤ n) (hm : bound ≤ m) :
    Agree anyway bound (bitwise n primary) (Parser.bitwise m primary') := by
  have hterm : Agree anyway bound (Parser.chain n ["*", "/", "//", "%", "@"] _) _ :=
    .chain rfl (h.awaited.factor hn hm) hn hm
  have hshift : Agree anyway bound (Parser.chain n ["<<", ">>"] (Parser.chain n ["+", "-"] _)) _ :=
    .chain rfl (.chain rfl hterm hn hm) hn hm
  exact .chain rfl (.chain rfl (.chain rfl hshift hn hm) hn hm) hn hm

theorem Agree.comparisonSign : Agree whenTrue bound comparisonSign Parser.comparisonSign := by
  refine .peek fun next => ?_
  cases next with
  | none => exact .pure rfl
  | some lexeme =>
    cases lexeme with
    | symbol s =>
      dsimp only
      split
      · rename_i hs
        exact .take (isEnd_symbol_of_any (by decide) hs) (.pure rfl)
      · exact .pure rfl
    | keyword word =>
      refine .ite (.take rfl (.pure rfl)) (.ite (.take rfl ?_)
        (.peekSecond rfl fun second x y hseg hfirst hsecond hlt => ?_))
      · refine .bind (.accept rfl) fun _ => .pure ?_
        exact Nat.zero_sub _
      · split
        · rename_i hnot
          rw [hnot.2] at hsecond
          exact .takeTwo rfl rfl (.pure rfl) hseg hfirst hsecond hlt
        · exact (Agree.pure rfl : Agree whenTrue bound _ _) x y hseg hlt
    | _ => exact .pure rfl

theorem Agree.comparison {p q : Parser Expr} (h : Agree anyway bound p q) (hn : bound ≤ n)
    (hm : bound ≤ m) : Agree anyway bound (comparison n p) (Parser.comparison m q) := by
  refine .seq h fun first => .seq (.many (.bind .comparisonSign fun more => ?_) hn hm) fun rest => .pure rfl
  cases more with
  | false => exact .pure rfl
  | true => exact .seq (h.lower (Nat.sub_le _ _)) fun _ => .pure rfl

theorem Agree.inversion {p q : Parser Expr} (h : Agree anyway bound p q) (hn : bound ≤ n)
    (hm : bound ≤ m) : Agree anyway bound (inversion n p) (Parser.inversion m q) := by
  refine .seq (.many (.ifAccept rfl (.pure rfl) (.pure rfl)) hn hm) fun nots => ?_
  exact .seq (h.comparison hn hm) fun _ => .pure rfl

theorem Agree.junction (word : String) {p q : Parser Expr} (h : Agree anyway bound p q)
    (hn : bound ≤ n) (hm : bound ≤ m) :
    Agree anyway bound (junction n word p) (Parser.junction m word q) := by
  refine .seq (.sepBy rfl h hn hm) fun found => ?_
  rcases found with _ | ⟨e, _ | ⟨e', more⟩⟩ <;> exact .pure rfl

theorem Agree.disjunction (h : Agree anyway bound primary primary') (hn : bound ≤ n)
    (hm : bound ≤ m) : Agree anyway bound (disjunction n primary) (Parser.disjunction m primary') :=
  .junction _ (.junction _ (.inversion (h.bitwise hn hm) hn hm) hn hm) hn hm

/-! ### Names, stars and tuples -/

/-- Whether lexemes start with a name and then a given symbol. -/
def startsNameBefore (symbol : String) : List Lexeme → Bool
  | .name _ :: .symbol s :: _ => s == symbol.toList
  | _ => false

theorem isNameBefore_apply (symbol : String) (tokens : List Token) :
    isNameBefore symbol tokens = some (startsNameBefore symbol (segment tokens), tokens) := by
  rcases tokens with _ | ⟨⟨l, _, _⟩, _ | ⟨⟨l', _, _⟩, rest⟩⟩
  · rfl
  · cases l with
    | symbol s => by_cases hs : s == [';'] <;> simp [segment, Lexeme.isEnd, hs] <;> rfl
    | _ => rfl
  · cases l with
    | name spelling =>
      cases l' with
      | symbol s => by_cases hs : s == [';'] <;> simp [segment, Lexeme.isEnd, hs] <;> rfl
      | _ => rfl
    | symbol s => by_cases hs : s == [';'] <;> simp [segment, Lexeme.isEnd, hs] <;> rfl
    | _ => rfl

theorem Agree.isNameBefore (symbol : String) :
    Agree anyway bound (isNameBefore symbol) (Parser.isNameBefore symbol) := by
  intro x y hseg _
  rw [isNameBefore_apply, isNameBefore_apply, hseg]
  exact .answered [] [] rfl rfl rfl (by simp) (Nat.zero_le _)

/-- A branch that takes a name and the symbol after it, where these come next. -/
theorem Agree.ifNameBefore {β : Type} {symbol : String} {most : β → Nat}
    (hsymbol : (Lexeme.symbol symbol.toList).isEnd = false) {f g : Bool → Parser β} {p q : Parser β}
    (hf : f true = (Parser.take >>= fun _ => Parser.take >>= fun _ => p))
    (hg : g true = (Parser.take >>= fun _ => Parser.take >>= fun _ => q))
    (hpq : Agree (fun b => most b - 1) (bound - 1) p q) (hno : Agree most bound (f false) (g false)) :
    Agree most bound (Parser.isNameBefore symbol >>= f) (Parser.isNameBefore symbol >>= g) := by
  intro x y hseg hlt
  rw [bind_of_eq_some (isNameBefore_apply symbol x), bind_of_eq_some (isNameBefore_apply symbol y),
    ← hseg]
  cases hnext : startsNameBefore symbol (segment x) with
  | false => exact hno x y hseg hlt
  | true =>
    obtain ⟨spelling, rest, hx⟩ : ∃ spelling rest,
        segment x = .name spelling :: .symbol symbol.toList :: rest := by
      unfold startsNameBefore at hnext
      split at hnext
      · rename_i spelling s rest hx
        rw [eq_of_beq hnext] at hx
        exact ⟨spelling, rest, hx⟩
      · cases hnext
    rw [hf, hg]
    exact .takeTwo (show (Lexeme.name spelling).isEnd = false from rfl) hsymbol hpq hseg
      (by rw [hx]; rfl) (by rw [hx]; rfl) hlt

theorem Agree.named (h : Agree anyway bound expr expr') :
    Agree anyway bound (named expr) (Parser.named expr') :=
  .ifNameBefore rfl rfl rfl (.seq (h.lower (Nat.sub_le _ _)) fun _ => .pure rfl) h

theorem Agree.starOr {p q p' q' : Parser Expr} (h : Agree anyway bound p p')
    (h' : Agree anyway bound q q') : Agree anyway bound (starOr p q) (Parser.starOr p' q') :=
  .ifAccept rfl (.seq (h.lower (Nat.sub_le _ _)) fun _ => .pure rfl) h'

theorem Agree.tupleOf {p q : Parser Expr} (h : Agree anyway bound p q) (hn : bound ≤ n)
    (hm : bound ≤ m) : Agree anyway bound (tupleOf n p) (Parser.tupleOf m q) := by
  refine .seq (h.commaList hn hm) fun found => ?_
  rcases found with ⟨_ | ⟨e, _ | ⟨e', more⟩⟩, _ | _⟩
  · exact .fail
  · exact .fail
  · exact .pure rfl
  · exact .pure rfl
  · exact .pure rfl
  · exact .pure rfl

theorem Agree.target (h : Agree anyway bound primary primary') :
    Agree anyway bound (target primary) (Parser.target primary') :=
  .seq (h.starOr h) fun _ => .ite (.pure rfl) .fail

theorem Agree.targets (h : Agree anyway bound primary primary') (hn : bound ≤ n) (hm : bound ≤ m) :
    Agree anyway bound (targets n primary) (Parser.targets m primary') :=
  h.target.tupleOf hn hm

/-! ### Comprehensions, calls and subscripts -/

theorem Agree.clause (h : Agree anyway bound primary primary') (hn : bound ≤ n) (hm : bound ≤ m) :
    Agree whenSome bound (clause n primary) (Parser.clause m primary') := by
  have hloop : ∀ {least : Option Unit → Nat} {less : Nat}, less ≤ bound → least (some ()) = 0 →
      Agree least less
        (do let _ ← Parser.targets n primary
            Parser.expect (kw "in")
            let _ ← Parser.disjunction n primary
            let _ ← Parser.many (do
              if ← Parser.accept (kw "if") then return some (← Parser.disjunction n primary)
              else return none) n
            return some ())
        (do let _ ← Parser.targets m primary'
            Parser.expect (kw "in")
            let _ ← Parser.disjunction m primary'
            let _ ← Parser.many (do
              if ← Parser.accept (kw "if") then return some (← Parser.disjunction m primary')
              else return none) m
            return some ()) := by
    intro least less hless hleast
    have hdisjunction := (h.disjunction hn hm).lower hless
    refine .seq ((h.targets hn hm).lower hless) fun _ => .seq (.expect rfl) fun _ =>
      .seq hdisjunction fun _ => .seq (.many ?_ (by omega) (by omega)) fun _ => .pure hleast
    exact .ifAccept rfl (.seq (hdisjunction.lower (Nat.sub_le _ _)) fun _ => .pure rfl) (.pure rfl)
  refine .bind (.accept rfl) fun asynchronous => ?_
  cases asynchronous with
  | false => exact .ifAccept rfl (hloop (Nat.sub_le _ _) rfl) (.pure rfl)
  | true => exact .ifAccept rfl (hloop (by omega) rfl) .fail

theorem Agree.isClauseNext : Agree anyway bound isClauseNext Parser.isClauseNext :=
  .seq (.isNext _) fun _ => .seq (.isNext _) fun _ => .pure rfl

theorem Agree.clauses (h : Agree anyway bound primary primary') (hn : bound ≤ n) (hm : bound ≤ m) :
    Agree anyway bound (clauses n primary) (Parser.clauses m primary') :=
  .seq .isClauseNext fun _ => .ite (.seq (.many (h.clause hn hm) hn hm) fun _ => .pure rfl) .fail

theorem Agree.argument (stage : Stage) (h : Agree anyway bound expr expr') :
    Agree anyway bound (argument expr stage) (Parser.argument expr' stage) := by
  have hless := h.lower (Nat.sub_le bound 1)
  refine .ifAccept rfl (.seq hless fun _ => .pure rfl) (.ifAccept rfl (.seq hless fun _ => ?_)
    (.ifNameBefore rfl rfl rfl (.seq hless fun _ => ?_) ?_))
  · cases stage with
    | mapping => exact .fail
    | _ => exact .pure rfl
  · cases stage <;> exact .pure rfl
  · cases stage with
    | position => exact .seq h.named fun _ => .pure rfl
    | _ => exact .fail

theorem Agree.moreArguments (stage : Stage) (h : Agree anyway bound expr expr') (hn : bound ≤ n)
    (hm : bound ≤ m) :
    Agree anyway bound (moreArguments expr n stage) (Parser.moreArguments expr' m stage) := by
  induction bound generalizing n m stage with
  | zero => exact fun x y _ hlt => absurd hlt (Nat.not_lt_zero _)
  | succ bound ih =>
    obtain ⟨n, rfl⟩ : ∃ k, n = k + 1 := ⟨n - 1, by omega⟩
    obtain ⟨m, rfl⟩ : ∃ k, m = k + 1 := ⟨m - 1, by omega⟩
    refine .ifAccept rfl (.pure rfl) (.seq (h.argument stage) fun stage => .ifAccept rfl ?_ (.expect rfl))
    exact ih stage (h.lower (Nat.le_succ _)) (Nat.le_of_succ_le_succ hn) (Nat.le_of_succ_le_succ hm)

theorem Agree.arguments (comprehension : Bool) (hexpr : Agree anyway bound expr expr')
    (hprimary : Agree anyway bound primary primary') (hn : bound ≤ n) (hm : bound ≤ m) :
    Agree anyway bound (arguments n expr comprehension primary)
      (Parser.arguments m expr' comprehension primary') := by
  refine .ifAccept rfl (.pure rfl) (.seq (.isNext _) fun _ => .seq (.isNext _) fun _ =>
    .seq (.isNameBefore _) fun _ => .seq (hexpr.argument _) fun stage => .ifAccept rfl ?_ ?_)
  · exact (hexpr.moreArguments stage hn hm).lower (Nat.sub_le _ _)
  · refine .seq .isClauseNext fun _ => .ite ?_ (.expect rfl)
    exact .seq (hprimary.clauses hn hm) fun _ => .expect rfl

theorem Agree.isSliceEnd : Agree anyway bound isSliceEnd Parser.isSliceEnd :=
  .seq (.isNext _) fun _ => .seq (.isNext _) fun _ => .seq (.isNext _) fun _ => .pure rfl

theorem Agree.slicePart (h : Agree anyway bound expr expr') :
    Agree anyway bound (slicePart expr) (Parser.slicePart expr') :=
  .seq .isSliceEnd fun _ => .ite (.pure rfl) (.seq h fun _ => .pure rfl)

theorem Agree.sliceRest (h : Agree anyway bound expr expr') :
    Agree anyway bound (sliceRest expr) (Parser.sliceRest expr') :=
  .seq h.slicePart fun _ => .ifAccept rfl (h.slicePart.lower (Nat.sub_le _ _)) (.pure rfl)

theorem Agree.slice (h : Agree anyway bound expr expr') :
    Agree anyway bound (slice expr) (Parser.slice expr') := by
  have hrest := h.sliceRest.lower (Nat.sub_le bound 1)
  refine .ifAccept rfl (.seq (h.lower (Nat.sub_le _ _)) fun _ => .pure rfl) (.ifAccept rfl hrest ?_)
  exact .seq (.isNameBefore _) fun _ => .seq h.named fun _ => .ifAcceptIf rfl hrest (.pure rfl)

/-- The parts of a primary expression each start with a token of their own. -/
theorem Agree.trailer {j k : Nat} (e : Expr) (hexpr : Agree anyway bound expr expr')
    (hprimary : Agree anyway bound primary primary') (hn : bound ≤ n) (hm : bound ≤ m)
    (hj : bound + 1 ≤ j) (hk : bound + 1 ≤ k) :
    Agree anyway (bound + 1) (trailer n expr primary j e) (Parser.trailer m expr' primary' k e) := by
  have hgo : ∀ less, less ≤ bound + 1 → ∀ j k e, less ≤ j → less ≤ k →
      Agree anyway less (Parser.trailer n expr primary j e) (Parser.trailer m expr' primary' k e) := by
    intro less
    induction less with
    | zero => exact fun _ _ _ _ _ _ x y _ hlt => absurd hlt (Nat.not_lt_zero _)
    | succ less ih =>
      intro hless j k e hj hk
      obtain ⟨j, rfl⟩ : ∃ i, j = i + 1 := ⟨j - 1, by omega⟩
      obtain ⟨k, rfl⟩ : ∃ i, k = i + 1 := ⟨k - 1, by omega⟩
      have hmore := fun e => ih (by omega) j k e (by omega) (by omega)
      have hexpr' := hexpr.lower (show less ≤ bound by omega)
      have hprimary' := hprimary.lower (show less ≤ bound by omega)
      refine .ifAccept rfl ?_ (.ifAccept rfl ?_ (.ifAccept rfl ?_ (.pure rfl)))
      · exact .seq .anyName fun _ => hmore _
      · exact .seq (.isNext _) fun _ => .seq (hexpr'.arguments true hprimary' (by omega) (by omega))
          fun _ => hmore _
      · refine .seq (hexpr'.slice.commaList (by omega) (by omega)) fun found => ?_
        rcases found with ⟨_ | ⟨item, items⟩, ended⟩
        · exact .fail
        · exact .seq (.expect rfl) fun _ => hmore _
  exact hgo (bound + 1) (Nat.le_refl _) j k e hj hk

/-! ### What stands in brackets -/

/-- An item of a display: an expression, perhaps assigned to a name, or a starred operand. -/
theorem Agree.item (hexpr : Agree anyway bound expr expr')
    (hprimary : Agree anyway bound primary primary') (hn : bound ≤ n) (hm : bound ≤ m) :
    Agree anyway bound (Parser.starOr (Parser.bitwise n primary) (Parser.named expr))
      (Parser.starOr (Parser.bitwise m primary') (Parser.named expr')) :=
  (hprimary.bitwise hn hm).starOr hexpr.named

theorem Agree.yielded (hexpr : Agree anyway bound expr expr')
    (hprimary : Agree anyway bound primary primary') (hn : bound ≤ n) (hm : bound ≤ m) :
    Agree anyway bound (yielded n expr primary) (Parser.yielded m expr' primary') := by
  have hitems := (((hprimary.bitwise hn hm).starOr hexpr).tupleOf hn hm).perhaps
  refine .seq (.expect rfl) fun _ => .ifAccept rfl ?_ ?_
  · exact .seq (hexpr.lower (Nat.sub_le _ _)) fun _ => .pure rfl
  · exact .seq hitems fun _ => .pure rfl

theorem Agree.parenthesis (hexpr : Agree anyway bound expr expr')
    (hprimary : Agree anyway bound primary primary') (hn : bound ≤ n) (hm : bound ≤ m) :
    Agree anyway bound (parenthesis n expr primary) (Parser.parenthesis m expr' primary') := by
  refine .ifAccept rfl (.pure rfl) (.seq (.isNext _) fun _ => .ite ?_ ?_)
  · exact .seq (hexpr.yielded hprimary hn hm) fun _ => .seq (.expect rfl) fun _ => .pure rfl
  · refine .seq (hexpr.item hprimary hn hm) fun first => .seq .isClauseNext fun _ => .ite ?_ ?_
    · exact .ite .fail (.seq (hprimary.clauses hn hm) fun _ => .seq (.expect rfl) fun _ => .pure rfl)
    · refine .ifAccept rfl ?_ (.ite .fail (.seq (.expect rfl) fun _ => .pure rfl))
      refine .seq (((hexpr.item hprimary hn hm).commaList hn hm).lower (Nat.sub_le _ _)) fun found => ?_
      exact .seq (.expect rfl) fun _ => .pure rfl

theorem Agree.bracket (hexpr : Agree anyway bound expr expr')
    (hprimary : Agree anyway bound primary primary') (hn : bound ≤ n) (hm : bound ≤ m) :
    Agree anyway bound (bracket n expr primary) (Parser.bracket m expr' primary') := by
  refine .seq ((hexpr.item hprimary hn hm).commaList hn hm) fun found => ?_
  obtain ⟨items, ended⟩ := found
  refine .seq .isClauseNext fun _ => .ite ?_ (.seq (.expect rfl) fun _ => .pure rfl)
  rcases items with _ | ⟨item, _ | ⟨item', items⟩⟩
  · exact .fail
  · cases ended with
    | true => exact .fail
    | false =>
      exact .ite .fail (.seq (hprimary.clauses hn hm) fun _ => .seq (.expect rfl) fun _ => .pure rfl)
  · exact .fail

theorem Agree.entry (hexpr : Agree anyway bound expr expr')
    (hprimary : Agree anyway bound primary primary') (hn : bound ≤ n) (hm : bound ≤ m) :
    Agree anyway bound (entry n expr primary) (Parser.entry m expr' primary') := by
  refine .ifAccept rfl ?_ ?_
  · exact .seq ((hprimary.bitwise hn hm).lower (Nat.sub_le _ _)) fun _ => .pure rfl
  · exact .seq hexpr fun _ => .seq (.expect rfl) fun _ => .seq hexpr fun _ => .pure rfl

theorem Agree.entries (first : Expr × Expr) (hexpr : Agree anyway bound expr expr')
    (hprimary : Agree anyway bound primary primary') (hn : bound ≤ n) (hm : bound ≤ m) :
    Agree anyway bound (entries n expr primary first) (Parser.entries m expr' primary' first) := by
  refine .ifAccept rfl ?_ (.seq (.expect rfl) fun _ => .pure rfl)
  refine .seq (((hexpr.entry hprimary hn hm).commaList hn hm).lower (Nat.sub_le _ _)) fun found => ?_
  exact .seq (.expect rfl) fun _ => .pure rfl

theorem Agree.brace (hexpr : Agree anyway bound expr expr')
    (hprimary : Agree anyway bound primary primary') (hn : bound ≤ n) (hm : bound ≤ m) :
    Agree anyway bound (brace n expr primary) (Parser.brace m expr' primary') := by
  have hcomprehension : Agree anyway bound
      (do Parser.clauses n primary; Parser.expect (sym "\x7d"); return Expr.computed)
      (do Parser.clauses m primary'; Parser.expect (sym "\x7d"); return Expr.computed) :=
    .seq (hprimary.clauses hn hm) fun _ => .seq (.expect rfl) fun _ => .pure rfl
  refine .ifAccept rfl (.pure rfl) (.seq (.isNext _) fun _ => .ite ?_ ?_)
  · exact .seq (hexpr.entry hprimary hn hm) fun first => hexpr.entries first hprimary hn hm
  · refine .seq (.isNameBefore _) fun assigned => .seq (hexpr.item hprimary hn hm) fun first =>
      .ifAcceptIf rfl (.lower ?_ (Nat.sub_le _ _)) (.seq .isClauseNext fun _ => .ite hcomprehension ?_)
    · refine .seq hexpr fun value => .seq .isClauseNext fun _ => .ite hcomprehension ?_
      exact hexpr.entries (first, value) hprimary hn hm
    · refine .ifAccept rfl ?_ (.seq (.expect rfl) fun _ => .pure rfl)
      refine .seq (((hexpr.item hprimary hn hm).commaList hn hm).lower (Nat.sub_le _ _)) fun found => ?_
      exact .seq (.expect rfl) fun _ => .pure rfl

/-! ### Strings and their fields -/

/-- Parsers that agree leave the same of the same tokens. -/
theorem Agree.same_rest {α : Type} {p q : Parser α} (h : Agree anyway bound p q) {tokens : List Token}
    (hlt : weight (segment tokens) < bound) : (p tokens).map (·.2) = (q tokens).map (·.2) := by
  have hrun := h tokens tokens rfl hlt
  generalize p tokens = left at hrun
  generalize q tokens = right at hrun
  cases hrun with
  | failed => rfl
  | answered taken taken' hx hy hsame _ _ =>
    have hlength : taken.length = taken'.length := by
      have := congrArg List.length hsame
      simpa [lexemes] using this
    rw [(List.append_inj (hx.symm.trans hy) hlength).2]

/-- The expression of a field is read from tokens that weigh less than the string. -/
theorem isFieldExpression_congr (hexpr : Agree anyway bound expr expr')
    (hprimary : Agree anyway bound primary primary') (hn : bound ≤ n) (hm : bound ≤ m) {text : Text}
    (htext : 2 * text.length + 6 < bound) :
    isFieldExpression n expr primary text = isFieldExpression m expr' primary' text := by
  unfold isFieldExpression
  cases htokens : Lexer.tokens? ('(' :: text ++ [')']) with
  | none => rfl
  | some tokens =>
    have hweight := Lexer.weight_of_tokens? htokens
    have hsegment := weight_segment_le tokens
    have hlt : weight (segment tokens) < bound := by
      simp only [List.cons_append, List.length_cons, List.length_append, List.length_nil] at hweight
      omega
    have hrest := (((hprimary.bitwise hn hm).starOr hexpr).tupleOf hn hm).same_rest hlt
    dsimp only
    generalize tupleOf n (starOr (bitwise n primary) expr) tokens = left at hrest
    generalize tupleOf m (starOr (bitwise m primary') expr') tokens = right at hrest
    rcases left with _ | ⟨_, rest⟩ <;> rcases right with _ | ⟨_, rest'⟩
    · rfl
    · cases hrest
    · cases hrest
    · cases hrest
      rfl

/-- What a string costs to read. -/
abbrev quotationWeight (quotation : Quotation) : Nat :=
  2 * quotation.body.length + 3

theorem Agree.quotation :
    Agree (fun o => (o.map quotationWeight).getD 0) bound quotation Parser.quotation := by
  refine .peek fun next => ?_
  cases next with
  | none => exact .pure rfl
  | some lexeme =>
    cases lexeme with
    | string q => exact .takeWeighing rfl (.pure (Nat.sub_self _))
    | _ => exact .pure rfl

theorem Agree.strings [CharacterNames] (hexpr : Agree anyway bound expr expr')
    (hprimary : Agree anyway bound primary primary') (hn : bound + 1 ≤ n) (hm : bound + 1 ≤ m) :
    Agree anyway (bound + 1) (strings n expr primary) (Parser.strings m expr' primary') := by
  have hparts := Agree.quotation.manyWeighing (fun q => show 1 ≤ quotationWeight q by
    unfold quotationWeight; omega) hn hm
  refine .bind hparts fun parts => Agree.weaken (?_ : Agree anyway _ _ _) (fun _ => by simp)
    (Nat.le_refl _)
  rcases Nat.lt_or_ge bound (total quotationWeight parts) with hheavy | hlight
  · -- The tokens that are left would weigh less than nothing.
    intro x y _ hlt
    omega
  have htest : ∀ q ∈ parts, Field.areWellFormed q (isFieldExpression n expr primary) =
      Field.areWellFormed q (isFieldExpression m expr' primary') := by
    intro q hq
    have hle : 2 * q.body.length + 3 ≤ total quotationWeight parts := by
      obtain ⟨before, after, rfl⟩ := List.append_of_mem hq
      simp only [total_append, total_cons, quotationWeight]
      omega
    refine Field.areWellFormed_congr fun e he => ?_
    exact isFieldExpression_congr hexpr hprimary (by omega) (by omega) (by omega)
  have hall : (parts.all fun q => if q.formatted then
        Field.areWellFormed q (isFieldExpression n expr primary) else q.value?.isSome) =
      parts.all fun q => if q.formatted then
        Field.areWellFormed q (isFieldExpression m expr' primary') else q.value?.isSome := by
    rw [Bool.eq_iff_iff, List.all_eq_true, List.all_eq_true]
    exact forall₂_congr fun q hq => by rw [htest q hq]
  refine .ite .fail (.ite ?_ (.ite ?_ ?_))
  · cases parts.mapM (·.value?) with
    | none => exact .fail
    | some values => exact .ite (.pure rfl) .fail
  · rw [hall]
    exact .ite (.pure rfl) .fail
  · cases parts.mapM (·.value?) with
    | none => exact .fail
    | some values => exact .pure rfl

/-! ### The knot -/

theorem Agree.atom [CharacterNames] (hexpr : Agree anyway bound expr expr')
    (hprimary : Agree anyway bound primary primary') (hn : bound + 1 ≤ n) (hm : bound + 1 ≤ m) :
    Agree anyway (bound + 1) (atom n expr primary) (Parser.atom m expr' primary') := by
  have hn' : bound ≤ n := Nat.le_of_succ_le hn
  have hm' : bound ≤ m := Nat.le_of_succ_le hm
  refine .peek fun next => ?_
  cases next with
  | none => exact .fail
  | some lexeme =>
    cases lexeme with
    | name spelling => exact (Agree.anyName.seq fun _ => .pure (by rfl)).at _
    | number value => exact .take rfl (.pure rfl)
    | string q => exact (hexpr.strings hprimary hn hm).at _
    | keyword word => exact .take rfl (.ite (.pure rfl) (.ite (.pure rfl) (.ite (.pure rfl) .fail)))
    | symbol s =>
      by_cases hend : s = [';']
      · subst hend
        exact (Agree.take (fun _ _ => ⟨rfl, rfl⟩) fun _ => .fail).at _
      · refine .take (by simpa [Lexeme.isEnd] using hend) ?_
        exact .ite (hexpr.parenthesis hprimary hn' hm') (.ite (hexpr.bracket hprimary hn' hm')
          (.ite (hexpr.brace hprimary hn' hm') (.ite (.pure rfl) .fail)))
    | _ => exact .fail

theorem Agree.annotated (annotated : Bool) {p q : Parser Expr} (h : Agree anyway bound p q) :
    Agree anyway bound ( annotation annotated p) ( Parser.annotation annotated q) :=
  .ite (.ifAccept rfl (.seq (h.lower (Nat.sub_le _ _)) fun _ => .pure rfl) (.pure rfl)) (.pure rfl)

theorem Agree.parameter (annotated : Bool) (place : Place) (hexpr : Agree anyway bound expr expr')
    (hprimary : Agree anyway bound primary primary') (hn : bound ≤ n) (hm : bound ≤ m) :
    Agree anyway bound (parameters.parameter n expr annotated primary place)
      (Parser.parameters.parameter m expr' annotated primary' place) := by
  have hless := hexpr.lower (Nat.sub_le bound 1)
  have hstar := ((hprimary.bitwise hn hm).starOr hexpr).lower (Nat.sub_le bound 1)
  refine .ifAccept rfl ?_ (.ifAccept rfl ?_ (.ifAccept rfl ?_ ?_))
  · rcases place with ⟨_ | _, defaulted, _ | _⟩ | _ | _
    all_goals first | exact .fail | exact .pure rfl
  · rcases place with _ | ⟨_ | _⟩ | _
    · exact .seq .anyName fun _ => .seq (hless.annotated annotated) fun _ => .pure rfl
    · exact .seq .anyName fun _ => .seq (hless.annotated annotated) fun _ => .pure rfl
    · exact .fail
    · exact .fail
  · cases place with
    | positional =>
      refine .seq (.isNext _) fun _ => .ite (.pure rfl) ?_
      exact .seq .anyName fun _ => .seq (hstar.annotated annotated) fun _ => .pure rfl
    | _ => exact .fail
  · refine .seq .anyName fun _ => .seq (hexpr.annotated annotated) fun _ =>
      .seq (.accepted rfl) fun defaulted => ?_
    cases place with
    | positional _ before slashed =>
      exact .ite (.seq hexpr fun _ => .ite .fail (.pure rfl)) (.ite .fail (.pure rfl))
    | afterStar _ => exact .ite (.seq hexpr fun _ => .pure rfl) (.pure rfl)
    | last => exact .ite (.seq hexpr fun _ => .fail) .fail

theorem Agree.parameters {j k : Nat} (annotated : Bool) (closing : Lexeme) (place : Place)
    (hexpr : Agree anyway bound expr expr') (hprimary : Agree anyway bound primary primary')
    (hn : bound ≤ n) (hm : bound ≤ m) (hj : bound ≤ j) (hk : bound ≤ k) :
    Agree anyway bound (parameters n expr annotated closing primary j place)
      (Parser.parameters m expr' annotated closing primary' k place) := by
  induction bound generalizing j k place with
  | zero => exact fun x y _ hlt => absurd hlt (Nat.not_lt_zero _)
  | succ bound ih =>
    obtain ⟨j, rfl⟩ : ∃ i, j = i + 1 := ⟨j - 1, by omega⟩
    obtain ⟨k, rfl⟩ : ∃ i, k = i + 1 := ⟨k - 1, by omega⟩
    have hmore := fun place => ih place (hexpr.lower (Nat.le_succ _)) (hprimary.lower (Nat.le_succ _))
      (by omega) (by omega) (Nat.le_of_succ_le_succ hj) (Nat.le_of_succ_le_succ hk)
    refine .seq (.isNext _) fun _ => .ite ?_ ?_
    · rcases place with _ | ⟨_ | _⟩ | _
      all_goals first | exact .fail | exact .pure rfl
    · refine .seq (hexpr.parameter annotated place hprimary hn hm) fun next => .ifAccept rfl (hmore next)
        (.seq (.isNext _) fun _ => .ite ?_ .fail)
      rcases next with _ | ⟨_ | _⟩ | _
      all_goals first | exact .fail | exact .pure rfl

theorem Agree.lambda (hexpr : Agree anyway bound expr expr')
    (hprimary : Agree anyway bound primary primary') (hn : bound ≤ n) (hm : bound ≤ m) :
    Agree anyway (bound + 1) (lambda n expr primary) (Parser.lambda m expr' primary') := by
  refine .bind (.expectOne rfl) fun _ => ?_
  exact .seq (hexpr.parameters _ _ _ hprimary hn hm hn hm) fun _ =>
    .seq (.expect rfl) fun _ => .seq hexpr fun _ => .pure rfl

/-- A conditional expression reads its operands one level further than what is nested in it. -/
theorem Agree.conditional (hexpr : Agree anyway bound expr expr')
    (hprimary : Agree anyway (bound + 1) primary primary') (hn : bound + 1 ≤ n) (hm : bound + 1 ≤ m) :
    Agree anyway (bound + 1) (conditional n expr primary) (Parser.conditional m expr' primary') := by
  have hoperand := hprimary.disjunction hn hm
  refine .seq (.isNext _) fun _ => .ite ?_ (.seq hoperand fun first => ?_)
  · exact hexpr.lambda (hprimary.lower (Nat.le_succ _)) (Nat.le_of_succ_le hn) (Nat.le_of_succ_le hm)
  · refine .seq (.perhaps (.bind (.expectOne rfl) fun _ => ?_)) fun condition => .pure rfl
    exact .seq (hoperand.lower (Nat.le_succ _)) fun _ => .seq (.expect rfl) fun _ =>
      .seq hexpr fun _ => .pure rfl

end

variable [CharacterNames]

/-- The fuel bounds the loops, the depth the nesting. -/
theorem Agree.grammar {depth depth' : Nat} (level : Level) (hn : bound ≤ n) (hm : bound ≤ m)
    (hdepth : bound ≤ depth) (hdepth' : bound ≤ depth') :
    Agree anyway bound (grammar n depth level) (Parser.grammar m depth' level) := by
  induction bound generalizing depth depth' level with
  | zero => exact fun x y _ hlt => absurd hlt (Nat.not_lt_zero _)
  | succ bound ih =>
    obtain ⟨depth, rfl⟩ : ∃ k, depth = k + 1 := ⟨depth - 1, by omega⟩
    obtain ⟨depth', rfl⟩ : ∃ k, depth' = k + 1 := ⟨depth' - 1, by omega⟩
    have hnested := fun level => ih level (Nat.le_of_succ_le hn) (Nat.le_of_succ_le hm)
      (Nat.le_of_succ_le_succ hdepth) (Nat.le_of_succ_le_succ hdepth')
    have hexpr := hnested .expression
    have hprimary := hnested .primary
    have hhere := (hexpr.atom hprimary hn hm).seq fun e =>
      hexpr.trailer e hprimary (Nat.le_of_succ_le hn) (Nat.le_of_succ_le hm) hn hm
    cases level with
    | primary => exact hhere
    | expression => exact hexpr.conditional hhere hn hm

theorem Agree.expression (hn : bound ≤ n) (hm : bound ≤ m) :
    Agree anyway bound (expression n) (Parser.expression m) :=
  .grammar .expression hn hm hn hm

theorem Agree.primary (hn : bound ≤ n) (hm : bound ≤ m) :
    Agree anyway bound (Parser.primary n) (Parser.primary m) :=
  .grammar .primary hn hm hn hm

theorem Agree.expressions (hn : bound ≤ n) (hm : bound ≤ m) :
    Agree anyway bound (expressions n) (Parser.expressions m) :=
  (((Agree.primary hn hm).bitwise hn hm).starOr (.expression hn hm)).tupleOf hn hm

end Caret.Script.Parser
