import Caret.Proofs.Script.Block

/-!
# Scripts one after the other

A script is read statement by statement, and no statement starts with a lexeme that an earlier one
could go on with. So the statements of two scripts together are those of the first and then those of
the second, if the tokens are.

Statements are compared by what they do and say, whatever lines they stand on.
-/

namespace Caret.Script

/-- What a statement does and says, whatever lines it stands on. -/
def Statement.gist (statement : Statement) : Action × List Lexeme :=
  (statement.action, statement.lexemes)

namespace Parser

variable {α β : Type} {n m bound : Nat}

/-! ### What no statement starts with -/

/-- A parser fails where a lexeme comes first. -/
def Rejects (first : Lexeme) (p : Parser α) : Prop :=
  ∀ x, firstLexeme? x = some first → p x = none

variable {first : Lexeme} {p : Parser α} {primary expr : Parser Expr}

theorem Rejects.bind {f : α → Parser β} (h : Rejects first p) : Rejects first (p >>= f) :=
  fun x hx => bind_of_eq_none (h x hx)

theorem Rejects.fail : Rejects first (fail : Parser α) :=
  fun _ _ => rfl

theorem Rejects.peek {f : Option Lexeme → Parser α} (h : Rejects first (f (some first))) :
    Rejects first (peek >>= f) := by
  intro x hx
  rw [peek_bind_apply, hx]
  exact h x hx

/-- Where another lexeme is asked for, the answer is no. -/
theorem accept_of_first {lexeme : Lexeme} (hne : first ≠ lexeme) {x : List Token}
    (hx : firstLexeme? x = some first) : accept lexeme x = some (false, x) := by
  rw [accept_apply, if_neg]
  rw [hx]
  exact fun h => hne (Option.some.inj h)

theorem Rejects.ifAccept {lexeme : Lexeme} {q : Parser α} (hne : first ≠ lexeme) (h : Rejects first q) :
    Rejects first (accept lexeme >>= fun b => if b = true then p else q) := by
  intro x hx
  rw [bind_of_eq_some (accept_of_first hne hx)]
  exact h x hx

theorem isNext_of_first {lexeme : Lexeme} (hne : first ≠ lexeme) {x : List Token}
    (hx : firstLexeme? x = some first) : isNext lexeme x = some (false, x) := by
  have hbeq : (firstLexeme? x == some lexeme) = false := by simpa [hx] using hne
  exact congrArg (fun b => some (b, x)) hbeq

theorem Rejects.ifNext {lexeme : Lexeme} {f : Bool → Parser α} (hne : first ≠ lexeme)
    (h : Rejects first (f false)) : Rejects first (isNext lexeme >>= f) := by
  intro x hx
  rw [bind_of_eq_some (isNext_of_first hne hx)]
  exact h x hx

theorem Rejects.expect {lexeme : Lexeme} (hne : first ≠ lexeme) : Rejects first (expect lexeme) := by
  intro x hx
  rw [expect_apply, hx, if_neg fun h => hne (Option.some.inj h)]

/-- A look ahead takes nothing. -/
theorem Rejects.succeeds {q : Parser β} {f : Bool → Parser α} (h : ∀ b, Rejects first (f b)) :
    Rejects first (succeeds q >>= f) :=
  fun x hx => h (q x).isSome x hx

theorem Rejects.tupleOf {p : Parser Expr} (h : Rejects first p) : Rejects first (tupleOf n p) := by
  intro x hx
  cases n with
  | zero => rfl
  | succ n =>
    have hnone : optional p x = some (none, x) := by rw [optional, h x hx]
    have hlist : commaList p (n + 1) x = some (([], true), x) := by
      rw [commaList, bind_of_eq_some hnone]
      rfl
    rw [Parser.tupleOf, bind_of_eq_some hlist]
    rfl

/-- A loop ends at once where its first round has nothing to take. -/
theorem many_of_ifAccept {lexeme : Lexeme} (hne : first ≠ lexeme) {q : Parser (Option α)}
    {x : List Token} (hx : firstLexeme? x = some first) :
    many (accept lexeme >>= fun b => if b = true then q else pure none) (n + 1) x = some ([], x) := by
  have hround : (accept lexeme >>= fun b => if b = true then q else pure none) x = some (none, x) := by
    rw [bind_of_eq_some (accept_of_first hne hx)]
    rfl
  rw [many, bind_of_eq_some hround]
  rfl

/-- The lexemes that no simple statement starts with: those that an earlier statement goes on with, and
those that end a statement. -/
def startsNone (lexeme : Lexeme) : Prop :=
  lexeme ∈ [kw "elif", kw "else", kw "except", kw "finally", .indent, .newline, sym ";"]

instance : DecidablePred startsNone :=
  fun lexeme => inferInstanceAs (Decidable (lexeme ∈ [_, _, _, _, _, _, _]))

theorem startsNone_of_goesOn (hfirst : goesOn first) : startsNone first := by
  obtain rfl | rfl | rfl | rfl | rfl : first = kw "elif" ∨ first = kw "else" ∨ first = kw "except" ∨
      first = kw "finally" ∨ first = .indent := by simpa [goesOn] using hfirst
  all_goals decide

theorem startsNone_ne (hfirst : startsNone first) {lexeme : Lexeme} (h : ¬ startsNone lexeme) :
    first ≠ lexeme := by
  rintro rfl
  exact h hfirst

theorem startsNone_cases (hfirst : startsNone first) :
    (∃ word, first = .keyword word ∧ startsNone (.keyword word)) ∨ first = .indent ∨ first = .newline ∨
      first = sym ";" := by
  cases first with
  | keyword word => exact .inl ⟨word, rfl, hfirst⟩
  | indent => exact .inr (.inl rfl)
  | newline => exact .inr (.inr (.inl rfl))
  | symbol text => exact .inr (.inr (.inr (by simpa [startsNone, kw, sym] using hfirst)))
  | _ => simp [startsNone, kw, sym] at hfirst

theorem startsNone_word_ne {word : Text} (hword : startsNone (.keyword word)) {other : String}
    (h : ¬ startsNone (kw other)) : word ≠ other.toList := by
  rintro rfl
  exact h hword

theorem Rejects.factor (hfirst : startsNone first) (h : Rejects first primary) :
    Rejects first (factor primary n) := by
  cases n with
  | zero =>
    rw [Parser.factor]
    exact .fail
  | succ n =>
    have hpower : Rejects first (power primary (Parser.factor primary n)) := h.bind
    rw [Parser.factor]
    refine .peek ?_
    obtain ⟨word, rfl, -⟩ | rfl | rfl | rfl := startsNone_cases hfirst
    all_goals exact hpower

theorem Rejects.bitwise (hfirst : startsNone first) (h : Rejects first primary) :
    Rejects first (bitwise n primary) := by
  have hawaited : Rejects first (awaited primary) := .ifAccept (startsNone_ne hfirst (by decide)) h
  exact (hawaited.factor hfirst).bind.bind.bind.bind.bind.bind

theorem Rejects.disjunction (hfirst : startsNone first) (h : Rejects first primary) :
    Rejects first (disjunction n primary) := by
  have hinversion : Rejects first (inversion n (Parser.bitwise n primary)) := by
    intro x hx
    cases n with
    | zero => rfl
    | succ n =>
      rw [inversion, bind_of_eq_some (many_of_ifAccept (startsNone_ne hfirst (by decide)) hx)]
      exact (h.bitwise hfirst).bind.bind x hx
  exact hinversion.bind.bind.bind.bind

variable [CharacterNames]

theorem Rejects.atom (hfirst : startsNone first) : Rejects first (atom n expr primary) := by
  refine .peek ?_
  obtain ⟨word, rfl, hword⟩ | rfl | rfl | rfl := startsNone_cases hfirst
  · intro x hx
    obtain ⟨token, rest, rfl, -⟩ := exists_cons_of_firstLexeme? hx
    have hnone := startsNone_word_ne hword (show ¬ startsNone (kw "None") by decide)
    have htrue := startsNone_word_ne hword (show ¬ startsNone (kw "True") by decide)
    have hfalse := startsNone_word_ne hword (show ¬ startsNone (kw "False") by decide)
    simp only [hnone, htrue, hfalse, if_false]
    rfl
  · exact .fail
  · exact .fail
  · intro x hx
    obtain ⟨token, rest, rfl, -⟩ := exists_cons_of_firstLexeme? hx
    rfl

theorem Rejects.grammar {depth : Nat} (hfirst : startsNone first) (level : Level) :
    Rejects first (grammar n depth level) := by
  cases depth with
  | zero => exact fun _ _ => rfl
  | succ depth =>
    cases level with
    | primary => exact (Rejects.atom hfirst).bind
    | expression =>
      refine Rejects.ifNext (startsNone_ne hfirst (by decide)) ?_
      exact (Rejects.disjunction hfirst (Rejects.atom hfirst).bind).bind

theorem Rejects.expressions (hfirst : startsNone first) : Rejects first (expressions n) :=
  (Rejects.ifAccept (startsNone_ne hfirst (by decide)) (.grammar hfirst .expression)).tupleOf

theorem Rejects.simpleStatement (hfirst : startsNone first) : Rejects first (simpleStatement n) := by
  have hexpression : Rejects first (expressionStatement n) :=
    .succeeds fun _ => (Rejects.expressions hfirst).bind
  refine .peek ?_
  obtain ⟨word, rfl, hword⟩ | rfl | rfl | rfl := startsNone_cases hfirst
  · obtain rfl | rfl | rfl | rfl : word = "elif".toList ∨ word = "else".toList ∨
        word = "except".toList ∨ word = "finally".toList := by simpa [startsNone, kw, sym] using hword
    all_goals exact hexpression
  all_goals exact hexpression

/-- The lexemes that a statement with blocks can start with. -/
def opensBlock (lexeme : Lexeme) : Prop :=
  lexeme ∈ [sym "@", kw "if", kw "while", kw "for", kw "with", kw "try", kw "class", kw "def",
    kw "async", .name "match".toList]

instance : DecidablePred opensBlock :=
  fun lexeme => inferInstanceAs (Decidable (lexeme ∈ [_, _, _, _, _, _, _, _, _, _]))

theorem decorators_of_first (hne : first ≠ sym "@") {x : List Token} (hx : firstLexeme? x = some first) :
    decorators (n + 1) x = some (false, x) := by
  rw [decorators, bind_of_eq_some (many_of_ifAccept hne hx)]
  rfl

/-- Where no keyword opens blocks and no `match` is opened, there is no statement that holds blocks. -/
theorem compoundStatement_of_header (hfirst : opensBlock first → first = .name "match".toList)
    {block : Parser Unit} {x : List Token} (hx : firstLexeme? x = some first)
    (hheader : matchHeader (n + 1) x = none) :
    compoundStatement (n + 1) block x = some (none, x) := by
  have hne : ∀ lexeme, opensBlock lexeme → lexeme ≠ .name "match".toList → first ≠ lexeme := by
    rintro lexeme hlexeme hmatch rfl
    exact hmatch (hfirst hlexeme)
  have hkeyword : keywordStatement (n + 1) block x = some (none, x) := by
    rw [keywordStatement, peek_bind_apply, hx]
    cases first with
    | keyword word =>
      have hword : ∀ other, opensBlock (kw other) → word ≠ other.toList := by
        rintro other hother rfl
        cases hfirst hother
      simp only [hword "if" (by decide), hword "while" (by decide), hword "for" (by decide),
        hword "with" (by decide), hword "try" (by decide), hword "class" (by decide),
        hword "def" (by decide), hword "async" (by decide), if_false]
      rfl
    | _ => rfl
  have hnone : optional (matchHeader (n + 1)) x = some (none, x) := by rw [optional, hheader]
  rw [compoundStatement, bind_of_eq_some (decorators_of_first (hne _ (by decide) (by decide)) hx)]
  simp only [Bool.false_eq_true, if_false]
  rw [bind_of_eq_some hkeyword]
  dsimp only
  rw [bind_of_eq_some hnone]
  rfl

/-- Where another lexeme comes first, there is no statement that holds blocks. -/
theorem compoundStatement_of_first (hfirst : ¬ opensBlock first) {block : Parser Unit} {x : List Token}
    (hx : firstLexeme? x = some first) : compoundStatement (n + 1) block x = some (none, x) := by
  have hne : first ≠ .name "match".toList := by
    rintro rfl
    exact hfirst (by decide)
  have hheader : Rejects first (matchHeader (n + 1)) := (Rejects.expect hne).bind
  exact compoundStatement_of_header (fun h => absurd h hfirst) hx (hheader x hx)

omit [CharacterNames] in
theorem not_opensBlock_of_goesOn (hfirst : goesOn first) : ¬ opensBlock first := by
  obtain rfl | rfl | rfl | rfl | rfl : first = kw "elif" ∨ first = kw "else" ∨ first = kw "except" ∨
      first = kw "finally" ∨ first = .indent := by simpa [goesOn] using hfirst
  all_goals decide

/-- Where no block is opened, a line of simple statements is read. -/
theorem statement_of_none {x : List Token}
    (h : compoundStatement n (blockAt n n) x = some (none, x)) :
    statement n x = simpleLine (keptSimple n) n x := by
  have hwith : withTokens (compoundStatement n (blockAt n n)) x =
      some ((none, x.take (x.length - x.length)), x) := by rw [withTokens, h]
  rw [statement, bind_of_eq_some hwith]

theorem Rejects.statement (hfirst : goesOn first) : Rejects first (statement n) := by
  intro x hx
  cases n with
  | zero => rfl
  | succ n =>
    have hkept : Rejects first (keptSimple (n + 1)) := by
      intro y hy
      rw [keptSimple, bind_of_eq_none]
      rw [withTokens, Rejects.simpleStatement (startsNone_of_goesOn hfirst) y hy]
    rw [statement_of_none (compoundStatement_of_first (not_opensBlock_of_goesOn hfirst) hx)]
    exact hkept.bind x hx

/-! ### A statement with its tokens -/

omit [CharacterNames] in
theorem withTokens_of_append {p : Parser α} {taken rest : List Token} {a : α}
    (h : p (taken ++ rest) = some (a, rest)) :
    withTokens p (taken ++ rest) = some ((a, taken), rest) := by
  have htaken : (taken ++ rest).take ((taken ++ rest).length - rest.length) = taken := by
    rw [List.length_append, Nat.add_sub_cancel, List.take_left]
  rw [withTokens, h]
  dsimp only
  rw [htaken]

omit [CharacterNames] in
theorem withTokens_eq_some {p : Parser α} {x rest tokens : List Token} {a : α}
    (h : withTokens p x = some ((a, tokens), rest)) : p x = some (a, rest) := by
  unfold withTokens at h
  split at h
  · rename_i hp
    cases h
    exact hp
  · cases h

theorem keptSimple_of_append {taken rest : List Token} {action : Action}
    (h : simpleStatement n (taken ++ rest) = some (action, rest)) :
    keptSimple n (taken ++ rest) = some (⟨action, taken⟩, rest) := by
  rw [keptSimple, bind_of_eq_some (withTokens_of_append h)]
  rfl

theorem keptSimple_of_none {x : List Token} (h : simpleStatement n x = none) :
    keptSimple n x = none := by
  rw [keptSimple, bind_of_eq_none]
  rw [withTokens, h]

omit [CharacterNames] in
theorem map_apply (f : α → β) (p : Parser α) (x : List Token) :
    (f <$> p) x = (p x).map fun result => (f result.1, result.2) := by
  rw [← bind_pure_comp, bind_apply]
  rcases p x with _ | ⟨a, rest⟩ <;> rfl

theorem Agree.keptSimple (hn : bound ≤ n) (hm : bound ≤ m) :
    Agree anyway bound (Statement.gist <$> keptSimple n) (Statement.gist <$> Parser.keptSimple m) := by
  intro x y hseg hlt
  have hrun := Agree.simpleStatement hn hm x y hseg hlt
  rw [map_apply, map_apply]
  generalize hleft : Parser.simpleStatement n x = left at hrun
  generalize hright : Parser.simpleStatement m y = right at hrun
  cases hrun with
  | failed =>
    rw [keptSimple_of_none hleft, keptSimple_of_none hright]
    exact .failed
  | @answered action taken taken' rest rest' hx hy hsame hinside _ =>
    subst hx hy
    have hgist : Statement.gist ⟨action, taken⟩ = Statement.gist ⟨action, taken'⟩ :=
      congrArg (Prod.mk action) hsame
    rw [keptSimple_of_append hleft, keptSimple_of_append hright]
    simp only [Option.map_some, hgist]
    exact .answered taken taken' rfl rfl hsame hinside (Nat.zero_le _)

omit [CharacterNames] in
theorem simpleLine_map (f : α → β) (p : Parser α) (k : Nat) :
    simpleLine (f <$> p) k = List.map f <$> simpleLine p k := by
  induction k with
  | zero =>
    funext x
    rw [map_apply]
    rfl
  | succ k ih =>
    simp only [simpleLine, ih, map_bind, bind_map_left]
    congr 1
    funext first
    congr 1
    funext more
    cases more with
    | false => simp only [Bool.false_eq_true, if_false, map_bind, map_pure, List.map_cons, List.map_nil]
    | true =>
      simp only [if_true, map_bind]
      congr 1
      funext ended
      cases ended with
      | true => rfl
      | false =>
        simp only [Bool.false_eq_true, if_false, map_bind, map_pure, List.map_cons]

theorem Repeats.statement (hn : bound ≤ n) (hm : bound ≤ m) (hnm : n ≤ m) :
    Repeats goesOn true bound (List.map Statement.gist <$> statement n)
      (List.map Statement.gist <$> Parser.statement m) := by
  have hblock := Repeats.blockAt hn hm hnm hnm
  have hcompound := Offers.compoundStatement hblock hn hm hnm
  intro x gists rest hlt hx
  rw [map_apply] at hx
  obtain ⟨⟨found, rest'⟩, hstatement, heq⟩ := Option.map_eq_some_iff.mp hx
  cases heq
  obtain ⟨⟨o, tokens⟩, middle, hwith, hrest⟩ := bind_eq_some hstatement
  have hrun := withTokens_eq_some hwith
  cases o with
  | some action =>
    cases hrest
    obtain ⟨taken, rfl, hend, hq⟩ := hcompound.found x action _ hlt hrun
    obtain rfl : taken = tokens := by
      rw [withTokens_of_append hrun] at hwith
      cases hwith
      rfl
    refine ⟨taken, rfl, hend, fun taken' rest' hsame halike => ?_⟩
    rw [map_apply, Parser.statement, bind_of_eq_some (withTokens_of_append (hq taken' rest' hsame halike))]
    have hgist : Statement.gist ⟨action, taken'⟩ = Statement.gist ⟨action, taken⟩ :=
      congrArg (Prod.mk action) hsame
    simp only [pure_apply, Option.map_some, List.map_cons, List.map_nil, hgist]
  | none =>
    obtain ⟨rfl, hq⟩ := hcompound.missing x middle hlt hrun
    have hline : Parser.simpleLine (Statement.gist <$> Parser.keptSimple n) n middle =
        some (found.map Statement.gist, rest') := by
      rw [simpleLine_map, map_apply, show Parser.simpleLine _ n middle = _ from hrest]
      rfl
    obtain ⟨taken, rfl, hend, hg⟩ :=
      Repeats.simpleLine (Agree.keptSimple hn hm) hnm middle _ rest' hlt hline
    refine ⟨taken, rfl, hend, fun taken' rest' hsame halike => ?_⟩
    have hmissing := hq (taken' ++ rest') ⟨taken, taken', _, rest', rfl, rfl, hsame, hend rfl, halike⟩
    have hmore := hg taken' rest' hsame halike
    rw [simpleLine_map, map_apply] at hmore
    rw [map_apply, statement_of_none hmissing]
    exact hmore

/-! ### Whole scripts -/

/-- The statements that are read from tokens until these are used up. -/
inductive Program (n : Nat) : List Token → List Statement → Prop
  | nil : Program n [] []
  | cons {tokens rest : List Token} {first more : List Statement}
      (hfirst : statement n tokens = some (first, rest)) (hmore : Program n rest more) :
      Program n tokens (first ++ more)

theorem statements_cons (k : Nat) (token : Token) (tokens : List Token) :
    statements n (k + 1) (token :: tokens) =
      match statement n (token :: tokens) with
      | some (first, rest) => (statements n k rest).map (first ++ ·)
      | none => none := rfl

theorem program_of_statements {k : Nat} {tokens : List Token} {found : List Statement}
    (h : statements n k tokens = some found) : Program n tokens found := by
  induction k generalizing tokens found with
  | zero =>
    cases tokens with
    | nil =>
      cases h
      exact .nil
    | cons token tokens => cases h
  | succ k ih =>
    cases tokens with
    | nil =>
      cases h
      exact .nil
    | cons token tokens =>
      rw [statements_cons] at h
      split at h
      · rename_i first rest hfirst
        obtain ⟨more, hmore, rfl⟩ := Option.map_eq_some_iff.mp h
        exact .cons hfirst (ih hmore)
      · cases h

/-- What a statement takes, and that it takes it also before other tokens. -/
theorem statement_repeated (hn : bound ≤ n) (hm : bound ≤ m) (hnm : n ≤ m) {x rest : List Token}
    {first : List Statement} (hlt : weight (lexemes x) < bound)
    (h : statement n x = some (first, rest)) :
    ∃ taken, x = taken ++ rest ∧ .newline ∈ lexemes taken ∧ ∀ taken' rest',
      lexemes taken' = lexemes taken → StartAlike goesOn rest rest' →
        ∃ first', statement m (taken' ++ rest') = some (first', rest') ∧
          first'.map Statement.gist = first.map Statement.gist := by
  have hgists : (List.map Statement.gist <$> statement n) x =
      some (first.map Statement.gist, rest) := by
    rw [map_apply, h]
    rfl
  obtain ⟨taken, rfl, hend, hq⟩ := Repeats.statement hn hm hnm x _ rest hlt hgists
  refine ⟨taken, rfl, hend rfl, fun taken' rest' hsame halike => ?_⟩
  have hrun := hq taken' rest' hsame halike
  rw [map_apply] at hrun
  obtain ⟨⟨first', last⟩, hfirst, heq⟩ := Option.map_eq_some_iff.mp hrun
  obtain ⟨hgist, rfl⟩ := Prod.mk.inj heq
  exact ⟨first', hfirst, hgist⟩

theorem statements_of_program {tokens : List Token} {found : List Statement}
    (h : Program n tokens found) (hlt : weight (lexemes tokens) < n) {k : Nat}
    (hk : tokens.length ≤ k) : statements n k tokens = some found := by
  induction h generalizing k with
  | nil => cases k <;> rfl
  | @cons tokens rest first more hfirst hmore ih =>
    obtain ⟨taken, rfl, hend, -⟩ :=
      statement_repeated (Nat.le_refl n) (Nat.le_refl n) (Nat.le_refl n) hlt hfirst
    cases taken with
    | nil => cases hend
    | cons token taken =>
      obtain ⟨k, rfl⟩ : ∃ i, k = i + 1 := ⟨k - 1, by simp at hk; omega⟩
      have hrest : statements n k rest = some more := by
        refine ih (Nat.lt_of_le_of_lt (weight_append_le rfl) hlt) ?_
        simp only [List.cons_append, List.length_cons, List.length_append] at hk
        omega
      rw [List.cons_append] at hfirst ⊢
      rw [statements_cons, hfirst]
      dsimp only
      rw [hrest]
      rfl

/-- A program does not start with what an earlier statement could go on with. -/
theorem Program.startAlike {tokens : List Token} {found : List Statement} (h : Program n tokens found) :
    StartAlike goesOn [] tokens := by
  intro lexeme hlexeme
  cases h with
  | nil => exact Iff.rfl
  | cons hfirst hmore =>
    refine ⟨fun h => (nomatch h), fun h => ?_⟩
    rw [Rejects.statement hlexeme tokens h] at hfirst
    cases hfirst

/-- The tokens of a program before those of another one. -/
theorem Program.append {x y z : List Token} {found later : List Statement} (hn : bound ≤ n)
    (hm : bound ≤ m) (hnm : n ≤ m) (h : Program n x found) (hlt : weight (lexemes x) < bound)
    (hsame : lexemes y = lexemes x) (hlater : Program m z later) :
    ∃ found', Program m (y ++ z) (found' ++ later) ∧
      found'.map Statement.gist = found.map Statement.gist := by
  induction h generalizing y with
  | nil =>
    obtain rfl : y = [] := by simpa [lexemes] using hsame
    exact ⟨[], hlater, rfl⟩
  | @cons x rest first more hfirst hmore ih =>
    obtain ⟨taken, rfl, -, hq⟩ := statement_repeated hn hm hnm hlt hfirst
    obtain ⟨taken', rest', rfl, htaken, hrest⟩ := exists_append_of_lexemes hsame
    have halike : StartAlike goesOn rest (rest' ++ z) := by
      have hends := hlater.startAlike.append hrest
      rwa [List.append_nil] at hends
    obtain ⟨first', hfirst', hgist⟩ := hq taken' (rest' ++ z) htaken halike
    obtain ⟨more', hmore', hgists⟩ := ih (Nat.lt_of_le_of_lt (weight_append_le rfl) hlt) hrest
    refine ⟨first' ++ more', ?_, by rw [List.map_append, List.map_append, hgist, hgists]⟩
    rw [List.append_assoc, List.append_assoc]
    exact .cons hfirst' hmore'

end Parser

theorem length_le_weight (lexemes : List Lexeme) : lexemes.length ≤ weight lexemes := by
  induction lexemes with
  | nil => exact Nat.le_refl _
  | cons lexeme lexemes ih =>
    have hone := lexeme.one_le_weight
    rw [List.length_cons, weight_cons]
    omega

/-- The fuel that a script is read with. -/
def fuelFor (source : Text) : Nat :=
  2 * source.length + 4

/-- A script is a program over its tokens. -/
theorem parse?_iff [CharacterNames] {source : Text} {found : List Statement} :
    parse? source = some found ↔ ∃ tokens, Lexer.tokens? source = some tokens ∧
      Parser.Program (fuelFor source) tokens found := by
  unfold parse?
  cases htokens : Lexer.tokens? source with
  | none => simp
  | some tokens =>
    have hweight := Lexer.weight_of_tokens? htokens
    have hlt : weight (lexemes tokens) < fuelFor source := by
      unfold fuelFor
      omega
    constructor
    · intro h
      exact ⟨tokens, rfl, Parser.program_of_statements h⟩
    · rintro ⟨tokens', heq, hprogram⟩
      cases heq
      refine Parser.statements_of_program hprogram hlt ?_
      have hlength : tokens.length ≤ weight (lexemes tokens) := by
        simpa [lexemes] using length_le_weight (lexemes tokens)
      unfold fuelFor at hlt
      omega

/-- The statements of a text whose tokens are those of two scripts one after the other. -/
theorem parse?_of_lexemes [CharacterNames] {left right whole : Text} {before after : List Statement}
    (hleft : parse? left = some before) (hright : parse? right = some after)
    (hlength : left.length ≤ whole.length) (hlength' : right.length ≤ whole.length)
    (hwhole : ∀ leftTokens rightTokens, Lexer.tokens? left = some leftTokens →
      Lexer.tokens? right = some rightTokens → ∃ tokens, Lexer.tokens? whole = some tokens ∧
        lexemes tokens = lexemes leftTokens ++ lexemes rightTokens) :
    ∃ found, parse? whole = some found ∧
      found.map Statement.gist = before.map Statement.gist ++ after.map Statement.gist := by
  obtain ⟨leftTokens, hlex, hprogram⟩ := parse?_iff.mp hleft
  obtain ⟨rightTokens, hlex', hprogram'⟩ := parse?_iff.mp hright
  obtain ⟨tokens, htokens, hsame⟩ := hwhole leftTokens rightTokens hlex hlex'
  rw [← lexemes_append] at hsame
  obtain ⟨y, z, rfl, hy, hz⟩ := exists_append_of_lexemes hsame
  have hfuel : fuelFor left ≤ fuelFor whole := by unfold fuelFor; omega
  have hfuel' : fuelFor right ≤ fuelFor whole := by unfold fuelFor; omega
  have hlight : ∀ {text : Text} {tokens : List Token}, Lexer.tokens? text = some tokens →
      weight (lexemes tokens) < fuelFor text := by
    intro text tokens h
    have := Lexer.weight_of_tokens? h
    unfold fuelFor
    omega
  obtain ⟨after', hafter, hgists'⟩ := hprogram'.append (Nat.le_refl _) hfuel' hfuel' (hlight hlex') hz .nil
  obtain ⟨before', hbefore, hgists⟩ := hprogram.append (Nat.le_refl _) hfuel hfuel (hlight hlex) hy hafter
  simp only [List.append_nil] at hbefore
  refine ⟨before' ++ after', parse?_iff.mpr ⟨y ++ z, htokens, hbefore⟩, ?_⟩
  rw [List.map_append, hgists, hgists']

end Caret.Script
