import Caret.Proofs.Script.ImportLine

/-!
# One more name in the last import

Where the last statement of a script imports from a module, plainly and without a semicolon after it, a
comma and one more name may follow. The statement then imports that name too, and all statements before
it are what they were.
-/

namespace Caret.Script.Parser

variable {α β : Type} {n m : Nat} {block : Parser Unit}

/-! ### Where imports come from -/

/-- What a statement does that does not import from a module. -/
def Elsewhere (action : Action) : Prop :=
  ∀ level module? names, action ≠ .importFrom level module? names

/-- What a statement does that holds blocks. -/
def HoldsBlocks : Action → Prop
  | .defineClass _ | .defineFunction _ | .other => True
  | _ => False

theorem HoldsBlocks.elsewhere {action : Action} (h : HoldsBlocks action) : Elsewhere action := by
  rintro level module? names rfl
  exact h

theorem elsewhere_other : Elsewhere .other :=
  HoldsBlocks.elsewhere trivial

theorem elsewhere_importModules (modules : List Alias) : Elsewhere (.importModules modules) := by
  rintro level module? names ⟨⟩

theorem Gives.then {good : α → Prop} {good' : β → Prop} {p : Parser α} {f : α → Parser β}
    (hp : Gives good p) (hf : ∀ a, good a → Gives good' (f a)) : Gives good' (p >>= f) := by
  intro x b rest h
  obtain ⟨a, middle, hpx, hfm⟩ := bind_eq_some h
  exact hf a (hp x a middle hpx) middle b rest hfm

theorem holdsBlocks_other : ∀ a ∈ some Action.other, HoldsBlocks a := by
  rintro _ ⟨⟩
  trivial

theorem Gives.found {p : Parser Action} (h : Gives HoldsBlocks p) :
    Gives (∀ a ∈ ·, HoldsBlocks a) (do return Option.some (← p)) := by
  refine h.then fun a ha => .pure ?_
  rintro _ ⟨⟩
  exact ha

/-! ### Lines of statements -/

theorem isSome_of_certain {p : Parser (Option α)} {x rest : List Token} {found : Option α}
    (hx : p x = some (found, rest)) (h : Certain p) : found.isSome = true :=
  h x found rest hx

/-- What comes of a line that has a further statement after its first one. -/
theorem simpleLine_cons {p : Parser α} {k : Nat} {x rest last : List Token} {a : α} {more : List α}
    {semicolon : Token} (hsemicolon : semicolon.lexeme = sym ";")
    (hp : p x = some (a, semicolon :: rest)) (hline : firstLexeme? rest ≠ some .newline)
    (hmore : simpleLine p k rest = some (more, last)) :
    simpleLine p (k + 1) x = some (a :: more, last) := by
  have haccept : accept (sym ";") (semicolon :: rest) = some (true, rest) := by
    rw [accept_apply, if_pos (firstLexeme?_cons hsemicolon _)]
    rfl
  have hnewline : accept .newline rest = some (false, rest) := by rw [accept_apply, if_neg hline]
  rw [simpleLine, bind_of_eq_some hp, bind_of_eq_some haccept]
  simp only [if_true]
  rw [bind_of_eq_some hnewline]
  simp only [Bool.false_eq_true, if_false]
  exact bind_of_eq_some hmore

/-- The ways in which a line is read: one statement, one with a semicolon after it, or one with a
semicolon and more after it. -/
theorem simpleLine_cases {p : Parser α} {k : Nat} {x rest : List Token} {found : List α}
    (h : simpleLine p (k + 1) x = some (found, rest)) :
    ∃ a, (∃ newline, newline.lexeme = .newline ∧ p x = some (a, newline :: rest) ∧ found = [a]) ∨
      (∃ semicolon newline, semicolon.lexeme = sym ";" ∧ newline.lexeme = .newline ∧
        p x = some (a, semicolon :: newline :: rest) ∧ found = [a]) ∨
      ∃ semicolon middle more, semicolon.lexeme = sym ";" ∧ firstLexeme? middle ≠ some .newline ∧
        p x = some (a, semicolon :: middle) ∧ simpleLine p k middle = some (more, rest) ∧
          found = a :: more := by
  obtain ⟨a, after, hp, hrest⟩ := bind_eq_some h
  refine ⟨a, ?_⟩
  rw [bind_apply, accept_apply] at hrest
  by_cases hnext : firstLexeme? after = some (sym ";")
  · obtain ⟨semicolon, middle, rfl, hsemicolon⟩ := exists_cons_of_firstLexeme? hnext
    rw [if_pos hnext] at hrest
    simp only [if_true, List.tail_cons] at hrest
    rw [bind_apply, accept_apply] at hrest
    by_cases hended : firstLexeme? middle = some .newline
    · obtain ⟨newline, last, rfl, hnewline⟩ := exists_cons_of_firstLexeme? hended
      rw [if_pos hended] at hrest
      cases hrest
      exact .inr (.inl ⟨semicolon, newline, hsemicolon, hnewline, hp, rfl⟩)
    · rw [if_neg hended] at hrest
      obtain ⟨more, last, hmore, hlast⟩ := bind_eq_some hrest
      cases hlast
      exact .inr (.inr ⟨semicolon, middle, more, hsemicolon, hended, hp, hmore, rfl⟩)
  · rw [if_neg hnext] at hrest
    obtain ⟨_, last, hexpect, hlast⟩ := bind_eq_some hrest
    cases hlast
    rw [expect_apply] at hexpect
    split at hexpect
    · rename_i hended
      obtain ⟨newline, tokens, rfl, hnewline⟩ := exists_cons_of_firstLexeme? hended
      cases hexpect
      exact .inl ⟨newline, hnewline, hp, rfl⟩
    · cases hexpect

theorem simpleLine_ne_nil {p : Parser α} {k : Nat} {x rest : List Token} {found : List α}
    (h : simpleLine p k x = some (found, rest)) : found ≠ [] := by
  cases k with
  | zero => cases h
  | succ k =>
    obtain ⟨a, ⟨_, -, -, rfl⟩ | ⟨_, _, -, -, -, rfl⟩ | ⟨_, _, _, -, -, -, -, rfl⟩⟩ := simpleLine_cases h
    all_goals simp

theorem segment_cons_semicolon {token : Token} (h : token.lexeme = sym ";") (tokens : List Token) :
    segment (token :: tokens) = [sym ";"] := by
  have hend : token.lexeme.isEnd = true := by rw [h]; rfl
  rw [segment_cons_of_isEnd hend, h]

theorem firstLexeme?_extended {front y : List Token} {more : List Lexeme} (hne : front ≠ [])
    (hy : lexemes y = lexemes front ++ more) (rest rest' : List Token) :
    firstLexeme? (y ++ rest') = firstLexeme? (front ++ rest) := by
  have hnefront : lexemes front ≠ [] := by simpa [lexemes] using hne
  have hney : y ≠ [] := by
    rintro rfl
    exact hnefront (List.append_eq_nil_iff.mp hy.symm).1
  rw [firstLexeme?_append hney, firstLexeme?_append hne, hy, List.head?_append_of_ne_nil _ hnefront]

/-- The last lexeme of some tokens is no symbol. -/
def EndsPlain (front : List Token) : Prop :=
  ∀ text, (lexemes front).getLast? ≠ some (.symbol text)

theorem EndsPlain.of_append {taken front : List Token} (h : EndsPlain (taken ++ front)) :
    EndsPlain front := by
  intro text htext
  refine h text ?_
  rw [lexemes_append, List.getLast?_append, htext]
  rfl

/-! ### Statements that hold blocks -/

variable [CharacterNames]

theorem Gives.classStatement : Gives HoldsBlocks (classStatement n block) := by
  refine .bind fun id => .bind fun more => ?_
  cases more with
  | true => exact .bind fun _ => .bind fun _ => .pure trivial
  | false => exact .bind fun _ => .pure trivial

theorem Gives.functionStatement : Gives HoldsBlocks (functionStatement n block) := by
  refine .bind fun id => .bind fun _ => .bind fun _ => .bind fun _ => .bind fun more => ?_
  cases more with
  | true => exact .bind fun _ => .bind fun _ => .pure trivial
  | false => exact .bind fun _ => .pure trivial

theorem Gives.keywordStatement : Gives (∀ a ∈ ·, HoldsBlocks a) (keywordStatement n block) := by
  refine .bind fun first => ?_
  cases first with
  | none => exact .pure nofun
  | some first =>
    cases first with
    | keyword word =>
      refine .ite (.bind fun _ => .bind fun _ => .pure holdsBlocks_other) ?_
      refine .ite (.bind fun _ => .bind fun _ => .bind fun _ => .bind fun _ => .pure holdsBlocks_other) ?_
      refine .ite (.bind fun _ => .bind fun _ => .pure holdsBlocks_other) ?_
      refine .ite (.bind fun _ => .bind fun _ => .pure holdsBlocks_other) ?_
      refine .ite (.bind fun _ => .bind fun _ => .pure holdsBlocks_other) ?_
      refine .ite (.bind fun _ => .found .classStatement) ?_
      refine .ite (.bind fun _ => .found .functionStatement) ?_
      refine .ite (.bind fun _ => .bind fun _ => .ite (.found .functionStatement) ?_) (.pure nofun)
      exact .bind fun _ => .ite (.bind fun _ => .pure holdsBlocks_other)
        (.bind fun _ => .bind fun _ => .pure holdsBlocks_other)
    | _ => exact .pure nofun

theorem Gives.compoundStatement : Gives (∀ a ∈ ·, HoldsBlocks a) (compoundStatement n block) := by
  have hdecorated : Gives HoldsBlocks (decorated n block) :=
    .bind fun _ => .ite .classStatement (.bind fun _ => .bind fun _ => .functionStatement)
  refine .bind fun _ => .ite (.found hdecorated) (Gives.keywordStatement.then fun found hfound => ?_)
  cases found with
  | some action => exact .pure hfound
  | none =>
    refine .bind fun header => ?_
    cases header with
    | some _ => exact .bind fun _ => .pure holdsBlocks_other
    | none => exact .pure nofun

/-! ### Statements that start with a keyword of their own -/

theorem Gives.assignments {k : Nat} {targets : List Expr} :
    Gives Elsewhere (assignments n k targets) := by
  induction k generalizing targets with
  | zero => exact .fail
  | succ k ih => exact .bind fun _ => .bind fun _ => .bind fun _ => .ite (.ite .fail ih) (.pure nofun)

theorem Gives.expressionStatement : Gives Elsewhere (expressionStatement n) := by
  refine .bind fun _ => .bind fun first => .bind fun next => ?_
  cases next with
  | none => exact .pure nofun
  | some next =>
    cases next with
    | symbol text =>
      refine .ite (.bind fun _ => .ite .fail (.bind fun _ => .bind fun more => ?_)) ?_
      · cases more with
        | true => exact .bind fun _ => .pure nofun
        | false => exact .pure nofun
      · refine .ite (.bind fun _ => .ite .assignments .fail) (.ite ?_ (.pure nofun))
        exact .bind fun _ => .ite .fail (.bind fun _ => .pure nofun)
    | _ => exact .pure nofun

/-- Only a statement that starts with its keyword imports from a module. -/
theorem first_of_importFrom {x rest : List Token} {level : Nat} {module? : Option Text}
    {names : List Alias} (h : simpleStatement n x = some (.importFrom level module? names, rest)) :
    firstLexeme? x = some (kw "from") := by
  rw [simpleStatement, peek_bind_apply] at h
  by_contra hfirst
  have hgives : ∀ {p : Parser Action}, Gives Elsewhere p →
      p x ≠ some (.importFrom level module? names, rest) :=
    fun hp hx => hp x _ rest hx level module? names rfl
  revert h
  cases hx : firstLexeme? x with
  | none => exact hgives .expressionStatement
  | some first =>
    rw [hx] at hfirst
    cases first with
    | keyword word =>
      have hword : word ≠ "from".toList := by
        rintro rfl
        exact hfirst rfl
      simp only [hword, if_false]
      refine hgives (.ite (.bind fun _ => .bind fun _ => .pure (elsewhere_importModules _)) ?_)
      refine .ite (.bind fun _ => .pure elsewhere_other) (.ite (.bind fun _ => .bind fun _ => .pure elsewhere_other) ?_)
      refine .ite (.bind fun _ => .bind fun raised => ?_) ?_
      · cases raised with
        | some _ =>
          refine .bind fun more => ?_
          cases more with
          | true => exact .bind fun _ => .pure elsewhere_other
          | false => exact .pure elsewhere_other
        | none => exact .pure elsewhere_other
      refine .ite (.bind fun _ => .bind fun _ => .pure elsewhere_other) ?_
      refine .ite (.bind fun _ => .bind fun _ => .ite (.pure elsewhere_other) .fail) ?_
      refine .ite (.bind fun _ => .pure elsewhere_other) (.ite (.bind fun _ => .bind fun _ => .bind fun more => ?_)
        .expressionStatement)
      cases more with
      | true => exact .bind fun _ => .pure elsewhere_other
      | false => exact .pure elsewhere_other
    | _ => exact hgives .expressionStatement

/-! ### Lines that open no block -/

/-- A keyword that opens a block is followed by one. -/
theorem isSome_keywordStatement {word : Text} (hword : opensBlock (.keyword word)) {x rest : List Token}
    {found : Option Action} (hx : firstLexeme? x = some (.keyword word))
    (h : keywordStatement n block x = some (found, rest)) : found.isSome = true := by
  rw [keywordStatement, peek_bind_apply, hx] at h
  simp only [opensBlock, List.mem_cons, List.not_mem_nil, or_false, sym, kw, Lexeme.keyword.injEq,
    reduceCtorEq, false_or] at hword
  rcases hword with rfl | rfl | rfl | rfl | rfl | rfl | rfl | rfl
  all_goals change (take >>= _) x = some (found, rest) at h
  · exact isSome_of_certain h (.bind fun _ => .bind fun _ => .pure rfl)
  · exact isSome_of_certain h (.bind fun _ => .bind fun _ => .bind fun _ => .bind fun _ => .pure rfl)
  · exact isSome_of_certain h (.bind fun _ => .bind fun _ => .pure rfl)
  · exact isSome_of_certain h (.bind fun _ => .bind fun _ => .pure rfl)
  · exact isSome_of_certain h (.bind fun _ => .bind fun _ => .pure rfl)
  · exact isSome_of_certain h (.bind fun _ => .bind fun _ => .pure rfl)
  · exact isSome_of_certain h (.bind fun _ => .bind fun _ => .pure rfl)
  · exact isSome_of_certain h (.bind fun _ => .bind fun _ => .ite (.bind fun _ => .pure rfl)
      (.bind fun _ => .ite (.bind fun _ => .pure rfl) (.bind fun _ => .bind fun _ => .pure rfl)))

/-- What a line starts with that opens no block: if a `match`, then one that is a name here. -/
theorem first_of_compoundStatement_none {first : Lexeme} {x rest : List Token}
    (hx : firstLexeme? x = some first) (h : compoundStatement (n + 1) block x = some (none, rest)) :
    opensBlock first → first = .name "match".toList := by
  intro hopens
  by_contra hmatch
  obtain ⟨decorated, middle, hdecorators, hrest⟩ := bind_eq_some h
  by_cases hat : first = sym "@"
  · obtain ⟨lines, _, hlines, hdecorated⟩ := bind_eq_some hdecorators
    obtain ⟨line, _, hline, hmore⟩ := bind_eq_some hlines
    have haccept : accept (sym "@") x = some (true, x.tail) := by rw [accept_apply, if_pos (hat ▸ hx)]
    rw [bind_of_eq_some haccept] at hline
    have hsome := isSome_of_certain hline (.bind fun _ => .bind fun _ => .pure rfl)
    cases line with
    | none => cases hsome
    | some line =>
      obtain ⟨others, _, -, hothers⟩ := bind_eq_some hmore
      cases hothers
      cases hdecorated
      obtain ⟨action, _, -, hnone⟩ := bind_eq_some hrest
      cases hnone
  · rw [decorators_of_first hat hx] at hdecorators
    cases hdecorators
    obtain ⟨found, after, hkeyword, hmore⟩ := bind_eq_some hrest
    obtain ⟨word, rfl⟩ : ∃ word, first = .keyword word := by
      simp only [opensBlock, List.mem_cons, List.not_mem_nil, or_false] at hopens
      rcases hopens with rfl | rfl | rfl | rfl | rfl | rfl | rfl | rfl | rfl | rfl
      · exact absurd rfl hat
      all_goals first | exact ⟨_, rfl⟩ | exact absurd rfl hmatch
    have hsome := isSome_keywordStatement hopens hx hkeyword
    cases found with
    | none => cases hsome
    | some action => cases hmore

/-- The line that opens a `match` is a single statement as far as its end goes. -/
theorem newline_of_matchHeader {x rest : List Token} (hlt : weight (segment x) < n)
    (h : matchHeader n x = some ((), rest)) : .newline ∈ segment x := by
  rw [matchHeader_eq] at h
  obtain ⟨_, middle, hsubject, hend⟩ := bind_eq_some h
  obtain ⟨_, after, hnewline, -⟩ := bind_eq_some hend
  have hrun := Agree.matchSubject (Nat.le_refl n) (Nat.le_refl n) x x rfl hlt
  rw [hsubject] at hrun
  cases hrun with
  | answered taken _ hx _ _ hinside _ =>
    rw [expect_apply] at hnewline
    split at hnewline
    · rename_i hfirst
      obtain ⟨token, tokens, rfl, htoken⟩ := exists_cons_of_firstLexeme? hfirst
      have hends : token.lexeme.isEnd = true := by rw [htoken]; rfl
      rw [hx, segment_append hinside, segment_cons_of_isEnd hends, htoken]
      simp
    · cases hnewline

/-- Where no block is opened, none is opened by a line that starts with the same statement and has
another one after it. -/
theorem compoundStatement_none_of_first {block' : Parser Unit} {x rest y : List Token}
    (h : compoundStatement (n + 1) block x = some (none, rest))
    (hfirst : firstLexeme? y = firstLexeme? x) (hlt : weight (segment y) < m + 1)
    (hline : .newline ∉ segment y) (hne : y ≠ []) :
    compoundStatement (m + 1) block' y = some (none, y) := by
  obtain ⟨token, tokens, rfl⟩ := List.exists_cons_of_ne_nil hne
  have hy : firstLexeme? (token :: tokens) = some token.lexeme := rfl
  have hheader : matchHeader (m + 1) (token :: tokens) = none := by
    cases hrun : matchHeader (m + 1) (token :: tokens) with
    | none => rfl
    | some result => exact absurd (newline_of_matchHeader hlt hrun) hline
  exact compoundStatement_of_header (first_of_compoundStatement_none (hfirst ▸ hy) h) hy hheader

/-! ### A line with one more name -/

/-- A simple statement has its tokens, none of which ends it, and is read from tokens that say the same
before any end that is the same. -/
theorem keptSimple_eq_some (hnm : n ≤ m) {x rest : List Token} {statement : Statement}
    (hlt : weight (lexemes x) < n) (h : keptSimple n x = some (statement, rest)) :
    x = statement.tokens ++ rest ∧ (∀ l ∈ lexemes statement.tokens, l.isEnd = false) ∧
      simpleStatement n x = some (statement.action, rest) ∧
      ∀ taken' rest', lexemes taken' = lexemes statement.tokens → segment rest = segment rest' →
        keptSimple m (taken' ++ rest') = some (⟨statement.action, taken'⟩, rest') := by
  have hagree := Agree.simpleStatement (Nat.le_refl n) hnm
  cases hrun : simpleStatement n x with
  | none =>
    rw [keptSimple_of_none hrun] at h
    cases h
  | some result =>
    obtain ⟨action, rest'⟩ := result
    have hself := hagree x x rfl (Nat.lt_of_le_of_lt (weight_segment_le x) hlt)
    obtain ⟨taken, rfl, hagain⟩ := hagree.exists_taken hlt hrun
    rw [keptSimple_of_append hrun] at h
    cases h
    refine ⟨rfl, ?_, rfl, fun taken' rest' hsame hseg =>
      keptSimple_of_append (hagain taken' rest' hsame hseg)⟩
    rw [hrun] at hself
    generalize simpleStatement m _ = right at hself
    cases hself with
    | answered mine _ hx _ _ hinside _ =>
      obtain rfl : taken = mine := List.append_cancel_right hx
      exact hinside

/-- A statement that imports from a module and one that imports one more name from it. -/
def Extends (new : Imported) (old now : Statement) : Prop :=
  ∃ path names, old.action = .importFrom 0 (some path) names ∧
    now.gist = (.importFrom 0 (some path) (names ++ [new.alias]), old.lexemes ++ sym "," :: new.lexemes)

omit [CharacterNames] in
theorem fromLexemes_concat (first : Text) (more : List Text) (name : Imported) (others : List Imported)
    (new : Imported) :
    fromLexemes first more name others ++ sym "," :: new.lexemes =
      fromLexemes first more name (others ++ [new]) := by
  simp [fromLexemes, importedLexemes]

/-- The import at the end of a line, with one more name. -/
theorem keptSimple_extend (hnm : n < m) {x rest : List Token} {last : Statement} {path : Text}
    {names : List Alias} (hlt : weight (lexemes x) < n) (h : keptSimple n x = some (last, rest))
    (haction : last.action = .importFrom 0 (some path) names)
    (hsymbol : ∀ s, (lexemes last.tokens).getLast? ≠ some (.symbol s)) {new : Imported}
    {y rest' : List Token} {newline : Token}
    (hy : lexemes y = lexemes last.tokens ++ sym "," :: new.lexemes) (hnewline : newline.lexeme = .newline) :
    ∃ now, keptSimple m (y ++ newline :: rest') = some (now, newline :: rest') ∧ Extends new last now := by
  obtain ⟨hx, -, hrun, -⟩ := keptSimple_eq_some (Nat.le_refl n) hlt h
  rw [haction] at hrun
  obtain ⟨keyword, after, rfl, hkeyword⟩ := exists_cons_of_firstLexeme? (first_of_importFrom hrun)
  rw [simpleStatement_from hkeyword] at hrun
  obtain ⟨tokens, rfl, hlast | ⟨first, more, name, others, hmore, hothers, hspelled, hpath, hnames⟩⟩ :=
    spelled_of_importFrom (weight_lt_of_cons hlt) hrun
  all_goals
    rw [← List.cons_append] at hx
    have htokens : last.tokens = keyword :: tokens := (List.append_cancel_right hx).symm
    rw [htokens] at hsymbol hy
  · obtain ⟨text, htext⟩ := hlast
    refine absurd ?_ (hsymbol text)
    rw [lexemes_cons, List.getLast?_cons, htext]
    rfl
  · rw [lexemes_cons, hspelled, hkeyword, List.cons_append, fromLexemes_concat] at hy
    obtain ⟨keyword', tokens', rfl, hkeyword', htokens'⟩ := List.map_eq_cons_iff.mp hy
    have hlength : (others ++ [new]).length < m := by
      rw [List.length_append, List.length_singleton]
      omega
    have hnames' : (name :: (others ++ [new])).map Imported.alias = names ++ [new.alias] := by
      rw [← List.cons_append, List.map_append, hnames]
      rfl
    have hsimple : simpleStatement m (keyword' :: tokens' ++ newline :: rest') =
        some (.importFrom 0 (some path) (names ++ [new.alias]), newline :: rest') := by
      rw [List.cons_append, simpleStatement_from hkeyword', ← hpath, ← hnames']
      exact importFrom_of_spelled (Nat.lt_trans hmore hnm) hlength htokens' (endsBefore_newline hnewline)
    have hlexemes : lexemes (keyword' :: tokens') = last.lexemes ++ sym "," :: new.lexemes := by
      have hold : last.lexemes = kw "from" :: fromLexemes first more name others := by
        rw [← hspelled, ← hkeyword, ← lexemes_cons, ← htokens]
        rfl
      rw [hy, hold, List.cons_append, fromLexemes_concat]
    exact ⟨_, keptSimple_of_append hsimple, path, names, haction, congrArg (Prod.mk _) hlexemes⟩

/-- A parser reads tokens that say what others say and then name one more import before the end of
their line. It finds the statements of these with the last one extended. -/
def ReadsExtended (front : List Token) (init : List Statement) (last : Statement)
    (q : Parser (List Statement)) : Prop :=
  ∀ new y newline rest, lexemes y = lexemes front ++ sym "," :: Imported.lexemes new →
    newline.lexeme = .newline → ∃ init' last', q (y ++ newline :: rest) = some (init' ++ [last'], rest) ∧
      init'.map Statement.gist = init.map Statement.gist ∧ Extends new last last'

/-- A statement and a semicolon in front of a line that can be extended. -/
theorem ReadsExtended.cons {k : Nat} {x front : List Token} {statement : Statement}
    {init : List Statement} {last : Statement} {semicolon : Token}
    (hsemicolon : semicolon.lexeme = sym ";") (hne : front ≠ [])
    (hnext : (lexemes front).head? ≠ some .newline)
    (hagain : ∀ taken rest, lexemes taken = lexemes statement.tokens →
      segment (semicolon :: x) = segment rest →
      keptSimple m (taken ++ rest) = some (⟨statement.action, taken⟩, rest))
    (h : ReadsExtended front init last (simpleLine (keptSimple m) k)) :
    ReadsExtended (statement.tokens ++ semicolon :: front) (statement :: init) last
      (simpleLine (keptSimple m) (k + 1)) := by
  intro new y newline rest hy hnewline
  rw [lexemes_append, lexemes_cons, List.append_assoc, List.cons_append] at hy
  obtain ⟨taken, after, rfl, htaken, hafter⟩ := List.map_eq_append_iff.mp hy
  obtain ⟨semicolon', y, rfl, hsemicolon', hy'⟩ := List.map_eq_cons_iff.mp hafter
  rw [hsemicolon] at hsemicolon'
  obtain ⟨init', last', hrun, hinit, hextends⟩ := h new y newline rest hy' hnewline
  have hfirst := hagain taken (semicolon' :: (y ++ newline :: rest)) htaken
    ((segment_cons_semicolon hsemicolon _).trans (segment_cons_semicolon hsemicolon' _).symm)
  have hline : firstLexeme? (y ++ newline :: rest) ≠ some .newline := by
    rw [firstLexeme?_extended hne hy' [] (newline :: rest), firstLexeme?_append hne]
    exact hnext
  have hgist : Statement.gist ⟨statement.action, taken⟩ = statement.gist :=
    congrArg (Prod.mk statement.action) htaken
  refine ⟨⟨statement.action, taken⟩ :: init', last', ?_, by rw [List.map_cons, hinit, hgist]; rfl, hextends⟩
  rw [List.append_assoc]
  exact simpleLine_cons hsemicolon' hfirst hline hrun

/-- A line whose last statement imports from a module. It ends with its line, and with one more name it
is read as before. A line of several statements keeps its first one. -/
theorem simpleLine_extend (hnm : n < m) {k k' : Nat} (hk : k ≤ k') {x rest : List Token}
    {init : List Statement} {last : Statement} {path : Text} {names : List Alias}
    (hlt : weight (lexemes x) < n) (h : simpleLine (keptSimple n) k x = some (init ++ [last], rest))
    (haction : last.action = .importFrom 0 (some path) names) :
    ∃ front newline, x = front ++ newline :: rest ∧ newline.lexeme = .newline ∧ front ≠ [] ∧
      (EndsPlain front → ReadsExtended front init last (simpleLine (keptSimple m) k') ∧
        (firstLexeme? x = some (kw "from") ∨
          .newline ∉ segment x ∧ ∀ y z, lexemes front <+: lexemes y → segment (y ++ z) = segment x)) := by
  induction k generalizing k' x init with
  | zero => cases h
  | succ k ih =>
    obtain ⟨k', rfl⟩ : ∃ i, k' = i + 1 := ⟨k' - 1, by omega⟩
    obtain ⟨statement, hone | hended | hmore⟩ := simpleLine_cases h
    · obtain ⟨newline, hnewline, hkept, hfound⟩ := hone
      obtain ⟨rfl, heq⟩ := List.append_inj' (show init ++ [last] = [] ++ [statement] from hfound) rfl
      cases heq
      obtain ⟨rfl, -, hrun, -⟩ := keptSimple_eq_some (Nat.le_refl n) hlt hkept
      rw [haction] at hrun
      have hfirst := first_of_importFrom hrun
      refine ⟨last.tokens, newline, rfl, hnewline, ?_, fun hplain => ⟨?_, .inl hfirst⟩⟩
      · intro hnil
        rw [hnil, List.nil_append, firstLexeme?_cons hnewline] at hfirst
        cases hfirst
      · intro new y newline' rest' hy hnewline'
        obtain ⟨now, hnow, hextends⟩ := keptSimple_extend hnm hlt hkept haction hplain hy hnewline'
        exact ⟨[], now, simpleLine_one hnewline' hnow, rfl, hextends⟩
    · -- A semicolon at the end is a symbol, and nothing more can follow it.
      obtain ⟨semicolon, newline, hsemicolon, hnewline, hkept, hfound⟩ := hended
      obtain ⟨rfl, -, -, -⟩ := keptSimple_eq_some (Nat.le_refl n) hlt hkept
      refine ⟨statement.tokens ++ [semicolon], newline, by simp, hnewline, by simp, fun hplain => ?_⟩
      refine absurd ?_ (hplain ";".toList)
      rw [lexemes_append, List.getLast?_append, lexemes_cons, hsemicolon]
      rfl
    · obtain ⟨semicolon, middle, more, hsemicolon, hmiddle, hkept, hline, hfound⟩ := hmore
      obtain ⟨init, rfl, rfl⟩ : ∃ others, init = statement :: others ∧ more = others ++ [last] := by
        cases init with
        | nil =>
          obtain ⟨-, rfl⟩ := List.cons.inj hfound
          exact absurd rfl (simpleLine_ne_nil hline)
        | cons s others =>
          obtain ⟨rfl, rfl⟩ := List.cons.inj hfound
          exact ⟨others, rfl, rfl⟩
      obtain ⟨rfl, hinside, -, hagain⟩ := keptSimple_eq_some (Nat.le_of_lt hnm) hlt hkept
      have hlt' : weight (lexemes middle) < n :=
        weight_lt_of_cons (Nat.lt_of_le_of_lt (weight_append_le rfl) hlt)
      obtain ⟨front, newline, rfl, hnewline, hne, hread⟩ := ih (Nat.le_of_succ_le_succ hk) hlt' hline
      rw [firstLexeme?_append hne] at hmiddle
      refine ⟨statement.tokens ++ semicolon :: front, newline, by simp, hnewline, by simp, fun hplain => ?_⟩
      have hplain' : EndsPlain front := by
        rw [List.append_cons] at hplain
        exact hplain.of_append
      have hsegment : ∀ {taken : List Token} {token : Token} (tokens : List Token),
          lexemes taken = lexemes statement.tokens → token.lexeme = sym ";" →
            segment (taken ++ token :: tokens) = lexemes statement.tokens ++ [sym ";"] := by
        intro taken token tokens htaken htoken
        rw [segment_append (htaken ▸ hinside), segment_cons_semicolon htoken, htaken]
      refine ⟨(hread hplain').1.cons hsemicolon hne hmiddle hagain, .inr ⟨fun hmem => ?_, fun y z hy => ?_⟩⟩
      · rw [hsegment _ rfl hsemicolon] at hmem
        rcases List.mem_append.mp hmem with hmem | hmem
        · cases hinside _ hmem
        · cases List.mem_singleton.mp hmem
      · obtain ⟨extra, hextra⟩ := hy
        rw [lexemes_append, lexemes_cons, List.append_assoc] at hextra
        obtain ⟨taken, after, rfl, htaken, hafter⟩ := List.map_eq_append_iff.mp hextra.symm
        obtain ⟨semicolon', y', rfl, hsemicolon', -⟩ := List.map_eq_cons_iff.mp hafter
        rw [hsemicolon] at hsemicolon'
        rw [List.append_assoc, List.cons_append, hsegment _ htaken hsemicolon', hsegment _ rfl hsemicolon]

theorem statement_ne_nil {x rest : List Token} {found : List Statement}
    (h : statement n x = some (found, rest)) : found ≠ [] := by
  obtain ⟨⟨o, tokens⟩, middle, -, hrest⟩ := bind_eq_some h
  cases o with
  | some action =>
    cases hrest
    simp
  | none => exact simpleLine_ne_nil hrest

/-- Statements of which the last one imports from a module are a line, and with one more name they are
read as before. -/
theorem statement_extend (hnm : n < m) {x rest : List Token} {init : List Statement} {last : Statement}
    {path : Text} {names : List Alias} (hlt : weight (lexemes x) < n)
    (h : statement n x = some (init ++ [last], rest))
    (haction : last.action = .importFrom 0 (some path) names) :
    ∃ front newline, x = front ++ newline :: rest ∧ newline.lexeme = .newline ∧ front ≠ [] ∧
      (EndsPlain front → ReadsExtended front init last (statement m)) := by
  obtain ⟨n, rfl⟩ : ∃ k, n = k + 1 := ⟨n - 1, by omega⟩
  obtain ⟨m, rfl⟩ : ∃ k, m = k + 1 := ⟨m - 1, by omega⟩
  obtain ⟨⟨o, tokens⟩, middle, hwith, hrest⟩ := bind_eq_some h
  have hcompound := withTokens_eq_some hwith
  cases o with
  | some action =>
    -- Statements that hold blocks do not import.
    obtain ⟨hfound, -⟩ := Prod.mk.inj (Option.some.inj hrest)
    obtain ⟨-, heq⟩ := List.append_inj' (show [] ++ [_] = init ++ [last] from hfound) rfl
    cases heq
    exact absurd haction
      ((Gives.compoundStatement x _ middle hcompound action rfl).elsewhere 0 (some path) names)
  | none =>
    obtain ⟨rfl, -⟩ :=
      (Offers.compoundStatement (Repeats.blockAt (Nat.le_refl _) (Nat.le_refl _) (Nat.le_refl _)
      (Nat.le_refl _)) (Nat.le_refl _) (Nat.le_refl _) (Nat.le_refl _)).missing x middle hlt hcompound
    obtain ⟨front, newline, rfl, hnewline, hne, hread⟩ :=
      simpleLine_extend hnm (Nat.le_of_lt hnm) hlt hrest haction
    refine ⟨front, newline, rfl, hnewline, hne, fun hplain new y newline' rest' hy hnewline' => ?_⟩
    obtain ⟨hline, hstart⟩ := hread hplain
    obtain ⟨init', last', hrun, hinit, hextends⟩ := hline new y newline' rest' hy hnewline'
    have hfirst := firstLexeme?_extended hne hy (newline :: rest) (newline' :: rest')
    have hnone : compoundStatement (m + 1) (blockAt (m + 1) (m + 1)) (y ++ newline' :: rest') =
        some (none, y ++ newline' :: rest') := by
      rcases hstart with hfrom | ⟨hnewlines, hsegment⟩
      · exact compoundStatement_of_first (show ¬ opensBlock (kw "from") by decide) (hfirst.trans hfrom)
      · have hsame := hsegment y (newline' :: rest') (hy ▸ List.prefix_append _ _)
        have hweight := weight_segment_le (front ++ newline :: rest)
        refine compoundStatement_none_of_first hcompound hfirst ?_ (hsame ▸ hnewlines) (by simp)
        rw [hsame]
        omega
    refine ⟨init', last', ?_, hinit, hextends⟩
    rw [statement_of_none hnone]
    exact hrun

/-! ### A script with one more name -/

theorem eq_nil_of_program_nil {x : List Token} (h : Program n x []) : x = [] := by
  generalize hfound : ([] : List Statement) = found at h
  cases h with
  | nil => rfl
  | cons hfirst hmore => exact absurd (List.append_eq_nil_iff.mp hfound.symm).1 (statement_ne_nil hfirst)

/-- A script whose last statement imports from a module. It ends with its line, and with one more name
it is the same script, except for the last statement. -/
theorem Program.extend (hnm : n < m) {x : List Token} {init : List Statement} {last : Statement}
    {path : Text} {names : List Alias} (h : Program n x (init ++ [last]))
    (hlt : weight (lexemes x) < n) (haction : last.action = .importFrom 0 (some path) names) :
    ∃ front newline, x = front ++ [newline] ∧ newline.lexeme = .newline ∧ front ≠ [] ∧
      (EndsPlain front → ∀ new y newline', lexemes y = lexemes front ++ sym "," :: Imported.lexemes new →
        newline'.lexeme = .newline → ∃ init' last', Program m (y ++ [newline']) (init' ++ [last']) ∧
          init'.map Statement.gist = init.map Statement.gist ∧ Extends new last last') := by
  generalize hfound : init ++ [last] = found at h
  induction h generalizing init with
  | nil => exact absurd hfound (by simp)
  | @cons x rest first more hfirst hmore ih =>
    rcases List.eq_nil_or_concat' more with rfl | ⟨more, final, rfl⟩
    · obtain rfl := eq_nil_of_program_nil hmore
      rw [List.append_nil] at hfound
      subst hfound
      obtain ⟨front, newline, hx, hnewline, hne, hread⟩ := statement_extend hnm hlt hfirst haction
      refine ⟨front, newline, hx, hnewline, hne, fun hplain new y newline' hy hnewline' => ?_⟩
      obtain ⟨init', last', hrun, hinit, hextends⟩ := hread hplain new y newline' [] hy hnewline'
      have hprogram := Program.cons hrun .nil
      rw [List.append_nil] at hprogram
      exact ⟨init', last', hprogram, hinit, hextends⟩
    · rw [← List.append_assoc] at hfound
      obtain ⟨rfl, heq⟩ := List.append_inj' hfound rfl
      cases heq
      obtain ⟨taken, rfl, -, hagain⟩ :=
        statement_repeated (Nat.le_refl n) (Nat.le_of_lt hnm) (Nat.le_of_lt hnm) hlt hfirst
      obtain ⟨front, newline, rfl, hnewline, hne, hread⟩ :=
        ih (Nat.lt_of_le_of_lt (weight_append_le rfl) hlt) rfl
      refine ⟨taken ++ front, newline, by rw [List.append_assoc], hnewline, by simp [hne],
        fun hplain new y newline' hy hnewline' => ?_⟩
      rw [lexemes_append, List.append_assoc] at hy
      obtain ⟨taken', y, rfl, htaken, hy⟩ := List.map_eq_append_iff.mp hy
      obtain ⟨init', last', hprogram, hinit, hextends⟩ := hread hplain.of_append new y newline' hy hnewline'
      have halike : StartAlike goesOn (front ++ [newline]) (y ++ [newline']) := by
        intro l _
        rw [firstLexeme?_extended hne hy [newline] [newline']]
      obtain ⟨first', hfirst', hgists⟩ := hagain taken' (y ++ [newline']) htaken halike
      refine ⟨first' ++ init', last', ?_, by rw [List.map_append, List.map_append, hgists, hinit], hextends⟩
      rw [List.append_assoc, List.append_assoc]
      exact .cons hfirst' hprogram

end Caret.Script.Parser
