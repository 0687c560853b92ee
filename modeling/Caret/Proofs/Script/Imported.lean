import Caret.Proofs.Script.Program

/-!
# How import statements are spelled

The parsers for names, dotted names and imported names read exactly the lexemes that spell these. Read
from left to right this says what a statement that was read is made of, from right to left that a
statement made of such lexemes is read.
-/

namespace Caret.Script.Parser

variable {α σ : Type} {n : Nat}

/-! ### Lists with separators -/

/-- A parser reads what certain lexemes spell. Before some lexemes, which it would take too, it does
not. -/
def Spells (spelling : σ → List Lexeme) (value : σ → α) (takes : σ → Lexeme → Prop)
    (item : Parser α) : Prop :=
  ∀ x a rest, item x = some (a, rest) ↔ ∃ s tokens, x = tokens ++ rest ∧ lexemes tokens = spelling s ∧
    value s = a ∧ ∀ l, takes s l → firstLexeme? rest ≠ some l

/-- A further item behind its separator, if there is one. -/
def separated (separator : Lexeme) (item : Parser α) : Parser (Option α) := do
  if ← accept separator then return some (← item) else return none

variable {spelling : σ → List Lexeme} {value : σ → α} {takes : σ → Lexeme → Prop} {item : Parser α}
  {separator : Lexeme}

theorem separated_of_ne {x : List Token} (hx : firstLexeme? x ≠ some separator) :
    separated separator item x = some (none, x) := by
  rw [separated, bind_apply, accept_apply, if_neg hx]
  rfl

theorem many_separated_cons {token : Token} (htoken : token.lexeme = separator) (x : List Token) :
    many (separated separator item) (n + 1) (token :: x) = sepBy item separator n x := by
  have hfirst : firstLexeme? (token :: x) = some separator := congrArg some htoken
  have hround : separated separator item (token :: x) = (item >>= fun a => pure (some a)) x := by
    rw [separated, bind_apply, accept_apply, if_pos hfirst]
    rfl
  rw [many, bind_apply, hround, sepBy, bind_apply, bind_apply]
  rcases item x with _ | ⟨a, rest⟩ <;> rfl

/-- What may not follow a list: a separator, and what its last item would take. -/
def EndsBefore (takes : σ → Lexeme → Prop) (separator : Lexeme) (items : List σ) (rest : List Token) :
    Prop :=
  firstLexeme? rest ≠ some separator ∧
    ∀ s ∈ items.getLast?, ∀ l, takes s l → firstLexeme? rest ≠ some l

/-- A loop reads further items, each behind its separator. -/
def ReadsFurther (spelling : σ → List Lexeme) (value : σ → α) (takes : σ → Lexeme → Prop)
    (separator : Lexeme) (n : Nat) (loop : Parser (List α)) : Prop :=
  ∀ x found rest, loop x = some (found, rest) ↔ ∃ items tokens, items.length < n ∧ x = tokens ++ rest ∧
    lexemes tokens = items.flatMap (fun s => separator :: spelling s) ∧ items.map value = found ∧
      EndsBefore takes separator items rest

/-- Lists read their first item and further ones, if the loop for these reads them. -/
theorem sepBy_iff_of (h : Spells spelling value takes item) (hseparator : ∀ s, ¬ takes s separator)
    (hloop : ReadsFurther spelling value takes separator n (many (separated separator item) n))
    {x rest : List Token} {found : List α} :
    sepBy item separator n x = some (found, rest) ↔
      ∃ first items tokens, items.length < n ∧ x = tokens ++ rest ∧
        lexemes tokens = spelling first ++ items.flatMap (fun s => separator :: spelling s) ∧
          (first :: items).map value = found ∧ EndsBefore takes separator (first :: items) rest := by
  constructor
  · intro hrun
    obtain ⟨a, middle, hitem, hmore⟩ := bind_eq_some hrun
    obtain ⟨more, last, hmany, hlast⟩ := bind_eq_some hmore
    cases hlast
    obtain ⟨first, tokens, rfl, hfirst, rfl, htakes⟩ := (h x a middle).mp hitem
    obtain ⟨items, tokens', hlength, rfl, hitems, rfl, hends⟩ := (hloop middle more _).mp hmany
    refine ⟨first, items, tokens ++ tokens', hlength, by simp, ?_, rfl, hends.1, ?_⟩
    · rw [lexemes_append, hfirst, hitems]
    · cases items with
      | nil =>
        obtain rfl : tokens' = [] := by simpa [lexemes] using hitems
        simpa using htakes
      | cons s items => simpa using hends.2
  · rintro ⟨first, items, tokens, hlength, rfl, hspelled, rfl, hends⟩
    obtain ⟨spelled, more, rfl, hfirst, hmore⟩ := List.map_eq_append_iff.mp hspelled
    have htakes : ∀ l, takes first l → firstLexeme? (more ++ rest) ≠ some l := by
      intro l hl
      cases items with
      | nil =>
        obtain rfl : more = [] := by simpa using hmore
        exact hends.2 first (by simp) l hl
      | cons s items =>
        obtain ⟨t, more, rfl, ht, -⟩ := List.map_eq_cons_iff.mp hmore
        rintro hnext
        obtain rfl : separator = l := ht.symm.trans (Option.some.inj hnext)
        exact hseparator first hl
    have hitem := (h (spelled ++ (more ++ rest)) (value first) (more ++ rest)).mpr
      ⟨first, spelled, rfl, hfirst, rfl, htakes⟩
    have hmany := (hloop (more ++ rest) (items.map value) rest).mpr
      ⟨items, more, hlength, rfl, hmore, rfl, hends.1, by
        cases items with
        | nil => simp
        | cons s items => simpa using hends.2⟩
    rw [List.append_assoc, sepBy, bind_of_eq_some hitem]
    exact bind_of_eq_some hmany

theorem readsFurther (h : Spells spelling value takes item) (hseparator : ∀ s, ¬ takes s separator) :
    ReadsFurther spelling value takes separator n (many (separated separator item) n) := by
  induction n with
  | zero =>
    intro x found rest
    refine ⟨fun hx => (nomatch hx), ?_⟩
    rintro ⟨items, -, hlength, -⟩
    exact absurd hlength (Nat.not_lt_zero _)
  | succ n ih =>
    intro x found rest
    by_cases hx : firstLexeme? x = some separator
    · obtain ⟨token, y, rfl, htoken⟩ := exists_cons_of_firstLexeme? hx
      rw [many_separated_cons htoken, sepBy_iff_of h hseparator ih]
      constructor
      · rintro ⟨first, items, tokens, hlength, rfl, hspelled, rfl, hends⟩
        refine ⟨first :: items, token :: tokens, by simpa using hlength, rfl, ?_, rfl, hends⟩
        rw [lexemes_cons, hspelled, htoken]
        rfl
      · rintro ⟨items, tokens, hlength, htokens, hspelled, rfl, hends⟩
        cases items with
        | nil =>
          obtain rfl : tokens = [] := by simpa [lexemes] using hspelled
          obtain rfl : token :: y = rest := htokens
          exact absurd hx hends.1
        | cons first items =>
          obtain ⟨token', tokens, rfl, -, hspelled⟩ := List.map_eq_cons_iff.mp hspelled
          obtain ⟨-, rfl⟩ := List.cons.inj htokens
          exact ⟨first, items, tokens, by simpa using hlength, rfl, hspelled, rfl, hends⟩
    · rw [many, bind_of_eq_some (separated_of_ne hx)]
      constructor
      · intro hrun
        cases hrun
        exact ⟨[], [], by simp, rfl, rfl, rfl, hx, by simp⟩
      · rintro ⟨items, tokens, -, rfl, hspelled, rfl, -, -⟩
        cases items with
        | nil =>
          obtain rfl : tokens = [] := by simpa [lexemes] using hspelled
          rfl
        | cons s items =>
          obtain ⟨token, more, rfl, htoken, -⟩ := List.map_eq_cons_iff.mp hspelled
          exact absurd (congrArg some htoken) hx

theorem sepBy_iff (h : Spells spelling value takes item) (hseparator : ∀ s, ¬ takes s separator)
    {x rest : List Token} {found : List α} :
    sepBy item separator n x = some (found, rest) ↔
      ∃ first items tokens, items.length < n ∧ x = tokens ++ rest ∧
        lexemes tokens = spelling first ++ items.flatMap (fun s => separator :: spelling s) ∧
          (first :: items).map value = found ∧ EndsBefore takes separator (first :: items) rest :=
  sepBy_iff_of h hseparator (readsFurther h hseparator)

/-- A list of one item. -/
theorem sepBy_one {x rest : List Token} {a : α} (hitem : item x = some (a, rest))
    (hrest : firstLexeme? rest ≠ some separator) :
    sepBy item separator (n + 1) x = some ([a], rest) := by
  have hmany : many (separated separator item) (n + 1) rest = some ([], rest) := by
    rw [many, bind_of_eq_some (separated_of_ne hrest)]
    rfl
  rw [sepBy, bind_of_eq_some hitem]
  exact bind_of_eq_some hmany

/-! ### Names and what they are bound to -/

theorem spells_name :
    Spells (fun spelled : Text => [.name spelled]) Text.compatibilityForm (fun _ _ => False) name := by
  intro x a rest
  constructor
  · intro h
    rcases x with _ | ⟨⟨l, line, last⟩, x⟩
    · cases h
    · cases l with
      | name spelled =>
        cases h
        exact ⟨spelled, [_], rfl, rfl, rfl, fun _ h => h.elim⟩
      | _ => cases h
  · rintro ⟨spelled, tokens, rfl, hspelled, rfl, -⟩
    obtain ⟨⟨l, line, last⟩, nothing, rfl, hl, hnothing⟩ := List.map_eq_cons_iff.mp hspelled
    obtain rfl : nothing = [] := by simpa using hnothing
    obtain rfl : l = .name spelled := hl
    rfl

/-- The lexemes that spell the name to bind to, if there is one. -/
def boundLexemes : Option Text → List Lexeme
  | some bound => [kw "as", .name bound]
  | none => []

/-- A keyword would be taken by the name before it if that is not bound. -/
def takesBound (bound : Option Text) (lexeme : Lexeme) : Prop :=
  bound = none ∧ lexeme = kw "as"

theorem spells_boundName :
    Spells boundLexemes (Option.map Text.compatibilityForm) takesBound boundName := by
  intro x a rest
  rw [boundName, bind_apply, accept_apply]
  by_cases hfirst : firstLexeme? x = some (kw "as")
  · rw [if_pos hfirst]
    obtain ⟨token, y, rfl, htoken⟩ := exists_cons_of_firstLexeme? hfirst
    constructor
    · intro h
      obtain ⟨bound, last, hname, hlast⟩ := bind_eq_some h
      cases hlast
      obtain ⟨spelled, tokens, rfl, hspelled, rfl, -⟩ := (spells_name _ bound rest).mp hname
      refine ⟨some spelled, token :: tokens, rfl, ?_, rfl, fun l hl => nomatch hl.1⟩
      rw [lexemes_cons, hspelled, htoken]
      rfl
    · rintro ⟨bound, tokens, htokens, hspelled, rfl, htakes⟩
      cases bound with
      | none =>
        obtain rfl : tokens = [] := List.map_eq_nil_iff.mp hspelled
        obtain rfl : token :: y = rest := htokens
        exact absurd hfirst (htakes _ ⟨rfl, rfl⟩)
      | some bound =>
        obtain ⟨token', more, rfl, -, hmore⟩ := List.map_eq_cons_iff.mp hspelled
        obtain ⟨-, rfl⟩ := List.cons.inj htokens
        have hname := (spells_name _ _ rest).mpr ⟨bound, more, rfl, hmore, rfl, fun _ h => h.elim⟩
        exact bind_of_eq_some hname
  · rw [if_neg hfirst]
    constructor
    · intro h
      cases h
      exact ⟨none, [], rfl, rfl, rfl, fun l hl => hl.2 ▸ hfirst⟩
    · rintro ⟨bound, tokens, rfl, hspelled, rfl, -⟩
      cases bound with
      | none =>
        obtain rfl : tokens = [] := List.map_eq_nil_iff.mp hspelled
        rfl
      | some bound =>
        obtain ⟨token, more, rfl, htoken, -⟩ := List.map_eq_cons_iff.mp hspelled
        exact absurd (congrArg some htoken) hfirst

/-- A name that is imported, as it is spelled. -/
structure Imported where
  name : Text
  bound : Option Text

/-- The lexemes that spell an imported name. -/
def Imported.lexemes (imported : Imported) : List Lexeme :=
  .name imported.name :: boundLexemes imported.bound

/-- What an imported name stands for. -/
def Imported.alias (imported : Imported) : Alias :=
  ⟨Text.compatibilityForm imported.name, imported.bound.map Text.compatibilityForm⟩

theorem spells_importedName :
    Spells Imported.lexemes Imported.alias (fun imported => takesBound imported.bound) importedName := by
  intro x a rest
  constructor
  · intro h
    obtain ⟨name, middle, hname, hmore⟩ := bind_eq_some h
    obtain ⟨bound, last, hbound, hlast⟩ := bind_eq_some hmore
    cases hlast
    obtain ⟨spelled, tokens, rfl, hspelled, rfl, -⟩ := (spells_name x name middle).mp hname
    obtain ⟨spelled', tokens', rfl, hspelled', rfl, htakes⟩ := (spells_boundName middle bound rest).mp hbound
    refine ⟨⟨spelled, spelled'⟩, tokens ++ tokens', by simp, ?_, rfl, htakes⟩
    rw [Script.lexemes_append, hspelled, hspelled']
    rfl
  · rintro ⟨imported, tokens, rfl, hspelled, rfl, htakes⟩
    obtain ⟨spelled, more, rfl, hname, hmore⟩ :=
      List.map_eq_append_iff.mp (show Script.lexemes tokens = [_] ++ _ from hspelled)
    have hname := (spells_name (spelled ++ (more ++ rest)) _ (more ++ rest)).mpr
      ⟨imported.name, spelled, rfl, hname, rfl, fun _ h => h.elim⟩
    have hbound := (spells_boundName (more ++ rest) _ rest).mpr
      ⟨imported.bound, more, rfl, hmore, rfl, htakes⟩
    rw [List.append_assoc, importedName, bind_of_eq_some hname, bind_of_eq_some hbound]
    rfl

/-! ### Dotted names -/

/-- The lexemes that spell a dotted name. -/
def pathLexemes (first : Text) (more : List Text) : List Lexeme :=
  .name first :: more.flatMap fun part => [sym ".", .name part]

/-- What a dotted name stands for. -/
def pathOf (first : Text) (more : List Text) : Text :=
  Text.join ['.'] ((first :: more).map Text.compatibilityForm)

theorem dottedName_iff {x rest : List Token} {path : Text} :
    dottedName n x = some (path, rest) ↔
      ∃ first more tokens, more.length < n ∧ x = tokens ++ rest ∧
        lexemes tokens = pathLexemes first more ∧ pathOf first more = path ∧
          firstLexeme? rest ≠ some (sym ".") := by
  constructor
  · intro h
    obtain ⟨found, last, hfound, hlast⟩ := bind_eq_some h
    cases hlast
    obtain ⟨first, more, tokens, hlength, rfl, hspelled, rfl, hends, -⟩ :=
      (sepBy_iff spells_name fun _ h => h).mp hfound
    exact ⟨first, more, tokens, hlength, rfl, hspelled, rfl, hends⟩
  · rintro ⟨first, more, tokens, hlength, rfl, hspelled, rfl, hends⟩
    have hfound : sepBy name (sym ".") n (tokens ++ rest) =
        some ((first :: more).map Text.compatibilityForm, rest) :=
      (sepBy_iff spells_name fun _ h => h).mpr
        ⟨first, more, tokens, hlength, rfl, hspelled, rfl, hends, fun _ _ _ h => h.elim⟩
    exact bind_of_eq_some hfound

/-! ### Imports from a module -/

/-- The lexemes that spell names to import, with commas between them. -/
def importedLexemes (first : Imported) (more : List Imported) : List Lexeme :=
  first.lexemes ++ more.flatMap fun imported => sym "," :: imported.lexemes

theorem name_ne_sym (spelled : Text) (symbol : String) : Lexeme.name spelled ≠ sym symbol := nofun

theorem not_takesBound_comma (imported : Imported) : ¬ takesBound imported.bound (sym ",") :=
  fun h => nomatch h.2

theorem importedNames_of_spelled {tokens rest : List Token} {first : Imported} {more : List Imported}
    (hlength : more.length < n) (hspelled : lexemes tokens = importedLexemes first more)
    (hends : EndsBefore (fun imported : Imported => takesBound imported.bound)
      (sym ",") (first :: more) rest) :
    importedNames n (tokens ++ rest) = some ((first :: more).map Imported.alias, rest) := by
  have hfirst : firstLexeme? (tokens ++ rest) = some (.name first.name) := by
    obtain ⟨token, tokens, rfl, htoken, -⟩ := List.map_eq_cons_iff.mp hspelled
    exact congrArg some htoken
  have hplain : sepBy importedName (sym ",") n (tokens ++ rest) =
      some ((first :: more).map Imported.alias, rest) :=
    (sepBy_iff spells_importedName not_takesBound_comma).mpr
      ⟨first, more, tokens, hlength, rfl, hspelled, rfl, hends⟩
  rw [importedNames, bind_of_eq_some (accept_of_first (name_ne_sym _ _) hfirst)]
  simp only [Bool.false_eq_true, if_false]
  rw [bind_of_eq_some (accept_of_first (name_ne_sym _ _) hfirst)]
  exact hplain

/-- The dots in front of a module, one at a time or three. -/
def levelDots : Parser (Option Nat) := do
  if ← accept (sym ".") then return some 1
  else if ← accept (sym "...") then return some 3
  else return none

theorem levelDots_of_first {first : Lexeme} {x : List Token} (hx : firstLexeme? x = some first)
    (hdot : first ≠ sym ".") (hdots : first ≠ sym "...") : levelDots x = some (none, x) := by
  rw [levelDots, bind_of_eq_some (accept_of_first hdot hx)]
  simp only [Bool.false_eq_true, if_false]
  rw [bind_of_eq_some (accept_of_first hdots hx)]
  rfl

theorem levelDots_eq_some {x rest : List Token} {o : Option Nat} (h : levelDots x = some (o, rest)) :
    (o = none ∧ rest = x) ∨ ∃ k, o = some k ∧ 1 ≤ k := by
  rw [levelDots, bind_apply, accept_apply] at h
  by_cases hdot : firstLexeme? x = some (sym ".")
  · rw [if_pos hdot] at h
    cases h
    exact .inr ⟨1, rfl, Nat.le_refl _⟩
  · rw [if_neg hdot] at h
    simp only [Bool.false_eq_true, if_false] at h
    rw [bind_apply, accept_apply] at h
    by_cases hdots : firstLexeme? x = some (sym "...")
    · rw [if_pos hdots] at h
      cases h
      exact .inr ⟨3, rfl, by omega⟩
    · rw [if_neg hdots] at h
      cases h
      exact .inl ⟨rfl, rfl⟩

/-- No dots stand in front of the module. -/
theorem importLevel_eq_zero {x rest : List Token} (h : importLevel n x = some (0, rest)) :
    rest = x := by
  obtain ⟨dots, last, hdots, hlast⟩ := bind_eq_some h
  cases n with
  | zero => cases hdots
  | succ n =>
    obtain ⟨o, middle, hround, hmore⟩ := bind_eq_some hdots
    rcases levelDots_eq_some hround with ⟨rfl, rfl⟩ | ⟨k, rfl, hk⟩
    · cases hmore
      cases hlast
      rfl
    · obtain ⟨more, last', -, hmore'⟩ := bind_eq_some hmore
      cases hmore'
      obtain ⟨hsum, -⟩ := Prod.mk.inj (Option.some.inj hlast)
      rw [List.foldr_cons] at hsum
      omega

theorem importLevel_of_first {first : Lexeme} {x : List Token} (hx : firstLexeme? x = some first)
    (hdot : first ≠ sym ".") (hdots : first ≠ sym "...") : importLevel (n + 1) x = some (0, x) := by
  have hmany : many levelDots (n + 1) x = some ([], x) := by
    rw [many, bind_of_eq_some (levelDots_of_first hx hdot hdots)]
    rfl
  exact bind_of_eq_some hmany

/-- The lexemes that spell an import from a module, after its keyword. -/
def fromLexemes (first : Text) (more : List Text) (name : Imported) (names : List Imported) :
    List Lexeme :=
  pathLexemes first more ++ kw "import" :: importedLexemes name names

theorem endsBefore_newline {newline : Token} (hnewline : newline.lexeme = .newline)
    {names : List Imported} {rest : List Token} :
    EndsBefore (fun imported : Imported => takesBound imported.bound) (sym ",") names (newline :: rest) := by
  have hnext : firstLexeme? (newline :: rest) = some .newline := congrArg some hnewline
  refine ⟨by rw [hnext]; decide, fun imported _ l hl => ?_⟩
  rw [hnext, hl.2]
  decide

theorem importFrom_of_spelled {tokens rest : List Token} {first : Text} {more : List Text}
    {name : Imported} {names : List Imported} (hmore : more.length < n) (hnames : names.length < n)
    (hspelled : lexemes tokens = fromLexemes first more name names)
    (hends : EndsBefore (fun imported : Imported => takesBound imported.bound)
      (sym ",") (name :: names) rest) :
    importFrom n (tokens ++ rest) =
      some (.importFrom 0 (some (pathOf first more)) ((name :: names).map Imported.alias), rest) := by
  obtain ⟨n, rfl⟩ : ∃ k, n = k + 1 := ⟨n - 1, by omega⟩
  obtain ⟨path, after, rfl, hpath, hafter⟩ := List.map_eq_append_iff.mp hspelled
  obtain ⟨keyword, imported, rfl, hkeyword, himported⟩ := List.map_eq_cons_iff.mp hafter
  have hfirst : firstLexeme? (path ++ (keyword :: imported ++ rest)) = some (.name first) := by
    obtain ⟨token, path, rfl, htoken, -⟩ := List.map_eq_cons_iff.mp hpath
    exact congrArg some htoken
  have hnext : firstLexeme? (keyword :: imported ++ rest) = some (kw "import") := congrArg some hkeyword
  have hlevel := importLevel_of_first (n := n) hfirst (name_ne_sym _ _) (name_ne_sym _ _)
  have hnamed : isNext (kw "import") (path ++ (keyword :: imported ++ rest)) = some (false, _) :=
    isNext_of_first (show Lexeme.name first ≠ kw "import" from nofun) hfirst
  have hmodule : (some <$> dottedName (n + 1)) (path ++ (keyword :: imported ++ rest)) =
      some (some (pathOf first more), keyword :: imported ++ rest) := by
    have hdot : firstLexeme? (keyword :: imported ++ rest) ≠ some (sym ".") := by
      rw [hnext]
      decide
    have hdotted := dottedName_iff.mpr ⟨first, more, path, hmore, rfl, hpath, rfl, hdot⟩
    rw [map_apply, hdotted]
    rfl
  have hexpect : expect (kw "import") (keyword :: imported ++ rest) = some ((), imported ++ rest) := by
    rw [expect_apply, if_pos hnext]
    rfl
  rw [List.append_assoc, importFrom, bind_of_eq_some hlevel, bind_of_eq_some hnamed]
  simp only [Bool.false_and, Bool.false_eq_true, if_false]
  rw [bind_of_eq_some hmodule, bind_of_eq_some hexpect,
    bind_of_eq_some (importedNames_of_spelled hnames himported hends)]
  rfl

theorem isNext_apply (lexeme : Lexeme) (x : List Token) :
    isNext lexeme x = some (firstLexeme? x == some lexeme, x) := rfl

/-- The names that are imported are all of them, in parentheses, or spelled one after the other. -/
theorem spelled_of_importedNames {x rest : List Token} {names : List Alias}
    (hlt : weight (lexemes x) < n) (h : importedNames n x = some (names, rest)) :
    ∃ tokens, x = tokens ++ rest ∧
      ((∃ text, (lexemes tokens).getLast? = some (.symbol text)) ∨
        ∃ name others, others.length < n ∧ lexemes tokens = importedLexemes name others ∧
          (name :: others).map Imported.alias = names) := by
  rw [importedNames, bind_apply, accept_apply] at h
  by_cases hstar : firstLexeme? x = some (sym "*")
  · obtain ⟨token, y, rfl, htoken⟩ := exists_cons_of_firstLexeme? hstar
    rw [if_pos hstar] at h
    cases h
    exact ⟨[token], rfl, .inl ⟨_, by simp [htoken]; rfl⟩⟩
  rw [if_neg hstar] at h
  simp only [Bool.false_eq_true, if_false] at h
  rw [bind_apply, accept_apply] at h
  by_cases hopen : firstLexeme? x = some (sym "(")
  · obtain ⟨token, y, rfl, htoken⟩ := exists_cons_of_firstLexeme? hopen
    rw [if_pos hopen] at h
    simp only [if_true, List.tail_cons] at h
    obtain ⟨⟨items, ended⟩, middle, hlist, hclose⟩ := bind_eq_some h
    have hname : Agree anyway n importedName importedName := Agree.importedName
    have hagree := hname.commaList (Nat.le_refl n) (Nat.le_refl n)
    obtain ⟨taken, rfl, -⟩ := hagree.exists_taken (weight_lt_of_cons hlt) hlist
    cases items with
    | nil => cases hclose
    | cons item items =>
      obtain ⟨_, last, hexpect, hlast⟩ := bind_eq_some hclose
      cases hlast
      rw [expect_apply] at hexpect
      split at hexpect
      · rename_i hnext
        obtain ⟨close, after, rfl, hclosed⟩ := exists_cons_of_firstLexeme? hnext
        cases hexpect
        refine ⟨token :: taken ++ [close], by simp, .inl ⟨")".toList, ?_⟩⟩
        rw [lexemes_append, List.getLast?_append, lexemes_cons close, hclosed]
        rfl
      · cases hexpect
  · rw [if_neg hopen] at h
    obtain ⟨name, others, tokens, hlength, rfl, hspelled, rfl, -⟩ :=
      (sepBy_iff spells_importedName not_takesBound_comma).mp h
    exact ⟨tokens, rfl, .inr ⟨name, others, hlength, hspelled, rfl⟩⟩

/-- What an import from a module is made of, unless it ends in a symbol. -/
theorem spelled_of_importFrom {x rest : List Token} {path : Text} {names : List Alias}
    (hlt : weight (lexemes x) < n)
    (h : importFrom n x = some (.importFrom 0 (some path) names, rest)) :
    ∃ tokens, x = tokens ++ rest ∧
      ((∃ text, (lexemes tokens).getLast? = some (.symbol text)) ∨
        ∃ first more name others, more.length < n ∧ others.length < n ∧
          lexemes tokens = fromLexemes first more name others ∧ pathOf first more = path ∧
            (name :: others).map Imported.alias = names) := by
  obtain ⟨level, y, hlevel, hrest⟩ := bind_eq_some h
  rw [bind_of_eq_some (isNext_apply _ y)] at hrest
  by_cases hnamed : (firstLexeme? y == some (kw "import")) = true
  · -- Without a module the dots are all there is, so the level is not zero.
    simp only [hnamed, Bool.true_and] at hrest
    split at hrest
    · cases hrest
    · obtain ⟨module?, z, hmodule, himport⟩ := bind_eq_some hrest
      obtain ⟨_, names', -, himported⟩ := bind_eq_some himport
      obtain ⟨found, last, -, hlast⟩ := bind_eq_some himported
      cases hmodule
      cases hlast
  · simp only [hnamed, Bool.false_and, Bool.false_eq_true, if_false] at hrest
    obtain ⟨module?, z, hmodule, himport⟩ := bind_eq_some hrest
    obtain ⟨_, names', hexpect, himported⟩ := bind_eq_some himport
    obtain ⟨found, last, hfound, hlast⟩ := bind_eq_some himported
    cases hlast
    obtain rfl := importLevel_eq_zero hlevel
    rw [map_apply] at hmodule
    obtain ⟨⟨path', rest'⟩, hpath, heq⟩ := Option.map_eq_some_iff.mp hmodule
    cases heq
    obtain ⟨first, more, tokens, hmore, rfl, hspelled, hpathOf, -⟩ := dottedName_iff.mp hpath
    rw [expect_apply] at hexpect
    split at hexpect
    · rename_i hnext
      obtain ⟨keyword, after, rfl, hkeyword⟩ := exists_cons_of_firstLexeme? hnext
      cases hexpect
      have hlt' : weight (lexemes after) < n :=
        weight_lt_of_cons (Nat.lt_of_le_of_lt (weight_append_le rfl) hlt)
      obtain ⟨imported, rfl, hsymbol | ⟨name, others, hothers, hnames, halias⟩⟩ :=
        spelled_of_importedNames hlt' hfound
      · obtain ⟨text, htext⟩ := hsymbol
        refine ⟨tokens ++ keyword :: imported, by simp, .inl ⟨text, ?_⟩⟩
        rw [lexemes_append, lexemes_cons, List.getLast?_append, List.getLast?_cons, htext]
        rfl
      · refine ⟨tokens ++ keyword :: imported, by simp, .inr
          ⟨first, more, name, others, hmore, hothers, ?_, hpathOf, halias⟩⟩
        rw [lexemes_append, lexemes_cons, hspelled, hnames, hkeyword]
        rfl
    · cases hexpect

end Caret.Script.Parser
