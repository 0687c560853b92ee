import Caret.Proofs.Script.Spelling

/-!
# A line that imports

The text of one import, on a line of its own, is a script with one statement. What the statement does
can be read off the text: the parts of the module, the name, and the name that it is bound to.
-/

namespace Caret.Script

namespace Parser

variable {α : Type} {n : Nat}

/-! ### From lexemes to a statement -/

/-- A module to import and the name that it is bound to. -/
def importedModule (n : Nat) : Parser Alias := do
  return { name := ← dottedName n, bound := ← boundName }

theorem importModules_of_spelled {tokens rest : List Token} {first : Text} {more : List Text}
    {bound : Option Text} (hmore : more.length < n)
    (hspelled : lexemes tokens = pathLexemes first more ++ boundLexemes bound)
    (hrest : firstLexeme? rest = some .newline) :
    importModules n (tokens ++ rest) =
      some (.importModules [⟨pathOf first more, bound.map Text.compatibilityForm⟩], rest) := by
  obtain ⟨n, rfl⟩ : ∃ k, n = k + 1 := ⟨n - 1, by omega⟩
  obtain ⟨path, after, rfl, hpath, hafter⟩ := List.map_eq_append_iff.mp hspelled
  have hdot : firstLexeme? (after ++ rest) ≠ some (sym ".") := by
    cases bound with
    | none =>
      obtain rfl : after = [] := List.map_eq_nil_iff.mp hafter
      rw [List.nil_append, hrest]
      decide
    | some name =>
      obtain ⟨keyword, named, rfl, hkeyword, -⟩ := List.map_eq_cons_iff.mp hafter
      rw [List.cons_append, firstLexeme?, List.head?_cons, Option.map_some, hkeyword]
      decide
  have hdotted := dottedName_iff.mpr ⟨first, more, path, hmore, rfl, hpath, rfl, hdot⟩
  have hbound := (spells_boundName (after ++ rest) _ rest).mpr ⟨bound, after, rfl, hafter, rfl,
    fun l hl => by rw [hrest, hl.2]; decide⟩
  have hmodule : importedModule (n + 1) (path ++ (after ++ rest)) =
      some (⟨pathOf first more, bound.map Text.compatibilityForm⟩, rest) := by
    rw [importedModule, bind_of_eq_some hdotted, bind_of_eq_some hbound]
    rfl
  have hlist : sepBy (importedModule (n + 1)) (sym ",") (n + 1) (path ++ (after ++ rest)) =
      some ([_], rest) := sepBy_one hmodule (by rw [hrest]; decide)
  rw [List.append_assoc, importModules]
  exact bind_of_eq_some hlist

theorem simpleLine_one {p : Parser α} {k : Nat} {x rest : List Token} {a : α} {newline : Token}
    (hnewline : newline.lexeme = .newline) (hp : p x = some (a, newline :: rest)) :
    simpleLine p (k + 1) x = some ([a], rest) := by
  have hnext : firstLexeme? (newline :: rest) = some .newline := congrArg some hnewline
  have hexpect : expect .newline (newline :: rest) = some ((), rest) := by
    rw [expect_apply, if_pos hnext]
    rfl
  rw [simpleLine, bind_of_eq_some hp, bind_of_eq_some (accept_of_first (by decide) hnext)]
  simp only [Bool.false_eq_true, if_false]
  rw [bind_of_eq_some hexpect]
  rfl

variable [CharacterNames]

/-- A simple statement that makes up a line. -/
theorem statement_of_simple {taken rest : List Token} {newline : Token} {first : Lexeme}
    {action : Action} (hnewline : newline.lexeme = .newline) (hfirst : ¬ opensBlock first)
    (hx : firstLexeme? (taken ++ newline :: rest) = some first)
    (h : simpleStatement (n + 1) (taken ++ newline :: rest) = some (action, newline :: rest)) :
    statement (n + 1) (taken ++ newline :: rest) = some ([⟨action, taken⟩], rest) := by
  rw [statement_of_none (compoundStatement_of_first hfirst hx)]
  exact simpleLine_one hnewline (keptSimple_of_append h)

theorem simpleStatement_import {keyword : Token} (hkeyword : keyword.lexeme = kw "import")
    (tokens : List Token) : simpleStatement n (keyword :: tokens) = importModules n tokens := by
  have hfirst : firstLexeme? (keyword :: tokens) = some (kw "import") := congrArg some hkeyword
  rw [simpleStatement, peek_bind_apply, hfirst]
  rfl

theorem simpleStatement_from {keyword : Token} (hkeyword : keyword.lexeme = kw "from")
    (tokens : List Token) : simpleStatement n (keyword :: tokens) = importFrom n tokens := by
  have hfirst : firstLexeme? (keyword :: tokens) = some (kw "from") := congrArg some hkeyword
  rw [simpleStatement, peek_bind_apply, hfirst]
  rfl

/-- A line that imports a module. -/
theorem statement_import {tokens : List Token} {first : Text} {more : List Text} {bound : Option Text}
    (hmore : more.length < n)
    (hspelled : lexemes tokens =
      kw "import" :: (pathLexemes first more ++ boundLexemes bound) ++ [.newline]) :
    ∃ taken, lexemes taken = kw "import" :: (pathLexemes first more ++ boundLexemes bound) ∧
      statement n tokens = some ([⟨.importModules
        [⟨pathOf first more, bound.map Text.compatibilityForm⟩], taken⟩], []) := by
  obtain ⟨n, rfl⟩ : ∃ k, n = k + 1 := ⟨n - 1, by omega⟩
  obtain ⟨taken, last, rfl, htaken, hlast⟩ := List.map_eq_append_iff.mp hspelled
  obtain ⟨newline, nothing, rfl, hnewline, hnothing⟩ := List.map_eq_cons_iff.mp hlast
  obtain rfl : nothing = [] := List.map_eq_nil_iff.mp hnothing
  obtain ⟨keyword, taken, rfl, hkeyword, hpath⟩ := List.map_eq_cons_iff.mp htaken
  refine ⟨keyword :: taken, htaken, statement_of_simple hnewline (show ¬ opensBlock (kw "import") by decide)
    (congrArg some hkeyword) ?_⟩
  rw [List.cons_append, simpleStatement_import hkeyword]
  exact importModules_of_spelled hmore hpath (congrArg some hnewline)

/-- A line that imports a name from a module. -/
theorem statement_from {tokens : List Token} {first : Text} {more : List Text} {imported : Imported}
    (hmore : more.length < n)
    (hspelled : lexemes tokens = kw "from" :: fromLexemes first more imported [] ++ [.newline]) :
    ∃ taken, lexemes taken = kw "from" :: fromLexemes first more imported [] ∧
      statement n tokens =
        some ([⟨.importFrom 0 (some (pathOf first more)) [imported.alias], taken⟩], []) := by
  obtain ⟨n, rfl⟩ : ∃ k, n = k + 1 := ⟨n - 1, by omega⟩
  obtain ⟨taken, last, rfl, htaken, hlast⟩ := List.map_eq_append_iff.mp hspelled
  obtain ⟨newline, nothing, rfl, hnewline, hnothing⟩ := List.map_eq_cons_iff.mp hlast
  obtain rfl : nothing = [] := List.map_eq_nil_iff.mp hnothing
  obtain ⟨keyword, taken, rfl, hkeyword, hnames⟩ := List.map_eq_cons_iff.mp htaken
  refine ⟨keyword :: taken, htaken, statement_of_simple hnewline (show ¬ opensBlock (kw "from") by decide)
    (congrArg some hkeyword) ?_⟩
  have hno : ([] : List Imported).length < n + 1 := Nat.zero_lt_succ n
  rw [List.cons_append, simpleStatement_from hkeyword]
  exact importFrom_of_spelled hmore hno hnames (endsBefore_newline hnewline)

end Parser

/-! ### From text to lexemes -/

namespace Lexer

open Number (continuesName)

/-- The characters that the text of an import is made of. -/
def isInline (c : Char) : Bool :=
  continuesName c || c == ' ' || c == '.'

theorem isInline_of_plainName {word : Text} (hword : PlainName word) :
    ∀ c ∈ word, isInline c = true := by
  obtain ⟨d, ds, rfl, hstart, hds⟩ := coherent_of_isIdentifier hword.1
  intro c hc
  have hname : continuesName c = true := by
    rcases List.mem_cons.mp hc with rfl | hc
    · exact continuesName_of_start hstart
    · exact hds c hc
  simp [isInline, hname]

theorem isInline_join {parts : List Text} (hparts : ∀ part ∈ parts, PlainName part) :
    ∀ c ∈ Text.join ['.'] parts, isInline c = true := by
  fun_induction Text.join ['.'] parts with
  | case1 => simp
  | case2 part => exact isInline_of_plainName (hparts part (by simp))
  | case3 part next parts ih =>
    intro c hc
    rcases List.mem_append.mp hc with hc | hc
    · rcases List.mem_append.mp hc with hc | hc
      · exact isInline_of_plainName (hparts part (by simp)) c hc
      · obtain rfl := List.mem_singleton.mp hc
        decide
    · exact ih (fun part hpart => hparts part (by simp [hpart])) c hc

theorem isInline_boundText {bound : Option Text} (hbound : ∀ name ∈ bound, PlainName name) :
    ∀ c ∈ boundText bound, isInline c = true := by
  have has : ∀ c ∈ " as ".toList, isInline c = true := Text.forall_mem_of_all (by decide)
  cases bound with
  | none => exact fun c hc => nomatch hc
  | some name =>
    intro c hc
    exact (List.mem_append.mp hc).elim (has c) (isInline_of_plainName (hbound name rfl) c)

theorem isInline_importedText {imported : Parser.Imported} (himported : PlainImport imported) :
    ∀ c ∈ importedText imported, isInline c = true := by
  intro c hc
  exact (List.mem_append.mp hc).elim (isInline_of_plainName himported.1 c)
    (isInline_boundText himported.2 c)

/-- The tokens of a line. -/
theorem tokens?_line {c : Char} {cs : Text} {out : List Lexeme}
    (hinline : ∀ d ∈ c :: cs, isInline d = true) (hstart : startsLexeme c = true)
    (h : Spans (c :: cs ++ ['\n']) out ['\n']) :
    ∃ tokens, tokens? (c :: cs ++ ['\n']) = some tokens ∧ lexemes tokens = out ++ [.newline] := by
  have hfree : ∀ d, isInline d = false → d ≠ '\n' → d ∉ c :: cs ++ ['\n'] := by
    intro d hd hbreak hmem
    rcases List.mem_append.mp hmem with hmem | hmem
    · rw [hinline d hmem] at hd
      cases hd
    · exact hbreak (List.mem_singleton.mp hmem)
  have hunified : Text.unifyBreaks (c :: cs ++ ['\n']) = c :: cs ++ ['\n'] :=
    Text.unifyBreaks_of_not_mem (hfree '\r' (by decide) (by decide))
  have hends : EndsInBreak (c :: cs ++ ['\n']) := .inl List.getLast?_concat
  have hprepared : prepared (c :: cs ++ ['\n']) = c :: cs ++ ['\n'] := by
    have hprepared := prepared_unifyBreaks hends
    rwa [hunified] at hprepared
  have hlead : Leads (c :: cs ++ ['\n']) c (cs ++ ['\n']) ⟨0, 0⟩ := by
    simp only [startsLexeme, Bool.and_eq_true] at hstart
    exact ⟨0, 0, leading_code hstart.1.1 _ _ _ _⟩
  have hspent : Spent [] := ⟨0, _, _, rfl⟩
  have hend : Lexes ⟨['\n'], false, [], []⟩ [.newline] := .step .lineEnd (.done hspent)
  refine tokens?_iff.mpr ⟨hfree '\x00' (by decide) (by decide), ?_⟩
  rw [hprepared]
  have hline := Step.line hlead hstart (show reindent ⟨0, 0⟩ [] = some ([], []) from rfl)
  exact hline.passes _ (h [] [] _ hend)

end Lexer

/-! ### From text to a script -/

open Lexer

theorem length_le_join (sep : Char) (first : Text) (more : List Text) :
    more.length ≤ (Text.join [sep] (first :: more)).length := by
  induction more generalizing first with
  | nil => exact Nat.zero_le _
  | cons next more ih =>
    have hle := ih next
    simp only [Text.join, List.length_append, List.length_cons] at hle ⊢
    omega

variable [CharacterNames]

/-- A script of one statement, from its tokens. -/
theorem parse?_of_statement {source : Text} {found : List Lexeme} {gist : Action × List Lexeme}
    (htokens : ∃ tokens, tokens? source = some tokens ∧ lexemes tokens = found)
    (hstatement : ∀ tokens, lexemes tokens = found → ∃ statement : Statement, statement.gist = gist ∧
      Parser.statement (fuelFor source) tokens = some ([statement], [])) :
    ∃ statement : Statement, parse? source = some [statement] ∧ statement.gist = gist := by
  obtain ⟨tokens, htokens, hfound⟩ := htokens
  obtain ⟨statement, hgist, hrun⟩ := hstatement tokens hfound
  exact ⟨statement, parse?_iff.mpr ⟨tokens, htokens, .cons hrun .nil⟩, hgist⟩

/-- The line that imports a module is a script of this import. -/
theorem parse?_moduleText {first : Text} {more : List Text} {bound : Option Text}
    (hparts : ∀ part ∈ first :: more, PlainName part) (hbound : ∀ name ∈ bound, PlainName name) :
    ∃ statement : Statement, parse? (moduleText first more bound ++ ['\n']) = some [statement] ∧
      statement.gist = (.importModules [⟨Parser.pathOf first more, bound.map Text.compatibilityForm⟩],
        Parser.kw "import" :: (Parser.pathLexemes first more ++ Parser.boundLexemes bound)) := by
  have hspans := spans_moduleText hparts hbound (show isBorder '\n' = true by decide) []
  have hinline : ∀ c ∈ moduleText first more bound, isInline c = true := by
    have himport : ∀ c ∈ "import ".toList, isInline c = true := Text.forall_mem_of_all (by decide)
    intro c hc
    rcases List.mem_append.mp hc with hc | hc
    · exact himport c hc
    · exact (List.mem_append.mp hc).elim (isInline_join hparts c) (isInline_boundText hbound c)
  have hlength : more.length < fuelFor (moduleText first more bound ++ ['\n']) := by
    have hle := length_le_join '.' first more
    unfold fuelFor moduleText
    generalize "import ".toList = keyword
    simp only [List.length_append]
    omega
  refine parse?_of_statement (tokens?_line hinline (by decide) hspans) fun tokens htokens => ?_
  obtain ⟨taken, htaken, hrun⟩ := Parser.statement_import hlength htokens
  exact ⟨_, congrArg (Prod.mk _) htaken, hrun⟩

/-- The line that imports a name from a module is a script of this import. -/
theorem parse?_memberText {first : Text} {more : List Text} {imported : Parser.Imported}
    (hparts : ∀ part ∈ first :: more, PlainName part) (himported : PlainImport imported) :
    ∃ statement : Statement, parse? (memberText first more imported ++ ['\n']) = some [statement] ∧
      statement.gist = (.importFrom 0 (some (Parser.pathOf first more)) [imported.alias],
        Parser.kw "from" :: Parser.fromLexemes first more imported []) := by
  have hspans := spans_memberText hparts himported (show isBorder '\n' = true by decide) []
  have hinline : ∀ c ∈ memberText first more imported, isInline c = true := by
    have hfrom : ∀ c ∈ "from ".toList, isInline c = true := Text.forall_mem_of_all (by decide)
    have himport : ∀ c ∈ " import ".toList, isInline c = true := Text.forall_mem_of_all (by decide)
    intro c hc
    rcases List.mem_append.mp hc with hc | hc
    · exact hfrom c hc
    · rcases List.mem_append.mp hc with hc | hc
      · exact isInline_join hparts c hc
      · exact (List.mem_append.mp hc).elim (himport c) (isInline_importedText himported c)
  have hlength : more.length < fuelFor (memberText first more imported ++ ['\n']) := by
    have hle := length_le_join '.' first more
    unfold fuelFor memberText
    generalize "from ".toList = keyword
    generalize " import ".toList = keyword'
    simp only [List.length_append]
    omega
  refine parse?_of_statement (tokens?_line hinline (by decide) hspans) fun tokens htokens => ?_
  obtain ⟨taken, htaken, hrun⟩ := Parser.statement_from hlength htokens
  exact ⟨_, congrArg (Prod.mk _) htaken, hrun⟩

end Caret.Script
