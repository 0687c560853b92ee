import Caret.Proofs.Script.Further
import Caret.Proofs.Script.Imported

/-!
# The text of an import

Names, keywords, dots and commas as the lexer reads them from a text, up to the text of a whole import.
Each fact is about one spot inside a line and says how the lexer passes over what stands there.
-/

namespace Caret.Script

/-- A word that is a name: an identifier and no keyword. -/
def PlainName (word : Text) : Prop :=
  Text.isIdentifier word = true ∧ isKeyword word = false

instance : DecidablePred PlainName :=
  fun word => inferInstanceAs (Decidable (Text.isIdentifier word = true ∧ isKeyword word = false))

namespace Lexer

open Number (continuesName)
open Caret.Script.Parser (sym kw pathLexemes boundLexemes importedLexemes fromLexemes
  Imported)

/-! ### Words -/

/-- A word that the lexer keeps together: a start of a name, and what a name goes on with. -/
def Coherent (word : Text) : Prop :=
  ∃ c cs, word = c :: cs ∧ (Text.isNameStart c = true ∨ 0x80 ≤ c.toNat) ∧
    ∀ d ∈ cs, continuesName d = true

theorem coherent_of_isIdentifier {word : Text} (h : Text.isIdentifier word = true) : Coherent word := by
  cases word with
  | nil => cases h
  | cons c cs =>
    rw [Text.isIdentifier, Bool.and_eq_true, List.all_eq_true] at h
    refine ⟨c, cs, rfl, ?_, fun d hd => ?_⟩
    · have hstart := h.1
      unfold Text.isIdentifierStart at hstart
      split at hstart
      · exact .inl hstart
      · rename_i hlarge
        exact .inr (Nat.le_of_not_lt hlarge)
    · have hrest := h.2 d hd
      unfold Text.isIdentifierRest at hrest
      unfold continuesName
      split at hrest
      · rw [hrest]
        rfl
      · rename_i hlarge
        simp [Nat.le_of_not_lt hlarge]

theorem startsLexeme_of_start {c : Char} (h : Text.isNameStart c = true ∨ 0x80 ≤ c.toNat) :
    startsLexeme c = true := by
  have hne : ∀ d : Char, continuesName d = false → c ≠ d := by
    rintro d hd rfl
    rw [continuesName_of_start h] at hd
    cases hd
  simp [startsLexeme, isCode, hne ' ' (by decide), hne '\t' (by decide), hne '\x0c' (by decide),
    hne '\\' (by decide), hne '\n' (by decide), hne '#' (by decide)]

theorem not_isAsciiDigit_of_start {c : Char} (h : Text.isNameStart c = true ∨ 0x80 ≤ c.toNat) :
    Text.isAsciiDigit c = false := by
  rw [Bool.eq_false_iff]
  intro hdigit
  have hc : 48 ≤ c.toNat ∧ c.toNat ≤ 57 := by
    simpa [Text.isAsciiDigit, Char.le_def, UInt32.le_iff_toNat_le] using hdigit
  rcases h with h | h
  · have hletter : ((97 ≤ c.toNat ∧ c.toNat ≤ 122) ∨ (65 ≤ c.toNat ∧ c.toNat ≤ 90)) ∨ c = '_' := by
      simpa [Text.isNameStart, Text.isAsciiLetter, Char.le_def, UInt32.le_iff_toNat_le] using h
    rcases hletter with hletter | rfl
    · omega
    · revert hc
      decide
  · omega

/-- Inside a line the lexer passes over the front of a text and comes to the rest of it. -/
def Spans (text : Text) (out : List Lexeme) (rest : Text) : Prop :=
  ∀ levels due, Passes ⟨text, false, levels, due⟩ out ⟨rest, false, levels, due⟩

theorem Spans.trans {text middle rest : Text} {out out' : List Lexeme} (h : Spans text out middle)
    (h' : Spans middle out' rest) : Spans text (out ++ out') rest :=
  fun levels due => (h levels due).trans (h' levels due)

theorem spans_blank (rest : Text) : Spans (' ' :: rest) [] rest := by
  intro levels due
  have hblank : Step ⟨' ' :: rest, false, levels, due⟩ [] ⟨rest, false, levels, due⟩ := .blank (.inl rfl)
  exact hblank.passes

theorem spans_lexeme {c : Char} {cs rest : Text} {lexeme : Lexeme} (hstart : startsLexeme c = true)
    (hread : Reads (c :: cs) lexeme rest) (hdue : ∀ due, dueAfter due lexeme = some due) :
    Spans (c :: cs) [lexeme] rest :=
  fun _ due => (Step.lexeme hstart hread (hdue due)).passes

/-- The characters that end a word: neither does it go on with them, nor do they open a string whose
letters it could be. -/
def isBorder (c : Char) : Bool :=
  !continuesName c && !isQuote c

theorem isBorder_iff {c : Char} : isBorder c = true ↔ continuesName c = false ∧ isQuote c = false := by
  simp [isBorder]

theorem spans_word {word : Text} {lexeme : Lexeme} (hword : Coherent word)
    (hlexeme : wordLexeme? word = some lexeme) {c : Char} (hc : isBorder c = true) (rest : Text) :
    Spans (word ++ c :: rest) [lexeme] (c :: rest) := by
  obtain ⟨hc, hquote⟩ := isBorder_iff.mp hc
  obtain ⟨d, ds, rfl, hstart, hds⟩ := hword
  have hall : ∀ e ∈ d :: ds, continuesName e = true := by
    intro e he
    rcases List.mem_cons.mp he with rfl | he
    · exact continuesName_of_start hstart
    · exact hds e he
  have htake : (d :: (ds ++ c :: rest)).takeWhile continuesName = d :: ds := by
    rw [← List.cons_append, List.takeWhile_append_of_pos hall, List.takeWhile_cons, hc]
    simp
  have hdrop : (d :: (ds ++ c :: rest)).dropWhile continuesName = c :: rest := by
    rw [← List.cons_append, List.dropWhile_append_of_pos hall, List.dropWhile_cons, hc]
    simp
  have hletters : lettersBefore? (d :: ds) (c :: rest) = none := by
    simp [lettersBefore?, hquote]
  have hread : Reads (d :: (ds ++ c :: rest)) lexeme (c :: rest) := by
    refine ⟨0, 0, ?_⟩
    rw [lexeme?_word hstart, htake, hdrop, hletters]
    simp only [hlexeme, Option.map_some]
  refine spans_lexeme (startsLexeme_of_start hstart) hread fun due => ?_
  rcases wordLexeme?_eq_some hlexeme with rfl | rfl <;> rfl

theorem spans_name {word : Text} (hword : PlainName word) {c : Char} (hc : isBorder c = true)
    (rest : Text) : Spans (word ++ c :: rest) [.name word] (c :: rest) := by
  refine spans_word (coherent_of_isIdentifier hword.1) ?_ hc rest
  simp [wordLexeme?, hword.1, hword.2]

/-- A keyword and the blank behind it. -/
theorem spans_keyword (word : String) (hword : isKeyword word.toList = true)
    (hidentifier : Text.isIdentifier word.toList = true) (rest : Text) :
    Spans (word.toList ++ ' ' :: rest) [kw word] rest := by
  refine (spans_word (coherent_of_isIdentifier hidentifier) ?_ (by decide) rest).trans (spans_blank rest)
  simp [wordLexeme?, hword, kw]

theorem spans_import (rest : Text) : Spans ("import ".toList ++ rest) [kw "import"] rest :=
  spans_keyword "import" (by decide) (by decide) rest

theorem spans_from (rest : Text) : Spans ("from ".toList ++ rest) [kw "from"] rest :=
  spans_keyword "from" (by decide) (by decide) rest

theorem spans_as (rest : Text) : Spans ("as ".toList ++ rest) [kw "as"] rest :=
  spans_keyword "as" (by decide) (by decide) rest

/-! ### Symbols -/

theorem spans_comma (rest : Text) : Spans (',' :: rest) [sym ","] rest :=
  spans_lexeme (by decide) ⟨0, 0, rfl⟩ fun _ => rfl

/-- A dot in front of a word. -/
theorem spans_dot {word : Text} (hword : Coherent word) (rest : Text) :
    Spans ('.' :: (word ++ rest)) [sym "."] (word ++ rest) := by
  obtain ⟨c, cs, rfl, hc, -⟩ := hword
  rw [List.cons_append]
  generalize cs ++ rest = rest
  have hdot : '.' ≠ c := by
    rintro rfl
    revert hc
    decide
  have hdigit : Text.isAsciiDigit c = false := not_isAsciiDigit_of_start hc
  have hsymbol : symbol? ('.' :: c :: rest) = some (['.'], c :: rest) := by
    simp [symbol?, symbols, List.isPrefixOf, hdot]
  have hread : Reads ('.' :: c :: rest) (sym ".") (c :: rest) := by
    refine ⟨0, 0, ?_⟩
    rw [lexeme?_symbol (by decide) (by simpa [hdigit] using (by decide)) (by decide), hsymbol]
    rfl
  exact spans_lexeme (by decide) hread fun _ => rfl

/-! ### Imports -/

/-- A dotted name whose parts are names. -/
theorem spans_path {first : Text} {more : List Text} (hparts : ∀ part ∈ first :: more, PlainName part)
    {c : Char} (hc : isBorder c = true) (rest : Text) :
    Spans (Text.join ['.'] (first :: more) ++ c :: rest) (pathLexemes first more) (c :: rest) := by
  induction more generalizing first with
  | nil => exact spans_name (hparts first (by simp)) hc rest
  | cons next more ih =>
    have hjoin : Text.join ['.'] (first :: next :: more) ++ c :: rest =
        first ++ '.' :: (Text.join ['.'] (next :: more) ++ c :: rest) := by
      simp [Text.join]
    have hdot : Spans ('.' :: (Text.join ['.'] (next :: more) ++ c :: rest)) [sym "."]
        (Text.join ['.'] (next :: more) ++ c :: rest) := by
      obtain ⟨tail, htail⟩ : ∃ tail, Text.join ['.'] (next :: more) = next ++ tail := by
        cases more with
        | nil => exact ⟨[], (List.append_nil _).symm⟩
        | cons part more => exact ⟨_, List.append_assoc _ _ _⟩
      rw [htail, List.append_assoc]
      exact spans_dot (coherent_of_isIdentifier (hparts next (by simp)).1) (tail ++ c :: rest)
    rw [hjoin]
    exact (spans_name (hparts first (by simp)) (by decide) _).trans
      (hdot.trans (ih fun part hpart => hparts part (by simp [hpart])))

/-- The text that binds to a name, if there is one. -/
def boundText : Option Text → Text
  | some bound => " as ".toList ++ bound
  | none => []

theorem spans_bound {bound : Option Text} (hbound : ∀ name ∈ bound, PlainName name) {c : Char}
    (hc : isBorder c = true) (rest : Text) :
    Spans (boundText bound ++ c :: rest) (boundLexemes bound) (c :: rest) := by
  cases bound with
  | none => exact fun levels due more hmore => hmore
  | some name =>
    have htext : boundText (some name) ++ c :: rest = ' ' :: ("as ".toList ++ (name ++ c :: rest)) := by
      simp [boundText]
    rw [htext]
    exact (spans_blank _).trans ((spans_as _).trans (spans_name (hbound name rfl) hc rest))

/-- What may be bound is a space or the end. -/
theorem exists_border_boundText (bound : Option Text) {c : Char} (hc : isBorder c = true) (rest : Text) :
    ∃ d ds, boundText bound ++ c :: rest = d :: ds ∧ isBorder d = true := by
  cases bound with
  | none => exact ⟨c, rest, rfl, hc⟩
  | some name => exact ⟨' ', _, rfl, by decide⟩

/-- The text of an imported name. -/
def importedText (imported : Imported) : Text :=
  imported.name ++ boundText imported.bound

/-- An imported name and what it is bound to are names. -/
def PlainImport (imported : Imported) : Prop :=
  PlainName imported.name ∧ ∀ name ∈ imported.bound, PlainName name

theorem spans_imported {imported : Imported} (himported : PlainImport imported) {c : Char}
    (hc : isBorder c = true) (rest : Text) :
    Spans (importedText imported ++ c :: rest) imported.lexemes (c :: rest) := by
  have hbound := spans_bound himported.2 hc rest
  obtain ⟨d, ds, hborder, hd⟩ := exists_border_boundText imported.bound hc rest
  rw [importedText, List.append_assoc]
  rw [hborder] at hbound ⊢
  exact (spans_name himported.1 hd ds).trans hbound

/-- The text of an import of a module. -/
def moduleText (first : Text) (more : List Text) (bound : Option Text) : Text :=
  "import ".toList ++ (Text.join ['.'] (first :: more) ++ boundText bound)

/-- The text of an import of one name from a module. -/
def memberText (first : Text) (more : List Text) (imported : Imported) : Text :=
  "from ".toList ++ (Text.join ['.'] (first :: more) ++ (" import ".toList ++ importedText imported))

theorem spans_moduleText {first : Text} {more : List Text} {bound : Option Text}
    (hparts : ∀ part ∈ first :: more, PlainName part) (hbound : ∀ name ∈ bound, PlainName name)
    {c : Char} (hc : isBorder c = true) (rest : Text) :
    Spans (moduleText first more bound ++ c :: rest)
      (kw "import" :: (pathLexemes first more ++ boundLexemes bound)) (c :: rest) := by
  have hbound := spans_bound hbound hc rest
  obtain ⟨d, ds, hborder, hd⟩ := exists_border_boundText bound hc rest
  have htext : moduleText first more bound ++ c :: rest =
      "import ".toList ++ (Text.join ['.'] (first :: more) ++ d :: ds) := by
    unfold moduleText
    generalize "import ".toList = keyword
    rw [List.append_assoc, List.append_assoc, hborder]
  rw [hborder] at hbound
  rw [htext]
  have hpath := spans_path hparts hd ds
  exact (spans_import _).trans (hpath.trans hbound)

theorem spans_memberText {first : Text} {more : List Text} {imported : Imported}
    (hparts : ∀ part ∈ first :: more, PlainName part) (himported : PlainImport imported)
    {c : Char} (hc : isBorder c = true) (rest : Text) :
    Spans (memberText first more imported ++ c :: rest)
      (kw "from" :: fromLexemes first more imported []) (c :: rest) := by
  have hnames : Spans (' ' :: ("import ".toList ++ (importedText imported ++ c :: rest)))
      (kw "import" :: imported.lexemes) (c :: rest) :=
    (spans_blank _).trans ((spans_import _).trans (spans_imported himported hc rest))
  have hpath := spans_path hparts (show isBorder ' ' = true by decide)
    ("import ".toList ++ (importedText imported ++ c :: rest))
  have hlexemes : fromLexemes first more imported [] =
      pathLexemes first more ++ kw "import" :: imported.lexemes := by
    rw [fromLexemes, importedLexemes, List.flatMap_nil, List.append_nil]
  have htext : memberText first more imported ++ c :: rest = "from ".toList ++
      (Text.join ['.'] (first :: more) ++ ' ' :: ("import ".toList ++
        (importedText imported ++ c :: rest))) := by
    unfold memberText
    generalize "from ".toList = keyword
    rw [List.append_assoc, List.append_assoc, List.append_assoc]
    rfl
  rw [htext, hlexemes]
  exact (spans_from _).trans (hpath.trans hnames)

end Lexer

end Caret.Script
