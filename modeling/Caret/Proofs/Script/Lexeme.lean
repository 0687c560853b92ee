import Caret.Script.Lexer
import Caret.Proofs.Script.Number
import Caret.Proofs.Script.Token
import Mathlib.Data.List.Find

/-!
# Reading one lexeme

What the lexer does at one place, as facts that need no unfolding: how much of the text a lexeme takes,
that the number of the line plays no part in what is read, and that a lexeme in front of a line feed
is the same lexeme in front of a comma or of more text.
-/

namespace Caret.Script.Lexer

/-! ### The blanks in front of a line -/

theorem leading_space (cs : Text) (depth : Depth) (joined line : Nat) :
    leading (' ' :: cs) depth joined line =
      leading cs ⟨depth.column + 1, depth.narrow + 1⟩ joined line := by
  rw [leading.eq_def]; rfl

theorem leading_tab (cs : Text) (depth : Depth) (joined line : Nat) :
    leading ('\t' :: cs) depth joined line =
      leading cs ⟨(depth.column / 8 + 1) * 8, depth.narrow + 1⟩ joined line := by
  rw [leading.eq_def]; rfl

theorem leading_feed (cs : Text) (depth : Depth) (joined line : Nat) :
    leading ('\x0c' :: cs) depth joined line = leading cs ⟨0, 0⟩ joined line := by
  rw [leading.eq_def]; rfl

theorem leading_splice {text : Text} (htext : text ≠ []) (depth : Depth) (joined line : Nat) :
    leading ('\\' :: '\n' :: text) depth joined line =
      leading text depth (if joined = 0 then depth.column else joined) (line + 1) := by
  obtain ⟨d, more, rfl⟩ := List.exists_cons_of_ne_nil htext
  rfl

/-- A character that is not passed over in front of a line. -/
def isCode (c : Char) : Bool :=
  c != ' ' && c != '\t' && c != '\x0c' && c != '\\'

theorem leading_code {c : Char} (hc : isCode c = true) (cs : Text) (depth : Depth)
    (joined line : Nat) : leading (c :: cs) depth joined line =
      some (c :: cs, if joined = 0 then depth else ⟨joined, joined⟩, line) := by
  simp only [isCode, Bool.and_eq_true, bne_iff_ne, ne_eq] at hc
  obtain ⟨⟨⟨hspace, htab⟩, hfeed⟩, hslash⟩ := hc
  rw [leading.eq_def]
  simp [hspace, htab, hfeed, hslash]

/-- A line's code starts with none of the characters that are passed over in front of it. What follows
its first character plays no part in finding it, and neither does the number of the line. -/
theorem leading_code_cases {text rest : Text} {depth found : Depth} {joined line last : Nat} {c : Char}
    (h : leading text depth joined line = some (c :: rest, found, last)) :
    isCode c = true ∧ ∃ raw, text = raw ++ c :: rest ∧ ∀ more line', ∃ last',
      leading (raw ++ c :: more) depth joined line' = some (c :: more, found, last') := by
  fun_induction leading text depth joined line with
  | case1 => cases h
  | case2 cs depth joined line ih =>
    obtain ⟨hcode, raw, rfl, hraw⟩ := ih h
    exact ⟨hcode, ' ' :: raw, rfl, fun more line' => by rw [List.cons_append, leading_space]; exact hraw _ _⟩
  | case3 cs depth joined line _ ih =>
    obtain ⟨hcode, raw, rfl, hraw⟩ := ih h
    exact ⟨hcode, '\t' :: raw, rfl, fun more line' => by rw [List.cons_append, leading_tab]; exact hraw _ _⟩
  | case4 cs depth joined line _ _ ih =>
    obtain ⟨hcode, raw, rfl, hraw⟩ := ih h
    exact ⟨hcode, '\x0c' :: raw, rfl,
      fun more line' => by rw [List.cons_append, leading_feed]; exact hraw _ _⟩
  | case5 depth joined line _ _ _ d more ih =>
    obtain ⟨hcode, raw, hcs, hraw⟩ := ih h
    refine ⟨hcode, '\\' :: '\n' :: raw, by rw [hcs]; rfl, fun more line' => ?_⟩
    rw [List.cons_append, List.cons_append, leading_splice (by simp)]
    exact hraw _ _
  | case6 => cases h
  | case7 d cs depth joined line hspace htab hfeed hslash =>
    cases h
    have hcode : isCode c = true := by
      simp only [isCode, Bool.and_eq_true, bne_iff_ne, ne_eq]
      exact ⟨⟨⟨hspace, htab⟩, hfeed⟩, hslash⟩
    exact ⟨hcode, [], rfl, fun more line' => ⟨line', leading_code hcode more depth joined line'⟩⟩

theorem isCode_of_leading {text rest : Text} {depth found : Depth} {joined line last : Nat} {c : Char}
    (h : leading text depth joined line = some (c :: rest, found, last)) : isCode c = true :=
  (leading_code_cases h).1

theorem leading_eq_some {text rest : Text} {depth found : Depth} {joined line last : Nat} {c : Char}
    (h : leading text depth joined line = some (c :: rest, found, last)) :
    ∃ raw, text = raw ++ c :: rest ∧ ∀ more line', ∃ last',
      leading (raw ++ c :: more) depth joined line' = some (c :: more, found, last') :=
  (leading_code_cases h).2

theorem leading_nil_anyLine {text : Text} {depth found : Depth} {joined line last : Nat}
    (h : leading text depth joined line = some ([], found, last)) (line' : Nat) :
    ∃ last', leading text depth joined line' = some ([], found, last') := by
  fun_induction leading text depth joined line generalizing line' with
  | case1 => cases h; exact ⟨line', rfl⟩
  | case2 cs depth joined line ih => rw [leading_space]; exact ih h line'
  | case3 cs depth joined line _ ih => rw [leading_tab]; exact ih h line'
  | case4 cs depth joined line _ _ ih => rw [leading_feed]; exact ih h line'
  | case5 depth joined line _ _ _ d more ih =>
    rw [leading_splice (by simp)]
    exact ih h (line' + 1)
  | case6 => cases h
  | case7 d cs depth joined line hspace htab hfeed hslash => cases h

/-- A text that ends in a line feed has more than blanks in it. -/
theorem getLast?_of_leading_nil {text : Text} {depth found : Depth} {joined line last : Nat}
    (h : leading text depth joined line = some ([], found, last)) : text.getLast? ≠ some '\n' := by
  fun_induction leading text depth joined line with
  | case1 => simp
  | case2 cs depth joined line ih =>
    cases cs with
    | nil => decide
    | cons d ds => exact ih h
  | case3 cs depth joined line _ ih =>
    cases cs with
    | nil => decide
    | cons d ds => exact ih h
  | case4 cs depth joined line _ _ ih =>
    cases cs with
    | nil => decide
    | cons d ds => exact ih h
  | case5 depth joined line _ _ _ d more ih => exact ih h
  | case6 => cases h
  | case7 d cs depth joined line hspace htab hfeed hslash => cases h

/-! ### Strings -/

/-- A string of one line is its body and a quote; what follows plays no part, and neither does the
number of the line. -/
theorem shortString?_eq_some {quote : Char} {text body rest : Text} {line last : Nat}
    (h : shortString? quote text line = some (body, rest, last)) :
    text = body ++ quote :: rest ∧ ∀ more line', ∃ last',
      shortString? quote (body ++ quote :: more) line' = some (body, more, last') := by
  have hclosed : ∀ more line', ∃ last',
      shortString? quote ([] ++ quote :: more) line' = some ([], more, last') := by
    intro more line'
    refine ⟨line', ?_⟩
    cases more <;> simp [shortString?]
  fun_induction shortString? quote text line generalizing body rest last with
  | case1 => cases h
  | case2 line =>
    cases h
    exact ⟨rfl, hclosed⟩
  | case3 => cases h
  | case4 d cs line =>
    cases h
    exact ⟨rfl, hclosed⟩
  | case5 => cases h
  | case6 d cs line hquote hbreak ih =>
    obtain ⟨⟨body', rest', last'⟩, hstring, heq⟩ := Option.map_eq_some_iff.mp h
    cases heq
    obtain ⟨rfl, hmore⟩ := ih hstring
    refine ⟨rfl, fun more line' => ?_⟩
    obtain ⟨last'', hlast⟩ := hmore more (if d = '\n' then line' + 1 else line')
    refine ⟨last'', ?_⟩
    simp only [List.cons_append]
    rw [shortString?.eq_def]
    simp [hquote, hlast]
  | case7 c d cs line hquote hbreak hslash ih =>
    obtain ⟨⟨body', rest', last'⟩, hstring, heq⟩ := Option.map_eq_some_iff.mp h
    cases heq
    obtain ⟨htext, hmore⟩ := ih hstring
    refine ⟨by rw [htext]; rfl, fun more line' => ?_⟩
    obtain ⟨last'', hlast⟩ := hmore more line'
    refine ⟨last'', ?_⟩
    obtain ⟨e, es, hes⟩ := List.exists_cons_of_ne_nil (show body' ++ quote :: more ≠ [] by simp)
    rw [hes] at hlast
    simp only [List.cons_append, hes]
    rw [shortString?.eq_def]
    simp [hquote, hbreak, hslash, hlast]

/-- A string that three quotes end is its body and the quotes; what follows plays no part. -/
theorem longString?_eq_some {quote : Char} (hquote : quote ≠ '\\') {text body rest : Text}
    {line last : Nat} (h : longString? quote text line = some (body, rest, last)) :
    text = body ++ quote :: quote :: quote :: rest ∧ ∀ more line', ∃ last',
      longString? quote (body ++ quote :: quote :: quote :: more) line' = some (body, more, last') := by
  fun_induction longString? quote text line generalizing body rest last with
  | case1 c d e cs line hclosed =>
    obtain ⟨rfl, rfl, rfl⟩ := hclosed
    cases h
    refine ⟨rfl, fun more line' => ⟨line', ?_⟩⟩
    rw [List.nil_append, longString?.eq_def]
    simp
  | case2 d e cs line hopen ih =>
    obtain ⟨⟨body', rest', last'⟩, hstring, heq⟩ := Option.map_eq_some_iff.mp h
    cases heq
    obtain ⟨htext, hmore⟩ := ih hstring
    refine ⟨by rw [htext]; rfl, fun more line' => ?_⟩
    obtain ⟨last'', hlast⟩ := hmore more (if d = '\n' then line' + 1 else line')
    refine ⟨last'', ?_⟩
    obtain ⟨f, fs, hfs⟩ := List.exists_cons_of_ne_nil
      (show body' ++ quote :: quote :: quote :: more ≠ [] by simp)
    rw [hfs] at hlast
    simp only [List.cons_append, hfs]
    rw [longString?.eq_def]
    simp [Ne.symm hquote, hlast]
  | case3 c d e cs line hopen hslash ih =>
    obtain ⟨⟨body', rest', last'⟩, hstring, heq⟩ := Option.map_eq_some_iff.mp h
    cases heq
    obtain ⟨htext, hmore⟩ := ih hstring
    refine ⟨by rw [htext]; rfl, fun more line' => ?_⟩
    obtain ⟨last'', hlast⟩ := hmore more (if c = '\n' then line' + 1 else line')
    refine ⟨last'', ?_⟩
    -- The two characters after the first are in the body or among its closing quotes.
    obtain ⟨fs, hfs⟩ : ∃ fs, body' ++ quote :: quote :: quote :: more = d :: e :: fs := by
      rcases body' with _ | ⟨x, _ | ⟨y, ys⟩⟩
      · cases htext
        exact ⟨_, rfl⟩
      · cases htext
        exact ⟨_, rfl⟩
      · cases htext
        exact ⟨_, rfl⟩
    rw [hfs] at hlast
    simp only [List.cons_append, hfs]
    rw [longString?.eq_def]
    simp only [hopen, hslash, if_false, hlast]
    rfl
  | case4 => cases h

/-- Whether a character opens a string. -/
def isQuote (c : Char) : Bool :=
  c == '\'' || c == '"'

theorem isQuote_iff {c : Char} : isQuote c = true ↔ c = '\'' ∨ c = '"' := by
  simp [isQuote]

/-- A string takes its body and the quotes around it. What follows plays no part, except that an empty
string is not followed by another quote, and neither does the number of the line. -/
theorem string?_eq_some {quote : Char} (hquote : isQuote quote = true) {text body rest : Text}
    {line last : Nat} (h : string? (quote :: text) line = some (body, rest, last)) :
    ∃ raw, text = raw ++ quote :: rest ∧ body.length ≤ raw.length ∧
      (raw = [] → rest.head? ≠ some quote) ∧
      ∀ more line', (raw = [] → more.head? ≠ some quote) → ∃ last',
        string? (quote :: raw ++ quote :: more) line' = some (body, more, last') := by
  have hslash : quote ≠ '\\' := by rcases isQuote_iff.mp hquote with rfl | rfl <;> decide
  have hshort : ∀ text, shortString? quote text line = some (body, rest, last) →
      ¬(∃ s tail, text = quote :: s :: tail ∧ s = quote) →
      ∃ raw, text = raw ++ quote :: rest ∧ body.length ≤ raw.length ∧
        (raw = [] → rest.head? ≠ some quote) ∧
        ∀ more line', (raw = [] → more.head? ≠ some quote) → ∃ last',
          string? (quote :: raw ++ quote :: more) line' = some (body, more, last') := by
    intro text hstring hnot
    obtain ⟨rfl, hmore⟩ := shortString?_eq_some hstring
    refine ⟨body, rfl, Nat.le_refl _, ?_, fun more line' hhead => ?_⟩
    · rintro rfl hrest
      cases rest with
      | nil => cases hrest
      | cons s tail => exact hnot ⟨s, tail, rfl, Option.some.inj hrest⟩
    obtain ⟨last', hlast⟩ := hmore more line'
    refine ⟨last', ?_⟩
    rw [← hlast]
    rcases body with _ | ⟨x, body⟩
    · cases more with
      | nil => rfl
      | cons y ys =>
        have hne : quote ≠ y := fun h => hhead rfl (by rw [h]; rfl)
        simp [string?, hne]
    · obtain ⟨y, ys, hys⟩ := List.exists_cons_of_ne_nil (show body ++ quote :: more ≠ [] by simp)
      simp only [List.cons_append, hys, string?]
      rw [if_neg]
      rintro ⟨rfl, rfl⟩
      rcases body with _ | ⟨z, body⟩
      · exact hnot ⟨quote, rest, rfl, rfl⟩
      · cases hys
        exact hnot ⟨quote, _, rfl, rfl⟩
  unfold string? at h
  split at h
  · rename_i q r s tail heq
    obtain ⟨rfl, rfl⟩ := List.cons.inj heq
    split at h
    · rename_i hthree
      obtain ⟨rfl, rfl⟩ := hthree
      obtain ⟨rfl, hmore⟩ := longString?_eq_some hslash h
      refine ⟨quote :: quote :: body ++ [quote, quote], by simp, by simp; omega,
        fun hnil => absurd hnil (by simp), fun more line' _ => ?_⟩
      obtain ⟨last', hlast⟩ := hmore more line'
      refine ⟨last', ?_⟩
      rw [← hlast]
      simp [string?]
    · rename_i hthree
      refine hshort _ h ?_
      rintro ⟨s', tail', heq', rfl⟩
      cases heq'
      exact hthree ⟨rfl, rfl⟩
  · rename_i q tail hfew heq
    cases heq
    refine hshort _ h ?_
    rintro ⟨s', tail', rfl, rfl⟩
    exact hfew _ _ _ rfl
  · cases h

/-! ### Words, symbols, and lexemes of every kind -/

theorem continuesName_of_start {c : Char} (h : Text.isNameStart c = true ∨ 0x80 ≤ c.toNat) :
    Number.continuesName c = true := by
  rcases h with h | h <;> simp [Number.continuesName, h]

theorem not_isQuote_of_isStop {c : Char} (h : isStop c = true) : isQuote c = false := by
  rcases isStop_iff.mp h with rfl | rfl | rfl | rfl | rfl | rfl <;> decide

theorem takeWhile_append_stop {p : Char → Bool} {stop : Char} (hp : p stop = false) (text rest : Text) :
    (text ++ stop :: rest).takeWhile p = text.takeWhile p := by
  induction text with
  | nil => simp [hp]
  | cons c cs ih =>
    simp only [List.cons_append, List.takeWhile_cons, ih]

theorem dropWhile_append_stop {p : Char → Bool} {stop : Char} (hp : p stop = false) (text rest : Text) :
    (text ++ stop :: rest).dropWhile p = text.dropWhile p ++ stop :: rest := by
  induction text with
  | nil => simp [hp]
  | cons c cs ih =>
    simp only [List.cons_append, List.dropWhile_cons, ih]
    split <;> rfl

/-- The symbols hold no stop behind their first character. -/
theorem isPrefixOf_symbol_append {symbol : Text} (hsymbol : symbol ∈ symbols) {text : Text}
    (htext : text ≠ []) {stop : Char} (hstop : isStop stop = true) (rest : Text) :
    symbol.isPrefixOf (text ++ stop :: rest) = symbol.isPrefixOf text := by
  have hall : ∀ symbol ∈ symbols, (symbol.tail.all fun c => decide (isStop c = false)) = true := by decide
  have htail : ∀ symbol ∈ symbols, ∀ c ∈ symbol.tail, isStop c = false :=
    fun symbol hmem => Text.forall_mem_of_all (hall symbol hmem)
  obtain ⟨c, cs, rfl⟩ := List.exists_cons_of_ne_nil htext
  cases symbol with
  | nil => rfl
  | cons s ss =>
    have hss : ∀ c ∈ ss, isStop c = false := htail _ hsymbol
    simp only [List.cons_append, List.isPrefixOf]
    rw [isPrefixOf_append_stop hss cs rest hstop]

theorem ne_nil_of_mem_symbols {symbol : Text} (h : symbol ∈ symbols) : symbol ≠ [] := by
  have hall : ∀ symbol ∈ symbols, symbol ≠ [] := by decide
  exact hall symbol h

theorem symbol?_eq_some {text symbol rest : Text} (h : symbol? text = some (symbol, rest)) :
    symbol ∈ symbols ∧ text = symbol ++ rest := by
  obtain ⟨found, hfound, heq⟩ := Option.map_eq_some_iff.mp h
  have hfront : found.isPrefixOf text = true :=
    List.find?_some (p := fun s : Text => s.isPrefixOf text) hfound
  have hprefix := List.isPrefixOf_iff_prefix.mp hfront
  cases heq
  exact ⟨List.mem_of_find?_eq_some hfound, List.prefix_append_drop hprefix⟩

theorem settled_symbol? {text : Text} (htext : text ≠ []) : Settled symbol? text := by
  refine ⟨symbol? text, fun stop rest hstop => ?_⟩
  have hfind : symbols.find? (·.isPrefixOf (text ++ stop :: rest)) =
      symbols.find? (·.isPrefixOf text) := by
    apply List.find?_congr
    intro symbol hsymbol
    exact isPrefixOf_symbol_append hsymbol htext hstop rest
  unfold symbol?
  rw [hfind]
  cases hfound : symbols.find? (·.isPrefixOf text) with
  | none => rfl
  | some symbol =>
    have hfront : symbol.isPrefixOf text = true :=
      List.find?_some (p := fun s : Text => s.isPrefixOf text) hfound
    have hprefix := List.isPrefixOf_iff_prefix.mp hfront
    simp only [Option.map_some, Option.some.injEq, Prod.mk.injEq, true_and]
    exact List.drop_append_of_le_length hprefix.length_le

/-- The lexeme that a word makes which is followed by no quote that it belongs to. -/
def wordLexeme? (word : Text) : Option Lexeme :=
  if isKeyword word then some (.keyword word)
  else if Text.isIdentifier word then some (.name word)
  else none

theorem wordLexeme?_eq_some {word : Text} {lexeme : Lexeme} (h : wordLexeme? word = some lexeme) :
    lexeme = .keyword word ∨ lexeme = .name word := by
  unfold wordLexeme? at h
  split at h
  · cases h
    exact .inl rfl
  · split at h
    · cases h
      exact .inr rfl
    · cases h

/-- The letters of a string, if a word is followed by a quote. -/
def lettersBefore? (word rest : Text) : Option (Text → Quotation) :=
  if (rest.head?).any isQuote then stringLetters? word else none

theorem lexeme?_word {c : Char} (hc : Text.isNameStart c = true ∨ 0x80 ≤ c.toNat) (cs : Text)
    (line : Nat) :
    lexeme? (c :: cs) line =
      match lettersBefore? ((c :: cs).takeWhile Number.continuesName)
          ((c :: cs).dropWhile Number.continuesName) with
      | some quotation =>
        (string? ((c :: cs).dropWhile Number.continuesName) line).map
          fun (body, rest, last) => (.string (quotation body), rest, last)
      | none => (wordLexeme? ((c :: cs).takeWhile Number.continuesName)).map
          (·, (c :: cs).dropWhile Number.continuesName, line) := by
  unfold lexeme?
  simp only [if_pos hc]
  generalize (c :: cs).takeWhile Number.continuesName = word
  generalize (c :: cs).dropWhile Number.continuesName = rest
  change (match lettersBefore? word rest with
    | some quotation => _
    | none => _) = _
  cases lettersBefore? word rest with
  | some quotation => rfl
  | none =>
    unfold wordLexeme?
    dsimp only
    split
    · rfl
    · split <;> rfl

theorem lexeme?_number {c : Char} (hstart : ¬(Text.isNameStart c = true ∨ 0x80 ≤ c.toNat)) {cs : Text}
    (hc : Text.isAsciiDigit c = true ∨ (c = '.' ∧ (cs.head?).any Text.isAsciiDigit = true))
    (line : Nat) :
    lexeme? (c :: cs) line = (Number.scan? (c :: cs)).map fun found => (.number found.1, found.2, line) := by
  unfold lexeme?
  simp only [if_neg hstart, if_pos hc]

theorem lexeme?_string {c : Char} (hc : isQuote c = true) (cs : Text) (line : Nat) :
    lexeme? (c :: cs) line = (string? (c :: cs) line).map fun (body, rest, last) =>
      (.string ⟨false, false, false, body⟩, rest, last) := by
  rcases isQuote_iff.mp hc with rfl | rfl <;> rfl

theorem lexeme?_symbol {c : Char} (hstart : ¬(Text.isNameStart c = true ∨ 0x80 ≤ c.toNat)) {cs : Text}
    (hnumber : ¬(Text.isAsciiDigit c = true ∨ (c = '.' ∧ (cs.head?).any Text.isAsciiDigit = true)))
    (hquote : isQuote c = false) (line : Nat) :
    lexeme? (c :: cs) line = (symbol? (c :: cs)).map fun found => (.symbol found.1, found.2, line) := by
  have hne : ¬(c = '\'' ∨ c = '"') := by
    rw [← isQuote_iff, hquote]
    decide
  unfold lexeme?
  simp only [if_neg hstart, if_neg hnumber, if_neg hne]

theorem body_of_stringLetters? {letters : Text} {quotation : Text → Quotation}
    (h : stringLetters? letters = some quotation) (body : Text) : (quotation body).body = body := by
  unfold stringLetters? at h
  dsimp only at h
  split_ifs at h <;> cases h <;> rfl

/-- A word with the letters of a string is followed by a quote. -/
theorem lettersBefore?_eq_some {word rest : Text} {quotation : Text → Quotation}
    (h : lettersBefore? word rest = some quotation) :
    stringLetters? word = some quotation ∧ ∃ quote text, isQuote quote = true ∧ rest = quote :: text := by
  unfold lettersBefore? at h
  split at h
  · rename_i hany
    cases rest with
    | nil => cases hany
    | cons quote text => exact ⟨h, quote, text, by simpa using hany, rfl⟩
  · cases h

/-! ### Lexemes by their kind -/

/-- A lexeme at the front of a text, what is left behind it, and the line on which it ends, for each kind
of lexeme there is. -/
inductive Scans (line : Nat) : Text → Lexeme → Text → Nat → Prop
  | lettered {c : Char} {cs body rest : Text} {quotation : Text → Quotation} {last : Nat}
      (hstart : Text.isNameStart c = true ∨ 0x80 ≤ c.toNat)
      (hletters : lettersBefore? ((c :: cs).takeWhile Number.continuesName)
        ((c :: cs).dropWhile Number.continuesName) = some quotation)
      (hstring : string? ((c :: cs).dropWhile Number.continuesName) line = some (body, rest, last)) :
      Scans line (c :: cs) (.string (quotation body)) rest last
  | word {c : Char} {cs : Text} {lexeme : Lexeme} (hstart : Text.isNameStart c = true ∨ 0x80 ≤ c.toNat)
      (hletters : lettersBefore? ((c :: cs).takeWhile Number.continuesName)
        ((c :: cs).dropWhile Number.continuesName) = none)
      (hword : wordLexeme? ((c :: cs).takeWhile Number.continuesName) = some lexeme) :
      Scans line (c :: cs) lexeme ((c :: cs).dropWhile Number.continuesName) line
  | number {c : Char} {cs rest : Text} {value : Numeral} (hstart : ¬(Text.isNameStart c = true ∨ 0x80 ≤ c.toNat))
      (hnumber : Text.isAsciiDigit c = true ∨ (c = '.' ∧ (cs.head?).any Text.isAsciiDigit = true))
      (hscan : Number.scan? (c :: cs) = some (value, rest)) : Scans line (c :: cs) (.number value) rest line
  | string {c : Char} {cs body rest : Text} {last : Nat} (hquote : isQuote c = true)
      (hstring : string? (c :: cs) line = some (body, rest, last)) :
      Scans line (c :: cs) (.string ⟨false, false, false, body⟩) rest last
  | symbol {c : Char} {cs symbol rest : Text} (hstart : ¬(Text.isNameStart c = true ∨ 0x80 ≤ c.toNat))
      (hnumber : ¬(Text.isAsciiDigit c = true ∨ (c = '.' ∧ (cs.head?).any Text.isAsciiDigit = true)))
      (hquote : isQuote c = false) (hsymbol : symbol? (c :: cs) = some (symbol, rest)) :
      Scans line (c :: cs) (.symbol symbol) rest line

/-- What is read is a lexeme of one of the kinds. -/
theorem lexeme?_eq_some_iff {text rest : Text} {lexeme : Lexeme} {line last : Nat} :
    lexeme? text line = some (lexeme, rest, last) ↔ Scans line text lexeme rest last := by
  constructor
  · intro h
    cases text with
    | nil => cases h
    | cons c cs =>
      by_cases hstart : Text.isNameStart c = true ∨ 0x80 ≤ c.toNat
      · rw [lexeme?_word hstart] at h
        split at h
        · rename_i quotation hletters
          obtain ⟨found, hstring, heq⟩ := Option.map_eq_some_iff.mp h
          cases heq
          exact .lettered hstart hletters hstring
        · rename_i hletters
          obtain ⟨found, hword, heq⟩ := Option.map_eq_some_iff.mp h
          cases heq
          exact .word hstart hletters hword
      by_cases hnumber : Text.isAsciiDigit c = true ∨ (c = '.' ∧ (cs.head?).any Text.isAsciiDigit = true)
      · rw [lexeme?_number hstart hnumber] at h
        obtain ⟨found, hscan, heq⟩ := Option.map_eq_some_iff.mp h
        cases heq
        exact .number hstart hnumber hscan
      cases hquote : isQuote c with
      | true =>
        rw [lexeme?_string hquote] at h
        obtain ⟨found, hstring, heq⟩ := Option.map_eq_some_iff.mp h
        cases heq
        exact .string hquote hstring
      | false =>
        rw [lexeme?_symbol hstart hnumber hquote] at h
        obtain ⟨found, hsymbol, heq⟩ := Option.map_eq_some_iff.mp h
        cases heq
        exact .symbol hstart hnumber hquote hsymbol
  · intro h
    cases h with
    | lettered hstart hletters hstring =>
      rw [lexeme?_word hstart, hletters]
      simp only [hstring, Option.map_some]
    | word hstart hletters hword =>
      rw [lexeme?_word hstart, hletters]
      simp only [hword, Option.map_some]
    | number hstart hnumber hscan => rw [lexeme?_number hstart hnumber, hscan, Option.map_some]
    | string hquote hstring => rw [lexeme?_string hquote, hstring, Option.map_some]
    | symbol hstart hnumber hquote hsymbol =>
      rw [lexeme?_symbol hstart hnumber hquote, hsymbol, Option.map_some]

/-- A lexeme takes at least half its weight of the text. -/
theorem weight_of_lexeme? {text rest : Text} {lexeme : Lexeme} {line last : Nat}
    (h : lexeme? text line = some (lexeme, rest, last)) :
    lexeme.weight + 2 * rest.length ≤ 2 * text.length := by
  have hword : ∀ {c : Char}, Text.isNameStart c = true ∨ 0x80 ≤ c.toNat → ∀ cs,
      ((c :: cs).dropWhile Number.continuesName).length < (c :: cs).length := by
    intro c hstart cs
    rw [List.dropWhile_cons, if_pos (continuesName_of_start hstart), List.length_cons]
    exact Nat.lt_succ_of_le (List.dropWhile_suffix _).length_le
  cases lexeme?_eq_some_iff.mp h with
  | @lettered _ cs _ _ _ _ hstart hletters hstring =>
    have hlength := hword hstart cs
    obtain ⟨hquotation, quote, after, hquote, hafter⟩ := lettersBefore?_eq_some hletters
    rw [hafter] at hstring hlength
    obtain ⟨raw, rfl, hbody, -⟩ := string?_eq_some hquote hstring
    simp only [Lexeme.weight, body_of_stringLetters? hquotation, List.length_append,
      List.length_cons] at hlength ⊢
    omega
  | @word _ cs _ hstart hletters hlexeme =>
    have hlength := hword hstart cs
    have hweight : lexeme.weight = 1 := by rcases wordLexeme?_eq_some hlexeme with rfl | rfl <;> rfl
    omega
  | number hstart hnumber hscan =>
    have hle := (Number.suffix_of_scan? (hnumber.imp_right (·.1)) hscan).length_le
    simp only [Lexeme.weight, List.length_cons]
    omega
  | string hquote hstring =>
    obtain ⟨raw, rfl, hbody, -⟩ := string?_eq_some hquote hstring
    simp only [Lexeme.weight, List.length_append, List.length_cons]
    omega
  | symbol hstart hnumber hquote hsymbol =>
    obtain ⟨hmem, htext⟩ := symbol?_eq_some hsymbol
    have hpos := List.length_pos_iff.mpr (ne_nil_of_mem_symbols hmem)
    rw [htext]
    simp only [Lexeme.weight, List.length_append]
    omega

/-- A symbol is left out of the text before it as it is, any other lexeme is read from an end of it. -/
theorem suffix_of_lexeme? {text rest : Text} {lexeme : Lexeme} {line last : Nat}
    (h : lexeme? text line = some (lexeme, rest, last)) :
    rest <:+ text ∧ ∀ symbol, lexeme = .symbol symbol → symbol ∈ symbols ∧ text = symbol ++ rest := by
  have hstring : ∀ {quote : Char} {text body : Text}, isQuote quote = true →
      string? (quote :: text) line = some (body, rest, last) → rest <:+ quote :: text := by
    intro quote text body hquote hread
    obtain ⟨raw, rfl, -⟩ := string?_eq_some hquote hread
    exact ((List.suffix_cons quote rest).trans (List.suffix_append raw _)).trans (List.suffix_cons _ _)
  cases lexeme?_eq_some_iff.mp h with
  | lettered hstart hletters hread =>
    obtain ⟨-, quote, after, hquote, hafter⟩ := lettersBefore?_eq_some hletters
    rw [hafter] at hread
    refine ⟨(hstring hquote hread).trans ?_, nofun⟩
    rw [← hafter]
    exact List.dropWhile_suffix _
  | word hstart hletters hword =>
    refine ⟨List.dropWhile_suffix _, ?_⟩
    rintro symbol rfl
    rcases wordLexeme?_eq_some hword with h | h <;> cases h
  | number hstart hnumber hscan =>
    have hsuffix := Number.suffix_of_scan? (hnumber.imp_right (·.1)) hscan
    exact ⟨hsuffix.trans (List.suffix_cons _ _), nofun⟩
  | string hquote hread => exact ⟨hstring hquote hread, nofun⟩
  | symbol hstart hnumber hquote hsymbol =>
    obtain ⟨hmem, htext⟩ := symbol?_eq_some hsymbol
    refine ⟨htext ▸ List.suffix_append _ _, ?_⟩
    rintro _ ⟨⟩
    exact ⟨hmem, htext⟩

/-! ### The line, and what follows a stop -/

/-- What is read does not depend on the number of the line. -/
theorem lexeme?_anyLine {text rest : Text} {lexeme : Lexeme} {line last : Nat}
    (h : lexeme? text line = some (lexeme, rest, last)) (line' : Nat) :
    ∃ last', lexeme? text line' = some (lexeme, rest, last') := by
  have hstring : ∀ {quote : Char} {text body : Text}, isQuote quote = true →
      string? (quote :: text) line = some (body, rest, last) →
      ∃ last', string? (quote :: text) line' = some (body, rest, last') := by
    intro quote text body hquote hread
    obtain ⟨raw, rfl, -, hrest, hmore⟩ := string?_eq_some hquote hread
    exact hmore rest line' hrest
  simp only [lexeme?_eq_some_iff] at h ⊢
  cases h with
  | lettered hstart hletters hread =>
    obtain ⟨-, quote, after, hquote, hafter⟩ := lettersBefore?_eq_some hletters
    rw [hafter] at hread
    obtain ⟨last', hlast⟩ := hstring hquote hread
    exact ⟨last', .lettered hstart hletters (hafter ▸ hlast)⟩
  | word hstart hletters hword => exact ⟨line', .word hstart hletters hword⟩
  | number hstart hnumber hscan => exact ⟨line', .number hstart hnumber hscan⟩
  | string hquote hread =>
    obtain ⟨last', hlast⟩ := hstring hquote hread
    exact ⟨last', .string hquote hlast⟩
  | symbol hstart hnumber hquote hsymbol => exact ⟨line', .symbol hstart hnumber hquote hsymbol⟩

/-- What is left of a text that ends in a line feed ends in it, unless nothing is left. -/
theorem exists_eq_append_break {text raw rest : Text} (h : text ++ ['\n'] = raw ++ rest)
    (hrest : rest ≠ []) : ∃ before, rest = before ++ ['\n'] ∧ text = raw ++ before := by
  obtain ⟨before, last, rfl⟩ := (List.eq_nil_or_concat' rest).resolve_left hrest
  rw [← List.append_assoc] at h
  obtain ⟨htext, hlast⟩ := List.append_inj' h rfl
  cases hlast
  exact ⟨before, rfl, htext⟩

theorem string?_before_stop {quote : Char} (hquote : isQuote quote = true) {text body rest : Text}
    {line last : Nat} (h : string? (quote :: (text ++ ['\n'])) line = some (body, rest, last)) :
    ∃ before, rest = before ++ ['\n'] ∧ ∀ stop more line', isStop stop = true → ∃ last',
      string? (quote :: (text ++ stop :: more)) line' = some (body, before ++ stop :: more, last') := by
  obtain ⟨raw, htext, -, hrest, hmore⟩ := string?_eq_some hquote h
  have hne : rest ≠ [] := by
    rintro rfl
    obtain ⟨-, hlast⟩ := List.append_inj' htext rfl
    cases hlast
    cases hquote
  have hsplit : text ++ ['\n'] = (raw ++ [quote]) ++ rest := by rw [htext]; simp
  obtain ⟨before, rfl, rfl⟩ := exists_eq_append_break hsplit hne
  refine ⟨before, rfl, fun stop more line' hstop => ?_⟩
  have hhead : raw = [] → (before ++ stop :: more).head? ≠ some quote := by
    intro hraw
    cases before with
    | nil =>
      intro heq
      have hstopped := not_isQuote_of_isStop hstop
      rw [Option.some.inj heq, hquote] at hstopped
      cases hstopped
    | cons d ds => exact hrest hraw
  obtain ⟨last', hlast⟩ := hmore (before ++ stop :: more) line' hhead
  refine ⟨last', ?_⟩
  rw [← hlast]
  simp

theorem takeWhile_name_before_stop {stop : Char} (hstop : isStop stop = true) (text more : Text) :
    (text ++ stop :: more).takeWhile Number.continuesName = text.takeWhile Number.continuesName :=
  takeWhile_append_stop (Number.not_continuesName_of_isStop hstop) text more

theorem dropWhile_name_before_stop {stop : Char} (hstop : isStop stop = true) (text more : Text) :
    (text ++ stop :: more).dropWhile Number.continuesName =
      text.dropWhile Number.continuesName ++ stop :: more :=
  dropWhile_append_stop (Number.not_continuesName_of_isStop hstop) text more

theorem lettersBefore?_before_stop {stop : Char} (hstop : isStop stop = true) (word after more : Text) :
    lettersBefore? word (after ++ stop :: more) = lettersBefore? word after := by
  cases after with
  | nil => simp [lettersBefore?, not_isQuote_of_isStop hstop]
  | cons d ds => rfl

theorem head?_digit_before_stop {stop : Char} (hstop : isStop stop = true) (text more : Text) :
    ((text ++ stop :: more).head?).any Text.isAsciiDigit = (text.head?).any Text.isAsciiDigit := by
  cases text with
  | nil => simp [Number.not_isAsciiDigit_of_isStop hstop]
  | cons d ds => rfl

/-- A lexeme in front of a line feed at the end of a text is the same lexeme in front of any stop, and
the stop and what follows it are left. -/
theorem lexeme?_before_stop {text rest : Text} {lexeme : Lexeme} {line last : Nat}
    (h : lexeme? (text ++ ['\n']) line = some (lexeme, rest, last)) :
    ∃ before, rest = before ++ ['\n'] ∧ ∀ stop more line', isStop stop = true → ∃ last',
      lexeme? (text ++ stop :: more) line' = some (lexeme, before ++ stop :: more, last') := by
  have hbreak : isStop '\n' = true := rfl
  cases text with
  | nil =>
    have hnone : lexeme? ['\n'] line = none := rfl
    rw [List.nil_append, hnone] at h
    cases h
  | cons c cs =>
    simp only [List.cons_append, lexeme?_eq_some_iff] at h ⊢
    cases h with
    | lettered hstart hletters hread =>
      rw [← List.cons_append, takeWhile_name_before_stop hbreak, dropWhile_name_before_stop hbreak,
        lettersBefore?_before_stop hbreak] at hletters
      rw [← List.cons_append, dropWhile_name_before_stop hbreak] at hread
      obtain ⟨-, quote, after, hquote, hafter⟩ := lettersBefore?_eq_some hletters
      rw [hafter] at hread
      obtain ⟨before, rfl, hmore⟩ := string?_before_stop hquote hread
      refine ⟨before, rfl, fun stop more line' hstop => ?_⟩
      obtain ⟨last', hlast⟩ := hmore stop more line' hstop
      refine ⟨last', .lettered hstart ?_ ?_⟩
      · rwa [← List.cons_append, takeWhile_name_before_stop hstop, dropWhile_name_before_stop hstop,
          lettersBefore?_before_stop hstop]
      · rwa [← List.cons_append, dropWhile_name_before_stop hstop, hafter]
    | word hstart hletters hword =>
      rw [← List.cons_append, takeWhile_name_before_stop hbreak, dropWhile_name_before_stop hbreak,
        lettersBefore?_before_stop hbreak] at hletters
      rw [← List.cons_append, takeWhile_name_before_stop hbreak] at hword
      refine ⟨_, dropWhile_name_before_stop hbreak (c :: cs) [], fun stop more line' hstop => ⟨line', ?_⟩⟩
      rw [← dropWhile_name_before_stop hstop]
      refine .word hstart ?_ ?_
      · rwa [← List.cons_append, takeWhile_name_before_stop hstop, dropWhile_name_before_stop hstop,
          lettersBefore?_before_stop hstop]
      · rwa [← List.cons_append, takeWhile_name_before_stop hstop]
    | number hstart hnumber hscan =>
      rw [head?_digit_before_stop hbreak] at hnumber
      obtain ⟨before, rfl, hmore⟩ := (Number.settled_scan? (c :: cs)).before_stop hscan
      refine ⟨before, rfl, fun stop more line' hstop => ⟨line', .number hstart ?_ (hmore stop more hstop)⟩⟩
      rwa [head?_digit_before_stop hstop]
    | string hquote hread =>
      obtain ⟨before, rfl, hmore⟩ := string?_before_stop hquote hread
      refine ⟨before, rfl, fun stop more line' hstop => ?_⟩
      obtain ⟨last', hlast⟩ := hmore stop more line' hstop
      exact ⟨last', .string hquote hlast⟩
    | symbol hstart hnumber hquote hsymbol =>
      rw [head?_digit_before_stop hbreak] at hnumber
      obtain ⟨before, rfl, hmore⟩ := (settled_symbol? (List.cons_ne_nil c cs)).before_stop hsymbol
      refine ⟨before, rfl, fun stop more line' hstop =>
        ⟨line', .symbol hstart ?_ hquote (hmore stop more hstop)⟩⟩
      rwa [head?_digit_before_stop hstop]

end Caret.Script.Lexer
