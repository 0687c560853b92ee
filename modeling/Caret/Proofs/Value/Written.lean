import Caret.Proofs.Text.Cut
import Caret.Proofs.Text.Utf8
import Caret.Value.Json
import Mathlib.Tactic.Common

/-!
# Reading written texts and numbers

What the writer makes of a text is read back as that text, whatever comes behind it. A number is read up
to a character that cannot be part of one, so what is read of its text by itself is also read of it in
front of a comma or a line break.
-/

namespace Caret.Json

/-! ### Escapes -/

theorem hexDigit?_digitChar {n : Nat} (hn : n < 16) : Text.hexDigit? n.digitChar = some n := by
  have hall : ∀ n : Fin 16, Text.hexDigit? (Nat.digitChar n) = some n.val := by decide
  exact hall ⟨n, hn⟩

/-- A number of four hexadecimal digits, digit by digit. -/
theorem hexDigits_four {n : Nat} (hn : n < 0x10000) :
    Text.hexDigits 4 n =
      [(n / 0x1000).digitChar, (n / 0x100 % 16).digitChar, (n / 0x10 % 16).digitChar,
        (n % 16).digitChar] := by
  have hone : ∀ m < 16, Nat.toDigits 16 m = [m.digitChar] := fun m hm => Nat.toDigits_of_lt_base hm
  have hmore : ∀ m, 16 ≤ m → Nat.toDigits 16 m = Nat.toDigits 16 (m / 16) ++ [(m % 16).digitChar] :=
    fun m hm => Nat.toDigits_of_base_le (by decide) hm
  have hzero : ∀ m, m = 0 → m.digitChar = '0' := by
    rintro m rfl
    rfl
  have hdiv : n / 16 / 16 = n / 0x100 ∧ n / 0x100 / 16 = n / 0x1000 := by omega
  rw [Text.hexDigits]
  rcases Nat.lt_or_ge n 16 with h₁ | h₁
  · rw [hone n h₁, hzero (n / 0x1000) (by omega), hzero (n / 0x100 % 16) (by omega),
      hzero (n / 0x10 % 16) (by omega), Nat.mod_eq_of_lt h₁]
    rfl
  rcases Nat.lt_or_ge n 0x100 with h₂ | h₂
  · rw [hmore n h₁, hone (n / 16) (by omega), hzero (n / 0x1000) (by omega),
      hzero (n / 0x100 % 16) (by omega), Nat.mod_eq_of_lt (by omega : n / 0x10 < 16)]
    rfl
  rcases Nat.lt_or_ge n 0x1000 with h₃ | h₃
  · rw [hmore n h₁, hmore (n / 16) (by omega), hdiv.1, hone (n / 0x100) (by omega),
      hzero (n / 0x1000) (by omega), Nat.mod_eq_of_lt (by omega : n / 0x100 < 16)]
    rfl
  · rw [hmore n h₁, hmore (n / 16) (by omega), hdiv.1, hmore (n / 0x100) (by omega), hdiv.2,
      hone (n / 0x1000) (by omega)]
    rfl

theorem hex4?_hexDigits {n : Nat} (hn : n < 0x10000) (rest : Text) :
    hex4? (Text.hexDigits 4 n ++ rest) = some (n, rest) := by
  have h₁ := hexDigit?_digitChar (by omega : n / 0x1000 < 16)
  have h₂ := hexDigit?_digitChar (by omega : n / 0x100 % 16 < 16)
  have h₃ := hexDigit?_digitChar (by omega : n / 0x10 % 16 < 16)
  have h₄ := hexDigit?_digitChar (by omega : n % 16 < 16)
  rw [hexDigits_four hn]
  simp only [List.cons_append, List.nil_append, hex4?, List.all_cons, List.all_nil, h₁, h₂, h₃, h₄,
    Option.isSome_some, Bool.and_self, if_true, Text.hexValue, List.foldl_cons, List.foldl_nil,
    Option.getD_some]
  congr 2
  omega

theorem string?_unitEscape {n : Nat} (hn : n < 0x10000) (fuel : Nat) (rest : Text) :
    string? (fuel + 1) (unitEscape n ++ rest) =
      (string? fuel (unit n rest).2).map fun (text, after) => ((unit n rest).1 :: text, after) := by
  rw [unitEscape, List.cons_append, List.cons_append, string?, if_neg (by decide), if_pos rfl]
  simp only [hex4?_hexDigits hn]

theorem toNat_range (c : Char) :
    c.toNat < 0xD800 ∨ (0xDFFF < c.toNat ∧ c.toNat < 0x110000) :=
  c.valid

theorem unit_toNat (c : Char) (rest : Text) : unit c.toNat rest = (c, rest) := by
  have hvalid := toNat_range c
  rw [unit.eq_def, if_neg (by omega), single, if_neg (by omega), Text.charOfNat_toNat]

/-- Two units stand for a character that one has no room for. -/
theorem unit_pair {c : Char} (hwide : 0x10000 ≤ c.toNat) (rest : Text) :
    unit (0xD800 + (c.toNat - 0x10000) / 0x400)
      (unitEscape (0xDC00 + (c.toNat - 0x10000) % 0x400) ++ rest) = (c, rest) := by
  have hvalid := toNat_range c
  have hsum : 0x10000 + (0xD800 + (c.toNat - 0x10000) / 0x400 - 0xD800) * 0x400 +
      (0xDC00 + (c.toNat - 0x10000) % 0x400 - 0xDC00) = c.toNat := by
    omega
  rw [unit.eq_def, if_pos (by omega), unitEscape, List.cons_append, List.cons_append]
  simp only [hex4?_hexDigits (by omega : 0xDC00 + (c.toNat - 0x10000) % 0x400 < 0x10000)]
  rw [if_pos (by omega), hsum, Text.charOfNat_toNat]

/-- How a character is written: as a one letter escape, as it is, or by one unit or two. -/
theorem writtenChar_cases (c : Char) :
    (∃ letter, shortEscape? letter = some c ∧ writtenChar c = ['\\', letter]) ∨
      ((0x20 ≤ c.toNat ∧ c.toNat ≤ 0x7E) ∧ c ≠ '"' ∧ c ≠ '\\' ∧ writtenChar c = [c]) ∨
      (c.toNat < 0x10000 ∧ writtenChar c = unitEscape c.toNat) ∨
      (0x10000 ≤ c.toNat ∧
        writtenChar c = unitEscape (0xD800 + (c.toNat - 0x10000) / 0x400) ++
          unitEscape (0xDC00 + (c.toNat - 0x10000) % 0x400)) := by
  fun_cases writtenChar c with
  | case8 c n hprintable hquote hbackslash =>
    exact .inr (.inl ⟨hprintable, hquote, hbackslash, if_pos hprintable⟩)
  | case9 c n hprintable hnarrow =>
    refine .inr (.inr (.inl ⟨hnarrow, ?_⟩))
    dsimp only
    rw [if_neg hprintable, if_pos hnarrow]
  | case10 c n hprintable hnarrow =>
    refine .inr (.inr (.inr ⟨Nat.le_of_not_lt hnarrow, ?_⟩))
    dsimp only
    rw [if_neg hprintable, if_neg hnarrow]
  | _ => exact .inl ⟨_, by decide, rfl⟩

/-- One character of a written text is read back. -/
theorem string?_writtenChar (c : Char) (fuel : Nat) (rest : Text) :
    string? (fuel + 1) (writtenChar c ++ rest) =
      (string? fuel rest).map fun (text, after) => (c :: text, after) := by
  rcases writtenChar_cases c with ⟨letter, hshort, hc⟩ | ⟨hprintable, hquote, hbackslash, hc⟩ |
    ⟨hnarrow, hc⟩ | ⟨hwide, hc⟩ <;> rw [hc]
  · simp only [List.cons_append, List.nil_append, string?]
    rw [if_neg (by decide), if_pos trivial]
    split <;> rename_i heq <;> simp only [List.cons.injEq, reduceCtorEq] at heq
    · rw [heq.1] at hshort
      exact absurd hshort (by simp [shortEscape?])
    · rw [← heq.1, ← heq.2, hshort]
  · have hcontrol : ¬ c.toNat < 0x20 := by omega
    simp [string?, hquote, hbackslash, hcontrol]
  · rw [string?_unitEscape hnarrow, unit_toNat]
  · have hvalid := toNat_range c
    rw [List.append_assoc, string?_unitEscape (by omega), unit_pair hwide]

theorem writtenChar_ne_nil (c : Char) : writtenChar c ≠ [] := by
  rcases writtenChar_cases c with ⟨_, _, hc⟩ | ⟨_, _, _, hc⟩ | ⟨_, hc⟩ | ⟨_, hc⟩ <;>
    rw [hc] <;> exact List.cons_ne_nil _ _

theorem length_le_flatMap_writtenChar (text : Text) : text.length ≤ (text.flatMap writtenChar).length := by
  induction text with
  | nil => simp
  | cons c cs ih =>
    have hpos := List.length_pos_iff.mpr (writtenChar_ne_nil c)
    rw [List.flatMap_cons, List.length_append, List.length_cons]
    omega

/-- A written text is read back behind its opening quote. -/
theorem string?_flatMap {text : Text} {fuel : Nat} (hfuel : text.length < fuel) (rest : Text) :
    string? fuel (text.flatMap writtenChar ++ '"' :: rest) = some (text, rest) := by
  induction text generalizing fuel with
  | nil =>
    obtain ⟨fuel, rfl⟩ := Nat.exists_eq_add_of_lt hfuel
    simp [string?]
  | cons c cs ih =>
    obtain ⟨fuel, rfl⟩ : ∃ more, fuel = more + 1 := ⟨fuel - 1, by omega⟩
    rw [List.flatMap_cons, List.append_assoc, string?_writtenChar,
      ih (by simpa using hfuel), Option.map_some]

theorem string?_written (text rest : Text) :
    string? ((text.flatMap writtenChar ++ '"' :: rest).length + 1)
      (text.flatMap writtenChar ++ '"' :: rest) = some (text, rest) := by
  apply string?_flatMap
  have := length_le_flatMap_writtenChar text
  rw [List.length_append]
  omega

/-! ### Numbers -/

/-- What comes behind a written value: nothing, a comma, or a line break. -/
def Stops (rest : Text) : Prop :=
  ∀ c ∈ rest.head?, c = ',' ∨ c = '\n'

theorem Stops.cases {rest : Text} (hstops : Stops rest) :
    rest = [] ∨ (∃ more, rest = ',' :: more) ∨ ∃ more, rest = '\n' :: more := by
  cases rest with
  | nil => exact .inl rfl
  | cons c more =>
    rcases hstops c rfl with rfl | rfl
    · exact .inr (.inl ⟨more, rfl⟩)
    · exact .inr (.inr ⟨more, rfl⟩)

/-- What was read, with more text behind the rest of it. -/
def before {α : Type} (rest : Text) (found : Option (α × Text)) : Option (α × Text) :=
  found.map fun (value, after) => (value, after ++ rest)

section

variable {α : Type} (rest : Text)

@[simp]
theorem before_none : before (α := α) rest none = none :=
  rfl

@[simp]
theorem before_some (value : α) (after : Text) :
    before rest (some (value, after)) = some (value, after ++ rest) :=
  rfl

@[simp]
theorem isNone_before (found : Option (α × Text)) : (before rest found).isNone = found.isNone :=
  Option.isNone_map

theorem getD_before (found : Option (α × Text)) (value : α) (after : Text) :
    (before rest found).getD (value, after ++ rest) =
      ((found.getD (value, after)).1, (found.getD (value, after)).2 ++ rest) := by
  cases found <;> rfl

end

/-- The digits at the front of a text, at least one. -/
def someDigits? (text : Text) : Option (Text × Text) :=
  match digits text with
  | ([], _) => none
  | (ds, rest) => some (ds, rest)

/-- The sign in front of an exponent's digits, and what follows it. -/
def exponentSign (text : Text) : Bool × Text :=
  match text with
  | '-' :: rest => (true, rest)
  | '+' :: rest => (false, rest)
  | _ => (false, text)

/-- The digits in front of a number's fraction. -/
def whole? (text : Text) : Option (Text × Text) :=
  match text with
  | '0' :: rest => some (['0'], rest)
  | _ => someDigits? text

/-- The number whose whole digits have been read. -/
def fromWhole? (negative : Bool) (whole rest : Text) : Option (Value × Text) :=
  let fraction := fraction? rest
  let (decimals, rest) := fraction.getD ([], rest)
  let power := exponentPart? rest
  let (exponent, rest) := power.getD (0, rest)
  if fraction.isNone && power.isNone then
    if whole.length ≤ Text.maxDigits then
      let n : Int := digitsValue whole
      some (.int (if negative then -n else n), rest)
    else none
  else
    some (.real (.ofDecimal negative (digitsValue (whole ++ decimals))
      (exponent - decimals.length)), rest)

theorem exponent?_eq_map (text : Text) :
    exponent? text = (someDigits? (exponentSign text).2).map fun (ds, rest) =>
      (if (exponentSign text).1 then -(digitsValue ds : Int) else digitsValue ds, rest) := by
  change (match digits (exponentSign text).2 with
    | ([], _) => none
    | (ds, rest) => some (if (exponentSign text).1 then -(digitsValue ds : Int) else digitsValue ds, rest)) = _
  rw [someDigits?]
  rcases digits (exponentSign text).2 with ⟨_ | ⟨d, ds⟩, after⟩ <;> rfl

theorem unsigned?_eq (negative : Bool) (text : Text) :
    unsigned? negative text = match whole? text with
      | none => none
      | some (whole, rest) => fromWhole? negative whole rest := rfl

theorem unsigned?_eq_bind (negative : Bool) (text : Text) :
    unsigned? negative text = (whole? text).bind fun (whole, rest) => fromWhole? negative whole rest := by
  rw [unsigned?_eq]
  cases whole? text <;> rfl

section

variable {rest : Text} (hstops : Stops rest)

include hstops

theorem literal?_append {word : Text} (hcomma : ',' ∉ word) (hbreak : '\n' ∉ word) (text : Text) :
    literal? word (text ++ rest) = (literal? word text).map (· ++ rest) := by
  rw [literal?, literal?]
  by_cases hword : word <+: text
  · rw [if_pos (List.isPrefixOf_iff_prefix.mpr (hword.trans (List.prefix_append _ _))),
      if_pos (List.isPrefixOf_iff_prefix.mpr hword), List.drop_append_of_le_length hword.length_le]
    rfl
  · have hlong : ¬ word <+: text ++ rest := by
      intro hlong
      rcases List.prefix_or_prefix_of_prefix hlong (List.prefix_append text rest) with h | ⟨more, rfl⟩
      · exact hword h
      rw [List.prefix_append_right_inj] at hlong
      cases more with
      | nil => exact hword (by simp)
      | cons c more =>
        obtain ⟨after, rfl⟩ := hlong
        rcases hstops c (by simp) with rfl | rfl
        · exact hcomma (by simp)
        · exact hbreak (by simp)
    rw [if_neg (mt List.isPrefixOf_iff_prefix.mp hlong), if_neg (mt List.isPrefixOf_iff_prefix.mp hword)]
    rfl

theorem digits_append (text : Text) :
    digits (text ++ rest) = ((digits text).1, (digits text).2 ++ rest) := by
  induction text with
  | nil => rcases hstops.cases with rfl | ⟨more, rfl⟩ | ⟨more, rfl⟩ <;> rfl
  | cons c cs ih =>
    simp only [digits, List.cons_append, List.takeWhile_cons, List.dropWhile_cons, Prod.mk.injEq] at ih ⊢
    split
    · exact ⟨by rw [ih.1], ih.2⟩
    · exact ⟨rfl, rfl⟩

theorem someDigits?_append (text : Text) : someDigits? (text ++ rest) = before rest (someDigits? text) := by
  rw [someDigits?, someDigits?, digits_append hstops]
  rcases digits text with ⟨_ | ⟨d, ds⟩, after⟩ <;> rfl

theorem exponentSign_append (text : Text) :
    exponentSign (text ++ rest) = ((exponentSign text).1, (exponentSign text).2 ++ rest) := by
  fun_cases exponentSign text with
  | case1 after => rfl
  | case2 after => rfl
  | case3 hminus hplus =>
    cases text with
    | nil => rcases hstops.cases with rfl | ⟨more, rfl⟩ | ⟨more, rfl⟩ <;> rfl
    | cons c cs => simp_all [exponentSign]

theorem exponent?_append (text : Text) : exponent? (text ++ rest) = before rest (exponent? text) := by
  rw [exponent?_eq_map, exponent?_eq_map, exponentSign_append hstops, someDigits?_append hstops]
  cases someDigits? (exponentSign text).2 <;> rfl

theorem fraction?_append (text : Text) : fraction? (text ++ rest) = before rest (fraction? text) := by
  cases text with
  | nil => rcases hstops.cases with rfl | ⟨more, rfl⟩ | ⟨more, rfl⟩ <;> rfl
  | cons c cs =>
    by_cases hpoint : c = '.'
    · subst hpoint
      exact someDigits?_append hstops cs
    · simp [fraction?, hpoint]

theorem exponentPart?_append (text : Text) :
    exponentPart? (text ++ rest) = before rest (exponentPart? text) := by
  cases text with
  | nil => rcases hstops.cases with rfl | ⟨more, rfl⟩ | ⟨more, rfl⟩ <;> rfl
  | cons c cs =>
    rw [List.cons_append, exponentPart?, exponentPart?]
    split
    · exact exponent?_append hstops cs
    · rfl

theorem whole?_append (text : Text) : whole? (text ++ rest) = before rest (whole? text) := by
  fun_cases whole? text with
  | case1 after => rfl
  | case2 hzero =>
    rw [← someDigits?_append hstops]
    cases text with
    | nil => rcases hstops.cases with rfl | ⟨more, rfl⟩ | ⟨more, rfl⟩ <;> rfl
    | cons c cs => simp_all [whole?]

theorem fromWhole?_append (negative : Bool) (whole after : Text) :
    fromWhole? negative whole (after ++ rest) = before rest (fromWhole? negative whole after) := by
  simp only [fromWhole?, fraction?_append hstops, getD_before, isNone_before, exponentPart?_append hstops]
  split
  · split <;> rfl
  · rfl

theorem unsigned?_append (negative : Bool) (text : Text) :
    unsigned? negative (text ++ rest) = before rest (unsigned? negative text) := by
  rw [unsigned?_eq_bind, unsigned?_eq_bind, whole?_append hstops]
  cases whole? text with
  | none => rfl
  | some found => exact fromWhole?_append hstops negative found.1 found.2

theorem number?_append (text : Text) : number? (text ++ rest) = before rest (number? text) := by
  fun_cases number? text with
  | case1 cs after hword =>
    rw [List.cons_append, number?, literal?_append hstops (by decide) (by decide), hword]
    rfl
  | case2 cs hword =>
    rw [List.cons_append, number?, literal?_append hstops (by decide) (by decide), hword]
    exact unsigned?_append hstops true cs
  | case3 text hminus =>
    rw [← unsigned?_append hstops]
    cases text with
    | nil => rcases hstops.cases with rfl | ⟨more, rfl⟩ | ⟨more, rfl⟩ <;> rfl
    | cons c cs => simp_all [number?]

theorem findSome?_literal?_append {words : List (Text × Value)}
    (hwords : ∀ entry ∈ words, ',' ∉ entry.1 ∧ '\n' ∉ entry.1) (text : Text) :
    words.findSome? (fun (word, value) => (literal? word (text ++ rest)).map (value, ·)) =
      before rest (words.findSome? fun (word, value) => (literal? word text).map (value, ·)) := by
  induction words with
  | nil => rfl
  | cons entry words ih =>
    obtain ⟨word, value⟩ := entry
    obtain ⟨hentry, hwords⟩ := List.forall_mem_cons.mp hwords
    simp only [List.findSome?_cons, literal?_append hstops hentry.1 hentry.2]
    cases literal? word text with
    | none => exact ih hwords
    | some after => rfl

theorem word?_append (text : Text) : word? (text ++ rest) = before rest (word? text) :=
  findSome?_literal?_append hstops (by decide) text

end

/-- A word of the grammar or a number. -/
def scalar? (text : Text) : Option (Value × Text) :=
  (word? text).or (number? text)

theorem scalar?_append {rest : Text} (hstops : Stops rest) (text : Text) :
    scalar? (text ++ rest) = before rest (scalar? text) := by
  rw [scalar?, scalar?, word?_append hstops, number?_append hstops]
  cases word? text <;> rfl

/-! ### What is left of a text -/

section

variable {text after ds : Text} {value : Value}

theorem literal?_suffix {word : Text} (hread : literal? word text = some after) : after <:+ text := by
  rw [literal?, Option.ite_none_right_eq_some] at hread
  exact Option.some.inj hread.2 ▸ List.drop_suffix _ _

theorem someDigits?_suffix (hread : someDigits? text = some (ds, after)) : after <:+ text := by
  have hsuffix : (digits text).2 <:+ text := List.dropWhile_suffix _
  rw [someDigits?] at hread
  split at hread
  · cases hread
  · rename_i heq
    cases hread
    rwa [heq] at hsuffix

theorem exponentSign_suffix (text : Text) : (exponentSign text).2 <:+ text := by
  fun_cases exponentSign text with
  | case1 after => exact List.suffix_cons _ _
  | case2 after => exact List.suffix_cons _ _
  | case3 => exact List.suffix_rfl

theorem exponent?_suffix {power : Int} (hread : exponent? text = some (power, after)) : after <:+ text := by
  rw [exponent?_eq_map, Option.map_eq_some_iff] at hread
  obtain ⟨⟨ds, left⟩, hdigits, heq⟩ := hread
  cases heq
  exact (someDigits?_suffix hdigits).trans (exponentSign_suffix text)

theorem fraction?_suffix (hread : fraction? text = some (ds, after)) : after <:+ text := by
  cases text with
  | nil => cases hread
  | cons c cs =>
    by_cases hpoint : c = '.'
    · subst hpoint
      exact (someDigits?_suffix hread).trans (List.suffix_cons _ _)
    · simp [fraction?, hpoint] at hread

theorem exponentPart?_suffix {power : Int} (hread : exponentPart? text = some (power, after)) :
    after <:+ text := by
  cases text with
  | nil => cases hread
  | cons c cs =>
    rw [exponentPart?, Option.ite_none_right_eq_some] at hread
    exact (exponent?_suffix hread.2).trans (List.suffix_cons _ _)

theorem whole?_suffix (hread : whole? text = some (ds, after)) : after <:+ text := by
  rw [whole?.eq_def] at hread
  split at hread
  · cases hread
    exact List.suffix_cons _ _
  · exact someDigits?_suffix hread

theorem fromWhole?_suffix {negative : Bool} {whole : Text}
    (hread : fromWhole? negative whole text = some (value, after)) : after <:+ text := by
  have hfraction : ((fraction? text).getD ([], text)).2 <:+ text := by
    cases hfound : fraction? text with
    | none => exact List.suffix_rfl
    | some found => exact fraction?_suffix hfound
  have hpower : ∀ left : Text, ((exponentPart? left).getD (0, left)).2 <:+ left := by
    intro left
    cases hfound : exponentPart? left with
    | none => exact List.suffix_rfl
    | some found => exact exponentPart?_suffix hfound
  have hafter : after = ((exponentPart? ((fraction? text).getD ([], text)).2).getD
      (0, ((fraction? text).getD ([], text)).2)).2 := by
    simp only [fromWhole?] at hread
    split at hread
    · split at hread
      · cases hread
        rfl
      · cases hread
    · cases hread
      rfl
  rw [hafter]
  exact (hpower _).trans hfraction

theorem unsigned?_suffix {negative : Bool} (hread : unsigned? negative text = some (value, after)) :
    after <:+ text := by
  rw [unsigned?_eq_bind, Option.bind_eq_some_iff] at hread
  obtain ⟨⟨whole, left⟩, hwhole, hread⟩ := hread
  exact (fromWhole?_suffix hread).trans (whole?_suffix hwhole)

theorem number?_suffix (hread : number? text = some (value, after)) : after <:+ text := by
  revert hread
  fun_cases number? text with
  | case1 cs left hword =>
    intro hread
    cases hread
    exact (literal?_suffix hword).trans (List.suffix_cons _ _)
  | case2 cs hword => exact fun hread => (unsigned?_suffix hread).trans (List.suffix_cons _ _)
  | case3 text hminus => exact unsigned?_suffix

theorem word?_suffix (hread : word? text = some (value, after)) : after <:+ text := by
  obtain ⟨⟨word, found⟩, -, hfound⟩ := List.exists_of_findSome?_eq_some hread
  obtain ⟨left, hliteral, heq⟩ := Option.map_eq_some_iff.mp hfound
  cases heq
  exact literal?_suffix hliteral

theorem scalar?_suffix (hread : scalar? text = some (value, after)) : after <:+ text := by
  rw [scalar?, Option.or_eq_some_iff] at hread
  rcases hread with hword | ⟨-, hnumber⟩
  · exact word?_suffix hword
  · exact number?_suffix hnumber

end

/-! ### The characters of a written text or number -/

/-- Printable ASCII other than the space. -/
def IsGraphic (c : Char) : Prop :=
  0x20 < c.toNat ∧ c.toNat ≤ 0x7E

instance : DecidablePred IsGraphic :=
  fun _ => inferInstanceAs (Decidable (_ ∧ _))

/-- The characters of a written value: printable ASCII and the line break. -/
def IsPlain (c : Char) : Prop :=
  c = '\n' ∨ (0x20 ≤ c.toNat ∧ c.toNat ≤ 0x7E)

instance : DecidablePred IsPlain :=
  fun _ => inferInstanceAs (Decidable (_ ∨ _))

theorem IsGraphic.isPlain {c : Char} (hc : IsGraphic c) : IsPlain c :=
  .inr ⟨Nat.le_of_lt hc.1, hc.2⟩

theorem isPlain_digitChar {n : Nat} (hn : n < 16) : IsPlain n.digitChar := by
  have hall : ∀ n : Fin 16, IsPlain (Nat.digitChar n) := by decide
  exact hall ⟨n, hn⟩

theorem isPlain_of_mem_unitEscape {n : Nat} (hn : n < 0x10000) : ∀ c ∈ unitEscape n, IsPlain c := by
  rw [unitEscape, hexDigits_four hn]
  simp only [List.forall_mem_cons]
  exact ⟨by decide, by decide, isPlain_digitChar (by omega), isPlain_digitChar (by omega),
    isPlain_digitChar (by omega), isPlain_digitChar (by omega), by simp⟩

theorem isPlain_of_shortEscape? {letter c : Char} (hshort : shortEscape? letter = some c) :
    IsPlain letter := by
  revert hshort
  fun_cases shortEscape? letter with
  | case9 => exact fun hshort => nomatch hshort
  | _ => exact fun _ => by decide

theorem isPlain_of_mem_writtenChar (c : Char) : ∀ d ∈ writtenChar c, IsPlain d := by
  rcases writtenChar_cases c with ⟨letter, hshort, hc⟩ | ⟨hprintable, -, -, hc⟩ | ⟨hnarrow, hc⟩ |
    ⟨hwide, hc⟩ <;> rw [hc]
  · simp only [List.forall_mem_cons]
    exact ⟨by decide, isPlain_of_shortEscape? hshort, by simp⟩
  · exact List.forall_mem_singleton.mpr (.inr hprintable)
  · exact isPlain_of_mem_unitEscape hnarrow
  · have hvalid := toNat_range c
    exact List.forall_mem_append.mpr
      ⟨isPlain_of_mem_unitEscape (by omega), isPlain_of_mem_unitEscape (by omega)⟩

theorem isPlain_of_mem_writtenText (text : Text) : ∀ c ∈ writtenText text, IsPlain c := by
  rw [writtenText, List.cons_append]
  simp only [List.forall_mem_cons, List.forall_mem_append]
  refine ⟨by decide, ?_, by decide, by simp⟩
  intro c hmem
  obtain ⟨d, -, hc⟩ := List.mem_flatMap.mp hmem
  exact isPlain_of_mem_writtenChar d c hc

theorem isGraphic_of_mem_ofNat (n : Nat) : ∀ c ∈ Text.ofNat n, IsGraphic c := by
  intro c hmem
  have hdigit := Nat.isDigit_of_mem_toDigits (by decide) (by decide) hmem
  simp only [Char.isDigit, ge_iff_le, Bool.and_eq_true, decide_eq_true_eq, UInt32.le_iff_toNat_le] at hdigit
  exact ⟨lt_of_lt_of_le (by decide) hdigit.1, hdigit.2.trans (by decide)⟩

theorem isGraphic_of_mem_ofInt (i : Int) : ∀ c ∈ Text.ofInt i, IsGraphic c := by
  cases i with
  | ofNat n => exact isGraphic_of_mem_ofNat n
  | negSucc n => exact List.forall_mem_cons.mpr ⟨by decide, isGraphic_of_mem_ofNat (n + 1)⟩

theorem isGraphic_of_mem_zeros (count : Nat) : ∀ c ∈ List.replicate count '0', IsGraphic c := by
  intro c hmem
  rw [List.eq_of_mem_replicate hmem]
  decide

theorem isGraphic_of_mem_layout {ds : Text} (hds : ∀ c ∈ ds, IsGraphic c) (point : Int) :
    ∀ c ∈ Binary64.layout ds point, IsGraphic c := by
  have htake : ∀ count, ∀ c ∈ ds.take count, IsGraphic c :=
    fun count c hmem => hds c (List.mem_of_mem_take hmem)
  have hdrop : ∀ count, ∀ c ∈ ds.drop count, IsGraphic c :=
    fun count c hmem => hds c (List.mem_of_mem_drop hmem)
  rw [Binary64.layout]
  split
  · split
    · simp only [List.forall_mem_append]
      exact ⟨⟨Text.forall_mem_of_all (by decide), isGraphic_of_mem_zeros _⟩, hds⟩
    · simp only [List.forall_mem_append, List.forall_mem_cons]
      refine ⟨⟨htake _, isGraphic_of_mem_zeros _⟩, by decide, ?_⟩
      split
      · exact Text.forall_mem_of_all (by decide)
      · exact hdrop _
  · simp only [List.forall_mem_append]
    refine ⟨⟨⟨⟨htake _, ?_⟩, ?_⟩, isGraphic_of_mem_zeros _⟩, isGraphic_of_mem_ofNat _⟩
    · split
      · simp
      · exact List.forall_mem_cons.mpr ⟨by decide, hdrop _⟩
    · split <;> exact Text.forall_mem_of_all (by decide)

theorem isGraphic_of_mem_writtenReal (x : Binary64) : ∀ c ∈ writtenReal x, IsGraphic c := by
  cases x with
  | nan => exact Text.forall_mem_of_all (by decide)
  | infinite negative => cases negative <;> exact Text.forall_mem_of_all (by decide)
  | finite negative mantissa exponent =>
    have hsign : ∀ c ∈ (if negative then ['-'] else []), IsGraphic c := by
      cases negative <;> exact Text.forall_mem_of_all (by decide)
    simp only [writtenReal, Binary64.display]
    split
    · exact List.forall_mem_append.mpr ⟨hsign, Text.forall_mem_of_all (by decide)⟩
    · refine List.forall_mem_append.mpr ⟨hsign, isGraphic_of_mem_layout ?_ _⟩
      intro c hmem
      exact isGraphic_of_mem_ofNat _ c (Text.dropEndWhile_isPrefix _ _ |>.subset hmem)

/-! ### Reading a number back -/

theorem isJsonSpace_of_isGraphic {c : Char} (hc : IsGraphic c) : isJsonSpace c = false := by
  rw [Bool.eq_false_iff]
  intro hspace
  simp only [isJsonSpace, Bool.or_eq_true, beq_iff_eq] at hspace
  rcases hspace with ((rfl | rfl) | rfl) | rfl <;> exact absurd hc (by decide)

theorem skip_of_isGraphic {text : Text} (htext : ∀ c ∈ text, IsGraphic c) : skip text = text := by
  cases text with
  | nil => rfl
  | cons c cs =>
    rw [skip, List.dropWhile_cons_of_neg]
    simpa using isJsonSpace_of_isGraphic (htext c List.mem_cons_self)

/-- A word or a number is read as a value of any depth. -/
theorem value?_of_scalar? {text : Text} {found : Value × Text} (hscalar : scalar? text = some found)
    (depth : Nat) : value? (depth + 1) text = some found := by
  rw [value?.eq_def]
  dsimp only
  split
  · cases hscalar
  · cases hscalar
  · cases hscalar
  · exact hscalar

/-- Whether a value is a number. -/
def isNumber : Value → Bool
  | .int _ | .real _ => true
  | _ => false

theorem scalar?_of_value? {text after : Text} {value : Value} {depth : Nat}
    (hread : value? depth text = some (value, after)) (hnumber : isNumber value = true) :
    scalar? text = some (value, after) := by
  rw [value?.eq_def] at hread
  split at hread
  · cases hread
  dsimp only at hread
  split at hread
  · obtain ⟨found, -, heq⟩ := Option.map_eq_some_iff.mp hread
    cases heq
    cases hnumber
  · split at hread
    · cases hread
      cases hnumber
    · obtain ⟨found, -, heq⟩ := Option.map_eq_some_iff.mp hread
      cases heq
      cases hnumber
  · split at hread
    · cases hread
      cases hnumber
    · obtain ⟨found, -, heq⟩ := Option.map_eq_some_iff.mp hread
      cases heq
      cases hnumber
  · exact hread

theorem isGraphic_of_mem_number {value : Value} (hnumber : isNumber value = true) (depth : Nat) :
    ∀ c ∈ indented depth value, IsGraphic c := by
  cases value with
  | int i =>
    rw [indented]
    exact isGraphic_of_mem_ofInt i
  | real x =>
    rw [indented]
    exact isGraphic_of_mem_writtenReal x
  | _ => cases hnumber

/-- A number that is read back from its text alone is read back in front of what may come behind. -/
theorem value?_number {value : Value} (hnumber : isNumber value = true)
    (hread : read? (write value) = some value) {rest : Text} (hstops : Stops rest) (depth : Nat) :
    value? (depth + 1) (write value ++ rest) = some (value, rest) := by
  have hgraphic := isGraphic_of_mem_number hnumber 0
  rw [read?, write, skip_of_isGraphic hgraphic] at hread
  split at hread
  · rename_i found after hfound
    rw [Option.ite_none_right_eq_some, Option.some.injEq, List.isEmpty_iff] at hread
    obtain ⟨hend, rfl⟩ := hread
    have hscalar := scalar?_of_value? hfound hnumber
    have hafter : ∀ c ∈ after, IsGraphic c :=
      fun c hmem => hgraphic c ((scalar?_suffix hscalar).subset hmem)
    rw [skip_of_isGraphic hafter] at hend
    apply value?_of_scalar?
    rw [write, scalar?_append hstops, hscalar, hend]
    rfl
  · cases hread

end Caret.Json
