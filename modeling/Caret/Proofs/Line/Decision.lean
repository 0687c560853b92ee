import Caret.Proofs.Line.Form

/-!
# The decision on a line

What a line completes can be read off the line and its last token alone. A line is cut into its longest
final run of word characters, the token, and the rest; each form is then a plain condition on the two, and
the forms are tried in a fixed order. The readers of the forms search the line in ways of their own, and
this module shows that they come to the same decision.
-/

namespace Caret.Line

/-- A form that fits a line, which is the rest and the token behind it. -/
inductive Fits (rest token : Text) : Form → Prop where
  | package {lead keyword gap path : Text} (h : IsPackageLine lead keyword gap path (rest ++ token)) :
      Fits rest token (.package keyword path (lead ++ (keyword ++ gap)).length)
  | member {lead gap module space after name : Text}
      (h : IsMemberLine lead gap module space after name (rest ++ token)) :
      Fits rest token (.member module name)
  | name {c : Char} (hstart : token.head? = some c) (hc : Text.isNameStart c = true)
      (hdot : rest.getLast? ≠ some '.') : Fits rest token (.name token)
  | access {expression : Text} (hdot : rest.getLast? = some '.')
      (hexpression : expressionBefore? (rest ++ token) ((rest.length : Int) - 1) = some expression)
      (hne : expression ≠ []) : Fits rest token (.access expression token)

/-- The place of a form in the order in which they are tried. -/
def Form.place : Form → Nat
  | .package .. => 0
  | .member .. => 1
  | .name .. => 2
  | .access .. => 3

/-- The first form that fits a line, or none if none does. -/
def IsDecision (rest token : Text) : Option Form → Prop
  | some form => Fits rest token form ∧ ∀ other, Fits rest token other → form.place ≤ other.place
  | none => ∀ form, ¬ Fits rest token form

/-- The reader of the form in a place. -/
def formAt (line : Text) : Nat → Option Form
  | 0 => packageForm? line
  | 1 => memberForm? line
  | 2 => nameForm? line
  | _ => accessForm? line

theorem take_rest (rest token : Text) :
    (rest ++ token).take ((rest ++ token).length - token.length) = rest := by
  rw [List.length_append, Nat.add_sub_cancel, List.take_left]

section

variable {rest token : Text} (htoken : ∀ c ∈ token, Text.isWord c = true)
  (hrest : ∀ c ∈ rest.getLast?, Text.isWord c = false) (hfree : '\n' ∉ rest ++ token)

include htoken hrest hfree

theorem typedToken_eq : typedToken (rest ++ token) = token := by
  rw [typedToken_of_not_mem hfree, Text.takeEndWhile_run hrest htoken]

/-- The token is the only final run of word characters that is not part of a longer one. -/
theorem token_eq_of_append {front tail : Text} (hline : rest ++ token = front ++ tail)
    (htail : ∀ c ∈ tail, Text.isWord c = true) (hfront : ∀ c ∈ front.getLast?, Text.isWord c = false) :
    tail = token := by
  rw [← typedToken_eq htoken hrest hfree, typedToken_of_not_mem hfree, hline,
    Text.takeEndWhile_run hfront htail]

theorem nameForm?_eq_some_iff {form : Form} :
    nameForm? (rest ++ token) = some form ↔
      (∃ c, token.head? = some c ∧ Text.isNameStart c = true) ∧ rest.getLast? ≠ some '.' ∧
        form = .name token := by
  simp only [nameForm?, Text.withoutFinalNewline_of_not_mem hfree, typedToken_eq htoken hrest hfree, take_rest,
    Option.ite_none_right_eq_some, Bool.and_eq_true, Option.any_eq_true, bne_iff_ne, Option.some.injEq,
    and_assoc, eq_comm (b := form)]

theorem accessForm?_eq_some_iff {form : Form} :
    accessForm? (rest ++ token) = some form ↔ rest.getLast? = some '.' ∧ ∃ expression,
      expressionBefore? (rest ++ token) ((rest.length : Int) - 1) = some expression ∧ expression ≠ [] ∧
        form = .access expression token := by
  simp only [accessForm?, Text.withoutFinalNewline_of_not_mem hfree, typedToken_eq htoken hrest hfree, take_rest,
    Option.ite_none_right_eq_some, Option.ite_none_left_eq_some, List.isEmpty_iff, Option.some.injEq]
  refine and_congr_right fun hdot => ?_
  obtain ⟨typed, rfl⟩ := List.getLast?_eq_some_iff.mp hdot
  -- the column of the dot is where the text that the expression ends stops
  have hbefore : expressionBefore? (typed ++ ['.'] ++ token) (((typed ++ ['.']).length : Int) - 1) =
      some (expressionAtEnd typed) := by
    have hcolumn : ((typed ++ ['.']).length : Int) - 1 = typed.length := by simp
    rw [hcolumn, expressionBefore?, if_neg, Int.toNat_natCast, List.append_assoc, List.take_left]
    simp only [List.length_append]
    omega
  rw [List.dropLast_concat, hbefore]
  constructor
  · rintro ⟨hne, rfl⟩
    exact ⟨_, rfl, hne, rfl⟩
  · rintro ⟨_, ⟨⟩, hne, rfl⟩
    exact ⟨hne, rfl⟩

/-! ### Forms that fit and forms that are read -/

/-- A form fits a line exactly when it is what the reader in its place reads. -/
theorem fits_iff {form : Form} : Fits rest token form ↔ formAt (rest ++ token) form.place = some form := by
  constructor
  · rintro (h | h | ⟨hstart, hc, hdot⟩ | ⟨hdot, hexpression, hne⟩)
    · exact (packageForm?_eq_some_iff hfree).mpr ⟨_, _, _, _, h, rfl⟩
    · exact (memberForm?_eq_some_iff hfree).mpr ⟨_, _, _, _, _, _, h, rfl⟩
    · exact (nameForm?_eq_some_iff htoken hrest hfree).mpr ⟨⟨_, hstart, hc⟩, hdot, rfl⟩
    · exact (accessForm?_eq_some_iff htoken hrest hfree).mpr ⟨hdot, _, hexpression, hne, rfl⟩
  · intro hform
    cases form with
    | package keyword path start =>
      obtain ⟨_, _, _, _, h, heq⟩ := (packageForm?_eq_some_iff hfree).mp hform
      cases heq
      exact .package h
    | member module name =>
      obtain ⟨_, _, _, _, _, _, h, heq⟩ := (memberForm?_eq_some_iff hfree).mp hform
      cases heq
      exact .member h
    | name name =>
      obtain ⟨⟨_, hstart, hc⟩, hdot, heq⟩ := (nameForm?_eq_some_iff htoken hrest hfree).mp hform
      cases heq
      exact .name hstart hc hdot
    | access expression member =>
      obtain ⟨hdot, _, hexpression, hne, heq⟩ := (accessForm?_eq_some_iff htoken hrest hfree).mp hform
      cases heq
      exact .access hdot hexpression hne

omit htoken hrest in
theorem place_of_formAt {place : Nat} {form : Form} (hplace : place ≤ 3)
    (hform : formAt (rest ++ token) place = some form) : form.place = place := by
  obtain rfl | rfl | rfl | rfl : place = 0 ∨ place = 1 ∨ place = 2 ∨ place = 3 := by omega
  · obtain ⟨_, _, rfl, -⟩ := packageForm?_eq_some hfree hform
    rfl
  · obtain ⟨_, _, rfl, -⟩ := memberForm?_eq_some hfree hform
    rfl
  · rw [nameForm?_eq_some hform]
    rfl
  · obtain ⟨_, rfl⟩ := accessForm?_eq_some hform
    rfl

/-- What is read in a place, after nothing in the places before it, is the first form that fits. -/
theorem isDecision_of_formAt {place : Nat} {form : Form} (hplace : place ≤ 3)
    (hform : formAt (rest ++ token) place = some form)
    (hbefore : ∀ earlier < place, formAt (rest ++ token) earlier = none) :
    IsDecision rest token (some form) := by
  have heq := place_of_formAt hfree hplace hform
  refine ⟨(fits_iff htoken hrest hfree).mpr (heq.symm ▸ hform), fun other hother => ?_⟩
  rw [heq, ← Nat.not_lt]
  intro hlt
  have hread := (fits_iff htoken hrest hfree).mp hother
  rw [hbefore _ hlt] at hread
  cases hread

theorem isDecision_form? : IsDecision rest token (form? (rest ++ token)) := by
  have hfirst := @isDecision_of_formAt rest token htoken hrest hfree
  rw [form?]
  cases hpackage : packageForm? (rest ++ token) with
  | some form => exact hfirst (by decide : 0 ≤ 3) hpackage fun _ h => absurd h (by omega)
  | none =>
    rw [Option.none_or]
    cases hmember : memberForm? (rest ++ token) with
    | some form =>
      refine hfirst (by decide : 1 ≤ 3) hmember fun earlier h => ?_
      obtain rfl : earlier = 0 := by omega
      exact hpackage
    | none =>
      rw [Option.none_or]
      cases hname : nameForm? (rest ++ token) with
      | some form =>
        refine hfirst (by decide : 2 ≤ 3) hname fun earlier h => ?_
        obtain rfl | rfl : earlier = 0 ∨ earlier = 1 := by omega
        · exact hpackage
        · exact hmember
      | none =>
        rw [Option.none_or]
        cases haccess : accessForm? (rest ++ token) with
        | some form =>
          refine hfirst (by decide : 3 ≤ 3) haccess fun earlier h => ?_
          obtain rfl | rfl | rfl : earlier = 0 ∨ earlier = 1 ∨ earlier = 2 := by omega
          · exact hpackage
          · exact hmember
          · exact hname
        | none =>
          have hnone : ∀ form : Form, formAt (rest ++ token) form.place = none := by
            intro form
            cases form with
            | package => exact hpackage
            | member => exact hmember
            | name => exact hname
            | access => exact haccess
          intro form hform
          have hread := (fits_iff htoken hrest hfree).mp hform
          rw [hnone form] at hread
          cases hread

/-- There is one decision on a line. -/
theorem IsDecision.unique {decision other : Option Form} (h : IsDecision rest token decision)
    (hother : IsDecision rest token other) : other = decision := by
  have hfits := @fits_iff rest token htoken hrest hfree
  cases decision with
  | none =>
    cases other with
    | none => rfl
    | some form => exact absurd hother.1 (h form)
  | some first =>
    cases other with
    | none => exact absurd h.1 (hother first)
    | some second =>
      have hplace := Nat.le_antisymm (hother.2 first h.1) (h.2 second hother.1)
      have hsecond := hfits.mp hother.1
      rw [hplace, hfits.mp h.1] at hsecond
      exact hsecond.symm

/-! ### The token in a line that imports -/

omit htoken hrest hfree in
theorem not_isWord_of_blanks {front blanks : Text} (hblanks : ∀ c ∈ blanks, Text.isBlank c = true)
    (hne : blanks ≠ []) : ∀ c ∈ (front ++ blanks).getLast?, Text.isWord c = false := by
  intro c hc
  rw [List.getLast?_append_of_ne_nil _ hne] at hc
  have hpath := isPathChar_of_isBlank (hblanks c (List.mem_of_getLast? hc))
  rw [← Bool.not_eq_true]
  intro hword
  rw [isPathChar_of_isWord hword] at hpath
  cases hpath

theorem IsPackageLine.afterLast_eq {lead keyword gap path : Text}
    (h : IsPackageLine lead keyword gap path (rest ++ token)) : Text.afterLast '.' path = token := by
  have hpath := h.isPath.isPathChar
  have hword : ∀ tail : Text, tail <:+ path → '.' ∉ tail → ∀ c ∈ tail, Text.isWord c = true := by
    intro tail htail hdot c hc
    have hchar := hpath c (htail.subset hc)
    rw [isPathChar, Bool.or_eq_true, beq_iff_eq] at hchar
    exact hchar.resolve_right fun heq => hdot (heq ▸ hc)
  rw [Text.afterLast]
  cases hsplit : Text.splitLast? '.' path with
  | none =>
    have hline : rest ++ token = lead ++ keyword ++ gap ++ path := by
      rw [h.line_eq, List.append_assoc, List.append_assoc]
    exact token_eq_of_append htoken hrest hfree hline
      (hword path (List.suffix_refl _) (Text.splitLast?_eq_none hsplit))
      (not_isWord_of_blanks h.isBlank_gap h.gap_ne_nil)
  | some found =>
    obtain ⟨before, after⟩ := found
    obtain ⟨heq, hdot⟩ := Text.splitLast?_eq_some hsplit
    have hline : rest ++ token = lead ++ (keyword ++ (gap ++ before)) ++ ['.'] ++ after := by
      rw [h.line_eq, heq]
      simp
    refine token_eq_of_append htoken hrest hfree hline (hword after ?_ hdot) ?_
    · rw [heq]
      exact (List.suffix_cons '.' after).trans (List.suffix_append _ _)
    · rw [List.getLast?_concat]
      rintro c ⟨⟩
      decide

theorem IsMemberLine.token_eq {lead gap module space after name : Text}
    (h : IsMemberLine lead gap module space after name (rest ++ token)) :
    (after ≠ [] → name = token) ∧ (after = [] → token = "import".toList ++ name) := by
  constructor
  · intro hne
    have hline : rest ++ token =
        lead ++ ("from".toList ++ (gap ++ (module ++ (space ++ "import".toList)))) ++ after ++ name := by
      rw [h.line_eq]
      simp only [List.append_assoc]
    exact token_eq_of_append htoken hrest hfree hline h.isWord_name (not_isWord_of_blanks h.isBlank_after hne)
  · rintro rfl
    have hline : rest ++ token =
        lead ++ ("from".toList ++ (gap ++ module)) ++ space ++ ("import".toList ++ name) := by
      rw [h.line_eq]
      simp only [List.append_assoc, List.nil_append]
    have himport : ∀ c ∈ "import".toList, Text.isWord c = true := Text.forall_mem_of_all (by decide)
    refine (token_eq_of_append htoken hrest hfree hline (fun c hc => ?_)
      (not_isWord_of_blanks h.isBlank_space h.space_ne_nil)).symm
    exact (List.mem_append.mp hc).elim (himport c) (h.isWord_name c)

end

/-- Classification agrees with the decision on the token. For a line that can be completed, the token is
what is typed, and the context that comes with it is the one of the first form that fits. In an import of a
module the token is what stands behind the last dot of the path; in an import of a name it is that name,
with the keyword in front if no blank keeps them apart. -/
theorem classify_decides (prior : Text) {line rest token : Text} (hline : line = rest ++ token)
    (htoken : ∀ c ∈ token, Text.isWord c = true) (hrest : ∀ c ∈ rest.getLast?, Text.isWord c = false)
    (hne : line ≠ []) (hfree : '\n' ∉ line) (hlast : ∀ c ∈ line.getLast?, c ∉ "()[]{},; ".toList) :
    typedToken line = token ∧
    (∃ decision, IsDecision rest token decision ∧
      (∀ other, IsDecision rest token other → other = decision) ∧
      classify prior line token = decision.map fun form =>
        ⟨prior, (repair prior line).1, line, token, (repair prior line).2, form⟩) ∧
    (∀ lead keyword gap path, IsPackageLine lead keyword gap path line →
      line.take (lead ++ (keyword ++ gap)).length ++ path = line ∧ Text.afterLast '.' path = token) ∧
    ∀ lead gap module space after name, IsMemberLine lead gap module space after name line →
      (after ≠ [] → name = token) ∧ (after = [] → token = "import".toList ++ name) := by
  subst hline
  have hdecision := isDecision_form? htoken hrest hfree
  have hconsidered : isConsidered (rest ++ token) token = true := by
    rw [isConsidered, Bool.and_eq_true, isCompletable]
    refine ⟨?_, Text.endsWith_iff.mpr (List.suffix_append _ _)⟩
    cases hc : (rest ++ token).getLast? with
    | none => exact absurd (List.getLast?_eq_none_iff.mp hc) hne
    | some c =>
      rw [Bool.not_eq_true', List.contains_eq_mem, decide_eq_false_iff_not]
      exact hlast c hc
  refine ⟨typedToken_eq htoken hrest hfree, ⟨_, hdecision,
    fun other => hdecision.unique htoken hrest hfree, ?_⟩, fun lead keyword gap path h => ⟨?_, ?_⟩,
    fun lead gap module space after name h => h.token_eq htoken hrest hfree⟩
  · rw [classify, if_pos hconsidered]
  · have hwhole : rest ++ token = lead ++ (keyword ++ gap) ++ path := by
      rw [h.line_eq, List.append_assoc, List.append_assoc]
    rw [hwhole, List.take_left]
  · exact h.afterLast_eq htoken hrest hfree

/-- In an open block, a line that stops right behind the second keyword imports a name of which nothing is
typed yet, although the keyword is the token. -/
theorem classify_decides_at_keyword :
    "\tfrom a.b import".toList = "\tfrom a.b ".toList ++ "import".toList ∧
    (∀ c ∈ "import".toList, Text.isWord c = true) ∧
    (∀ c ∈ "\tfrom a.b ".toList.getLast?, Text.isWord c = false) ∧
    typedToken "\tfrom a.b import".toList = "import".toList ∧
    classify "if c:\n".toList "\tfrom a.b import".toList "import".toList =
      some ⟨"if c:\n".toList, "if c:\n\tpass\n".toList, "\tfrom a.b import".toList, "import".toList,
        "\t".toList, .member "a.b".toList []⟩ ∧
    IsDecision "\tfrom a.b ".toList "import".toList (some (.member "a.b".toList [])) := by
  have hline : "\tfrom a.b import".toList = "\tfrom a.b ".toList ++ "import".toList := by decide
  have htoken : ∀ c ∈ "import".toList, Text.isWord c = true := Text.forall_mem_of_all (by decide)
  have hrest : ∀ c ∈ "\tfrom a.b ".toList.getLast?, Text.isWord c = false := by
    rintro c ⟨⟩
    decide
  have hlast : ∀ c ∈ "\tfrom a.b import".toList.getLast?, c ∉ "()[]{},; ".toList := by
    rintro c ⟨⟩
    decide
  have hcontext : classify "if c:\n".toList "\tfrom a.b import".toList "import".toList =
      some ⟨"if c:\n".toList, "if c:\n\tpass\n".toList, "\tfrom a.b import".toList, "import".toList,
        "\t".toList, .member "a.b".toList []⟩ := by
    decide +kernel
  obtain ⟨htyped, ⟨decision, hdecision, -, hclassify⟩, -, -⟩ :=
    classify_decides "if c:\n".toList hline htoken hrest (by decide) (by decide) hlast
  rw [hcontext] at hclassify
  obtain ⟨form, rfl, heq⟩ := Option.map_eq_some_iff.mp hclassify.symm
  rw [(Context.mk.inj heq).2.2.2.2.2] at hdecision
  exact ⟨hline, htoken, hrest, htyped, hcontext, hdecision⟩

end Caret.Line
