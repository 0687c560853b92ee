import Caret.Proofs.Completion.Split
import Caret.Proofs.Line.Block
import Caret.Proofs.Line.Form
import Caret.Proofs.Line.Import
import Caret.Proofs.Text.Space

/-!
# What a binding binds

The source that stands for a line assigns the expression before the caret to the name that is asked
about. The expression is a row of units, which the splitter takes for one value and which trimming leaves
as it is.
-/

namespace Caret

namespace Completion

/-! ### The expression before the caret -/

theorem isSpace_of_opener? {opener closer : Char} (hpair : Line.opener? closer = some opener) :
    Text.isSpace opener = false ∧ Text.isSpace closer = false := by
  unfold Line.opener? at hpair
  split at hpair <;> cases hpair <;> decide

/-- A unit neither starts nor ends with white space. -/
theorem ends_of_isUnit {unit : Text} (hunit : Line.IsUnit unit) :
    unit ≠ [] ∧ (∀ c ∈ unit.head?, Text.isSpace c = false) ∧ ∀ c ∈ unit.getLast?, Text.isSpace c = false := by
  cases hunit with
  | char hc => simpa using Line.isSpace_of_isPathChar hc
  | @group opener closer body hpair hbody =>
    obtain ⟨hopener, hcloser⟩ := isSpace_of_opener? hpair
    simpa [List.getLast?_cons] using And.intro hopener hcloser

theorem ends_of_units {text : Text} (hunits : Line.Units text) :
    (∀ c ∈ text.head?, Text.isSpace c = false) ∧ ∀ c ∈ text.getLast?, Text.isSpace c = false := by
  obtain ⟨units, hunits, rfl⟩ := hunits
  induction units with
  | nil => exact ⟨nofun, nofun⟩
  | cons unit units ih =>
    obtain ⟨hunit, hunits⟩ := List.forall_mem_cons.mp hunits
    obtain ⟨hne, hhead, hlast⟩ := ends_of_isUnit hunit
    rw [List.flatten_cons, List.head?_append_of_ne_nil _ hne, List.getLast?_append]
    refine ⟨hhead, fun c hc => ?_⟩
    cases hrest : units.flatten.getLast? with
    | none =>
      rw [hrest] at hc
      exact hlast c hc
    | some d =>
      rw [hrest] at hc
      cases hc
      exact (ih hunits).2 c hrest

/-- The expression at the end of a text is one value, with no white space around it. -/
theorem expressionAtEnd_value {text : Text} (h : Line.expressionAtEnd text ≠ []) :
    Line.expressionAtEnd text <:+ text ∧
      splitTopLevel? (Line.expressionAtEnd text) = some [Line.expressionAtEnd text] ∧
      Text.trim (Line.expressionAtEnd text) = Line.expressionAtEnd text ∧
      ∀ c ∈ (Line.expressionAtEnd text).head?, Text.isSpace c = false := by
  have hreceiver := (Line.expressionAtEnd_eq_iff h).mp rfl
  obtain ⟨before, hbefore, -⟩ := hreceiver.behind
  obtain ⟨hhead, hlast⟩ := ends_of_units hreceiver.units
  exact ⟨⟨before, hbefore.symm⟩, splitTopLevel?_units hreceiver.units, Text.trim_eq_self hhead hlast, hhead⟩

/-! ### Fresh names -/

theorem freshFrom_eq (taken : List Text) (base : Text) (fuel k : Nat) :
    ∃ number, freshFrom taken base fuel k = base ++ Text.ofNat number := by
  induction fuel generalizing k with
  | zero => exact ⟨k, rfl⟩
  | succ fuel ih =>
    rw [freshFrom]
    split
    · exact ih (k + 1)
    · exact ⟨k, rfl⟩

/-- A fresh name is its base and a number, if any. -/
theorem freshName_eq (taken : List Text) (base : Text) :
    ∃ digits, freshName taken base = base ++ digits ∧ ∀ c ∈ digits, Text.isAsciiDigit c = true := by
  unfold freshName
  split
  · obtain ⟨number, hnumber⟩ := freshFrom_eq taken base taken.length 1
    refine ⟨Text.ofNat number, hnumber, fun c hc => ?_⟩
    have hdigit := Nat.isDigit_of_mem_toDigits (by decide) (by decide) hc
    rw [Char.isDigit, Bool.and_eq_true, decide_eq_true_eq, decide_eq_true_eq] at hdigit
    rw [Text.isAsciiDigit, Bool.and_eq_true, decide_eq_true_eq, decide_eq_true_eq]
    exact hdigit
  · exact ⟨[], (List.append_nil _).symm, List.forall_mem_nil _⟩

theorem isWord_of_isAsciiDigit {c : Char} (h : Text.isAsciiDigit c = true) :
    Text.isWord c = true ∧ Text.isIdentifierRest c = true := by
  have hle := h
  rw [Text.isAsciiDigit, Bool.and_eq_true, decide_eq_true_eq, decide_eq_true_eq] at hle
  have hascii : c.toNat < 0x80 := Nat.lt_of_le_of_lt hle.2 (by decide)
  constructor
  · exact Text.isWord_of_isNameChar (by rw [h, Bool.or_true])
  · simp [Text.isIdentifierRest, hascii, h]

/-- A fresh name is a word and a name of the language. -/
theorem freshName_spec (taken : List Text) :
    (∃ cs, freshName taken freshBase = '_' :: cs) ∧
      (∀ c ∈ freshName taken freshBase, Text.isWord c = true) ∧
        Script.isName (freshName taken freshBase) = true := by
  obtain ⟨digits, hname, hdigits⟩ := freshName_eq taken freshBase
  obtain ⟨cs, hcs⟩ : ∃ cs, freshBase = '_' :: cs := ⟨_, rfl⟩
  have hbase : ∀ c ∈ freshBase, Text.isWord c = true ∧ Text.isIdentifierRest c = true :=
    Text.forall_mem_of_all (by decide)
  have hword : ∀ c ∈ freshName taken freshBase, Text.isWord c = true ∧ Text.isIdentifierRest c = true := by
    intro c hc
    rw [hname] at hc
    rcases List.mem_append.mp hc with hc | hc
    · exact hbase c hc
    · exact isWord_of_isAsciiDigit (hdigits c hc)
  refine ⟨⟨cs ++ digits, by rw [hname, hcs, List.cons_append]⟩, fun c hc => (hword c hc).1, ?_⟩
  have hlength : 21 ≤ (freshName taken freshBase).length := by
    rw [hname, List.length_append]
    exact Nat.le_add_right 21 _
  have hkeywords : ∀ word ∈ Script.keywords, word.length < 21 := by decide
  rw [Script.isName, Text.trim_of_not_isSpace fun c hc => Text.isSpace_of_isWord (hword c hc).1,
    Bool.and_eq_true, Bool.not_eq_true']
  constructor
  · rw [hname, hcs, List.cons_append, Text.isIdentifier, Bool.and_eq_true, List.all_eq_true]
    refine ⟨by decide, fun c hc => (hword c ?_).2⟩
    rw [hname, hcs, List.cons_append]
    exact List.mem_cons_of_mem _ hc
  · rw [Script.isKeyword, List.contains_eq_mem, decide_eq_false_iff_not]
    intro hmem
    have := hkeywords _ hmem
    omega

/-! ### Assignments -/

theorem assignment?_indented {indentation : Text} (h : ∀ c ∈ indentation, Text.isBlank c = true)
    (statement : Text) :
    assignment? (indentation ++ statement) = assignment? statement := by
  unfold assignment?
  rw [List.dropWhile_append_of_pos h]

theorem dropWhile_isBlank {text : Text} (h : ∀ c ∈ text.head?, Text.isSpace c = false) :
    text.dropWhile Text.isBlank = text :=
  Text.dropWhile_run (List.forall_mem_nil _) fun c hc => Text.isBlank_of_not_isSpace (h c hc)

/-- The assignment of a value to a name. -/
theorem assignment?_of_name {name value cs : Text} {c : Char} (hstart : name = c :: cs)
    (hc : Text.isNameStart c = true) (hname : ∀ c ∈ name, Text.isWord c = true) (hfree : '\n' ∉ value)
    (hvalue : ∀ c ∈ value.head?, Text.isSpace c = false) :
    assignment? (name ++ (" = ".toList ++ value)) = some (name, value) := by
  have hsign : " = ".toList ++ value = ' ' :: '=' :: ' ' :: value := rfl
  have hspace : ∀ d ∈ name, Text.isSpace d = false := fun d hd => Text.isSpace_of_isWord (hname d hd)
  have hfirst : (name ++ (" = ".toList ++ value)).dropWhile Text.isBlank =
      name ++ (" = ".toList ++ value) := by
    refine dropWhile_isBlank fun d hd => hspace d ?_
    rw [hstart] at hd ⊢
    cases hd
    exact List.mem_cons_self
  have hword : ∀ d ∈ name, (Text.isWord d || Text.isBlank d || d == ',') = true := by
    intro d hd
    rw [hname d hd]
    rfl
  have hright : Text.withoutFinalNewline ((' ' :: value).dropWhile Text.isBlank) = value := by
    rw [List.dropWhile_cons, if_pos (by decide), dropWhile_isBlank hvalue,
      Text.withoutFinalNewline_of_not_mem hfree]
  have hleft : Text.dropEndWhile Text.isBlank (name ++ [' ']) = name :=
    Text.dropEndWhile_run (fun d hd => Text.isBlank_of_not_isSpace (hspace d (List.mem_of_getLast? hd)))
      (Text.forall_mem_of_all (by decide))
  unfold assignment?
  dsimp only
  rw [hfirst, List.takeWhile_append_of_pos hword, List.dropWhile_append_of_pos hword, hsign]
  have htake : (' ' :: '=' :: ' ' :: value).takeWhile (fun c => Text.isWord c || Text.isBlank c || c == ',') =
      [' '] := rfl
  have hdrop : (' ' :: '=' :: ' ' :: value).dropWhile (fun c => Text.isWord c || Text.isBlank c || c == ',') =
      '=' :: ' ' :: value := rfl
  have hhead : (name ++ [' ']).head? = some c := by rw [hstart]; rfl
  have hcontains : value.contains '\n' = false := by simpa using hfree
  rw [htake, hdrop, hhead, Option.any_some, hc, if_neg (by decide)]
  change (if ((' ' :: value).head? == some '=' ||
      (Text.withoutFinalNewline ((' ' :: value).dropWhile Text.isBlank)).contains '\n') = true then none
    else some (Text.dropEndWhile Text.isBlank (name ++ [' ']),
      Text.withoutFinalNewline ((' ' :: value).dropWhile Text.isBlank))) = some (name, value)
  rw [hright, hcontains, hleft]
  rfl

/-- A statement that gives one value to one name assigns to that name. -/
theorem assignmentTarget?_of_name {statement name value : Text}
    (h : assignment? statement = some (name, value))
    (hname : Script.isName name = true) (hword : ∀ c ∈ name, Text.isWord c = true)
    (hsplit : splitTopLevel? value = some [value]) (htrim : Text.trim value = value) :
    assignmentTarget? statement value = some name := by
  have hcomma : ',' ∉ name := fun hmem => absurd (hword _ hmem) (by decide)
  have htargets : (Text.splitOn ',' name).map Text.trim = [name] := by
    rw [Text.splitOn_of_not_mem hcomma, List.map_singleton,
      Text.trim_of_not_isSpace fun c hc => Text.isSpace_of_isWord (hword c hc)]
  unfold assignmentTarget?
  rw [h]
  dsimp only
  rw [hsplit, htargets]
  dsimp only
  rw [if_pos, List.getLast?_singleton]
  simp [htrim, hname]

/-! ### The binding for a line -/

theorem indentation_append_dot (typed member : Text) :
    Text.indentation (typed ++ '.' :: member) = Text.indentation typed := by
  unfold Text.indentation
  rw [List.takeWhile_append]
  split
  · rename_i hlength
    rw [List.takeWhile_cons, if_neg (by decide), List.append_nil,
      (List.takeWhile_prefix _).eq_of_length hlength]
  · rfl

section

variable {line typed member expression : Text} (hline : line = typed ++ '.' :: member)

include hline

theorem take_of_access : line.take (line.length - 1 - member.length) = typed := by
  have hlength : line.length - 1 - member.length = typed.length := by
    rw [hline, List.length_append, List.length_cons]
    omega
  rw [hlength, hline, List.take_left]

theorem typed_eq : typed = Text.indentation line ++ typed.drop (Text.indentation line).length := by
  rw [hline, indentation_append_dot]
  exact (Text.append_drop_of_prefix (List.takeWhile_prefix _)).symm

/-- A typed assignment keeps its meaning when it is indented anew. -/
theorem assignmentTarget?_reindent {indentation : Text} (h : ∀ c ∈ indentation, Text.isBlank c = true) :
    assignmentTarget? (indentation ++ typed.drop (Text.indentation line).length) expression =
      assignmentTarget? typed expression := by
  unfold assignmentTarget?
  rw [assignment?_indented h, ← assignment?_indented Line.isBlank_of_mem_indentation, ← typed_eq hline]

end

/-- An assignment of an expression at the end of what is typed to a fresh name. -/
theorem assignmentTarget?_fresh {typed expression indentation : Text}
    (hexpression : expression = Line.expressionAtEnd typed)
    (hne : expression ≠ []) (hfree : '\n' ∉ typed) (h : ∀ c ∈ indentation, Text.isBlank c = true)
    (taken : List Text) :
    assignmentTarget? (indentation ++ (freshName taken freshBase ++ (" = ".toList ++ expression)))
      expression =
      some (freshName taken freshBase) := by
  subst hexpression
  obtain ⟨hsuffix, hsplit, htrim, hhead⟩ := expressionAtEnd_value hne
  obtain ⟨⟨cs, hstart⟩, hword, hname⟩ := freshName_spec taken
  have hvalue := assignment?_of_name hstart (by decide) hword (fun hmem => hfree (hsuffix.subset hmem)) hhead
  rw [← assignment?_indented h] at hvalue
  exact assignmentTarget?_of_name hvalue hname hword hsplit htrim

section

variable {context : Line.Context} {base indentation typed expression member : Text}
  (hline : context.line = typed ++ '.' :: member)
  (hbase : (if context.isRepaired = true then (context.rawPrior, context.block)
    else (context.prior, Text.indentation context.line)) = (base, indentation))

include hline hbase

theorem bindingFor_of_target {target : Text} (h : assignmentTarget? typed expression = some target) :
    bindingFor context expression member =
      ⟨base ++ indentation ++ typed.drop (Text.indentation context.line).length, target⟩ := by
  unfold bindingFor
  dsimp only
  rw [hbase, take_of_access hline, h]

theorem bindingFor_of_none (h : assignmentTarget? typed expression = none) :
    bindingFor context expression member =
      ⟨base ++ indentation ++ freshName (Script.wordsIn (context.rawPrior ++ context.line)) freshBase ++
          " = ".toList ++ expression,
        freshName (Script.wordsIn (context.rawPrior ++ context.line)) freshBase⟩ := by
  unfold bindingFor
  dsimp only
  rw [hbase, take_of_access hline, h]

end

/-- Where the binding for a line goes: in place of the placeholder, or in place of the line. -/
theorem exists_indentation (prior line seed : Text) (form : Line.Form) {context : Line.Context}
    (h : context = ⟨prior, (Line.repair prior line).1, line, seed, (Line.repair prior line).2, form⟩) :
    ∃ indentation, (∀ c ∈ indentation, Text.isBlank c = true) ∧
      (if context.isRepaired = true then (context.rawPrior, context.block)
        else (context.prior, Text.indentation context.line)) = (prior, indentation) ∧
      (context.isRepaired = true ∧ indentation = context.block ∧
          context.prior = prior ++ indentation ++ Line.placeholder ++ ['\n'] ∨
        context.isRepaired = false ∧ indentation = Text.indentation line ∧ context.prior = prior) := by
  subst h
  rcases Line.repair_cases prior line with hrepair | ⟨block, hne, hblanks, hrepair⟩
  · rw [hrepair]
    exact ⟨_, Line.isBlank_of_mem_indentation, rfl, .inr ⟨rfl, rfl, rfl⟩⟩
  · have hrepaired : (!block.isEmpty) = true := by simpa using hne
    rw [hrepair]
    exact ⟨block, hblanks, if_pos hrepaired, .inl ⟨hrepaired, rfl, rfl⟩⟩

/-- The source for the expression before the caret takes the place of the line, or of the placeholder
that stood for it, and it assigns the expression to the name that is asked about: as the line itself does,
if it assigns the expression, and else by an assignment to a fresh name. -/
theorem bindingFor_binds {prior line expression member : Text} {context : Line.Context} (hfree : '\n' ∉ line)
    (hclassify : Line.classify prior line (Line.typedToken line) = some context)
    (hform : context.form = .access expression member) :
    ∃ typed indentation body, line = typed ++ '.' :: member ∧
      (bindingFor context expression member).source = prior ++ (indentation ++ body) ∧
      '\n' ∉ indentation ++ body ∧
      (context.isRepaired = true ∧ indentation = context.block ∧
          context.prior = prior ++ indentation ++ Line.placeholder ++ ['\n'] ∨
        context.isRepaired = false ∧ indentation = Text.indentation line ∧ context.prior = prior) ∧
      assignmentTarget? (indentation ++ body) expression = some (bindingFor context expression member).name ∧
      (assignmentTarget? typed expression = some (bindingFor context expression member).name ∧
          typed = Text.indentation line ++ body ∨
        assignmentTarget? typed expression = none ∧
          body = (bindingFor context expression member).name ++ (" = ".toList ++ expression) ∧
          (bindingFor context expression member).name =
            freshName (Script.wordsIn (prior ++ line)) freshBase) := by
  obtain ⟨hform?, hcontext⟩ := Line.classify_eq hclassify
  rw [hform] at hform? hcontext
  obtain ⟨typed, hline, hexpression, hne⟩ :=
    Line.accessForm?_parts hfree (Line.accessForm?_of_form? hfree hform?)
  obtain ⟨indentation, hblanks, hbase, hplace⟩ := exists_indentation prior line _ _ hcontext
  have hsame : context.line = line ∧ context.rawPrior = prior := by rw [hcontext]; exact ⟨rfl, rfl⟩
  have hindentation : '\n' ∉ indentation := fun hmem => absurd (hblanks _ hmem) (by decide)
  have htyped : '\n' ∉ typed := fun hmem => hfree (hline ▸ List.mem_append_left _ hmem)
  cases htarget : assignmentTarget? typed expression with
  | some target =>
    have hbinding := bindingFor_of_target (hsame.1.trans hline) hbase htarget
    rw [hsame.1] at hbinding
    refine ⟨typed, indentation, typed.drop (Text.indentation line).length, hline, ?_, ?_, hplace, ?_,
      .inl ⟨?_, typed_eq hline⟩⟩
    · rw [hbinding, List.append_assoc]
    · rw [List.mem_append, not_or]
      exact ⟨hindentation, fun hmem => htyped (List.mem_of_mem_drop hmem)⟩
    · rw [assignmentTarget?_reindent hline hblanks, htarget, hbinding]
    · rw [htarget, hbinding]
  | none =>
    have hbinding := bindingFor_of_none (hsame.1.trans hline) hbase htarget
    rw [hsame.1, hsame.2] at hbinding
    refine ⟨typed, indentation, _, hline, ?_, ?_, hplace, ?_, .inr ⟨htarget, rfl, ?_⟩⟩
    · rw [hbinding]
      simp only [List.append_assoc]
    · rw [hbinding]
      simp only [List.mem_append, not_or]
      refine ⟨hindentation, fun hmem => ?_, by decide, fun hmem => ?_⟩
      · exact absurd ((freshName_spec _).2.1 _ hmem) (by decide)
      · subst hexpression
        exact htyped ((expressionAtEnd_value hne).1.subset hmem)
    · rw [hbinding]
      exact assignmentTarget?_fresh hexpression hne htyped hblanks _
    · rw [hbinding]

/-- The assignment that is being typed in an open block stands in the block. -/
theorem bindingFor_binds_block :
    ∃ context indentation body,
      Line.classify "if a:\n".toList "b = c(1)['.'].d".toList (Line.typedToken "b = c(1)['.'].d".toList) =
        some context ∧
      bindingFor context "c(1)['.']".toList "d".toList = ⟨"if a:\n    b = c(1)['.']".toList, "b".toList⟩ ∧
      "if a:\n    b = c(1)['.']".toList = "if a:\n".toList ++ (indentation ++ body) ∧
      assignmentTarget? (indentation ++ body) "c(1)['.']".toList = some "b".toList := by
  obtain ⟨context, hclassify, hform, hbinding⟩ : ∃ context,
      Line.classify "if a:\n".toList "b = c(1)['.'].d".toList (Line.typedToken "b = c(1)['.'].d".toList) =
        some context ∧
      context.form = .access "c(1)['.']".toList "d".toList ∧
      bindingFor context "c(1)['.']".toList "d".toList = ⟨"if a:\n    b = c(1)['.']".toList, "b".toList⟩ :=
    ⟨_, rfl, by decide +kernel, by decide +kernel⟩
  obtain ⟨typed, indentation, body, -, hsource, -, -, htarget, -⟩ :=
    bindingFor_binds (by decide) hclassify hform
  rw [hbinding] at hsource htarget
  exact ⟨context, indentation, body, hclassify, hbinding, hsource, htarget⟩

end Completion

end Caret
