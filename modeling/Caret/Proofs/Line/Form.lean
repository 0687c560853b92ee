import Caret.Proofs.Line.Import

/-!
# What the forms of a line say about its end

Every form takes what is typed from the end of the line. For a name and a member that is the typed
token itself; a module path and an imported name are suffixes of the line as well, and the imported
name lies inside the typed token. Alignment with the caret rests on nothing else about the forms.

A line up to the caret holds no line feed, which is why the statements assume that.
-/

namespace Caret.Line

theorem typedToken_of_not_mem {line : Text} (hfree : '\n' ∉ line) :
    typedToken line = Text.takeEndWhile Text.isWord line := by
  rw [typedToken, Text.withoutFinalNewline_of_not_mem hfree]

theorem typedToken_suffix {line : Text} (hfree : '\n' ∉ line) : typedToken line <:+ line := by
  rw [typedToken_of_not_mem hfree]
  exact Text.takeEndWhile_suffix _ _

/-- The typed token is the longest suffix of word characters. -/
theorem suffix_typedToken {line finish : Text} (hfree : '\n' ∉ line) (hfinish : finish <:+ line)
    (hall : finish.all Text.isWord = true) : finish <:+ typedToken line := by
  rw [typedToken_of_not_mem hfree]
  exact Text.suffix_takeEndWhile hfinish hall

theorem keyword?_suffix {word : String} {text rest : Text} (hkeyword : keyword? word text = some rest) :
    rest <:+ text := by
  obtain ⟨gap, -, -, -, rfl⟩ := keyword?_eq_some_iff.mp hkeyword
  exact (List.suffix_append gap rest).trans (List.suffix_append _ _)

/-! ### Each form by itself -/

theorem packageForm?_eq_some {line : Text} {form : Form} (hfree : '\n' ∉ line)
    (hform : packageForm? line = some form) :
    ∃ keyword path, form = .package keyword path (line.length - path.length) ∧ path <:+ line := by
  obtain ⟨lead, keyword, gap, path, h, rfl⟩ := (packageForm?_eq_some_iff hfree).mp hform
  have hline : lead ++ (keyword ++ gap) ++ path = line := by
    rw [h.line_eq, List.append_assoc, List.append_assoc]
  have hlength : line.length = (lead ++ (keyword ++ gap)).length + path.length := by
    rw [← hline, List.length_append]
  exact ⟨keyword, path, by rw [hlength, Nat.add_sub_cancel], ⟨_, hline⟩⟩

theorem memberForm?_eq_some {line : Text} {form : Form} (hfree : '\n' ∉ line)
    (hform : memberForm? line = some form) :
    ∃ module name, form = .member module name ∧ name <:+ line ∧ name.all Text.isWord = true := by
  obtain ⟨lead, gap, module, space, after, name, h, rfl⟩ := (memberForm?_eq_some_iff hfree).mp hform
  refine ⟨module, name, rfl, ⟨lead ++ ("from".toList ++ (gap ++ (module ++ (space ++ ("import".toList ++
    after))))), ?_⟩, List.all_eq_true.mpr h.isWord_name⟩
  rw [h.line_eq]
  simp only [List.append_assoc]

theorem nameForm?_eq_some {line : Text} {form : Form} (hform : nameForm? line = some form) :
    form = .name (typedToken line) := by
  simp only [nameForm?] at hform
  split at hform
  · exact (Option.some.inj hform).symm
  · exact absurd hform (by simp)

theorem accessForm?_eq_some {line : Text} {form : Form} (hform : accessForm? line = some form) :
    ∃ expression, form = .access expression (typedToken line) := by
  simp only [accessForm?] at hform
  split at hform
  · split at hform
    · exact absurd hform (by simp)
    · exact ⟨_, (Option.some.inj hform).symm⟩
  · exact absurd hform (by simp)

/-- A member is the end of its line, and the expression that it is a member of ends before the dot. -/
theorem accessForm?_parts {line expression member : Text} (hfree : '\n' ∉ line)
    (hform : accessForm? line = some (.access expression member)) :
    ∃ typed, line = typed ++ '.' :: member ∧ expression = expressionAtEnd typed ∧ expression ≠ [] := by
  have hline := Text.take_append_of_suffix (typedToken_suffix hfree)
  simp only [accessForm?, Text.withoutFinalNewline_of_not_mem hfree] at hform
  split at hform
  · rename_i hdot
    split at hform
    · exact absurd hform (by simp)
    · rename_i hne
      obtain ⟨rfl, rfl⟩ := Form.access.inj (Option.some.inj hform)
      obtain ⟨typed, htyped⟩ := List.getLast?_eq_some_iff.mp hdot
      rw [htyped, List.append_assoc] at hline
      refine ⟨typed, hline.symm, by rw [htyped, List.dropLast_concat], ?_⟩
      simpa using hne
  · exact absurd hform (by simp)

/-! ### The form of a line -/

theorem form?_cases {line : Text} {form : Form} (hform : form? line = some form) :
    packageForm? line = some form ∨ memberForm? line = some form ∨ nameForm? line = some form ∨
      accessForm? line = some form := by
  rw [form?] at hform
  rcases Option.or_eq_some_iff.mp hform with hpackage | ⟨_, hform⟩
  · exact .inl hpackage
  rcases Option.or_eq_some_iff.mp hform with hmember | ⟨_, hform⟩
  · exact .inr (.inl hmember)
  rcases Option.or_eq_some_iff.mp hform with hname | ⟨_, haccess⟩
  · exact .inr (.inr (.inl hname))
  · exact .inr (.inr (.inr haccess))

/-- A context holds what was given for it, the text before the line as it is repaired, and the form of
the line. -/
theorem classify_eq {prior line seed : Text} {context : Context}
    (h : classify prior line seed = some context) :
    form? line = some context.form ∧ context =
      ⟨prior, (repair prior line).1, line, seed, (repair prior line).2, context.form⟩ := by
  rw [classify] at h
  split at h
  · obtain ⟨form, hform, rfl⟩ := Option.map_eq_some_iff.mp h
    exact ⟨hform, rfl⟩
  · cases h

section

variable {line : Text} (hfree : '\n' ∉ line)

include hfree

/-- A module path is the end of its line, from the column on that the form names. -/
theorem path_of_form? {keyword path : Text} {start : Nat}
    (hform : form? line = some (.package keyword path start)) :
    line.take start ++ path = line ∧ start = line.length - path.length := by
  rcases form?_cases hform with h | h | h | h
  · obtain ⟨keyword', path', heq, hsuffix⟩ := packageForm?_eq_some hfree h
    obtain ⟨rfl, rfl, rfl⟩ := Form.package.inj heq
    exact ⟨Text.take_append_of_suffix hsuffix, rfl⟩
  · obtain ⟨_, _, heq, _⟩ := memberForm?_eq_some hfree h
    cases heq
  · cases nameForm?_eq_some h
  · obtain ⟨_, heq⟩ := accessForm?_eq_some h
    cases heq

/-- An imported name is the end of its line and part of the typed token. -/
theorem member_of_form? {module name : Text} (hform : form? line = some (.member module name)) :
    name <:+ line ∧ name <:+ typedToken line := by
  rcases form?_cases hform with h | h | h | h
  · obtain ⟨_, _, heq, _⟩ := packageForm?_eq_some hfree h
    cases heq
  · obtain ⟨module', name', heq, hsuffix, hall⟩ := memberForm?_eq_some hfree h
    obtain ⟨rfl, rfl⟩ := Form.member.inj heq
    exact ⟨hsuffix, suffix_typedToken hfree hsuffix hall⟩
  · cases nameForm?_eq_some h
  · obtain ⟨_, heq⟩ := accessForm?_eq_some h
    cases heq

theorem name_of_form? {name : Text} (hform : form? line = some (.name name)) :
    name = typedToken line := by
  rcases form?_cases hform with h | h | h | h
  · obtain ⟨_, _, heq, _⟩ := packageForm?_eq_some hfree h
    cases heq
  · obtain ⟨_, _, heq, _⟩ := memberForm?_eq_some hfree h
    cases heq
  · exact Form.name.inj (nameForm?_eq_some h)
  · obtain ⟨_, heq⟩ := accessForm?_eq_some h
    cases heq

theorem accessForm?_of_form? {expression member : Text}
    (hform : form? line = some (.access expression member)) :
    accessForm? line = some (.access expression member) := by
  rcases form?_cases hform with h | h | h | h
  · obtain ⟨_, _, heq, _⟩ := packageForm?_eq_some hfree h
    cases heq
  · obtain ⟨_, _, heq, _⟩ := memberForm?_eq_some hfree h
    cases heq
  · cases nameForm?_eq_some h
  · exact h

theorem access_of_form? {expression member : Text}
    (hform : form? line = some (.access expression member)) : member = typedToken line := by
  obtain ⟨_, heq⟩ := accessForm?_eq_some (accessForm?_of_form? hfree hform)
  exact (Form.access.inj heq).2

end

end Caret.Line
