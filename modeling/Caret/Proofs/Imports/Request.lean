import Caret.Imports.Insert
import Caret.Proofs.Script.ImportLine
import Caret.Proofs.Text.Parts
import Caret.Proofs.Text.Words

/-!
# What a request asks for

A request that was read from a statement has no white space in it. It is carried out by the text of an
import, whose names are those of the request. Where these are names of the language, the text is a
script that does what was asked for.
-/

namespace Caret

namespace Imports

open Script (PlainName)
open Script.Lexer (boundText importedText moduleText memberText)
open Script.Parser (Imported pathOf)

/-! ### What is written -/

/-- The name that an import is bound to, if one is written. -/
def Request.bound? : Request → Option Text
  | .ofModule module bind => if bind = [] ∨ bind = rootOf module then none else some bind
  | .ofMember _ name bind => if bind = [] ∨ bind = name then none else some bind

/-- The module that a request is about. -/
def Request.module : Request → Text
  | .ofModule module _ => module
  | .ofMember module _ _ => module

/-- The name that a request takes from its module, as it is spelled. -/
def Request.imported (name : Text) (request : Request) : Imported :=
  ⟨name, request.bound?⟩

/-- The text of the import that a request asks for. -/
def Request.text (request : Request) : Text :=
  match request with
  | .ofModule module _ => "import ".toList ++ (module ++ boundText request.bound?)
  | .ofMember module name _ =>
    "from ".toList ++ (module ++ (" import ".toList ++ importedText (request.imported name)))

/-- A module as it is known once its parts have been brought to their usual form. -/
def usualPath (module : Text) : Text :=
  Text.join ['.'] ((Text.splitOn '.' module).map Text.compatibilityForm)

/-- What the import does that a request asks for. -/
def Request.action (request : Request) : Script.Action :=
  match request with
  | .ofModule module _ =>
    .importModules [⟨usualPath module, request.bound?.map Text.compatibilityForm⟩]
  | .ofMember module name _ => .importFrom 0 (some (usualPath module)) [(request.imported name).alias]

/-- The names of a request are names of the language. -/
def Request.Named (request : Request) : Prop :=
  (∀ part ∈ Text.splitOn '.' request.module, PlainName part) ∧
    (∀ bound ∈ request.bound?, PlainName bound) ∧
      match request with
      | .ofModule _ _ => True
      | .ofMember _ name _ => PlainName name

theorem usualPath_of_splitOn {module first : Text} {more : List Text}
    (h : Text.splitOn '.' module = first :: more) : usualPath module = pathOf first more := by
  rw [usualPath, h]
  rfl

/-- The line for a request is a script of the import that it asks for. -/
theorem Request.Named.parse? [CharacterNames] {request : Request} (h : request.Named) :
    ∃ statement : Script.Statement, Script.parse? (request.text ++ ['\n']) = some [statement] ∧
      statement.action = request.action := by
  obtain ⟨first, more, hparts⟩ := Text.exists_splitOn '.' request.module
  have hjoin := Text.join_splitOn '.' request.module
  obtain ⟨hplain, hbound, hname⟩ := h
  rw [hparts] at hplain hjoin
  have hpath := usualPath_of_splitOn hparts
  cases request with
  | ofModule module bind =>
    obtain ⟨statement, hparse, hgist⟩ := Script.parse?_moduleText hplain hbound
    have htext : moduleText first more (Request.ofModule module bind).bound? =
        (Request.ofModule module bind).text := by
      unfold moduleText Request.text
      generalize "import ".toList = keyword
      rw [hjoin]
      rfl
    refine ⟨statement, by rw [← htext, hparse], (congrArg Prod.fst hgist).trans ?_⟩
    rw [← hpath]
    rfl
  | ofMember module name bind =>
    have himported : Script.Lexer.PlainImport ((Request.ofMember module name bind).imported name) :=
      ⟨hname, hbound⟩
    obtain ⟨statement, hparse, hgist⟩ := Script.parse?_memberText hplain himported
    have htext : memberText first more ((Request.ofMember module name bind).imported name) =
        (Request.ofMember module name bind).text := by
      unfold memberText Request.text
      generalize "from ".toList = keyword
      generalize " import ".toList = keyword'
      rw [hjoin]
      rfl
    refine ⟨statement, by rw [← htext, hparse], (congrArg Prod.fst hgist).trans ?_⟩
    rw [← hpath]
    rfl

theorem Request.Named.isInline_text {request : Request} (h : request.Named) :
    ∀ c ∈ request.text, Script.Lexer.isInline c = true := by
  have himport : ∀ c ∈ "import ".toList, Script.Lexer.isInline c = true :=
    Text.forall_mem_of_all (by decide)
  have hbefore : ∀ c ∈ " import ".toList, Script.Lexer.isInline c = true :=
    Text.forall_mem_of_all (by decide)
  have hfrom : ∀ c ∈ "from ".toList, Script.Lexer.isInline c = true :=
    Text.forall_mem_of_all (by decide)
  obtain ⟨hplain, hbound, hname⟩ := h
  have hmodule : ∀ c ∈ request.module, Script.Lexer.isInline c = true := by
    have hjoin := Script.Lexer.isInline_join hplain
    rwa [Text.join_splitOn] at hjoin
  intro c hc
  cases request with
  | ofModule module bind =>
    rcases List.mem_append.mp hc with hc | hc
    · exact himport c hc
    · exact (List.mem_append.mp hc).elim (hmodule c) (Script.Lexer.isInline_boundText hbound c)
  | ofMember module name bind =>
    rcases List.mem_append.mp hc with hc | hc
    · exact hfrom c hc
    · rcases List.mem_append.mp hc with hc | hc
      · exact hmodule c hc
      · exact (List.mem_append.mp hc).elim (hbefore c) (Script.Lexer.isInline_importedText ⟨hname, hbound⟩ c)

theorem Request.text_ne_nil (request : Request) : request.text ≠ [] := by
  cases request <;> exact fun h => nomatch (List.append_eq_nil_iff.mp h).1

/-! ### What is read and carried out -/

/-- Nothing of a request is lost when white space is removed, and its module and name are there. -/
def Request.Spaceless : Request → Prop
  | .ofModule module bind => module ≠ [] ∧ Text.trim module = module ∧ Text.trim bind = bind
  | .ofMember module name bind =>
    module ≠ [] ∧ Text.trim module = module ∧ name ≠ [] ∧ Text.trim name = name ∧ Text.trim bind = bind

theorem spaceless_of_read? {statement : Text} {request : Request}
    (h : Request.read? statement = some request) : request.Spaceless := by
  have hword : ∀ word ∈ Text.words statement, word ≠ [] ∧ Text.trim word = word := by
    intro word hmem
    obtain ⟨hne, hfree⟩ := Text.not_isSpace_of_mem_words hmem
    exact ⟨hne, Text.trim_of_not_isSpace hfree⟩
  unfold Request.read? at h
  dsimp only at h
  split at h
  · rename_i a module b name hwords
    rw [hwords] at hword
    have hmodule := hword module (by simp)
    have hname := hword name (by simp)
    split at h
    · cases h
      exact ⟨hmodule.1, hmodule.2, hname.1, hname.2, rfl⟩
    · split at h
      · cases h
        exact ⟨hmodule.1, hmodule.2, hname.2⟩
      · cases h
  · rename_i a module b name c bind hwords
    rw [hwords] at hword
    have hmodule := hword module (by simp)
    have hname := hword name (by simp)
    split at h
    · cases h
      exact ⟨hmodule.1, hmodule.2, hname.1, hname.2, (hword bind (by simp)).2⟩
    · cases h
  · rename_i a module hwords
    rw [hwords] at hword
    have hmodule := hword module (by simp)
    split at h
    · cases h
      exact ⟨hmodule.1, hmodule.2, rfl⟩
    · cases h
  · cases h

/-- The name that a request binds. -/
def Request.bind : Request → Text
  | .ofModule module bind => if bind = [] then rootOf module else bind
  | .ofMember _ name bind => if bind = [] then name else bind

theorem boundText_bound? {usual bind : Text} :
    (if (if bind = [] then usual else bind) = usual then [] else
      " as ".toList ++ (if bind = [] then usual else bind)) =
      boundText (if bind = [] ∨ bind = usual then none else some bind) := by
  by_cases hempty : bind = []
  · simp [hempty, boundText]
  · by_cases husual : bind = usual
    · simp [husual, boundText]
    · simp [hempty, husual, boundText]

/-- How a module is imported. -/
theorem insert_ofModule [CharacterNames] {source module bind : Text}
    (h : (Request.ofModule module bind).Spaceless) :
    insert source (.ofModule module bind) =
      if ((Script.parse? source).getD []).any (bindsModule module (Request.ofModule module bind).bind) then
        ⟨source, .already⟩
      else addLine source (Script.parse? source) ((Request.ofModule module bind).text ++ ['\n']) := by
  obtain ⟨hne, hmodule, hbind⟩ := h
  have hempty : module.isEmpty = false := by simpa using hne
  have hname : (if bind.isEmpty = true then rootOf module else bind) =
      (Request.ofModule module bind).bind := by
    simp [Request.bind, List.isEmpty_iff]
  have hline : "import ".toList ++ module ++ (if (Request.ofModule module bind).bind = rootOf module then []
      else " as ".toList ++ (Request.ofModule module bind).bind) ++ ['\n'] =
        (Request.ofModule module bind).text ++ ['\n'] := by
    rw [Request.bind, boundText_bound?, List.append_assoc _ module]
    rfl
  rw [insert, insertModule]
  simp only [hmodule, hbind, hempty, hname, hline, Bool.false_eq_true, if_false]

/-- How a name is imported from a module. -/
theorem insert_ofMember [CharacterNames] {source module name bind : Text}
    (h : (Request.ofMember module name bind).Spaceless) :
    insert source (.ofMember module name bind) =
      if ((Script.parse? source).getD []).any
          (bindsMember module (Request.ofMember module name bind).bind) then
        ⟨source, .already⟩
      else
        match (((Script.parse? source).getD []).filter fun s => (namesFrom? module s).isSome).findSome?
            (extendStatement source · (importedText ((Request.ofMember module name bind).imported name))) with
        | some text => ⟨text, .updated⟩
        | none => addLine source (Script.parse? source)
            ((Request.ofMember module name bind).text ++ ['\n']) := by
  obtain ⟨hne, hmodule, hne', hname, hbind⟩ := h
  have hempty : (module.isEmpty || name.isEmpty) = false := by simp [hne, hne']
  have hbound : (if bind.isEmpty = true then name else bind) = (Request.ofMember module name bind).bind := by
    simp [Request.bind, List.isEmpty_iff]
  have htoken : (if (Request.ofMember module name bind).bind = name then name
      else name ++ " as ".toList ++ (Request.ofMember module name bind).bind) =
        importedText ((Request.ofMember module name bind).imported name) := by
    rw [importedText, Request.imported, Request.bound?, ← boundText_bound?, Request.bind]
    generalize " as ".toList = keyword
    generalize (if bind = [] then name else bind) = asked
    split
    · exact (List.append_nil name).symm
    · exact List.append_assoc _ _ _
  have hline : "from ".toList ++ module ++ " import ".toList ++
      importedText ((Request.ofMember module name bind).imported name) ++ ['\n'] =
        (Request.ofMember module name bind).text ++ ['\n'] := by
    unfold Request.text
    generalize "from ".toList = keyword
    generalize " import ".toList = keyword'
    rw [List.append_assoc keyword, List.append_assoc keyword, List.append_assoc module]
  rw [insert, insertMember]
  simp only [hmodule, hname, hbind, hempty, hbound, htoken, Bool.false_eq_true, if_false]
  rewrite [hline]
  rfl

end Imports

end Caret
