import Caret.Proofs.Imports.Edit
import Caret.Proofs.Imports.Request

/-!
# What is done about a request

A request is either met by a statement that is there, or the script is edited in one of two ways: a line
is added at the place for new imports, or a name is added to the line of the first statement that
imports from the same module and stands alone on a plain line. Everything about edits is derived from
`insert_cases`.
-/

namespace Caret.Imports

open Script.Lexer (importedText)

/-- Where a script is edited for a request. -/
inductive Site where
  /-- A new line behind a number of lines. -/
  | line (index : Nat)
  /-- One more name on the line behind a number of lines. -/
  | name (index : Nat)
  deriving DecidableEq

/-- What stands before the place where a script is edited. -/
def Site.front (source : Text) : Site → Text
  | .line index => ((Text.lines source).take index).flatten
  | .name index => ((Text.lines source).take index).flatten ++ codeOf (((Text.lines source)[index]?).getD [])

/-- Whether a statement that is there does what a request asks for. -/
def Request.isMetBy (request : Request) (statement : Script.Statement) : Bool :=
  match request with
  | .ofModule module _ => bindsModule module request.bind statement
  | .ofMember module _ _ => bindsMember module request.bind statement

/-- What a request imports. -/
def Request.subject : Request → Text
  | .ofModule module _ => module
  | .ofMember _ name _ => name

/-- The name with its binding that a request adds to a line. -/
def Request.token (request : Request) : Text :=
  importedText (request.imported request.subject)

/-- Whether a statement imports from the module of a request, on a single plain line. -/
def Request.isOpen (request : Request) (source : Text) (statement : Script.Statement) : Bool :=
  match request with
  | .ofModule _ _ => false
  | .ofMember module _ _ =>
    (namesFrom? module statement).isSome && statement.firstLine == statement.lastLine &&
      ((Text.lines source)[statement.firstLine - 1]?).any isPlain

/-- Where a script is edited for a request that no statement of it meets. -/
def site [CharacterNames] (source : Text) (request : Request) : Site :=
  match ((Script.parse? source).getD []).find? (request.isOpen source) with
  | some statement => .name (statement.firstLine - 1)
  | none => .line (position source (Script.parse? source))

/-- The place is behind all lines that have to stay first. -/
theorem headLines_le_position {source : Text} (hne : Text.lines source ≠ [])
    (statements? : Option (List Script.Statement)) :
    headLines (Text.lines source) statements? ≤ position source statements? := by
  unfold position
  dsimp only
  rw [List.isEmpty_eq_false_iff.mpr hne, if_neg Bool.false_ne_true]
  exact Nat.le_add_right _ _

theorem site_eq_line [CharacterNames] {source : Text} {request : Request} {index : Nat}
    (h : site source request = .line index) :
    index = position source (Script.parse? source) := by
  unfold site at h
  split at h
  · cases h
  · exact (Site.line.inj h).symm

/-- How a script is edited for a request. -/
inductive EditedTo [CharacterNames] (source : Text) (request : Request) : Text → Prop
  | line {index : Nat} (hsite : site source request = .line index) :
      EditedTo source request (insertLine source index (request.text ++ ['\n']))
  | name {statement : Script.Statement} {raw : Text}
      (hsite : site source request = .name (statement.firstLine - 1))
      (hstatement : statement ∈ (Script.parse? source).getD [])
      (hopen : request.isOpen source statement = true)
      (hraw : (Text.lines source)[statement.firstLine - 1]? = some raw) (hplain : isPlain raw = true) :
      EditedTo source request (((Text.lines source).take (statement.firstLine - 1)).flatten ++
        (extended raw request.token ++ ((Text.lines source).drop (statement.firstLine - 1 + 1)).flatten))

theorem extendStatement_eq_none {source module name bind : Text} {statement : Script.Statement}
    (token : Text) (hfrom : (namesFrom? module statement).isSome = true)
    (h : (Request.ofMember module name bind).isOpen source statement = false) :
    extendStatement source statement token = none := by
  unfold extendStatement
  by_cases hline : statement.firstLine = statement.lastLine
  · rw [if_neg (not_not.mpr hline)]
    dsimp only
    split
    · rename_i raw hraw
      have hplain : isPlain raw = false := by
        rw [Request.isOpen, hfrom, hraw, beq_iff_eq.mpr hline] at h
        exact h
      rw [extendLine_eq, hplain]
      rfl
    · rfl
  · rw [if_pos hline]

theorem extendStatement_eq_some {source : Text} {request : Request} {statement : Script.Statement}
    (token : Text)
    (h : request.isOpen source statement = true) :
    ∃ raw, (Text.lines source)[statement.firstLine - 1]? = some raw ∧ isPlain raw = true ∧
      extendStatement source statement token =
        some (((Text.lines source).take (statement.firstLine - 1)).flatten ++
          (extended raw token ++ ((Text.lines source).drop (statement.firstLine - 1 + 1)).flatten)) := by
  cases request with
  | ofModule module bind => cases h
  | ofMember module name bind =>
    simp only [Request.isOpen, Bool.and_eq_true, beq_iff_eq] at h
    obtain ⟨⟨-, hline⟩, hany⟩ := h
    obtain ⟨raw, hraw, hplain⟩ := (Option.any_eq_true _ _).mp hany
    refine ⟨raw, hraw, hplain, ?_⟩
    have hlt := (List.getElem?_eq_some_iff.mp hraw).1
    unfold extendStatement
    rw [if_neg (not_not.mpr hline)]
    simp only [hraw, extendLine_eq, hplain, if_true, Option.map_some]
    rw [List.set_eq_take_append_cons_drop, if_pos hlt, List.flatten_append, List.flatten_cons]

/-- The first statement that can be extended decides which edit is made. -/
theorem findSome?_extendStatement {source module token : Text} (name bind : Text)
    (statements : List Script.Statement) :
    (statements.filter fun s => (namesFrom? module s).isSome).findSome? (extendStatement source · token) =
      (statements.find? ((Request.ofMember module name bind).isOpen source)).bind
        (extendStatement source · token) := by
  induction statements with
  | nil => rfl
  | cons statement statements ih =>
    rw [List.find?_cons]
    by_cases hfrom : (namesFrom? module statement).isSome = true
    · rw [List.filter_cons, if_pos hfrom, List.findSome?_cons]
      cases hopen : (Request.ofMember module name bind).isOpen source statement with
      | true =>
        obtain ⟨raw, -, -, hextend⟩ := extendStatement_eq_some token hopen
        rw [hextend]
        exact hextend.symm
      | false =>
        rw [extendStatement_eq_none token hfrom hopen]
        exact ih
    · have hopen : (Request.ofMember module name bind).isOpen source statement = false := by
        simp [Request.isOpen, hfrom]
      rw [List.filter_cons, if_neg hfrom, hopen]
      exact ih

/-- What comes of a request. -/
theorem insert_cases [CharacterNames] (source : Text) {request : Request} (h : request.Spaceless) :
    (((Script.parse? source).getD []).any request.isMetBy = true ∧
      insert source request = ⟨source, .already⟩) ∨
      (((Script.parse? source).getD []).any request.isMetBy = false ∧
        ∃ text, insert source request = ⟨text, .updated⟩ ∧ EditedTo source request text) := by
  cases hmet : ((Script.parse? source).getD []).any request.isMetBy with
  | true =>
    refine .inl ⟨rfl, ?_⟩
    cases request with
    | ofModule module bind => rw [insert_ofModule h]; exact if_pos hmet
    | ofMember module name bind => rw [insert_ofMember h]; exact if_pos hmet
  | false =>
    refine .inr ⟨rfl, ?_⟩
    cases request with
    | ofModule module bind =>
      have hsite : site source (.ofModule module bind) = .line (position source (Script.parse? source)) := by
        have hnone : ((Script.parse? source).getD []).find? ((Request.ofModule module bind).isOpen source) =
            none := List.find?_eq_none.mpr fun _ _ => Bool.false_ne_true
        rw [site, hnone]
      refine ⟨_, ?_, .line hsite⟩
      rw [insert_ofModule h]
      exact if_neg (Bool.eq_false_iff.mp hmet)
    | ofMember module name bind =>
      have hunmet : ¬ ((Script.parse? source).getD []).any
          (bindsMember module (Request.ofMember module name bind).bind) = true := Bool.eq_false_iff.mp hmet
      rw [insert_ofMember h, if_neg hunmet, findSome?_extendStatement name bind]
      cases hfind : ((Script.parse? source).getD []).find?
          ((Request.ofMember module name bind).isOpen source) with
      | none =>
        have hsite : site source (.ofMember module name bind) =
            .line (position source (Script.parse? source)) := by rw [site, hfind]
        exact ⟨_, rfl, .line hsite⟩
      | some statement =>
        have hsite : site source (.ofMember module name bind) = .name (statement.firstLine - 1) := by
          rw [site, hfind]
        have hopen := List.find?_some hfind
        obtain ⟨raw, hraw, hplain, hextend⟩ :=
          extendStatement_eq_some (Request.ofMember module name bind).token hopen
        refine ⟨_, ?_, .name hsite (List.mem_of_find?_eq_some hfind) hopen hraw hplain⟩
        have htoken : importedText ((Request.ofMember module name bind).imported name) =
            (Request.ofMember module name bind).token := rfl
        rw [Option.bind_some, htoken, hextend]

/-- A statement that leads to an edit makes a request. -/
theorem insertStatement_cases [CharacterNames] {source statement : Text}
    (h : (insertStatement source statement).status = .updated) :
    ∃ request, Request.read? statement = some request ∧ request.Spaceless ∧
      EditedTo source request (insertStatement source statement).text := by
  unfold insertStatement at h ⊢
  cases hread : Request.read? statement with
  | none =>
    rw [hread] at h
    cases h
  | some request =>
    have hspaceless := spaceless_of_read? hread
    rw [hread] at h
    dsimp only at h ⊢
    refine ⟨request, rfl, hspaceless, ?_⟩
    rcases insert_cases source hspaceless with ⟨-, hinsert⟩ | ⟨-, text, hinsert, hedit⟩
    · rw [hinsert] at h
      cases h
    · rw [hinsert]
      exact hedit

end Caret.Imports
