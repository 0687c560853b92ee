import Caret.Proofs.Classes.Source

/-!
# One completion

What a completion at a caret inside a text comes to: the text before the caret, its last line and the
typed token are read, the two sources produce candidates for them, and the result is cut from those.
Everything about results is said of `Provider.produced`, the candidates before they are sorted and
cut.
-/

namespace Caret.Completion

open Files Modules

variable {ε : Type}

/-! ### What is read at the caret -/

section

variable {text : Text} {caret : Int} (hlow : 0 ≤ caret) (hhigh : caret ≤ text.length)

include hlow hhigh

theorem textBefore_eq : Editor.textBefore text caret = .ok (text.take caret.toNat) := by
  rw [Editor.textBefore, if_pos ⟨hlow, hhigh⟩]

theorem length_take_caret : ((text.take caret.toNat).length : Int) = caret := by
  rw [List.length_take]
  omega

end

theorem lastLine_suffix (text : Text) : Editor.lastLine text <:+ text :=
  Text.afterLast_suffix _ _

theorem not_mem_lastLine (text : Text) : '\n' ∉ Editor.lastLine text :=
  Text.not_mem_afterLast _ _

/-- The typed token is the end of the text before the caret. -/
theorem typedToken_lastLine_suffix (text : Text) :
    Line.typedToken (Editor.lastLine text) <:+ text :=
  (Line.typedToken_suffix (not_mem_lastLine text)).trans (lastLine_suffix text)

/-! ### What the sources produce -/

namespace Provider

variable (provider : Provider ε) (disk : Disk) (state : State ε)

/-- What the two sources produce for a line, the script first. A source that fails produces nothing,
and neither is asked about a line that cannot be completed. -/
def produced (prior line seed : Text) : List Candidate :=
  if Line.isCompletable line then
    contributed (provider.assemble disk prior line seed state).1 ++
      contributed (Classes.candidates provider.classes line seed)
  else []

theorem forLine_fst (prior line seed : Text) :
    (provider.forLine disk prior line seed state).1 =
      (rank seed (distinctCandidates (provider.produced disk state prior line seed))).take
        provider.limit := by
  rw [forLine, produced]
  split
  · rfl
  · simp [distinctCandidates, rank]

/-- A completion at a caret inside a text. -/
theorem complete_ofText {text : Text} {caret : Int} (hlow : 0 ≤ caret) (hhigh : caret ≤ text.length) :
    (provider.complete disk (.ofText text caret) state).1 =
      let before := text.take caret.toNat
      let line := Editor.lastLine before
      let seed := Line.typedToken line
      ⟨(provider.forLine disk (before.take (before.length - line.length)) line seed state).1,
        (before.length : Int) - seed.length, seed⟩ := by
  have hline := (lastLine_suffix (text.take caret.toNat)).length_le
  rw [complete, Editor.View.ofText, textBefore_eq hlow hhigh]
  simp only [Except.map, Text.upTo_length_sub hline]
  rfl

/-- What the script's source looks at: the load path is extended by what the text before the line
adds to it. -/
def viewFor (prior : Text) : View :=
  ⟨disk, state.loadPath.extend disk (Line.searchPath prior)⟩

theorem assemble_apply (prior line seed : Text) :
    provider.assemble disk prior line seed state =
      match classifyWith disk prior line seed state.loadPath with
      | (.error fault, loadPath) => (.error fault, { state with loadPath })
      | (.ok none, loadPath) => (.ok [], { state with loadPath })
      | (.ok (some context), loadPath) =>
        ask disk (provider.assembler.assemble provider.library context) { state with loadPath } := by
  rw [assemble]
  simp only [bind, ExceptT.bind, ExceptT.mk, StateT.bind, classify]
  rcases classifyWith disk prior line seed state.loadPath with ⟨_ | _ | context, loadPath⟩ <;> rfl

theorem assembled_of_assemble_fst {prior line seed : Text} {candidates : List Candidate}
    (hrun : (provider.assemble disk prior line seed state).1 = .ok candidates) :
    candidates = [] ∨ ∃ context, Line.classify prior line seed = some context ∧
      Assembled provider.assembler provider.library (viewFor disk state prior) state.engine context
        candidates := by
  rw [assemble_apply] at hrun
  by_cases hconsidered : Line.isConsidered line seed = true
  · simp only [classifyWith, hconsidered, if_true] at hrun
    rcases hregister : LoadPath.register disk (Line.searchPath prior) state.loadPath with
      ⟨fault | _, loadPath⟩
    · rw [hregister] at hrun
      cases hrun
    have hview : viewFor disk state prior = ⟨disk, loadPath⟩ := by
      rw [viewFor, LoadPath.extend, hregister]
    cases hclassify : Line.classify prior line seed with
    | none =>
      rw [hregister, hclassify] at hrun
      exact .inl (Except.ok.inj hrun).symm
    | some context =>
      rw [hregister, hclassify] at hrun
      rw [hview]
      exact .inr ⟨context, rfl, assembled_of_assemble (Prod.ext hrun rfl)⟩
  · simp only [classifyWith, hconsidered] at hrun
    exact .inl (Except.ok.inj hrun).symm

/-- The completed lines for a line: those of its context and those of the classes. -/
def Completes (prior line seed completed : Text) : Prop :=
  (∃ context, Line.classify prior line seed = some context ∧
    ScriptLine provider.assembler provider.library (viewFor disk state prior) state.engine context
      completed) ∨
  ∃ discovery, provider.classes = some discovery ∧ Classes.ClassLine discovery line completed

end Provider

theorem classify_eq_some {prior line seed : Text} {context : Line.Context}
    (hclassify : Line.classify prior line seed = some context) :
    context.line = line ∧ context.seed = seed ∧ Line.form? line = some context.form := by
  obtain ⟨hform, hcontext⟩ := Line.classify_eq hclassify
  exact ⟨congrArg (·.line) hcontext, congrArg (·.seed) hcontext, hform⟩

theorem mem_contributed {result : Except Fault (List Candidate)} {candidate : Candidate}
    (hcandidate : candidate ∈ contributed result) :
    ∃ candidates, result = .ok candidates ∧ candidate ∈ candidates := by
  cases result with
  | error fault => exact absurd hcandidate List.not_mem_nil
  | ok candidates => exact ⟨candidates, rfl, hcandidate⟩

/-- Every candidate that a source produces for the typed token leads to a completed line. -/
theorem exists_completes_of_mem_produced {provider : Provider ε} {disk : Disk} {state : State ε}
    {prior line : Text} (hfree : '\n' ∉ line) {candidate : Candidate}
    (hcandidate : candidate ∈ provider.produced disk state prior line (Line.typedToken line)) :
    ∃ completed, provider.Completes disk state prior line (Line.typedToken line) completed ∧
      LeadsTo line (Line.typedToken line) candidate completed := by
  rw [Provider.produced] at hcandidate
  split at hcandidate
  · rcases List.mem_append.mp hcandidate with hscript | hclass
    · obtain ⟨candidates, hrun, hmem⟩ := mem_contributed hscript
      rcases provider.assembled_of_assemble_fst disk state hrun with rfl | ⟨context, hclassify, hlist⟩
      · exact absurd hmem List.not_mem_nil
      · obtain ⟨hline, hseed, hform⟩ := classify_eq_some hclassify
        subst hline
        obtain ⟨completed, hcompleted, hleads⟩ :=
          exists_scriptLine_of_mem_assembled hfree hseed hform hlist hmem
        rw [hseed] at hleads
        exact ⟨completed, .inl ⟨context, hclassify, hcompleted⟩, hleads⟩
    · obtain ⟨candidates, hrun, hmem⟩ := mem_contributed hclass
      obtain ⟨discovery, completed, hdiscovery, hcompleted, hleads⟩ :=
        Classes.exists_classLine_of_mem_candidates hfree hrun hmem
      exact ⟨completed, .inr ⟨discovery, hdiscovery, hcompleted⟩, hleads⟩
  · exact absurd hcandidate List.not_mem_nil

end Caret.Completion
