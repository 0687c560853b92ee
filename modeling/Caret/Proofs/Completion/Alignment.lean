import Caret.Proofs.Completion.Provider

/-!
# Alignment with the caret

The seed of a result ends at the caret and its offset is where the seed starts; and every candidate,
put in place of the seed, turns the line into one of its completed lines. This holds whatever the
collaborators answer.
-/

namespace Caret.Completion

open Files Modules

variable {ε : Type}

theorem mem_result_produced {provider : Provider ε} {disk : Disk} {state : State ε}
    {prior line seed : Text} {candidate : Candidate}
    (hcandidate : candidate ∈ (provider.forLine disk prior line seed state).1) :
    candidate ∈ provider.produced disk state prior line seed := by
  rw [Provider.forLine_fst] at hcandidate
  have hranked := List.mem_of_mem_take hcandidate
  rw [rank, List.mem_mergeSort, distinctCandidates_eq] at hranked
  exact (keepNew_sublist _ _).subset hranked

/-- A result fits what is read at the caret: the text before it, its last line and the typed
token. -/
structure Aligned (provider : Provider ε) (disk : Disk) (state : State ε) (text : Text) (caret : Int)
    (before line seed : Text) (result : Result) : Prop where
  before_read : (Editor.View.ofText text caret).before = .ok before
  line_read : (Editor.View.ofText text caret).line = .ok line
  seed_read : (Editor.View.ofText text caret).typed = .ok seed
  seed_eq : result.seed = seed
  offset_nonneg : 0 ≤ result.offset
  offset_add_length : result.offset + seed.length = caret
  seed_at_offset : (text.take caret.toNat).drop result.offset.toNat = seed
  completes : ∀ candidate ∈ result.candidates,
    provider.Completes disk state (before.take (before.length - line.length)) line seed
      (line.take (line.length - seed.length) ++ candidate.replacement)

/-- A completion at a caret inside the text is aligned with the caret. -/
theorem complete_aligned (provider : Provider ε) (disk : Disk) (state : State ε) (text : Text)
    (caret : Int) (hlow : 0 ≤ caret) (hhigh : caret ≤ text.length) :
    ∃ before line seed, Aligned provider disk state text caret before line seed
      (provider.complete disk (.ofText text caret) state).1 := by
  have hbefore := textBefore_eq hlow hhigh
  have hlength := length_take_caret hlow hhigh
  generalize hdef : text.take caret.toNat = before at hbefore hlength
  have hseed := typedToken_lastLine_suffix before
  have hle := hseed.length_le
  refine ⟨before, Editor.lastLine before, Line.typedToken (Editor.lastLine before), ?_⟩
  rw [provider.complete_ofText disk state hlow hhigh, hdef]
  constructor
  · exact hbefore
  · rw [Editor.View.ofText, hbefore]
    rfl
  · rw [Editor.View.ofText, hbefore]
    rfl
  · rfl
  · dsimp only
    omega
  · dsimp only
    omega
  · dsimp only
    obtain ⟨front, hfront⟩ := hseed
    have hoffset : ((before.length : Int) -
        (Line.typedToken (Editor.lastLine before)).length).toNat = front.length := by
      have := congrArg List.length hfront
      rw [List.length_append] at this
      omega
    rw [hdef, hoffset]
    nth_rewrite 1 [← hfront]
    exact List.drop_left
  · intro candidate hcandidate
    obtain ⟨completed, hcompletes, hleads⟩ :=
      exists_completes_of_mem_produced (not_mem_lastLine before) (mem_result_produced hcandidate)
    rw [hleads.completed_eq]
    exact hcompletes

/-- A provider for which every module exports one name. -/
def oneExport : Provider Unit where
  assembler := {
    indexer := ⟨fun _ => pure none⟩
    resolver := ⟨fun name => pure (some ⟨name, [("Root".toList, ⟨"Root".toList, [], []⟩)], []⟩)⟩
    caseSensitive := true }
  library := .pending
  classes := none
  maxItems := 5

/-- Without a blank behind the keyword the seed takes in the keyword, and so does the replacement. -/
theorem complete_aligned_without_blank :
    (0 : Int) ≤ 17 ∧ (17 : Int) ≤ "x\nfrom m importRo = 1".toList.length ∧
      (oneExport.complete ⟨.directory [], [], [], [], []⟩
        (.ofText "x\nfrom m importRo = 1".toList 17) ⟨{}, ()⟩).1.candidates.map (·.replacement) =
          ["import Root".toList] ∧
      ∃ before line seed, Aligned oneExport ⟨.directory [], [], [], [], []⟩ ⟨{}, ()⟩
        "x\nfrom m importRo = 1".toList 17 before line seed
        (oneExport.complete ⟨.directory [], [], [], [], []⟩
          (.ofText "x\nfrom m importRo = 1".toList 17) ⟨{}, ()⟩).1 :=
  ⟨by decide, by decide, by decide +kernel,
    complete_aligned oneExport _ _ "x\nfrom m importRo = 1".toList 17 (by decide) (by decide)⟩

end Caret.Completion
