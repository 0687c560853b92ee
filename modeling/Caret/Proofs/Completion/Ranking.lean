import Caret.Proofs.Completion.Provider
import Caret.Proofs.Text.Order
import Mathlib.Data.List.Nodup

/-!
# The order of a result

A result holds the first candidate of each pair of replacement and import, sorted by rank and cut to
the limit. Sorting is stable, so candidates with the same replacement stay in the order in which they
were produced; and what the cut leaves out ranks behind everything that it keeps.
-/

namespace Caret.Completion

open Files Modules

open scoped List

variable {ε : Type}

/-! ### Ranks -/

/-- Whether a candidate ranks before another one or with it: it goes on with the seed if the other
one does, and if both do or both do not, its replacement is not behind the other's. -/
def RanksBefore (seed : Text) (a b : Candidate) : Prop :=
  (seed <+: b.replacement → seed <+: a.replacement) ∧
    ((seed <+: a.replacement ↔ seed <+: b.replacement) →
      a.replacement = b.replacement ∨ Text.CodePointLT a.replacement b.replacement)

theorem rankKey_le_iff {seed : Text} {a b : Candidate} :
    (rankKey seed a).le (rankKey seed b) = true ↔ RanksBefore seed a b := by
  rw [RanksBefore, ← Text.le_iff_eq_or_codePointLT, RankKey.le, rankKey, rankKey]
  simp only [Bool.or_eq_true, Bool.and_eq_true, Bool.not_not, beq_iff_eq, Bool.not_inj_iff,
    ← Text.startsWith_iff]
  cases Text.startsWith a.replacement seed <;> cases Text.startsWith b.replacement seed <;> simp

theorem RanksBefore.trans {seed : Text} {a b c : Candidate} (hab : RanksBefore seed a b)
    (hbc : RanksBefore seed b c) : RanksBefore seed a c := by
  refine ⟨hab.1 ∘ hbc.1, fun hac => ?_⟩
  have hb : (seed <+: a.replacement ↔ seed <+: b.replacement) :=
    ⟨fun h => by rw [hac] at h; exact hbc.1 h, hab.1⟩
  have h₁ := Text.le_iff_eq_or_codePointLT.mpr (hab.2 hb)
  have h₂ := Text.le_iff_eq_or_codePointLT.mpr (hbc.2 (hb.symm.trans hac))
  exact Text.le_iff_eq_or_codePointLT.mp (Text.le_trans h₁ h₂)

theorem ranksBefore_total (seed : Text) (a b : Candidate) :
    RanksBefore seed a b ∨ RanksBefore seed b a := by
  simp only [RanksBefore, ← Text.le_iff_eq_or_codePointLT]
  rcases Text.le_total a.replacement b.replacement with h | h <;> grind

theorem ranksBefore_of_replacement_eq {seed : Text} {a b : Candidate}
    (heq : a.replacement = b.replacement) : RanksBefore seed a b :=
  ⟨fun h => heq ▸ h, fun _ => .inl heq⟩

theorem RanksBefore.replacement_eq {seed : Text} {a b : Candidate} (hab : RanksBefore seed a b)
    (hba : RanksBefore seed b a) : a.replacement = b.replacement := by
  have hsame : (seed <+: a.replacement ↔ seed <+: b.replacement) := ⟨hba.1, hab.1⟩
  have h₁ := Text.le_iff_eq_or_codePointLT.mpr (hab.2 hsame)
  have h₂ := Text.le_iff_eq_or_codePointLT.mpr (hba.2 hsame.symm)
  exact Text.le_antisymm h₁ h₂

/-! ### Sorting -/

section

variable (seed : Text) (candidates : List Candidate)

private theorem rankLE_trans (a b c : Candidate) :
    (rankKey seed a).le (rankKey seed b) = true → (rankKey seed b).le (rankKey seed c) = true →
      (rankKey seed a).le (rankKey seed c) = true := by
  rw [rankKey_le_iff, rankKey_le_iff, rankKey_le_iff]
  exact RanksBefore.trans

private theorem rankLE_total (a b : Candidate) :
    ((rankKey seed a).le (rankKey seed b) || (rankKey seed b).le (rankKey seed a)) = true := by
  rw [Bool.or_eq_true, rankKey_le_iff, rankKey_le_iff]
  exact ranksBefore_total seed a b

theorem rank_perm : rank seed candidates ~ candidates :=
  List.mergeSort_perm _ _

theorem rank_pairwise : (rank seed candidates).Pairwise (RanksBefore seed) := by
  have hsorted := List.pairwise_mergeSort (rankLE_trans seed) (rankLE_total seed) candidates
  exact hsorted.imp rankKey_le_iff.mp

/-- Candidates with the same replacement keep their order. -/
theorem filter_rank (text : Text) :
    (rank seed candidates).filter (·.replacement = text) =
      candidates.filter (·.replacement = text) := by
  have hequal : (candidates.filter (·.replacement = text)).Pairwise
      fun a b => (rankKey seed a).le (rankKey seed b) = true := by
    refine List.Pairwise.imp_of_mem ?_ (List.pairwise_of_forall fun _ _ => trivial)
    intro a b ha hb _
    have ha := of_decide_eq_true (List.mem_filter.mp ha).2
    have hb := of_decide_eq_true (List.mem_filter.mp hb).2
    exact rankKey_le_iff.mpr (ranksBefore_of_replacement_eq (ha.trans hb.symm))
  have hsub : candidates.filter (·.replacement = text) <+ rank seed candidates :=
    List.sublist_mergeSort (rankLE_trans seed) (rankLE_total seed) hequal List.filter_sublist
  have hfilter := hsub.filter (·.replacement = text)
  rw [List.filter_filter] at hfilter
  simp only [Bool.and_self] at hfilter
  refine (hfilter.eq_of_length ?_).symm
  exact ((rank_perm seed candidates).filter _).length_eq.symm

/-- Candidates with different replacements have one order by rank. -/
theorem rank_eq (ranked : List Candidate) (hperm : ranked ~ candidates)
    (hsorted : ranked.Pairwise fun a b =>
      (rankKey seed a).le (rankKey seed b) = true ∧ a.replacement ≠ b.replacement) :
    rank seed candidates = ranked := by
  have hranked : ranked.Pairwise (RanksBefore seed) := hsorted.imp fun hab => rankKey_le_iff.mp hab.1
  have hdistinct : (ranked.map (·.replacement)).Nodup := List.pairwise_map.mpr (hsorted.imp And.right)
  have hsame : rank seed candidates ~ ranked := (rank_perm seed candidates).trans hperm.symm
  refine hsame.eq_of_pairwise (fun a b ha hb hab hba => ?_) (rank_pairwise seed candidates) hranked
  exact List.inj_on_of_nodup_map hdistinct (hsame.mem_iff.mp ha) hb (hab.replacement_eq hba)

end

/-! ### The cut -/

/-- What is kept of a list in the order of ranks comes before what is cut off. -/
theorem ranksBefore_of_mem_drop {seed : Text} {candidates : List Candidate} {limit : Nat}
    {a b : Candidate} (ha : a ∈ (rank seed candidates).take limit)
    (hb : b ∈ (rank seed candidates).drop limit) : RanksBefore seed a b := by
  have hsorted := rank_pairwise seed candidates
  rw [← List.take_append_drop limit (rank seed candidates), List.pairwise_append] at hsorted
  exact hsorted.2.2 a ha b hb

/-- A list of candidates is the result for what was produced: every pair of replacement and import
once, by its first candidate; those that go on with the seed first, and by replacement within the
two groups; equal replacements as they were produced; and nothing left out for want of room that
ranks before something kept. -/
structure Ranked (maxItems : Int) (seed : Text) (produced ranked : List Candidate) : Prop where
  distinct : ranked.Pairwise fun a b => a.key ≠ b.key
  flag : ∀ candidate ∈ ranked, candidate.prefixMatch = true ↔ seed <+: candidate.replacement
  flagged_first : ranked.Pairwise fun a b => b.prefixMatch = true → a.prefixMatch = true
  ordered : ranked.Pairwise fun a b => a.prefixMatch = b.prefixMatch →
    a.replacement = b.replacement ∨ Text.CodePointLT a.replacement b.replacement
  stable : ∀ text, ranked.filter (·.replacement = text) <+ produced
  first : ∀ candidate ∈ ranked, produced.find? (·.key = candidate.key) = some candidate
  length_le : (ranked.length : Int) ≤ max 1 maxItems
  complete : ∀ candidate ∈ produced, (∃ kept ∈ ranked, kept.key = candidate.key) ∨
    ((ranked.length : Int) = max 1 maxItems ∧ ∀ kept ∈ ranked, RanksBefore seed kept candidate)

/-- Sorting the first candidates of their kinds and cutting them gives a result, if the flags of what
was produced are right. -/
theorem ranked_take {maxItems : Int} {seed : Text} {produced : List Candidate}
    (hflag : ∀ candidate ∈ produced,
      candidate.prefixMatch = Text.startsWith candidate.replacement seed) :
    Ranked maxItems seed produced
      ((rank seed (distinctCandidates produced)).take (max 1 maxItems).toNat) := by
  generalize hlimit : (max 1 maxItems).toNat = limit
  have hsub : distinctCandidates produced <+ produced := by
    rw [distinctCandidates_eq]
    exact keepNew_sublist _ _
  have hmem : ∀ candidate ∈ (rank seed (distinctCandidates produced)).take limit,
      candidate ∈ distinctCandidates produced := by
    intro candidate hcandidate
    exact (rank_perm seed _).mem_iff.mp (List.mem_of_mem_take hcandidate)
  have hflags : ∀ candidate ∈ (rank seed (distinctCandidates produced)).take limit,
      candidate.prefixMatch = true ↔ seed <+: candidate.replacement := by
    intro candidate hcandidate
    rw [hflag candidate (hsub.subset (hmem candidate hcandidate)), Text.startsWith_iff]
  have hsorted := (rank_pairwise seed (distinctCandidates produced)).sublist
    (List.take_sublist limit _)
  constructor
  case distinct =>
    have hkeys : (distinctCandidates produced).Pairwise fun a b => a.key ≠ b.key := by
      rw [distinctCandidates_eq]
      refine (keepNew_pairwise (sameKey Candidate.key) [] produced .nil).imp ?_
      intro a b hab heq
      rw [(sameKey_iff Candidate.key).mpr heq] at hab
      cases hab
    exact ((rank_perm seed _).symm.pairwise hkeys fun h => h.symm).sublist (List.take_sublist _ _)
  case flag => exact hflags
  case flagged_first =>
    refine hsorted.imp_of_mem fun ha hb hab => ?_
    rw [hflags _ ha, hflags _ hb]
    exact hab.1
  case ordered =>
    refine hsorted.imp_of_mem fun ha hb hab heq => hab.2 ?_
    rw [← hflags _ ha, ← hflags _ hb, heq]
  case stable =>
    intro text
    have htake := (List.take_sublist limit (rank seed (distinctCandidates produced))).filter
      (·.replacement = text)
    rw [filter_rank] at htake
    exact htake.trans (List.filter_sublist.trans hsub)
  case first =>
    intro candidate hcandidate
    have hkept := hmem candidate hcandidate
    rw [distinctCandidates_eq] at hkept
    exact find?_of_mem_keepNew Candidate.key hkept
  case length_le =>
    have := List.length_take_le limit (rank seed (distinctCandidates produced))
    omega
  case complete =>
    intro candidate hcandidate
    obtain ⟨first, hfirst, hkey⟩ :=
      exists_mem_keepNew Candidate.key [] produced (.inr hcandidate)
    rw [← distinctCandidates_eq, ← (rank_perm seed _).mem_iff,
      ← List.take_append_drop limit (rank seed _), List.mem_append] at hfirst
    rcases hfirst with hfirst | hfirst
    · exact .inl ⟨first, hfirst, hkey⟩
    · refine .inr ⟨?_, fun kept hkept => ?_⟩
      · have hlong := List.length_pos_of_mem hfirst
        rw [List.length_drop] at hlong
        rw [List.length_take]
        omega
      · have hsame : first.replacement = candidate.replacement := (Prod.mk.inj hkey).1
        exact (ranksBefore_of_mem_drop hkept hfirst).trans (ranksBefore_of_replacement_eq hsame)

/-- The candidates of a completion at a caret inside the text are the result for what the two sources
produced for the line and the token before the caret. -/
theorem complete_ranked (provider : Provider ε) (disk : Disk) (state : State ε) (text : Text)
    (caret : Int) (hlow : 0 ≤ caret) (hhigh : caret ≤ text.length) :
    ∃ before line seed, (Editor.View.ofText text caret).before = .ok before ∧
      (Editor.View.ofText text caret).line = .ok line ∧
      (Editor.View.ofText text caret).typed = .ok seed ∧
      (provider.complete disk (.ofText text caret) state).1.seed = seed ∧
      Ranked provider.maxItems seed
        (provider.produced disk state (before.take (before.length - line.length)) line seed)
        (provider.complete disk (.ofText text caret) state).1.candidates := by
  have hbefore := textBefore_eq hlow hhigh
  generalize hdef : text.take caret.toNat = before at hbefore
  refine ⟨before, Editor.lastLine before, Line.typedToken (Editor.lastLine before), hbefore, ?_, ?_,
    ?_, ?_⟩
  · rw [Editor.View.ofText, hbefore]
    rfl
  · rw [Editor.View.ofText, hbefore]
    rfl
  · rw [provider.complete_ofText disk state hlow hhigh, hdef]
  · rw [provider.complete_ofText disk state hlow hhigh, hdef]
    dsimp only
    rw [Provider.forLine_fst]
    refine ranked_take fun candidate hcandidate => ?_
    obtain ⟨_, _, hleads⟩ := exists_completes_of_mem_produced (not_mem_lastLine before) hcandidate
    exact hleads.flag_eq

/-- A provider of two modules and of four classes, one of them twice, with room for four candidates. -/
def crowded : Provider Unit where
  assembler := {
    indexer := ⟨fun _ => pure none⟩
    resolver := ⟨fun _ => pure none⟩
    caseSensitive := true }
  library := .done ⟨["animals".toList, "antics".toList]⟩
  classes := some {
    isReady := .ok true
    holding _ := .ok (["oceans.Fish", "animals.Cat", "humans.Man", "animals.Cat"].map String.toList)
    ofPackage _ := .ok []
    startingWith _ := .ok []
    simplyStartingWith _ := .ok [] }
  maxItems := 4

/-- A disk with nothing on it. -/
def voidDisk : Disk where
  tree := .directory []
  cwd := []
  home := []
  library := []

/-- What there is to complete, by rank. -/
def crowdedRanked : List Candidate :=
  [⟨"animals import ".toList, "from animals import ".toList, [], true, libraryDescription⟩,
    ⟨"animals import Cat".toList, "from animals import Cat".toList, [], true, []⟩,
    ⟨"antics import ".toList, "from antics import ".toList, [], true, libraryDescription⟩,
    ⟨"humans import Man".toList, "from humans import Man".toList, [], false, []⟩,
    ⟨"oceans import Fish".toList, "from oceans import Fish".toList, [], false, []⟩]

/-- Modules and classes are ranked together. The class that comes twice is kept once, those that only hold what
is typed come last, and there is no room for the last of them. -/
theorem complete_ranked_crowded :
    (0 : Int) ≤ 7 ∧ (7 : Int) ≤ "from an".toList.length ∧
      (crowded.produced voidDisk ⟨{}, ()⟩ [] "from an".toList "an".toList).map (·.replacement) =
        ["animals import ", "antics import ", "oceans import Fish", "animals import Cat", "humans import Man",
          "animals import Cat"].map String.toList ∧
      (crowded.complete voidDisk (.ofText "from an".toList 7) ⟨{}, ()⟩).1.candidates = crowdedRanked.take 4 ∧
      ∃ before line seed, (Editor.View.ofText "from an".toList 7).before = .ok before ∧
        (Editor.View.ofText "from an".toList 7).line = .ok line ∧
        (Editor.View.ofText "from an".toList 7).typed = .ok seed ∧
        (crowded.complete voidDisk (.ofText "from an".toList 7) ⟨{}, ()⟩).1.seed = seed ∧
        Ranked 4 seed (crowded.produced voidDisk ⟨{}, ()⟩ (before.take (before.length - line.length)) line seed)
          (crowded.complete voidDisk (.ofText "from an".toList 7) ⟨{}, ()⟩).1.candidates := by
  refine ⟨by decide, by decide, by decide +kernel, ?_,
    complete_ranked crowded voidDisk ⟨{}, ()⟩ "from an".toList 7 (by decide) (by decide)⟩
  rw [crowded.complete_ofText voidDisk _ (by decide) (by decide)]
  dsimp only
  rw [Provider.forLine_fst, rank_eq _ _ crowdedRanked]
  · rfl
  · decide +kernel
  · decide +kernel

end Caret.Completion
