import Caret.Proofs.Completion.Assembly
import Caret.Proofs.Text.LowerCase

/-!
# Members in any case

Members are chosen by the text that is typed of them, with cases told apart or not. Either way the choice
looks at names only, so that the first member of a name is the one that is kept. Not telling cases apart
offers all that telling them apart does, and the very same candidates, as long as lower case keeps the
typed text a part of the names that hold it. This fails for a typed text that ends in a capital sigma, or
starts with one, and for no other.
-/

namespace Caret.Completion

open Modules
open Text (EndsInSigma StartsWithSigma)
open scoped List

variable {ε : Type}

/-- The candidate for a member, given what is typed of it. -/
def memberCandidate (context : Line.Context) (typed : Text) (member : Symbol) : Candidate :=
  { candidateFor context (context.line.take (context.line.length - typed.length) ++ member.name)
      member.name member.detail with
    prefixMatch := Text.startsWith member.name typed }

theorem isOffered_true {typed name : Text} : isOffered true typed name = true ↔ typed <:+: name :=
  Text.occursIn_iff

theorem isOffered_false {typed name : Text} :
    isOffered false typed name = true ↔ Text.lower typed <:+: Text.lower name :=
  Text.occursIn_iff

variable (context : Line.Context) (typed : Text)

/-- The first members of their names are chosen from. -/
theorem accessCandidates_eq (sensitive : Bool) (members : List Symbol) :
    accessCandidates sensitive context typed members =
      ((firstByKey (·.name) members).filter fun member => isOffered sensitive typed member.name).map
        (memberCandidate context typed) := by
  rw [← firstByKey_filter]
  rfl

/-- A member with a name that is chosen is offered, itself or the first of its name. -/
theorem exists_mem_accessCandidates {sensitive : Bool} {members : List Symbol} {member : Symbol}
    (hmember : member ∈ members) (hoffered : isOffered sensitive typed member.name = true) :
    ∃ first ∈ members, first.name = member.name ∧
      memberCandidate context typed first ∈ accessCandidates sensitive context typed members := by
  obtain ⟨first, hfirst, hname⟩ := exists_mem_keepNew Symbol.name [] members (.inr hmember)
  rw [← firstByKey_eq] at hfirst
  refine ⟨first, mem_of_mem_firstByKey hfirst, hname, ?_⟩
  rw [accessCandidates_eq]
  refine List.mem_map_of_mem (List.mem_filter.mpr ⟨hfirst, ?_⟩)
  rwa [hname]

/-- A name that is not chosen is not offered, where it is the only one. -/
theorem accessCandidates_singleton (sensitive : Bool) (member : Symbol) :
    accessCandidates sensitive context typed [member] =
      if isOffered sensitive typed member.name then [memberCandidate context typed member] else [] := by
  have hfirst : firstByKey (·.name) [member] = [member] := rfl
  rw [accessCandidates_eq, hfirst, List.filter_cons, List.filter_nil]
  split <;> rfl

/-- Telling cases apart offers some of what is offered otherwise, unless a sigma is open at an end of the
typed text. -/
theorem accessCandidates_sublist_iff :
    (∀ members, accessCandidates true context typed members <+
        accessCandidates false context typed members) ↔
      ¬ EndsInSigma typed ∧ ¬ StartsWithSigma typed := by
  rw [← Text.forall_lower_infix_iff]
  constructor
  · intro hsublist name hname
    have hsublist := hsublist [⟨name, [], []⟩]
    rw [accessCandidates_singleton, accessCandidates_singleton, if_pos (isOffered_true.mpr hname)] at hsublist
    rw [← isOffered_false]
    by_contra hnot
    rw [if_neg hnot] at hsublist
    cases hsublist
  · intro hkept members
    rw [accessCandidates_eq, accessCandidates_eq]
    refine (List.monotone_filter_right _ fun member htrue => ?_).map _
    exact isOffered_false.mpr (hkept _ (isOffered_true.mp htrue))

/-- A member that goes on from the typed text is offered in both ways, unless the typed text ends in an
open sigma. -/
theorem isPrefix_offered_iff :
    (∀ members : List Symbol, ∀ member ∈ members, typed <+: member.name → ∀ sensitive,
        ∃ first ∈ members, first.name = member.name ∧
          memberCandidate context typed first ∈ accessCandidates sensitive context typed members) ↔
      ¬ EndsInSigma typed := by
  rw [← Text.forall_lower_infix_of_isPrefix_iff]
  constructor
  · intro hoffered name hname
    obtain ⟨first, -, -, hmem⟩ :=
      hoffered [⟨name, [], []⟩] ⟨name, [], []⟩ List.mem_cons_self hname false
    rw [accessCandidates_singleton] at hmem
    rw [← isOffered_false]
    by_contra hnot
    rw [if_neg hnot] at hmem
    exact List.not_mem_nil hmem
  · intro hkept members member hmember hstarts sensitive
    apply exists_mem_accessCandidates context typed hmember
    cases sensitive with
    | true => exact isOffered_true.mpr hstarts.isInfix
    | false => exact isOffered_false.mpr (hkept _ hstarts)

section

variable {context typed} {assembler : Assembler ε} {view : View} {engine : ε} {expression : Text}
  (library : Build Index) (hform : context.form = .access expression typed)

include hform

/-- Telling cases apart or not is the same up to the choice among the members. -/
theorem assemble_of_showsMembers {members : List Symbol}
    (hmembers : assembler.ShowsMembers view engine (bindingFor context expression typed) members) :
    ∃ final, ∀ sensitive, ({ assembler with caseSensitive := sensitive } : Assembler ε).assemble library
      context view engine = (.ok (accessCandidates sensitive context typed members), final) := by
  obtain ⟨scope, type, engine₁, engine₂, final, hparse, htype, hmembers⟩ := hmembers
  refine ⟨final, fun sensitive => ?_⟩
  rw [Assembler.assemble]
  simp only [hform, Query.bind_apply, hparse, htype, hmembers]
  rfl

/-- Whatever the members of the inferred type are, not telling cases apart offers each of them that telling
them apart does, by the same candidate, exactly if the typed text neither ends in an open sigma nor starts
with one; and each that goes on from the typed text is offered in both ways, exactly if it does not end in
one. -/
theorem assemble_any_case_iff (assembler : Assembler ε) :
    (∀ view engine members,
        assembler.ShowsMembers view engine (bindingFor context expression typed) members →
        ∃ final, ∀ sensitive, ({ assembler with caseSensitive := sensitive } : Assembler ε).assemble library
          context view engine = (.ok (accessCandidates sensitive context typed members), final)) ∧
      ((∀ members, accessCandidates true context typed members <+
          accessCandidates false context typed members) ↔
        ¬ EndsInSigma typed ∧ ¬ StartsWithSigma typed) ∧
      ((∀ members : List Symbol, ∀ member ∈ members, typed <+: member.name → ∀ sensitive,
          ∃ first ∈ members, first.name = member.name ∧
            memberCandidate context typed first ∈ accessCandidates sensitive context typed members) ↔
        ¬ EndsInSigma typed) :=
  ⟨fun _ _ _ => assemble_of_showsMembers library hform, accessCandidates_sublist_iff context typed,
    isPrefix_offered_iff context typed⟩

end

/-- A member of `ip` as far as it is typed. -/
def accessContext (typed : Text) : Line.Context where
  rawPrior := []
  prior := []
  line := "ip.".toList ++ typed
  seed := typed
  block := []
  form := .access "ip".toList typed

/-- Every name is bound to something with two members. -/
def twoMembers : Assembler Unit where
  indexer := ⟨fun _ => pure (some
    { symbolsAt := fun _ => pure []
      typeOfBinding := fun _ => pure (some ⟨pure [⟨"width".toList, [], []⟩, ⟨"WIDTH".toList, [], []⟩]⟩) })⟩
  resolver := ⟨fun _ => pure none⟩
  caseSensitive := false

/-- Both ways are run on two members, of which `wid` is a part in one case; behind a final sigma a member
is lost. -/
theorem assemble_any_case_iff_width :
    (accessContext "wid".toList).form = .access "ip".toList "wid".toList ∧
      (∃ final, ∀ sensitive, ({ twoMembers with caseSensitive := sensitive } : Assembler Unit).assemble
        .pending (accessContext "wid".toList) ⟨⟨.directory [], [], [], [], []⟩, {}⟩ () =
          (.ok (accessCandidates sensitive (accessContext "wid".toList) "wid".toList
            [⟨"width".toList, [], []⟩, ⟨"WIDTH".toList, [], []⟩]), final)) ∧
      (∀ members, accessCandidates true (accessContext "wid".toList) "wid".toList members <+
        accessCandidates false (accessContext "wid".toList) "wid".toList members) ∧
      ¬ ∀ members, accessCandidates true (accessContext "aΣ".toList) "aΣ".toList members <+
        accessCandidates false (accessContext "aΣ".toList) "aΣ".toList members := by
  have hform : ∀ typed, (accessContext typed).form = .access "ip".toList typed := fun _ => rfl
  have hwidth := assemble_any_case_iff .pending (hform "wid".toList) twoMembers
  have hsigma := assemble_any_case_iff .pending (hform "aΣ".toList) twoMembers
  have hfree : 'Σ' ∉ "wid".toList := by decide
  refine ⟨rfl, hwidth.1 _ _ _ ⟨_, _, _, _, _, rfl, rfl, rfl⟩, hwidth.2.1.mpr
    ⟨Text.not_endsInSigma_of_not_mem hfree, Text.not_startsWithSigma_of_not_mem hfree⟩, fun hall => ?_⟩
  exact (hsigma.2.1.mp hall).1 ⟨['a'], [], rfl, by decide, fun _ h => absurd h List.not_mem_nil⟩

end Caret.Completion
