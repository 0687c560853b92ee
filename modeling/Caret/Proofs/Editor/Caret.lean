import Caret.Proofs.Completion.Alignment
import Caret.Proofs.Editor.Import

/-!
# The caret after a candidate was applied

A candidate takes the place of what is typed, and its import is inserted somewhere. The buffer is then the
completed text with that insertion. The caret is right behind the completion, unless the import was
inserted there, too: the caret moves on with what is inserted at its place.
-/

namespace Caret.Editor

open Completion Files Imports
open Imports.insertedSpan? (commonLength)

/-- Where an import is inserted into a text, if it is. -/
def importPlace? [CharacterNames] (text statement : Text) : Option Nat :=
  if (insertStatement text statement).status = .updated ∧ respaces text statement = false then
    (Request.read? statement).map fun request => ((site text request).front text).length
  else none

namespace Buffer

/-- An insertion moves the caret if it is found at the caret or before it. -/
theorem replace_insertion (buffer : Buffer) (place : Nat) (inserted : Text) :
    buffer.replace place place inserted =
      ⟨buffer.text.take place ++ (inserted ++ buffer.text.drop place),
        if buffer.caret < place then buffer.caret else buffer.caret + inserted.length⟩ := by
  have hcaret : moved place place inserted.length buffer.caret =
      if buffer.caret < place then buffer.caret else buffer.caret + inserted.length := by
    unfold moved
    split
    · rfl
    · split
      · omega
      · omega
  unfold replace
  rw [hcaret, List.append_assoc]
  rfl

/-- What comes of an import: nothing, or an insertion at its place. The caret is moved if the insertion is
found at the caret or before it, which may be further back than its place. -/
theorem insertImport_cases [CharacterNames] (buffer : Buffer) (statement : Text) :
    (importPlace? buffer.text statement = none ∧ buffer.insertImport statement = (buffer, [])) ∨
      ∃ left right inserted, inserted ≠ [] ∧ importPlace? buffer.text statement = some left.length ∧
        buffer.text = left ++ right ∧
        (insertStatement buffer.text statement).text = left ++ (inserted ++ right) ∧
        (buffer.insertImport statement).1 = ⟨left ++ (inserted ++ right),
          if buffer.caret < (left.length + commonLength right (inserted ++ right) : Nat) then buffer.caret
          else buffer.caret + inserted.length⟩ := by
  by_cases hupdated : (insertStatement buffer.text statement).status = .updated
  · have hiff := insertedSpan?_insertStatement hupdated
    unfold importPlace? insertImport
    dsimp only
    rw [if_pos hupdated]
    cases hrespaces : respaces buffer.text statement with
    | true =>
      rw [hiff.mpr hrespaces]
      exact .inl ⟨if_neg (by simp), rfl⟩
    | false =>
      obtain ⟨request, hread, -, hedit⟩ := insertStatement_cases hupdated
      rw [respaces, hread, Option.any_some] at hrespaces
      obtain ⟨right, inserted, hne, hold, hnew⟩ := hedit.isInsertion hrespaces
      refine .inr ⟨_, right, inserted, hne, ?_, hold, hnew, ?_⟩
      · rw [if_pos ⟨hupdated, rfl⟩, hread, Option.map_some]
      · obtain ⟨found, hfound⟩ := insertedSpan?_of_insertion ((site buffer.text request).front buffer.text)
          right hne
        rw [← hold, ← hnew] at hfound
        obtain ⟨-, hsame⟩ := insertedSpan?_eq_some hfound
        have hlength : found.length = inserted.length := by
          have hold' := congrArg List.length hold
          have hnew' := congrArg List.length hnew
          have hsame' := congrArg List.length hsame
          simp only [List.length_append, List.length_take, List.length_drop] at hold' hnew' hsame'
          omega
        rw [hfound]
        dsimp only
        rw [replace_insertion, ← hsame, ← hnew, hlength]
  · refine .inl ⟨if_neg fun h => hupdated h.1, ?_⟩
    unfold insertImport
    exact if_neg hupdated

/-- A buffer whose caret is right behind a word. -/
def behind (front word back : Text) : Buffer :=
  ⟨front ++ (word ++ back), (front.length + word.length : Nat)⟩

/-- The caret stays behind a word, unless the import is inserted into the word or right after it. -/
theorem insertImport_behind [CharacterNames] (front word back : Text) {statement : Text}
    (hplace : ∀ place ∈ importPlace? (front ++ (word ++ back)) statement,
      place ≤ front.length ∨ front.length + word.length < place) :
    ∃ front' back', ((behind front word back).insertImport statement).1 = behind front' word back' := by
  obtain ⟨-, hinsert⟩ | ⟨left, right, inserted, -, hat, htext, -, hinsert⟩ :=
    insertImport_cases (behind front word back) statement
  · exact ⟨front, back, congrArg Prod.fst hinsert⟩
  · replace htext : front ++ (word ++ back) = left ++ right := htext
    rw [hinsert, behind]
    dsimp only
    split
    · -- The insertion is found behind the caret, and up to there nothing has changed.
      rename_i hlt
      have hsame : (left ++ (inserted ++ right)).take (left.length + commonLength right (inserted ++ right)) =
          (front ++ (word ++ back)).take (left.length + commonLength right (inserted ++ right)) := by
        rw [htext, List.take_length_add_append, List.take_length_add_append, take_commonLength right]
      have hprefix : front ++ word <+: left ++ (inserted ++ right) := by
        have hword : front ++ word <+:
            (front ++ (word ++ back)).take (left.length + commonLength right (inserted ++ right)) := by
          rw [List.prefix_take_iff, List.length_append]
          exact ⟨⟨back, List.append_assoc _ _ _⟩, by omega⟩
        rw [← hsame] at hword
        exact hword.trans (List.take_prefix _ _)
      obtain ⟨back', hback⟩ := hprefix
      exact ⟨front, back', by rw [behind, ← hback, List.append_assoc]⟩
    · -- The insertion was made before the word, so the word has moved on with the caret.
      rename_i hle
      have hfront : left.length ≤ front.length := by
        rcases hplace _ (Option.mem_def.mpr hat) with h | h
        · exact h
        · omega
      obtain ⟨between, rfl⟩ : left <+: front :=
        List.prefix_of_prefix_length_le ⟨right, htext.symm⟩ ⟨word ++ back, rfl⟩ hfront
      obtain rfl : right = between ++ (word ++ back) := by
        rw [List.append_assoc] at htext
        exact (List.append_cancel_left htext).symm
      refine ⟨left ++ (inserted ++ between), back, ?_⟩
      rw [behind]
      congr 1
      · simp
      · simp only [List.length_append]
        omega

/-- A candidate takes the place of the text between its offset and the caret, and its import follows. -/
theorem apply_fst [CharacterNames] {text : Text} {caret : Nat} (hcaret : caret ≤ text.length)
    (candidate : Candidate) {offset : Nat} (hoffset : offset ≤ caret) :
    ((⟨text, caret⟩ : Buffer).apply candidate offset).1 =
      if candidate.importStatement.isEmpty then
        behind (text.take offset) candidate.replacement (text.drop caret)
      else
        ((behind (text.take offset) candidate.replacement (text.drop caret)).insertImport
          candidate.importStatement).1 := by
  have hstart : max 0 (offset : Int) = offset := by omega
  have hlow : min (offset : Int) caret = offset := by omega
  have hhigh : max (offset : Int) caret = caret := by omega
  have hmoved : moved offset caret candidate.replacement.length caret =
      ((text.take offset).length + candidate.replacement.length : Nat) := by
    rw [moved, if_neg (by omega), if_pos (Int.le_refl _), List.length_take, min_eq_left (by omega)]
    omega
  unfold apply replace behind
  simp only [hstart, hlow, hhigh, hmoved, Int.toNat_natCast, List.append_assoc]
  split <;> rfl

/-- The offset of a completion is at the caret or before it. -/
theorem exists_offset {ε : Type} (provider : Provider ε) (disk : Disk) (state : State ε) {text : Text}
    {caret : Nat} (hcaret : caret ≤ text.length) :
    ∃ offset : Nat, (provider.complete disk (.ofText text caret) state).1.offset = offset ∧
      offset ≤ caret := by
  have hlow : (0 : Int) ≤ caret := Int.natCast_nonneg caret
  have hhigh : (caret : Int) ≤ text.length := Int.ofNat_le.mpr hcaret
  have hlength := length_take_caret hlow hhigh
  have hseed := (typedToken_lastLine_suffix (text.take (caret : Int).toNat)).length_le
  rw [provider.complete_ofText disk state hlow hhigh]
  dsimp only
  exact ⟨caret - (Line.typedToken (lastLine (text.take (caret : Int).toNat))).length, by omega, by omega⟩

/-- A candidate that is applied where a completion says completes the text, and at most its import is
inserted. The caret is then right behind the replacement, unless the import is inserted into the
replacement or right after it. -/
theorem apply_complete [CharacterNames] {ε : Type} (provider : Provider ε) (disk : Disk)
    (state : State ε) (text : Text) (caret : Nat) (hcaret : caret ≤ text.length)
    (candidate : Candidate) :
    ∃ offset : Nat, (provider.complete disk (.ofText text caret) state).1.offset = offset ∧
      let completed := text.take offset ++ (candidate.replacement ++ text.drop caret)
      let final := ((⟨text, caret⟩ : Buffer).apply candidate offset).1
      (final.text = completed ∨
        final.text = (insertStatement completed candidate.importStatement).text ∧
          ∃ left, IsInsertion left completed final.text) ∧
      ((∀ place ∈ importPlace? completed candidate.importStatement,
          place ≤ offset ∨ offset + candidate.replacement.length < place) →
        ∃ front back, final = behind front candidate.replacement back) := by
  obtain ⟨offset, hoffset, hle⟩ := exists_offset provider disk state hcaret
  refine ⟨offset, hoffset, ?_⟩
  dsimp only
  rw [apply_fst hcaret candidate hle]
  have hlength : (text.take offset).length = offset := by
    rw [List.length_take, min_eq_left (by omega)]
  split
  · exact ⟨.inl rfl, fun _ => ⟨_, _, rfl⟩⟩
  · constructor
    · obtain ⟨-, hinsert⟩ | ⟨left, right, inserted, hne, -, htext, hnew, hinsert⟩ :=
        insertImport_cases (behind (text.take offset) candidate.replacement (text.drop caret))
          candidate.importStatement
      · exact .inl (by rw [hinsert]; rfl)
      · rw [hinsert]
        exact .inr ⟨hnew.symm, left, right, inserted, hne, htext, rfl⟩
    · intro hplace
      refine insertImport_behind _ _ _ ?_
      rwa [hlength]

section

open scoped CharacterNames

/-- In a text that is no script the import comes first, and the caret moves on with the completion. -/
theorem apply_complete_unclosed :
    ∃ front back, ((⟨"(Fo".toList, 3⟩ : Buffer).apply
      ⟨"Foo".toList, "Foo".toList, "from m import Foo".toList, true, []⟩ 1).1 =
        behind front "Foo".toList back := by
  obtain ⟨offset, hoffset, -, hcaret⟩ := apply_complete oneExport ⟨.directory [], [], [], [], []⟩ ⟨{}, ()⟩
    "(Fo".toList 3 (by decide) ⟨"Foo".toList, "Foo".toList, "from m import Foo".toList, true, []⟩
  have hone : (oneExport.complete ⟨.directory [], [], [], [], []⟩ (.ofText "(Fo".toList (3 : Nat))
      ⟨{}, ()⟩).1.offset =
      (1 : Nat) := by decide +kernel
  obtain rfl : 1 = offset := Int.ofNat.inj (hone.symm.trans hoffset)
  exact hcaret (by decide +kernel)

end

end Buffer

end Caret.Editor
