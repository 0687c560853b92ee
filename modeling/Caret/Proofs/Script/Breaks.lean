import Caret.Proofs.Script.Join

/-!
# Line breaks at the end of a text

How the line breaks of a text are written plays no part in what it says, and neither does whether its
last line is ended. Only a text that ends in a carriage return and a line feed may say more than with a
line feed alone.
-/

namespace Caret.Script

namespace Lexer

/-- A last character that is no line break stays as it is. -/
theorem unifyBreaks_concat {text : Text} {c : Char} (hfeed : c ≠ '\n') (hreturn : c ≠ '\r') :
    Text.unifyBreaks (text ++ [c]) = Text.unifyBreaks text ++ [c] := by
  have hmeet : MeetApart text [c] := fun _ h => hfeed (Option.some.inj h)
  rw [unifyBreaks_append hmeet, Text.unifyBreaks_cons hreturn]
  rfl

theorem not_endsInBreak_iff {text : Text} :
    ¬ EndsInBreak text ↔ text = [] ∨ ∃ before c, text = before ++ [c] ∧ c ≠ '\n' ∧ c ≠ '\r' := by
  rcases List.eq_nil_or_concat' text with rfl | ⟨before, c, rfl⟩
  · simp [EndsInBreak]
  · simp [EndsInBreak]

theorem not_endsInBreak_unifyBreaks {text : Text} (h : ¬ EndsInBreak text) :
    ¬ EndsInBreak (Text.unifyBreaks text) := by
  rcases not_endsInBreak_iff.mp h with rfl | ⟨before, c, rfl, hfeed, hreturn⟩
  · exact h
  · rw [unifyBreaks_concat hfeed hreturn]
    exact not_endsInBreak_iff.mpr (.inr ⟨_, c, rfl, hfeed, hreturn⟩)

/-- A line that is not ended gets its end. -/
theorem prepared_of_not_endsInBreak {text : Text} (h : ¬ EndsInBreak text) :
    prepared text = Text.unifyBreaks text ++ ['\n'] := by
  have hends : ∀ (before : Text) {other : Text}, ¬ EndsInBreak other →
      Text.endsWith other (before ++ ['\n']) = false := by
    intro before other hother
    rw [Bool.eq_false_iff]
    intro hsuffix
    obtain ⟨front, rfl⟩ := Text.endsWith_iff.mp hsuffix
    exact hother (.inl (by rw [← List.append_assoc, List.getLast?_concat]))
  have hpair : Text.endsWith text ['\r', '\n'] = false := hends ['\r'] h
  have hfeed : Text.endsWith (Text.unifyBreaks text) ['\n'] = false :=
    hends [] (not_endsInBreak_unifyBreaks h)
  unfold prepared
  simp only [hpair, hfeed]
  rfl

end Lexer

open Lexer

variable [CharacterNames]

theorem parse?_nil : parse? [] = some [] := rfl

/-- A text has the statements of another one that is as long at most and gives the same lexemes. -/
theorem parse?_of_tokens? {text other : Text} {found : List Statement} (h : parse? text = some found)
    (hlength : text.length ≤ other.length)
    (hother : ∀ tokens, tokens? text = some tokens → ∃ tokens', tokens? other = some tokens' ∧
      lexemes tokens' = lexemes tokens) :
    ∃ found', parse? other = some found' ∧ found'.map Statement.gist = found.map Statement.gist := by
  obtain ⟨found', hparse, hgists⟩ := parse?_of_lexemes h parse?_nil hlength (Nat.zero_le _)
    fun tokens nothing htokens hnothing => by
      rw [tokens?_nil] at hnothing
      cases hnothing
      obtain ⟨tokens', htokens', hsame⟩ := hother tokens htokens
      exact ⟨tokens', htokens', by rw [hsame, lexemes_nil, List.append_nil]⟩
  exact ⟨found', hparse, by rw [hgists, List.map_nil, List.append_nil]⟩

/-- A text says what it says with its line breaks written as line feeds. -/
theorem parse?_of_unifyBreaks {text : Text} {found : List Statement}
    (h : parse? (Text.unifyBreaks text) = some found) :
    ∃ found', parse? text = some found' ∧ found'.map Statement.gist = found.map Statement.gist := by
  by_cases hend : EndsInBreak text
  · have hmeet : MeetApart text [] := fun _ h => nomatch h
    obtain ⟨found', hparse, hgists⟩ := parse?_append (.inr hend) hmeet h parse?_nil
    rw [List.append_nil] at hparse
    rw [List.map_nil, List.append_nil] at hgists
    exact ⟨found', hparse, hgists⟩
  · refine parse?_of_tokens? h (length_unifyBreaks_le text) fun tokens htokens => ?_
    obtain ⟨hnull, hlexes⟩ := tokens?_iff.mp ⟨tokens, htokens, rfl⟩
    rw [mem_unifyBreaks (by decide) (by decide)] at hnull
    rw [prepared_of_not_endsInBreak (not_endsInBreak_unifyBreaks hend),
      Text.unifyBreaks_of_not_mem (not_return_mem_unifyBreaks text)] at hlexes
    exact tokens?_iff.mpr ⟨hnull, by rwa [prepared_of_not_endsInBreak hend]⟩

/-- A text says what it says when its last line is ended. -/
theorem parse?_concat_break {text : Text} {found : List Statement} (hend : ¬ EndsInBreak text)
    (h : parse? (Text.unifyBreaks text) = some found) :
    ∃ found', parse? (Text.unifyBreaks (text ++ ['\n'])) = some found' ∧
      found'.map Statement.gist = found.map Statement.gist := by
  have hmeet : MeetApart text ['\n'] := fun hlast => absurd (.inr hlast) hend
  have hbreak : Text.unifyBreaks (text ++ ['\n']) = Text.unifyBreaks text ++ ['\n'] :=
    unifyBreaks_append hmeet
  have hends : EndsInBreak (text ++ ['\n']) := .inl List.getLast?_concat
  refine parse?_of_tokens? h (by rw [hbreak]; simp) fun tokens htokens => ?_
  obtain ⟨hnull, hlexes⟩ := tokens?_iff.mp ⟨tokens, htokens, rfl⟩
  rw [prepared_of_not_endsInBreak (not_endsInBreak_unifyBreaks hend),
    Text.unifyBreaks_of_not_mem (not_return_mem_unifyBreaks text), ← hbreak] at hlexes
  refine tokens?_iff.mpr ⟨by rw [hbreak]; simpa using hnull, ?_⟩
  rwa [prepared_unifyBreaks hends]

end Caret.Script
