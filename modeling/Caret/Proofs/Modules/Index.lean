import Caret.Modules.Index
import Caret.Proofs.Text.Sorted

/-!
# Looking up in an index

A stretch of positions brackets a text in ascending names if every name before the stretch is below the
text and no name behind it is. Halving a stretch keeps it a bracket, until nothing is left of it and the
position where it ended divides the names. From this an index answers as a scan of all its names would,
although it looks at a few of them only.
-/

namespace Caret.Modules

open Text (CodePointLT)

variable {names : List Text} {text : Text}

/-! ### Bisection -/

/-- The names before `low` are below a text, and those from `high` on are not. -/
structure Brackets (names : List Text) (text : Text) (low high : Nat) : Prop where
  low_le_high : low ≤ high
  high_le_length : high ≤ names.length
  below : ∀ position name, position < low → names[position]? = some name → Text.le text name = false
  above : ∀ position name, high ≤ position → names[position]? = some name → Text.le text name = true

theorem brackets_all (names : List Text) (text : Text) : Brackets names text 0 names.length where
  low_le_high := Nat.zero_le _
  high_le_length := Nat.le_refl _
  below _ _ hlow := absurd hlow (Nat.not_lt_zero _)
  above position name hhigh hname := by
    rw [List.getElem?_eq_none hhigh] at hname
    cases hname

/-- Ascending names are ordered as their positions are. -/
theorem le_of_getElem? (hascending : names.Pairwise CodePointLT) {i j : Nat} {first last : Text}
    (hle : i ≤ j) (hfirst : names[i]? = some first) (hlast : names[j]? = some last) :
    Text.le first last = true := by
  obtain ⟨hi, rfl⟩ := List.getElem?_eq_some_iff.mp hfirst
  obtain ⟨hj, rfl⟩ := List.getElem?_eq_some_iff.mp hlast
  rcases Nat.lt_or_eq_of_le hle with hlt | rfl
  · exact (List.pairwise_iff_getElem.mp hascending i j hi hj hlt).le
  · exact Text.le_refl _

namespace Brackets

variable {low high middle : Nat} {name : Text} (hascending : names.Pairwise CodePointLT)
  (hbrackets : Brackets names text low high) (hmiddle : names[middle]? = some name)

include hascending hbrackets hmiddle

theorem lowerHalf (hlow : low ≤ middle) (hhigh : middle < high) (hle : Text.le text name = true) :
    Brackets names text low middle where
  low_le_high := hlow
  high_le_length := Nat.le_trans (Nat.le_of_lt hhigh) hbrackets.high_le_length
  below := hbrackets.below
  above _ _ hposition hlater :=
    Text.le_trans hle (le_of_getElem? hascending hposition hmiddle hlater)

theorem upperHalf (hhigh : middle < high) (hlt : Text.le text name = false) :
    Brackets names text (middle + 1) high where
  low_le_high := hhigh
  high_le_length := hbrackets.high_le_length
  below position earlier hposition hearlier := by
    have hle := le_of_getElem? hascending (Nat.le_of_lt_succ hposition) hearlier hmiddle
    rw [← Bool.not_eq_true] at hlt ⊢
    exact fun habove => hlt (Text.le_trans habove hle)
  above := hbrackets.above

end Brackets

/-- With a step for each name of the stretch, bisection ends at a position that divides the names. -/
theorem brackets_bisect (hascending : names.Pairwise CodePointLT) {fuel low high : Nat}
    (hbrackets : Brackets names text low high) (hfuel : high - low ≤ fuel) :
    Brackets names text (bisect names.toArray text fuel low high)
      (bisect names.toArray text fuel low high) := by
  induction fuel generalizing low high with
  | zero =>
    have heq : high = low := by
      have := hbrackets.low_le_high
      omega
    rw [bisect]
    exact heq ▸ hbrackets
  | succ fuel ih =>
    rw [bisect]
    by_cases hlt : low < high
    · have hlow : low ≤ (low + high) / 2 := by omega
      have hhigh : (low + high) / 2 < high := by omega
      have hmiddle : (low + high) / 2 < names.length :=
        Nat.lt_of_lt_of_le hhigh hbrackets.high_le_length
      have hname := List.getElem?_eq_getElem hmiddle
      simp only [if_pos hlt, List.getElem?_toArray, hname]
      split
      · rename_i hle
        exact ih (hbrackets.lowerHalf hascending hname hlow hhigh hle) (by omega)
      · rename_i hnot
        exact ih (hbrackets.upperHalf hascending hname hhigh (Bool.eq_false_iff.mpr hnot)) (by omega)
    · have heq : high = low := by
        have := hbrackets.low_le_high
        omega
      rw [if_neg hlt]
      exact heq ▸ hbrackets

/-! ### The index of some names -/

namespace Index

variable {index : Index}

theorem brackets_position (hascending : index.names.Pairwise CodePointLT) (text : Text) :
    Brackets index.names text (index.position text) (index.position text) :=
  brackets_bisect hascending (brackets_all index.names text) (by omega)

/-- The names before the position of a text are below it, so that none of them starts with it; from
there on those that do come first. -/
theorem startingWith_eq_filter (hascending : index.names.Pairwise CodePointLT) (text : Text) :
    index.startingWith text = index.names.filter (Text.startsWith · text) := by
  have hdivides := brackets_position hascending text
  have hbefore : (index.names.take (index.position text)).filter (Text.startsWith · text) = [] := by
    rw [List.filter_eq_nil_iff]
    intro name hmem hstarts
    obtain ⟨position, hposition⟩ := List.mem_iff_getElem?.mp hmem
    rw [List.getElem?_take, Option.ite_none_right_eq_some] at hposition
    have hbelow := hdivides.below position name hposition.1 hposition.2
    rw [Text.le_of_isPrefix (Text.startsWith_iff.mp hstarts)] at hbelow
    cases hbelow
  have hbehind : ∀ name ∈ index.names.drop (index.position text), Text.le text name = true := by
    intro name hmem
    obtain ⟨position, hposition⟩ := List.mem_iff_getElem?.mp hmem
    rw [List.getElem?_drop] at hposition
    exact hdivides.above _ name (Nat.le_add_right _ _) hposition
  calc index.startingWith text
      = (index.names.drop (index.position text)).filter (Text.startsWith · text) :=
        Text.takeWhile_startsWith_eq_filter hascending.drop hbehind
    _ = (index.names.take (index.position text) ++ index.names.drop (index.position text)).filter
          (Text.startsWith · text) := by
        rw [List.filter_append, hbefore, List.nil_append]
    _ = index.names.filter (Text.startsWith · text) := by
        rw [List.take_append_drop]

/-- A name of the index stands at its own position. -/
theorem has_iff (hascending : index.names.Pairwise CodePointLT) {name : Text} :
    index.has name = true ↔ name ∈ index.names := by
  have hdivides := brackets_position hascending name
  rw [has, beq_iff_eq]
  constructor
  · exact List.mem_of_getElem?
  · intro hmem
    obtain ⟨position, hposition⟩ := List.mem_iff_getElem?.mp hmem
    have hle : index.position name ≤ position := by
      by_contra hlt
      have hbelow := hdivides.below position name (Nat.lt_of_not_le hlt) hposition
      rw [Text.le_refl] at hbelow
      cases hbelow
    have hlength : index.position name < index.names.length :=
      Nat.lt_of_le_of_lt hle (List.getElem?_eq_some_iff.mp hposition).1
    have hfound := List.getElem?_eq_getElem hlength
    have habove := hdivides.above _ _ (Nat.le_refl _) hfound
    have hbelow := le_of_getElem? hascending hle hfound hposition
    rw [hfound]
    exact congrArg some (Text.le_antisymm hbelow habove)

theorem names_ofNames (names : List Text) : Text.Listing (· ∈ names) (ofNames names).names :=
  Text.listing_sortedSet names

/-- Bisection finds what a scan of the names finds. -/
theorem listing_startingWith (names : List Text) (text : Text) :
    Text.Listing (fun name => name ∈ names ∧ text <+: name) ((ofNames names).startingWith text) := by
  have hnames := names_ofNames names
  rw [startingWith_eq_filter hnames.ascending]
  exact (hnames.filter _).congr fun name => and_congr_right fun _ => Text.startsWith_iff

end Index

end Caret.Modules
