import Caret.Proofs.Text.Cut
import Caret.Proofs.Text.Order

/-!
# Listings in code point order

The distinct texts of a list, brought into code point order, hold the same texts and ascend strictly. A
listing says just that of any list: which texts it holds, and that they ascend, so that none comes twice.

The texts that start with a given one stand together in such a list. They begin where the list is no
longer below that text, and whatever stands between two of them starts with it too.
-/

namespace Caret.Text

/-! ### The strict order -/

theorem codePointLT_irrefl (text : Text) : ¬ CodePointLT text text := by
  induction text with
  | nil => rintro ⟨⟩
  | cons c cs ih =>
    intro hlt
    cases hlt with
    | rel hlt => exact Nat.lt_irrefl _ hlt
    | cons hlt => exact ih hlt

theorem CodePointLT.le {a b : Text} (hlt : CodePointLT a b) : le a b = true :=
  le_iff_eq_or_codePointLT.mpr (.inr hlt)

theorem codePointLT_of_le_of_ne {a b : Text} (hle : le a b = true) (hne : a ≠ b) : CodePointLT a b :=
  (le_iff_eq_or_codePointLT.mp hle).resolve_left hne

/-! ### The distinct texts of a list -/

theorem mem_dropRepeats {text : Text} {texts : List Text} : text ∈ dropRepeats texts ↔ text ∈ texts := by
  fun_induction dropRepeats texts with
  | case1 => rfl
  | case2 => rfl
  | case3 a rest ih =>
    rw [ih, List.mem_cons (l := a :: rest), iff_or_self]
    rintro rfl
    exact List.mem_cons_self
  | case4 a b rest hne ih => rw [List.mem_cons, ih, ← List.mem_cons]

/-- In a sorted list equal texts stand side by side, so that none is left twice. -/
theorem dropRepeats_pairwise {texts : List Text} (hsorted : texts.Pairwise fun a b => le a b = true) :
    (dropRepeats texts).Pairwise CodePointLT := by
  fun_induction dropRepeats texts with
  | case1 => exact .nil
  | case2 a => exact List.pairwise_singleton _ a
  | case3 a rest ih => exact ih hsorted.of_cons
  | case4 a b rest hne ih =>
    obtain ⟨hfirst, hrest⟩ := List.pairwise_cons.mp hsorted
    refine List.pairwise_cons.mpr ⟨fun text hmem => ?_, ih hrest⟩
    have hmem := mem_dropRepeats.mp hmem
    refine codePointLT_of_le_of_ne (hfirst text hmem) ?_
    rintro rfl
    -- `a` comes again behind `b`, and `b` lies between its two places
    rcases List.mem_cons.mp hmem with rfl | hlater
    · exact hne rfl
    · have hback := (List.pairwise_cons.mp hrest).1 a hlater
      exact hne (le_antisymm (hfirst b List.mem_cons_self) hback)

theorem mem_sortedSet {text : Text} {texts : List Text} : text ∈ sortedSet texts ↔ text ∈ texts := by
  rw [sortedSet, mem_dropRepeats, List.mem_mergeSort]

theorem sortedSet_pairwise (texts : List Text) : (sortedSet texts).Pairwise CodePointLT := by
  apply dropRepeats_pairwise
  apply List.pairwise_mergeSort
  · intro a b c hab hbc
    exact le_trans hab hbc
  · intro a b
    simpa using le_total a b

/-! ### Listings -/

/-- The texts with a property, in strictly ascending order: each of them once, and no other. -/
structure Listing (P : Text → Prop) (texts : List Text) : Prop where
  mem_iff : ∀ text, text ∈ texts ↔ P text
  ascending : texts.Pairwise CodePointLT

theorem listing_sortedSet (texts : List Text) : Listing (· ∈ texts) (sortedSet texts) :=
  ⟨fun _ => mem_sortedSet, sortedSet_pairwise texts⟩

namespace Listing

variable {P Q : Text → Prop} {texts : List Text}

theorem congr (hlisting : Listing P texts) (hiff : ∀ text, P text ↔ Q text) : Listing Q texts :=
  ⟨fun text => (hlisting.mem_iff text).trans (hiff text), hlisting.ascending⟩

theorem filter (hlisting : Listing P texts) (q : Text → Bool) :
    Listing (fun text => P text ∧ q text = true) (texts.filter q) :=
  ⟨fun text => by rw [List.mem_filter, hlisting.mem_iff], hlisting.ascending.filter q⟩

end Listing

/-! ### Texts with the same start -/

theorem le_of_isPrefix {start text : Text} (hstart : start <+: text) : le start text = true := by
  obtain ⟨rest, rfl⟩ := hstart
  induction start with
  | nil => rfl
  | cons c cs ih => exact le_cons_cons.mpr (.inr ⟨rfl, ih⟩)

/-- What stands between a text and one that starts with it starts with it, too. -/
theorem isPrefix_of_le_of_le {start middle text : Text} (hlow : le start middle = true)
    (hhigh : le middle text = true) (hstart : start <+: text) : start <+: middle := by
  obtain ⟨rest, rfl⟩ := hstart
  induction start generalizing middle with
  | nil => exact List.nil_prefix
  | cons c cs ih =>
    cases middle with
    | nil => cases hlow
    | cons d ds =>
      rw [List.cons_append] at hhigh
      rw [le_cons_cons] at hlow hhigh
      rcases hlow with hlt | ⟨rfl, hlow⟩
      · rcases hhigh with hgt | ⟨rfl, -⟩ <;> omega
      · rcases hhigh with hgt | ⟨-, hhigh⟩
        · omega
        · exact List.cons_prefix_cons.mpr ⟨rfl, ih hlow hhigh⟩

/-- From a text on, the first of an ascending list that does not start with it ends those that do. -/
theorem takeWhile_startsWith_eq_filter {start : Text} {texts : List Text}
    (hascending : texts.Pairwise CodePointLT) (hlow : ∀ text ∈ texts, le start text = true) :
    texts.takeWhile (startsWith · start) = texts.filter (startsWith · start) := by
  induction texts with
  | nil => rfl
  | cons first rest ih =>
    obtain ⟨hfirst, hrest⟩ := List.pairwise_cons.mp hascending
    obtain ⟨hlowFirst, hlowRest⟩ := List.forall_mem_cons.mp hlow
    rw [List.takeWhile_cons, List.filter_cons]
    split
    · rw [ih hrest hlowRest]
    · rename_i hstarts
      rw [eq_comm, List.filter_eq_nil_iff]
      intro text hmem hlater
      exact hstarts (startsWith_iff.mpr
        (isPrefix_of_le_of_le hlowFirst (hfirst text hmem).le (startsWith_iff.mp hlater)))

end Caret.Text
