import Caret.Proofs.Value.Ordered
import Mathlib.Algebra.Field.Rat
import Mathlib.Data.List.Perm.Subperm
import Mathlib.Data.Nat.Cast.Field

/-!
# What counts as equal

Comparing values looks at numbers by what they stand for, so that a truth value, an integer and a binary
number may be equal, and at objects without regard to the order of their keys. Values that compare equal are
alike: they differ in how numbers are written and in the order of keys, and in nothing else.
-/

namespace Caret

/-! ### Numbers -/

namespace Binary64

/-- The rational number that a finite number is. -/
def rational? : Binary64 → Option ℚ
  | .finite negative mantissa exponent => some ((if negative then -1 else 1) * (mantissa * 2 ^ exponent))
  | _ => none

theorem rational?_of_same {x y : Binary64} (hsame : x.same y = true) :
    x = y ∨ ∃ q, x.rational? = some q ∧ y.rational? = some q := by
  cases x with
  | finite s m e =>
    cases y with
    | finite s' m' e' =>
      simp only [same, Bool.or_eq_true, Bool.and_eq_true, beq_iff_eq] at hsame
      rcases hsame with ⟨rfl, rfl⟩ | ⟨⟨rfl, rfl⟩, rfl⟩
      · exact .inr ⟨0, by simp [rational?], by simp [rational?]⟩
      · exact .inl rfl
    | _ => cases hsame
  | infinite s =>
    cases y with
    | infinite s' => exact .inl (congrArg _ (beq_iff_eq.mp hsame))
    | _ => cases hsame
  | nan => cases y <;> cases hsame

/-- An integer is compared with a mantissa in units of the power of two. -/
theorem mul_zpow_of_scale {mantissa size : Nat} {exponent : Int}
    (hscale : mantissa * (scale size 1 exponent).2 = (scale size 1 exponent).1) :
    (mantissa : ℚ) * 2 ^ exponent = size := by
  rw [scale] at hscale
  split at hscale
  · rename_i hexponent
    obtain ⟨k, rfl⟩ := Int.eq_ofNat_of_zero_le hexponent
    have hsize : mantissa * Nat.pow 2 k = size := by simpa using hscale
    rw [zpow_natCast, ← hsize]
    simp
  · obtain ⟨k, rfl⟩ : ∃ k : Nat, exponent = -(k : Int) := ⟨(-exponent).toNat, by omega⟩
    have hmantissa : mantissa = size * Nat.pow 2 k := by simpa using hscale
    rw [hmantissa, zpow_neg, zpow_natCast]
    simp

theorem sign_mul_natAbs (i : Int) : (if decide (i < 0) then -1 else 1) * (i.natAbs : ℚ) = i := by
  have hcast : (i.natAbs : ℚ) = ((i.natAbs : Int) : ℚ) := (Int.cast_natCast _).symm
  by_cases hi : i < 0
  · have hsize : (i.natAbs : Int) = -i := by omega
    rw [if_pos (decide_eq_true hi), hcast, hsize, Int.cast_neg, neg_one_mul, neg_neg]
  · have hsize : (i.natAbs : Int) = i := by omega
    rw [if_neg (by simpa using hi), hcast, hsize, one_mul]

theorem rational?_of_sameInt {x : Binary64} {i : Int} (hsame : x.sameInt i = true) :
    x.rational? = some (i : ℚ) := by
  cases x with
  | finite negative mantissa exponent =>
    simp only [sameInt, Bool.and_eq_true, Bool.or_eq_true, beq_iff_eq] at hsame
    obtain ⟨hscale, hsign⟩ := hsame
    rw [rational?, mul_zpow_of_scale hscale]
    rcases hsign with rfl | rfl
    · simp
    · rw [sign_mul_natAbs]
  | _ => cases hsame

end Binary64

namespace Value

/-- The number that a value stands for, where it is a finite one. -/
def rational? : Value → Option ℚ
  | .bool b => some (if b then 1 else 0)
  | .int i => some i
  | .real x => x.rational?
  | _ => none

/-- Values that are the same but for the writing of numbers and the order of keys. -/
inductive Alike : Value → Value → Prop where
  | refl (value : Value) : Alike value value
  | number {value other : Value} {q : ℚ} (hvalue : value.rational? = some q)
      (hother : other.rational? = some q) : Alike value other
  | list {items others : List Value} (hitems : List.Forall₂ Alike items others) :
      Alike (.list items) (.list others)
  | object {members others : Members}
      (hmembers : ∀ key, Option.Rel Alike (Entries.get? members key) (Entries.get? others key)) :
      Alike (.object members) (.object others)

theorem rational?_of_integer? {value : Value} {i : Int} (hvalue : value.integer? = some i) :
    value.rational? = some (i : ℚ) := by
  cases value with
  | bool b =>
    rw [← Option.some.inj hvalue]
    cases b <;> simp [rational?]
  | int j => rw [← Option.some.inj hvalue, rational?]
  | _ => cases hvalue

theorem rational?_eq_of_sameInt {x : Binary64} {value : Value}
    (hsame : value.integer?.any x.sameInt = true) :
    ∃ q, Value.rational? (.real x) = some q ∧ value.rational? = some q := by
  cases hinteger : value.integer? with
  | none =>
    rw [hinteger] at hsame
    cases hsame
  | some i =>
    rw [hinteger] at hsame
    exact ⟨i, Binary64.rational?_of_sameInt hsame, rational?_of_integer? hinteger⟩

theorem alike_of_sameScalar {value other : Value} (hsame : sameScalar value other = true) :
    Alike value other := by
  rw [sameScalar.eq_def] at hsame
  split at hsame
  · exact .refl _
  · rw [beq_iff_eq.mp hsame]
    exact .refl _
  · rcases Binary64.rational?_of_same hsame with rfl | ⟨q, hx, hy⟩
    · exact .refl _
    · exact .number hx hy
  · obtain ⟨q, hx, hy⟩ := rational?_eq_of_sameInt hsame
    exact .number hx hy
  · obtain ⟨q, hy, hx⟩ := rational?_eq_of_sameInt hsame
    exact .number hx hy
  · split at hsame
    · rename_i i j hi hj
      rw [beq_iff_eq.mp hsame] at hi
      exact .number (rational?_of_integer? hi) (rational?_of_integer? hj)
    · cases hsame

/-! ### Lists and objects -/

theorem forall₂_of_sameItems {items others : List Value}
    (hitems : ∀ item ∈ items, ∀ other ∈ others, same item other = true → Alike item other)
    (hsame : sameItems items others = true) : List.Forall₂ Alike items others := by
  induction items generalizing others with
  | nil =>
    cases others with
    | nil => exact .nil
    | cons other others => cases hsame
  | cons item items ih =>
    cases others with
    | nil => cases hsame
    | cons other others =>
      obtain ⟨hfirst, hrest⟩ := Bool.and_eq_true_iff.mp hsame
      refine .cons (hitems item List.mem_cons_self other List.mem_cons_self hfirst) (ih ?_ hrest)
      intro item hitem other hother
      exact hitems item (List.mem_cons_of_mem _ hitem) other (List.mem_cons_of_mem _ hother)

theorem sameMembers_iff {members others : Members} :
    sameMembers members others = true ↔
      ∀ member ∈ members, ∃ other, Entries.get? others member.1 = some other ∧ same member.2 other = true := by
  induction members with
  | nil => simp [sameMembers]
  | cons member rest ih =>
    obtain ⟨key, value⟩ := member
    rw [sameMembers, Bool.and_eq_true, ih, List.forall_mem_cons]
    cases Entries.get? others key <;> simp

/-- Distinct keys that are all in an object of the same size are all of its keys. -/
theorem get?_eq_none_of_length {members others : Members} (hdistinct : members.IsDistinct)
    (hlength : members.length = others.length)
    (hkeys : ∀ member ∈ members, Entries.get? others member.1 ≠ none) {key : Text}
    (hkey : Entries.get? members key = none) : Entries.get? others key = none := by
  have hsubset : members.map (·.1) ⊆ others.map (·.1) := by
    intro key hmem
    obtain ⟨member, hmember, rfl⟩ := List.mem_map.mp hmem
    by_contra hnew
    exact hkeys member hmember (Entries.get?_eq_none_iff.mpr hnew)
  have hperm := (List.Nodup.subperm hdistinct hsubset).perm_of_length_le (by simp [hlength])
  rw [Entries.get?_eq_none_iff] at hkey ⊢
  exact fun hmem => hkey (hperm.mem_iff.mpr hmem)

/-- Values that compare equal are alike. -/
theorem alike_of_same {value other : Value} (hvalue : value.IsProper) (hother : other.IsProper)
    (hsame : same value other = true) : Alike value other := by
  induction value using Value.induction generalizing other with
  | list items ih =>
    cases other with
    | list others =>
      rw [isProper_list] at hvalue hother
      rw [same] at hsame
      refine .list (forall₂_of_sameItems (fun item hitem other hmem => ?_) hsame)
      exact ih item hitem (hvalue item hitem) (hother other hmem)
    | _ => exact alike_of_sameScalar hsame
  | object members ih =>
    cases other with
    | object others =>
      obtain ⟨hdistinct, hvalue⟩ := isProper_object.mp hvalue
      obtain ⟨-, hother⟩ := isProper_object_get?.mp hother
      rw [same, Bool.and_eq_true, beq_iff_eq, sameMembers_iff] at hsame
      obtain ⟨hlength, hmembers⟩ := hsame
      refine .object fun key => ?_
      cases hget : Entries.get? members key with
      | none =>
        have hnone : Entries.get? others key = none := by
          refine get?_eq_none_of_length hdistinct hlength (fun member hmember => ?_) hget
          obtain ⟨other, hother, -⟩ := hmembers member hmember
          simp [hother]
        rw [hnone]
        exact .none
      | some value =>
        have hmem := Entries.mem_of_get? hget
        obtain ⟨other, hget', hsame⟩ := hmembers _ hmem
        rw [hget']
        exact .some (ih _ hmem (hvalue _ hmem) (hother key other hget') hsame)
    | _ => exact alike_of_sameScalar hsame
  | _ => exact alike_of_sameScalar (by rwa [same] at hsame <;> simp)

end Value

end Caret
