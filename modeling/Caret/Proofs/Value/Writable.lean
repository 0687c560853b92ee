import Caret.Value.Display

/-!
# Values that can be written

A value cannot be written if an integer somewhere in it has too many digits. Such a value does not count as
false, so it cannot be put in running text either, whether or not false values are left out there.
-/

namespace Caret.Value

variable {value : Value} {fault : Fault}

theorem isTrue_of_not_isWritable (hvalue : value.isWritable = false) : value.isTrue = true := by
  cases value with
  | int i =>
    have hne : i ≠ 0 := by
      rintro rfl
      rw [isWritable, decide_eq_false_iff_not, Int.natAbs_zero, Nat.pow_eq] at hvalue
      exact hvalue (Nat.pow_pos (by decide))
    simpa [isTrue] using hne
  | list items =>
    cases items with
    | nil => cases hvalue
    | cons item items => rfl
  | object members =>
    cases members with
    | nil => cases hvalue
    | cons member members => rfl
  | _ => cases hvalue

theorem display_eq_error_iff : value.display = .error fault ↔ fault = .badValue ∧ value.isWritable = false := by
  cases value with
  | text t => simp [display, isWritable]
  | _ =>
    rw [display]
    · split <;> rename_i hwritable <;> simp [hwritable, eq_comm]
    · nofun

theorem displayTrue_eq_error_iff :
    value.displayTrue = .error fault ↔ fault = .badValue ∧ value.isWritable = false := by
  rw [displayTrue]
  split
  · exact display_eq_error_iff
  · rename_i hfalse
    refine iff_of_false (by simp) ?_
    rintro ⟨-, hwritable⟩
    exact hfalse (isTrue_of_not_isWritable hwritable)

end Caret.Value
