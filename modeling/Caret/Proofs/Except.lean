/-!
# Computations that may fail

What the rest needs to know of computations with a fault in general: one after another succeeds where both
do, and fails with the first fault.
-/

namespace Except

variable {ε α β : Type} {first : Except ε α} {fault : ε}

theorem exists_eq_ok_iff : (∃ value, first = .ok value) ↔ ∀ fault, first ≠ .error fault := by
  cases first <;> simp

theorem pure_eq_ok_iff {value result : α} : (pure value : Except ε α) = .ok result ↔ value = result := by
  simp [pure, Except.pure]

theorem map_eq_error_iff {f : α → β} : first.map f = .error fault ↔ first = .error fault := by
  cases first <;> simp [Except.map]

theorem bind_eq_ok_iff {next : α → Except ε β} {result : β} :
    first >>= next = .ok result ↔ ∃ value, first = .ok value ∧ next value = .ok result := by
  cases first <;> simp [bind, Except.bind]

theorem bind_eq_error_iff {next : α → Except ε β} :
    first >>= next = .error fault ↔
      first = .error fault ∨ ∃ value, first = .ok value ∧ next value = .error fault := by
  cases first <;> simp [bind, Except.bind]

end Except
