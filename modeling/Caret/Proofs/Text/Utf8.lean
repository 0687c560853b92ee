import Caret.Text.Utf8

/-!
# Bytes of plain text

A text of ASCII characters comes back from its bytes.
-/

namespace Caret.Text

theorem charOfNat_toNat (c : Char) : charOfNat c.toNat = c := by
  rw [charOfNat, if_pos (show c.toNat.isValidChar from c.valid), Char.ofNat_toNat]

/-- An ASCII character is one byte, which gives the character back. -/
theorem exists_byte_of_lt {c : Char} (hc : c.toNat < 0x80) :
    ∃ b : UInt8, String.utf8EncodeChar c = [b] ∧ b.toNat = c.toNat := by
  have hval : c.val.toNat < 0x80 := hc
  have hsize : c.utf8Size = 1 := by
    rw [Char.utf8Size_eq_one_iff, UInt32.le_iff_toNat_le]
    exact Nat.le_of_lt_succ hval
  refine ⟨c.val.toUInt8, String.utf8EncodeChar_eq_singleton hsize, ?_⟩
  rw [UInt32.toNat_toUInt8, Nat.mod_eq_of_lt (by omega)]
  rfl

theorem run_encode {text : Text} (htext : ∀ c ∈ text, c.toNat < 0x80) :
    Utf8.run .start (encode text) = text.map some := by
  induction text with
  | nil => rfl
  | cons c cs ih =>
    obtain ⟨hc, hcs⟩ := List.forall_mem_cons.mp htext
    obtain ⟨b, hencode, hb⟩ := exists_byte_of_lt hc
    have hstep : Utf8.step .start b.toNat = ([some c], .start) := by
      rw [Utf8.step, Utf8.first, hb, if_pos hc, charOfNat_toNat]
    rw [encode, List.flatMap_cons, hencode, List.singleton_append, Utf8.run, hstep, List.map_cons,
      ← ih hcs]
    rfl

theorem decode?_encode {text : Text} (htext : ∀ c ∈ text, c.toNat < 0x80) :
    decode? (encode text) = some text := by
  rw [decode?, run_encode htext]
  clear htext
  induction text with
  | nil => rfl
  | cons c cs ih => simp [ih]

end Caret.Text
