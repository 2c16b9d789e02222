/-
Event groups: a word in which each event has one bit. What a bit says after another one was set or cleared,
and when a word is one bit and nothing else.
-/
import Mathlib.Data.Nat.Bitwise

namespace EventBits

/-- The bit of the event `i`. -/
def bit (i : UInt32) : UInt32 := 1 <<< i

/-- The event `i` has happened. -/
def Has (e i : UInt32) : Prop := e &&& bit i = bit i

instance (e i : UInt32) : Decidable (Has e i) := inferInstanceAs (Decidable (_ = _))

variable {e i j : UInt32}

theorem bit_toNat (h : i < 32) : (bit i).toNat = 2 ^ i.toNat := by
  have hi : i.toNat < 32 := UInt32.lt_iff_toNat_lt.1 h
  have hpow : 2 ^ i.toNat < 2 ^ 32 := Nat.pow_lt_pow_right (by decide) hi
  unfold bit
  rw [UInt32.toNat_shiftLeft, Nat.mod_eq_of_lt hi, UInt32.toNat_one, Nat.one_shiftLeft, Nat.mod_eq_of_lt hpow]

/-- In the word's value the event is one binary digit. -/
theorem has_iff_testBit (h : i < 32) : Has e i ↔ e.toNat.testBit i.toNat = true := by
  unfold Has
  rw [← UInt32.toNat_inj, UInt32.toNat_and, bit_toNat h, Nat.and_two_pow]
  cases e.toNat.testBit i.toNat with
  | true => simp
  | false =>
    rw [Bool.toNat_false, Nat.zero_mul]
    exact iff_of_false (Nat.two_pow_pos _).ne nofun

theorem testBit_bit (hj : j < 32) : (bit j).toNat.testBit i.toNat = decide (j = i) := by
  rw [bit_toNat hj, Nat.testBit_two_pow]
  exact decide_eq_decide.2 UInt32.toNat_inj

/-- After an event is set. -/
theorem has_or (hi : i < 32) (hj : j < 32) : Has (e ||| bit j) i ↔ Has e i ∨ j = i := by
  rw [has_iff_testBit hi, has_iff_testBit hi, UInt32.toNat_or, Nat.testBit_or, testBit_bit hj, Bool.or_eq_true,
    decide_eq_true_iff]

theorem not_has_zero (hi : i < 32) : ¬ Has 0 i := by
  rw [has_iff_testBit hi]
  simp

/-- After an event is cleared. -/
theorem has_clear (hi : i < 32) (hj : j < 32) : Has (e &&& ~~~bit j) i ↔ Has e i ∧ j ≠ i := by
  have hi' : i.toBitVec.toNat < 32 := UInt32.lt_iff_toNat_lt.1 hi
  have hnot : (~~~bit j).toNat.testBit i.toNat = !decide (j = i) := by
    rw [← testBit_bit hj]
    simp only [← UInt32.toNat_toBitVec, UInt32.toBitVec_not, BitVec.testBit_toNat, BitVec.getLsbD_not, hi', decide_true,
      Bool.true_and]
  rw [has_iff_testBit hi, has_iff_testBit hi, UInt32.toNat_and, Nat.testBit_and, hnot, Bool.and_eq_true]
  simp

end EventBits
