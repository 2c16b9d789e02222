/-
Fixed-width unsigned arithmetic on `Nat` and rounding with a mask: `(x + a - 1) & ~(a - 1)` in `w`
bits. When the sum does not wrap, the result is at least `x` and less than `x + a`; for `a` a power
of two it is the least multiple of `a` that is at least `x`.
-/
import Mathlib.Tactic

namespace MaskArith

/-- A value reduced to `w` bits. -/
def wrap (w x : Nat) : Nat := x % 2 ^ w

/-- `~m` in `w` bits. -/
def compl (w m : Nat) : Nat := 2 ^ w - 1 - m

/-- `(x + a - 1) & ~(a - 1)` in `w` bits. -/
def roundUp (w x a : Nat) : Nat := wrap w (x + wrap w (a + (2 ^ w - 1))) &&& compl w (wrap w (a + (2 ^ w - 1)))

/-- `x & ~(a - 1)` in `w` bits. -/
def roundDown (w x a : Nat) : Nat := x &&& compl w (wrap w (a + (2 ^ w - 1)))

/-- Mask rounding without a width. -/
def alignUp (x a : Nat) : Nat := x + (a - 1) - ((x + (a - 1)) &&& (a - 1))

theorem wrap_lt (w x : Nat) : wrap w x < 2 ^ w := Nat.mod_lt _ (Nat.two_pow_pos w)

theorem wrap_of_lt {w x : Nat} (h : x < 2 ^ w) : wrap w x = x := Nat.mod_eq_of_lt h

/-- Clearing the bits of a mask subtracts the masked part. -/
theorem and_compl {w x m : Nat} (hx : x < 2 ^ w) (hm : m < 2 ^ w) : x &&& compl w m = x - (x &&& m) := by
  have hsplit : (BitVec.ofNat w x &&& ~~~BitVec.ofNat w m) ||| (BitVec.ofNat w x &&& BitVec.ofNat w m) =
      BitVec.ofNat w x := by
    ext i hi; simp only [BitVec.getElem_or, BitVec.getElem_and, BitVec.getElem_not]
    cases (BitVec.ofNat w x)[i] <;> cases (BitVec.ofNat w m)[i] <;> rfl
  have hdisj : (BitVec.ofNat w x &&& ~~~BitVec.ofNat w m) &&& (BitVec.ofNat w x &&& BitVec.ofNat w m) = 0#w := by
    ext i hi; simp only [BitVec.getElem_and, BitVec.getElem_not, BitVec.getElem_zero]
    cases (BitVec.ofNat w x)[i] <;> cases (BitVec.ofNat w m)[i] <;> rfl
  have hadd := BitVec.toNat_add_of_and_eq_zero hdisj
  rw [BitVec.add_eq_or_of_and_eq_zero _ _ hdisj, hsplit] at hadd
  simp only [BitVec.toNat_and, BitVec.toNat_not, BitVec.toNat_ofNat, Nat.mod_eq_of_lt hx,
    Nat.mod_eq_of_lt hm] at hadd
  unfold compl
  omega

/-! ## Rounding up -/

theorem wrap_sub_one {w a : Nat} (h0 : 0 < a) (ha : a ≤ 2 ^ w) : wrap w (a + (2 ^ w - 1)) = a - 1 := by
  unfold wrap
  rw [show a + (2 ^ w - 1) = (a - 1) + 2 ^ w by omega, Nat.add_mod_right, Nat.mod_eq_of_lt (by omega)]

/-- Without wrap the machine rounds as `alignUp` does. -/
theorem roundUp_eq {w x a : Nat} (h0 : 0 < a) (h : x + (a - 1) < 2 ^ w) : roundUp w x a = alignUp x a := by
  unfold roundUp alignUp
  rw [wrap_sub_one h0 (by omega), wrap_of_lt h, and_compl h (by omega)]

theorem roundDown_eq {w x a : Nat} (h0 : 0 < a) (ha : a ≤ 2 ^ w) (hx : x < 2 ^ w) :
    roundDown w x a = x - (x &&& (a - 1)) := by
  unfold roundDown
  rw [wrap_sub_one h0 ha, and_compl hx (by omega)]

/-- Rounding to a power of two, wrapping or not. -/
theorem roundUp_two_pow {w x k : Nat} (hk : k ≤ w) :
    roundUp w x (2 ^ k) = 2 ^ k * (wrap w (x + (2 ^ k - 1)) / 2 ^ k) := by
  have hkw : 2 ^ k ≤ 2 ^ w := Nat.pow_le_pow_right (by decide) hk
  have hpos := Nat.two_pow_pos k
  unfold roundUp
  rw [wrap_sub_one hpos hkw, and_compl (wrap_lt _ _) (by omega), Nat.and_two_pow_sub_one_eq_mod]
  have := Nat.div_add_mod (wrap w (x + (2 ^ k - 1))) (2 ^ k)
  omega

theorem roundDown_two_pow {w x k : Nat} (hk : k ≤ w) (hx : x < 2 ^ w) : roundDown w x (2 ^ k) = 2 ^ k * (x / 2 ^ k) := by
  rw [roundDown_eq (Nat.two_pow_pos k) (Nat.pow_le_pow_right (by decide) hk) hx, Nat.and_two_pow_sub_one_eq_mod]
  have := Nat.div_add_mod x (2 ^ k)
  omega

theorem roundDown_lt (w x a : Nat) : roundDown w x a < 2 ^ w := by
  refine lt_of_le_of_lt Nat.and_le_right ?_
  have := Nat.two_pow_pos w
  unfold compl; omega

/-- When the sum wraps, the rounded value is at most what is left of it. -/
theorem roundUp_le_of_wrap {w x a : Nat} (h0 : 0 < a) (ha : a ≤ 2 ^ w) (hx : x ≤ 2 ^ w) (h : 2 ^ w ≤ x + (a - 1)) :
    roundUp w x a ≤ x + (a - 1) - 2 ^ w := by
  have hle : roundUp w x a ≤ wrap w (x + (a - 1)) := by
    unfold roundUp
    rw [wrap_sub_one h0 ha]
    exact Nat.and_le_left
  unfold wrap at hle
  rwa [Nat.mod_eq_sub_mod h, Nat.mod_eq_of_lt (by omega)] at hle

/-- A rounded value that is not below its argument comes from a sum that did not wrap. -/
theorem no_wrap_of_le {w x a : Nat} (h0 : 0 < a) (hx : x < 2 ^ w) (ha : a ≤ 2 ^ w) (h : x ≤ roundUp w x a) :
    x + (a - 1) < 2 ^ w := by
  by_contra hge
  have := roundUp_le_of_wrap h0 ha hx.le (Nat.le_of_not_lt hge)
  omega

theorem roundUp_zero (w x : Nat) : roundUp w x 0 = 0 := by
  have hm : wrap w (0 + (2 ^ w - 1)) = 2 ^ w - 1 := by
    rw [Nat.zero_add, wrap_of_lt (by have := Nat.two_pow_pos w; omega)]
  unfold roundUp compl
  rw [hm, Nat.sub_self, Nat.and_zero]

theorem roundUp_lt (w x a : Nat) : roundUp w x a < 2 ^ w :=
  lt_of_le_of_lt Nat.and_le_left (wrap_lt w _)

theorem le_alignUp (x a : Nat) : x ≤ alignUp x a := by
  have : (x + (a - 1)) &&& (a - 1) ≤ a - 1 := Nat.and_le_right
  unfold alignUp; omega

theorem alignUp_le (x a : Nat) : alignUp x a ≤ x + (a - 1) := Nat.sub_le _ _

/-- A rounded value below `2 ^ w` comes from a sum below `2 ^ w`. -/
theorem lt_of_alignUp_lt {w x a : Nat} (h0 : 0 < a) (ha : a ≤ 2 ^ w) (h : alignUp x a < 2 ^ w) : x + (a - 1) < 2 ^ w := by
  by_contra hge
  have hand : (x + (a - 1)) &&& (a - 1) ≤ (x + (a - 1)) % 2 ^ w := by
    have hmod := Nat.and_mod_two_pow (a := x + (a - 1)) (b := a - 1) (n := w)
    have hle : (x + (a - 1)) &&& (a - 1) ≤ a - 1 := Nat.and_le_right
    rw [Nat.mod_eq_of_lt (by omega)] at hmod
    rw [hmod]
    exact Nat.and_le_left
  have hdiv : 2 ^ w ≤ 2 ^ w * ((x + (a - 1)) / 2 ^ w) :=
    Nat.le_mul_of_pos_right _ (Nat.div_pos (by omega) (Nat.two_pow_pos w))
  have := Nat.div_add_mod (x + (a - 1)) (2 ^ w)
  unfold alignUp at h
  omega

/-- Rounding keeps even numbers even, whatever the mask. -/
theorem two_dvd_alignUp {x : Nat} (h : 2 ∣ x) (a : Nat) : 2 ∣ alignUp x a := by
  have hmod : ((x + (a - 1)) &&& (a - 1)) % 2 = (a - 1) % 2 := by
    have := Nat.and_mod_two_pow (a := x + (a - 1)) (b := a - 1) (n := 1)
    rw [pow_one, show (x + (a - 1)) % 2 = (a - 1) % 2 by omega, Nat.and_self] at this
    exact this
  have hle : (x + (a - 1)) &&& (a - 1) ≤ a - 1 := Nat.and_le_right
  unfold alignUp
  omega

/-- Multiples of a power of two that is not below the alignment pass through, whatever the mask. -/
theorem alignUp_add {x a d k : Nat} (h0 : 0 < a) (ha : a ≤ 2 ^ k) (hd : 2 ^ k ∣ d) : alignUp (x + d) a = alignUp x a + d := by
  have hand : ∀ y, y &&& (a - 1) = y % 2 ^ k &&& (a - 1) := by
    intro y
    have hmod := Nat.and_mod_two_pow (a := y) (b := a - 1) (n := k)
    have hle : y &&& (a - 1) ≤ a - 1 := Nat.and_le_right
    rwa [Nat.mod_eq_of_lt (a := y &&& (a - 1)) (by omega), Nat.mod_eq_of_lt (a := a - 1) (by omega)] at hmod
  have hsame : (x + d + (a - 1)) % 2 ^ k = (x + (a - 1)) % 2 ^ k := by
    obtain ⟨q, rfl⟩ := hd
    rw [Nat.add_right_comm, Nat.add_mul_mod_self_left]
  have hle : (x + (a - 1)) &&& (a - 1) ≤ x + (a - 1) := Nat.and_le_left
  unfold alignUp
  rw [hand (x + d + (a - 1)), hsame, ← hand]
  omega

@[simp] theorem alignUp_one (x : Nat) : alignUp x 1 = x := by simp [alignUp]

/-! ## Powers of two -/

theorem alignUp_two_pow (x k : Nat) : alignUp x (2 ^ k) = 2 ^ k * ((x + (2 ^ k - 1)) / 2 ^ k) := by
  unfold alignUp
  rw [Nat.and_two_pow_sub_one_eq_mod]
  have := Nat.div_add_mod (x + (2 ^ k - 1)) (2 ^ k)
  omega

theorem dvd_alignUp (x k : Nat) : 2 ^ k ∣ alignUp x (2 ^ k) := alignUp_two_pow x k ▸ Nat.dvd_mul_right _ _

/-- The least multiple: every multiple that is at least `x` is at least the rounded value. -/
theorem alignUp_le_of_dvd {x k z : Nat} (hz : 2 ^ k ∣ z) (h : x ≤ z) : alignUp x (2 ^ k) ≤ z := by
  obtain ⟨q, rfl⟩ := hz
  rw [alignUp_two_pow]
  refine Nat.mul_le_mul_left _ (Nat.le_of_lt_succ ?_)
  rw [Nat.div_lt_iff_lt_mul (Nat.two_pow_pos k), Nat.succ_mul, Nat.mul_comm q]
  have := Nat.two_pow_pos k
  omega

/-- An even number is rounded up by at most `2 ^ k - 2`. -/
theorem alignUp_le_of_even {x k : Nat} (h : 2 ∣ x) : alignUp x (2 ^ k) ≤ x + (2 ^ k - 2) := by
  cases k with
  | zero => simp
  | succ k =>
    have h1 := alignUp_le x (2 ^ (k + 1))
    have h2 := two_dvd_alignUp h (2 ^ (k + 1))
    have h3 : 2 ∣ 2 ^ (k + 1) := ⟨2 ^ k, by rw [pow_succ, Nat.mul_comm]⟩
    have := Nat.two_pow_pos (k + 1)
    omega

/-- A positive number is rounded up to at least one multiple. -/
theorem two_pow_le_alignUp {x k : Nat} (h : 0 < x) : 2 ^ k ≤ alignUp x (2 ^ k) :=
  Nat.le_of_dvd (lt_of_lt_of_le h (le_alignUp _ _)) (dvd_alignUp x k)

theorem alignUp_of_dvd {x k : Nat} (h : 2 ^ k ∣ x) : alignUp x (2 ^ k) = x :=
  le_antisymm (alignUp_le_of_dvd h le_rfl) (le_alignUp _ _)

/-- Rounding a sum needs no more than rounding its parts. -/
theorem alignUp_add_le (x y k : Nat) : alignUp (x + y) (2 ^ k) ≤ alignUp x (2 ^ k) + alignUp y (2 ^ k) :=
  alignUp_le_of_dvd (Nat.dvd_add (dvd_alignUp x k) (dvd_alignUp y k))
    (Nat.add_le_add (le_alignUp _ _) (le_alignUp _ _))

theorem alignUp_add_of_dvd {x y k : Nat} (h : 2 ^ k ∣ x) : alignUp (x + y) (2 ^ k) = x + alignUp y (2 ^ k) := by
  obtain ⟨q, rfl⟩ := h
  rw [alignUp_two_pow, alignUp_two_pow, Nat.add_assoc, Nat.mul_add_div (Nat.two_pow_pos k), Nat.mul_add]

end MaskArith
