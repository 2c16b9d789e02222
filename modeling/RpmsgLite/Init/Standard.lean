/-
The vring with its two event fields. `vring_size` counts both of them; `vring_init` rounds the used ring up
from the end of the avail entries, without the field behind them, and from the absolute address.
-/
import RpmsgLite.Init.Layout

namespace RpmsgLite

open MaskArith

/-- `vring_used_event` and `vring_avail_event` -/
def Vring.usedEventAt (vr : Vring) : Nat := vr.availRingAt vr.num
def Vring.availEventAt (vr : Vring) : Nat := vr.usedIdAt vr.num

/-- The standard layout: the three tables, each with its event field, do not overlap and lie in `[lo, hi)`. -/
structure Vring.Standard (vr : Vring) (lo hi : Nat) : Prop where
  desc_avail : Apart vr.desc vr.descEnd vr.avail (vr.usedEventAt + 2)
  desc_used : Apart vr.desc vr.descEnd vr.used (vr.availEventAt + 4)
  avail_used : Apart vr.avail (vr.usedEventAt + 2) vr.used (vr.availEventAt + 4)
  desc_in : lo ≤ vr.desc ∧ vr.descEnd ≤ hi
  avail_in : lo ≤ vr.avail ∧ vr.usedEventAt + 2 ≤ hi
  used_in : lo ≤ vr.used ∧ vr.availEventAt + 4 ≤ hi

/-- A used ring behind the avail entries only has to leave out the event field and to end in time. -/
theorem Vring.standard_iff {w num base align hi : Nat} (hu : base + 18 * num + 4 ≤ (vringInit w num base align).used) :
    (vringInit w num base align).Standard base hi ↔
      base + 18 * num + 6 ≤ (vringInit w num base align).used ∧ (vringInit w num base align).used + 8 * num + 8 ≤ hi := by
  have hd : (vringInit w num base align).descEnd = base + 16 * num := rfl
  have ha : (vringInit w num base align).avail = base + num * 16 := rfl
  have he : (vringInit w num base align).usedEventAt = base + num * 16 + 4 + 2 * num := rfl
  have hv : (vringInit w num base align).availEventAt = (vringInit w num base align).used + 4 + 8 * num := rfl
  have hbase : (vringInit w num base align).desc = base := rfl
  -- from here on the six bounds are linear in the addresses
  generalize vringInit w num base align = vr at *
  constructor
  · rintro ⟨-, -, h1, -, -, -, h2⟩
    unfold Apart at h1
    omega
  · rintro ⟨h1, h2⟩
    constructor
    · left
      omega
    · left
      omega
    · left
      omega
    · omega
    · omega
    · omega

/-! ## Rounding the absolute address and the offset -/

section

variable {k base x : Nat}

theorem alignUp_of_not_dvd (h : ¬ 2 ^ k ∣ x) : alignUp x (2 ^ k) = x - x % 2 ^ k + 2 ^ k := by
  rw [Nat.dvd_iff_mod_eq_zero] at h
  have hlt := Nat.mod_lt x (Nat.two_pow_pos k)
  have hdiv := Nat.div_add_mod x (2 ^ k)
  have hq : (x + (2 ^ k - 1)) / 2 ^ k = x / 2 ^ k + 1 := by
    rw [show x + (2 ^ k - 1) = 2 ^ k * (x / 2 ^ k + 1) + (x % 2 ^ k - 1) by rw [Nat.mul_add]; omega,
      Nat.mul_add_div (Nat.two_pow_pos k), Nat.div_eq_of_lt (show x % 2 ^ k - 1 < 2 ^ k by omega), Nat.add_zero]
  rw [alignUp_two_pow, hq, Nat.mul_add]
  omega

theorem add_mod_cases (a b n : Nat) (hn : 0 < n) :
    a % n + b % n < n ∧ (a + b) % n = a % n + b % n ∨ n ≤ a % n + b % n ∧ (a + b) % n = a % n + b % n - n := by
  have ha := Nat.mod_lt a hn
  have hb := Nat.mod_lt b hn
  rw [Nat.add_mod]
  by_cases h : a % n + b % n < n
  · exact Or.inl ⟨h, Nat.mod_eq_of_lt h⟩
  · have hle := Nat.le_of_not_lt h
    exact Or.inr ⟨hle, by rw [Nat.mod_eq_sub_mod hle, Nat.mod_eq_of_lt (by omega)]⟩

/-- Where the offset goes with the four bytes behind it. -/
theorem alignUp_add_four (hk : 2 ≤ k) (hx : 2 ∣ x) : alignUp (x + 4) (2 ^ k) =
    if x % 2 ^ k + 4 < 2 ^ k then x - x % 2 ^ k + 2 ^ k else if x % 2 ^ k + 4 = 2 ^ k then x + 4 else x + 2 + 2 ^ k := by
  have hpos := Nat.two_pow_pos k
  have h4 : 4 ∣ 2 ^ k := pow_dvd_pow 2 hk
  have hs : 2 ∣ x % 2 ^ k := (Nat.dvd_mod_iff ((show 2 ∣ 4 by decide).trans h4)).2 hx
  have hle := Nat.mod_le x (2 ^ k)
  have hlt := Nat.mod_lt x hpos
  have hadd := add_mod_cases x 4 (2 ^ k) hpos
  have hfour : 2 ^ k = 4 ∧ 4 % 2 ^ k = 0 ∨ 4 < 2 ^ k ∧ 4 % 2 ^ k = 4 := by
    rcases (Nat.le_of_dvd hpos h4).eq_or_lt with heq | hgt
    · exact Or.inl ⟨heq.symm, by rw [← heq]⟩
    · exact Or.inr ⟨hgt, Nat.mod_eq_of_lt hgt⟩
  by_cases hdvd : 2 ^ k ∣ x + 4
  · rw [alignUp_of_dvd hdvd]
    rw [Nat.dvd_iff_mod_eq_zero] at hdvd
    split
    · omega
    · split
      · rfl
      · omega
  · rw [alignUp_of_not_dvd hdvd]
    rw [Nat.dvd_iff_mod_eq_zero] at hdvd
    split
    · omega
    · split
      · omega
      · omega

/-- When rounding the absolute address needs at most six bytes more than rounding the offset with the event field. -/
theorem alignUp_abs_le_iff (hk : 2 ≤ k) (hbase : 4 ∣ base) (hx : 2 ∣ x) (hne : ¬ 2 ^ k ∣ base + x) :
    alignUp (base + x) (2 ^ k) ≤ base + (alignUp (x + 4) (2 ^ k) + 6) ↔
      base % 2 ^ k + x % 2 ^ k ≤ 2 ^ k ∨ base % 2 ^ k + 4 = 2 ^ k ∨ x % 2 ^ k + 2 = 2 ^ k := by
  have h4 : 4 ∣ 2 ^ k := pow_dvd_pow 2 hk
  have hr : 4 ∣ base % 2 ^ k := (Nat.dvd_mod_iff h4).2 hbase
  have hs : 2 ∣ x % 2 ^ k := (Nat.dvd_mod_iff ((show 2 ∣ 4 by decide).trans h4)).2 hx
  have hpos := Nat.two_pow_pos k
  rw [alignUp_of_not_dvd hne]
  rw [Nat.dvd_iff_mod_eq_zero] at hne
  rw [alignUp_add_four hk hx]
  have hle := Nat.mod_le (base + x) (2 ^ k)
  have hxle := Nat.mod_le x (2 ^ k)
  have hrlt := Nat.mod_lt base hpos
  have hslt := Nat.mod_lt x hpos
  have hadd := add_mod_cases base x (2 ^ k) hpos
  -- what is left depends on the two remainders only
  generalize 2 ^ k = a at *
  generalize base % a = r at *
  generalize x % a = s at *
  split
  · omega
  · split
    · omega
    · omega

end

/-! ## The layout of `vring_init` -/

/-- For every ring size, alignment and word-aligned base, `vring_size` does not overflow; `vring_init` makes the standard
layout exactly when the used ring is moved off the field behind the avail entries, and the alignment of the base does
not push it back further than the offset is. -/
theorem vring_standard_iff {w j k base : Nat} (hw : 32 ≤ w) (hj : j ≤ 15) (hk : 2 ≤ k) (hk' : k ≤ 16) (hbase : 4 ∣ base)
    (hroom : base + vringSize w (2 ^ j) (2 ^ k) ≤ 2 ^ w) :
    (vringSize w (2 ^ j) (2 ^ k) = alignUp (16 * 2 ^ j + (6 + 2 * 2 ^ j + 2)) (2 ^ k) + (12 + 8 * 2 ^ j + 2) ∧
      vringSize w (2 ^ j) (2 ^ k) < 2 ^ 31) ∧
    ((vringInit w (2 ^ j) base (2 ^ k)).Standard base (base + vringSize w (2 ^ j) (2 ^ k)) ↔
      ¬ 2 ^ k ∣ base + (18 * 2 ^ j + 4) ∧
        (base % 2 ^ k + (18 * 2 ^ j + 4) % 2 ^ k ≤ 2 ^ k ∨ base % 2 ^ k + 4 = 2 ^ k ∨
          (18 * 2 ^ j + 4) % 2 ^ k + 2 = 2 ^ k)) := by
  have hn : 2 ^ j ≤ 2 ^ 15 := Nat.pow_le_pow_right (by decide) hj
  have ha : 2 ^ k ≤ 2 ^ 16 := Nat.pow_le_pow_right (by decide) hk'
  have hpos := Nat.two_pow_pos k
  have hsize : vringSize w (2 ^ j) (2 ^ k) = _ := vringSize_eq hw hpos ha (by omega)
  have hup := alignUp_le (18 * 2 ^ j + 8) (2 ^ k)
  rw [hsize] at hroom ⊢
  generalize 2 ^ j = num at *
  refine ⟨⟨by rw [show 16 * num + (6 + 2 * num + 2) = 18 * num + 8 by omega]; omega, by omega⟩, ?_⟩
  have hle8 := le_alignUp (18 * num + 8) (2 ^ k)
  by_cases hwrap : base + 18 * num + 4 + (2 ^ k - 1) < 2 ^ w
  · have hused := vringInit_used hpos hwrap
    have hge := le_alignUp (base + 18 * num + 4) (2 ^ k)
    rw [Vring.standard_iff (by rw [hused]; exact hge), hused]
    rw [show base + 18 * num + 4 = base + (18 * num + 4) by omega] at *
    by_cases hdvd : 2 ^ k ∣ base + (18 * num + 4)
    · -- nothing is rounded, and the used ring starts on the event field
      rw [alignUp_of_dvd hdvd]
      constructor
      · intro h
        omega
      · intro h
        exact absurd hdvd h.1
    · -- the rounded address is even and behind the entries, so the field fits in front of it
      have heven := two_dvd_alignUp (x := base + (18 * num + 4)) (by omega) (2 ^ k)
      have hgt : base + (18 * num + 4) ≠ alignUp (base + (18 * num + 4)) (2 ^ k) := by
        intro heq
        exact hdvd (heq ▸ dvd_alignUp _ k)
      have hiff := alignUp_abs_le_iff (x := 18 * num + 4) hk hbase (by omega) hdvd
      rw [show 18 * num + 4 + 4 = 18 * num + 8 by omega] at hiff
      rw [← hiff]
      omega
  · -- rounding wraps to zero, in front of the base
    have hkw : k ≤ w := by omega
    have hused : (vringInit w num base (2 ^ k)).used = 0 := by
      unfold vringInit
      rw [show base + num * 16 + 4 + num * 2 = base + 18 * num + 4 by omega, roundUp_two_pow hkw]
      have hend : base + 18 * num + 4 < 2 ^ w := by omega
      have hak : 2 ^ k ≤ 2 ^ w := Nat.pow_le_pow_right (by decide) hkw
      have hlt : wrap w (base + 18 * num + 4 + (2 ^ k - 1)) < 2 ^ k := by
        unfold wrap
        rw [Nat.mod_eq_sub_mod (by omega), Nat.mod_eq_of_lt (by omega)]
        omega
      rw [Nat.div_eq_of_lt hlt, Nat.mul_zero]
    have h32 : 2 ^ 32 ≤ 2 ^ w := Nat.pow_le_pow_right (by decide) hw
    constructor
    · intro h
      have hin := h.used_in.1
      omega
    · rintro ⟨hdvd, hpush⟩
      have hiff := (alignUp_abs_le_iff (x := 18 * num + 4) hk hbase (by omega) hdvd).2 hpush
      rw [show 18 * num + 4 + 4 = 18 * num + 8 by omega] at hiff
      have hlt := lt_of_alignUp_lt (w := w) (x := base + (18 * num + 4)) hpos (Nat.pow_le_pow_right (by decide) hkw) (by omega)
      omega

/-- Two entries with alignment 16 at 4096. -/
theorem vring_standard_two : (vringInit 32 2 4096 16).Standard 4096 (4096 + vringSize 32 2 16) :=
  (@vring_standard_iff 32 1 4 4096 (by decide) (by decide) (by decide) (by decide) (by decide) (by decide)).2.2 (by decide)

/-- With alignment 4 the used ring lies on the used event of the avail ring; with alignment 64 a base that is only a
multiple of 4 pushes it out of the size. -/
theorem vring_not_standard : ¬ (vringInit 32 2 4096 4).Standard 4096 (4096 + vringSize 32 2 4) ∧
    ¬ (vringInit 32 2 4124 64).Standard 4124 (4124 + vringSize 32 2 64) := by
  constructor
  · intro h
    rcases h.avail_used with hapart | hapart
    · exact absurd hapart (by decide)
    · exact absurd hapart (by decide)
  · intro h
    exact absurd h.used_in.2 (by decide)

end RpmsgLite
