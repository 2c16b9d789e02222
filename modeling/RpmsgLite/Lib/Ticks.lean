/-
A counter that grows by a fixed interval modulo `W`, and the first time it reads at least a limit. For a
limit below `W` that takes the quotient rounded up, unless the multiple there wraps. For a limit that is cut
to its remainder it takes as long as for the whole limit only when no earlier multiple reaches the remainder.
Below that, the two ways to scale a time by a rate: dividing first is always exact, and a product cut to its
remainder is right only when nothing is cut.
-/
import Mathlib.Algebra.Order.Floor.Div
import Mathlib.Tactic

namespace Ticks

variable {W limit interval n : Nat}

/-- After `n` intervals the counter reads at least the limit, and after fewer it does not. -/
structure First (W limit interval n : Nat) : Prop where
  pos : 0 < n
  reached : limit ≤ n * interval % W
  before : ∀ k, 0 < k → k < n → k * interval % W < limit

/-- The counter never reads at least the limit. -/
def Never (W limit interval : Nat) : Prop := ∀ k, 0 < k → k * interval % W < limit

theorem First.unique {n' : Nat} (h : First W limit interval n) (h' : First W limit interval n') : n = n' := by
  rcases Nat.lt_trichotomy n n' with hlt | heq | hgt
  · exact absurd h.reached (Nat.not_le.2 (h'.before n h.pos hlt))
  · exact heq
  · exact absurd h'.reached (Nat.not_le.2 (h.before n' h'.pos hgt))

theorem lt_ceilDiv_iff {k : Nat} (h : 0 < interval) : k < limit ⌈/⌉ interval ↔ k * interval < limit := by
  rw [← Nat.not_le, ceilDiv_le_iff_le_mul h, Nat.not_le, Nat.mul_comm]

theorem ceilDiv_pos (h : 0 < interval) (hl : 0 < limit) : 0 < limit ⌈/⌉ interval := by
  rw [lt_ceilDiv_iff h, Nat.zero_mul]
  exact hl

/-- The first multiple that is not below the limit lies less than an interval above it. -/
theorem ceilDiv_mul_bounds (h : 0 < interval) (hl : 0 < limit) :
    limit ≤ limit ⌈/⌉ interval * interval ∧ limit ⌈/⌉ interval * interval < limit + interval := by
  constructor
  · have := (lt_ceilDiv_iff h).not.1 (lt_irrefl (limit ⌈/⌉ interval))
    omega
  · obtain ⟨k, hk⟩ := Nat.exists_eq_succ_of_ne_zero (Nat.pos_iff_ne_zero.1 (ceilDiv_pos h hl))
    have hlt := (lt_ceilDiv_iff h).1 (show k < limit ⌈/⌉ interval by omega)
    rw [hk, Nat.succ_mul]
    omega

/-- The multiples of the interval up to the limit, and the first one from there on, are ordered by their remainders as
they are themselves. -/
structure Uncut (W limit interval : Nat) : Prop where
  pos : limit % W ≠ 0
  fits : limit ⌈/⌉ interval * interval < (limit / W + 1) * W
  before : ∀ m, interval ∣ m → m < limit → m % W < limit % W

/-- A limit cut to its remainder is reached in the time for the whole limit exactly when it is uncut. -/
theorem first_mod_iff (hpos : limit % W ≠ 0) (h0 : 0 < interval) (hW : interval < W) :
    First W (limit % W) interval (limit ⌈/⌉ interval) ↔ Uncut W limit interval := by
  have hl : 0 < limit := by
    by_contra hl
    rw [Nat.eq_zero_of_not_pos hl, Nat.zero_mod] at hpos
    exact hpos rfl
  obtain ⟨hle, hlt⟩ := ceilDiv_mul_bounds h0 hl
  have hdiv := Nat.div_add_mod limit W
  have hmod := Nat.mod_lt limit (show 0 < W by omega)
  have hmul : W * (limit / W) = limit / W * W := Nat.mul_comm _ _
  have hbefore : (∀ k, 0 < k → k < limit ⌈/⌉ interval → k * interval % W < limit % W) ↔
      ∀ m, interval ∣ m → m < limit → m % W < limit % W := by
    constructor
    · rintro h _ ⟨k, rfl⟩ hm
      rw [Nat.mul_comm] at hm ⊢
      rcases Nat.eq_zero_or_pos k with rfl | hk
      · rw [Nat.zero_mul, Nat.zero_mod]
        omega
      · exact h k hk ((lt_ceilDiv_iff h0).2 hm)
    · intro h k _ hk
      exact h _ (Nat.dvd_mul_left _ _) ((lt_ceilDiv_iff h0).1 hk)
  constructor
  · rintro ⟨-, hreached, hb⟩
    refine ⟨hpos, ?_, hbefore.1 hb⟩
    by_contra hge
    -- behind the next multiple of `W` the remainder starts over
    rw [Nat.not_lt, Nat.succ_mul] at hge
    obtain ⟨d, hd⟩ := Nat.exists_eq_add_of_le hge
    have hsmall : limit ⌈/⌉ interval * interval % W = d := by
      rw [hd, ← Nat.succ_mul, Nat.mul_add_mod_of_lt (by omega)]
    omega
  · rintro ⟨-, hfits, hb⟩
    refine ⟨ceilDiv_pos h0 hl, ?_, hbefore.2 hb⟩
    rw [Nat.succ_mul] at hfits
    obtain ⟨d, hd⟩ := Nat.exists_eq_add_of_le (show limit / W * W ≤ limit ⌈/⌉ interval * interval by omega)
    have hsmall : limit ⌈/⌉ interval * interval % W = d := by
      rw [hd, Nat.mul_add_mod_of_lt (by omega)]
    omega

/-- A limit below the modulus is uncut exactly when the multiple that reaches it does not wrap. -/
theorem uncut_iff_of_lt (hl : 0 < limit) (hW : limit < W) : Uncut W limit interval ↔ limit ⌈/⌉ interval * interval < W := by
  have hmod : limit % W = limit := Nat.mod_eq_of_lt hW
  have hdiv : limit / W = 0 := Nat.div_eq_of_lt hW
  constructor
  · rintro ⟨-, hfits, -⟩
    rwa [hdiv, Nat.zero_add, Nat.one_mul] at hfits
  · intro hfits
    refine ⟨by omega, by rwa [hdiv, Nat.zero_add, Nat.one_mul], fun m _ hm => ?_⟩
    rw [hmod, Nat.mod_eq_of_lt (hm.trans hW)]
    exact hm

/-- A limit that is not below the modulus is never reached. -/
theorem never_of_le (h0 : 0 < W) (h : W ≤ limit) : Never W limit interval :=
  fun _ _ => (Nat.mod_lt _ h0).trans_le h

/-- The largest value of a counter of `w` bits is never reached exactly when the interval is even. -/
theorem never_max_iff {w : Nat} (hw : 0 < w) : Never (2 ^ w) (2 ^ w - 1) interval ↔ 2 ∣ interval := by
  have h2 : 2 ∣ 2 ^ w := dvd_pow_self 2 hw.ne'
  have hpos := Nat.two_pow_pos w
  constructor
  · intro hnever
    by_contra hodd
    have hcop : Nat.Coprime interval (2 ^ w) :=
      Nat.Coprime.pow_right w ((Nat.coprime_two_right).2 (Nat.odd_iff.2 (by omega)))
    -- a multiple with the largest remainder
    obtain ⟨k, -, hk⟩ := Nat.exists_mul_mod_eq_of_coprime (2 ^ w - 1) hcop hpos.ne'
    rw [Nat.mod_eq_of_lt (show 2 ^ w - 1 < 2 ^ w by omega), Nat.mul_comm] at hk
    rcases Nat.eq_zero_or_pos k with rfl | hk0
    · rw [Nat.zero_mul, Nat.zero_mod] at hk
      have := Nat.le_of_dvd hpos h2
      omega
    · have := hnever k hk0
      omega
  · intro heven k _
    have hdvd : 2 ∣ k * interval % 2 ^ w := (Nat.dvd_mod_iff h2).2 (Dvd.dvd.mul_left heven k)
    have hlt := Nat.mod_lt (k * interval) hpos
    omega

/-! ## Scaling -/

/-- Whole units and the rest scaled apart. -/
theorem scale_split {unit : Nat} (x rate : Nat) (h : 0 < unit) :
    x / unit * rate + x % unit * rate / unit = x * rate / unit := by
  have hsplit : x * rate = unit * (x / unit * rate) + x % unit * rate := by
    rw [← Nat.mul_assoc, ← Nat.add_mul, Nat.div_add_mod]
  rw [hsplit, Nat.mul_add_div h]

/-- A value cut to its remainder has the same quotient only when nothing is cut. -/
theorem mod_div_eq_iff {unit x : Nat} (h : 0 < unit) (hW : unit ≤ W) : x % W / unit = x / unit ↔ x < W := by
  constructor
  · intro heq
    by_contra hge
    have hle : x % W + unit ≤ x := by
      have hdiv := Nat.div_add_mod x W
      have hpos : 0 < x / W := Nat.div_pos (Nat.le_of_not_lt hge) (h.trans_le hW)
      have := Nat.le_mul_of_pos_right W hpos
      omega
    have hquot := Nat.div_le_div_right (c := unit) hle
    rw [Nat.add_div_right _ h] at hquot
    omega
  · intro hx
    rw [Nat.mod_eq_of_lt hx]

end Ticks
