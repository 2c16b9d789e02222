/-
Addresses and sizes of an accepted configuration as plain numbers. The machine computes them with
wrapping sums and masks; the lemmas here say what they are when nothing wraps, and that a vring whose
tables are in order comes from sums that did not wrap.
-/
import RpmsgLite.Init.Memory

namespace RpmsgLite

open MaskArith

/-! ## Words and buffers -/

/-- The first word boundary at or after `a`. -/
def wordUp (a : Nat) : Nat := 4 * ((a + 3) / 4)

theorem rlWordAlignUp_eq {w a : Nat} (hw : 2 ≤ w) : rlWordAlignUp w a = 4 * (wrap w (a + 3) / 4) :=
  roundUp_two_pow (k := 2) hw

theorem rlWordAlignUp_of_lt {w a : Nat} (hw : 2 ≤ w) (h : a + 3 < 2 ^ w) : rlWordAlignUp w a = wordUp a := by
  rw [rlWordAlignUp_eq hw, wrap_of_lt h]; rfl

theorem rlWordAlignDown_eq {w a : Nat} (hw : 2 ≤ w) (h : a < 2 ^ w) : rlWordAlignDown w a = 4 * (a / 4) :=
  roundDown_two_pow (k := 2) hw h

theorem rlBufferSize_of_lt {payload : Nat} (h : payload + 19 < 2 ^ 32) : rlBufferSize 32 payload = wordUp (payload + 16) := by
  have hup : rlWordAlignUp 32 (wrap 32 (payload + 16)) = wordUp (payload + 16) := by
    rw [wrap_of_lt (by omega), rlWordAlignUp_of_lt (by decide) (by omega)]
  unfold rlBufferSize
  rw [hup]
  exact wrap_of_lt (by unfold wordUp; omega)

theorem four_dvd_rlBufferSize (payload : Nat) : 4 ∣ rlBufferSize 32 payload := by
  unfold rlBufferSize
  rw [rlWordAlignUp_eq (by decide)]
  unfold wrap
  omega

/-- A buffer holds a header and the configured payload exactly when the payload is small enough for
the rounded sum not to wrap. -/
theorem rlBufferSize_holds_iff {payload : Nat} (h : payload < 2 ^ 32) :
    payload + 16 ≤ rlBufferSize 32 payload ↔ payload + 19 < 2 ^ 32 := by
  constructor
  · intro hle
    unfold rlBufferSize at hle
    rw [rlWordAlignUp_eq (by decide)] at hle
    unfold wrap at hle
    omega
  · intro hlt
    rw [rlBufferSize_of_lt hlt]
    unfold wordUp; omega

theorem calc_lt {w length overhead buffSize count : Nat}
    (h : rlCalculateBufferCountDownSafe w length overhead buffSize = some count) : count < 2 ^ w := by
  unfold rlCalculateBufferCountDownSafe at h
  split at h
  · cases h; exact Nat.two_pow_pos w
  split at h
  · cases h
  · cases h
    exact lt_of_le_of_lt (Nat.div_le_self _ _) (roundDown_lt _ _ _)

/-- An accepted length holds the overhead and the buffers, up to the rounding of the base. -/
theorem calc_fits {w length overhead buffSize count n : Nat} (hw : 2 ≤ w) (hlen : length < 2 ^ w)
    (hn : 0 < n) (h : rlCalculateBufferCountDownSafe w length overhead buffSize = some count) (hle : n ≤ count) :
    overhead ≤ length ∧ 0 < buffSize ∧ buffSize * n ≤ 4 * ((length - overhead) / 4) := by
  unfold rlCalculateBufferCountDownSafe at h
  split at h
  · cases h; omega
  rename_i hge
  split at h
  · cases h
  rename_i hne
  cases h
  rw [rlWordAlignDown_eq hw (by omega)] at hle
  refine ⟨Nat.le_of_not_lt hge, Nat.pos_of_ne_zero hne, ?_⟩
  rw [Nat.mul_comm]
  exact (Nat.le_div_iff_mul_le (Nat.pos_of_ne_zero hne)).1 hle

/-! ## Vrings -/

section

variable {w : Nat} {p : ShmemParams} {addr : Nat}

@[simp] theorem vringOf_num (idx : Nat) : (vringOf w p addr idx).num = p.count.toNat := rfl

@[simp] theorem vringOf_desc (idx : Nat) : (vringOf w p addr idx).desc = vringBase w p addr idx := rfl

theorem vringOf_availEnd (idx : Nat) :
    (vringOf w p addr idx).availEnd = vringBase w p addr idx + 18 * p.count.toNat + 4 := by
  simp only [Vring.availEnd, vringOf, vringInit]; omega

theorem vringOf_usedEnd (idx : Nat) :
    (vringOf w p addr idx).usedEnd = (vringOf w p addr idx).used + 8 * p.count.toNat + 4 := by
  simp only [Vring.usedEnd, vringOf_num]; omega

theorem vringOf_used (w : Nat) (p : ShmemParams) (addr idx : Nat) (h0 : 0 < p.align)
    (h : vringBase w p addr idx + 18 * p.count.toNat + 4 + (p.align - 1) < 2 ^ w) :
    (vringOf w p addr idx).used = alignUp (vringBase w p addr idx + 18 * p.count.toNat + 4) p.align :=
  vringInit_used h0 h

/-- A vring whose tables are in order below `2 ^ w` was placed without wrapping. -/
theorem vringOf_used_of_order (ha : p.align ≤ 65536) (hw : 32 ≤ w) {idx : Nat}
    (hord : (vringOf w p addr idx).availEnd ≤ (vringOf w p addr idx).used) :
    0 < p.align ∧ (vringOf w p addr idx).used = alignUp (vringBase w p addr idx + 18 * p.count.toNat + 4) p.align := by
  have h32 : (2 : Nat) ^ 32 ≤ 2 ^ w := Nat.pow_le_pow_right (by decide) hw
  have hlt : (vringOf w p addr idx).used < 2 ^ w := roundUp_lt _ _ _
  rw [vringOf_availEnd] at hord
  have h0 : 0 < p.align := by
    by_contra hz
    have hz : p.align = 0 := by omega
    have : (vringOf w p addr idx).used = 0 := by
      simp only [vringOf, hz]; exact vringInit_used_zero _ _ _
    omega
  refine ⟨h0, vringOf_used w p addr idx h0 (no_wrap_of_le h0 (by omega) (by omega) ?_)⟩
  have hu : (vringOf w p addr idx).used = roundUp w (vringBase w p addr idx + 18 * p.count.toNat + 4) p.align := by
    simp only [vringOf, vringInit]
    congr 1
    omega
  rw [← hu]; exact hord

theorem vringOf_laid {idx : Nat} (hn : FreeRing.IsSize p.count.toNat)
    (hord : (vringOf w p addr idx).availEnd ≤ (vringOf w p addr idx).used) : (vringOf w p addr idx).Laid :=
  ⟨hn, by simp only [Vring.descEnd, vringOf, vringInit]; omega, hord⟩

theorem zeroedSize_eq (hw : 32 ≤ w) (h0 : 0 < p.align) (ha : p.align ≤ 65536) :
    zeroedSize w p = alignUp (18 * p.count.toNat + 8) p.align + 8 * p.count.toNat + 14 :=
  vringSize_eq hw h0 ha (by have := p.count.toNat_lt; omega)

theorem zeroedSize_ge (hw : 32 ≤ w) (h0 : 0 < p.align) (ha : p.align ≤ 65536) :
    18 * p.count.toNat + 8 ≤ zeroedSize w p := by
  have := le_alignUp (18 * p.count.toNat + 8) p.align
  rw [zeroedSize_eq hw h0 ha]; omega

/-- The first vring starts at the aligned address, the second a vring size behind it. -/
theorem vringBase_eq (p : ShmemParams) (addr : Nat) (hw : 2 ≤ w) (h : wordUp addr + p.vringSize < 2 ^ w) :
    vringBase w p addr 0 = wordUp addr ∧ vringBase w p addr 1 = wordUp addr + p.vringSize := by
  have hup : rlWordAlignUp w addr = wordUp addr := by
    refine rlWordAlignUp_of_lt hw ?_
    obtain ⟨q, hq⟩ : 2 ^ 2 ∣ 2 ^ w := Nat.pow_dvd_pow 2 hw
    unfold wordUp at h
    omega
  unfold vringBase
  rw [hup]
  exact ⟨by rw [if_pos rfl, Nat.add_zero, wrap_of_lt (by omega)], by rw [if_neg (by decide), wrap_of_lt h]⟩

end

/-- Each table of a vring lies in `[lo, hi)`. -/
structure Vring.Inside (vr : Vring) (lo hi : Nat) : Prop where
  desc : lo ≤ vr.desc ∧ vr.descEnd ≤ hi
  avail : lo ≤ vr.avail ∧ vr.availEnd ≤ hi
  used : lo ≤ vr.used ∧ vr.usedEnd ≤ hi

theorem vringOf_inside {w : Nat} {p : ShmemParams} {addr idx lo hi : Nat}
    (hu : (vringOf w p addr idx).used = alignUp (vringBase w p addr idx + 18 * p.count.toNat + 4) p.align)
    (hlo : lo ≤ vringBase w p addr idx) (hhi : (vringOf w p addr idx).used + 8 * p.count.toNat + 4 ≤ hi) :
    (vringOf w p addr idx).Inside lo hi := by
  have hle := le_alignUp (vringBase w p addr idx + 18 * p.count.toNat + 4) p.align
  refine ⟨⟨hlo, ?_⟩, ⟨?_, ?_⟩, ⟨?_, ?_⟩⟩
  · simp only [Vring.descEnd, vringOf_desc, vringOf_num]; omega
  · simp only [vringOf, vringInit]; omega
  · rw [vringOf_availEnd]; omega
  · omega
  · rw [vringOf_usedEnd]; exact hhi

/-! ## Disjointness -/

/-- Two address ranges without a common byte. -/
def Apart (lo hi lo' hi' : Nat) : Prop := hi ≤ lo' ∨ hi' ≤ lo

/-- The end of what the initialisation touches of a vring: its tables and its zeroed range. -/
def Vring.touchedEnd (vr : Vring) (zeroed : Nat) : Nat := max vr.usedEnd (vr.desc + zeroed)

/-- The `i`th buffer of the pool. -/
def bufferAt (base size i : Nat) : Nat := base + size * i

/-- The memory of an instance is laid out without overlap: the tables of each vring are in order, the
two vrings are apart, and every buffer is apart from the vrings and from every other buffer. -/
structure Disjoint (vr0 vr1 : Vring) (zeroed base size n : Nat) : Prop where
  tables : ∀ vr ∈ [vr0, vr1], vr.descEnd ≤ vr.avail ∧ vr.availEnd ≤ vr.used
  vrings : Apart vr0.desc (vr0.touchedEnd zeroed) vr1.desc (vr1.touchedEnd zeroed)
  bufVring : ∀ i < n, ∀ vr ∈ [vr0, vr1],
    Apart (bufferAt base size i) (bufferAt base size i + size) vr.desc (vr.touchedEnd zeroed)
  bufBuf : ∀ i < n, ∀ j < n, i ≠ j →
    Apart (bufferAt base size i) (bufferAt base size i + size) (bufferAt base size j) (bufferAt base size j + size)

theorem bufferAt_apart (base size : Nat) {i j : Nat} (h : i ≠ j) :
    Apart (bufferAt base size i) (bufferAt base size i + size) (bufferAt base size j) (bufferAt base size j + size) := by
  unfold Apart bufferAt
  rcases Nat.lt_or_gt_of_ne h with hlt | hlt
  · left
    have := Nat.mul_le_mul_left size (show i + 1 ≤ j by omega)
    rw [Nat.mul_succ] at this; omega
  · right
    have := Nat.mul_le_mul_left size (show j + 1 ≤ i by omega)
    rw [Nat.mul_succ] at this; omega

theorem bufferAt_le (base size : Nat) {i n : Nat} (h : i < n) : bufferAt base size i + size ≤ base + size * n := by
  unfold bufferAt
  have := Nat.mul_le_mul_left size (show i + 1 ≤ n by omega)
  rw [Nat.mul_succ] at this; omega

/-- An apart layout whose zeroed ranges stay within their vrings' room has no overlap at all. -/
theorem LayoutOk.disjoint {w : Nat} {p : ShmemParams} {addr : Nat} (hl : LayoutOk w p addr)
    (hz0 : vringBase w p addr 0 + zeroedSize w p ≤ vringBase w p addr 1)
    (hz1 : vringBase w p addr 1 + zeroedSize w p ≤ shMemBase w p addr)
    (hb1 : (vringOf w p addr 1).usedEnd ≤ shMemBase w p addr) :
    Disjoint (vringOf w p addr 0) (vringOf w p addr 1) (zeroedSize w p) (shMemBase w p addr) p.bufferSize
      (2 * p.count.toNat) := by
  have hord := hl.order
  have hb0 := hl.bufs0
  rw [vringOf_desc] at hord
  refine ⟨?_, Or.inl ?_, ?_, fun i _ j _ hne => bufferAt_apart _ _ hne⟩
  · intro vr hvr
    rcases List.mem_cons.1 hvr with rfl | hvr
    · exact ⟨hl.laid0.avail_eq.ge, hl.laid0.used_le⟩
    · rw [List.mem_singleton.1 hvr]; exact ⟨hl.laid1.avail_eq.ge, hl.laid1.used_le⟩
  · simp only [Vring.touchedEnd, vringOf_desc]; omega
  · intro i _ vr hvr
    right
    have hi : shMemBase w p addr ≤ bufferAt (shMemBase w p addr) p.bufferSize i := Nat.le_add_right _ _
    rcases List.mem_cons.1 hvr with rfl | hvr
    · simp only [Vring.touchedEnd, vringOf_desc]; omega
    · rw [List.mem_singleton.1 hvr]
      simp only [Vring.touchedEnd, vringOf_desc]; omega

end RpmsgLite
