/-
The vring layout of `virtio_ring.h`: a descriptor table, an avail ring and a used ring behind one
base address. `vringSize` is the size the header promises and `vringInit` the placement it makes;
the used ring is rounded up from its absolute address, so the two only agree for aligned bases.
`w` is the width of `uintptr_t` and `unsigned long`.
-/
import RpmsgLite.Lib.ByteMem
import RpmsgLite.Lib.FreeRing
import RpmsgLite.Lib.MaskArith

namespace RpmsgLite

open MaskArith

def VRING_DESC_F_WRITE : UInt16 := 2
def VRING_USED_F_NO_NOTIFY : UInt16 := 1
def VRING_AVAIL_F_NO_INTERRUPT : UInt16 := 1

/-- `struct vring`: the entry count and the addresses of the three tables. -/
structure Vring where
  num : Nat
  desc : Nat
  avail : Nat
  used : Nat
deriving DecidableEq

/-! ## Field addresses -/

namespace Vring

variable (vr : Vring) (i : Nat)

def descAddrAt : Nat := vr.desc + 16 * i
def descLenAt : Nat := vr.desc + 16 * i + 8
def descFlagsAt : Nat := vr.desc + 16 * i + 12
def descNextAt : Nat := vr.desc + 16 * i + 14
def availFlagsAt : Nat := vr.avail
def availIdxAt : Nat := vr.avail + 2
def availRingAt : Nat := vr.avail + 4 + 2 * i
def usedFlagsAt : Nat := vr.used
def usedIdxAt : Nat := vr.used + 2
def usedIdAt : Nat := vr.used + 4 + 8 * i
def usedLenAt : Nat := vr.used + 4 + 8 * i + 4

/-- One past the last byte of each table. -/
def descEnd : Nat := vr.desc + 16 * vr.num
def availEnd : Nat := vr.avail + 4 + 2 * vr.num
def usedEnd : Nat := vr.used + 4 + 8 * vr.num

end Vring

/-! ## Size and placement -/

/-- `vring_size`: 32-bit sums around a rounding done in `unsigned long`. -/
def vringSize (w num align : Nat) : Nat :=
  let size := wrap 32 (num * 16)
  let size := wrap 32 (size + (6 + num * 2 + 2))
  let size := wrap 32 (roundUp w size align)
  wrap 32 (size + (12 + num * 8 + 2))

/-- `vring_init`: the used ring is rounded from the absolute address of `avail->ring[num]`. -/
def vringInit (w num p align : Nat) : Vring where
  num := num
  desc := p
  avail := p + num * 16
  used := roundUp w (p + num * 16 + 4 + num * 2) align

theorem vringSize_eq {w num align : Nat} (hw : 32 ≤ w) (h0 : 0 < align) (ha : align ≤ 65536)
    (hn : num ≤ 65535) : vringSize w num align = alignUp (18 * num + 8) align + 8 * num + 14 := by
  have h32 : (2 : Nat) ^ 32 ≤ 2 ^ w := Nat.pow_le_pow_right (by decide) hw
  have hup := alignUp_le (18 * num + 8) align
  simp only [vringSize]
  rw [wrap_of_lt (x := num * 16) (by omega), show num * 16 + (6 + num * 2 + 2) = 18 * num + 8 by omega,
    wrap_of_lt (x := 18 * num + 8) (by omega), roundUp_eq h0 (by omega),
    wrap_of_lt (x := alignUp _ _) (by omega), wrap_of_lt (by omega)]
  omega

/-- The address of the used ring when rounding it does not wrap. -/
theorem vringInit_used {w num p align : Nat} (h0 : 0 < align) (h : p + 18 * num + 4 + (align - 1) < 2 ^ w) :
    (vringInit w num p align).used = alignUp (p + 18 * num + 4) align := by
  unfold vringInit
  rw [show p + num * 16 + 4 + num * 2 = p + 18 * num + 4 by omega, roundUp_eq h0 h]

theorem vringInit_used_zero (w num p : Nat) : (vringInit w num p 0).used = 0 := roundUp_zero _ _

/-! ## Well-placed vrings -/

/-- The three tables lie behind one another, and the entry count is a ring size. -/
structure Vring.Laid (vr : Vring) : Prop where
  size : FreeRing.IsSize vr.num
  avail_eq : vr.avail = vr.descEnd
  used_le : vr.availEnd ≤ vr.used

/-! ## Table contents -/

namespace Vring

variable (vr : Vring) (m : ByteMem)

/-- The descriptor index in an avail slot. -/
def availSlot (k : Nat) : UInt16 := m.ld16 (vr.availRingAt k)

/-- The descriptor index and the length in a used slot. -/
def usedSlot (k : Nat) : UInt32 × UInt32 := (m.ld32 (vr.usedIdAt k), m.ld32 (vr.usedLenAt k))

/-- The avail entries a consumer at `cons` has not taken yet. -/
def availPending (cons : UInt16) : List UInt16 :=
  FreeRing.pending (vr.availSlot m) vr.num (m.ld16 vr.availIdxAt) cons

/-- The used entries a consumer at `cons` has not taken yet. -/
def usedPending (cons : UInt16) : List (UInt32 × UInt32) :=
  FreeRing.pending (vr.usedSlot m) vr.num (m.ld16 vr.usedIdxAt) cons

end Vring

section Frames

open ByteMem

variable {vr : Vring} {m m' : ByteMem}

theorem Vring.availIdx_congr (h : Agree m m' vr.avail vr.availEnd) :
    m'.ld16 vr.availIdxAt = m.ld16 vr.availIdxAt :=
  ld16_congr (h.mono (by simp [availIdxAt]) (by simp only [availIdxAt, availEnd]; omega))

theorem Vring.usedIdx_congr (h : Agree m m' vr.used vr.usedEnd) :
    m'.ld16 vr.usedIdxAt = m.ld16 vr.usedIdxAt :=
  ld16_congr (h.mono (by simp [usedIdxAt]) (by simp only [usedIdxAt, usedEnd]; omega))

theorem Vring.availSlot_congr (h : Agree m m' vr.avail vr.availEnd) {k : Nat} (hk : k < vr.num) :
    vr.availSlot m' k = vr.availSlot m k :=
  ld16_congr (h.mono (by simp only [availRingAt]; omega) (by simp only [availRingAt, availEnd]; omega))

theorem Vring.usedSlot_congr (h : Agree m m' vr.used vr.usedEnd) {k : Nat} (hk : k < vr.num) :
    vr.usedSlot m' k = vr.usedSlot m k := by
  unfold usedSlot
  rw [ld32_congr (h.mono (by simp only [usedIdAt]; omega) (by simp only [usedIdAt, usedEnd]; omega)),
    ld32_congr (h.mono (by simp only [usedLenAt]; omega) (by simp only [usedLenAt, usedEnd]; omega))]

theorem Vring.availPending_congr (hn : 0 < vr.num) (h : Agree m m' vr.avail vr.availEnd) (cons : UInt16) :
    vr.availPending m' cons = vr.availPending m cons := by
  unfold availPending
  rw [availIdx_congr h]
  exact FreeRing.pending_congr hn (fun k hk => availSlot_congr h hk) _ _

theorem Vring.usedPending_congr (hn : 0 < vr.num) (h : Agree m m' vr.used vr.usedEnd) (cons : UInt16) :
    vr.usedPending m' cons = vr.usedPending m cons := by
  unfold usedPending
  rw [usedIdx_congr h]
  exact FreeRing.pending_congr hn (fun k hk => usedSlot_congr h hk) _ _

end Frames

end RpmsgLite
