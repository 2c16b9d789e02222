/-
One view of the two rings of a vring. Each ring is produced by one core and consumed by the other:
the master produces avail and consumes used, the remote the reverse. What both rings have in common
is stated once for a `RingKind`: which descriptors are pending, that publishing appends one and that
taking removes the oldest.
-/
import RpmsgLite.Virtio.Virtqueue

namespace RpmsgLite

open ByteMem

inductive RingKind | avail | used
deriving DecidableEq

/-- The other ring of the same vring. -/
def RingKind.other : RingKind → RingKind
  | .avail => .used
  | .used => .avail

@[simp] theorem RingKind.other_other (k : RingKind) : k.other.other = k := by cases k <;> rfl

namespace Vring

variable (vr : Vring) (m : ByteMem)

/-- The bytes of a ring. -/
def ringLo : RingKind → Nat
  | .avail => vr.avail
  | .used => vr.used

def ringHi : RingKind → Nat
  | .avail => vr.availEnd
  | .used => vr.usedEnd

/-- The producer's index. -/
def ringIdx : RingKind → UInt16
  | .avail => m.ld16 vr.availIdxAt
  | .used => m.ld16 vr.usedIdxAt

/-- The descriptors `ids` are pending for a consumer at `cons`, oldest first; on the used ring each is
published with the length `len`. -/
def PendingIs (k : RingKind) (cons : UInt16) (ids : List UInt16) (len : UInt32) : Prop :=
  match k with
  | .avail => vr.availPending m cons = ids
  | .used => vr.usedPending m cons = ids.map fun d => (d.toUInt32, len)

/-- The first `n` descriptors hand out the buffers `base + size * (lo + d)`, each of `size` bytes. -/
def DescIs (n base size lo : Nat) : Prop :=
  ∀ d < n, m.ld64 (vr.descAddrAt d) = UInt64.ofNat (base + size * (lo + d)) ∧
    m.ld32 (vr.descLenAt d) = UInt32.ofNat size

end Vring

variable {vr : Vring} {m m' : ByteMem} {k : RingKind} {cons : UInt16} {ids : List UInt16} {len : UInt32}

theorem Vring.PendingIs.length (h : vr.PendingIs m k cons ids len) :
    ids.length = FreeRing.count (vr.ringIdx m k) cons := by
  cases k with
  | avail =>
    simp only [PendingIs] at h
    rw [← h, Vring.availPending, FreeRing.length_pending, Vring.ringIdx]
  | used =>
    simp only [PendingIs] at h
    have := congrArg List.length h
    rw [Vring.usedPending, FreeRing.length_pending, List.length_map] at this
    rw [← this, Vring.ringIdx]

theorem Vring.PendingIs.congr (hn : 0 < vr.num) (ha : Agree m m' (vr.ringLo k) (vr.ringHi k))
    (h : vr.PendingIs m k cons ids len) : vr.PendingIs m' k cons ids len := by
  cases k with
  | avail => exact (Vring.availPending_congr hn ha cons).trans h
  | used => exact (Vring.usedPending_congr hn ha cons).trans h

theorem Vring.ringIdx_congr (ha : Agree m m' (vr.ringLo k) (vr.ringHi k)) : vr.ringIdx m' k = vr.ringIdx m k := by
  cases k with
  | avail => exact Vring.availIdx_congr ha
  | used => exact Vring.usedIdx_congr ha

/-- Nothing is pending for a consumer that has caught up. -/
theorem Vring.pendingIs_nil (vr : Vring) (m : ByteMem) (k : RingKind) (len : UInt32) :
    vr.PendingIs m k (vr.ringIdx m k) [] len := by
  cases k with
  | avail => exact FreeRing.pending_eq_nil_iff.2 rfl
  | used => simp only [PendingIs, List.map_nil]; exact FreeRing.pending_eq_nil_iff.2 rfl

/-! ## Where the rings lie -/

theorem Vring.desc_le_descEnd (vr : Vring) : vr.desc ≤ vr.descEnd := Nat.le_add_right _ _

theorem Vring.Laid.descEnd_le_ringLo (h : vr.Laid) (k : RingKind) : vr.descEnd ≤ vr.ringLo k := by
  have h1 := h.avail_eq
  have h2 := h.used_le
  cases k with
  | avail => exact h1.ge
  | used => simp only [ringLo, availEnd] at h2 ⊢; omega

theorem Vring.Laid.desc_le_ringLo (h : vr.Laid) (k : RingKind) : vr.desc ≤ vr.ringLo k :=
  vr.desc_le_descEnd.trans (h.descEnd_le_ringLo k)

theorem Vring.Laid.ringHi_le (h : vr.Laid) (k : RingKind) : vr.ringHi k ≤ vr.usedEnd := by
  have h2 := h.used_le
  cases k with
  | avail => simp only [ringHi, usedEnd] at h2 ⊢; omega
  | used => exact le_rfl

theorem Vring.Laid.descEnd_le_usedEnd (h : vr.Laid) : vr.descEnd ≤ vr.usedEnd := by
  have h1 := h.descEnd_le_ringLo .used
  simp only [ringLo, usedEnd] at h1 ⊢; omega

/-- The two rings of a vring are apart. -/
theorem Vring.Laid.rings_apart (h : vr.Laid) (k : RingKind) :
    vr.ringHi k ≤ vr.ringLo k.other ∨ vr.ringHi k.other ≤ vr.ringLo k := by
  cases k with
  | avail => exact Or.inl h.used_le
  | used => exact Or.inr h.used_le

/-! ## Publishing -/

/-- What publishing descriptor `d` does to the shared memory. -/
structure RingPut (vr : Vring) (k : RingKind) (m m' : ByteMem) (d : UInt16) (len : UInt32) : Prop where
  frame : Frame m m' (vr.ringLo k) (vr.ringHi k)
  idx : vr.ringIdx m' k = vr.ringIdx m k + 1
  push : ∀ cons ids, vr.PendingIs m k cons ids len → ids.length < vr.num →
    vr.PendingIs m' k cons (ids ++ [d]) len

theorem AvailPut.ringPut {d : UInt16} (h : AvailPut vr m m' d) (hn : FreeRing.IsSize vr.num) (len : UInt32) :
    RingPut vr .avail m m' d len := by
  refine ⟨h.frame, h.idx, fun cons ids hp hlt => ?_⟩
  simp only [Vring.PendingIs] at hp ⊢
  rw [h.pending hn (by rw [hp]; exact hlt), hp]

theorem UsedPut.ringPut {d : UInt16} (h : UsedPut vr m m' d len) (hn : FreeRing.IsSize vr.num) :
    RingPut vr .used m m' d len := by
  refine ⟨h.frame, h.idx, fun cons ids hp hlt => ?_⟩
  simp only [Vring.PendingIs] at hp ⊢
  rw [h.pending hn (by rw [hp, List.length_map]; exact hlt), hp, List.map_append, List.map_singleton]

/-- The producer operation on a ring: `virtqueue_add_buffer` or `virtqueue_add_consumed_buffer`. -/
def vqPut (k : RingKind) (vq : Virtqueue) (m : ByteMem) (d : UInt16) (len : UInt32) : Virtqueue × ByteMem :=
  match k with
  | .avail => virtqueueAddBuffer vq m d
  | .used => (vq, (virtqueueAddConsumedBuffer vq m d len).2)

theorem vqPut_spec {vq : Virtqueue} (h : vq.Wf) (len : UInt32) {d : UInt16} (hd : d ≤ vq.nentries) :
    RingPut vq.ring k m (vqPut k vq m d len).2 d len := by
  cases k with
  | avail => exact (vqRingUpdateAvail_spec h d).ringPut h.laid.size len
  | used =>
    have hnot : ¬ d > vq.nentries := fun hgt => absurd hd (UInt16.not_le.2 hgt)
    simp only [vqPut, virtqueueAddConsumedBuffer, if_neg hnot]
    exact (vqRingUpdateUsed_spec h d len).ringPut h.laid.size

/-- Publishing changes nothing of the virtqueue but the queued count. -/
theorem vqPut_vq (k : RingKind) (vq : Virtqueue) (m : ByteMem) (d : UInt16) (len : UInt32) :
    ∃ c, (vqPut k vq m d len).1 = { vq with queuedCnt := c } := by
  cases k with
  | avail => exact ⟨_, rfl⟩
  | used => exact ⟨vq.queuedCnt, rfl⟩

/-! ## Taking -/

/-- The cursor of the consumer operation on a ring. -/
def Virtqueue.cursor (vq : Virtqueue) : RingKind → UInt16
  | .avail => vq.availableIdx
  | .used => vq.usedConsIdx

def Virtqueue.setCursor (vq : Virtqueue) (k : RingKind) (i : UInt16) : Virtqueue :=
  match k with
  | .avail => { vq with availableIdx := i }
  | .used => { vq with usedConsIdx := i }

@[simp] theorem Virtqueue.setCursor_ring (vq : Virtqueue) (k : RingKind) (i : UInt16) :
    (vq.setCursor k i).ring = vq.ring := by cases k <;> rfl

@[simp] theorem Virtqueue.setCursor_nentries (vq : Virtqueue) (k : RingKind) (i : UInt16) :
    (vq.setCursor k i).nentries = vq.nentries := by cases k <;> rfl

@[simp] theorem Virtqueue.cursor_setCursor (vq : Virtqueue) (k : RingKind) (i : UInt16) :
    (vq.setCursor k i).cursor k = i := by cases k <;> rfl

/-- The consumer operation on a ring: `virtqueue_get_available_buffer` or `virtqueue_get_buffer`. -/
def vqGet (k : RingKind) (vq : Virtqueue) (m : ByteMem) : Virtqueue × Option Got :=
  match k with
  | .avail => virtqueueGetAvailableBuffer vq m
  | .used => virtqueueGetBuffer vq m

theorem toNat_low_ofNat {x : Nat} (h : x < 2 ^ 32) : (UInt64.ofNat x).toUInt32.toNat = x := by
  rw [UInt64.toNat_toUInt32, UInt64.toNat_ofNat_of_lt' (by simp only [UInt64.size]; omega)]
  omega

theorem toUInt16_toUInt32 (d : UInt16) : d.toUInt32.toUInt16 = d := by
  rw [← UInt16.toNat_inj, UInt32.toNat_toUInt16, UInt16.toNat_toUInt32]
  have := d.toNat_lt
  omega

theorem vqGet_nil {vq : Virtqueue} (h : vq.Wf) (hp : vq.ring.PendingIs m k (vq.cursor k) [] len) :
    vqGet k vq m = (vq, none) := by
  cases k with
  | avail =>
    simp only [Vring.PendingIs, Virtqueue.cursor] at hp
    rcases virtqueueGetAvailableBuffer_spec h (m := m) with ⟨_, he⟩ | ⟨d, ds, hc, _⟩
    · exact he
    · rw [hp] at hc; cases hc
  | used =>
    simp only [Vring.PendingIs, Virtqueue.cursor, List.map_nil] at hp
    rcases virtqueueGetBuffer_spec h (m := m) with ⟨_, he⟩ | ⟨d, ds, hc, _⟩
    · exact he
    · rw [hp] at hc; cases hc

/-- Taking hands out the oldest pending descriptor, with the buffer and the length of its table entry. -/
theorem vqGet_cons {vq : Virtqueue} (h : vq.Wf) {d : UInt16} {ds : List UInt16} {base size lo : Nat}
    (hp : vq.ring.PendingIs m k (vq.cursor k) (d :: ds) (UInt32.ofNat size)) (hdesc : vq.ring.DescIs m vq.ring.num base size lo)
    (hd : d.toNat < vq.ring.num) (hb : base + size * (lo + d.toNat) < 2 ^ 32) :
    vqGet k vq m = (vq.setCursor k (vq.cursor k + 1),
        some { buffer := base + size * (lo + d.toNat), len := UInt32.ofNat size, idx := d }) ∧
      vq.ring.PendingIs m k (vq.cursor k + 1) ds (UInt32.ofNat size) := by
  obtain ⟨haddr, hlen⟩ := hdesc d.toNat hd
  cases k with
  | avail =>
    simp only [Vring.PendingIs, Virtqueue.cursor] at hp ⊢
    rcases virtqueueGetAvailableBuffer_spec h (m := m) with ⟨hn, _⟩ | ⟨e, es, hc, hs, he⟩
    · rw [hp] at hn; cases hn
    · rw [hp] at hc
      cases hc
      refine ⟨?_, hs⟩
      simp only [vqGet, he, Virtqueue.setCursor, haddr, hlen, envMapPatova, toNat_low_ofNat hb]
  | used =>
    simp only [Vring.PendingIs, Virtqueue.cursor, List.map_cons] at hp ⊢
    rcases virtqueueGetBuffer_spec h (m := m) with ⟨hn, _⟩ | ⟨e, es, hc, hs, he⟩
    · rw [hp] at hn; cases hn
    · rw [hp] at hc
      cases hc
      refine ⟨?_, hs⟩
      simp only [toUInt16_toUInt32] at he
      simp only [vqGet, he, Virtqueue.setCursor, haddr, envMapPatova, toNat_low_ofNat hb]

theorem Vring.DescIs.congr {n base size lo : Nat} (hn : n ≤ vr.num) (ha : Agree m m' vr.desc vr.descEnd)
    (h : vr.DescIs m n base size lo) : vr.DescIs m' n base size lo := by
  intro d hd
  obtain ⟨h1, h2⟩ := h d hd
  refine ⟨?_, ?_⟩
  · rw [ld64_congr (ha.mono (by simp only [descAddrAt]; omega) (by simp only [descAddrAt, descEnd]; omega)), h1]
  · rw [ld32_congr (ha.mono (by simp only [descLenAt]; omega) (by simp only [descLenAt, descEnd]; omega)), h2]

end RpmsgLite
