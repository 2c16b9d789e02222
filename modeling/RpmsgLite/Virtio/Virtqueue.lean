/-
The virtqueue operations of `virtqueue.c` over the shared memory. The virtqueue itself is local to
a core: it holds the ring addresses and that core's free-running cursors. The master consumes the
used ring and produces the avail ring; the remote consumes avail and produces used.
-/
import RpmsgLite.Virtio.Vring

namespace RpmsgLite

open MaskArith

def VQUEUE_SUCCESS : Int := 0
def ERROR_NO_MEM : Int := -3004
def ERROR_VRING_NO_BUFF : Int := -3007
def ERROR_VQUEUE_INVLD_PARAM : Int := -3008
def VQ_RING_DESC_CHAIN_END : UInt16 := 32768
def VIRTQUEUE_FLAG_EVENT_IDX : UInt32 := 2
def INT32_MAX : Nat := 2 ^ 31 - 1

/-- The callback installed in a virtqueue. -/
inductive VqCallback | rxCallback | txCallback
deriving DecidableEq

/-- `struct virtqueue`, the fields the operations use. -/
structure Virtqueue where
  callback : VqCallback
  flags : UInt32
  ring : Vring
  queueIndex : UInt16
  nentries : UInt16
  queuedCnt : UInt16
  descHeadIdx : UInt16
  usedConsIdx : UInt16
  availableIdx : UInt16
deriving DecidableEq

/-- `struct vring_alloc_info`. -/
structure VringAllocInfo where
  phyAddr : Nat
  align : Nat
  numDescs : UInt16

/-- What a consumer operation hands out: the buffer pointer, its length and its descriptor. -/
structure Got where
  buffer : Nat
  len : UInt32
  idx : UInt16
deriving DecidableEq

/-- `env_map_vatopa` and `env_map_patova`: the identity on 32-bit addresses. -/
def envMapVatopa (buffer : Nat) : UInt32 := UInt32.ofNat buffer
def envMapPatova (address : UInt32) : Nat := address.toNat

/-! ## Creation -/

/-- `virtqueue_create`; `allocOk` says whether `env_allocate_memory` succeeds. The structure is
cleared, so every cursor and flag starts at zero. -/
def virtqueueCreate (w : Nat) (allocOk : Bool) (id : UInt16) (info : VringAllocInfo) (callback : VqCallback) :
    Except Int Virtqueue :=
  if info.align > INT32_MAX then .error ERROR_VQUEUE_INVLD_PARAM
  else if !allocOk then .error ERROR_NO_MEM
  else .ok
    { callback, flags := 0, ring := vringInit w info.numDescs.toNat info.phyAddr info.align, queueIndex := id,
      nentries := info.numDescs, queuedCnt := 0, descHeadIdx := 0, usedConsIdx := 0, availableIdx := 0 }

section Ops

variable (vq : Virtqueue) (m : ByteMem)

/-! ## Ring updates -/

/-- `vq_ring_update_avail` -/
def vqRingUpdateAvail (descIdx : UInt16) : Virtqueue × ByteMem :=
  let availIdx := m.ld16 vq.ring.availIdxAt &&& (vq.nentries - 1)
  let m := m.st16 (vq.ring.availRingAt availIdx.toNat) descIdx
  let m := m.st16 vq.ring.availIdxAt (m.ld16 vq.ring.availIdxAt + 1)
  ({ vq with queuedCnt := vq.queuedCnt + 1 }, m)

/-- `vq_ring_update_used` -/
def vqRingUpdateUsed (headIdx : UInt16) (len : UInt32) : ByteMem :=
  let usedIdx := m.ld16 vq.ring.usedIdxAt &&& (vq.nentries - 1)
  let m := m.st32 (vq.ring.usedIdAt usedIdx.toNat) headIdx.toUInt32
  let m := m.st32 (vq.ring.usedLenAt usedIdx.toNat) len
  m.st16 vq.ring.usedIdxAt (m.ld16 vq.ring.usedIdxAt + 1)

/-- The descriptor stores shared by `virtqueue_fill_avail_buffers` and `vq_ring_add_buffer`. -/
def fillDesc (headIdx : UInt16) (buffer : Nat) (len : UInt32) : ByteMem :=
  let m := m.st64 (vq.ring.descAddrAt headIdx.toNat) (envMapVatopa buffer).toUInt64
  let m := m.st32 (vq.ring.descLenAt headIdx.toNat) len
  m.st16 (vq.ring.descFlagsAt headIdx.toNat) VRING_DESC_F_WRITE

/-- `vq_ring_add_buffer` -/
def vqRingAddBuffer (headIdx : UInt16) (buffer : Nat) (len : UInt32) : UInt16 × ByteMem :=
  if buffer = 0 then (headIdx, m) else (headIdx + 1, fillDesc vq m headIdx buffer len)

/-- `vq_ring_init`: the loop bound `size - 1` is a 32-bit difference; `writes` lists the descriptors
whose `next` field is set, in order. -/
def vqRingInitWrites (size : Nat) : List Nat := List.range (wrap 32 (size + (2 ^ 32 - 1)))

def vqRingInit : ByteMem :=
  let last := wrap 32 (vq.nentries.toNat + (2 ^ 32 - 1))
  let m := (vqRingInitWrites vq.nentries.toNat).foldl
    (fun m i => m.st16 (vq.ring.descNextAt i) (UInt16.ofNat (i + 1))) m
  m.st16 (vq.ring.descNextAt last) VQ_RING_DESC_CHAIN_END

/-! ## Producer operations -/

/-- `virtqueue_add_buffer` -/
def virtqueueAddBuffer (headIdx : UInt16) : Virtqueue × ByteMem := vqRingUpdateAvail vq m headIdx

/-- `virtqueue_add_consumed_buffer` -/
def virtqueueAddConsumedBuffer (headIdx : UInt16) (len : UInt32) : Int × ByteMem :=
  if headIdx > vq.nentries then (ERROR_VRING_NO_BUFF, m)
  else (VQUEUE_SUCCESS, vqRingUpdateUsed vq m headIdx len)

/-- `virtqueue_fill_avail_buffers` -/
def virtqueueFillAvailBuffers (buffer : Nat) (len : UInt32) : Virtqueue × ByteMem :=
  let headIdx := vq.descHeadIdx
  let m := fillDesc vq m headIdx buffer len
  vqRingUpdateAvail { vq with descHeadIdx := headIdx + 1 } m headIdx

/-- `virtqueue_fill_used_buffers` -/
def virtqueueFillUsedBuffers (buffer : Nat) (len : UInt32) : Virtqueue × ByteMem :=
  let headIdx := vq.descHeadIdx
  let (idx, m) := vqRingAddBuffer vq m headIdx buffer len
  ({ vq with descHeadIdx := idx }, vqRingUpdateUsed vq m headIdx len)

/-! ## Consumer operations -/

/-- `virtqueue_get_buffer`: takes the oldest used entry. -/
def virtqueueGetBuffer : Virtqueue × Option Got :=
  if vq.usedConsIdx = m.ld16 vq.ring.usedIdxAt then (vq, none)
  else
    let usedIdx := vq.usedConsIdx &&& (vq.nentries - 1)
    let descIdx := (m.ld32 (vq.ring.usedIdAt usedIdx.toNat)).toUInt16
    let len := m.ld32 (vq.ring.usedLenAt usedIdx.toNat)
    ({ vq with usedConsIdx := vq.usedConsIdx + 1 },
      some { buffer := envMapPatova (m.ld64 (vq.ring.descAddrAt descIdx.toNat)).toUInt32, len, idx := descIdx })

/-- `virtqueue_get_buffer_length` -/
def virtqueueGetBufferLength (idx : UInt16) : UInt32 := m.ld32 (vq.ring.descLenAt idx.toNat)

/-- `virtqueue_get_available_buffer`: takes the oldest avail entry. -/
def virtqueueGetAvailableBuffer : Virtqueue × Option Got :=
  if vq.availableIdx = m.ld16 vq.ring.availIdxAt then (vq, none)
  else
    let headIdx := vq.availableIdx &&& (vq.nentries - 1)
    let availIdx := m.ld16 (vq.ring.availRingAt headIdx.toNat)
    ({ vq with availableIdx := vq.availableIdx + 1 },
      some
        { buffer := envMapPatova (m.ld64 (vq.ring.descAddrAt availIdx.toNat)).toUInt32
          len := m.ld32 (vq.ring.descLenAt availIdx.toNat)
          idx := availIdx })

/-! ## Notification -/

/-- `virtqueue_disable_cb` -/
def virtqueueDisableCb : ByteMem :=
  if vq.flags &&& VIRTQUEUE_FLAG_EVENT_IDX ≠ 0 then
    m.st16 (vq.ring.availRingAt vq.ring.num) (vq.usedConsIdx - vq.nentries - 1)
  else m.st16 vq.ring.availFlagsAt (m.ld16 vq.ring.availFlagsAt ||| VRING_AVAIL_F_NO_INTERRUPT)

/-- `vring_need_event`: the differences are promoted to `int`. -/
def vringNeedEvent (eventIdx newIdx old : UInt16) : Bool :=
  (newIdx.toNat : Int) - eventIdx.toNat - 1 < (newIdx.toNat : Int) - old.toNat

/-- `vq_ring_must_notify_host` -/
def vqRingMustNotifyHost : Bool :=
  if vq.flags &&& VIRTQUEUE_FLAG_EVENT_IDX ≠ 0 then
    let newIdx := m.ld16 vq.ring.availIdxAt
    vringNeedEvent (m.ld32 (vq.ring.usedIdAt vq.ring.num)).toUInt16 newIdx (newIdx - vq.queuedCnt)
  else m.ld16 vq.ring.usedFlagsAt &&& VRING_USED_F_NO_NOTIFY = 0

/-- `virtqueue_kick`: clears the queued count and says whether the peer is notified. -/
def virtqueueKick : Virtqueue × Bool := ({ vq with queuedCnt := 0 }, vqRingMustNotifyHost vq m)

end Ops

/-! ## Well-formed virtqueues -/

/-- The virtqueue's entry count is its ring's, and the ring is well placed. -/
structure Virtqueue.Wf (vq : Virtqueue) : Prop where
  laid : vq.ring.Laid
  num_eq : vq.nentries.toNat = vq.ring.num

section Specs

open ByteMem

variable {vq : Virtqueue} {m : ByteMem}

theorem Virtqueue.Wf.pos (h : vq.Wf) : 0 < vq.ring.num := h.laid.size.pos

theorem Virtqueue.Wf.mask (h : vq.Wf) (i : UInt16) : (i &&& (vq.nentries - 1)).toNat = i.toNat % vq.ring.num := by
  have hs : FreeRing.IsSize vq.nentries.toNat := h.num_eq ▸ h.laid.size
  rw [FreeRing.toNat_and_mask hs, h.num_eq]

/-! ### Publishing -/

/-- What publishing on the avail ring does to the shared memory. -/
structure AvailPut (vr : Vring) (m m' : ByteMem) (descIdx : UInt16) : Prop where
  frame : Frame m m' vr.avail vr.availEnd
  idx : m'.ld16 vr.availIdxAt = m.ld16 vr.availIdxAt + 1
  slot : vr.availSlot m' ((m.ld16 vr.availIdxAt).toNat % vr.num) = descIdx
  other : ∀ k < vr.num, k ≠ (m.ld16 vr.availIdxAt).toNat % vr.num → vr.availSlot m' k = vr.availSlot m k

theorem vqRingUpdateAvail_spec (h : vq.Wf) (d : UInt16) :
    AvailPut vq.ring m (vqRingUpdateAvail vq m d).2 d := by
  simp only [vqRingUpdateAvail, h.mask]
  have hlt := Nat.mod_lt (m.ld16 vq.ring.availIdxAt).toNat h.pos
  generalize hk : (m.ld16 vq.ring.availIdxAt).toNat % vq.ring.num = s at hlt
  have f1 := frame_st16 m (vq.ring.availRingAt s) d
  have hidx : (m.st16 (vq.ring.availRingAt s) d).ld16 vq.ring.availIdxAt = m.ld16 vq.ring.availIdxAt :=
    ld16_congr (f1.agree (by simp only [Vring.availRingAt, Vring.availIdxAt]; omega))
  rw [hidx]
  have f2 := frame_st16 (m.st16 (vq.ring.availRingAt s) d) vq.ring.availIdxAt (m.ld16 vq.ring.availIdxAt + 1)
  refine ⟨?_, ld16_st16 _ _ _, ?_, ?_⟩
  · exact (f1.mono (by simp only [Vring.availRingAt]; omega)
      (by simp only [Vring.availRingAt, Vring.availEnd]; omega)).trans
      (f2.mono (by simp only [Vring.availIdxAt]; omega) (by simp only [Vring.availIdxAt, Vring.availEnd]; omega))
  · rw [hk]
    unfold Vring.availSlot
    rw [ld16_congr (f2.agree (by simp only [Vring.availRingAt, Vring.availIdxAt]; omega)), ld16_st16]
  · intro k hkn hne
    rw [hk] at hne
    unfold Vring.availSlot
    rw [ld16_congr (f2.agree (by simp only [Vring.availRingAt, Vring.availIdxAt]; omega)),
      ld16_congr (f1.agree (by simp only [Vring.availRingAt]; omega))]

/-- Publishing appends to the pending entries while a slot is free. -/
theorem AvailPut.pending {vr : Vring} {m m' : ByteMem} {d : UInt16} (h : AvailPut vr m m' d) (hn : FreeRing.IsSize vr.num)
    {cons : UInt16} (hlt : (vr.availPending m cons).length < vr.num) :
    vr.availPending m' cons = vr.availPending m cons ++ [d] := by
  unfold Vring.availPending at hlt ⊢
  rw [FreeRing.length_pending] at hlt
  rw [h.idx, FreeRing.pending_push hn hlt h.other, h.slot]

/-- What publishing on the used ring does to the shared memory. -/
structure UsedPut (vr : Vring) (m m' : ByteMem) (headIdx : UInt16) (len : UInt32) : Prop where
  frame : Frame m m' vr.used vr.usedEnd
  idx : m'.ld16 vr.usedIdxAt = m.ld16 vr.usedIdxAt + 1
  slot : vr.usedSlot m' ((m.ld16 vr.usedIdxAt).toNat % vr.num) = (headIdx.toUInt32, len)
  other : ∀ k < vr.num, k ≠ (m.ld16 vr.usedIdxAt).toNat % vr.num → vr.usedSlot m' k = vr.usedSlot m k

theorem virtqueueAddConsumedBuffer_taken {headIdx : UInt16} {len : UInt32} (h : headIdx ≤ vq.nentries) :
    virtqueueAddConsumedBuffer vq m headIdx len = (VQUEUE_SUCCESS, vqRingUpdateUsed vq m headIdx len) :=
  if_neg (UInt16.not_lt.2 h)

theorem vqRingUpdateUsed_spec (h : vq.Wf) (d : UInt16) (len : UInt32) :
    UsedPut vq.ring m (vqRingUpdateUsed vq m d len) d len := by
  simp only [vqRingUpdateUsed, h.mask]
  have hlt := Nat.mod_lt (m.ld16 vq.ring.usedIdxAt).toNat h.pos
  generalize hk : (m.ld16 vq.ring.usedIdxAt).toNat % vq.ring.num = s at hlt
  have f1 := frame_st32 m (vq.ring.usedIdAt s) d.toUInt32
  have f2 := frame_st32 (m.st32 (vq.ring.usedIdAt s) d.toUInt32) (vq.ring.usedLenAt s) len
  have hidx : ((m.st32 (vq.ring.usedIdAt s) d.toUInt32).st32 (vq.ring.usedLenAt s) len).ld16 vq.ring.usedIdxAt =
      m.ld16 vq.ring.usedIdxAt := by
    rw [ld16_congr (f2.agree (by simp only [Vring.usedLenAt, Vring.usedIdxAt]; omega)),
      ld16_congr (f1.agree (by simp only [Vring.usedIdAt, Vring.usedIdxAt]; omega))]
  rw [hidx]
  have f3 := frame_st16 ((m.st32 (vq.ring.usedIdAt s) d.toUInt32).st32 (vq.ring.usedLenAt s) len)
    vq.ring.usedIdxAt (m.ld16 vq.ring.usedIdxAt + 1)
  refine ⟨?_, ld16_st16 _ _ _, ?_, ?_⟩
  · exact ((f1.mono (by simp only [Vring.usedIdAt]; omega)
        (by simp only [Vring.usedIdAt, Vring.usedEnd]; omega)).trans
      (f2.mono (by simp only [Vring.usedLenAt]; omega)
        (by simp only [Vring.usedLenAt, Vring.usedEnd]; omega))).trans
      (f3.mono (by simp only [Vring.usedIdxAt]; omega) (by simp only [Vring.usedIdxAt, Vring.usedEnd]; omega))
  · rw [hk]
    unfold Vring.usedSlot
    rw [ld32_congr (f3.agree (by simp only [Vring.usedIdAt, Vring.usedIdxAt]; omega)),
      ld32_congr (f2.agree (by simp only [Vring.usedIdAt, Vring.usedLenAt]; omega)), ld32_st32,
      ld32_congr (f3.agree (by simp only [Vring.usedLenAt, Vring.usedIdxAt]; omega)), ld32_st32]
  · intro k hkn hne
    rw [hk] at hne
    unfold Vring.usedSlot
    rw [ld32_congr (f3.agree (by simp only [Vring.usedIdAt, Vring.usedIdxAt]; omega)),
      ld32_congr (f2.agree (by simp only [Vring.usedIdAt, Vring.usedLenAt]; omega)),
      ld32_congr (f1.agree (by simp only [Vring.usedIdAt]; omega)),
      ld32_congr (f3.agree (by simp only [Vring.usedLenAt, Vring.usedIdxAt]; omega)),
      ld32_congr (f2.agree (by simp only [Vring.usedLenAt]; omega)),
      ld32_congr (f1.agree (by simp only [Vring.usedLenAt, Vring.usedIdAt]; omega))]

theorem UsedPut.pending {vr : Vring} {m m' : ByteMem} {d : UInt16} {len : UInt32} (h : UsedPut vr m m' d len)
    (hn : FreeRing.IsSize vr.num) {cons : UInt16} (hlt : (vr.usedPending m cons).length < vr.num) :
    vr.usedPending m' cons = vr.usedPending m cons ++ [(d.toUInt32, len)] := by
  unfold Vring.usedPending at hlt ⊢
  rw [FreeRing.length_pending] at hlt
  rw [h.idx, FreeRing.pending_push hn hlt h.other, h.slot]

/-! ### Taking -/

/-- `virtqueue_get_buffer` takes the head of the pending used entries. -/
theorem virtqueueGetBuffer_spec (h : vq.Wf) :
    (vq.ring.usedPending m vq.usedConsIdx = [] ∧ virtqueueGetBuffer vq m = (vq, none)) ∨
    ∃ e es, vq.ring.usedPending m vq.usedConsIdx = e :: es ∧
      vq.ring.usedPending m (vq.usedConsIdx + 1) = es ∧
      virtqueueGetBuffer vq m = ({ vq with usedConsIdx := vq.usedConsIdx + 1 },
        some { buffer := envMapPatova (m.ld64 (vq.ring.descAddrAt e.1.toUInt16.toNat)).toUInt32, len := e.2,
               idx := e.1.toUInt16 }) := by
  by_cases hc : vq.usedConsIdx = m.ld16 vq.ring.usedIdxAt
  · refine Or.inl ⟨FreeRing.pending_eq_nil_iff.2 hc.symm, ?_⟩
    unfold virtqueueGetBuffer; rw [if_pos hc]
  · refine Or.inr ⟨_, _, FreeRing.pending_pop h.laid.size (Ne.symm hc), rfl, ?_⟩
    unfold virtqueueGetBuffer
    rw [if_neg hc]
    simp only [h.mask, Vring.usedSlot]

/-- `virtqueue_get_available_buffer` takes the head of the pending avail entries. -/
theorem virtqueueGetAvailableBuffer_spec (h : vq.Wf) :
    (vq.ring.availPending m vq.availableIdx = [] ∧ virtqueueGetAvailableBuffer vq m = (vq, none)) ∨
    ∃ d ds, vq.ring.availPending m vq.availableIdx = d :: ds ∧
      vq.ring.availPending m (vq.availableIdx + 1) = ds ∧
      virtqueueGetAvailableBuffer vq m = ({ vq with availableIdx := vq.availableIdx + 1 },
        some { buffer := envMapPatova (m.ld64 (vq.ring.descAddrAt d.toNat)).toUInt32,
               len := m.ld32 (vq.ring.descLenAt d.toNat), idx := d }) := by
  by_cases hc : vq.availableIdx = m.ld16 vq.ring.availIdxAt
  · refine Or.inl ⟨FreeRing.pending_eq_nil_iff.2 hc.symm, ?_⟩
    unfold virtqueueGetAvailableBuffer; rw [if_pos hc]
  · refine Or.inr ⟨_, _, FreeRing.pending_pop h.laid.size (Ne.symm hc), rfl, ?_⟩
    unfold virtqueueGetAvailableBuffer
    rw [if_neg hc]
    simp only [h.mask, Vring.availSlot]

end Specs

end RpmsgLite
