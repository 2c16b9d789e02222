/-
What the receive side does to the rings, said of the memory before and after a step: taking reads the oldest entry of
one ring, giving back adds one entry to the other and stores nothing else, holding keeps the descriptor's index in the
header. None of it asks for rings that are in order.
-/
import RpmsgLite.Link.Ops

namespace RpmsgLite

open ByteMem

/-- What an endpoint's callback returns. -/
def RL_RELEASE : Int := 0
def RL_HOLD : Int := 1

/-! ## Slots -/

/-- The slot that a ring index names. -/
def Virtqueue.slot (vq : Virtqueue) (i : UInt16) : Nat := (i &&& (vq.nentries - 1)).toNat

namespace Vring

variable (vr : Vring)

def idxAt : RingKind → Nat
  | .avail => vr.availIdxAt
  | .used => vr.usedIdxAt

/-- The bytes of slot `i` are those from `slotAt` to `slotEnd`. -/
def slotAt (k : RingKind) (i : Nat) : Nat :=
  match k with
  | .avail => vr.availRingAt i
  | .used => vr.usedIdAt i

def slotEnd (k : RingKind) (i : Nat) : Nat :=
  match k with
  | .avail => vr.availRingAt i + 2
  | .used => vr.usedIdAt i + 8

/-- The descriptor that a slot names. -/
def slotIdx (m : ByteMem) (k : RingKind) (i : Nat) : UInt16 :=
  match k with
  | .avail => m.ld16 (vr.availRingAt i)
  | .used => (m.ld32 (vr.usedIdAt i)).toUInt16

end Vring

/-! ## Giving back -/

/-- One entry more on a ring, at its index, and no other byte is stored. -/
structure Publishes (k : RingKind) (vq : Virtqueue) (m m' : ByteMem) (d : UInt16) (len : UInt32) : Prop where
  idx : vq.ring.ringIdx m' k = vq.ring.ringIdx m k + 1
  entry : vq.ring.slotIdx m' k (vq.slot (vq.ring.ringIdx m k)) = d
  len : k = .used → m'.ld32 (vq.ring.usedLenAt (vq.slot (vq.ring.ringIdx m k))) = len
  same : ∀ b, b < vq.ring.idxAt k ∨ vq.ring.idxAt k + 2 ≤ b →
    b < vq.ring.slotAt k (vq.slot (vq.ring.ringIdx m k)) ∨ vq.ring.slotEnd k (vq.slot (vq.ring.ringIdx m k)) ≤ b → m' b = m b

/-- `RL_CLEAR_USED_BUFFERS` zeroes a buffer before it is given back. -/
def Got.wipe (clear : Bool) (g : Got) (m : ByteMem) : ByteMem := if clear then m.fill g.buffer g.len.toNat 0 else m

/-- The buffer `g` is given back: one entry more on the ring to the peer, which names its descriptor, and the instance
changes in the count of entries that no kick has told of. -/
structure GivesBack (clear : Bool) (dev : RpmsgLiteInstance) (m : ByteMem) (g : Got) (dev' : RpmsgLiteInstance) (m' : ByteMem) :
    Prop where
  ring : Publishes dev.role.getKind.other dev.rvq (g.wipe clear m) m' g.idx g.len
  dev : ∃ cnt, dev' = { dev with rvq := { dev.rvq with queuedCnt := cnt } }

/-- The assertion of `vq_rx_free` fails: the remote checks the index it gives back. -/
def Refuses (dev : RpmsgLiteInstance) (g : Got) : Prop := dev.role = .remote ∧ dev.rvq.nentries < g.idx

instance (dev : RpmsgLiteInstance) (g : Got) : Decidable (Refuses dev g) :=
  inferInstanceAs (Decidable (dev.role = .remote ∧ dev.rvq.nentries < g.idx))

/-- The buffer `g` is held: its header keeps the index of its descriptor, and no other byte is stored. -/
structure KeepsIdx (m : ByteMem) (g : Got) (m' : ByteMem) : Prop where
  idx : m'.ld16 (hdrIdxAt g.buffer) = g.idx
  same : Frame m m' (hdrIdxAt g.buffer) (hdrIdxAt g.buffer + 2)

/-- The buffer `g` is taken: it is the oldest entry of the ring from the peer, which has not been taken yet. -/
structure Takes (dev : RpmsgLiteInstance) (m : ByteMem) (g : Got) (dev' : RpmsgLiteInstance) : Prop where
  pending : dev.rvq.cursor dev.role.getKind ≠ dev.rvq.ring.ringIdx m dev.role.getKind
  idx : g.idx = dev.rvq.ring.slotIdx m dev.role.getKind (dev.rvq.slot (dev.rvq.cursor dev.role.getKind))
  buffer : g.buffer = envMapPatova (m.ld64 (dev.rvq.ring.descAddrAt g.idx.toNat)).toUInt32
  ne : g.buffer ≠ 0
  dev : dev' = { dev with rvq := dev.rvq.setCursor dev.role.getKind (dev.rvq.cursor dev.role.getKind + 1) }

/-- The buffer that `rpmsg_lite_release_rx_buffer` gives back: its header says which descriptor. -/
def Got.ofBuf (dev : RpmsgLiteInstance) (m : ByteMem) (rxbuf : Nat) : Got :=
  let idx := m.ld16 (hdrIdxAt (msgFromBuf rxbuf))
  ⟨msgFromBuf rxbuf, virtqueueGetBufferLength dev.rvq m idx, idx⟩

/-! ## The functions -/

section

variable {k : RingKind} {vq : Virtqueue} {m m' : ByteMem} {d : UInt16} {len : UInt32} {clear : Bool}
  {dev dev' : RpmsgLiteInstance} {g : Got}

theorem vqRingUpdateAvail_publishes : Publishes .avail vq m (vqRingUpdateAvail vq m d).2 d len := by
  unfold vqRingUpdateAvail
  show Publishes .avail vq m ((m.st16 (vq.ring.availRingAt (vq.slot (m.ld16 vq.ring.availIdxAt))) d).st16 vq.ring.availIdxAt
    ((m.st16 (vq.ring.availRingAt (vq.slot (m.ld16 vq.ring.availIdxAt))) d).ld16 vq.ring.availIdxAt + 1)) d len
  generalize hs : vq.slot (m.ld16 vq.ring.availIdxAt) = s
  have f1 := frame_st16 m (vq.ring.availRingAt s) d
  have hidx : (m.st16 (vq.ring.availRingAt s) d).ld16 vq.ring.availIdxAt = m.ld16 vq.ring.availIdxAt :=
    ld16_congr (f1.agree (by simp only [Vring.availRingAt, Vring.availIdxAt]; omega))
  rw [hidx]
  have f2 := frame_st16 (m.st16 (vq.ring.availRingAt s) d) vq.ring.availIdxAt (m.ld16 vq.ring.availIdxAt + 1)
  refine ⟨ld16_st16 _ _ _, ?_, fun h => RingKind.noConfusion h, fun b h1 h2 => ?_⟩
  · simp only [Vring.ringIdx, hs, Vring.slotIdx]
    rw [ld16_congr (f2.agree (by simp only [Vring.availRingAt, Vring.availIdxAt]; omega)), ld16_st16]
  · simp only [Vring.ringIdx, hs, Vring.slotAt, Vring.slotEnd, Vring.idxAt] at h1 h2
    rw [f2 b h1, f1 b h2]

theorem vqRingUpdateUsed_publishes : Publishes .used vq m (vqRingUpdateUsed vq m d len) d len := by
  unfold vqRingUpdateUsed
  show Publishes .used vq m (((m.st32 (vq.ring.usedIdAt (vq.slot (m.ld16 vq.ring.usedIdxAt))) d.toUInt32).st32
      (vq.ring.usedLenAt (vq.slot (m.ld16 vq.ring.usedIdxAt))) len).st16 vq.ring.usedIdxAt
    (((m.st32 (vq.ring.usedIdAt (vq.slot (m.ld16 vq.ring.usedIdxAt))) d.toUInt32).st32
      (vq.ring.usedLenAt (vq.slot (m.ld16 vq.ring.usedIdxAt))) len).ld16 vq.ring.usedIdxAt + 1)) d len
  generalize hs : vq.slot (m.ld16 vq.ring.usedIdxAt) = s
  have f1 := frame_st32 m (vq.ring.usedIdAt s) d.toUInt32
  have f2 := frame_st32 (m.st32 (vq.ring.usedIdAt s) d.toUInt32) (vq.ring.usedLenAt s) len
  have hidx : ((m.st32 (vq.ring.usedIdAt s) d.toUInt32).st32 (vq.ring.usedLenAt s) len).ld16 vq.ring.usedIdxAt =
      m.ld16 vq.ring.usedIdxAt := by
    rw [ld16_congr (f2.agree (by simp only [Vring.usedLenAt, Vring.usedIdxAt]; omega)),
      ld16_congr (f1.agree (by simp only [Vring.usedIdAt, Vring.usedIdxAt]; omega))]
  rw [hidx]
  have f3 := frame_st16 ((m.st32 (vq.ring.usedIdAt s) d.toUInt32).st32 (vq.ring.usedLenAt s) len) vq.ring.usedIdxAt
    (m.ld16 vq.ring.usedIdxAt + 1)
  refine ⟨ld16_st16 _ _ _, ?_, fun _ => ?_, fun b h1 h2 => ?_⟩
  · simp only [Vring.ringIdx, hs, Vring.slotIdx]
    rw [ld32_congr (f3.agree (by simp only [Vring.usedIdAt, Vring.usedIdxAt]; omega)),
      ld32_congr (f2.agree (by simp only [Vring.usedIdAt, Vring.usedLenAt]; omega)), ld32_st32, toUInt16_toUInt32]
  · simp only [Vring.ringIdx, hs]
    rw [ld32_congr (f3.agree (by simp only [Vring.usedLenAt, Vring.usedIdxAt]; omega)), ld32_st32]
  · simp only [Vring.ringIdx, hs, Vring.slotAt, Vring.slotEnd, Vring.idxAt, Vring.usedIdAt] at h1 h2
    rw [f3 b h1, f2 b (by simp only [Vring.usedLenAt]; omega), f1 b (by simp only [Vring.usedIdAt]; omega)]

/-- A buffer that is not held is given back, or the assertion fails. -/
theorem rpmsgLiteRxDone_free (clear : Bool) (dev : RpmsgLiteInstance) (m : ByteMem) (g : Got) :
    rpmsgLiteRxDone clear dev m false g = none ∧ Refuses dev g ∨
      ∃ dev' m', rpmsgLiteRxDone clear dev m false g = some (dev', m') ∧ ¬ Refuses dev g ∧
        GivesBack clear dev m g dev' m' := by
  unfold rpmsgLiteRxDone Refuses
  simp only [Bool.false_eq_true, if_false]
  cases hrole : dev.role with
  | master =>
    refine Or.inr ⟨_, _, rfl, fun h => Role.noConfusion h.1, ?_, dev.rvq.queuedCnt + 1, by rw [hrole]⟩
    rw [hrole]
    exact vqRingUpdateAvail_publishes
  | remote =>
    by_cases hle : dev.rvq.nentries < g.idx
    · refine Or.inl ⟨?_, rfl, hle⟩
      simp only [Role.vqOps, remoteVqOps, vqRxFreeRemote, virtqueueAddConsumedBuffer, if_pos (show g.idx > _ from hle)]
      rw [if_neg (by decide)]
    · have hfree := vqRxFree_eq .remote clear m g.buffer g.len (UInt16.not_lt.1 hle)
      rw [hfree]
      refine Or.inr ⟨_, _, rfl, fun h => hle h.2, ?_, dev.rvq.queuedCnt, by rw [hrole]⟩
      rw [hrole]
      simp only [Role.getKind, RingKind.other, virtqueueAddConsumedBuffer_taken (UInt16.not_lt.1 hle)]
      exact vqRingUpdateUsed_publishes

theorem rpmsgLiteRxDone_hold (clear : Bool) (dev : RpmsgLiteInstance) (m : ByteMem) (g : Got) :
    ∃ m', rpmsgLiteRxDone clear dev m true g = some (dev, m') ∧ KeepsIdx m g m' :=
  ⟨_, rfl, ld16_st16 _ _ _, frame_st16 _ _ _⟩

/-- `rpmsg_lite_release_rx_buffer` gives back the descriptor that the header names. -/
theorem rpmsgLiteReleaseRxBuffer_eq (clear : Bool) (dev : RpmsgLiteInstance) (m : ByteMem) (rxbuf : Nat) :
    rpmsgLiteReleaseRxBuffer clear dev m rxbuf = rpmsgLiteRxDone clear dev m false (.ofBuf dev m rxbuf) := rfl

/-- What a get operation returns is the entry at the cursor. -/
theorem vqGet_takes {vq' : Virtqueue} (h : vqGet k vq m = (vq', some g)) : vq.cursor k ≠ vq.ring.ringIdx m k ∧
    g.idx = vq.ring.slotIdx m k (vq.slot (vq.cursor k)) ∧
    g.buffer = envMapPatova (m.ld64 (vq.ring.descAddrAt g.idx.toNat)).toUInt32 ∧ vq' = vq.setCursor k (vq.cursor k + 1) := by
  cases k with
  | avail =>
    simp only [vqGet, virtqueueGetAvailableBuffer] at h
    split at h
    · cases h
    · rename_i hcur
      cases h
      exact ⟨hcur, rfl, rfl, rfl⟩
  | used =>
    simp only [vqGet, virtqueueGetBuffer] at h
    split at h
    · cases h
    · rename_i hcur
      cases h
      exact ⟨hcur, rfl, rfl, rfl⟩

/-- What `vq_rx` returns was taken. -/
theorem rpmsgLiteRx_takes (h : rpmsgLiteRx clear dev m = (dev', some g)) : Takes dev m g dev' := by
  unfold rpmsgLiteRx at h
  rw [vqRx_eq] at h
  obtain ⟨hdev, hg⟩ := Prod.mk.inj h
  obtain ⟨hget, hne⟩ := Option.filter_eq_some_iff.1 hg
  obtain ⟨hcur, hidx, hbuf, hvq⟩ := vqGet_takes (Prod.ext rfl hget)
  exact ⟨hcur, hidx, hbuf, of_decide_eq_true hne, hdev ▸ congrArg (fun rvq => { dev with rvq }) hvq⟩

end

end RpmsgLite
