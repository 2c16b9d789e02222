/-
The same core under other addresses. A core that finds every shared byte `d` below where another one would
takes the same steps: what it stores, `d` above, is what the other stores, and all addresses in its state
lie `d` lower. Only the buffer addresses in the descriptors are not relative to the core, so the operations
that take a descriptor are left out.
-/
import RpmsgLite.Lib.SideBySide
import RpmsgLite.Link.Views

namespace RpmsgLite

open ByteMem

/-! ## A core's state, `d` above -/

def Vring.lift (d : Nat) (vr : Vring) : Vring := { vr with desc := vr.desc + d, avail := vr.avail + d, used := vr.used + d }

def Virtqueue.lift (d : Nat) (vq : Virtqueue) : Virtqueue := { vq with ring := vq.ring.lift d }

def RpmsgLiteInstance.lift (d : Nat) (dev : RpmsgLiteInstance) : RpmsgLiteInstance :=
  { dev with rvq := dev.rvq.lift d, tvq := dev.tvq.lift d, shMemBase := dev.shMemBase + d }

def Got.lift (d : Nat) (g : Got) : Got := { g with buffer := g.buffer + d }

def Sending.lift (d : Nat) (e : Sending) : Sending := { e with got := e.got.lift d }

def TxHalf.lift (d : Nat) (t : TxHalf) : TxHalf :=
  { t with sending := t.sending.map (Sending.lift d), owned := t.owned.map (Got.lift d) }

def RxHand.lift (d : Nat) : RxHand → RxHand
  | .idle => .idle
  | .taken g => .taken (g.lift d)
  | .seen g => .seen (g.lift d)

def RxHalf.lift (d : Nat) (x : RxHalf) : RxHalf := { x with hand := x.hand.lift d, held := x.held.map (Got.lift d) }

def Side.lift (d : Nat) (s : Side) : Side :=
  { s with dev := s.dev.lift d, tx := s.tx.lift d, rx := s.rx.lift d }

/-! ## The addresses -/

section Addresses

variable (d : Nat) (vr : Vring) (i b : Nat) (g : Got)

@[simp] theorem Vring.lift_descAddrAt : (vr.lift d).descAddrAt i = vr.descAddrAt i + d := Nat.add_right_comm _ _ _

@[simp] theorem Vring.lift_descLenAt : (vr.lift d).descLenAt i = vr.descLenAt i + d := by
  simp only [descLenAt, lift]
  omega

@[simp] theorem Vring.lift_descFlagsAt : (vr.lift d).descFlagsAt i = vr.descFlagsAt i + d := by
  simp only [descFlagsAt, lift]
  omega

@[simp] theorem Vring.lift_descNextAt : (vr.lift d).descNextAt i = vr.descNextAt i + d := by
  simp only [descNextAt, lift]
  omega

@[simp] theorem Vring.lift_availFlagsAt : (vr.lift d).availFlagsAt = vr.availFlagsAt + d := rfl

@[simp] theorem Vring.lift_availIdxAt : (vr.lift d).availIdxAt = vr.availIdxAt + d := Nat.add_right_comm _ _ _

@[simp] theorem Vring.lift_availRingAt : (vr.lift d).availRingAt i = vr.availRingAt i + d := by
  simp only [availRingAt, lift]
  omega

@[simp] theorem Vring.lift_usedIdxAt : (vr.lift d).usedIdxAt = vr.usedIdxAt + d := Nat.add_right_comm _ _ _

@[simp] theorem Vring.lift_usedIdAt : (vr.lift d).usedIdAt i = vr.usedIdAt i + d := by
  simp only [usedIdAt, lift]
  omega

@[simp] theorem Vring.lift_usedLenAt : (vr.lift d).usedLenAt i = vr.usedLenAt i + d := by
  simp only [usedLenAt, lift]
  omega

@[simp] theorem hdrSrcAt_add : hdrSrcAt (b + d) = hdrSrcAt b + d := rfl
@[simp] theorem hdrDstAt_add : hdrDstAt (b + d) = hdrDstAt b + d := Nat.add_right_comm _ _ _
@[simp] theorem hdrIdxAt_add : hdrIdxAt (b + d) = hdrIdxAt b + d := Nat.add_right_comm _ _ _
@[simp] theorem hdrLenAt_add : hdrLenAt (b + d) = hdrLenAt b + d := Nat.add_right_comm _ _ _
@[simp] theorem hdrFlagsAt_add : hdrFlagsAt (b + d) = hdrFlagsAt b + d := Nat.add_right_comm _ _ _
@[simp] theorem msgDataAt_add : msgDataAt (b + d) = msgDataAt b + d := Nat.add_right_comm _ _ _

@[simp] theorem msgFromBuf_msgDataAt : msgFromBuf (msgDataAt b) = b := Nat.add_sub_cancel _ _

@[simp] theorem msgFromBuf_msgDataAt_add : msgFromBuf (msgDataAt b + d) = b + d := by
  rw [← msgDataAt_add, msgFromBuf_msgDataAt]

@[simp] theorem Got.lift_buffer : (g.lift d).buffer = g.buffer + d := rfl
@[simp] theorem Got.lift_len : (g.lift d).len = g.len := rfl
@[simp] theorem Got.lift_idx : (g.lift d).idx = g.idx := rfl

end Addresses

/-! ## The virtqueues -/

section Virtqueues

variable (d : Nat) (m v : ByteMem) (vq : Virtqueue) (idx : UInt16) (len : UInt32) (b : Nat) (clear : Bool)

@[simp] theorem Virtqueue.lift_nentries : (vq.lift d).nentries = vq.nentries := rfl
@[simp] theorem Virtqueue.lift_ring : (vq.lift d).ring = vq.ring.lift d := rfl
@[simp] theorem Virtqueue.lift_flags : (vq.lift d).flags = vq.flags := rfl
@[simp] theorem Virtqueue.lift_usedConsIdx : (vq.lift d).usedConsIdx = vq.usedConsIdx := rfl
@[simp] theorem Virtqueue.lift_availableIdx : (vq.lift d).availableIdx = vq.availableIdx := rfl

theorem vqRingUpdateAvail_lift :
    vqRingUpdateAvail (vq.lift d) (m.raise d v) idx =
      ((vqRingUpdateAvail vq v idx).1.lift d, m.raise d (vqRingUpdateAvail vq v idx).2) := by
  simp only [vqRingUpdateAvail, Virtqueue.lift_ring, Virtqueue.lift_nentries, Vring.lift_availIdxAt, Vring.lift_availRingAt,
    ld16_raise, st16_raise]
  rfl

theorem vqRingUpdateUsed_lift :
    vqRingUpdateUsed (vq.lift d) (m.raise d v) idx len = m.raise d (vqRingUpdateUsed vq v idx len) := by
  simp only [vqRingUpdateUsed, Virtqueue.lift_ring, Virtqueue.lift_nentries, Vring.lift_usedIdxAt, Vring.lift_usedIdAt,
    Vring.lift_usedLenAt, ld16_raise, st16_raise, st32_raise]

theorem vqRingInit_lift : vqRingInit (vq.lift d) (m.raise d v) = m.raise d (vqRingInit vq v) := by
  simp only [vqRingInit, Virtqueue.lift_ring, Virtqueue.lift_nentries, Vring.lift_descNextAt]
  generalize vqRingInitWrites vq.nentries.toNat = is
  rw [← st16_raise]
  congr 1
  induction is generalizing v with
  | nil => rfl
  | cons i is ih => rw [List.foldl_cons, List.foldl_cons, st16_raise, ih]

theorem virtqueueDisableCb_lift : virtqueueDisableCb (vq.lift d) (m.raise d v) = m.raise d (virtqueueDisableCb vq v) := by
  simp only [virtqueueDisableCb, Virtqueue.lift_ring, Virtqueue.lift_nentries, Virtqueue.lift_flags, Virtqueue.lift_usedConsIdx,
    Vring.lift_availFlagsAt, ld16_raise, st16_raise,
    show (vq.ring.lift d).availRingAt (vq.ring.lift d).num = vq.ring.availRingAt vq.ring.num + d from Vring.lift_availRingAt d _ _]
  split <;> rfl

theorem virtqueueAddConsumedBuffer_lift :
    virtqueueAddConsumedBuffer (vq.lift d) (m.raise d v) idx len =
      ((virtqueueAddConsumedBuffer vq v idx len).1, m.raise d (virtqueueAddConsumedBuffer vq v idx len).2) := by
  unfold virtqueueAddConsumedBuffer
  rw [Virtqueue.lift_nentries, vqRingUpdateUsed_lift]
  split <;> rfl

theorem vqTx_lift (r : Role) :
    (r.vqOps clear).vqTx (vq.lift d) (m.raise d v) (b + d) len idx =
      ((r.vqOps clear).vqTx vq v b len idx).map fun y => (y.1.lift d, m.raise d y.2) := by
  cases r with
  | master => exact congrArg some (vqRingUpdateAvail_lift d m v vq idx)
  | remote =>
    show vqTxRemote (vq.lift d) (m.raise d v) (b + d) len idx = (vqTxRemote vq v b len idx).map _
    unfold vqTxRemote
    simp only [virtqueueAddConsumedBuffer_lift]
    split <;> rfl

theorem vqRxFree_lift (r : Role) :
    (r.vqOps clear).vqRxFree (vq.lift d) (m.raise d v) (b + d) len idx =
      ((r.vqOps clear).vqRxFree vq v b len idx).map fun y => (y.1.lift d, m.raise d y.2) := by
  have hfill : (if clear = true then (m.raise d v).fill (b + d) len.toNat 0 else m.raise d v) =
      m.raise d (if clear = true then v.fill b len.toNat 0 else v) := by
    rw [fill_raise]
    split <;> rfl
  cases r with
  | master =>
    show vqRxFreeMaster _ _ _ _ _ _ = (vqRxFreeMaster _ _ _ _ _ _).map _
    unfold vqRxFreeMaster
    simp only [hfill]
    exact congrArg some (vqRingUpdateAvail_lift d m _ vq idx)
  | remote =>
    show vqRxFreeRemote _ _ _ _ _ _ = (vqRxFreeRemote _ _ _ _ _ _).map _
    unfold vqRxFreeRemote
    rw [hfill]
    generalize (if clear = true then v.fill b len.toNat 0 else v) = v
    simp only [virtqueueAddConsumedBuffer_lift]
    split <;> rfl

theorem virtqueueGetBufferLength_lift :
    virtqueueGetBufferLength (vq.lift d) (m.raise d v) idx = virtqueueGetBufferLength vq v idx := by
  simp only [virtqueueGetBufferLength, Virtqueue.lift_ring, Vring.lift_descLenAt, ld32_raise]

theorem Virtqueue.lift_setCursor (k : RingKind) (i : UInt16) : (vq.lift d).setCursor k i = (vq.setCursor k i).lift d := by
  cases k <;> rfl

theorem Virtqueue.lift_inj {vq' : Virtqueue} (h : vq.lift d = vq'.lift d) : vq = vq' := by
  cases vq with
  | mk callback flags ring queueIndex nentries queuedCnt descHeadIdx usedConsIdx availableIdx =>
    cases vq' with
    | mk callback' flags' ring' queueIndex' nentries' queuedCnt' descHeadIdx' usedConsIdx' availableIdx' =>
      cases ring
      cases ring'
      simpa [Virtqueue.lift, Vring.lift] using h

/-- A descriptor is taken in the same way, and its address is read as it is. -/
theorem vqGet_lift (k : RingKind) :
    vqGet k (vq.lift d) (m.raise d v) = ((vqGet k vq v).1.lift d, (vqGet k vq v).2) := by
  cases k with
  | avail =>
    show virtqueueGetAvailableBuffer _ _ = ((virtqueueGetAvailableBuffer _ _).1.lift d, (virtqueueGetAvailableBuffer _ _).2)
    unfold virtqueueGetAvailableBuffer
    simp only [Virtqueue.lift_ring, Virtqueue.lift_nentries, Virtqueue.lift_availableIdx, Vring.lift_availIdxAt,
      Vring.lift_availRingAt, Vring.lift_descAddrAt, Vring.lift_descLenAt, ld16_raise, ld32_raise, ld64_raise]
    split <;> rfl
  | used =>
    show virtqueueGetBuffer _ _ = ((virtqueueGetBuffer _ _).1.lift d, (virtqueueGetBuffer _ _).2)
    unfold virtqueueGetBuffer
    simp only [Virtqueue.lift_ring, Virtqueue.lift_nentries, Virtqueue.lift_usedConsIdx, Vring.lift_usedIdxAt,
      Vring.lift_usedIdAt, Vring.lift_usedLenAt, Vring.lift_descAddrAt, ld16_raise, ld32_raise, ld64_raise]
    split <;> rfl

end Virtqueues

/-! ## The messaging functions -/

section Functions

variable {d : Nat} {m v : ByteMem} {dev : RpmsgLiteInstance} {g : Got} {clear : Bool} {payloadSize b off : Nat} {bytes : List UInt8}

@[simp] theorem RpmsgLiteInstance.lift_role : (dev.lift d).role = dev.role := rfl
@[simp] theorem RpmsgLiteInstance.lift_tvq : (dev.lift d).tvq = dev.tvq.lift d := rfl
@[simp] theorem RpmsgLiteInstance.lift_rvq : (dev.lift d).rvq = dev.rvq.lift d := rfl
@[simp] theorem RpmsgLiteInstance.lift_linkState : (dev.lift d).linkState = dev.linkState := rfl

theorem writeHdr_lift (d : Nat) (m v : ByteMem) (b : Nat) (src dst : UInt32) (size : Nat) :
    writeHdr (m.raise d v) (b + d) src dst size = m.raise d (writeHdr v b src dst size) := by
  simp only [writeHdr, hdrSrcAt_add, hdrDstAt_add, hdrLenAt_add, hdrFlagsAt_add, st16_raise, st32_raise]

theorem msgAt_lift (d : Nat) (m v : ByteMem) (b : Nat) : msgAt (m.raise d v) (b + d) = msgAt v b := by
  simp only [msgAt, hdrSrcAt_add, hdrDstAt_add, hdrLenAt_add, msgDataAt_add, ld16_raise, ld32_raise, block_raise]

theorem rpmsgLiteFormatMessage_lift (src dst : UInt32) (data : List UInt8) :
    rpmsgLiteFormatMessage (m.raise d v) (g.lift d) src dst data = m.raise d (rpmsgLiteFormatMessage v g src dst data) := by
  simp only [rpmsgLiteFormatMessage, Got.lift_buffer, writeHdr_lift, msgDataAt_add, copy_raise]

theorem writePayload_lift : writePayload (m.raise d v) (g.lift d) off bytes = (writePayload v g off bytes).map (m.raise d) := by
  simp only [writePayload, Got.lift_buffer, Got.lift_len, msgDataAt_add]
  split
  · rw [Nat.add_right_comm, copy_raise, Option.map_some]
  · rfl

/-- An instance and the memory, `d` above. -/
def liftRes (d : Nat) (m : ByteMem) (y : RpmsgLiteInstance × ByteMem) : RpmsgLiteInstance × ByteMem := (y.1.lift d, m.raise d y.2)

theorem rpmsgLiteSendEnqueue_lift :
    rpmsgLiteSendEnqueue clear (dev.lift d) (m.raise d v) (g.lift d) = (rpmsgLiteSendEnqueue clear dev v g).map (liftRes d m) := by
  simp only [rpmsgLiteSendEnqueue, RpmsgLiteInstance.lift_role, RpmsgLiteInstance.lift_tvq, Got.lift_buffer, Got.lift_len,
    Got.lift_idx, vqTx_lift]
  cases (dev.role.vqOps clear).vqTx dev.tvq v g.buffer g.len g.idx <;> rfl

/-- What a zero-copy send returns, `d` above. -/
theorem rpmsgLiteSendNocopy_lift (src dst : UInt32) (size : Nat) :
    rpmsgLiteSendNocopy clear payloadSize (dev.lift d) (m.raise d v) src dst (msgDataAt b + d) size =
      (rpmsgLiteSendNocopy clear payloadSize dev v src dst (msgDataAt b) size).map fun y =>
        (y.1.lift d, m.raise d y.2.1, y.2.2) := by
  unfold rpmsgLiteSendNocopy
  split
  · rfl
  simp only [RpmsgLiteInstance.lift_role, RpmsgLiteInstance.lift_tvq, RpmsgLiteInstance.lift_linkState, msgFromBuf_msgDataAt,
    msgFromBuf_msgDataAt_add, writeHdr_lift, hdrIdxAt_add, ld16_raise, virtqueueGetBufferLength_lift, vqTx_lift]
  split
  · rfl
  cases (dev.role.vqOps clear).vqTx _ _ _ _ _ <;> rfl

theorem rpmsgLiteRxDone_lift (hold : Bool) :
    rpmsgLiteRxDone clear (dev.lift d) (m.raise d v) hold (g.lift d) = (rpmsgLiteRxDone clear dev v hold g).map (liftRes d m) := by
  simp only [rpmsgLiteRxDone, RpmsgLiteInstance.lift_role, RpmsgLiteInstance.lift_rvq, Got.lift_buffer, Got.lift_len,
    Got.lift_idx, hdrIdxAt_add, st16_raise, vqRxFree_lift]
  split
  · rfl
  cases (dev.role.vqOps clear).vqRxFree dev.rvq v g.buffer g.len g.idx <;> rfl

theorem rpmsgLiteReleaseRxBuffer_lift :
    rpmsgLiteReleaseRxBuffer clear (dev.lift d) (m.raise d v) (msgDataAt b + d) =
      (rpmsgLiteReleaseRxBuffer clear dev v (msgDataAt b)).map (liftRes d m) := by
  simp only [rpmsgLiteReleaseRxBuffer, RpmsgLiteInstance.lift_role, RpmsgLiteInstance.lift_rvq, msgFromBuf_msgDataAt,
    msgFromBuf_msgDataAt_add, hdrIdxAt_add, ld16_raise, virtqueueGetBufferLength_lift, vqRxFree_lift]
  cases (dev.role.vqOps clear).vqRxFree _ _ _ _ _ <;> rfl

end Functions

/-! ## The steps -/

theorem RxHand.lift_eq_idle {d : Nat} {h : RxHand} : h.lift d = .idle ↔ h = .idle := by
  cases h <;> simp [RxHand.lift]

/-- A core and the memory, `d` above. -/
def liftSide (d : Nat) (m : ByteMem) (y : Side × ByteMem) : Side × ByteMem := (y.1.lift d, m.raise d y.2)

section Steps

@[simp] theorem Side.lift_dev (d : Nat) (s : Side) : (s.lift d).dev = s.dev.lift d := rfl
@[simp] theorem Side.lift_tx (d : Nat) (s : Side) : (s.lift d).tx = s.tx.lift d := rfl
@[simp] theorem Side.lift_rx (d : Nat) (s : Side) : (s.lift d).rx = s.rx.lift d := rfl
@[simp] theorem TxHalf.lift_sending (d : Nat) (t : TxHalf) : (t.lift d).sending = t.sending.map (Sending.lift d) := rfl
@[simp] theorem TxHalf.lift_owned (d : Nat) (t : TxHalf) : (t.lift d).owned = t.owned.map (Got.lift d) := rfl
@[simp] theorem TxHalf.lift_sent (d : Nat) (t : TxHalf) : (t.lift d).sent = t.sent := rfl
@[simp] theorem RxHalf.lift_hand (d : Nat) (x : RxHalf) : (x.lift d).hand = x.hand.lift d := rfl
@[simp] theorem RxHalf.lift_held (d : Nat) (x : RxHalf) : (x.lift d).held = x.held.map (Got.lift d) := rfl
@[simp] theorem RxHalf.lift_recv (d : Nat) (x : RxHalf) : (x.lift d).recv = x.recv := rfl

variable {d : Nat} {m v : ByteMem} {c : LinkConfig} {s : Side}

theorem Side.txStep_lift {a : TxAct} (ha : a.takes = false) :
    (s.lift d).txStep c (m.raise d v) a = (s.txStep c v a).map (liftSide d m) := by
  cases a with
  | send => cases ha
  | allocTxBuffer => cases ha
  | fill i =>
    simp only [Side.txStep, Side.lift_tx, TxHalf.lift_sending, List.getElem?_map]
    cases s.tx.sending[i]? with
    | none => rfl
    | some e =>
      simp only [Option.map_some, liftSide, Sending.lift, rpmsgLiteFormatMessage_lift]
      simp only [Side.lift, TxHalf.lift, List.map_set, Sending.lift]
  | enqueue i =>
    simp only [Side.txStep, Side.lift_tx, Side.lift_dev, TxHalf.lift_sending, List.getElem?_map]
    cases s.tx.sending[i]? with
    | none => rfl
    | some e =>
      simp only [Option.map_some, Sending.lift, rpmsgLiteSendEnqueue_lift]
      split
      · rfl
      cases rpmsgLiteSendEnqueue c.clear s.dev v e.got with
      | none => rfl
      | some y =>
        simp only [Option.map_some, liftRes, liftSide, Side.lift, TxHalf.lift, List.eraseIdx_map]
  | write i off bytes =>
    simp only [Side.txStep, Side.lift_tx, TxHalf.lift_owned, List.getElem?_map]
    cases s.tx.owned[i]? with
    | none => rfl
    | some g => simp only [Option.map_some, writePayload_lift, Option.map_map, Function.comp_def, liftSide]
  | sendNocopy i src dst size =>
    simp only [Side.txStep, Side.lift_tx, Side.lift_dev, TxHalf.lift_owned, List.getElem?_map]
    split
    · rfl
    cases s.tx.owned[i]? with
    | none => rfl
    | some g =>
      simp only [Option.map_some, Got.lift_buffer, msgDataAt_add, rpmsgLiteSendNocopy_lift, block_raise]
      cases rpmsgLiteSendNocopy c.clear c.payloadSize s.dev v src dst (msgDataAt g.buffer) size with
      | none => rfl
      | some y =>
        simp only [Option.map_some]
        split
        · simp only [Option.map_some, liftSide, Side.lift, TxHalf.lift, List.eraseIdx_map]
        · rfl

theorem Side.rxStep_lift {a : RxAct} (ha : a.takes = false) :
    (s.lift d).rxStep c (m.raise d v) a = (s.rxStep c v a).map (liftSide d m) := by
  cases a with
  | rx => cases ha
  | read =>
    simp only [Side.rxStep, Side.lift_rx, RxHalf.lift_hand]
    cases s.rx.hand with
    | idle => rfl
    | seen g => rfl
    | taken g =>
      simp only [RxHand.lift, Got.lift_buffer, msgAt_lift]
      rfl
  | done hold =>
    simp only [Side.rxStep, Side.lift_rx, Side.lift_dev, RxHalf.lift_hand]
    cases s.rx.hand with
    | idle => rfl
    | taken g => rfl
    | seen g =>
      simp only [RxHand.lift, rpmsgLiteRxDone_lift]
      cases rpmsgLiteRxDone c.clear s.dev v hold g with
      | none => rfl
      | some y =>
        cases hold with
        | false => rfl
        | true => simp only [Option.map_some, liftRes, liftSide, Side.lift, RxHalf.lift, RxHand.lift, if_true, List.map_append]; rfl
  | writeMsg off bytes =>
    simp only [Side.rxStep, Side.lift_rx, RxHalf.lift_hand]
    cases s.rx.hand with
    | idle => rfl
    | taken g => rfl
    | seen g => simp only [RxHand.lift, writePayload_lift, Option.map_map, Function.comp_def, liftSide]
  | writeHeld i off bytes =>
    simp only [Side.rxStep, Side.lift_rx, RxHalf.lift_held, List.getElem?_map]
    cases s.rx.held[i]? with
    | none => rfl
    | some g => simp only [Option.map_some, writePayload_lift, Option.map_map, Function.comp_def, liftSide]
  | releaseRxBuffer i =>
    simp only [Side.rxStep, Side.lift_rx, Side.lift_dev, RxHalf.lift_held, List.getElem?_map]
    cases s.rx.held[i]? with
    | none => rfl
    | some g =>
      simp only [Option.map_some, Got.lift_buffer, msgDataAt_add, rpmsgLiteReleaseRxBuffer_lift]
      cases rpmsgLiteReleaseRxBuffer c.clear s.dev v (msgDataAt g.buffer) with
      | none => rfl
      | some y => simp only [Option.map_some, liftRes, liftSide, Side.lift, RxHalf.lift, List.eraseIdx_map]

theorem Side.step_lift {a : Act} (ha : a.takes = false) :
    (s.lift d).step c (m.raise d v) a = (s.step c v a).map (liftSide d m) := by
  cases a with
  | tx a => exact Side.txStep_lift ha
  | rx a => exact Side.rxStep_lift ha
  | txCallback => rfl

end Steps

end RpmsgLite
