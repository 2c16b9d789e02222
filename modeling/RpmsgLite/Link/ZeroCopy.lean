/-
Copy send and zero-copy send. One path carries the length that the ring returned, the other reads it
from the descriptor again, and the remote writes it back into the used ring: every length in a ring is
the buffer size of the initialisation, so both paths leave the same state, apart from the descriptor
index that the zero-copy path keeps in the header.
-/
import RpmsgLite.Link.Conservation
import RpmsgLite.Link.Kicks
import RpmsgLite.Link.Parked

namespace RpmsgLite

open ByteMem

/-! ## The two ways to send -/

/-- What a send leaves behind. -/
structure Transfer where
  dev : RpmsgLiteInstance
  m : ByteMem
  status : Int
  notified : Bool

section Functions

variable (clear : Bool) (payloadSize : Nat) (dev : RpmsgLiteInstance) (m : ByteMem)

/-- Whether the kick that follows `vq_tx` notifies the peer. -/
def vqTxNotifies (buffer : Nat) (len : UInt32) (idx : UInt16) : Bool :=
  ((dev.role.vqOps clear).vqTx dev.tvq m buffer len idx).any fun x => (virtqueueKick x.1 x.2).2

/-- Whether `rpmsg_lite_send_nocopy` notifies, once it is past its checks. -/
def rpmsgLiteSendNocopyNotifies (src dst : UInt32) (data size : Nat) : Bool :=
  let msg := msgFromBuf data
  let m := writeHdr m msg src dst size
  let idx := m.ld16 (hdrIdxAt msg)
  vqTxNotifies clear dev m msg (virtqueueGetBufferLength dev.tvq m idx) idx

/-- `rpmsg_lite_send` as a whole. Nothing runs in between, so further attempts of a blocking send would
find what the first one found. -/
def rpmsgLiteSend (src dst : UInt32) (data : List UInt8) : Option Transfer :=
  match rpmsgLiteSendAlloc clear payloadSize dev m data.length with
  | (dev, .error status) => some ⟨dev, m, status, false⟩
  | (dev, .ok g) =>
    let m := rpmsgLiteFormatMessage m g src dst data
    (rpmsgLiteSendEnqueue clear dev m g).map fun x =>
      ⟨x.1, x.2, RL_SUCCESS, vqTxNotifies clear dev m g.buffer g.len g.idx⟩

/-- `rpmsg_lite_alloc_tx_buffer`, the copy of the payload by the application, `rpmsg_lite_send_nocopy`.
An application without a buffer gives up as `rpmsg_lite_send` does. -/
def zeroCopySend (src dst : UInt32) (data : List UInt8) : Option Transfer :=
  match rpmsgLiteAllocTxBuffer clear dev m with
  | (dev, m, none) => some ⟨dev, m, RL_ERR_NO_MEM, false⟩
  | (dev, m, some g) =>
    let m := m.copy (msgDataAt g.buffer) data
    (rpmsgLiteSendNocopy clear payloadSize dev m src dst (msgDataAt g.buffer) data.length).map fun x =>
      ⟨x.1, x.2.1, x.2.2, x.2.2 = RL_SUCCESS &&
        rpmsgLiteSendNocopyNotifies clear dev m src dst (msgDataAt g.buffer) data.length⟩

/-- The payload size that `rpmsg_lite_alloc_tx_buffer` reports. -/
def Got.capacity (g : Got) : UInt32 := if 16 ≤ g.len then g.len - 16 else 0

end Functions

/-- The two left the same but for the descriptor index in the header of the buffer at `b`. -/
structure Transfer.SameBut (x y : Transfer) (b : Nat) : Prop where
  dev : y.dev = x.dev
  status : y.status = x.status
  notified : y.notified = x.notified
  m : Frame x.m y.m (hdrIdxAt b) (hdrIdxAt b + 2)

/-! ## The same stores on two memories -/

section Stores

variable {m m' : ByteMem} {lo hi : Nat}

theorem frame_writeHdr (h : Frame m m' lo hi) (msg : Nat) (src dst : UInt32) (size : Nat) :
    Frame (writeHdr m msg src dst size) (writeHdr m' msg src dst size) lo hi :=
  (((h.st32 _ _).st32 _ _).st16 _ _).st16 _ _

/-- The header and the payload can be written in either order. -/
theorem rpmsgLiteFormatMessage_eq (m : ByteMem) (g : Got) (src dst : UInt32) (data : List UInt8) :
    rpmsgLiteFormatMessage m g src dst data =
      writeHdr (m.copy (msgDataAt g.buffer) data) g.buffer src dst data.length := by
  unfold rpmsgLiteFormatMessage writeHdr
  simp only [st16, st32]
  rw [copy_put_comm _ _ (Or.inl (by simp only [hdrFlagsAt, msgDataAt]; omega)),
    copy_put_comm _ _ (Or.inl (by simp only [hdrLenAt, msgDataAt]; omega)),
    copy_put_comm _ _ (Or.inl (by simp only [hdrSrcAt, msgDataAt]; omega)),
    copy_put_comm _ _ (Or.inl (by simp only [hdrDstAt, msgDataAt]; omega))]

/-- A buffer filled by a send and one filled by the application differ in the descriptor index. -/
theorem frame_formatMessage (m : ByteMem) (g : Got) (src dst : UInt32) (data : List UInt8) (idx : UInt16) :
    Frame (rpmsgLiteFormatMessage m g src dst data)
      (writeHdr ((m.st16 (hdrIdxAt g.buffer) idx).copy (msgDataAt g.buffer) data) g.buffer src dst data.length)
      (hdrIdxAt g.buffer) (hdrIdxAt g.buffer + 2) := by
  rw [rpmsgLiteFormatMessage_eq]
  exact frame_writeHdr ((frame_st16 m _ idx).copy _ _) _ _ _ _

/-- The stores of the zero-copy path reach only the buffer, and the header keeps the index. -/
theorem zeroCopyFill_spec (m : ByteMem) (b : Nat) (src dst : UInt32) (data : List UInt8) (idx : UInt16) :
    Frame m (writeHdr ((m.st16 (hdrIdxAt b) idx).copy (msgDataAt b) data) b src dst data.length) b (b + 16 + data.length) ∧
      (writeHdr ((m.st16 (hdrIdxAt b) idx).copy (msgDataAt b) data) b src dst data.length).ld16 (hdrIdxAt b) = idx := by
  have f1 := frame_st16 m (hdrIdxAt b) idx
  have f2 := frame_copy (m.st16 (hdrIdxAt b) idx) (msgDataAt b) data
  obtain ⟨f3, hidx, -⟩ := writeHdr_spec ((m.st16 (hdrIdxAt b) idx).copy (msgDataAt b) data) b src dst data.length
  constructor
  · simp only [hdrIdxAt, msgDataAt] at f1 f2 f3 ⊢
    exact ((f1.mono (by omega) (by omega)).trans (f2.mono (by omega) (by omega))).trans (f3.mono le_rfl (by omega))
  · rw [hidx, ld16_congr (f2.agree (by simp only [hdrIdxAt, msgDataAt]; omega)), ld16_st16]

/-- Publishing does the same on two memories that differ outside the ring. -/
theorem vqPut_frame {vq : Virtqueue} (h : vq.Wf) (k : RingKind) (d : UInt16) (len : UInt32) (hf : Frame m m' lo hi)
    (hring : vq.ring.ringHi k ≤ lo ∨ hi ≤ vq.ring.ringLo k) :
    Frame (vqPut k vq m d len).2 (vqPut k vq m' d len).2 lo hi := by
  have hpos := h.pos
  cases k with
  | avail =>
    simp only [Vring.ringLo, Vring.ringHi, Vring.availEnd] at hring
    have hidx : ∀ {n n' : ByteMem}, Frame n n' lo hi → n'.ld16 vq.ring.availIdxAt = n.ld16 vq.ring.availIdxAt :=
      fun hn => ld16_congr (hn.agree (by simp only [Vring.availIdxAt]; omega))
    show Frame (vqRingUpdateAvail vq m d).2 (vqRingUpdateAvail vq m' d).2 lo hi
    unfold vqRingUpdateAvail
    simp only
    rw [hidx hf]
    have h1 := hf.st16 (vq.ring.availRingAt (m.ld16 vq.ring.availIdxAt &&& (vq.nentries - 1)).toNat) d
    rw [hidx h1]
    exact h1.st16 _ _
  | used =>
    simp only [Vring.ringLo, Vring.ringHi, Vring.usedEnd] at hring
    have hidx : ∀ {n n' : ByteMem}, Frame n n' lo hi → n'.ld16 vq.ring.usedIdxAt = n.ld16 vq.ring.usedIdxAt :=
      fun hn => ld16_congr (hn.agree (by simp only [Vring.usedIdxAt]; omega))
    show Frame (virtqueueAddConsumedBuffer vq m d len).2 (virtqueueAddConsumedBuffer vq m' d len).2 lo hi
    unfold virtqueueAddConsumedBuffer
    split
    · exact hf
    · show Frame (vqRingUpdateUsed vq m d len) (vqRingUpdateUsed vq m' d len) lo hi
      unfold vqRingUpdateUsed
      simp only
      rw [hidx hf]
      have h1 := (hf.st32 (vq.ring.usedIdAt (m.ld16 vq.ring.usedIdxAt &&& (vq.nentries - 1)).toNat) d.toUInt32).st32
        (vq.ring.usedLenAt (m.ld16 vq.ring.usedIdxAt &&& (vq.nentries - 1)).toNat) len
      rw [hidx h1]
      exact h1.st16 _ _

end Stores

/-! ## Equivalence -/

section

variable {B : BufferPool} {k : RingKind} {m m' : ByteMem} {tvq rvq vq : Virtqueue} {P : Custody B.ids} {d : UInt16} {lo hi : Nat}

/-- The kick asks a flag that lies in the used ring. -/
theorem Linked.mustNotify_frame (hd : d ∈ B.ids) (hf : Frame m m' lo hi) (hlo : B.buffer d ≤ lo)
    (hhi : hi ≤ B.buffer d + B.size) (hring : vq.ring = B.vr) (hflags : vq.flags = 0) :
    vqRingMustNotifyHost vq m' = vqRingMustNotifyHost vq m := by
  have htab := Flow.tables_of_store hd (hf.mono hlo hhi)
  have hflag : m'.ld16 B.vr.usedFlagsAt = m.ld16 B.vr.usedFlagsAt :=
    ld16_congr (htab.mono (B.laid.desc_le_ringLo .used) (by simp only [Vring.usedFlagsAt, Vring.usedEnd]; omega))
  unfold vqRingMustNotifyHost
  rw [if_neg (by rw [hflags]; decide), if_neg (by rw [hflags]; decide), hring, hflag]

variable {dev : RpmsgLiteInstance} {t : TxHalf} {x : RxHalf} {payloadSize : Nat} {data : List UInt8}

/-- `vq_tx` and its kick on two memories that differ inside a buffer. -/
theorem Linked.tx_frame (clear : Bool) (dev : RpmsgLiteInstance) (h : Linked B k m dev.tvq rvq P) (hk : dev.role.getKind = k)
    (hflags : dev.tvq.flags = 0) (hd : d ∈ B.ids) (hf : Frame m m' lo hi) (hlo : B.buffer d ≤ lo)
    (hhi : hi ≤ B.buffer d + B.size) (b b' : Nat) (len : UInt32) :
    ∃ vq n n', (dev.role.vqOps clear).vqTx dev.tvq m b len d = some (vq, n) ∧
      (dev.role.vqOps clear).vqTx dev.tvq m' b' len d = some (vq, n') ∧ Frame n n' lo hi ∧
      vqRingMustNotifyHost vq n' = vqRingMustNotifyHost vq n := by
  obtain ⟨-, h1, h2⟩ := BufferPool.buffer_bounds hd
  have hring : dev.tvq.ring.ringHi k.other ≤ lo ∨ hi ≤ dev.tvq.ring.ringLo k.other := by
    have hap := B.apart
    have h3 := B.laid.desc_le_ringLo k.other
    have h4 := B.laid.ringHi_le k.other
    rw [h.tvq_ring]
    unfold Apart at hap
    unfold BufferPool.bufLo BufferPool.bufHi at *
    omega
  have hput := vqPut_frame h.tvq_wf k.other d len hf hring
  obtain ⟨q, hq⟩ := vqPut_vq k.other dev.tvq m d len
  have hsame : (vqPut k.other dev.tvq m' d len).1 = (vqPut k.other dev.tvq m d len).1 := by
    cases k <;> rfl
  refine ⟨(vqPut k.other dev.tvq m d len).1, (vqPut k.other dev.tvq m d len).2, (vqPut k.other dev.tvq m' d len).2,
    h.vqTx hk hd b len, (vqTx_eq _ (h.le_nentries hd)).trans ?_, hput, ?_⟩
  · rw [hk, ← hsame]
  · rw [hq]
    exact Linked.mustNotify_frame hd hput hlo hhi h.tvq_ring hflags

/-- `rpmsg_lite_send_nocopy` past its checks. -/
theorem rpmsgLiteSendNocopy_eq {clear : Bool} {src dst : UInt32} {size b : Nat} (hsize : size ≤ payloadSize)
    (hlink : dev.linkState = true) :
    rpmsgLiteSendNocopy clear payloadSize dev m src dst (msgDataAt b) size =
      ((dev.role.vqOps clear).vqTx dev.tvq (writeHdr m b src dst size) b
        (virtqueueGetBufferLength dev.tvq (writeHdr m b src dst size) ((writeHdr m b src dst size).ld16 (hdrIdxAt b)))
        ((writeHdr m b src dst size).ld16 (hdrIdxAt b))).map
        fun x => ({ dev with tvq := (virtqueueKick x.1 x.2).1 }, x.2, RL_SUCCESS) := by
  have hb : msgFromBuf (msgDataAt b) = b := Nat.add_sub_cancel _ _
  unfold rpmsgLiteSendNocopy
  rw [if_neg (Nat.not_lt.2 hsize), if_neg (by rw [hlink]; decide)]
  simp only [hb]
  cases (dev.role.vqOps clear).vqTx dev.tvq (writeHdr m b src dst size) b _ _ with
  | none => rfl
  | some x => rfl

/-- From any state of the link both ways to send leave the same; the buffer is the oldest free one. -/
theorem Flow.send_same (h : Flow B k m dev.tvq rvq t x P) (clear : Bool) (src dst : UInt32) (hk : dev.role.getKind = k)
    (hflags : dev.tvq.flags = 0) (hlink : dev.linkState = true) (hsize : data.length ≤ payloadSize)
    (hpay : payloadSize + 16 ≤ B.size) :
    ∃ y z, rpmsgLiteSend clear payloadSize dev m src dst data = some y ∧
      zeroCopySend clear payloadSize dev m src dst data = some z ∧
      (P.free = [] ∧ y = ⟨dev, m, RL_ERR_NO_MEM, false⟩ ∧ z = y ∨
        ∃ d ∈ P.free.head?, d ∈ B.ids ∧ y.status = RL_SUCCESS ∧ y.SameBut z (B.buffer d)) := by
  have hup : ¬ (!dev.linkState) = true := by rw [hlink]; decide
  unfold rpmsgLiteSend zeroCopySend rpmsgLiteSendAlloc rpmsgLiteAllocTxBuffer
  rw [if_neg (Nat.not_lt.2 hsize), if_neg hup, if_neg hup]
  rcases h.linked.take with ⟨hnil, hget⟩ | ⟨d, f, hf, hget, hl⟩
  · have halloc : (dev.role.vqOps clear).vqTxAlloc dev.tvq m = (dev.tvq, none) := by
      rw [vqTxAlloc_eq, hk, hget]
      exact nonNull_none
    rw [halloc]
    exact ⟨_, _, rfl, rfl, Or.inl ⟨hnil, rfl, rfl⟩⟩
  · have hd : d ∈ B.ids := P.mem_free (hf ▸ List.mem_cons_self)
    have halloc : (dev.role.vqOps clear).vqTxAlloc dev.tvq m = (dev.tvq.setCursor k (dev.tvq.cursor k + 1), some (B.got d)) := by
      rw [vqTxAlloc_eq, hk, hget]
      exact nonNull_some (Nat.pos_iff_ne_zero.1 (BufferPool.buffer_bounds hd).1)
    rw [halloc]
    have hsz := B.size_ge
    have hlen : (B.got d).len = UInt32.ofNat B.size := rfl
    have hbuf : (B.got d).buffer = B.buffer d := rfl
    have hgot : (B.got d).idx = d := rfl
    -- the buffer as the send fills it, and as the zero-copy path does
    have hframe := frame_formatMessage m (B.got d) src dst data d
    have hfill := (rpmsgLiteFormatMessage_spec m (B.got d) src dst data).1
    rw [hbuf] at hframe hfill
    replace hfill := hfill.mono le_rfl (show B.buffer d + 16 + data.length ≤ B.buffer d + B.size by omega)
    obtain ⟨hzero, hidx⟩ := zeroCopyFill_spec m (B.buffer d) src dst data d
    replace hzero := hzero.mono le_rfl (show B.buffer d + 16 + data.length ≤ B.buffer d + B.size by omega)
    obtain ⟨vq, n, n', hput, hput', hn, hnotify⟩ := Linked.tx_frame clear
      { dev with tvq := dev.tvq.setCursor k (dev.tvq.cursor k + 1) } (hl.congr (Flow.tables_of_store hd hfill)) hk
      (by cases k <;> exact hflags) hd hframe (show B.buffer d ≤ B.buffer d + 10 by omega)
      (show B.buffer d + 10 + 2 ≤ B.buffer d + B.size by omega) (B.buffer d) (B.buffer d) (UInt32.ofNat B.size)
    have hbl := (hl.congr (Flow.tables_of_store hd hzero)).bufferLength hd
    simp only at hput hput'
    refine ⟨⟨{ dev with tvq := (virtqueueKick vq n).1 }, n, RL_SUCCESS, (virtqueueKick vq n).2⟩,
      ⟨{ dev with tvq := (virtqueueKick vq n').1 }, n', RL_SUCCESS, (virtqueueKick vq n').2⟩, ?_, ?_,
      Or.inr ⟨d, by rw [hf]; rfl, hd, rfl, rfl, rfl, hnotify, hn⟩⟩
    · simp only [rpmsgLiteSendEnqueue, vqTxNotifies, hlen, hbuf, hgot, hput]
      rfl
    · have hb : msgFromBuf (msgDataAt (B.buffer d)) = B.buffer d := Nat.add_sub_cancel _ _
      have hlink' : ({ dev with tvq := dev.tvq.setCursor k (dev.tvq.cursor k + 1) } : RpmsgLiteInstance).linkState = true := hlink
      simp only [hbuf, hgot, rpmsgLiteSendNocopyNotifies, hb, hidx, vqTxNotifies, hbl, hput']
      rw [rpmsgLiteSendNocopy_eq hsize hlink', hidx]
      simp only [hbl, hput']
      rfl

end

/-! ## Every run -/

/-- The length in every pending element of a used ring, which the master consumes, and in every descriptor. -/
structure Link.FullLengths (s : Link) (size : Nat) : Prop where
  used : ∀ q, ∀ e ∈ ((s.side .master).dev.queue q).ring.usedPending s.m ((s.side .master).dev.queue q).usedConsIdx,
    e.2.toNat = size
  desc : ∀ r q, ∀ d < ((s.side r).dev.queue q).ring.num, (s.m.ld32 (((s.side r).dev.queue q).ring.descLenAt d)).toNat = size

section

variable {W : Pools} {s : Link} {P : ∀ r, Custody (W.pool r).ids} {r : Role}

/-- A store into a header reaches the tables of neither vring. -/
theorem Pools.agree_tables (W : Pools) {m m' : ByteMem} {d : UInt16} (hd : d ∈ (W.pool r).ids)
    (hf : Frame m m' (hdrIdxAt ((W.pool r).buffer d)) (hdrIdxAt ((W.pool r).buffer d) + 2)) (q : Role) :
    Agree m m' (W.pool q).vr.desc (W.pool q).vr.usedEnd := by
  have hsz := (W.pool r).size_ge
  have hf' : Frame m m' ((W.pool r).buffer d) ((W.pool r).buffer d + (W.pool r).size) :=
    hf.mono (by simp only [hdrIdxAt]; omega) (by simp only [hdrIdxAt]; omega)
  rcases r.eq_or_peer q with rfl | rfl
  · exact Flow.tables_of_store hd hf'
  · exact ((BufferPool.touches_buffer hd hf' le_rfl le_rfl).same (W.peer r)).tables

/-- The ring of a queue is that of the core that sends on it. -/
theorem LinkInv.ring_of_queue (h : LinkInv W s P) (r : Role) (q : Queue) :
    ∃ t, ((s.side r).dev.queue q).ring = (W.pool t).vr := by
  cases q with
  | rvq =>
    have hflow := h.flow r.peer
    rw [Role.peer_peer] at hflow
    exact ⟨r.peer, hflow.linked.rvq_ring⟩
  | tvq => exact ⟨r, (h.flow r).linked.tvq_ring⟩

theorem LinkInv.fullLengths (h : LinkInv W s P) {size : Nat} (hsize : ∀ r, (W.pool r).size = size) : s.FullLengths size := by
  have hlen : ∀ (r : Role) {ids : List UInt16} (e : UInt32 × UInt32),
      e ∈ (ids.map fun d => (d.toUInt32, UInt32.ofNat (W.pool r).size)) → e.2.toNat = size := by
    intro r ids e he
    obtain ⟨d, -, rfl⟩ := List.mem_map.1 he
    exact ((W.pool r).toNat_size).trans (hsize r)
  refine ⟨fun q e he => ?_, fun r q d hd => ?_⟩
  · cases q with
    | rvq =>
      have hpend := (h.flow .remote).linked.queue
      rw [← (h.flow .remote).linked.rvq_ring] at hpend
      have hpend : (s.side .master).dev.rvq.ring.usedPending s.m (s.side .master).dev.rvq.usedConsIdx = _ := hpend
      exact hlen .remote e (hpend ▸ he)
    | tvq =>
      have hpend := (h.flow .master).linked.free
      rw [← (h.flow .master).linked.tvq_ring] at hpend
      have hpend : (s.side .master).dev.tvq.ring.usedPending s.m (s.side .master).dev.tvq.usedConsIdx = _ := hpend
      exact hlen .master e (hpend ▸ he)
  · obtain ⟨t, ht⟩ := h.ring_of_queue r q
    rw [ht] at hd ⊢
    rw [((h.flow t).linked.desc d hd).2, (W.pool t).toNat_size, hsize]

/-- A buffer reports its length less the header. -/
theorem Got.capacity_eq {B : BufferPool} {g : Got} (hg : g.len = UInt32.ofNat B.size) : g.capacity.toNat = B.size - 16 := by
  have hle : (16 : UInt32) ≤ UInt32.ofNat B.size := by
    rw [UInt32.le_iff_toNat_le, B.toNat_size]
    exact B.size_ge
  unfold Got.capacity
  rw [hg, if_pos hle, UInt32.toNat_sub_of_le _ _ hle, B.toNat_size]
  rfl

/-- A buffer that `rpmsg_lite_alloc_tx_buffer` hands out has room for a full payload. -/
theorem Flow.allocTx_capacity {B : BufferPool} {k : RingKind} {m : ByteMem} {rvq : Virtqueue} {t : TxHalf} {x : RxHalf}
    {P : Custody B.ids} {dev : RpmsgLiteInstance} {clear : Bool} {g : Got} (h : Flow B k m dev.tvq rvq t x P)
    (hk : dev.role.getKind = k) (hg : (rpmsgLiteAllocTxBuffer clear dev m).2.2 = some g) : g.capacity.toNat = B.size - 16 := by
  unfold rpmsgLiteAllocTxBuffer at hg
  split at hg
  · cases hg
  rcases h.linked.txAlloc clear hk with hn | ⟨d, f, hf, hget, -⟩
  · rw [hn] at hg
    cases hg
  · rw [hget] at hg
    cases hg
    exact Got.capacity_eq rfl

end

section

variable {w : Nat} {p : ShmemParams} {addr : Nat} {env envR : InitEnv} {highestM highestR linkId : UInt32}
  {cfg : ShmemConfig} {length : Nat} {m m' : ByteMem} {dm dr : RpmsgLiteInstance} {c : LinkConfig} {s : Link}

theorem Link.reachable_wired (hw : (Link.start m' dm dr).Wired) (h : Link.Reachable c (Link.start m' dm dr) s) : s.Wired := by
  induction h with
  | start => exact hw
  | step _ hs ih => exact ih.step hs

/-- From a ready start, in every state of every run: all lengths in the rings are the buffer size, a
zero-copy buffer is reported with that size less the header, and the two ways to send a message leave
the same rings, instance, notification and buffers, but for the index kept in the message's header. -/
theorem zeroCopySend_same (hm : rpmsgLiteMasterInit w env highestM cfg addr length linkId m = .instance dm m')
    (hr : rpmsgLiteRemoteInit w envR highestR cfg addr linkId = some dr) (hlen : addr + length ≤ 2 ^ 32)
    (hp : masterParams w cfg = some p) (hok : LinkReady w cfg addr p m) (hc : c.payloadSize = cfg.payloadSize)
    (h : Link.Reachable c (Link.start m' dm dr) s) :
    s.FullLengths p.bufferSize ∧ ∀ r,
      (∀ g, (rpmsgLiteAllocTxBuffer c.clear (s.side r).dev s.m).2.2 = some g → g.capacity.toNat = p.bufferSize - 16) ∧
      ∀ src dst data, (s.side r).dev.linkState = true → data.length ≤ c.payloadSize →
        ∃ y z, rpmsgLiteSend c.clear c.payloadSize (s.side r).dev s.m src dst data = some y ∧
          zeroCopySend c.clear c.payloadSize (s.side r).dev s.m src dst data = some z ∧
          (s.freeIds r = [] ∧ y = ⟨(s.side r).dev, s.m, RL_ERR_NO_MEM, false⟩ ∧ z = y ∨
            ∃ d ∈ (s.freeIds r).head?, y.status = RL_SUCCESS ∧
              y.SameBut z ((s.side r).dev.tvq.ring.bufferOf s.m d.toNat) ∧
              ∀ idx < 2, Agree y.m z.m (vringOf w p addr idx).desc (vringOf w p addr idx).usedEnd) := by
  have hpay := hok.pool_payload hc
  obtain ⟨P, hinv⟩ := linkInv_reachable hm hr hlen hp hok hc h
  have hwired := Link.reachable_wired (wired_start hm hr) h
  refine ⟨hinv.fullLengths hok.layout.pool_size, fun r => ⟨fun g hg => ?_, fun src dst data hlink hsize => ?_⟩⟩
  · rw [← hok.layout.pool_size r]
    exact (hinv.flow r).allocTx_capacity (by rw [hinv.role r]) hg
  · obtain ⟨y, z, hy, hz, hyz⟩ := (hinv.flow r).send_same c.clear src dst (by rw [hinv.role r])
      (hwired.flags r .tvq) hlink hsize (hpay r)
    refine ⟨y, z, hy, hz, ?_⟩
    rw [hinv.freeIds]
    rcases hyz with hnone | ⟨d, hd, hmem, hst, hsame⟩
    · exact Or.inl hnone
    · have hbuf : (s.side r).dev.tvq.ring.bufferOf s.m d.toNat = (hok.layout.pools.pool r).buffer d := by
        rw [(hinv.flow r).linked.tvq_ring, ← (hinv.flow r).linked.rvq_ring]
        exact (hinv.flow r).linked.descAddr hmem
      have htab := hok.layout.pools.agree_tables hmem hsame.m
      refine Or.inr ⟨d, hd, hst, by rw [hbuf]; exact hsame, fun idx hidx => ?_⟩
      obtain rfl | rfl : idx = 0 ∨ idx = 1 := by omega
      · exact htab .remote
      · exact htab .master

end

/-- Three bytes from the master of two buffers: both ways take buffer 0 of the second vring. -/
theorem zeroCopySend_same_two : ∃ dm m' dr y z,
    rpmsgLiteMasterInit 32 InitEnv.ok 0 (.build (headerTwo 64 (by decide) (by decide))) 4124 512 0 (fun _ => 0) =
      .instance dm m' ∧
    rpmsgLiteRemoteInit 32 InitEnv.ok 0 (.build (headerTwo 64 (by decide) (by decide))) 4124 0 = some dr ∧
    rpmsgLiteSend false 16 dm m' 7 9 [1, 2, 3] = some y ∧ zeroCopySend false 16 dm m' 7 9 [1, 2, 3] = some z ∧
    y.status = RL_SUCCESS ∧ z.status = RL_SUCCESS ∧ z.notified = y.notified ∧ z.dev = y.dev := by
  obtain ⟨dm, m', dr, hm, hr, ht⟩ := Link.of_check_two 0
    (fun dm m' _ => dm.linkState && ((rpmsgLiteSend false 16 dm m' 7 9 [1, 2, 3]).any fun y => y.status == RL_SUCCESS))
    (by decide +kernel)
  obtain ⟨hlink, hany⟩ := (Bool.and_eq_true _ _).mp ht
  obtain ⟨y, hy, hst⟩ := (Option.any_eq_true _ _).1 hany
  obtain ⟨y', z, hy', hz, hyz⟩ := ((zeroCopySend_same (c := ⟨false, 16, 16⟩) hm hr (by decide) rfl linkReady_two rfl
    .start).2 .master).2 7 9 [1, 2, 3] hlink (by decide)
  obtain rfl := Option.some.inj (hy.symm.trans hy')
  refine ⟨dm, m', dr, y, z, hm, hr, hy, hz, eq_of_beq hst, ?_⟩
  rcases hyz with ⟨-, -, rfl⟩ | ⟨d, -, -, hsame, -⟩
  · exact ⟨eq_of_beq hst, rfl, rfl⟩
  · exact ⟨hsame.status.trans (eq_of_beq hst), hsame.notified, hsame.dev⟩

/-- Over memory that was not cleared the master finds used elements that nobody wrote. -/
theorem zeroCopySend_garbage : ∃ dm m' dr,
    rpmsgLiteMasterInit 32 InitEnv.ok 0 (.build (headerTwo 64 (by decide) (by decide))) 4124 512 0 (fun _ => 0xFF) =
      .instance dm m' ∧
    rpmsgLiteRemoteInit 32 InitEnv.ok 0 (.build (headerTwo 64 (by decide) (by decide))) 4124 0 = some dr ∧
    ¬ (Link.start m' dm dr).FullLengths ((headerTwo 64 (by decide) (by decide)).params 32).bufferSize := by
  obtain ⟨dm, m', dr, hm, hr, ht⟩ := Link.of_check_two 0xFF
    (fun dm m' _ => dm.rvq.ring.num == 2 && m'.ld16 dm.rvq.ring.usedIdxAt != dm.rvq.usedConsIdx &&
      (dm.rvq.ring.usedSlot m' (dm.rvq.usedConsIdx.toNat % 2)).2 == 0xFFFFFFFF)
    (by decide +kernel)
  simp only [Bool.and_eq_true, beq_iff_eq, bne_iff_ne] at ht
  obtain ⟨⟨hnum, hne⟩, hlen⟩ := ht
  refine ⟨dm, m', dr, hm, hr, fun hfull => ?_⟩
  have hsize : FreeRing.IsSize dm.rvq.ring.num := by rw [hnum]; exact ⟨by decide, by decide⟩
  have hfirst := hfull.used .rvq (dm.rvq.ring.usedSlot m' (dm.rvq.usedConsIdx.toNat % dm.rvq.ring.num)) (by
    show _ ∈ dm.rvq.ring.usedPending m' dm.rvq.usedConsIdx
    rw [Vring.usedPending, FreeRing.pending_pop hsize hne]
    exact List.mem_cons_self)
  rw [hnum, hlen] at hfirst
  exact absurd hfirst (by decide)

end RpmsgLite
