/-
What a core's step reads. A core that sees the tables and the buffers in its hands as they are takes the same step on its view
as on the memory itself, with the same result and the same stores, whatever it sees of the other buffers.
-/
import RpmsgLite.Lib.SideBySide
import RpmsgLite.Link.Invariant

namespace RpmsgLite

open ByteMem

/-! ## The bytes that a step stores into buffers -/

/-- Some bytes, with their first address and their number. -/
abbrev Span := Nat × Nat

/-- A byte of one of the spans. -/
def Covers (spans : List Span) (b : Nat) : Prop := ∃ x ∈ spans, x.1 ≤ b ∧ b < x.1 + x.2

/-- A buffer in somebody's hands. -/
def Got.span (g : Got) : Span := (g.buffer, g.len.toNat)

/-- The header stores of a send leave out the reserved field. -/
def hdrSpans (msg : Nat) : List Span := [(hdrSrcAt msg, 8), (hdrLenAt msg, 4)]

/-- `rpmsg_lite_send_nocopy` past its checks. -/
def Side.sendsNocopy (c : LinkConfig) (s : Side) (size : Nat) : Bool := size ≤ c.payloadSize && s.dev.linkState

/-- The buffer whose index the header of the released one keeps, as `virtqueue_get_buffer_length` measures it. -/
def keptSpan (vq : Virtqueue) (m : ByteMem) (g : Got) : Span :=
  (g.buffer, (virtqueueGetBufferLength vq m (m.ld16 (hdrIdxAt g.buffer))).toNat)

section

variable (c : LinkConfig) (s : Side) (m : ByteMem)

def Side.txStores : TxAct → List Span
  | .send _ _ _ => []
  | .fill i => (s.tx.sending[i]?).elim [] fun e => hdrSpans e.got.buffer ++ [(msgDataAt e.got.buffer, e.data.length)]
  | .enqueue _ => []
  | .allocTxBuffer => (rpmsgLiteAllocTxBuffer c.clear s.dev m).2.2.elim [] fun g => [(hdrIdxAt g.buffer, 2)]
  | .write i off bytes => (s.tx.owned[i]?).elim [] fun g => [(msgDataAt g.buffer + off, bytes.length)]
  | .sendNocopy i _ _ size =>
    if s.sendsNocopy c size then (s.tx.owned[i]?).elim [] fun g => hdrSpans g.buffer else []

def Side.rxStores : RxAct → List Span
  | .rx => []
  | .read => []
  | .done hold =>
    s.rx.hand.got.flatMap fun g => if hold then [(hdrIdxAt g.buffer, 2)] else if c.clear then [g.span] else []
  | .writeMsg off bytes => s.rx.hand.got.flatMap fun g => [(msgDataAt g.buffer + off, bytes.length)]
  | .writeHeld i off bytes => (s.rx.held[i]?).elim [] fun g => [(msgDataAt g.buffer + off, bytes.length)]
  | .releaseRxBuffer i => if c.clear then (s.rx.held[i]?).elim [] fun g => [keptSpan s.dev.rvq m g] else []

def Side.stores : Act → List Span
  | .tx a => s.txStores c m a
  | .rx a => s.rxStores c m a
  | .txCallback => []

end

/-! ## What a core sees -/

/-- The steps that take a descriptor from a ring. -/
def TxAct.takes : TxAct → Bool
  | .send _ _ _ | .allocTxBuffer => true
  | .fill _ | .enqueue _ | .write _ _ _ | .sendNocopy _ _ _ _ => false

def RxAct.takes : RxAct → Bool
  | .rx => true
  | .read | .done _ | .writeMsg _ _ | .writeHeld _ _ _ | .releaseRxBuffer _ => false

def Act.takes : Act → Bool
  | .tx a => a.takes
  | .rx a => a.takes
  | .txCallback => false

/-- A byte of one of the rings of a vring. -/
def Vring.Ring (vr : Vring) (b : Nat) : Prop := ∃ k, vr.ringLo k ≤ b ∧ b < vr.ringHi k

/-- In `v` all is as in `w` that the steps without a new descriptor read of the tables: the rings, and the lengths. -/
structure BufferPool.Reads (B : BufferPool) (w v : ByteMem) : Prop where
  rings : ∀ k, Agree w v (B.vr.ringLo k) (B.vr.ringHi k)
  lens : ∀ d < B.vr.num, Agree w v (B.vr.descLenAt d) (B.vr.descLenAt d + 4)

theorem BufferPool.Reads.of_agree {B : BufferPool} {w v : ByteMem} (h : Agree w v B.vr.desc B.vr.usedEnd) : B.Reads w v := by
  have hend := B.laid.descEnd_le_usedEnd
  refine ⟨fun k => h.mono (B.laid.desc_le_ringLo k) (B.laid.ringHi_le k), fun d hd => h.mono ?_ ?_⟩
  all_goals
    simp only [Vring.descLenAt, Vring.descEnd] at hend ⊢
    omega

theorem BufferPool.Reads.refl (B : BufferPool) (w : ByteMem) : B.Reads w w :=
  ⟨fun _ => .refl _ _ _, fun _ _ => .refl _ _ _⟩

theorem BufferPool.Reads.trans {B : BufferPool} {w v u : ByteMem} (h : B.Reads w v) (h' : B.Reads v u) : B.Reads w u :=
  ⟨fun k => (h.rings k).trans (h'.rings k), fun d hd => (h.lens d hd).trans (h'.lens d hd)⟩

theorem BufferPool.Reads.stores {B : BufferPool} {R : Nat → Prop} {v v' w w' : ByteMem} (hr : B.Reads w v)
    (h : SameStores R v v' w w') : B.Reads w' v' :=
  ⟨fun k => h.agree (hr.rings k), fun d hd => h.agree (hr.lens d hd)⟩

theorem BufferPool.ring_table {B : BufferPool} {b : Nat} (h : B.vr.Ring b) : B.vr.desc ≤ b ∧ b < B.vr.usedEnd := by
  obtain ⟨k, h1, h2⟩ := h
  exact ⟨(B.laid.desc_le_ringLo k).trans h1, h2.trans_le (B.laid.ringHi_le k)⟩

/-- The buffers in a core's hands. -/
def Side.gots (s : Side) : List Got := s.tx.gots ++ s.rx.gots

/-- In `v` the tables and some buffers are as in `w`. -/
structure Sees (W : Pools) (gots : List Got) (w v : ByteMem) : Prop where
  tables : ∀ r, Agree w v (W.pool r).vr.desc (W.pool r).vr.usedEnd
  bufs : ∀ g ∈ gots, Agree w v g.buffer (g.buffer + g.len.toNat)

/-- A byte of a table. -/
def Pools.Table (W : Pools) (b : Nat) : Prop := ∃ r, (W.pool r).vr.desc ≤ b ∧ b < (W.pool r).vr.usedEnd

/-- A byte of a descriptor. -/
def Pools.Desc (W : Pools) (b : Nat) : Prop := ∃ r, (W.pool r).vr.desc ≤ b ∧ b < (W.pool r).vr.descEnd

theorem Pools.Desc.table {W : Pools} {b : Nat} (h : W.Desc b) : W.Table b :=
  h.imp fun q hq => ⟨hq.1, hq.2.trans_le (W.pool q).laid.descEnd_le_usedEnd⟩

/-- The tables of the two pools are apart. -/
theorem Pools.tables_apart (W : Pools) (q : Role) :
    Apart (W.pool q).vr.desc (W.pool q).vr.usedEnd (W.pool q.peer).vr.desc (W.pool q.peer).vr.usedEnd := (W.peer q).tables

theorem Pools.ring_not_desc {W : Pools} {q : Role} {b : Nat} (h : (W.pool q).vr.Ring b) : ¬ W.Desc b := by
  rintro ⟨p, h1, h2⟩
  obtain ⟨k, h3, h4⟩ := h
  have hlo := (W.pool q).laid.descEnd_le_ringLo k
  rcases q.eq_or_peer p with rfl | rfl
  · omega
  · have hap := W.tables_apart q
    have hb := BufferPool.ring_table (B := W.pool q) ⟨k, h3, h4⟩
    have hend := (W.pool q.peer).laid.descEnd_le_usedEnd
    unfold Apart at hap
    omega

section Rings

variable {B : BufferPool} {k : RingKind} {v w : ByteMem} {tvq rvq : Virtqueue} {P : Custody B.ids} {r : Role} {clear : Bool}

/-- `vq_tx_alloc` reads tables only. -/
theorem Linked.txAlloc_eq (clear : Bool) (h : Linked B k w tvq rvq P) (ha : Agree w v B.vr.desc B.vr.usedEnd) (hk : r.getKind = k) :
    (r.vqOps clear).vqTxAlloc tvq v = (r.vqOps clear).vqTxAlloc tvq w := by
  have hget : vqGet k tvq v = vqGet k tvq w := by
    rcases h.take with ⟨hf, hw⟩ | ⟨d, f, hf, hw, -⟩ <;>
      rcases (h.congr ha).take with ⟨hf', hv⟩ | ⟨d', f', hf', hv, -⟩
    · rw [hw, hv]
    · rw [hf] at hf'
      cases hf'
    · rw [hf] at hf'
      cases hf'
    · rw [hf] at hf'
      cases hf'
      rw [hw, hv]
  rw [vqTxAlloc_eq, vqTxAlloc_eq, hk, hget]

/-- So does `vq_rx`. -/
theorem Linked.rx_eq (clear : Bool) (h : Linked B k w tvq rvq P) (ha : Agree w v B.vr.desc B.vr.usedEnd)
    (hk : r.getKind = k.other) :
    (r.vqOps clear).vqRx rvq v = (r.vqOps clear).vqRx rvq w := by
  rw [vqRx_eq, vqRx_eq]
  simpa only [vqTxAlloc_eq] using h.swap.txAlloc_eq clear ha hk

/-- The length of a buffer is read where it is the same. -/
theorem Linked.reads_length (h : Linked B k w tvq rvq P) (ha : B.Reads w v) {d : UInt16} (hd : d ∈ B.ids) :
    virtqueueGetBufferLength tvq v d = UInt32.ofNat B.size := by
  rw [← h.bufferLength hd, virtqueueGetBufferLength, virtqueueGetBufferLength, h.tvq_ring]
  exact ld32_congr (ha.lens d.toNat (B.mem_ids.1 hd))

/-- Publishing on the avail ring stores the same into both. -/
theorem vqRingUpdateAvail_same {vq : Virtqueue} (hw : vq.Wf) (ha : Agree w v vq.ring.avail vq.ring.availEnd) (d : UInt16) :
    SameStores (fun b => vq.ring.ringLo .avail ≤ b ∧ b < vq.ring.ringHi .avail)
      v (vqRingUpdateAvail vq v d).2 w (vqRingUpdateAvail vq w d).2 := by
  refine SameStores.of_frames ((vqRingUpdateAvail_spec hw d).ringPut hw.laid.size 0).frame
    ((vqRingUpdateAvail_spec hw d).ringPut hw.laid.size 0).frame ?_
  simp only [vqRingUpdateAvail, Vring.availIdx_congr ha]
  generalize vq.ring.availRingAt _ = slot
  have h1 := (SameStores.st16 v w slot d).agree ha
  rw [Vring.availIdx_congr h1]
  exact (SameStores.st16 _ _ _ _).agree h1

/-- So does publishing on the used ring. -/
theorem vqRingUpdateUsed_same {vq : Virtqueue} (hw : vq.Wf) (ha : Agree w v vq.ring.used vq.ring.usedEnd) (d : UInt16)
    (len : UInt32) :
    SameStores (fun b => vq.ring.ringLo .used ≤ b ∧ b < vq.ring.ringHi .used)
      v (vqRingUpdateUsed vq v d len) w (vqRingUpdateUsed vq w d len) := by
  refine SameStores.of_frames ((vqRingUpdateUsed_spec hw d len).ringPut hw.laid.size).frame
    ((vqRingUpdateUsed_spec hw d len).ringPut hw.laid.size).frame ?_
  simp only [vqRingUpdateUsed, Vring.usedIdx_congr ha]
  generalize vq.ring.usedIdAt _ = slot
  generalize vq.ring.usedLenAt _ = slot'
  have h1 := (SameStores.st32 v w slot d.toUInt32).agree ha
  have h2 := (SameStores.st32 _ _ slot' len).agree h1
  rw [Vring.usedIdx_congr h2]
  exact (SameStores.st16 _ _ _ _).agree h2

theorem Linked.put_same (h : Linked B k w tvq rvq P) (ha : B.Reads w v) {d : UInt16} (hd : d ∈ B.ids)
    (kk : RingKind) (len : UInt32) :
    SameStores B.vr.Ring v (vqPut kk tvq v d len).2 w (vqPut kk tvq w d len).2 := by
  have hring := ha.rings kk
  rw [← h.tvq_ring] at hring ⊢
  cases kk with
  | avail => exact (vqRingUpdateAvail_same h.tvq_wf hring d).mono fun b hb => ⟨.avail, hb⟩
  | used =>
    simp only [vqPut, virtqueueAddConsumedBuffer_taken (h.le_nentries hd)]
    exact (vqRingUpdateUsed_same h.tvq_wf hring d len).mono fun b hb => ⟨.used, hb⟩

theorem vqPut_fst (k : RingKind) (vq : Virtqueue) (d : UInt16) (len : UInt32) :
    (vqPut k vq v d len).1 = (vqPut k vq w d len).1 := by
  cases k <;> rfl

/-- The end of a send, whatever the memory. -/
theorem Linked.sendEnqueue {dev : RpmsgLiteInstance} (h : Linked B k w dev.tvq rvq P) (hk : dev.role.getKind = k) {g : Got}
    (hd : g.idx ∈ B.ids) (m : ByteMem) :
    rpmsgLiteSendEnqueue clear dev m g =
      some ({ dev with tvq := { dev.tvq with queuedCnt := 0 } }, (vqPut k.other dev.tvq m g.idx g.len).2) := by
  unfold rpmsgLiteSendEnqueue
  rw [vqTx_eq _ (h.le_nentries hd), hk]
  simp only [vqPut_kick]

theorem alloc_same (dev : RpmsgLiteInstance) (clear : Bool)
    (hget : (dev.role.vqOps clear).vqTxAlloc dev.tvq v = (dev.role.vqOps clear).vqTxAlloc dev.tvq w) :
    (rpmsgLiteAllocTxBuffer clear dev v).1 = (rpmsgLiteAllocTxBuffer clear dev w).1 ∧
      (rpmsgLiteAllocTxBuffer clear dev v).2.2 = (rpmsgLiteAllocTxBuffer clear dev w).2.2 ∧
      SameStores (Covers ((rpmsgLiteAllocTxBuffer clear dev w).2.2.elim [] fun g => [(hdrIdxAt g.buffer, 2)]))
        v (rpmsgLiteAllocTxBuffer clear dev v).2.1 w (rpmsgLiteAllocTxBuffer clear dev w).2.1 := by
  unfold rpmsgLiteAllocTxBuffer
  rw [hget]
  split
  · exact ⟨rfl, rfl, .refl _ _ _⟩
  · split
    · exact ⟨rfl, rfl, .refl _ _ _⟩
    · exact ⟨rfl, rfl, (SameStores.st16 _ _ _ _).mono fun b hb => ⟨_, List.mem_cons_self, hb⟩⟩

/-- A zero-copy send past its checks. -/
theorem Linked.sendNocopy {dev : RpmsgLiteInstance} (h : Linked B k w dev.tvq rvq P) (ha : B.Reads w v) (hk : dev.role.getKind = k)
    {d : UInt16} (hd : d ∈ B.ids) (hkept : v.ld16 (hdrIdxAt (B.buffer d)) = d) {pay size : Nat} (hsize : size ≤ pay)
    (hup : dev.linkState = true) (src dst : UInt32) :
    rpmsgLiteSendNocopy clear pay dev v src dst (msgDataAt (B.buffer d)) size =
      some ({ dev with tvq := { dev.tvq with queuedCnt := 0 } },
        (vqPut k.other dev.tvq (writeHdr v (B.buffer d) src dst size) d (UInt32.ofNat B.size)).2, RL_SUCCESS) := by
  obtain ⟨hf, hidx, -⟩ := writeHdr_spec v (B.buffer d) src dst size
  have hsz := B.size_ge
  have hlens : Agree v (writeHdr v (B.buffer d) src dst size) B.vr.desc B.vr.usedEnd :=
    Flow.tables_of_store hd (hf.mono le_rfl (by omega))
  have hlen : virtqueueGetBufferLength dev.tvq (writeHdr v (B.buffer d) src dst size) d = UInt32.ofNat B.size :=
    h.reads_length (ha.trans (.of_agree hlens)) hd
  unfold rpmsgLiteSendNocopy
  rw [if_neg (Nat.not_lt.2 hsize), if_neg (by simp [hup])]
  simp only [show msgFromBuf (msgDataAt (B.buffer d)) = B.buffer d from Nat.add_sub_cancel _ _, hidx, hkept, hlen,
    vqTx_eq _ (h.le_nentries hd), hk, vqPut_kick]

/-- Clearing a buffer, if configured, and returning its descriptor stores the same into both. -/
theorem Linked.free_same (h : Linked B k w tvq rvq P) (ha : B.Reads w v) {d : UInt16} (hd : d ∈ B.ids) (len : UInt32) :
    SameStores (fun b => Covers (if clear then [(B.buffer d, B.size)] else []) b ∨ B.vr.Ring b)
      v (vqPut k rvq (if clear then v.fill (B.buffer d) B.size 0 else v) d len).2
      w (vqPut k rvq (if clear then w.fill (B.buffer d) B.size 0 else w) d len).2 := by
  cases clear with
  | false => exact (h.swap.put_same ha hd k len).mono fun b => Or.inr
  | true =>
    have hfill := SameStores.fill v w (B.buffer d) B.size 0
    have h1 := h.congr (Flow.tables_of_store hd (frame_fill w (B.buffer d) B.size 0))
    exact (hfill.mono fun b hb => Or.inl ⟨_, List.mem_cons_self, hb⟩).trans
      ((h1.swap.put_same (ha.stores hfill) hd k len).mono fun b => Or.inr)

/-- The end of the receive callback that returns the buffer, whatever the memory. -/
theorem Linked.rxDone {dev : RpmsgLiteInstance} (h : Linked B k w tvq dev.rvq P) (hk : dev.role.getKind = k.other) {g : Got}
    (hd : g.idx ∈ B.ids) (m : ByteMem) :
    rpmsgLiteRxDone clear dev m false g =
      some ({ dev with rvq := (vqPut k dev.rvq m g.idx g.len).1 },
        (vqPut k dev.rvq (if clear then m.fill g.buffer g.len.toNat 0 else m) g.idx g.len).2) := by
  unfold rpmsgLiteRxDone
  rw [if_neg Bool.false_ne_true, vqRxFree_eq _ _ _ _ _ (h.swap.le_nentries hd), hk, RingKind.other_other]
  simp only [vqPut_fst (v := if clear then m.fill g.buffer g.len.toNat 0 else m) (w := m)]

/-- `rpmsg_lite_release_rx_buffer` of a buffer whose header keeps its index. -/
theorem Linked.releaseRx {dev : RpmsgLiteInstance} (h : Linked B k w tvq dev.rvq P) (ha : B.Reads w v)
    (hk : dev.role.getKind = k.other) {d : UInt16} (hd : d ∈ B.ids) (hkept : v.ld16 (hdrIdxAt (B.buffer d)) = d) :
    rpmsgLiteReleaseRxBuffer clear dev v (msgDataAt (B.buffer d)) =
      some ({ dev with rvq := (vqPut k dev.rvq v d (UInt32.ofNat B.size)).1 },
        (vqPut k dev.rvq (if clear then v.fill (B.buffer d) B.size 0 else v) d (UInt32.ofNat B.size)).2) := by
  unfold rpmsgLiteReleaseRxBuffer
  simp only [show msgFromBuf (msgDataAt (B.buffer d)) = B.buffer d from Nat.add_sub_cancel _ _, hkept,
    h.swap.reads_length ha hd, vqRxFree_eq _ _ _ _ _ (h.swap.le_nentries hd), hk, RingKind.other_other, B.toNat_size,
    vqPut_fst (v := if clear then v.fill (B.buffer d) B.size 0 else v) (w := v)]

end Rings

/-! ## The steps -/

theorem covers_of_mem {spans : List Span} {a n b : Nat} (hx : (a, n) ∈ spans) (hb : a ≤ b ∧ b < a + n) : Covers spans b :=
  ⟨(a, n), hx, hb⟩

/-- The header stores are the same on both memories. -/
theorem writeHdr_same (v w : ByteMem) (msg : Nat) (src dst : UInt32) (size : Nat) :
    SameStores (Covers (hdrSpans msg)) v (writeHdr v msg src dst size) w (writeHdr w msg src dst size) := by
  unfold writeHdr
  have hmem : ∀ {a n b : Nat},
      hdrSrcAt msg ≤ a ∧ a + n ≤ hdrSrcAt msg + 8 ∨ hdrLenAt msg ≤ a ∧ a + n ≤ hdrLenAt msg + 4 →
      a ≤ b ∧ b < a + n → Covers (hdrSpans msg) b := by
    rintro a n b (⟨h1, h2⟩ | ⟨h1, h2⟩) hb
    · exact covers_of_mem (a := hdrSrcAt msg) (n := 8) List.mem_cons_self (by omega)
    · exact covers_of_mem (a := hdrLenAt msg) (n := 4) (List.mem_cons_of_mem _ List.mem_cons_self) (by omega)
  refine ((SameStores.st32 _ _ _ _).mono fun b => hmem ?_).trans (((SameStores.st32 _ _ _ _).mono fun b => hmem ?_).trans
    (((SameStores.st16 _ _ _ _).mono fun b => hmem ?_).trans ((SameStores.st16 _ _ _ _).mono fun b => hmem ?_)))
  all_goals simp only [hdrSrcAt, hdrDstAt, hdrLenAt, hdrFlagsAt]; omega

theorem writePayload_same {v v' : ByteMem} (w : ByteMem) {g : Got} {off : Nat} {bytes : List UInt8}
    (h : writePayload v g off bytes = some v') :
    ∃ w', writePayload w g off bytes = some w' ∧
      SameStores (fun b => msgDataAt g.buffer + off ≤ b ∧ b < msgDataAt g.buffer + off + bytes.length) v v' w w' := by
  unfold writePayload at h ⊢
  split at h
  · rename_i hle
    cases h
    exact ⟨_, if_pos hle, SameStores.copy v w _ bytes⟩
  · cases h

section Steps

variable {B : BufferPool} {k : RingKind} {v v' w : ByteMem} {tvq rvq : Virtqueue} {t : TxHalf} {x : RxHalf} {P : Custody B.ids}
  {c : LinkConfig} {s s' : Side}

theorem Side.sendsNocopy_iff {size : Nat} : s.sendsNocopy c size = true ↔ size ≤ c.payloadSize ∧ s.dev.linkState = true := by
  simp [Side.sendsNocopy]

/-- A zero-copy send that is refused. -/
theorem Side.nocopy_refused {size : Nat} (h : ¬ s.sendsNocopy c size = true) :
    ∃ status, status ≠ RL_SUCCESS ∧ ∀ m src dst data,
      rpmsgLiteSendNocopy c.clear c.payloadSize s.dev m src dst data size = some (s.dev, m, status) := by
  by_cases hsize : size > c.payloadSize
  · exact ⟨RL_ERR_BUFF_SIZE, by decide, fun m src dst data => by rw [rpmsgLiteSendNocopy, if_pos hsize]⟩
  · refine ⟨RL_NOT_READY, by decide, fun m src dst data => ?_⟩
    have hup : ¬ s.dev.linkState = true := fun hup => h (Side.sendsNocopy_iff.2 ⟨Nat.le_of_not_lt hsize, hup⟩)
    rw [rpmsgLiteSendNocopy, if_neg hsize, if_pos (by simpa using hup)]

/-- A zero-copy buffer on both memories. -/
theorem Flow.owned_seen (h : Flow B k w tvq rvq t x P)
    (hb : ∀ g ∈ t.gots, Agree w v (B.buffer g.idx) (B.buffer g.idx + B.size)) {i : Nat} {g : Got} (hi : t.owned[i]? = some g) :
    g.idx ∈ B.ids ∧ g.buffer = B.buffer g.idx ∧ v.ld16 (hdrIdxAt (B.buffer g.idx)) = g.idx ∧
      w.ld16 (hdrIdxAt (B.buffer g.idx)) = g.idx := by
  have hg : g ∈ t.owned := List.mem_of_getElem? hi
  have hgot : g ∈ t.gots := List.mem_append_right _ hg
  have hsz := B.size_ge
  have hkept := h.contents.txKept g hg
  refine ⟨h.tx_ids hgot, congrArg Got.buffer (h.contents.txGot g hgot), ?_, hkept⟩
  rw [ld16_congr ((hb g hgot).mono (by simp only [hdrIdxAt]; omega) (by simp only [hdrIdxAt]; omega)), hkept]

/-- A held buffer on both memories. -/
theorem Flow.held_seen (h : Flow B k w tvq rvq t x P)
    (hb : ∀ g ∈ x.gots, Agree w v (B.buffer g.idx) (B.buffer g.idx + B.size)) {i : Nat} {g : Got} (hi : x.held[i]? = some g) :
    g.idx ∈ B.ids ∧ g.buffer = B.buffer g.idx ∧ v.ld16 (hdrIdxAt (B.buffer g.idx)) = g.idx ∧
      w.ld16 (hdrIdxAt (B.buffer g.idx)) = g.idx := by
  have hg : g ∈ x.held := List.mem_of_getElem? hi
  have hgot : g ∈ x.gots := List.mem_append_right _ hg
  have hsz := B.size_ge
  have hkept := h.contents.rxKept g hg
  refine ⟨h.rx_ids hgot, congrArg Got.buffer (h.contents.rxGot g hgot), ?_, hkept⟩
  rw [ld16_congr ((hb g hgot).mono (by simp only [hdrIdxAt]; omega) (by simp only [hdrIdxAt]; omega)), hkept]

/-- A transmit step on the core's view is the step on the memory. -/
theorem Flow.seen_tx (h : Flow B k w s.dev.tvq rvq s.tx x P) (hk : s.dev.role.getKind = k) (hpay : c.payloadSize + 16 ≤ B.size)
    (ht : B.Reads w v) (hb : ∀ g ∈ s.tx.gots, Agree w v (B.buffer g.idx) (B.buffer g.idx + B.size)) {a : TxAct}
    (hget : a.takes = true →
      (s.dev.role.vqOps c.clear).vqTxAlloc s.dev.tvq v = (s.dev.role.vqOps c.clear).vqTxAlloc s.dev.tvq w)
    (hs : s.txStep c v a = some (s', v')) :
    ∃ w', s.txStep c w a = some (s', w') ∧ SameStores (fun b => Covers (s.txStores c w a) b ∨ B.vr.Ring b) v v' w w' := by
  have hl := h.linked
  cases Side.txStep_cases hs with
  | sendRefused hle hr =>
    rw [rpmsgLiteSendAlloc, hget rfl, ← rpmsgLiteSendAlloc] at hr
    exact ⟨w, by simp only [Side.txStep, if_neg (Nat.not_lt.2 hle), hr], .refl _ _ _⟩
  | send hle hr =>
    rw [rpmsgLiteSendAlloc, hget rfl, ← rpmsgLiteSendAlloc] at hr
    exact ⟨w, by simp only [Side.txStep, if_neg (Nat.not_lt.2 hle), hr], .refl _ _ _⟩
  | @fill i e hi =>
    refine ⟨rpmsgLiteFormatMessage w e.got e.src e.dst e.data, by simp only [Side.txStep, hi], ?_⟩
    have hspans : s.txStores c w (.fill i) = hdrSpans e.got.buffer ++ [(msgDataAt e.got.buffer, e.data.length)] := by
      simp only [Side.txStores, hi, Option.elim]
    rw [hspans]
    refine ((writeHdr_same v w e.got.buffer e.src e.dst e.data.length).mono fun b hc => Or.inl ?_).trans
      ((SameStores.copy _ _ _ e.data).mono fun b hc => Or.inl ?_)
    · obtain ⟨y, hy, hyb⟩ := hc
      exact ⟨y, List.mem_append_left _ hy, hyb⟩
    · exact covers_of_mem (List.mem_append_right _ List.mem_cons_self) hc
  | @enqueueStuck i e hi hf hr =>
    have hd := h.tx_ids (List.mem_append_left _ (List.mem_map_of_mem (List.mem_of_getElem? hi)))
    rw [hl.sendEnqueue hk hd] at hr
    cases hr
  | @enqueue i e dev m' hi hf hr =>
    have hd := h.tx_ids (List.mem_append_left _ (List.mem_map_of_mem (List.mem_of_getElem? hi)))
    rw [hl.sendEnqueue hk hd] at hr
    cases hr
    refine ⟨(vqPut k.other s.dev.tvq w e.got.idx e.got.len).2, ?_, ?_⟩
    · simp only [Side.txStep, hi, hf, hl.sendEnqueue hk hd, Bool.not_true, Bool.false_eq_true, if_false]
    · exact (hl.put_same ht hd k.other e.got.len).mono fun b => Or.inr
  | @allocNone dev m' hr =>
    obtain ⟨h1, h2, h3⟩ := alloc_same s.dev c.clear (hget rfl)
    rw [hr] at h1 h2 h3
    refine ⟨_, ?_, h3.mono fun b => Or.inl⟩
    have hw : rpmsgLiteAllocTxBuffer c.clear s.dev w = (dev, (rpmsgLiteAllocTxBuffer c.clear s.dev w).2.1, none) :=
      Prod.ext h1.symm (Prod.ext rfl h2.symm)
    simp only [Side.txStep]
    rw [hw]
  | @allocTxBuffer dev m' g hr =>
    obtain ⟨h1, h2, h3⟩ := alloc_same s.dev c.clear (hget rfl)
    rw [hr] at h1 h2 h3
    refine ⟨_, ?_, h3.mono fun b => Or.inl⟩
    have hw : rpmsgLiteAllocTxBuffer c.clear s.dev w = (dev, (rpmsgLiteAllocTxBuffer c.clear s.dev w).2.1, some g) :=
      Prod.ext h1.symm (Prod.ext rfl h2.symm)
    simp only [Side.txStep]
    rw [hw]
  | @write i off bytes g m' hi hr =>
    obtain ⟨w', hw', hsame⟩ := writePayload_same w hr
    refine ⟨w', by simp only [Side.txStep, hi, hw', Option.map_some], hsame.mono fun b hc => Or.inl ?_⟩
    exact covers_of_mem (by simp only [Side.txStores, hi, Option.elim]; exact List.mem_cons_self) hc
  | @nocopyStuck i size src dst g hle hi hr =>
    obtain ⟨hd, hbuf, hkept, -⟩ := h.owned_seen hb hi
    by_cases hsend : s.sendsNocopy c size = true
    · obtain ⟨hsize, hup⟩ := Side.sendsNocopy_iff.1 hsend
      rw [hbuf, hl.sendNocopy ht hk hd hkept hsize hup] at hr
      cases hr
    · obtain ⟨_, -, hno⟩ := Side.nocopy_refused hsend
      rw [hno] at hr
      cases hr
  | @sendNocopy i size src dst g dev m' hle hi hr =>
    obtain ⟨hd, hbuf, hkept, hkept'⟩ := h.owned_seen hb hi
    by_cases hsend : s.sendsNocopy c size = true
    · obtain ⟨hsize, hup⟩ := Side.sendsNocopy_iff.1 hsend
      rw [hbuf, hl.sendNocopy ht hk hd hkept hsize hup] at hr
      cases hr
      have hsz := B.size_ge
      have hbytes := hb g (List.mem_append_right _ (List.mem_of_getElem? hi))
      have hblock : v.block (msgDataAt (B.buffer g.idx)) size = w.block (msgDataAt (B.buffer g.idx)) size :=
        block_congr (hbytes.mono (by simp only [msgDataAt]; omega) (by simp only [msgDataAt]; omega))
      have hhdr := writeHdr_same v w (B.buffer g.idx) src dst size
      obtain ⟨hf, -⟩ := writeHdr_spec w (B.buffer g.idx) src dst size
      have h1 := hl.congr (Flow.tables_of_store hd (hf.mono le_rfl (by omega)))
      refine ⟨(vqPut k.other s.dev.tvq (writeHdr w (B.buffer g.idx) src dst size) g.idx (UInt32.ofNat B.size)).2, ?_, ?_⟩
      · simp only [Side.txStep, if_neg (Nat.not_lt.2 hle), hi, hbuf, hl.sendNocopy (.refl B w) hk hd hkept' hsize hup,
          if_true, hblock]
      · have hspans : s.txStores c w (.sendNocopy i src dst size) = hdrSpans (B.buffer g.idx) := by
          simp only [Side.txStores, hsend, if_true, hi, Option.elim, hbuf]
        rw [hspans]
        exact (hhdr.mono fun b => Or.inl).trans ((h1.put_same (ht.stores hhdr) hd _ _).mono fun b => Or.inr)
    · obtain ⟨_, hne, hno⟩ := Side.nocopy_refused hsend
      rw [hno] at hr
      cases hr
      exact absurd rfl hne
  | @nocopyRefused i size src dst g dev m' status hle hi hr hst =>
    obtain ⟨hd, hbuf, hkept, -⟩ := h.owned_seen hb hi
    by_cases hsend : s.sendsNocopy c size = true
    · obtain ⟨hsize, hup⟩ := Side.sendsNocopy_iff.1 hsend
      rw [hbuf, hl.sendNocopy ht hk hd hkept hsize hup] at hr
      cases hr
      exact absurd rfl hst
    · obtain ⟨_, -, hno⟩ := Side.nocopy_refused hsend
      rw [hno] at hr
      cases hr
      exact ⟨w, by simp only [Side.txStep, if_neg (Nat.not_lt.2 hle), hi, hno, if_neg hst], .refl _ _ _⟩

/-- So is a receive step. -/
theorem Flow.seen_rx (h : Flow B k w tvq s.dev.rvq t s.rx P) (hk : s.dev.role.getKind = k.other)
    (ht : B.Reads w v) (hb : ∀ g ∈ s.rx.gots, Agree w v (B.buffer g.idx) (B.buffer g.idx + B.size)) {a : RxAct}
    (hget : a.takes = true → (s.dev.role.vqOps c.clear).vqRx s.dev.rvq v = (s.dev.role.vqOps c.clear).vqRx s.dev.rvq w)
    (hs : s.rxStep c v a = some (s', v')) :
    ∃ w', s.rxStep c w a = some (s', w') ∧ SameStores (fun b => Covers (s.rxStores c w a) b ∨ B.vr.Ring b) v v' w w' := by
  have hl := h.linked
  cases Side.rxStep_cases hs with
  | rxNone hidle hr =>
    rw [rpmsgLiteRx, hget rfl, ← rpmsgLiteRx] at hr
    exact ⟨w, by simp only [Side.rxStep, hidle, hr, ne_eq, not_true_eq_false, if_false], .refl _ _ _⟩
  | rx hidle hr =>
    rw [rpmsgLiteRx, hget rfl, ← rpmsgLiteRx] at hr
    exact ⟨w, by simp only [Side.rxStep, hidle, hr, ne_eq, not_true_eq_false, if_false], .refl _ _ _⟩
  | @read g hhand =>
    have hgot : g ∈ s.rx.gots := List.mem_append_left _ (by rw [hhand]; exact List.mem_cons_self)
    have hbuf : g.buffer = B.buffer g.idx := congrArg Got.buffer (h.contents.rxGot g hgot)
    have hfit := h.contents.inflight_fits (d := g.idx) (List.mem_append_left _ (by rw [hhand]; exact List.mem_cons_self))
    have hmsg := msgAt_congr (hb g hgot) hfit
    refine ⟨w, ?_, .refl _ _ _⟩
    simp only [Side.rxStep, hhand, hbuf, hmsg]
  | @doneStuck hold g hhand hr =>
    have hd := h.rx_ids (List.mem_append_left _ (by rw [hhand]; exact List.mem_cons_self : g ∈ s.rx.hand.got))
    cases hold with
    | true =>
      rw [rpmsgLiteRxDone, if_pos rfl] at hr
      cases hr
    | false =>
      rw [hl.rxDone hk hd] at hr
      cases hr
  | @done hold g dev m' hhand hr =>
    have hgot : g ∈ s.rx.gots := List.mem_append_left _ (by rw [hhand]; exact List.mem_cons_self)
    have hd := h.rx_ids hgot
    cases hold with
    | true =>
      rw [rpmsgLiteRxDone, if_pos rfl] at hr
      cases hr
      refine ⟨w.st16 (hdrIdxAt g.buffer) g.idx, by simp only [Side.rxStep, hhand, rpmsgLiteRxDone, if_true], ?_⟩
      refine (SameStores.st16 v w _ _).mono fun b hc => Or.inl (covers_of_mem ?_ hc)
      simp only [Side.rxStores, hhand, RxHand.got, List.flatMap_cons, List.flatMap_nil, List.append_nil, if_true]
      exact List.mem_cons_self
    | false =>
      rw [hl.rxDone hk hd] at hr
      cases hr
      refine ⟨(vqPut k s.dev.rvq (if c.clear then w.fill g.buffer g.len.toNat 0 else w) g.idx g.len).2, ?_, ?_⟩
      · simp only [Side.rxStep, hhand, hl.rxDone hk hd, vqPut_fst (v := v) (w := w)]
      · have hgeq := h.contents.rxGot g hgot
        have hbuf : g.buffer = B.buffer g.idx := congrArg Got.buffer hgeq
        have hlen : g.len.toNat = B.size := by rw [show g.len = UInt32.ofNat B.size from congrArg Got.len hgeq, B.toNat_size]
        have hspans : s.rxStores c w (.done false) = if c.clear then [(B.buffer g.idx, B.size)] else [] := by
          rw [Side.rxStores, hhand, RxHand.got, List.flatMap_cons, List.flatMap_nil, List.append_nil, if_neg Bool.false_ne_true,
            Got.span, hbuf, hlen]
        rw [hspans, hbuf, hlen]
        exact hl.free_same ht hd g.len
  | @writeMsg off bytes g m' hhand hr =>
    obtain ⟨w', hw', hsame⟩ := writePayload_same w hr
    refine ⟨w', by simp only [Side.rxStep, hhand, hw', Option.map_some], hsame.mono fun b hc => Or.inl ?_⟩
    refine covers_of_mem ?_ hc
    simp only [Side.rxStores, hhand, RxHand.got, List.flatMap_cons, List.flatMap_nil, List.append_nil]
    exact List.mem_cons_self
  | @writeHeld i off bytes g m' hi hr =>
    obtain ⟨w', hw', hsame⟩ := writePayload_same w hr
    refine ⟨w', by simp only [Side.rxStep, hi, hw', Option.map_some], hsame.mono fun b hc => Or.inl ?_⟩
    exact covers_of_mem (by simp only [Side.rxStores, hi, Option.elim]; exact List.mem_cons_self) hc
  | @releaseStuck i g hi hr =>
    obtain ⟨hd, hbuf, hkept, -⟩ := h.held_seen hb hi
    rw [hbuf, hl.releaseRx ht hk hd hkept] at hr
    cases hr
  | @release i g dev m' hi hr =>
    obtain ⟨hd, hbuf, hkept, hkept'⟩ := h.held_seen hb hi
    rw [hbuf, hl.releaseRx ht hk hd hkept] at hr
    cases hr
    refine ⟨(vqPut k s.dev.rvq (if c.clear then w.fill (B.buffer g.idx) B.size 0 else w) g.idx (UInt32.ofNat B.size)).2, ?_, ?_⟩
    · simp only [Side.rxStep, hi, hbuf, hl.releaseRx (.refl B w) hk hd hkept', vqPut_fst (v := v) (w := w)]
    · have hspans : s.rxStores c w (.releaseRxBuffer i) = if c.clear then [(B.buffer g.idx, B.size)] else [] := by
        rw [Side.rxStores, hi, Option.elim, keptSpan, hbuf, hkept', hl.swap.bufferLength hd, B.toNat_size]
      rw [hspans]
      exact hl.free_same ht hd _

theorem writePayload_isNone (m m' : ByteMem) (g : Got) (off : Nat) (bytes : List UInt8) :
    (writePayload m g off bytes).isNone = (writePayload m' g off bytes).isNone := by
  unfold writePayload
  split <;> rfl

/-- Whether a core can take a step does not depend on the memory. -/
theorem Side.txStep_isNone (m m' : ByteMem) (a : TxAct) : (s.txStep c m a).isNone = (s.txStep c m' a).isNone := by
  cases a with
  | send src dst data =>
    simp only [Side.txStep]
    split
    · rfl
    · cases rpmsgLiteSendAlloc c.clear c.payloadSize s.dev m data.length with
      | mk dev res => cases rpmsgLiteSendAlloc c.clear c.payloadSize s.dev m' data.length with
        | mk dev' res' => cases res <;> cases res' <;> rfl
  | fill i =>
    simp only [Side.txStep]
    cases s.tx.sending[i]? <;> rfl
  | enqueue i =>
    simp only [Side.txStep]
    cases s.tx.sending[i]? with
    | none => rfl
    | some e =>
      dsimp only
      split
      · rfl
      · cases rpmsgLiteSendEnqueue c.clear s.dev m e.got <;> cases rpmsgLiteSendEnqueue c.clear s.dev m' e.got <;> rfl
  | allocTxBuffer =>
    simp only [Side.txStep]
    cases rpmsgLiteAllocTxBuffer c.clear s.dev m with
    | mk dev y => cases rpmsgLiteAllocTxBuffer c.clear s.dev m' with
      | mk dev' y' =>
        obtain ⟨_, g⟩ := y
        obtain ⟨_, g'⟩ := y'
        cases g <;> cases g' <;> rfl
  | write i off bytes =>
    simp only [Side.txStep]
    cases s.tx.owned[i]? with
    | none => rfl
    | some g => simp only [Option.isNone_map, writePayload_isNone m m']
  | sendNocopy i src dst size =>
    simp only [Side.txStep]
    split
    · rfl
    cases s.tx.owned[i]? with
    | none => rfl
    | some g =>
      dsimp only
      cases rpmsgLiteSendNocopy c.clear c.payloadSize s.dev m src dst (msgDataAt g.buffer) size with
      | none =>
        cases rpmsgLiteSendNocopy c.clear c.payloadSize s.dev m' src dst (msgDataAt g.buffer) size with
        | none => rfl
        | some y' => dsimp only; split <;> rfl
      | some y =>
        cases rpmsgLiteSendNocopy c.clear c.payloadSize s.dev m' src dst (msgDataAt g.buffer) size with
        | none => dsimp only; split <;> rfl
        | some y' => dsimp only; split <;> split <;> rfl

theorem Side.rxStep_isNone (m m' : ByteMem) (a : RxAct) : (s.rxStep c m a).isNone = (s.rxStep c m' a).isNone := by
  cases a with
  | rx =>
    simp only [Side.rxStep]
    split
    · rfl
    · cases rpmsgLiteRx c.clear s.dev m with
      | mk dev g => cases rpmsgLiteRx c.clear s.dev m' with
        | mk dev' g' => cases g <;> cases g' <;> rfl
  | read =>
    simp only [Side.rxStep]
    cases s.rx.hand <;> rfl
  | done hold =>
    simp only [Side.rxStep]
    cases s.rx.hand with
    | idle => rfl
    | taken g => rfl
    | seen g =>
      dsimp only
      cases rpmsgLiteRxDone c.clear s.dev m hold g <;> cases rpmsgLiteRxDone c.clear s.dev m' hold g <;> rfl
  | writeMsg off bytes =>
    simp only [Side.rxStep]
    cases s.rx.hand with
    | idle => rfl
    | taken g => rfl
    | seen g => simp only [Option.isNone_map, writePayload_isNone m m']
  | writeHeld i off bytes =>
    simp only [Side.rxStep]
    cases s.rx.held[i]? with
    | none => rfl
    | some g => simp only [Option.isNone_map, writePayload_isNone m m']
  | releaseRxBuffer i =>
    simp only [Side.rxStep]
    cases s.rx.held[i]? with
    | none => rfl
    | some g =>
      dsimp only
      cases rpmsgLiteReleaseRxBuffer c.clear s.dev m (msgDataAt g.buffer) <;>
        cases rpmsgLiteReleaseRxBuffer c.clear s.dev m' (msgDataAt g.buffer) <;> rfl

end Steps

section

variable {W : Pools} {s : Link} {P : ∀ r, Custody (W.pool r).ids} {c : LinkConfig} {r : Role} {v v' : ByteMem}
  {g : Got} {x : Side}

/-- Which buffer it is that a core has in its hands. -/
theorem LinkInv.key (h : LinkInv W s P) (hg : g ∈ (s.side r).gots) :
    ∃ q, g.idx ∈ (W.pool q).ids ∧ g = (W.pool q).got g.idx ∧
      (q = r ∧ g.idx ∈ (P q).sender ∨ q = r.peer ∧ g.idx ∈ (P q).receiver) := by
  rcases List.mem_append.1 hg with hg | hg
  · exact ⟨r, (h.flow r).tx_ids hg, (h.flow r).contents.txGot g hg, Or.inl ⟨rfl, (h.flow r).mem_tx hg⟩⟩
  · have hflow := h.flow r.peer
    rw [Role.peer_peer] at hflow
    exact ⟨r.peer, hflow.rx_ids hg, hflow.contents.rxGot g hg, Or.inr ⟨rfl, hflow.mem_rx hg⟩⟩

theorem BufferPool.got_span (B : BufferPool) (d : UInt16) : (B.got d).span = (B.buffer d, B.size) :=
  Prod.ext rfl B.toNat_size

/-- What a step without a new descriptor reads is the same in `v`. -/
structure Pools.Reads (W : Pools) (gots : List Got) (w v : ByteMem) : Prop where
  tables : ∀ r, (W.pool r).Reads w v
  bufs : ∀ g ∈ gots, Agree w v g.buffer (g.buffer + g.len.toNat)

theorem Sees.reads {gots : List Got} {w : ByteMem} (hv : Sees W gots w v) : W.Reads gots w v :=
  ⟨fun r => .of_agree (hv.tables r), hv.bufs⟩

theorem Pools.Reads.buffer {gots : List Got} {w : ByteMem} {B : BufferPool} (hv : W.Reads gots w v) (heq : g = B.got g.idx)
    (hg : g ∈ gots) : Agree w v (B.buffer g.idx) (B.buffer g.idx + B.size) := by
  have hb := hv.bufs g hg
  have hspan := B.got_span g.idx
  rw [← heq] at hspan
  rwa [show g.buffer = B.buffer g.idx from congrArg Prod.fst hspan, show g.len.toNat = B.size from congrArg Prod.snd hspan] at hb

theorem Side.step_isNone (s : Side) (m m' : ByteMem) (a : Act) : (s.step c m a).isNone = (s.step c m' a).isNone := by
  cases a with
  | tx a => exact Side.txStep_isNone m m' a
  | rx a => exact Side.rxStep_isNone m m' a
  | txCallback => rfl

/-- A step on memory in which what it reads is the same, and what it takes, if it takes a descriptor. -/
theorem LinkInv.reads_step (h : LinkInv W s P) (hpay : ∀ r, c.payloadSize + 16 ≤ (W.pool r).size)
    (hv : W.Reads (s.side r).gots s.m v) {a : Act}
    (htx : ∀ b, a = .tx b → b.takes = true → ((s.side r).dev.role.vqOps c.clear).vqTxAlloc (s.side r).dev.tvq v =
      ((s.side r).dev.role.vqOps c.clear).vqTxAlloc (s.side r).dev.tvq s.m)
    (hrx : ∀ b, a = .rx b → b.takes = true → ((s.side r).dev.role.vqOps c.clear).vqRx (s.side r).dev.rvq v =
      ((s.side r).dev.role.vqOps c.clear).vqRx (s.side r).dev.rvq s.m)
    (ha : (s.side r).step c v a = some (x, v')) :
    ∃ w', (s.side r).step c s.m a = some (x, w') ∧
      SameStores (fun b => Covers ((s.side r).stores c s.m a) b ∨ ∃ q, (W.pool q).vr.Ring b) v v' s.m w' := by
  have hin := h.flow r.peer
  rw [Role.peer_peer] at hin
  cases a with
  | tx a =>
    have hout := h.flow r
    obtain ⟨w', hw, hsame⟩ := hout.seen_tx (by rw [h.role r]) (hpay r) (hv.tables r)
      (fun g hg => hv.buffer (hout.contents.txGot g hg) (List.mem_append_left _ hg)) (htx a rfl) ha
    exact ⟨w', hw, hsame.mono fun b hb => hb.imp id fun hb => ⟨r, hb⟩⟩
  | rx a =>
    obtain ⟨w', hw, hsame⟩ := hin.seen_rx (by rw [h.role r]; simp) (hv.tables r.peer)
      (fun g hg => hv.buffer (hin.contents.rxGot g hg) (List.mem_append_right _ hg)) (hrx a rfl) ha
    exact ⟨w', hw, hsame.mono fun b hb => hb.imp id fun hb => ⟨r.peer, hb⟩⟩
  | txCallback =>
    cases ha
    exact ⟨s.m, rfl, .refl _ _ _⟩

/-- A step on what a core sees is the step on the memory. -/
theorem LinkInv.seen_step (h : LinkInv W s P) (hpay : ∀ r, c.payloadSize + 16 ≤ (W.pool r).size)
    (hv : Sees W (s.side r).gots s.m v) {a : Act} (ha : (s.side r).step c v a = some (x, v')) :
    ∃ w', (s.side r).step c s.m a = some (x, w') ∧
      SameStores (fun b => Covers ((s.side r).stores c s.m a) b ∨ ∃ q, (W.pool q).vr.Ring b) v v' s.m w' := by
  have hin := h.flow r.peer
  rw [Role.peer_peer] at hin
  exact h.reads_step hpay hv.reads
    (fun _ _ _ => (h.flow r).linked.txAlloc_eq c.clear (hv.tables r) (by rw [h.role r]))
    (fun _ _ _ => hin.linked.rx_eq c.clear (hv.tables r.peer) (by rw [h.role r]; simp)) ha

end

end RpmsgLite
