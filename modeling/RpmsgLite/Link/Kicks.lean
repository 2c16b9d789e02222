/-
What a kick and an interrupt read and no step of the link changes: the identity of a virtqueue (its
callback, flags, ring and queue index) and `used->flags` of its ring. So once a kick notifies the peer,
every later one does.
-/
import RpmsgLite.Init.UsedFlags
import RpmsgLite.Link.Delivery

namespace RpmsgLite

open ByteMem

/-! ## The identity of a virtqueue -/

/-- `vq'` is `vq` with other cursors and counters. -/
structure Virtqueue.SameQueue (vq vq' : Virtqueue) : Prop where
  callback : vq'.callback = vq.callback
  flags : vq'.flags = vq.flags
  ring : vq'.ring = vq.ring
  queueIndex : vq'.queueIndex = vq.queueIndex

namespace Virtqueue.SameQueue

variable {vq vq' vq'' : Virtqueue} {m m' : ByteMem} {clear : Bool} {r : Role} {buffer : Nat} {len : UInt32} {idx : UInt16}
  {g : Option Got}

theorem refl (vq : Virtqueue) : vq.SameQueue vq := ⟨rfl, rfl, rfl, rfl⟩

theorem trans (h : vq.SameQueue vq') (h' : vq'.SameQueue vq'') : vq.SameQueue vq'' :=
  ⟨h'.callback.trans h.callback, h'.flags.trans h.flags, h'.ring.trans h.ring, h'.queueIndex.trans h.queueIndex⟩

theorem vqGet (k : RingKind) (vq : Virtqueue) (m : ByteMem) : vq.SameQueue (vqGet k vq m).1 := by
  cases k with
  | avail =>
    show vq.SameQueue (virtqueueGetAvailableBuffer vq m).1
    unfold virtqueueGetAvailableBuffer
    split
    · exact refl vq
    · exact ⟨rfl, rfl, rfl, rfl⟩
  | used =>
    show vq.SameQueue (virtqueueGetBuffer vq m).1
    unfold virtqueueGetBuffer
    split
    · exact refl vq
    · exact ⟨rfl, rfl, rfl, rfl⟩

theorem vqTxAlloc (h : (r.vqOps clear).vqTxAlloc vq m = (vq', g)) : vq.SameQueue vq' := by
  rw [vqTxAlloc_eq] at h
  have hs := vqGet r.getKind vq m
  rwa [show vq' = (RpmsgLite.vqGet r.getKind vq m).1 from (congrArg Prod.fst h).symm]

theorem vqRx (r : Role) (clear : Bool) (vq : Virtqueue) (m : ByteMem) : vq.SameQueue ((r.vqOps clear).vqRx vq m).1 := by
  rw [vqRx_eq]
  exact vqGet r.getKind vq m

theorem vqTx (h : (r.vqOps clear).vqTx vq m buffer len idx = some (vq', m')) : vq.SameQueue vq' := by
  cases r with
  | master =>
    cases h
    exact ⟨rfl, rfl, rfl, rfl⟩
  | remote =>
    change vqTxRemote vq m buffer len idx = some (vq', m') at h
    unfold vqTxRemote at h
    split at h
    split at h
    · cases h
      exact refl vq
    · cases h

theorem vqRxFree (h : (r.vqOps clear).vqRxFree vq m buffer len idx = some (vq', m')) : vq.SameQueue vq' := by
  cases r with
  | master =>
    cases h
    exact ⟨rfl, rfl, rfl, rfl⟩
  | remote =>
    change vqRxFreeRemote clear vq m buffer len idx = some (vq', m') at h
    unfold vqRxFreeRemote at h
    generalize (if clear then m.fill buffer len.toNat 0 else m) = m1 at h
    dsimp only at h
    split at h
    · cases h
      exact refl vq
    · cases h

theorem kick (h : vq.SameQueue vq') (m : ByteMem) : vq.SameQueue (virtqueueKick vq' m).1 :=
  ⟨h.callback, h.flags, h.ring, h.queueIndex⟩

end Virtqueue.SameQueue

/-- Both virtqueues of a core. -/
structure RpmsgLiteInstance.SameQueues (dev dev' : RpmsgLiteInstance) : Prop where
  tvq : dev.tvq.SameQueue dev'.tvq
  rvq : dev.rvq.SameQueue dev'.rvq

theorem RpmsgLiteInstance.SameQueues.refl (dev : RpmsgLiteInstance) : dev.SameQueues dev := ⟨.refl _, .refl _⟩

section Identity

variable {c : LinkConfig} {x x' : Side} {m m' : ByteMem} {clear : Bool} {payloadSize : Nat} {dev dev' : RpmsgLiteInstance}
  {g : Got} {got : Option Got}

theorem rpmsgLiteSendAlloc_sameQueues {size : Nat} {res : Except Int Got}
    (h : rpmsgLiteSendAlloc clear payloadSize dev m size = (dev', res)) : dev.SameQueues dev' := by
  unfold rpmsgLiteSendAlloc at h
  split at h
  · cases h
    exact .refl _
  split at h
  · cases h
    exact .refl _
  split at h
  all_goals
    rename_i hg
    cases h
    exact ⟨.vqTxAlloc hg, .refl _⟩

theorem rpmsgLiteSendEnqueue_sameQueues (h : rpmsgLiteSendEnqueue clear dev m g = some (dev', m')) : dev.SameQueues dev' := by
  unfold rpmsgLiteSendEnqueue at h
  split at h
  · cases h
  · rename_i hg
    cases h
    exact ⟨(Virtqueue.SameQueue.vqTx hg).kick m', .refl _⟩

theorem rpmsgLiteAllocTxBuffer_sameQueues (h : rpmsgLiteAllocTxBuffer clear dev m = (dev', m', got)) :
    dev.SameQueues dev' := by
  unfold rpmsgLiteAllocTxBuffer at h
  split at h
  · cases h
    exact .refl _
  split at h
  all_goals
    rename_i hg
    cases h
    exact ⟨.vqTxAlloc hg, .refl _⟩

theorem rpmsgLiteSendNocopy_sameQueues {src dst : UInt32} {data size : Nat} {status : Int}
    (h : rpmsgLiteSendNocopy clear payloadSize dev m src dst data size = some (dev', m', status)) : dev.SameQueues dev' := by
  unfold rpmsgLiteSendNocopy at h
  split at h
  · cases h
    exact .refl _
  split at h
  · cases h
    exact .refl _
  simp only at h
  split at h
  · cases h
  · rename_i hg
    cases h
    exact ⟨(Virtqueue.SameQueue.vqTx hg).kick m', .refl _⟩

theorem rpmsgLiteRx_sameQueues (h : rpmsgLiteRx clear dev m = (dev', got)) : dev.SameQueues dev' := by
  cases h
  exact ⟨.refl _, .vqRx _ _ _ _⟩

theorem rpmsgLiteRxDone_sameQueues {hold : Bool} (h : rpmsgLiteRxDone clear dev m hold g = some (dev', m')) :
    dev.SameQueues dev' := by
  unfold rpmsgLiteRxDone at h
  split at h
  · cases h
    exact .refl _
  split at h
  · cases h
  · rename_i hg
    cases h
    exact ⟨.refl _, .vqRxFree hg⟩

theorem rpmsgLiteReleaseRxBuffer_sameQueues {rxbuf : Nat} (h : rpmsgLiteReleaseRxBuffer clear dev m rxbuf = some (dev', m')) :
    dev.SameQueues dev' := by
  unfold rpmsgLiteReleaseRxBuffer at h
  simp only at h
  split at h
  · cases h
  · rename_i hg
    cases h
    exact ⟨.refl _, .vqRxFree hg⟩

theorem Side.txStep_sameQueues {a : TxAct} (ha : x.txStep c m a = some (x', m')) : x.dev.SameQueues x'.dev := by
  cases Side.txStep_cases ha with
  | sendRefused _ h => exact rpmsgLiteSendAlloc_sameQueues h
  | send _ h => exact rpmsgLiteSendAlloc_sameQueues h
  | fill => exact .refl _
  | enqueueStuck => exact .refl _
  | enqueue _ _ h => exact rpmsgLiteSendEnqueue_sameQueues h
  | allocNone h => exact rpmsgLiteAllocTxBuffer_sameQueues h
  | allocTxBuffer h => exact rpmsgLiteAllocTxBuffer_sameQueues h
  | write => exact .refl _
  | nocopyStuck => exact .refl _
  | sendNocopy _ _ h => exact rpmsgLiteSendNocopy_sameQueues h
  | nocopyRefused _ _ h => exact rpmsgLiteSendNocopy_sameQueues h

theorem Side.rxStep_sameQueues {a : RxAct} (ha : x.rxStep c m a = some (x', m')) : x.dev.SameQueues x'.dev := by
  cases Side.rxStep_cases ha with
  | rxNone _ h => exact rpmsgLiteRx_sameQueues h
  | rx _ h => exact rpmsgLiteRx_sameQueues h
  | read => exact .refl _
  | doneStuck => exact .refl _
  | done _ h => exact rpmsgLiteRxDone_sameQueues h
  | writeMsg => exact .refl _
  | writeHeld => exact .refl _
  | releaseStuck => exact .refl _
  | release _ h => exact rpmsgLiteReleaseRxBuffer_sameQueues h

theorem Side.step_sameQueues {a : Act} (ha : x.step c m a = some (x', m')) : x.dev.SameQueues x'.dev := by
  cases a with
  | tx a => exact Side.txStep_sameQueues ha
  | rx a => exact Side.rxStep_sameQueues ha
  | txCallback =>
    cases ha
    exact ⟨.refl _, .refl _⟩

/-- No step of the link changes a virtqueue's identity. -/
theorem Link.step_sameQueues {s s' : Link} {r : Role} {a : Act} (hs : s.step c r a = some s') (q : Role) :
    (s.side q).dev.SameQueues (s'.side q).dev := by
  obtain ⟨x, m', ha, rfl⟩ := Link.step_cases hs
  by_cases hq : q = r
  · subst hq
    simp only [Function.update_self]
    exact Side.step_sameQueues ha
  · simp only [Function.update_of_ne hq]
    exact .refl _

end Identity

/-! ## The used flags -/

section Flags

variable {vq' : Virtqueue} {m m' : ByteMem} {clear : Bool} {r : Role} {buffer : Nat} {len : UInt32}

variable {B : BufferPool} {k : RingKind} {tvq rvq : Virtqueue} {t : TxHalf} {P : Custody B.ids} {c : LinkConfig}
  {s s' : Side} {x : RxHalf}

theorem Flow.usedFlags_of_store {d : UInt16} (hd : d ∈ B.ids) (hf : Frame m m' (B.buffer d) (B.buffer d + B.size)) :
    B.vr.usedFlags m' = B.vr.usedFlags m := by
  refine Vring.usedFlags_congr (Flow.tables_of_store hd hf) (B.laid.desc_le_ringLo .used) ?_
  simp only [Vring.usedEnd]
  omega

theorem Linked.vqTx_usedFlags (h : Linked B k m tvq rvq P) (hk : r.getKind = k) {d : UInt16} (hd : d ∈ B.ids)
    (ha : (r.vqOps clear).vqTx tvq m buffer len d = some (vq', m')) : B.vr.usedFlags m' = B.vr.usedFlags m := by
  rw [h.vqTx hk hd] at ha
  rw [← show (vqPut k.other tvq m d len).2 = m' from congrArg Prod.snd (Option.some.inj ha), ← h.tvq_ring]
  exact vqPut_usedFlags k.other h.tvq_wf m d len

theorem Linked.vqRxFree_usedFlags (h : Linked B k m tvq rvq P) (hk : r.getKind = k.other) {d : UInt16} (hd : d ∈ B.ids)
    (ha : (r.vqOps clear).vqRxFree rvq m (B.buffer d) (UInt32.ofNat B.size) d = some (vq', m')) :
    B.vr.usedFlags m' = B.vr.usedFlags m := by
  rw [vqRxFree_eq r clear m (B.buffer d) (UInt32.ofNat B.size) (h.swap.le_nentries hd), hk, RingKind.other_other,
    B.toNat_size] at ha
  have hfill : B.vr.usedFlags (if clear then m.fill (B.buffer d) B.size 0 else m) = B.vr.usedFlags m := by
    cases clear
    · rfl
    · exact Flow.usedFlags_of_store hd (frame_fill _ _ _ _)
  rw [← hfill, ← show _ = m' from congrArg Prod.snd (Option.some.inj ha), ← h.rvq_ring]
  exact vqPut_usedFlags k h.rvq_wf _ d _

section Functions

variable {dev dev' : RpmsgLiteInstance} {payloadSize : Nat} {g : Got}

theorem Flow.allocTxBuffer_usedFlags {got : Option Got} (h : Flow B k m dev.tvq rvq t x P) (hk : dev.role.getKind = k)
    (ha : rpmsgLiteAllocTxBuffer clear dev m = (dev', m', got)) : B.vr.usedFlags m' = B.vr.usedFlags m := by
  unfold rpmsgLiteAllocTxBuffer at ha
  split at ha
  · cases ha
    rfl
  rcases h.linked.txAlloc clear hk with hn | ⟨d, f, hfree, hget, -⟩
  · rw [hn] at ha
    cases ha
    rfl
  · rw [hget] at ha
    cases ha
    have hsz := B.size_ge
    have hst := frame_st16 m (hdrIdxAt (B.buffer d)) d
    exact Flow.usedFlags_of_store (P.mem_free (hfree ▸ List.mem_cons_self))
      (hst.mono (by simp only [hdrIdxAt]; omega) (by simp only [hdrIdxAt]; omega))

theorem Flow.sendEnqueue_usedFlags (h : Flow B k m dev.tvq rvq t x P) (hk : dev.role.getKind = k) (hg : g ∈ t.gots)
    (ha : rpmsgLiteSendEnqueue clear dev m g = some (dev', m')) : B.vr.usedFlags m' = B.vr.usedFlags m := by
  unfold rpmsgLiteSendEnqueue at ha
  split at ha
  · cases ha
  · rename_i hput
    cases ha
    exact h.linked.vqTx_usedFlags hk (h.tx_ids hg) hput

theorem Flow.sendNocopy_usedFlags {src dst : UInt32} {size : Nat} {status : Int} (h : Flow B k m dev.tvq rvq t x P)
    (hk : dev.role.getKind = k) (hg : g ∈ t.owned)
    (ha : rpmsgLiteSendNocopy clear payloadSize dev m src dst (msgDataAt g.buffer) size = some (dev', m', status)) :
    B.vr.usedFlags m' = B.vr.usedFlags m := by
  unfold rpmsgLiteSendNocopy at ha
  split at ha
  · cases ha
    rfl
  split at ha
  · cases ha
    rfl
  have hgot : g ∈ t.gots := List.mem_append_right _ hg
  have hbuf : g.buffer = B.buffer g.idx := congrArg Got.buffer (h.contents.txGot _ hgot)
  have hsz := B.size_ge
  -- the header first, then the put
  obtain ⟨hf, hidx, -⟩ := writeHdr_spec m (B.buffer g.idx) src dst size
  rw [show msgFromBuf (msgDataAt g.buffer) = B.buffer g.idx by rw [hbuf]; exact Nat.add_sub_cancel _ _] at ha
  replace hf := hf.mono le_rfl (show B.buffer g.idx + 16 ≤ B.buffer g.idx + B.size by omega)
  have hhdr := Flow.usedFlags_of_store (h.tx_ids hgot) hf
  obtain ⟨-, h1⟩ := h.storeOwned hg hf hidx
  simp only [h1.contents.txKept g hg] at ha
  split at ha
  · cases ha
  · rename_i hput
    cases ha
    exact (h1.linked.vqTx_usedFlags hk (h1.tx_ids hgot) hput).trans hhdr

theorem Flow.rxDone_usedFlags {hold : Bool} {y : RxHalf} (h : Flow B k m tvq dev.rvq t y P)
    (hk : dev.role.getKind = k.other) (hg : g ∈ y.gots) (ha : rpmsgLiteRxDone clear dev m hold g = some (dev', m')) :
    B.vr.usedFlags m' = B.vr.usedFlags m := by
  have heq := h.contents.rxGot g hg
  have hbuf : g.buffer = B.buffer g.idx := congrArg Got.buffer heq
  have hsz := B.size_ge
  unfold rpmsgLiteRxDone at ha
  split at ha
  · cases ha
    have hst := frame_st16 m (hdrIdxAt g.buffer) g.idx
    rw [hbuf] at hst ⊢
    exact Flow.usedFlags_of_store (h.rx_ids hg)
      (hst.mono (by simp only [hdrIdxAt]; omega) (by simp only [hdrIdxAt]; omega))
  · rw [hbuf, show g.len = UInt32.ofNat B.size from congrArg Got.len heq] at ha
    split at ha
    · cases ha
    · rename_i hput
      cases ha
      exact h.linked.vqRxFree_usedFlags hk (h.rx_ids hg) hput

theorem Flow.release_usedFlags {y : RxHalf} (h : Flow B k m tvq dev.rvq t y P) (hk : dev.role.getKind = k.other)
    (hg : g ∈ y.held) (ha : rpmsgLiteReleaseRxBuffer clear dev m (msgDataAt g.buffer) = some (dev', m')) :
    B.vr.usedFlags m' = B.vr.usedFlags m := by
  have hgot : g ∈ y.gots := List.mem_append_right _ hg
  have hbuf : g.buffer = B.buffer g.idx := congrArg Got.buffer (h.contents.rxGot g hgot)
  unfold rpmsgLiteReleaseRxBuffer at ha
  rw [show msgFromBuf (msgDataAt g.buffer) = B.buffer g.idx by rw [hbuf]; exact Nat.add_sub_cancel _ _] at ha
  simp only [h.contents.rxKept g hg, h.linked.swap.bufferLength (h.rx_ids hgot)] at ha
  split at ha
  · cases ha
  · rename_i hput
    cases ha
    exact h.linked.vqRxFree_usedFlags hk (h.rx_ids hgot) hput

end Functions

/-- A transmit step leaves the flags of its own vring alone. -/
theorem Flow.txStep_usedFlags (h : Flow B k m s.dev.tvq rvq s.tx x P) (hk : s.dev.role.getKind = k) {a : TxAct}
    (ha : s.txStep c m a = some (s', m')) : B.vr.usedFlags m' = B.vr.usedFlags m := by
  have hc := h.contents
  cases Side.txStep_cases ha with
  | sendRefused => rfl
  | send => rfl
  | @fill i e hi =>
    have he : e ∈ s.tx.sending := List.mem_of_getElem? hi
    have hgot : e.got ∈ s.tx.gots := List.mem_append_left _ (List.mem_map_of_mem he)
    have hbuf : e.got.buffer = B.buffer e.id := congrArg Got.buffer (hc.txGot _ hgot)
    have hfits := hc.fits e he
    obtain ⟨hf, -⟩ := rpmsgLiteFormatMessage_spec m e.got e.src e.dst e.data
    rw [hbuf] at hf
    exact Flow.usedFlags_of_store (show e.id ∈ B.ids from h.tx_ids hgot) (hf.mono le_rfl (by omega))
  | enqueueStuck => rfl
  | enqueue hi _ henq =>
    exact h.sendEnqueue_usedFlags hk (List.mem_append_left _ (List.mem_map_of_mem (List.mem_of_getElem? hi))) henq
  | allocNone halloc => exact h.allocTxBuffer_usedFlags hk halloc
  | allocTxBuffer halloc => exact h.allocTxBuffer_usedFlags hk halloc
  | @write i off bytes g m' hi hw =>
    have hgot : g ∈ s.tx.gots := List.mem_append_right _ (List.mem_of_getElem? hi)
    exact Flow.usedFlags_of_store (h.tx_ids hgot) (writePayload_spec (hc.txGot g hgot) hw).1
  | nocopyStuck => rfl
  | sendNocopy _ hi hsend => exact h.sendNocopy_usedFlags hk (List.mem_of_getElem? hi) hsend
  | nocopyRefused _ hi hsend => exact h.sendNocopy_usedFlags hk (List.mem_of_getElem? hi) hsend

/-- A receive step leaves the flags of the peer's vring alone. -/
theorem Flow.rxStep_usedFlags (h : Flow B k m tvq s.dev.rvq t s.rx P) (hk : s.dev.role.getKind = k.other) {a : RxAct}
    (ha : s.rxStep c m a = some (s', m')) : B.vr.usedFlags m' = B.vr.usedFlags m := by
  have hc := h.contents
  have hseen : ∀ {g}, s.rx.hand = .seen g → g ∈ s.rx.gots := fun hhand =>
    List.mem_append_left _ (by rw [hhand]; exact List.mem_cons_self)
  cases Side.rxStep_cases ha with
  | rxNone => rfl
  | rx => rfl
  | read => rfl
  | doneStuck => rfl
  | done hhand hdone => exact h.rxDone_usedFlags hk (hseen hhand) hdone
  | @writeMsg off bytes g m' hhand hw =>
    exact Flow.usedFlags_of_store (h.rx_ids (hseen hhand)) (writePayload_spec (hc.rxGot g (hseen hhand)) hw).1
  | @writeHeld i off bytes g m' hi hw =>
    have hgot : g ∈ s.rx.gots := List.mem_append_right _ (List.mem_of_getElem? hi)
    exact Flow.usedFlags_of_store (h.rx_ids hgot) (writePayload_spec (hc.rxGot g hgot) hw).1
  | releaseStuck => rfl
  | release hi hrelease => exact h.release_usedFlags hk (List.mem_of_getElem? hi) hrelease

end Flags

/-! ## Kicks -/

section

variable {W : Pools} {c : LinkConfig} {s s' : Link} {P : ∀ r, Custody (W.pool r).ids} {r : Role}

/-- No step of the link changes the used flags of a vring. -/
theorem LinkInv.usedFlags (h : LinkInv W s P) (hpay : ∀ r, c.payloadSize + 16 ≤ (W.pool r).size) {a : Act}
    (hs : s.step c r a = some s') (q : Role) : (W.pool q).vr.usedFlags s'.m = (W.pool q).vr.usedFlags s.m := by
  obtain ⟨x, m', ha, rfl⟩ := Link.step_cases hs
  have hother : ∀ {q}, (W.pool q).Same s.m m' → (W.pool q).vr.usedFlags m' = (W.pool q).vr.usedFlags s.m := by
    intro q hsame
    refine Vring.usedFlags_congr hsame.tables ((W.pool q).laid.desc_le_ringLo .used) ?_
    simp only [Vring.usedEnd]
    omega
  cases a with
  | tx a =>
    rcases r.eq_or_peer q with rfl | rfl
    · exact (h.flow q).txStep_usedFlags (by rw [h.role q]) ha
    · obtain ⟨-, -, ht, -⟩ := (h.flow r).txStep (by rw [h.role r]) (hpay r) ha
      exact hother (ht.same (W.peer r))
  | rx a =>
    have hin := h.flow r.peer
    rw [Role.peer_peer] at hin
    rcases r.eq_or_peer q with rfl | rfl
    · obtain ⟨-, -, ht, -⟩ := hin.rxStep (by rw [h.role q]; simp) ha
      have hsep := W.peer q.peer
      rw [Role.peer_peer] at hsep
      exact hother (ht.same hsep)
    · exact hin.rxStep_usedFlags (by rw [h.role r]; simp) ha
  | txCallback =>
    cases ha
    rfl

/-! ## When a queue fills and empties -/

/-- How many messages the receive callback has taken. -/
def RxHalf.took (x : RxHalf) : Nat := x.recv.length + x.hand.unread.length

theorem Side.rxStep_took {x x' : Side} {m m' : ByteMem} {a : RxAct} (ha : x.rxStep c m a = some (x', m')) :
    x.rx.took ≤ x'.rx.took := by
  cases Side.rxStep_cases ha with
  | rxNone => exact le_rfl
  | rx hidle =>
    simp only [RxHalf.took, hidle, RxHand.unread, List.length_nil, List.length_singleton]
    omega
  | read hhand =>
    simp only [RxHalf.took, hhand, RxHand.unread, List.length_append, List.length_nil, List.length_singleton]
    omega
  | doneStuck => exact le_rfl
  | done hhand =>
    simp only [RxHalf.took, hhand, RxHand.unread, List.length_nil]
    omega
  | writeMsg => exact le_rfl
  | writeHeld => exact le_rfl
  | releaseStuck => exact le_rfl
  | release => exact le_rfl

/-- The messages in a queue are those sent and not yet taken. -/
theorem LinkInv.queue_length (h : LinkInv W s P) (q : Role) :
    (s.side q).tx.sent.length = (s.side q.peer).rx.took + (s.queueIds q).length := by
  have hfifo := congrArg List.length (h.flow q).contents.fifo
  simp only [List.length_map, List.length_append, RxHalf.inflight] at hfifo
  rw [h.queueIds, RxHalf.took]
  omega

/-- Only an enqueue of its sender puts something into an empty queue. -/
theorem LinkInv.queue_fills (h : LinkInv W s P) (hpay : ∀ r, c.payloadSize + 16 ≤ (W.pool r).size) {a : Act}
    (hs : s.step c r a = some s') {q : Role} (hq : s.queueIds q = []) (hq' : s'.queueIds q ≠ []) :
    q = r ∧ (s'.side r).tx.sent.length ≠ (s.side r).tx.sent.length := by
  obtain ⟨P', hinv', -⟩ := h.step hpay hs
  have hlen := h.queue_length q
  have hlen' := hinv'.queue_length q
  rw [hq, List.length_nil] at hlen
  have hpos := List.length_pos_of_ne_nil hq'
  obtain ⟨x, m', ha, rfl⟩ := Link.step_cases hs
  simp only at hlen' hpos ⊢
  rcases r.eq_or_peer q with rfl | rfl
  · rw [Function.update_of_ne (Role.peer_ne q)] at hlen'
    exact ⟨rfl, by omega⟩
  · rw [Function.update_of_ne (Role.peer_ne r), Role.peer_peer, Function.update_self] at hlen'
    rw [Role.peer_peer] at hlen
    have htook : (s.side r).rx.took ≤ x.rx.took := by
      cases a with
      | tx a => rw [Side.txStep_rx ha]
      | rx a => exact Side.rxStep_took ha
      | txCallback =>
        cases ha
        exact le_rfl
    omega

/-- When `vq_rx` returns NULL the queue is empty. -/
theorem LinkInv.rx_empty (h : LinkInv W s P) (hpay : ∀ r, c.payloadSize + 16 ≤ (W.pool r).size)
    (hs : s.step c r (.rx .rx) = some s') (hhand : (s'.side r).rx.hand = .idle) : s'.queueIds r.peer = [] := by
  have hempty : s.queueIds r.peer = [] := by
    rw [h.queueIds]
    have hflow := h.flow r.peer
    rw [Role.peer_peer] at hflow
    obtain ⟨x, m', ha, rfl⟩ := Link.step_cases hs
    simp only [Function.update_self] at hhand
    rcases hflow.linked.rxTake c.clear (r := r) (by rw [Role.getKind_peer, RingKind.other_other]) with ⟨hnil, -⟩ |
      ⟨d, q, -, hget, -⟩
    · exact hnil
    · change (s.side r).rxStep c s.m .rx = some (x, m') at ha
      simp only [Side.rxStep, rpmsgLiteRx, h.role, hget] at ha
      split at ha
      · cases ha
      · cases ha
        cases hhand
  -- a queue that was empty is filled by its sender only
  by_contra hne
  exact Role.peer_ne r (h.queue_fills hpay hs hempty hne).1

/-! ## Virtqueues and vectors -/

/-- The virtqueues of a core. -/
inductive Queue | rvq | tvq
deriving DecidableEq

/-- The queue of the peer on the same vring. -/
def Queue.across : Queue → Queue
  | .rvq => .tvq
  | .tvq => .rvq

def RpmsgLiteInstance.queue (dev : RpmsgLiteInstance) : Queue → Virtqueue
  | .rvq => dev.rvq
  | .tvq => dev.tvq

/-- What `virtqueue_notify` passes to `platform_notify`. -/
def RpmsgLiteInstance.vector (dev : RpmsgLiteInstance) (q : Queue) : UInt32 := (dev.queue q).queueIndex.toUInt32

/-- How the initialisations connect the virtqueues: a vring has one index on both cores, the two vrings
have different ones, and the receive queue has the receive callback. -/
structure Link.Wired (l : Link) : Prop where
  across : ∀ r q, (l.side r.peer).dev.vector q.across = (l.side r).dev.vector q
  distinct : ∀ r, (l.side r).dev.vector .rvq ≠ (l.side r).dev.vector .tvq
  rvq : ∀ r, (l.side r).dev.rvq.callback = .rxCallback
  tvq : ∀ r, (l.side r).dev.tvq.callback = .txCallback
  flags : ∀ r q, ((l.side r).dev.queue q).flags = 0

theorem RpmsgLiteInstance.SameQueues.queue {dev dev' : RpmsgLiteInstance} (h : dev.SameQueues dev') (q : Queue) :
    (dev.queue q).SameQueue (dev'.queue q) := by
  cases q with
  | rvq => exact h.rvq
  | tvq => exact h.tvq

theorem RpmsgLiteInstance.SameQueues.vector {dev dev' : RpmsgLiteInstance} (h : dev.SameQueues dev') (q : Queue) :
    dev'.vector q = dev.vector q := congrArg UInt16.toUInt32 (h.queue q).queueIndex

theorem Link.Wired.step {a : Act} (h : s.Wired) (hs : s.step c r a = some s') : s'.Wired := by
  have hq := Link.step_sameQueues hs
  refine ⟨fun q z => ?_, fun q => ?_, fun q => ?_, fun q => ?_, fun q z => ?_⟩
  · rw [(hq q.peer).vector, (hq q).vector]; exact h.across q z
  · rw [(hq q).vector, (hq q).vector]; exact h.distinct q
  · rw [(hq q).rvq.callback]; exact h.rvq q
  · rw [(hq q).tvq.callback]; exact h.tvq q
  · rw [((hq q).queue z).flags]; exact h.flags q z

/-- The invariant of the link with what its notifications need. -/
structure Link.Notifying (W : Pools) (l : Link) : Prop where
  inv : ∃ P, LinkInv W l P
  wired : l.Wired
  notifies : ∀ r, (W.pool r).vr.Notifies l.m

theorem Link.Notifying.step {a : Act} (h : s.Notifying W) (hpay : ∀ r, c.payloadSize + 16 ≤ (W.pool r).size)
    (hs : s.step c r a = some s') : s'.Notifying W := by
  obtain ⟨P, hinv⟩ := h.inv
  obtain ⟨P', hinv', -⟩ := hinv.step hpay hs
  refine ⟨⟨P', hinv'⟩, h.wired.step hs, fun q => ?_⟩
  unfold Vring.Notifies
  rw [hinv.usedFlags hpay hs q]
  exact h.notifies q

/-- The flags of every ring ask for notifications. -/
theorem Link.Notifying.ring (h : s.Notifying W) (r : Role) (q : Queue) : ((s.side r).dev.queue q).ring.Notifies s.m := by
  obtain ⟨P, hinv⟩ := h.inv
  cases q with
  | rvq =>
    have hflow := hinv.flow r.peer
    rw [Role.peer_peer] at hflow
    have hring : ((s.side r).dev.queue .rvq).ring = _ := hflow.linked.rvq_ring
    rw [hring]
    exact h.notifies r.peer
  | tvq =>
    have hring : ((s.side r).dev.queue .tvq).ring = _ := (hinv.flow r).linked.tvq_ring
    rw [hring]
    exact h.notifies r

/-- Every kick of every virtqueue notifies. -/
theorem Link.Notifying.must (h : s.Notifying W) (r : Role) (q : Queue) :
    vqRingMustNotifyHost ((s.side r).dev.queue q) s.m = true := by
  unfold vqRingMustNotifyHost
  rw [if_neg (by rw [h.wired.flags r q]; decide)]
  exact decide_eq_true (h.ring r q)

/-! ## From the initialisations -/

/-- The two vectors of a link differ. -/
theorem rlGetVqId_ne (linkId : UInt32) : (rlGetVqId linkId 0).toUInt32 ≠ (rlGetVqId linkId 1).toUInt32 := by
  have heven : ((linkId <<< (1 : UInt32)) &&& (0xFFFFFFFE : UInt32)).toNat % 2 ≠ 1 := by
    rw [UInt32.toNat_and, Ne, Nat.and_mod_two_eq_one]
    rintro ⟨-, h⟩
    cases h
  unfold rlGetVqId
  generalize (linkId <<< (1 : UInt32)) &&& (0xFFFFFFFE : UInt32) = y at heven
  intro h
  have h := congrArg UInt32.toNat h
  simp only [UInt16.toNat_toUInt32, UInt32.toNat_toUInt16, UInt32.toNat_or] at h
  -- the low bit tells the two ids apart, and 16 bits keep it
  have h0 : (0 ||| y.toNat) % 2 ≠ 1 := by rwa [Nat.zero_or]
  have h1 : (1 ||| y.toNat) % 2 = 1 := Nat.or_mod_two_eq_one.2 (Or.inl rfl)
  change (0 ||| y.toNat) % 2 ^ 16 = (1 ||| y.toNat) % 2 ^ 16 at h
  omega

/-- The number of the vring behind a virtqueue. -/
def Queue.vring : Role → Queue → Nat
  | .master, .rvq => 0
  | .master, .tvq => 1
  | .remote, .rvq => 1
  | .remote, .tvq => 0

theorem Link.start_vector {w : Nat} {addr : Nat} {env envR : InitEnv} {highestM highestR linkId : UInt32} {cfg : ShmemConfig}
    {length : Nat} {m m' : ByteMem} {dm dr : RpmsgLiteInstance}
    (hm : rpmsgLiteMasterInit w env highestM cfg addr length linkId m = .instance dm m')
    (hr : rpmsgLiteRemoteInit w envR highestR cfg addr linkId = some dr) (r : Role) (q : Queue) :
    ((Link.start m' dm dr).side r).dev.vector q = (rlGetVqId linkId (Queue.vring r q)).toUInt32 := by
  obtain ⟨pm, count, hrun⟩ := masterInit_run hm
  obtain ⟨pr, -, -, htvq, hrvq, -⟩ := remoteInit_shape hr
  obtain ⟨h0, c0, e0⟩ := hrun.shape.rvq
  obtain ⟨h1, c1, e1⟩ := hrun.shape.tvq
  cases r with
  | master =>
    cases q with
    | rvq => exact congrArg (fun vq : Virtqueue => vq.queueIndex.toUInt32) e0
    | tvq => exact congrArg (fun vq : Virtqueue => vq.queueIndex.toUInt32) e1
  | remote =>
    cases q with
    | rvq => exact congrArg (fun vq : Virtqueue => vq.queueIndex.toUInt32) hrvq
    | tvq => exact congrArg (fun vq : Virtqueue => vq.queueIndex.toUInt32) htvq

/-- Both initialisations connect the virtqueues. -/
theorem wired_start {w : Nat} {addr : Nat} {env envR : InitEnv} {highestM highestR linkId : UInt32} {cfg : ShmemConfig}
    {length : Nat} {m m' : ByteMem} {dm dr : RpmsgLiteInstance}
    (hm : rpmsgLiteMasterInit w env highestM cfg addr length linkId m = .instance dm m')
    (hr : rpmsgLiteRemoteInit w envR highestR cfg addr linkId = some dr) : (Link.start m' dm dr).Wired := by
  have hvec := Link.start_vector hm hr
  obtain ⟨pm, count, hrun⟩ := masterInit_run hm
  obtain ⟨pr, -, -, htvq, hrvq, -⟩ := remoteInit_shape hr
  obtain ⟨h0, c0, e0⟩ := hrun.shape.rvq
  obtain ⟨h1, c1, e1⟩ := hrun.shape.tvq
  refine ⟨fun r q => ?_, fun r => ?_, fun r => ?_, fun r => ?_, fun r q => ?_⟩
  · rw [hvec, hvec]
    cases r <;> cases q <;> rfl
  · rw [hvec, hvec]
    cases r with
    | master => exact rlGetVqId_ne linkId
    | remote => exact (rlGetVqId_ne linkId).symm
  · cases r with
    | master => exact congrArg Virtqueue.callback e0
    | remote => exact congrArg Virtqueue.callback hrvq
  · cases r with
    | master => exact congrArg Virtqueue.callback e1
    | remote => exact congrArg Virtqueue.callback htvq
  · cases r with
    | master =>
      cases q with
      | rvq => exact congrArg Virtqueue.flags e0
      | tvq => exact congrArg Virtqueue.flags e1
    | remote =>
      cases q with
      | rvq => exact congrArg Virtqueue.flags hrvq
      | tvq => exact congrArg Virtqueue.flags htvq

/-- From a ready start whose notification flags are clear, every kick will notify. -/
theorem notifying_start {w : Nat} {p : ShmemParams} {addr : Nat} {env envR : InitEnv} {highestM highestR linkId : UInt32}
    {cfg : ShmemConfig} {length : Nat} {m m' : ByteMem} {dm dr : RpmsgLiteInstance}
    (hm : rpmsgLiteMasterInit w env highestM cfg addr length linkId m = .instance dm m')
    (hr : rpmsgLiteRemoteInit w envR highestR cfg addr linkId = some dr) (hlen : addr + length ≤ 2 ^ 32)
    (hp : masterParams w cfg = some p) (hok : LinkReady w cfg addr p m)
    (hn : ∀ idx < 2, NotifyCleared m (vringOf w p addr idx) (zeroedSize w p)) :
    (Link.start m' dm dr).Notifying hok.layout.pools := by
  refine ⟨linkInv_start hm hr hlen hp hok, wired_start hm hr, ?_⟩
  obtain ⟨pm, count, hrun⟩ := masterInit_run hm
  obtain rfl : pm = p := Option.some.inj (hrun.params.symm.trans hp)
  have hwrap : MaskArith.wrap 32 count = count :=
    MaskArith.wrap_of_lt (by have := calc_le hrun.calc_eq; have := hrun.addr_ne; omega)
  obtain ⟨n0, n1⟩ := hrun.notifies hok.layout (by rw [hwrap]; have := hrun.enough; omega)
  intro r
  cases r with
  | master => exact n1.2 (hn 1 (by decide))
  | remote => exact n0.2 (hn 0 (by decide))

end

end RpmsgLite
