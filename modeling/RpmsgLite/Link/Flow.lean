/-
One direction of the link. `Flow` is the whole invariant of the vring a core sends on: custody of the
descriptors, ring contents and buffer contents. Every step of the sending core and every step of the
receiving core is one move of the custody, stays inside the pool's bytes and keeps the invariant.
-/
import RpmsgLite.Link.Contents

namespace RpmsgLite

open ByteMem

/-- The invariant of one direction: `tvq` and `t` belong to the sender, `rvq` and `x` to the receiver. -/
structure Flow (B : BufferPool) (k : RingKind) (m : ByteMem) (tvq rvq : Virtqueue) (t : TxHalf) (x : RxHalf)
    (P : Custody B.ids) : Prop where
  linked : Linked B k m tvq rvq P
  sender : P.sender = (t.gots.map Got.idx : List UInt16)
  receiver : P.receiver = (x.gots.map Got.idx : List UInt16)
  contents : Contents B m t x P.queue

theorem coe_eraseIdx {α β : Type} (f : α → β) {l : List α} {i : Nat} {a : α} (h : l[i]? = some a) :
    ((l.map f : List β) : Multiset β) = f a ::ₘ ((l.eraseIdx i).map f : List β) := by
  obtain ⟨hi, rfl⟩ := List.getElem?_eq_some_iff.1 h
  rw [Multiset.cons_coe, Multiset.coe_eq_coe, ← List.map_cons]
  exact ((List.getElem_cons_eraseIdx_perm hi).map f).symm

theorem mem_eraseIdx_or {α : Type} {l : List α} {i : Nat} {a k : α} (h : l[i]? = some a) (hk : k ∈ l) :
    k = a ∨ k ∈ l.eraseIdx i := by
  obtain ⟨hi, rfl⟩ := List.getElem?_eq_some_iff.1 h
  have hperm := List.getElem_cons_eraseIdx_perm hi
  exact List.mem_cons.1 (hperm.symm.subset hk)

namespace Flow

variable {B : BufferPool} {k : RingKind} {m m' : ByteMem} {tvq rvq : Virtqueue} {t t' : TxHalf} {x x' : RxHalf}
  {P : Custody B.ids} {d : UInt16}

/-! ## Who holds what -/

theorem mem_tx (h : Flow B k m tvq rvq t x P) {g : Got} (hg : g ∈ t.gots) : g.idx ∈ P.sender := by
  rw [h.sender]; exact Multiset.mem_coe.2 (List.mem_map_of_mem hg)

theorem mem_rx (h : Flow B k m tvq rvq t x P) {g : Got} (hg : g ∈ x.gots) : g.idx ∈ P.receiver := by
  rw [h.receiver]; exact Multiset.mem_coe.2 (List.mem_map_of_mem hg)

/-- The descriptors in the two cores' hands and the queued messages are distinct. -/
theorem nodup (h : Flow B k m tvq rvq t x P) :
    (t.gots.map Got.idx ++ (P.queue ++ x.gots.map Got.idx)).Nodup := by
  have := P.nodup B.ids_nodup
  rw [h.sender, h.receiver, add_assoc, Multiset.coe_add, Multiset.coe_add, Multiset.coe_nodup] at this
  exact this

theorem tx_nodup (h : Flow B k m tvq rvq t x P) : (t.sending.map Sending.id ++ t.owned.map Got.idx).Nodup := by
  have := (List.nodup_append.1 h.nodup).1
  rwa [TxHalf.gots, List.map_append, List.map_map] at this

theorem rx_nodup (h : Flow B k m tvq rvq t x P) : (x.hand.got.map Got.idx ++ x.held.map Got.idx).Nodup := by
  have := (List.nodup_append.1 (List.nodup_append.1 h.nodup).2.1).2.1
  rwa [RxHalf.gots, List.map_append] at this

/-- What the sender holds is not inflight. -/
theorem tx_not_inflight (h : Flow B k m tvq rvq t x P) {g : Got} (hg : g ∈ t.gots) : g.idx ∉ x.inflight P.queue := by
  intro hd
  refine (List.nodup_append.1 h.nodup).2.2 _ (List.mem_map_of_mem hg) g.idx ?_ rfl
  rcases List.mem_append.1 hd with hd | hd
  · obtain ⟨e, he, hid⟩ := List.mem_map.1 hd
    exact List.mem_append_right _ (hid ▸ List.mem_map_of_mem (List.mem_append_left _ (RxHand.unread_sub he)))
  · exact List.mem_append_left _ hd

/-- What the receiver holds, apart from an unread message, is not inflight. -/
theorem rx_not_inflight (h : Flow B k m tvq rvq t x P) {g : Got} (hg : g ∈ x.gots) (hu : x.hand.unread = [] ∨ g ∈ x.held) :
    g.idx ∉ x.inflight P.queue := by
  intro hd
  rcases List.mem_append.1 hd with hd | hd
  · rcases hu with hu | hg
    · rw [hu] at hd; cases hd
    · have hn := (List.nodup_append.1 h.rx_nodup).2.2
      obtain ⟨e, he, hid⟩ := List.mem_map.1 hd
      exact hn e.idx (List.mem_map_of_mem (RxHand.unread_sub he)) g.idx (List.mem_map_of_mem hg) hid
  · exact (List.nodup_append.1 (List.nodup_append.1 h.nodup).2.1).2.2 _ hd _ (List.mem_map_of_mem hg) rfl

theorem tx_not_rx (h : Flow B k m tvq rvq t x P) {g : Got} (hg : g ∈ t.gots) : g.idx ∉ P.receiver := by
  intro hr
  rw [h.receiver] at hr
  exact (List.nodup_append.1 h.nodup).2.2 _ (List.mem_map_of_mem hg) g.idx
    (List.mem_append_right _ (Multiset.mem_coe.1 hr)) rfl

/-- Distinct entries have distinct descriptors. -/
theorem sending_inj (h : Flow B k m tvq rvq t x P) {e e' : Sending} (he : e ∈ t.sending) (he' : e' ∈ t.sending)
    (hid : e.id = e'.id) : e = e' :=
  List.inj_on_of_nodup_map (List.nodup_append.1 h.tx_nodup).1 he he' hid

theorem sending_ne_owned (h : Flow B k m tvq rvq t x P) {e : Sending} {g : Got} (he : e ∈ t.sending) (hg : g ∈ t.owned) :
    e.id ≠ g.idx :=
  (List.nodup_append.1 h.tx_nodup).2.2 _ (List.mem_map_of_mem he) _ (List.mem_map_of_mem hg)

theorem held_ne_hand (h : Flow B k m tvq rvq t x P) {g e : Got} (hg : g ∈ x.hand.got) (he : e ∈ x.held) :
    g.idx ≠ e.idx :=
  (List.nodup_append.1 h.rx_nodup).2.2 _ (List.mem_map_of_mem hg) _ (List.mem_map_of_mem he)

theorem tx_ids (h : Flow B k m tvq rvq t x P) {g : Got} (hg : g ∈ t.gots) : g.idx ∈ B.ids := P.mem_sender (h.mem_tx hg)

theorem rx_ids (h : Flow B k m tvq rvq t x P) {g : Got} (hg : g ∈ x.gots) : g.idx ∈ B.ids := P.mem_receiver (h.mem_rx hg)

/-! ## Changes of the memory -/

/-- A store into the buffer of `d` leaves the tables alone. -/
theorem tables_of_store (hd : d ∈ B.ids) (hf : Frame m m' (B.buffer d) (B.buffer d + B.size)) :
    Agree m m' B.vr.desc B.vr.usedEnd := by
  obtain ⟨-, h1, h2⟩ := BufferPool.buffer_bounds hd
  have hap := B.apart
  unfold Apart at hap
  unfold BufferPool.bufLo BufferPool.bufHi at *
  exact hf.agree (by omega)

/-- A store into a ring leaves the buffers alone. -/
theorem bufs_of_ring {kk : RingKind} (hf : Frame m m' (B.vr.ringLo kk) (B.vr.ringHi kk)) (hd : d ∈ B.ids) :
    Agree m m' (B.buffer d) (B.buffer d + B.size) := by
  obtain ⟨-, h1, h2⟩ := BufferPool.buffer_bounds hd
  have hap := B.apart
  have hlo := B.laid.desc_le_ringLo kk
  have hhi := B.laid.ringHi_le kk
  unfold Apart at hap
  unfold BufferPool.bufLo BufferPool.bufHi at *
  exact hf.agree (by omega)

theorem touches_ring {kk : RingKind} (hf : Frame m m' (B.vr.ringLo kk) (B.vr.ringHi kk)) : B.Touches m m' :=
  BufferPool.touches_tables hf (B.laid.desc_le_ringLo kk) (B.laid.ringHi_le kk)

/-- Steps of the other direction do not reach this one. -/
theorem same (h : Flow B k m tvq rvq t x P) (hs : B.Same m m') : Flow B k m' tvq rvq t x P := by
  refine ⟨h.linked.congr hs.tables, h.sender, h.receiver, h.contents.congr (fun d hd => ?_) (fun g => h.tx_ids)
    (fun g => h.rx_ids) fun d => P.mem_queue⟩
  obtain ⟨-, h1, h2⟩ := BufferPool.buffer_bounds hd
  exact hs.bufs.mono h1 h2

/-! ## What both sides do with the rings -/

/-- The sender publishes the message that the buffer of `d` holds. -/
theorem publish (h : Flow B k m tvq rvq t x P) (msg : Msg) (t' : TxHalf)
    (hids : ((t.gots.map Got.idx : List UInt16) : Multiset UInt16) = d ::ₘ (t'.gots.map Got.idx : List UInt16))
    (hs : ∀ e ∈ t'.sending, e ∈ t.sending) (ho : ∀ g ∈ t'.owned, g ∈ t.owned) (hsent : t'.sent = t.sent ++ [msg])
    (hmsg : msgAt m (B.buffer d) = msg.seen) (hsmall : msg.len.toNat + 16 ≤ B.size) :
    ∃ P', P.Move P' ∧ B.Touches m (vqPut k.other tvq m d (UInt32.ofNat B.size)).2 ∧
      ∀ c, Flow B k (vqPut k.other tvq m d (UInt32.ofNat B.size)).2 { tvq with queuedCnt := c } rvq t' x P' := by
  have hsend : P.sender = d ::ₘ (t'.gots.map Got.idx : List UInt16) := h.sender.trans hids
  have hd : d ∈ B.ids := P.mem_sender (hsend ▸ Multiset.mem_cons_self d _)
  obtain ⟨hf, hl⟩ := h.linked.send hsend
  refine ⟨P.send hsend, .send hsend, touches_ring hf, fun c => ⟨hl c, rfl, h.receiver, ?_⟩⟩
  have hc : Contents B m { t' with sent := t.sent } x P.queue :=
    h.contents.mono hs ho rfl (fun _ hg => hg) (fun _ hg => hg) rfl rfl
  have hc' := hc.congr (fun e he => bufs_of_ring hf he)
    (fun g hg => by
      rcases List.mem_append.1 hg with hg | hg
      · obtain ⟨e, he, rfl⟩ := List.mem_map.1 hg
        exact h.tx_ids (List.mem_append_left _ (List.mem_map_of_mem (hs e he)))
      · exact h.tx_ids (List.mem_append_right _ (ho g hg)))
    (fun g => h.rx_ids) (fun d => P.mem_queue)
  refine ⟨hc'.txGot, hc'.rxGot, hc'.txKept, hc'.rxKept, hc'.filled, hc'.fits, ?_, ?_⟩
  · intro e he
    rw [hsent] at he
    rcases List.mem_append.1 he with he | he
    · exact hc'.small e he
    · rw [List.mem_singleton.1 he]; exact hsmall
  · have hfifo := hc'.fifo
    simp only [RxHalf.inflight, Custody.send] at hfifo ⊢
    rw [hsent, List.map_append, hfifo, List.map_singleton, ← hmsg]
    simp only [List.map_append, List.map_singleton, List.append_assoc]
    rw [msgAt_congr (bufs_of_ring hf hd) (by rw [hmsg]; exact hsmall)]

/-- The receiver returns the descriptor `d`. -/
theorem giveBack (h : Linked B k m tvq rvq P) (hsender : P.sender = (t.gots.map Got.idx : List UInt16))
    (hids : P.receiver = d ::ₘ (x'.gots.map Got.idx : List UInt16)) (hc : Contents B m t x' P.queue) :
    ∃ P', P.Move P' ∧ B.Touches m (vqPut k rvq m d (UInt32.ofNat B.size)).2 ∧
      ∀ c, Flow B k (vqPut k rvq m d (UInt32.ofNat B.size)).2 tvq { rvq with queuedCnt := c } t x' P' := by
  obtain ⟨hf, hl⟩ := h.release hids
  refine ⟨P.release hids, .release hids, touches_ring hf, fun c => ⟨hl c, hsender, rfl, ?_⟩⟩
  refine hc.congr (fun e he => bufs_of_ring hf he) (fun g hg => ?_) (fun g hg => ?_) fun e => P.mem_queue
  · exact P.mem_sender (hsender ▸ Multiset.mem_coe.2 (List.mem_map_of_mem hg))
  · refine P.mem_receiver ?_
    rw [hids]
    exact Multiset.mem_cons_of_mem (Multiset.mem_coe.2 (List.mem_map_of_mem hg))

end Flow

end RpmsgLite
