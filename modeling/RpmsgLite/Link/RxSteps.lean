/-
The steps of the receiving core: `vq_rx` takes the oldest message, the callback reads it, and the buffer
goes back at once or when the application releases it, in any order.
-/
import RpmsgLite.Link.TxSteps

namespace RpmsgLite

open ByteMem

/-- What a receive step guarantees; the sender's state is a parameter and the core's transmit side is
left alone. -/
def RxOutcome (B : BufferPool) (k : RingKind) (m : ByteMem) (tvq : Virtqueue) (t : TxHalf) (P : Custody B.ids)
    (s s' : Side) (m' : ByteMem) : Prop :=
  ∃ P', P.Move P' ∧ B.Touches m m' ∧ Flow B k m' tvq s'.dev.rvq t s'.rx P' ∧
    s'.dev.tvq = s.dev.tvq ∧ s'.tx = s.tx ∧ s'.halted = s.halted ∧ s'.dev.role = s.dev.role

section

variable {B : BufferPool} {k : RingKind} {m m' : ByteMem} {tvq : Virtqueue} {t : TxHalf} {P : Custody B.ids}
  {c : LinkConfig} {s s' : Side} {i : Nat}

/-! ## Taking and reading a message -/

/-- `vq_rx` finds nothing, or takes the oldest message. -/
theorem Linked.rxTake {rvq : Virtqueue} (h : Linked B k m tvq rvq P) (clear : Bool) {r : Role} (hk : r.getKind = k.other) :
    P.queue = [] ∧ (r.vqOps clear).vqRx rvq m = (rvq, none) ∨
      ∃ d q, ∃ hq : P.queue = d :: q,
        (r.vqOps clear).vqRx rvq m = (rvq.setCursor k.other (rvq.cursor k.other + 1), some (B.got d)) ∧
        Linked B k m tvq (rvq.setCursor k.other (rvq.cursor k.other + 1)) (P.receive hq) := by
  rw [vqRx_eq, hk]
  rcases h.receive with ⟨hq, hn⟩ | ⟨d, q, hq, hget, hl⟩
  · rw [hn]; exact Or.inl ⟨hq, nonNull_none⟩
  · have hpos := (BufferPool.buffer_bounds (P.mem_queue (hq ▸ List.mem_cons_self))).1
    rw [hget]
    exact Or.inr ⟨d, q, hq, nonNull_some (Nat.pos_iff_ne_zero.1 hpos), hl⟩

theorem Flow.rx (h : Flow B k m tvq s.dev.rvq t s.rx P) (hk : s.dev.role.getKind = k.other)
    (ha : s.rxStep c m .rx = some (s', m')) : RxOutcome B k m tvq t P s s' m' := by
  unfold Side.rxStep at ha
  simp only at ha
  split at ha
  · cases ha
  rename_i hidle
  have hidle : s.rx.hand = .idle := not_not.1 hidle
  rcases h.linked.rxTake c.clear hk with ⟨-, hn⟩ | ⟨d, q, hq, hget, hl⟩
  · have hrx : rpmsgLiteRx c.clear s.dev m = (s.dev, none) := by unfold rpmsgLiteRx; rw [hn]
    rw [hrx] at ha
    cases ha
    exact ⟨P, .stay, .refl _ _, h, rfl, rfl, rfl, rfl⟩
  · have hrx : rpmsgLiteRx c.clear s.dev m =
        ({ s.dev with rvq := s.dev.rvq.setCursor k.other (s.dev.rvq.cursor k.other + 1) }, some (B.got d)) := by
      unfold rpmsgLiteRx; rw [hget]
    rw [hrx] at ha
    cases ha
    refine ⟨P.receive hq, .receive hq, .refl _ _, ⟨hl, h.sender, ?_, ?_⟩, rfl, rfl, rfl, rfl⟩
    · show d ::ₘ P.receiver = _
      rw [h.receiver]
      simp only [RxHalf.gots, hidle, RxHand.got, List.nil_append, List.singleton_append, List.map_cons,
        ← Multiset.cons_coe]
      rfl
    · have hc := h.contents
      refine ⟨hc.txGot, ?_, hc.txKept, hc.rxKept, hc.filled, hc.fits, hc.small, ?_⟩
      · intro g hg
        rcases List.mem_cons.1 hg with rfl | hg
        · rfl
        · exact hc.rxGot g (List.mem_append_right _ hg)
      · rw [hc.fifo]
        simp only [RxHalf.inflight, hidle, RxHand.unread, List.map_nil, List.nil_append, hq, List.map_cons,
          List.cons_append]
        rfl

theorem Flow.read (h : Flow B k m tvq s.dev.rvq t s.rx P) (ha : s.rxStep c m .read = some (s', m')) :
    RxOutcome B k m tvq t P s s' m' := by
  cases Side.rxStep_cases ha with
  | @read g hhand =>
    have hc := h.contents
    have hgot : g ∈ s.rx.gots := List.mem_append_left _ (by rw [hhand]; exact List.mem_cons_self)
    have hbuf : g.buffer = B.buffer g.idx := congrArg Got.buffer (hc.rxGot g hgot)
    refine ⟨P, .stay, .refl _ _, ⟨h.linked, h.sender, ?_, ?_⟩, rfl, rfl, rfl, rfl⟩
    · rw [h.receiver]
      simp only [RxHalf.gots, hhand, RxHand.got]
    · refine ⟨hc.txGot, ?_, hc.txKept, hc.rxKept, hc.filled, hc.fits, hc.small, ?_⟩
      · intro e he
        refine hc.rxGot e ?_
        simpa only [RxHalf.gots, hhand, RxHand.got] using he
      · rw [hc.fifo]
        simp only [RxHalf.inflight, hhand, RxHand.unread, List.map_cons, List.map_nil, List.cons_append, List.nil_append,
          hbuf, List.append_assoc]

/-! ## Writing into a buffer -/

/-- A store into a received buffer whose message has been read, and which keeps the descriptor index. -/
theorem Flow.storeRx {rvq : Virtqueue} {x : RxHalf} (h : Flow B k m tvq rvq t x P) {g : Got} (hg : g ∈ x.gots)
    (hu : x.hand.unread = [] ∨ g ∈ x.held) (hf : Frame m m' (B.buffer g.idx) (B.buffer g.idx + B.size))
    (hidx : ∀ e ∈ x.held, e.idx = g.idx → m'.ld16 (hdrIdxAt (B.buffer g.idx)) = g.idx) :
    B.Touches m m' ∧ Flow B k m' tvq rvq t x P := by
  have hd := h.rx_ids hg
  refine ⟨BufferPool.touches_buffer hd hf le_rfl le_rfl,
    ⟨h.linked.congr (Flow.tables_of_store hd hf), h.sender, h.receiver, h.contents.store hf (h.rx_not_inflight hg hu)
      (fun e he hid => ?_) hidx (fun e he hid => ?_)⟩⟩
  · exact absurd (hid ▸ h.mem_rx hg) (h.tx_not_rx (List.mem_append_right _ he))
  · exact absurd ((show e.got.idx = g.idx from hid) ▸ h.mem_rx hg)
      (h.tx_not_rx (List.mem_append_left _ (List.mem_map_of_mem he)))

theorem Flow.writeMsg (h : Flow B k m tvq s.dev.rvq t s.rx P) {off : Nat} {bytes : List UInt8}
    (ha : s.rxStep c m (.writeMsg off bytes) = some (s', m')) : RxOutcome B k m tvq t P s s' m' := by
  cases Side.rxStep_cases ha with
  | @writeMsg _ _ g _ hhand hw =>
    have hg : g ∈ s.rx.hand.got := by rw [hhand]; exact List.mem_cons_self
    have hgot : g ∈ s.rx.gots := List.mem_append_left _ hg
    obtain ⟨hf, -⟩ := writePayload_spec (h.contents.rxGot g hgot) hw
    obtain ⟨ht, hflow⟩ := h.storeRx hgot (Or.inl (by rw [hhand]; rfl)) hf
      fun e he hid => absurd hid.symm (h.held_ne_hand hg he)
    exact ⟨P, .stay, ht, hflow, rfl, rfl, rfl, rfl⟩

theorem Flow.writeHeld (h : Flow B k m tvq s.dev.rvq t s.rx P) {off : Nat} {bytes : List UInt8}
    (ha : s.rxStep c m (.writeHeld i off bytes) = some (s', m')) : RxOutcome B k m tvq t P s s' m' := by
  cases Side.rxStep_cases ha with
  | @writeHeld _ _ _ g _ hi hw =>
    have hg : g ∈ s.rx.held := List.mem_of_getElem? hi
    have hgot : g ∈ s.rx.gots := List.mem_append_right _ hg
    obtain ⟨hf, hidx⟩ := writePayload_spec (h.contents.rxGot g hgot) hw
    obtain ⟨ht, hflow⟩ := h.storeRx hgot (Or.inr hg) hf fun _ _ _ => hidx.trans (h.contents.rxKept g hg)
    exact ⟨P, .stay, ht, hflow, rfl, rfl, rfl, rfl⟩

/-! ## Returning a buffer -/

/-- `vq_rx_free` clears the buffer if configured and returns the descriptor; `x'` is the receiver's
state without it. -/
theorem Flow.free {rvq : Virtqueue} {x : RxHalf} (h : Flow B k m tvq rvq t x P) (x' : RxHalf) (clear : Bool) {r : Role}
    (hk : r.getKind = k.other) {g : Got} (hg : g ∈ x.gots)
    (hids : ((x.gots.map Got.idx : List UInt16) : Multiset UInt16) = g.idx ::ₘ (x'.gots.map Got.idx : List UInt16))
    (hhand : ∀ e ∈ x'.hand.got, e ∈ x.hand.got) (hheld : ∀ e ∈ x'.held, e ∈ x.held)
    (hun : x.hand.unread = [] ∨ g ∈ x.held) (hun' : x'.hand.unread = x.hand.unread) (hrecv : x'.recv = x.recv) :
    ∃ r' P', (r.vqOps clear).vqRxFree rvq m (B.buffer g.idx) (UInt32.ofNat B.size) g.idx = some r' ∧ P.Move P' ∧
      B.Touches m r'.2 ∧ Flow B k r'.2 tvq r'.1 t x' P' := by
  have hd := h.rx_ids hg
  have hfree := vqRxFree_eq r clear m (B.buffer g.idx) (UInt32.ofNat B.size)
    (h.linked.swap.le_nentries hd)
  rw [hk, RingKind.other_other, B.toNat_size] at hfree
  have hc : Contents B m t x' P.queue := h.contents.mono (fun _ he => he) (fun _ he => he) rfl hhand hheld hun' hrecv
  -- the descriptor is not among those the receiver keeps
  have hnot : ∀ e ∈ x'.held, e.idx ≠ g.idx := by
    intro e he hid
    have hn := (List.nodup_append.1 (List.nodup_append.1 h.nodup).2.1).2.1
    rw [← Multiset.coe_nodup, hids, Multiset.nodup_cons] at hn
    exact hn.1 (hid ▸ Multiset.mem_coe.2 (List.mem_map_of_mem (List.mem_append_right _ he)))
  have hst : Frame m (if clear then m.fill (B.buffer g.idx) B.size 0 else m) (B.buffer g.idx) (B.buffer g.idx + B.size) := by
    cases clear
    · exact .refl _ _ _
    · exact frame_fill _ _ _ _
  rw [hfree]
  generalize (if clear then m.fill (B.buffer g.idx) B.size 0 else m) = m1 at hst
  have hc1 := hc.store hst
    (by unfold RxHalf.inflight; rw [hun']; exact h.rx_not_inflight hg hun)
    (fun e he hid => absurd (hid ▸ h.mem_rx hg) (h.tx_not_rx (List.mem_append_right _ he)))
    (fun e he hid => absurd hid (hnot e he))
    (fun e he hid => absurd ((show e.got.idx = g.idx from hid) ▸ h.mem_rx hg)
      (h.tx_not_rx (List.mem_append_left _ (List.mem_map_of_mem he))))
  obtain ⟨P', hmove, ht, hflow⟩ := Flow.giveBack (h.linked.congr (Flow.tables_of_store hd hst)) h.sender
    (h.receiver.trans hids) hc1
  obtain ⟨c', hvq⟩ := vqPut_vq k rvq m1 g.idx (UInt32.ofNat B.size)
  refine ⟨_, P', rfl, hmove, (BufferPool.touches_buffer hd hst le_rfl le_rfl).trans ht, ?_⟩
  rw [hvq]
  exact hflow c'

theorem Flow.done (h : Flow B k m tvq s.dev.rvq t s.rx P) (hk : s.dev.role.getKind = k.other) {hold : Bool}
    (ha : s.rxStep c m (.done hold) = some (s', m')) : RxOutcome B k m tvq t P s s' m' := by
  unfold Side.rxStep rpmsgLiteRxDone at ha
  simp only at ha
  split at ha
  swap
  · cases ha
  rename_i g hhand
  have hg : g ∈ s.rx.hand.got := by rw [hhand]; exact List.mem_cons_self
  have hgot : g ∈ s.rx.gots := List.mem_append_left _ hg
  have heq := h.contents.rxGot g hgot
  have hbuf : g.buffer = B.buffer g.idx := congrArg Got.buffer heq
  have hlen : g.len = UInt32.ofNat B.size := congrArg Got.len heq
  have hun : s.rx.hand.unread = [] := by rw [hhand]; rfl
  rw [hbuf, hlen] at ha
  have hsz := B.size_ge
  cases hold with
  | true =>
    simp only [if_true] at ha
    cases ha
    have hst : Frame m (m.st16 (hdrIdxAt (B.buffer g.idx)) g.idx) (B.buffer g.idx) (B.buffer g.idx + B.size) :=
      (frame_st16 m _ _).mono (by simp only [hdrIdxAt]; omega) (by simp only [hdrIdxAt]; omega)
    obtain ⟨ht, hflow⟩ := h.storeRx hgot (Or.inl hun) hst fun _ _ _ => ld16_st16 _ _ _
    have hc := hflow.contents
    refine ⟨P, .stay, ht, ⟨hflow.linked, hflow.sender, ?_, ?_⟩, rfl, rfl, rfl, rfl⟩
    · rw [h.receiver]
      simp only [RxHalf.gots, hhand, RxHand.got, List.nil_append, List.map_append, List.map_singleton, ← Multiset.coe_add]
      exact add_comm _ _
    · refine ⟨hc.txGot, ?_, hc.txKept, ?_, hc.filled, hc.fits, hc.small, ?_⟩
      · intro e he
        rcases List.mem_append.1 he with he | he
        · cases he
        · rcases List.mem_append.1 he with he | he
          · exact hc.rxGot e (List.mem_append_right _ he)
          · rw [List.mem_singleton.1 he]; exact heq
      · intro e he
        rcases List.mem_append.1 he with he | he
        · exact hc.rxKept e he
        · rw [List.mem_singleton.1 he]; exact ld16_st16 _ _ _
      · rw [hc.fifo]
        simp only [RxHalf.inflight, hhand, RxHand.unread]
  | false =>
    obtain ⟨r', P', hfree, hmove, ht, hflow⟩ := h.free { s.rx with hand := .idle } c.clear hk hgot
      (by
        simp only [RxHalf.gots, hhand, RxHand.got, List.nil_append, List.singleton_append, List.map_cons]
        exact (Multiset.cons_coe _ _).symm)
      (fun e he => by cases he) (fun _ he => he) (Or.inl hun) (by rw [hun]; rfl) rfl
    rw [hfree] at ha
    simp only [Bool.false_eq_true, if_false] at ha
    cases ha
    exact ⟨P', hmove, ht, hflow, rfl, rfl, rfl, rfl⟩

theorem Flow.releaseRxBuffer (h : Flow B k m tvq s.dev.rvq t s.rx P) (hk : s.dev.role.getKind = k.other)
    (ha : s.rxStep c m (.releaseRxBuffer i) = some (s', m')) : RxOutcome B k m tvq t P s s' m' := by
  unfold Side.rxStep rpmsgLiteReleaseRxBuffer at ha
  simp only at ha
  split at ha
  · cases ha
  rename_i g hi
  have hg : g ∈ s.rx.held := List.mem_of_getElem? hi
  have hgot : g ∈ s.rx.gots := List.mem_append_right _ hg
  have hbuf : g.buffer = B.buffer g.idx := congrArg Got.buffer (h.contents.rxGot g hgot)
  rw [show msgFromBuf (msgDataAt g.buffer) = B.buffer g.idx by rw [hbuf]; exact Nat.add_sub_cancel _ _,
    h.contents.rxKept g hg, h.linked.swap.bufferLength (h.rx_ids hgot)] at ha
  obtain ⟨r', P', hfree, hmove, ht, hflow⟩ := h.free
    { s.rx with held := s.rx.held.eraseIdx i } c.clear hk hgot
    (by
      simp only [RxHalf.gots, List.map_append, ← Multiset.coe_add]
      rw [coe_eraseIdx Got.idx hi, Multiset.add_cons])
    (fun _ he => he) (fun e he => List.mem_of_mem_eraseIdx he) (Or.inr hg) rfl rfl
  rw [hfree] at ha
  cases ha
  exact ⟨P', hmove, ht, hflow, rfl, rfl, rfl, rfl⟩

/-- Every receive step. -/
theorem Flow.rxStep (h : Flow B k m tvq s.dev.rvq t s.rx P) (hk : s.dev.role.getKind = k.other) {a : RxAct}
    (ha : s.rxStep c m a = some (s', m')) : RxOutcome B k m tvq t P s s' m' := by
  cases a with
  | rx => exact h.rx hk ha
  | read => exact h.read ha
  | done => exact h.done hk ha
  | writeMsg => exact h.writeMsg ha
  | writeHeld => exact h.writeHeld ha
  | releaseRxBuffer => exact h.releaseRxBuffer hk ha

end

end RpmsgLite
