/-
The steps of the sending core: each is one move of the custody of the vring it sends on, stays in that
pool's bytes and keeps the invariant of the direction.
-/
import RpmsgLite.Link.Flow

namespace RpmsgLite

open ByteMem

/-- What a transmit step guarantees: the receiver's state is a parameter, the core's receive side is
left alone and no assertion fails. -/
def TxOutcome (B : BufferPool) (k : RingKind) (m : ByteMem) (rvq : Virtqueue) (x : RxHalf) (P : Custody B.ids)
    (s s' : Side) (m' : ByteMem) : Prop :=
  ∃ P', P.Move P' ∧ B.Touches m m' ∧ Flow B k m' s'.dev.tvq rvq s'.tx x P' ∧
    s'.dev.rvq = s.dev.rvq ∧ s'.rx = s.rx ∧ s'.halted = s.halted ∧ s'.dev.role = s.dev.role

theorem coe_snoc {α : Type} (d : α) (a b : List α) : ((a ++ [d] ++ b : List α) : Multiset α) = d ::ₘ (a ++ b : List α) := by
  rw [Multiset.cons_coe, Multiset.coe_eq_coe, List.append_assoc, List.singleton_append]
  exact List.perm_middle

section

variable {B : BufferPool} {k : RingKind} {m m' : ByteMem} {rvq : Virtqueue} {x : RxHalf} {P : Custody B.ids}
  {c : LinkConfig} {s s' : Side} {i : Nat} {src dst : UInt32}

/-- A call that is refused or finds no buffer. -/
theorem TxOutcome.unchanged (h : Flow B k m s.dev.tvq rvq s.tx x P) : TxOutcome B k m rvq x P s s m :=
  ⟨P, .stay, .refl _ _, h, rfl, rfl, rfl, rfl⟩

/-! ## Taking a buffer -/

/-- `vq_tx_alloc` finds nothing, or takes the oldest free descriptor. -/
theorem Linked.txAlloc {tvq : Virtqueue} (h : Linked B k m tvq rvq P) (clear : Bool) {r : Role} (hk : r.getKind = k) :
    (r.vqOps clear).vqTxAlloc tvq m = (tvq, none) ∨
      ∃ d f, ∃ hf : P.free = d :: f,
        (r.vqOps clear).vqTxAlloc tvq m = (tvq.setCursor k (tvq.cursor k + 1), some (B.got d)) ∧
        Linked B k m (tvq.setCursor k (tvq.cursor k + 1)) rvq (P.take hf) := by
  rw [vqTxAlloc_eq, hk]
  rcases h.take with ⟨-, hn⟩ | ⟨d, f, hf, hget, hl⟩
  · rw [hn]; exact Or.inl nonNull_none
  · have hpos := (BufferPool.buffer_bounds (P.mem_free (hf ▸ List.mem_cons_self))).1
    rw [hget]
    exact Or.inr ⟨d, f, hf, nonNull_some (Nat.pos_iff_ne_zero.1 hpos), hl⟩

theorem Flow.send (h : Flow B k m s.dev.tvq rvq s.tx x P) (hk : s.dev.role.getKind = k)
    (hpay : c.payloadSize + 16 ≤ B.size) {data : List UInt8}
    (ha : s.txStep c m (.send src dst data) = some (s', m')) : TxOutcome B k m rvq x P s s' m' := by
  unfold Side.txStep rpmsgLiteSendAlloc at ha
  simp only at ha
  split at ha
  · cases ha
  by_cases hp : data.length > c.payloadSize
  · rw [if_pos hp] at ha
    cases ha
    exact .unchanged h
  rw [if_neg hp] at ha
  by_cases hlink : s.dev.linkState
  swap
  · rw [if_pos (by simpa using hlink)] at ha
    cases ha
    exact .unchanged h
  rw [if_neg (by simpa using hlink)] at ha
  rcases h.linked.txAlloc c.clear hk with hn | ⟨d, f, hf, hget, hl⟩
  · rw [hn] at ha
    cases ha
    exact .unchanged h
  · rw [hget] at ha
    cases ha
    refine ⟨P.take hf, .take hf, .refl _ _, ⟨hl, ?_, h.receiver, ?_⟩, rfl, rfl, rfl, rfl⟩
    · show d ::ₘ P.sender = _
      rw [h.sender]
      simp only [TxHalf.gots, List.map_append, List.map_singleton]
      exact (coe_snoc d _ _).symm
    · have hc := h.contents
      refine ⟨?_, hc.rxGot, hc.txKept, hc.rxKept, ?_, ?_, hc.small, hc.fifo⟩
      · intro g hg
        simp only [TxHalf.gots, List.map_append, List.map_singleton, List.mem_append, List.mem_singleton] at hg
        rcases hg with (hg | rfl) | hg
        · exact hc.txGot g (List.mem_append_left _ hg)
        · rfl
        · exact hc.txGot g (List.mem_append_right _ hg)
      · intro e he hfl
        rcases List.mem_append.1 he with he | he
        · exact hc.filled e he hfl
        · rw [List.mem_singleton.1 he] at hfl; cases hfl
      · intro e he
        rcases List.mem_append.1 he with he | he
        · exact hc.fits e he
        · rw [List.mem_singleton.1 he]
          show data.length + 16 ≤ B.size
          omega

theorem Flow.allocTxBuffer (h : Flow B k m s.dev.tvq rvq s.tx x P) (hk : s.dev.role.getKind = k)
    (ha : s.txStep c m .allocTxBuffer = some (s', m')) : TxOutcome B k m rvq x P s s' m' := by
  unfold Side.txStep rpmsgLiteAllocTxBuffer at ha
  simp only at ha
  by_cases hlink : s.dev.linkState
  swap
  · rw [if_pos (by simpa using hlink)] at ha
    cases ha
    exact .unchanged h
  rw [if_neg (by simpa using hlink)] at ha
  rcases h.linked.txAlloc c.clear hk with hn | ⟨d, f, hf, hget, hl⟩
  · rw [hn] at ha
    cases ha
    exact .unchanged h
  · rw [hget] at ha
    cases ha
    have hsz := B.size_ge
    have hd : d ∈ B.ids := P.mem_free (hf ▸ List.mem_cons_self)
    have hst : Frame m (m.st16 (hdrIdxAt (B.buffer d)) d) (B.buffer d) (B.buffer d + B.size) :=
      (frame_st16 m _ d).mono (by simp only [hdrIdxAt]; omega) (by simp only [hdrIdxAt]; omega)
    -- the taken descriptor was nobody's
    have hnd := Custody.nodup (P.take hf) B.ids_nodup
    have hnot : d ∉ P.sender + (P.queue : Multiset UInt16) + P.receiver := by
      have hcons : (P.take hf).sender + (P.queue : Multiset UInt16) + P.receiver =
          d ::ₘ (P.sender + (P.queue : Multiset UInt16) + P.receiver) := by
        show d ::ₘ P.sender + (P.queue : Multiset UInt16) + P.receiver = _
        rw [Multiset.cons_add, Multiset.cons_add]
      rw [show (P.take hf).sender + ((P.take hf).queue : Multiset UInt16) + (P.take hf).receiver = _ from hcons] at hnd
      exact (Multiset.nodup_cons.1 hnd).1
    have hown : ∀ {g : Got}, g ∈ s.tx.gots → g.idx ≠ d := fun hg he =>
      hnot (Multiset.mem_add.2 (Or.inl (Multiset.mem_add.2 (Or.inl (he ▸ h.mem_tx hg)))))
    have hrx : ∀ {g : Got}, g ∈ x.gots → g.idx ≠ d := fun hg he =>
      hnot (Multiset.mem_add.2 (Or.inr (he ▸ h.mem_rx hg)))
    have hc := h.contents.store (d := d) hst
      (by
        intro hmem
        rcases List.mem_append.1 hmem with hu | hq
        · obtain ⟨g, hg, hid⟩ := List.mem_map.1 hu
          exact hrx (List.mem_append_left _ (RxHand.unread_sub hg)) hid
        · exact hnot (Multiset.mem_add.2 (Or.inl (Multiset.mem_add.2 (Or.inr (Multiset.mem_coe.2 hq))))))
      (fun g hg he => absurd he (hown (List.mem_append_right _ hg)))
      (fun g hg he => absurd he (hrx (List.mem_append_right _ hg)))
      (fun e he hid => absurd hid (hown (List.mem_append_left _ (List.mem_map_of_mem he))))
    refine ⟨P.take hf, .take hf, BufferPool.touches_buffer hd hst le_rfl le_rfl,
      ⟨hl.congr (Flow.tables_of_store hd hst), ?_, h.receiver, ?_⟩, rfl, rfl, rfl, rfl⟩
    · show d ::ₘ P.sender = _
      rw [h.sender]
      simp only [TxHalf.gots, List.map_append, List.map_singleton]
      rw [← List.append_assoc]
      have hsnoc := coe_snoc d (s.tx.sending.map Sending.got |>.map Got.idx |> (· ++ s.tx.owned.map Got.idx)) []
      simp only [List.append_nil] at hsnoc
      exact hsnoc.symm
    · refine ⟨?_, hc.rxGot, ?_, hc.rxKept, hc.filled, hc.fits, hc.small, hc.fifo⟩
      · intro g hg
        rcases List.mem_append.1 hg with hg | hg
        · exact hc.txGot g (List.mem_append_left _ hg)
        · rcases List.mem_append.1 hg with hg | hg
          · exact hc.txGot g (List.mem_append_right _ hg)
          · rw [List.mem_singleton.1 hg]; rfl
      · intro g hg
        rcases List.mem_append.1 hg with hg | hg
        · exact hc.txKept g hg
        · rw [List.mem_singleton.1 hg]
          exact ld16_st16 _ _ _

/-! ## Writing into a buffer -/

/-- An application's write leaves the header alone and stays in the buffer. -/
theorem writePayload_spec {g : Got} {off : Nat} {bytes : List UInt8} (hg : g = B.got g.idx)
    (h : writePayload m g off bytes = some m') :
    Frame m m' (B.buffer g.idx) (B.buffer g.idx + B.size) ∧
      m'.ld16 (hdrIdxAt (B.buffer g.idx)) = m.ld16 (hdrIdxAt (B.buffer g.idx)) := by
  unfold writePayload at h
  split at h
  swap
  · cases h
  rename_i hle
  cases h
  have hbuf : g.buffer = B.buffer g.idx := congrArg Got.buffer hg
  have hlen : g.len.toNat = B.size := by
    rw [show g.len = UInt32.ofNat B.size from congrArg Got.len hg, B.toNat_size]
  rw [hlen] at hle
  rw [hbuf]
  have hsz := B.size_ge
  have hf := frame_copy m (msgDataAt (B.buffer g.idx) + off) bytes
  refine ⟨hf.mono ?_ ?_, ld16_congr (hf.agree ?_)⟩
  · simp only [msgDataAt]; omega
  · simp only [msgDataAt]; omega
  · simp only [msgDataAt, hdrIdxAt]; omega

/-- A store into a zero-copy buffer that keeps its descriptor index. -/
theorem Flow.storeOwned {tvq : Virtqueue} {t : TxHalf} (h : Flow B k m tvq rvq t x P) {g : Got} (hg : g ∈ t.owned)
    (hf : Frame m m' (B.buffer g.idx) (B.buffer g.idx + B.size))
    (hidx : m'.ld16 (hdrIdxAt (B.buffer g.idx)) = m.ld16 (hdrIdxAt (B.buffer g.idx))) :
    B.Touches m m' ∧ Flow B k m' tvq rvq t x P := by
  have hgot : g ∈ t.gots := List.mem_append_right _ hg
  have hd := h.tx_ids hgot
  have hkept := h.contents.txKept g hg
  refine ⟨BufferPool.touches_buffer hd hf le_rfl le_rfl,
    ⟨h.linked.congr (Flow.tables_of_store hd hf), h.sender, h.receiver, h.contents.store hf (h.tx_not_inflight hgot)
      (fun _ _ _ => hidx.trans hkept) (fun _ _ _ => hidx.trans hkept)
      (fun e he hid => absurd hid (h.sending_ne_owned he hg))⟩⟩

theorem Flow.write (h : Flow B k m s.dev.tvq rvq s.tx x P) {off : Nat} {bytes : List UInt8}
    (ha : s.txStep c m (.write i off bytes) = some (s', m')) : TxOutcome B k m rvq x P s s' m' := by
  cases Side.txStep_cases ha with
  | @write _ _ _ g _ hi hw =>
    have hg : g ∈ s.tx.owned := List.mem_of_getElem? hi
    obtain ⟨hf, hidx⟩ := writePayload_spec (h.contents.txGot g (List.mem_append_right _ hg)) hw
    obtain ⟨ht, hflow⟩ := h.storeOwned hg hf hidx
    exact ⟨P, .stay, ht, hflow, rfl, rfl, rfl, rfl⟩

/-- Filling a buffer leaves it in the same hands. -/
theorem TxHalf.gots_fill {t : TxHalf} {e : Sending} (hi : t.sending[i]? = some e) :
    ({ t with sending := t.sending.set i { e with filled := true } } : TxHalf).gots = t.gots := by
  have hmap : (t.sending.set i { e with filled := true }).map Sending.got = t.sending.map Sending.got := by
    obtain ⟨hlt, rfl⟩ := List.getElem?_eq_some_iff.1 hi
    rw [List.map_set]
    exact List.ext_getElem (by simp) fun j h1 h2 => by
      rw [List.getElem_set]
      split
      · subst_vars; simp
      · rfl
  unfold TxHalf.gots
  rw [hmap]

theorem Flow.fill (h : Flow B k m s.dev.tvq rvq s.tx x P) (ha : s.txStep c m (.fill i) = some (s', m')) :
    TxOutcome B k m rvq x P s s' m' := by
  cases Side.txStep_cases ha with
  | @fill _ e hi =>
    have he : e ∈ s.tx.sending := List.mem_of_getElem? hi
    have hgot : e.got ∈ s.tx.gots := List.mem_append_left _ (List.mem_map_of_mem he)
    have hd := h.tx_ids hgot
    have hbuf : e.got.buffer = B.buffer e.id := congrArg Got.buffer (h.contents.txGot _ hgot)
    have hfits := h.contents.fits e he
    obtain ⟨hf, hmsg⟩ := rpmsgLiteFormatMessage_spec m e.got e.src e.dst e.data
    rw [hbuf] at hf hmsg
    replace hf := hf.mono le_rfl (show B.buffer e.id + 16 + e.data.length ≤ B.buffer e.id + B.size by omega)
    have hc := h.contents.store hf (h.tx_not_inflight hgot)
      (fun g hg hid => absurd hid.symm (h.sending_ne_owned he hg))
      (fun g hg hid => absurd ((show g.idx = e.got.idx from hid) ▸ h.mem_rx (List.mem_append_right _ hg)) (h.tx_not_rx hgot))
      (fun e' he' hid _ => by rw [h.sending_inj he' he hid]; exact hmsg)
    have hgots := TxHalf.gots_fill hi
    refine ⟨P, .stay, BufferPool.touches_buffer hd hf le_rfl le_rfl,
      ⟨h.linked.congr (Flow.tables_of_store hd hf), by rw [hgots]; exact h.sender, h.receiver, ?_⟩, rfl, rfl, rfl, rfl⟩
    refine ⟨by rw [hgots]; exact hc.txGot, hc.rxGot, hc.txKept, hc.rxKept, ?_, ?_, hc.small, hc.fifo⟩
    · intro e' he' hfl
      rcases List.mem_or_eq_of_mem_set he' with he' | rfl
      · exact hc.filled e' he' hfl
      · exact hmsg
    · intro e' he'
      rcases List.mem_or_eq_of_mem_set he' with he' | rfl
      · exact hc.fits e' he'
      · exact hfits

/-! ## Publishing -/

/-- `vq_tx` on a linked virtqueue is the put of its ring. -/
theorem Linked.vqTx {clear : Bool} {tvq : Virtqueue} (h : Linked B k m tvq rvq P) {r : Role} (hk : r.getKind = k)
    {d : UInt16} (hd : d ∈ B.ids) (buffer : Nat) (len : UInt32) :
    (r.vqOps clear).vqTx tvq m buffer len d = some (vqPut k.other tvq m d len) := by
  rw [vqTx_eq r (h.le_nentries hd), hk]

theorem vqPut_kick (k : RingKind) (vq : Virtqueue) (m m' : ByteMem) (d : UInt16) (len : UInt32) :
    (virtqueueKick (vqPut k vq m d len).1 m').1 = { vq with queuedCnt := 0 } := by
  obtain ⟨c, hc⟩ := vqPut_vq k vq m d len
  rw [hc]; rfl

theorem Flow.enqueue (h : Flow B k m s.dev.tvq rvq s.tx x P) (hk : s.dev.role.getKind = k)
    (ha : s.txStep c m (.enqueue i) = some (s', m')) : TxOutcome B k m rvq x P s s' m' := by
  unfold Side.txStep rpmsgLiteSendEnqueue at ha
  simp only at ha
  split at ha
  · cases ha
  rename_i e hi
  by_cases hfl : e.filled
  swap
  · rw [if_pos (by simpa using hfl)] at ha; cases ha
  rw [if_neg (by simpa using hfl)] at ha
  have he : e ∈ s.tx.sending := List.mem_of_getElem? hi
  have hgot : e.got ∈ s.tx.gots := List.mem_append_left _ (List.mem_map_of_mem he)
  have hlen : e.got.len = UInt32.ofNat B.size := congrArg Got.len (h.contents.txGot _ hgot)
  rw [h.linked.vqTx hk (h.tx_ids hgot), hlen] at ha
  have hkick := fun m' => vqPut_kick k.other s.dev.tvq m m' e.got.idx (UInt32.ofNat B.size)
  have hfits := h.contents.fits e he
  have hle := Msg.of_len_le e.src e.dst e.data
  obtain ⟨P', hmove, ht, hflow⟩ := h.publish (d := e.id) (Msg.of e.src e.dst e.data)
    { s.tx with sending := s.tx.sending.eraseIdx i, sent := s.tx.sent ++ [Msg.of e.src e.dst e.data] }
    (by
      simp only [TxHalf.gots, List.map_append, List.map_map, ← Multiset.coe_add]
      rw [coe_eraseIdx (Got.idx ∘ Sending.got) hi, Multiset.cons_add]
      rfl)
    (fun e he => List.mem_of_mem_eraseIdx he) (fun _ hg => hg) rfl (h.contents.filled e he hfl) (by omega)
  have hflow := hflow 0
  change B.Touches m (vqPut k.other s.dev.tvq m e.got.idx (UInt32.ofNat B.size)).2 at ht
  change Flow B k (vqPut k.other s.dev.tvq m e.got.idx (UInt32.ofNat B.size)).2 _ rvq _ x P' at hflow
  generalize vqPut k.other s.dev.tvq m e.got.idx (UInt32.ofNat B.size) = r at ha ht hflow hkick
  cases ha
  refine ⟨P', hmove, ht, ?_, rfl, rfl, rfl, rfl⟩
  dsimp only
  rw [hkick]
  exact hflow

theorem Flow.sendNocopy (h : Flow B k m s.dev.tvq rvq s.tx x P) (hk : s.dev.role.getKind = k)
    (hpay : c.payloadSize + 16 ≤ B.size) {size : Nat}
    (ha : s.txStep c m (.sendNocopy i src dst size) = some (s', m')) : TxOutcome B k m rvq x P s s' m' := by
  unfold Side.txStep rpmsgLiteSendNocopy at ha
  simp only at ha
  split at ha
  · cases ha
  split at ha
  · cases ha
  rename_i g hi
  by_cases hp : size > c.payloadSize
  · rw [if_pos hp] at ha
    cases ha
    exact .unchanged h
  rw [if_neg hp] at ha
  by_cases hlink : s.dev.linkState
  swap
  · rw [if_pos (by simpa using hlink)] at ha
    cases ha
    exact .unchanged h
  rw [if_neg (by simpa using hlink)] at ha
  have hg : g ∈ s.tx.owned := List.mem_of_getElem? hi
  have hgot : g ∈ s.tx.gots := List.mem_append_right _ hg
  have hbuf : g.buffer = B.buffer g.idx := congrArg Got.buffer (h.contents.txGot _ hgot)
  have hsz := B.size_ge
  -- the header is written first, the descriptor index read from it
  obtain ⟨hf, hidx, -⟩ := writeHdr_spec m (B.buffer g.idx) src dst size
  have hmsg := msgAt_writeHdr m (B.buffer g.idx) src dst size
  rw [show msgFromBuf (msgDataAt g.buffer) = B.buffer g.idx by rw [hbuf]; exact Nat.add_sub_cancel _ _,
    show msgDataAt g.buffer = msgDataAt (B.buffer g.idx) by rw [hbuf]] at ha
  generalize hm1 : writeHdr m (B.buffer g.idx) src dst size = m1 at ha hf hidx hmsg
  obtain ⟨ht1, h1⟩ := h.storeOwned hg (hf.mono le_rfl (by omega)) hidx
  have hkept := h1.contents.txKept g hg
  have hd := h1.tx_ids hgot
  rw [hkept, h1.linked.bufferLength hd, h1.linked.vqTx hk hd] at ha
  have hkick := fun m' => vqPut_kick k.other s.dev.tvq m1 m' g.idx (UInt32.ofNat B.size)
  have hle := Msg.of_len_le src dst (m.block (msgDataAt (B.buffer g.idx)) size)
  rw [length_block] at hle
  obtain ⟨P', hmove, ht, hflow⟩ := h1.publish (d := g.idx)
    (Msg.of src dst (m.block (msgDataAt (B.buffer g.idx)) size))
    { s.tx with owned := s.tx.owned.eraseIdx i
                sent := s.tx.sent ++ [Msg.of src dst (m.block (msgDataAt (B.buffer g.idx)) size)] }
    (by
      simp only [TxHalf.gots, List.map_append, ← Multiset.coe_add]
      rw [coe_eraseIdx Got.idx hi, Multiset.add_cons])
    (fun _ he => he) (fun g hg => List.mem_of_mem_eraseIdx hg) rfl hmsg (by omega)
  have hflow := hflow 0
  generalize vqPut k.other s.dev.tvq m1 g.idx (UInt32.ofNat B.size) = r at ha ht hflow hkick
  simp only [if_true] at ha
  cases ha
  refine ⟨P', hmove, ht1.trans ht, ?_, rfl, rfl, rfl, rfl⟩
  dsimp only
  rw [hkick]
  exact hflow

/-- Every transmit step. -/
theorem Flow.txStep (h : Flow B k m s.dev.tvq rvq s.tx x P) (hk : s.dev.role.getKind = k)
    (hpay : c.payloadSize + 16 ≤ B.size) {a : TxAct} (ha : s.txStep c m a = some (s', m')) :
    TxOutcome B k m rvq x P s s' m' := by
  cases a with
  | send => exact h.send hk hpay ha
  | fill => exact h.fill ha
  | enqueue => exact h.enqueue hk ha
  | allocTxBuffer => exact h.allocTxBuffer hk ha
  | write => exact h.write ha
  | sendNocopy => exact h.sendNocopy hk hpay ha

end

end RpmsgLite
