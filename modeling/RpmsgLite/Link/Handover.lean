/-
The buffers that change hands in a step of a core: the one that it takes, the ones that it stores into, and the one that it
gives away, which it flushes from its data cache where the code does.
-/
import RpmsgLite.Link.Views

namespace RpmsgLite

open ByteMem

/-! ## Taken, flushed and freed -/

section

variable (c : LinkConfig) (s : Side) (m : ByteMem)

/-- The buffer that `vq_tx_alloc` or `vq_rx` returns in a step, and invalidates. -/
def Side.taken : Act → Option Got
  | .tx (.send _ _ data) => (rpmsgLiteSendAlloc c.clear c.payloadSize s.dev m data.length).2.toOption
  | .tx (.fill _) => none
  | .tx (.enqueue _) => none
  | .tx .allocTxBuffer => (rpmsgLiteAllocTxBuffer c.clear s.dev m).2.2
  | .tx (.write _ _ _) => none
  | .tx (.sendNocopy _ _ _ _) => none
  | .rx .rx => (rpmsgLiteRx c.clear s.dev m).2
  | .rx .read => none
  | .rx (.done _) => none
  | .rx (.writeMsg _ _) => none
  | .rx (.writeHeld _ _ _) => none
  | .rx (.releaseRxBuffer _) => none
  | .txCallback => none

/-- What `vq_tx` and `vq_rx_free` flush in a step. -/
def Side.flushed : Act → List Span
  | .tx (.send _ _ _) => []
  | .tx (.fill _) => []
  | .tx (.enqueue i) => (s.tx.sending[i]?).elim [] fun e => [e.got.span]
  | .tx .allocTxBuffer => []
  | .tx (.write _ _ _) => []
  | .tx (.sendNocopy i _ _ size) =>
    if s.sendsNocopy c size then (s.tx.owned[i]?).elim [] fun g => [keptSpan s.dev.tvq m g] else []
  | .rx .rx => []
  | .rx .read => []
  | .rx (.done hold) => if !hold && c.clear then s.rx.hand.got.map Got.span else []
  | .rx (.writeMsg _ _) => []
  | .rx (.writeHeld _ _ _) => []
  | .rx (.releaseRxBuffer i) => if c.clear then (s.rx.held[i]?).elim [] fun g => [keptSpan s.dev.rvq m g] else []
  | .txCallback => []

/-- The buffer that a step gives to `vq_rx_free`. -/
def Side.freed : Act → Option Got
  | .tx _ => none
  | .rx .rx => none
  | .rx .read => none
  | .rx (.done hold) => if hold then none else s.rx.hand.got.head?
  | .rx (.writeMsg _ _) => none
  | .rx (.writeHeld _ _ _) => none
  | .rx (.releaseRxBuffer i) => s.rx.held[i]?
  | .txCallback => none

end

/-! ## Handing over -/

section Handover

variable {W : Pools} {s : Link} {P : ∀ r, Custody (W.pool r).ids} {c : LinkConfig} {r : Role} {g : Got} {x : Side} {w v : ByteMem}
  {a : Act}

/-- What a step takes was in nobody's hands. -/
theorem LinkInv.taken_key (h : LinkInv W s P) (ht : (s.side r).taken c s.m a = some g) :
    ∃ q, g.idx ∈ (W.pool q).ids ∧ g = (W.pool q).got g.idx ∧ g.idx ∉ (P q).sender ∧ g.idx ∉ (P q).receiver := by
  have hl := (h.flow r).linked
  have hin := (h.flow r.peer).linked
  rw [Role.peer_peer] at hin
  have hk : (s.side r).dev.role.getKind = r.getKind := by rw [h.role r]
  have hget : ∀ {tvq : Virtqueue}, ((s.side r).dev.role.vqOps c.clear).vqTxAlloc (s.side r).dev.tvq s.m = (tvq, some g) →
      ∃ q, g.idx ∈ (W.pool q).ids ∧ g = (W.pool q).got g.idx ∧ g.idx ∉ (P q).sender ∧ g.idx ∉ (P q).receiver := by
    intro tvq heq
    rcases hl.txAlloc c.clear hk with hn | ⟨d, f, hf, hget, -⟩
    · rw [hn] at heq
      cases heq
    · rw [hget] at heq
      cases heq
      obtain ⟨h1, h2⟩ := (P r).fresh_free (W.pool r).ids_nodup hf
      exact ⟨r, (P r).mem_free (hf ▸ List.mem_cons_self), rfl, h1, h2⟩
  cases a with
  | tx a =>
    cases a with
    | send src dst data =>
      simp only [Side.taken, rpmsgLiteSendAlloc] at ht
      split at ht
      · cases ht
      split at ht
      · cases ht
      split at ht
      · cases ht
      · rename_i heq
        cases ht
        exact hget heq
    | fill => cases ht
    | enqueue => cases ht
    | allocTxBuffer =>
      simp only [Side.taken, rpmsgLiteAllocTxBuffer] at ht
      split at ht
      · cases ht
      split at ht
      · cases ht
      · rename_i heq
        cases ht
        exact hget heq
    | write => cases ht
    | sendNocopy => cases ht
  | rx a =>
    cases a with
    | rx =>
      change (((s.side r).dev.role.vqOps c.clear).vqRx (s.side r).dev.rvq s.m).2 = some g at ht
      rcases hin.rxTake c.clear (r := (s.side r).dev.role) (by rw [h.role r]; simp) with ⟨-, hn⟩ | ⟨d, f, hf, hget, -⟩
      · rw [hn] at ht
        cases ht
      · rw [hget] at ht
        cases ht
        obtain ⟨h1, h2⟩ := (P r.peer).fresh_queue (W.pool r.peer).ids_nodup hf
        exact ⟨r.peer, (P r.peer).mem_queue (hf ▸ List.mem_cons_self), rfl, h1, h2⟩
    | read => cases ht
    | done => cases ht
    | writeMsg => cases ht
    | writeHeld => cases ht
    | releaseRxBuffer => cases ht
  | txCallback => cases ht

/-- The buffers that a step may work on. -/
def Side.hands (s : Side) : Act → List Got
  | .tx _ => s.tx.gots
  | .rx _ => s.rx.gots
  | .txCallback => []

theorem Side.hands_sub {s : Side} (hg : g ∈ s.hands a) : g ∈ s.gots := by
  cases a with
  | tx => exact List.mem_append_left _ hg
  | rx => exact List.mem_append_right _ hg
  | txCallback => cases hg

/-- What a step does with the buffers: what it takes, what it keeps or gives away, and where it stores. -/
structure Handover (c : LinkConfig) (s : Side) (m : ByteMem) (a : Act) (x : Side) : Prop where
  got : ∀ g ∈ x.gots, g ∈ s.gots ∨ s.taken c m a = some g
  kept : ∀ g, g ∈ s.gots ∨ s.taken c m a = some g →
    g ∈ x.gots ∨ g.span ∈ s.flushed c m a ∨ c.clear = false ∧ s.freed a = some g
  stored : ∀ y ∈ s.stores c m a, ∃ g, (g ∈ s.hands a ∨ s.taken c m a = some g) ∧
    g.buffer ≤ y.1 ∧ y.1 + y.2 ≤ g.buffer + g.len.toNat

/-- A buffer in a core's hands holds a header. -/
theorem LinkInv.got_len (h : LinkInv W s P) (hg : g ∈ (s.side r).gots) : 16 ≤ g.len.toNat := by
  obtain ⟨q, -, heq, -⟩ := h.key hg
  rw [heq]
  show 16 ≤ (UInt32.ofNat (W.pool q).size).toNat
  rw [BufferPool.toNat_size]
  exact (W.pool q).size_ge

theorem writePayload_le {m m' : ByteMem} {off : Nat} {bytes : List UInt8} (h : writePayload m g off bytes = some m')
    (hlen : 16 ≤ g.len.toNat) :
    g.buffer ≤ msgDataAt g.buffer + off ∧ msgDataAt g.buffer + off + bytes.length ≤ g.buffer + g.len.toNat := by
  unfold writePayload at h
  split at h
  · rename_i hle
    simp only [msgDataAt]
    omega
  · cases h

theorem hdrSpans_within {y : Span} (hy : y ∈ hdrSpans g.buffer) (hlen : 16 ≤ g.len.toNat) :
    g.buffer ≤ y.1 ∧ y.1 + y.2 ≤ g.buffer + g.len.toNat := by
  rcases List.mem_cons.1 hy with rfl | hy
  · simp only [hdrSrcAt]; omega
  · rw [List.mem_singleton.1 hy]
    simp only [hdrLenAt]; omega

/-- A step that leaves the buffers in the same hands. -/
theorem Handover.same {m : ByteMem} {s : Side} (hg : x.gots = s.gots) (ht : s.taken c m a = none)
    (hst : ∀ y ∈ s.stores c m a, ∃ g ∈ s.hands a, g.buffer ≤ y.1 ∧ y.1 + y.2 ≤ g.buffer + g.len.toNat) :
    Handover c s m a x := by
  refine ⟨fun g h => Or.inl (hg ▸ h), fun g h => Or.inl ?_, fun y hy => ?_⟩
  · rw [ht] at h
    exact hg ▸ h.resolve_right (fun h => by cases h)
  · obtain ⟨g, hgot, hle⟩ := hst y hy
    exact ⟨g, Or.inl hgot, hle⟩

theorem Side.mem_gots {s : Side} :
    g ∈ s.gots ↔ (∃ e ∈ s.tx.sending, e.got = g) ∨ g ∈ s.tx.owned ∨ g ∈ s.rx.hand.got ∨ g ∈ s.rx.held := by
  simp only [Side.gots, TxHalf.gots, RxHalf.gots, List.mem_append, List.mem_map, or_assoc]

/-- The length that `virtqueue_get_buffer_length` reads for a zero-copy buffer is the buffer's. -/
theorem LinkInv.keptSpan_owned (h : LinkInv W s P) {i : Nat} (hi : (s.side r).tx.owned[i]? = some g) :
    keptSpan (s.side r).dev.tvq s.m g = g.span := by
  have hflow := h.flow r
  obtain ⟨hd, hbuf, hkept, -⟩ := hflow.owned_seen (v := s.m) (fun _ _ => .refl _ _ _) hi
  have hlen : g.len.toNat = (W.pool r).size := by
    rw [hflow.contents.txGot g (List.mem_append_right _ (List.mem_of_getElem? hi))]
    exact (W.pool r).toNat_size
  rw [keptSpan, Got.span, hbuf, hkept, hflow.linked.bufferLength hd, BufferPool.toNat_size, hlen]

/-- And for a held one. -/
theorem LinkInv.keptSpan_held (h : LinkInv W s P) {i : Nat} (hi : (s.side r).rx.held[i]? = some g) :
    keptSpan (s.side r).dev.rvq s.m g = g.span := by
  have hflow := h.flow r.peer
  rw [Role.peer_peer] at hflow
  obtain ⟨hd, hbuf, hkept, -⟩ := hflow.held_seen (v := s.m) (fun _ _ => .refl _ _ _) hi
  have hlen : g.len.toNat = (W.pool r.peer).size := by
    rw [hflow.contents.rxGot g (List.mem_append_right _ (List.mem_of_getElem? hi))]
    exact (W.pool r.peer).toNat_size
  rw [keptSpan, Got.span, hbuf, hkept, hflow.linked.swap.bufferLength hd, BufferPool.toNat_size, hlen]

theorem LinkInv.nocopy_within (h : LinkInv W s P) {i size : Nat} {src dst : UInt32} (hi : (s.side r).tx.owned[i]? = some g)
    (y : Span) (hy : y ∈ (s.side r).stores c s.m (.tx (.sendNocopy i src dst size))) :
    ∃ g ∈ (s.side r).tx.gots, g.buffer ≤ y.1 ∧ y.1 + y.2 ≤ g.buffer + g.len.toNat := by
  have hgot : g ∈ (s.side r).tx.gots := List.mem_append_right _ (List.mem_of_getElem? hi)
  simp only [Side.stores, Side.txStores] at hy
  split at hy
  · simp only [hi, Option.elim] at hy
    exact ⟨g, hgot, hdrSpans_within hy (h.got_len (List.mem_append_left _ hgot))⟩
  · cases hy

theorem LinkInv.handover_tx (h : LinkInv W s P) {a : TxAct} (hs : (s.side r).txStep c s.m a = some (x, w)) :
    Handover c (s.side r) s.m (.tx a) x := by
  have hflow := h.flow r
  cases Side.txStep_cases hs with
  | sendRefused hle hr =>
    exact .same rfl (by simp only [Side.taken, hr, Except.toOption]) (fun y hy => by cases hy)
  | @send src dst data dev got hle hr =>
    have ht : (s.side r).taken c s.m (.tx (.send src dst data)) = some got := by simp only [Side.taken, hr, Except.toOption]
    refine ⟨fun g hg => ?_, fun g hg => Or.inl ?_, fun y hy => by cases hy⟩
    · rw [ht]
      rcases Side.mem_gots.1 hg with ⟨e, he, rfl⟩ | hg
      · rcases List.mem_append.1 he with he | he
        · exact Or.inl (Side.mem_gots.2 (Or.inl ⟨e, he, rfl⟩))
        · rw [List.mem_singleton.1 he]
          exact Or.inr rfl
      · exact Or.inl (Side.mem_gots.2 (Or.inr hg))
    · rw [ht] at hg
      rcases hg with hg | hg
      · refine Side.mem_gots.2 ((Side.mem_gots.1 hg).imp (Exists.imp fun e he => ⟨List.mem_append_left _ he.1, he.2⟩) id)
      · cases hg
        exact Side.mem_gots.2 (Or.inl ⟨_, List.mem_append_right _ List.mem_cons_self, rfl⟩)
  | @fill i e hi =>
    have he := List.mem_of_getElem? hi
    have hgot : e.got ∈ (s.side r).tx.gots := List.mem_append_left _ (List.mem_map_of_mem he)
    have hfits := hflow.contents.fits e he
    have hlen : e.got.len.toNat = (W.pool r).size := by
      rw [hflow.contents.txGot e.got (List.mem_append_left _ (List.mem_map_of_mem he))]
      exact (W.pool r).toNat_size
    refine .same (by simp only [Side.gots, TxHalf.gots_fill hi]) rfl fun y hy => ⟨e.got, hgot, ?_⟩
    simp only [Side.stores, Side.txStores, hi, Option.elim] at hy
    rcases List.mem_append.1 hy with hy | hy
    · exact hdrSpans_within hy (h.got_len (List.mem_append_left _ hgot))
    · rw [List.mem_singleton.1 hy]
      simp only [msgDataAt]
      omega
  | @enqueueStuck i e hi hf hr =>
    exact .same rfl rfl fun y hy => by cases hy
  | @enqueue i e dev m' hi hf hr =>
    refine ⟨fun g hg => Or.inl ?_, fun g hg => ?_, fun y hy => by cases hy⟩
    · refine Side.mem_gots.2 ((Side.mem_gots.1 hg).imp (Exists.imp fun e he => ⟨List.mem_of_mem_eraseIdx he.1, he.2⟩) id)
    · rcases Side.mem_gots.1 (hg.resolve_right (fun h => by cases h)) with ⟨e', he', rfl⟩ | hg
      · rcases mem_eraseIdx_or hi he' with rfl | he'
        swap
        · exact Or.inl (Side.mem_gots.2 (Or.inl ⟨e', he', rfl⟩))
        · refine Or.inr (Or.inl ?_)
          simp only [Side.flushed, hi, Option.elim]
          exact List.mem_cons_self
      · exact Or.inl (Side.mem_gots.2 (Or.inr hg))
  | allocNone hr =>
    have ht : (s.side r).taken c s.m (.tx .allocTxBuffer) = none := by simp only [Side.taken, hr]
    refine .same rfl ht fun y hy => ?_
    simp only [Side.stores, Side.txStores, hr, Option.elim] at hy
    cases hy
  | @allocTxBuffer dev m' g hr =>
    have ht : (s.side r).taken c s.m (.tx .allocTxBuffer) = some g := by simp only [Side.taken, hr]
    obtain ⟨q, -, heq, -⟩ := h.taken_key ht
    have hsz := (W.pool q).size_ge
    have hlen : g.len.toNat = (W.pool q).size := by
      rw [heq]
      exact (W.pool q).toNat_size
    refine ⟨fun e he => ?_, fun e he => Or.inl ?_, fun y hy => ⟨g, Or.inr ht, ?_⟩⟩
    · rw [ht]
      rcases Side.mem_gots.1 he with he | he | he
      · exact Or.inl (Side.mem_gots.2 (Or.inl he))
      · rcases List.mem_append.1 he with he | he
        · exact Or.inl (Side.mem_gots.2 (Or.inr (Or.inl he)))
        · rw [List.mem_singleton.1 he]
          exact Or.inr rfl
      · exact Or.inl (Side.mem_gots.2 (Or.inr (Or.inr he)))
    · rw [ht] at he
      rcases he with he | he
      · exact Side.mem_gots.2 ((Side.mem_gots.1 he).imp id (Or.imp (List.mem_append_left _) id))
      · cases he
        exact Side.mem_gots.2 (Or.inr (Or.inl (List.mem_append_right _ List.mem_cons_self)))
    · simp only [Side.stores, Side.txStores, hr, Option.elim] at hy
      rw [List.mem_singleton.1 hy]
      simp only [hdrIdxAt]
      omega
  | @write i off bytes g m' hi hr =>
    have hgot : g ∈ (s.side r).tx.gots := List.mem_append_right _ (List.mem_of_getElem? hi)
    refine .same rfl rfl fun y hy => ⟨g, hgot, ?_⟩
    simp only [Side.stores, Side.txStores, hi, Option.elim] at hy
    rw [List.mem_singleton.1 hy]
    exact writePayload_le hr (h.got_len (List.mem_append_left _ hgot))
  | @nocopyStuck i size src dst g hle hi hr =>
    exact .same rfl rfl (h.nocopy_within hi)
  | @sendNocopy i size src dst g dev m' hle hi hr =>
    refine ⟨fun e he => Or.inl ?_, fun e he => ?_, fun y hy => ?_⟩
    · exact Side.mem_gots.2 ((Side.mem_gots.1 he).imp id (Or.imp List.mem_of_mem_eraseIdx id))
    · have hsend : (s.side r).sendsNocopy c size = true := by
        by_contra hno
        obtain ⟨_, hne, hno⟩ := Side.nocopy_refused hno
        rw [hno] at hr
        cases hr
        exact hne rfl
      rcases Side.mem_gots.1 (he.resolve_right (fun h => by cases h)) with he | he | he
      · exact Or.inl (Side.mem_gots.2 (Or.inl he))
      · rcases mem_eraseIdx_or hi he with rfl | he
        swap
        · exact Or.inl (Side.mem_gots.2 (Or.inr (Or.inl he)))
        · refine Or.inr (Or.inl ?_)
          simp only [Side.flushed, hsend, if_true, hi, Option.elim, h.keptSpan_owned hi]
          exact List.mem_cons_self
      · exact Or.inl (Side.mem_gots.2 (Or.inr (Or.inr he)))
    · obtain ⟨e, he, hle⟩ := h.nocopy_within hi y hy
      exact ⟨e, Or.inl he, hle⟩
  | @nocopyRefused i size src dst g dev m' status hle hi hr hst =>
    exact .same rfl rfl (h.nocopy_within hi)

theorem LinkInv.done_within (h : LinkInv W s P) {hold : Bool} (hhand : (s.side r).rx.hand = .seen g) (y : Span)
    (hy : y ∈ (s.side r).stores c s.m (.rx (.done hold))) :
    ∃ g ∈ (s.side r).rx.gots, g.buffer ≤ y.1 ∧ y.1 + y.2 ≤ g.buffer + g.len.toNat := by
  have hgot : g ∈ (s.side r).rx.gots := List.mem_append_left _ (by rw [hhand]; exact List.mem_cons_self)
  have hlen := h.got_len (List.mem_append_right _ hgot)
  refine ⟨g, hgot, ?_⟩
  simp only [Side.stores, Side.rxStores, hhand, RxHand.got, List.flatMap_cons, List.flatMap_nil, List.append_nil] at hy
  split at hy
  · rw [List.mem_singleton.1 hy]
    simp only [hdrIdxAt]
    omega
  · split at hy
    · rw [List.mem_singleton.1 hy]
      exact ⟨Nat.le_refl _, Nat.le_refl _⟩
    · cases hy

theorem LinkInv.release_within (h : LinkInv W s P) {i : Nat} (hi : (s.side r).rx.held[i]? = some g) (y : Span)
    (hy : y ∈ (s.side r).stores c s.m (.rx (.releaseRxBuffer i))) :
    ∃ g ∈ (s.side r).rx.gots, g.buffer ≤ y.1 ∧ y.1 + y.2 ≤ g.buffer + g.len.toNat := by
  have hgot : g ∈ (s.side r).rx.gots := List.mem_append_right _ (List.mem_of_getElem? hi)
  refine ⟨g, hgot, ?_⟩
  simp only [Side.stores, Side.rxStores, hi, Option.elim, h.keptSpan_held hi] at hy
  split at hy
  · rw [List.mem_singleton.1 hy]
    exact ⟨Nat.le_refl _, Nat.le_refl _⟩
  · cases hy

theorem LinkInv.handover_rx (h : LinkInv W s P) {a : RxAct} (hs : (s.side r).rxStep c s.m a = some (x, w)) :
    Handover c (s.side r) s.m (.rx a) x := by
  cases Side.rxStep_cases hs with
  | rxNone hidle hr =>
    exact .same rfl (by simp only [Side.taken, hr]) fun y hy => by cases hy
  | @rx dev g hidle hr =>
    have ht : (s.side r).taken c s.m (.rx .rx) = some g := by simp only [Side.taken, hr]
    refine ⟨fun e he => ?_, fun e he => Or.inl ?_, fun y hy => by cases hy⟩
    · rw [ht]
      rcases Side.mem_gots.1 he with he | he | he | he
      · exact Or.inl (Side.mem_gots.2 (Or.inl he))
      · exact Or.inl (Side.mem_gots.2 (Or.inr (Or.inl he)))
      · rw [List.mem_singleton.1 he]
        exact Or.inr rfl
      · exact Or.inl (Side.mem_gots.2 (Or.inr (Or.inr (Or.inr he))))
    · rw [ht] at he
      rcases he with he | he
      · refine Side.mem_gots.2 ((Side.mem_gots.1 he).imp id (Or.imp id (Or.imp (fun hh => ?_) id)))
        rw [hidle] at hh
        cases hh
      · cases he
        exact Side.mem_gots.2 (Or.inr (Or.inr (Or.inl List.mem_cons_self)))
  | @read g hhand =>
    refine .same ?_ rfl fun y hy => by cases hy
    simp only [Side.gots, RxHalf.gots, hhand, RxHand.got]
  | @doneStuck hold g hhand hr => exact .same rfl rfl (h.done_within hhand)
  | @done hold g dev m' hhand hr =>
    refine ⟨fun e he => Or.inl ?_, fun e he => ?_, fun y hy => ?_⟩
    · rcases Side.mem_gots.1 he with he | he | he | he
      · exact Side.mem_gots.2 (Or.inl he)
      · exact Side.mem_gots.2 (Or.inr (Or.inl he))
      · cases he
      · dsimp only at he
        split at he
        · rcases List.mem_append.1 he with he | he
          · exact Side.mem_gots.2 (Or.inr (Or.inr (Or.inr he)))
          · rw [List.mem_singleton.1 he]
            exact Side.mem_gots.2 (Or.inr (Or.inr (Or.inl (by rw [hhand]; exact List.mem_cons_self))))
        · exact Side.mem_gots.2 (Or.inr (Or.inr (Or.inr he)))
    · rcases Side.mem_gots.1 (he.resolve_right (fun h => by cases h)) with he | he | he | he
      · exact Or.inl (Side.mem_gots.2 (Or.inl he))
      · exact Or.inl (Side.mem_gots.2 (Or.inr (Or.inl he)))
      · rw [hhand] at he
        obtain rfl := List.mem_singleton.1 he
        cases hold with
        | true => exact Or.inl (Side.mem_gots.2 (Or.inr (Or.inr (Or.inr (List.mem_append_right _ List.mem_cons_self)))))
        | false =>
          refine Or.inr ?_
          simp only [Side.flushed, Side.freed, hhand, RxHand.got]
          by_cases hc : c.clear = true
          · rw [if_pos (by simp [hc])]
            exact Or.inl List.mem_cons_self
          · exact Or.inr ⟨by simpa using hc, rfl⟩
      · refine Or.inl (Side.mem_gots.2 (Or.inr (Or.inr (Or.inr ?_))))
        dsimp only
        split
        · exact List.mem_append_left _ he
        · exact he
    · obtain ⟨e, he, hle⟩ := h.done_within hhand y hy
      exact ⟨e, Or.inl he, hle⟩
  | @writeMsg off bytes g m' hhand hr =>
    have hgot : g ∈ (s.side r).rx.gots := List.mem_append_left _ (by rw [hhand]; exact List.mem_cons_self)
    refine .same rfl rfl fun y hy => ⟨g, hgot, ?_⟩
    simp only [Side.stores, Side.rxStores, hhand, RxHand.got, List.flatMap_cons, List.flatMap_nil, List.append_nil] at hy
    rw [List.mem_singleton.1 hy]
    exact writePayload_le hr (h.got_len (List.mem_append_right _ hgot))
  | @writeHeld i off bytes g m' hi hr =>
    have hgot : g ∈ (s.side r).rx.gots := List.mem_append_right _ (List.mem_of_getElem? hi)
    refine .same rfl rfl fun y hy => ⟨g, hgot, ?_⟩
    simp only [Side.stores, Side.rxStores, hi, Option.elim] at hy
    rw [List.mem_singleton.1 hy]
    exact writePayload_le hr (h.got_len (List.mem_append_right _ hgot))
  | @releaseStuck i g hi hr => exact .same rfl rfl (h.release_within hi)
  | @release i g dev m' hi hr =>
    refine ⟨fun e he => Or.inl ?_, fun e he => ?_, fun y hy => ?_⟩
    · exact Side.mem_gots.2 ((Side.mem_gots.1 he).imp id (Or.imp id (Or.imp id List.mem_of_mem_eraseIdx)))
    · rcases Side.mem_gots.1 (he.resolve_right (fun h => by cases h)) with he | he | he | he
      · exact Or.inl (Side.mem_gots.2 (Or.inl he))
      · exact Or.inl (Side.mem_gots.2 (Or.inr (Or.inl he)))
      · exact Or.inl (Side.mem_gots.2 (Or.inr (Or.inr (Or.inl he))))
      · rcases mem_eraseIdx_or hi he with rfl | he
        swap
        · exact Or.inl (Side.mem_gots.2 (Or.inr (Or.inr (Or.inr he))))
        · refine Or.inr ?_
          by_cases hc : c.clear = true
          · simp only [Side.flushed, hc, if_true, hi, Option.elim, h.keptSpan_held hi]
            exact Or.inl List.mem_cons_self
          · exact Or.inr ⟨by simpa using hc, hi⟩
    · obtain ⟨e, he, hle⟩ := h.release_within hi y hy
      exact ⟨e, Or.inl he, hle⟩

theorem LinkInv.handover (h : LinkInv W s P) (hs : (s.side r).step c s.m a = some (x, w)) :
    Handover c (s.side r) s.m a x := by
  cases a with
  | tx a => exact h.handover_tx hs
  | rx a => exact h.handover_rx hs
  | txCallback =>
    cases hs
    exact .same rfl rfl fun y hy => by cases hy

/-- What a step takes, stores and flushes depends on what the core sees only. -/
theorem LinkInv.seen_ops (h : LinkInv W s P) (hv : Sees W (s.side r).gots s.m v) (a : Act) :
    (s.side r).taken c v a = (s.side r).taken c s.m a ∧ (s.side r).stores c v a = (s.side r).stores c s.m a ∧
      (s.side r).flushed c v a = (s.side r).flushed c s.m a := by
  have htx := h.flow r
  have hrx := h.flow r.peer
  rw [Role.peer_peer] at hrx
  have hk : (s.side r).dev.role.getKind = r.getKind := by rw [h.role r]
  have hk' : (s.side r).dev.role.getKind = r.peer.getKind.other := by rw [h.role r]; simp
  have hbufs : ∀ {B : BufferPool} {g : Got}, g = B.got g.idx → g ∈ (s.side r).gots →
      Agree s.m v (B.buffer g.idx) (B.buffer g.idx + B.size) := fun heq hg => hv.reads.buffer heq hg
  have hkept : ∀ {B : BufferPool} {k : RingKind} {tvq rvq : Virtqueue} {P : Custody B.ids} {g : Got}, Linked B k s.m tvq rvq P →
      Agree s.m v B.vr.desc B.vr.usedEnd → g.idx ∈ B.ids → g.buffer = B.buffer g.idx →
      v.ld16 (hdrIdxAt (B.buffer g.idx)) = g.idx → s.m.ld16 (hdrIdxAt (B.buffer g.idx)) = g.idx →
      keptSpan tvq v g = keptSpan tvq s.m g := by
    intro B k tvq rvq P g hl ha hd hbuf h1 h2
    rw [keptSpan, keptSpan, hbuf, h1, h2, hl.bufferLength hd, (hl.congr ha).bufferLength hd]
  cases a with
  | tx a =>
    cases a with
    | send src dst data =>
      refine ⟨?_, rfl, rfl⟩
      simp only [Side.taken, rpmsgLiteSendAlloc, htx.linked.txAlloc_eq c.clear (hv.tables r) hk]
    | fill => exact ⟨rfl, rfl, rfl⟩
    | enqueue => exact ⟨rfl, rfl, rfl⟩
    | allocTxBuffer =>
      obtain ⟨-, heq, -⟩ := alloc_same (s.side r).dev c.clear (htx.linked.txAlloc_eq c.clear (hv.tables r) hk)
      exact ⟨heq, by simp only [Side.stores, Side.txStores, heq], rfl⟩
    | write => exact ⟨rfl, rfl, rfl⟩
    | sendNocopy i src dst size =>
      refine ⟨rfl, rfl, ?_⟩
      simp only [Side.flushed]
      split
      · cases hi : (s.side r).tx.owned[i]? with
        | none => rfl
        | some g =>
          obtain ⟨hd, hbuf, h1, h2⟩ := htx.owned_seen (v := v)
            (fun g hg => hbufs (htx.contents.txGot g hg) (List.mem_append_left _ hg)) hi
          simp only [Option.elim, hkept htx.linked (hv.tables r) hd hbuf h1 h2]
      · rfl
  | rx a =>
    cases a with
    | rx =>
      refine ⟨?_, rfl, rfl⟩
      change (((s.side r).dev.role.vqOps c.clear).vqRx (s.side r).dev.rvq v).2 =
        (((s.side r).dev.role.vqOps c.clear).vqRx (s.side r).dev.rvq s.m).2
      rw [hrx.linked.rx_eq c.clear (hv.tables r.peer) hk']
    | read => exact ⟨rfl, rfl, rfl⟩
    | done => exact ⟨rfl, rfl, rfl⟩
    | writeMsg => exact ⟨rfl, rfl, rfl⟩
    | writeHeld => exact ⟨rfl, rfl, rfl⟩
    | releaseRxBuffer i =>
      have heq : ∀ g, (s.side r).rx.held[i]? = some g →
          keptSpan (s.side r).dev.rvq v g = keptSpan (s.side r).dev.rvq s.m g := by
        intro g hi
        obtain ⟨hd, hbuf, h1, h2⟩ := hrx.held_seen (v := v)
          (fun g hg => hbufs (hrx.contents.rxGot g hg) (List.mem_append_right _ hg)) hi
        exact hkept hrx.linked.swap (hv.tables r.peer) hd hbuf h1 h2
      refine ⟨rfl, ?_, ?_⟩
      · simp only [Side.stores, Side.rxStores]
        cases hi : (s.side r).rx.held[i]? with
        | none => rfl
        | some g => simp only [Option.elim, heq g hi]
      · simp only [Side.flushed]
        cases hi : (s.side r).rx.held[i]? with
        | none => rfl
        | some g => simp only [Option.elim, heq g hi]
  | txCallback => exact ⟨rfl, rfl, rfl⟩

theorem Side.freed_stores {s : Side} {m : ByteMem} {g : Got} (hc : c.clear = false) (h : s.freed a = some g) :
    s.stores c m a = [] := by
  cases a with
  | tx => cases h
  | rx a =>
    cases a with
    | rx => cases h
    | read => cases h
    | done hold =>
      cases hold with
      | true => cases h
      | false => simp [Side.stores, Side.rxStores, hc]
    | writeMsg => cases h
    | writeHeld => cases h
    | releaseRxBuffer i => simp [Side.stores, Side.rxStores, hc]
  | txCallback => cases h

end Handover

end RpmsgLite
