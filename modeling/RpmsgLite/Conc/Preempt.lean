/-
A receive interrupt inside `rpmsg_lite_release_rx_buffer`. Task and interrupt publish on the same ring
with an unprotected read of the index, a store into the slot and an increment, so from the task's first
read of the index to its last store the interrupt must not publish: the task then overwrites the
interrupt's entry, publishes a slot nobody wrote, or takes the interrupt's entries back.
-/
import RpmsgLite.Conc.Release

namespace RpmsgLite

open ByteMem

/-! ## Published descriptors -/

/-- The descriptor in a slot. -/
def Vring.slotId (vr : Vring) (m : ByteMem) (k : RingKind) (j : Nat) : UInt16 :=
  match k with
  | .avail => m.ld16 (vr.availRingAt j)
  | .used => (m.ld32 (vr.usedIdAt j)).toUInt16

section

variable {vr : Vring} {T : DescTable} {m m' : ByteMem} {k : RingKind} {d : UInt16} {len : UInt32}

@[simp] theorem Vring.slotEntry_fst (vr : Vring) (T : DescTable) (m : ByteMem) (k : RingKind) (j : Nat) :
    (vr.slotEntry T m k j).1 = vr.slotId m k j := by cases k <;> rfl

theorem Vring.pendingIds_eq (vr : Vring) (m : ByteMem) (k : RingKind) (cons : UInt16) :
    vr.pendingIds m k cons = FreeRing.pending (vr.slotId m k) vr.num (vr.ringIdx m k) cons := by
  cases k with
  | avail => rfl
  | used => exact FreeRing.map_pending _ _ _ _ _

theorem Vring.slotId_congr (vr : Vring) {j : Nat} (ha : Agree m m' (vr.ringLo k) (vr.ringHi k)) (hj : j < vr.num) :
    vr.slotId m' k j = vr.slotId m k j := by
  rw [← vr.slotEntry_fst (vr.table m), ← vr.slotEntry_fst (vr.table m), Vring.slotEntry_congr ha hj]

theorem vqPut_slots {vq : Virtqueue} (h : vq.Wf) (len : UInt32) (hd : d ≤ vq.nentries) :
    vq.ring.slotId (vqPut k vq m d len).2 k ((vq.ring.ringIdx m k).toNat % vq.ring.num) = d ∧
      ∀ j < vq.ring.num, j ≠ (vq.ring.ringIdx m k).toNat % vq.ring.num →
        vq.ring.slotId (vqPut k vq m d len).2 k j = vq.ring.slotId m k j := by
  cases k with
  | avail =>
    have hp := vqRingUpdateAvail_spec (m := m) h d
    exact ⟨hp.slot, hp.other⟩
  | used =>
    have hput : (virtqueueAddConsumedBuffer vq m d len).2 = vqRingUpdateUsed vq m d len := by
      rw [virtqueueAddConsumedBuffer_taken hd]
    have hp := vqRingUpdateUsed_spec (m := m) h d len
    have hid : ∀ j, vq.ring.slotId (vqPut .used vq m d len).2 .used j =
      (vq.ring.usedSlot (vqRingUpdateUsed vq m d len) j).1.toUInt16 :=
      fun j => by rw [vqPut, hput]; rfl
    refine ⟨?_, fun j hj hne => ?_⟩
    · rw [hid, Vring.ringIdx, hp.slot, toUInt16_toUInt32]
    · rw [hid, hp.other j hj hne]
      rfl

theorem vqPut_grown {vq : Virtqueue} (h : vq.Wf) (len : UInt32) (hd : d ≤ vq.nentries) :
    FreeRing.Grown vq.ring.num (vq.ring.slotId m k) (vq.ring.slotId (vqPut k vq m d len).2 k)
      (vq.ring.ringIdx m k) (vq.ring.ringIdx (vqPut k vq m d len).2 k) [d] := by
  obtain ⟨hslot, hother⟩ := vqPut_slots (k := k) (m := m) h len hd
  have hg := FreeRing.Grown.single h.laid.size hother
  rw [hslot] at hg
  rw [(vqPut_spec h len hd).idx]
  exact hg

/-- Each descriptor of `ids` is published exactly once since `m`, and no other is. -/
def Vring.PublishedOnce (vr : Vring) (k : RingKind) (m m' : ByteMem) (ids : List UInt16) : Prop :=
  (∀ d ∈ ids, (vr.pendingIds m' k (vr.ringIdx m k)).count d = 1) ∧ ∀ d ∈ vr.pendingIds m' k (vr.ringIdx m k), d ∈ ids

theorem Vring.publishedOnce_iff {ids : List UInt16} (hn : ids.Nodup) :
    vr.PublishedOnce k m m' ids ↔ (vr.pendingIds m' k (vr.ringIdx m k)).Perm ids := by
  constructor
  · rintro ⟨h1, h2⟩
    refine List.perm_iff_count.2 fun a => ?_
    by_cases ha : a ∈ ids
    · rw [h1 a ha, List.count_eq_one_of_mem hn ha]
    · rw [List.count_eq_zero_of_not_mem ha, List.count_eq_zero_of_not_mem fun hm => ha (h2 a hm)]
  · intro hp
    exact ⟨fun a ha => by rw [hp.count_eq, List.count_eq_one_of_mem hn ha], fun a ha => hp.mem_iff.1 ha⟩

end

/-! ## The interrupt -/

/-- What the receive callback finds: messages pending on its get ring, with a table that names buffers. -/
structure RxView (B : BufferPool) (k : RingKind) (m : ByteMem) (rvq : Virtqueue) (Q : List UInt16) : Prop where
  wf : rvq.Wf
  ring : rvq.ring = B.vr
  desc : B.vr.DescIs m B.vr.num B.base B.size B.lo
  queue : B.vr.PendingIs m k.other (rvq.cursor k.other) Q (UInt32.ofNat B.size)
  mem : ∀ d ∈ Q, d ∈ B.ids

section

variable {B : BufferPool} {k : RingKind} {m m' : ByteMem} {rvq : Virtqueue} {Q : List UInt16} {d : UInt16}
  {clear : Bool} {dev : RpmsgLiteInstance} {hold : UInt16 → Bool}

theorem Linked.rxView {tvq : Virtqueue} {P : Custody B.ids} (h : Linked B k m tvq rvq P) : RxView B k m rvq P.queue :=
  ⟨h.rvq_wf, h.rvq_ring, h.desc, h.queue, fun _ => P.mem_queue⟩

namespace RxView

theorem congr (h : RxView B k m rvq Q) (hd : Agree m m' B.vr.desc B.vr.descEnd)
    (hr : Agree m m' (B.vr.ringLo k.other) (B.vr.ringHi k.other)) : RxView B k m' rvq Q :=
  ⟨h.wf, h.ring, h.desc.congr le_rfl hd, h.queue.congr B.laid.size.pos hr, h.mem⟩

/-- A store into the put ring. -/
theorem ringStore (h : RxView B k m rvq Q) (hf : Frame m m' (B.vr.ringLo k) (B.vr.ringHi k)) : RxView B k m' rvq Q :=
  h.congr (hf.agree (Or.inl (B.laid.descEnd_le_ringLo k))) (hf.agree (B.laid.rings_apart k).symm)

/-- A store into a buffer. -/
theorem bufferStore (h : RxView B k m rvq Q) (hd : d ∈ B.ids) (hf : Frame m m' (B.buffer d) (B.buffer d + B.size)) :
    RxView B k m' rvq Q := by
  have ha := Flow.tables_of_store hd hf
  exact h.congr (ha.mono le_rfl B.laid.descEnd_le_usedEnd) (ha.mono (B.laid.desc_le_ringLo _) (B.laid.ringHi_le _))

theorem le_nentries (h : RxView B k m rvq Q) (hd : d ∈ B.ids) : d ≤ rvq.nentries := by
  have hd := B.mem_ids.1 hd
  have hn := h.wf.num_eq
  rw [h.ring] at hn
  exact UInt16.le_iff_toNat_le.2 (by omega)

/-- `vq_rx` finds nothing, or takes the oldest message. -/
theorem take (h : RxView B k m rvq Q) {r : Role} (hk : r.getKind = k.other) (clear : Bool) :
    (Q = [] ∧ (r.vqOps clear).vqRx rvq m = (rvq, none)) ∨
      ∃ d q, Q = d :: q ∧
        (r.vqOps clear).vqRx rvq m = (rvq.setCursor k.other (rvq.cursor k.other + 1), some (B.got d)) ∧
        RxView B k m (rvq.setCursor k.other (rvq.cursor k.other + 1)) q := by
  have hq := h.queue
  have hdesc := h.desc
  rw [vqRx_eq, hk]
  rw [← h.ring] at hq hdesc
  cases Q with
  | nil => exact Or.inl ⟨rfl, by rw [vqGet_nil h.wf hq, nonNull_none]⟩
  | cons d q =>
    have hd : d ∈ B.ids := h.mem d List.mem_cons_self
    obtain ⟨hpos, -, htop⟩ := BufferPool.buffer_bounds hd
    have hsz := B.size_ge
    have hhi := B.bufHi_le
    obtain ⟨hget, hpend⟩ := vqGet_cons h.wf hq hdesc (by rw [h.ring]; exact B.mem_ids.1 hd)
      (by unfold BufferPool.buffer bufferAt at htop; omega)
    rw [h.ring] at hpend
    refine Or.inr ⟨d, q, rfl, ?_,
      ⟨⟨by simpa using h.wf.laid, by simpa using h.wf.num_eq⟩, by simpa using h.ring, h.desc, ?_,
      fun e he => h.mem e (List.mem_cons_of_mem _ he)⟩⟩
    · rw [hget]
      exact nonNull_some (Nat.pos_iff_ne_zero.1 hpos)
    · rw [Virtqueue.cursor_setCursor]
      exact hpend

/-- `vq_rx_free` publishes the descriptor and clears at most its buffer. -/
theorem free (h : RxView B k m rvq Q) {r : Role} (hk : r.getKind = k.other) (clear : Bool) (hd : d ∈ B.ids) :
    ∃ rvq' m', (r.vqOps clear).vqRxFree rvq m (B.buffer d) (UInt32.ofNat B.size) d = some (rvq', m') ∧
      RxView B k m' rvq' Q ∧
      FreeRing.Grown B.vr.num (B.vr.slotId m k) (B.vr.slotId m' k) (B.vr.ringIdx m k) (B.vr.ringIdx m' k) [d] ∧
      ∀ e ∈ B.ids, e ≠ d → Agree m m' (B.buffer e) (B.buffer e + B.size) := by
  have hle := h.le_nentries hd
  rw [vqRxFree_eq r clear m _ _ hle, hk, RingKind.other_other, B.toNat_size]
  have hst : Frame m (if clear then m.fill (B.buffer d) B.size 0 else m) (B.buffer d) (B.buffer d + B.size) := by
    cases clear
    · exact .refl _ _ _
    · exact frame_fill _ _ _ _
  generalize (if clear then m.fill (B.buffer d) B.size 0 else m) = m1 at hst
  have h1 := h.bufferStore hd hst
  have hput := vqPut_spec (k := k) (m := m1) h.wf (UInt32.ofNat B.size) hle
  have hgrown := vqPut_grown (k := k) (m := m1) h.wf (UInt32.ofNat B.size) hle
  obtain ⟨c, hvq⟩ := vqPut_vq k rvq m1 d (UInt32.ofNat B.size)
  rw [h.ring] at hput hgrown
  have h2 := h1.ringStore hput.frame
  have htab := Flow.tables_of_store hd hst
  have hring : Agree m m1 (B.vr.ringLo k) (B.vr.ringHi k) := htab.mono (B.laid.desc_le_ringLo _) (B.laid.ringHi_le _)
  refine ⟨(vqPut k rvq m1 d (UInt32.ofNat B.size)).1, (vqPut k rvq m1 d (UInt32.ofNat B.size)).2, rfl, ?_, ?_,
    fun e he hne => ?_⟩
  · rw [hvq]
    exact ⟨⟨h2.wf.laid, h2.wf.num_eq⟩, h2.ring, h2.desc, by cases k <;> exact h2.queue, h2.mem⟩
  · rw [Vring.ringIdx_congr hring] at hgrown
    refine ⟨hgrown.index, fun cons hc => ?_, fun t h1 ht => ?_⟩
    · rw [hgrown.push cons hc, FreeRing.pending_congr B.laid.size.pos fun j hj => B.vr.slotId_congr hring hj]
    · rw [hgrown.beyond t h1 ht, B.vr.slotId_congr hring (Nat.mod_lt _ B.laid.size.pos)]
  · have hap := BufferPool.buffer_apart (B := B) hne
    unfold Apart at hap
    exact (hst.agree (by omega)).trans (Flow.bufs_of_ring hput.frame he)

/-- The whole callback: it publishes what it does not hold, in the order of the messages. -/
theorem callback (dev : RpmsgLiteInstance) (h : RxView B k m dev.rvq Q) (hk : dev.role.getKind = k.other)
    (hn : Q.Nodup) {fuel : Nat} (hfuel : Q.length < fuel) (clear : Bool) (hold : UInt16 → Bool) :
    ∃ dev' m', rpmsgLiteRxCallback clear (holdBy hold) fuel () dev m = some ((), dev', m') ∧
      RxView B k m' dev'.rvq [] ∧
      FreeRing.Grown B.vr.num (B.vr.slotId m k) (B.vr.slotId m' k) (B.vr.ringIdx m k) (B.vr.ringIdx m' k)
        (Q.filter fun d => !hold d) ∧
      ∀ e ∈ B.ids, e ∉ Q → Agree m m' (B.buffer e) (B.buffer e + B.size) := by
  induction Q generalizing fuel dev m with
  | nil =>
    obtain ⟨fuel, rfl⟩ : ∃ f, fuel = f + 1 := ⟨fuel - 1, by omega⟩
    rcases h.take hk clear with ⟨-, hget⟩ | ⟨d, q, hq, -⟩
    · refine ⟨dev, m, ?_, h, .nil B.laid.size.pos fun _ _ => rfl, fun _ _ _ => .refl _ _ _⟩
      unfold rpmsgLiteRxCallback rpmsgLiteRx
      rw [hget]
    · cases hq
  | cons d q ih =>
    obtain ⟨fuel, rfl⟩ : ∃ f, fuel = f + 1 := ⟨fuel - 1, by omega⟩
    rcases h.take hk clear with ⟨hq, -⟩ | ⟨d', q', hq, hget, h1⟩
    · cases hq
    cases hq
    obtain ⟨hdq, hnq⟩ := List.nodup_cons.1 hn
    have hd : d ∈ B.ids := h.mem d List.mem_cons_self
    have hsz := B.size_ge
    have hf : q.length < fuel := by rw [List.length_cons] at hfuel; omega
    unfold rpmsgLiteRxCallback rpmsgLiteRx
    rw [hget]
    simp only [holdBy, Option.bind_some, rpmsgLiteRxDone]
    cases hh : hold d with
    | true =>
      rw [if_pos (show hold (B.got d).idx = true from hh), Option.bind_some]
      have hst : Frame m (m.st16 (hdrIdxAt (B.got d).buffer) (B.got d).idx) (B.buffer d) (B.buffer d + B.size) :=
        (frame_st16 m _ _).mono (by simp only [hdrIdxAt, BufferPool.got]; omega)
          (by simp only [hdrIdxAt, BufferPool.got]; omega)
      have hring : Agree m _ (B.vr.ringLo k) (B.vr.ringHi k) :=
        (Flow.tables_of_store hd hst).mono (B.laid.desc_le_ringLo _) (B.laid.ringHi_le _)
      obtain ⟨dev', m', hrun, hv, hg, ha⟩ := ih
        { dev with rvq := dev.rvq.setCursor k.other (dev.rvq.cursor k.other + 1) } (h1.bufferStore hd hst) hk hnq hf
      refine ⟨dev', m', hrun, hv, ?_, fun e he hne => ?_⟩
      · rw [List.filter_cons_of_neg (by simp [hh])]
        rw [Vring.ringIdx_congr hring] at hg
        exact hg.congr B.laid.size.pos fun j hj => B.vr.slotId_congr hring hj
      · have hap := BufferPool.buffer_apart (B := B) fun heq : e = d => hne (heq ▸ List.mem_cons_self)
        unfold Apart at hap
        exact (hst.agree (by omega)).trans (ha e he fun hm => hne (List.mem_cons_of_mem _ hm))
    | false =>
      obtain ⟨rvq', m1, hfree, h2, hg1, ha1⟩ := h1.free hk clear hd
      rw [if_neg (by simp [BufferPool.got, hh])]
      simp only [BufferPool.got, hfree, Option.bind_some]
      obtain ⟨dev', m', hrun, hv, hg, ha⟩ := ih { dev with rvq := rvq' } h2 hk hnq hf
      refine ⟨dev', m', hrun, hv, ?_, fun e he hne => ?_⟩
      · rw [List.filter_cons_of_pos (by simp [hh])]
        exact .push_cons B.laid.size hg1 hg
      · exact (ha1 e he fun heq => hne (heq ▸ List.mem_cons_self)).trans
          (ha e he fun hm => hne (List.mem_cons_of_mem _ hm))

end RxView

end

end RpmsgLite
