/-
The task inside its ring operation, phase by phase, and what an interrupt in each phase leaves behind.
-/
import RpmsgLite.Conc.Preempt

namespace RpmsgLite

open ByteMem

/-! ## Single accesses of the task -/

/-- A store of the task into slot `s` of its put ring. -/
structure SlotStore (vr : Vring) (k : RingKind) (s : Nat) (m m' : ByteMem) : Prop where
  frame : Frame m m' (vr.ringLo k) (vr.ringHi k)
  idx : vr.ringIdx m' k = vr.ringIdx m k
  other : ∀ j < vr.num, j ≠ s → vr.slotId m' k j = vr.slotId m k j

/-- A store of the task into the index of its put ring. -/
structure IdxStore (vr : Vring) (k : RingKind) (i : UInt16) (m m' : ByteMem) : Prop where
  frame : Frame m m' (vr.ringLo k) (vr.ringHi k)
  idx : vr.ringIdx m' k = i
  slots : ∀ j < vr.num, vr.slotId m' k j = vr.slotId m k j

section

variable {vr : Vring} {T : DescTable} {m m' : ByteMem} {k : RingKind} {s : Nat} {i : UInt16} {r : Role} {vq : Virtqueue}

theorem SlotWrite.slotStore (h : SlotWrite vr T k s m m') (hf : Frame m m' (vr.ringLo k) (vr.ringHi k)) :
    SlotStore vr k s m m' :=
  ⟨hf, h.idx k, fun j hj hne => by rw [← vr.slotEntry_fst T, h.own j hj hne, vr.slotEntry_fst T]⟩

theorem IdxWrite.idxStore (h : IdxWrite vr T k i m m') (hf : Frame m m' (vr.ringLo k) (vr.ringHi k)) :
    IdxStore vr k i m m' :=
  ⟨hf, h.idx, fun j hj => by rw [← vr.slotEntry_fst T, h.slots k j hj, vr.slotEntry_fst T]⟩

/-- The store of the descriptor. -/
theorem ReleasePc.next_putSlot (clear : Bool) (msg : Nat) (m : ByteMem) (d : UInt16) (len : UInt32)
    (hl : vr.Laid) (hr : vq.ring = vr) (hk : r.getKind = k.other) (hs : s < vr.num) :
    ∃ pc m', (ReleasePc.ring (.putSlot d len s)).next clear r msg vq m = some (.ring pc, vq, m') ∧
      SlotStore vr k s m m' ∧ vr.slotId m' k s = d ∧
      (pc = .putIncRead d len ∨ k = .used ∧ pc = .putLen d len s) := by
  subst hr
  simp only [ReleasePc.next, Pc.next, hk, RingKind.other_other]
  cases k with
  | avail =>
    obtain ⟨hw, hentry⟩ := availSlot_write (T := vq.ring.table m) hl hs m d
    refine ⟨_, _, rfl, hw.slotStore ((frame_st16 m _ d).mono ?_ ?_), ?_, Or.inl rfl⟩
    · simp only [Vring.ringLo, Vring.availRingAt]; omega
    · simp only [Vring.ringHi, Vring.availEnd, Vring.availRingAt]; omega
    · rw [← vq.ring.slotEntry_fst (vq.ring.table m), hentry]
      exact DescTable.entry_fst _ _ _ _
  | used =>
    obtain ⟨hw, hentry⟩ := usedId_write (T := vq.ring.table m) hl hs m d
    refine ⟨_, _, rfl, hw.slotStore ((frame_st32 m _ _).mono ?_ ?_), ?_, Or.inr ⟨rfl, rfl⟩⟩
    · simp only [Vring.ringLo, Vring.usedIdAt]; omega
    · simp only [Vring.ringHi, Vring.usedEnd, Vring.usedIdAt]; omega
    · rw [← vq.ring.slotEntry_fst (vq.ring.table m), hentry]

/-- The store of the length leaves the descriptors alone. -/
theorem ReleasePc.next_putLen (clear : Bool) (msg : Nat) (m : ByteMem) (d : UInt16) (len : UInt32)
    (hl : vr.Laid) (hr : vq.ring = vr) (hs : s < vr.num) (r : Role) :
    ∃ m', (ReleasePc.ring (.putLen d len s)).next clear r msg vq m = some (.ring (.putIncRead d len), vq, m') ∧
      IdxStore vr .used (vr.ringIdx m .used) m m' := by
  subst hr
  obtain ⟨hw, hentry⟩ := usedLen_write (T := vq.ring.table m) hl hs m len
  have hstore := hw.slotStore ((frame_st32 m _ _).mono (by simp only [Vring.ringLo, Vring.usedLenAt]; omega)
    (by simp only [Vring.ringHi, Vring.usedEnd, Vring.usedLenAt]; omega))
  refine ⟨_, rfl, hstore.frame, hstore.idx, fun j hj => ?_⟩
  by_cases hjs : j = s
  · subst hjs
    rw [← vq.ring.slotEntry_fst (vq.ring.table m), hentry, vq.ring.slotEntry_fst]
  · exact hstore.other j hj hjs

/-- The store of the index. -/
theorem ReleasePc.next_putIncWrite (clear : Bool) (msg : Nat) (m : ByteMem) (d : UInt16) (len : UInt32)
    (hl : vr.Laid) (hr : vq.ring = vr) (hk : r.getKind = k.other) :
    ∃ c m', (ReleasePc.ring (.putIncWrite d len i)).next clear r msg vq m =
      some (.ring (.ret .done), { vq with queuedCnt := c }, m') ∧ IdxStore vr k (i + 1) m m' := by
  subst hr
  have hw := idx_write (T := vq.ring.table m) hl k m (i + 1)
  have hstore : IdxStore vq.ring k (i + 1) m (m.st16 (vq.ring.ringIdxAt k) (i + 1)) := by
    refine hw.idxStore ((frame_st16 m _ _).mono ?_ ?_)
    · cases k <;> exact Nat.le_add_right _ _
    · cases k <;> exact Nat.le_add_right _ _
  simp only [ReleasePc.next, Pc.next, hk, RingKind.other_other]
  cases k with
  | avail => exact ⟨vq.queuedCnt + 1, _, rfl, hstore⟩
  | used => exact ⟨vq.queuedCnt, _, rfl, hstore⟩

/-! ## Finishing the ring operation -/

/-- From the load of the index on: the index stored is the one loaded. -/
theorem Releasing.run_putIncWrite (clear : Bool) (msg : Nat) (m : ByteMem) (d : UInt16) (len : UInt32)
    (hl : vr.Laid) (hr : vq.ring = vr) (hk : r.getKind = k.other) {n : Nat} (hn : 1 ≤ n) :
    ∃ vq' m', Releasing.run clear r msg n (.ring (.putIncWrite d len i), vq, m) = (.ring (.ret .done), vq', m') ∧
      IdxStore vr k (i + 1) m m' := by
  obtain ⟨n, rfl⟩ : ∃ n', n = n' + 1 := ⟨n - 1, by omega⟩
  obtain ⟨c, m', hnext, hstore⟩ := ReleasePc.next_putIncWrite clear msg m d len hl hr hk
  refine ⟨{ vq with queuedCnt := c }, m', ?_, hstore⟩
  rw [Releasing.run_succ hnext]
  exact Releasing.run_end rfl n

theorem Releasing.run_putIncRead (clear : Bool) (msg : Nat) (m : ByteMem) (d : UInt16) (len : UInt32)
    (hl : vr.Laid) (hr : vq.ring = vr) (hk : r.getKind = k.other) {n : Nat} (hn : 2 ≤ n) :
    ∃ vq' m', Releasing.run clear r msg n (.ring (.putIncRead d len), vq, m) = (.ring (.ret .done), vq', m') ∧
      IdxStore vr k (vr.ringIdx m k + 1) m m' := by
  obtain ⟨n, rfl⟩ : ∃ n', n = n' + 1 := ⟨n - 1, by omega⟩
  have hnext : (ReleasePc.ring (.putIncRead d len)).next clear r msg vq m =
      some (.ring (.putIncWrite d len (vq.ring.ringIdx m k)), vq, m) := by
    simp only [ReleasePc.next, Pc.next, hk, RingKind.other_other, Option.map_some]
  rw [Releasing.run_succ hnext, hr]
  exact Releasing.run_putIncWrite clear msg m d len hl hr hk (by omega)

theorem Releasing.run_putLen (clear : Bool) (msg : Nat) (m : ByteMem) (d : UInt16) (len : UInt32)
    (hl : vr.Laid) (hr : vq.ring = vr) (hk : r.getKind = .avail) (hs : s < vr.num) {n : Nat}
    (hn : 3 ≤ n) :
    ∃ vq' m', Releasing.run clear r msg n (.ring (.putLen d len s), vq, m) = (.ring (.ret .done), vq', m') ∧
      IdxStore vr .used (vr.ringIdx m .used + 1) m m' := by
  obtain ⟨n, rfl⟩ : ∃ n', n = n' + 1 := ⟨n - 1, by omega⟩
  obtain ⟨m1, hnext, hst⟩ := ReleasePc.next_putLen clear msg m d len hl hr hs r
  obtain ⟨vq', m', hrun, hst'⟩ := Releasing.run_putIncRead (k := .used) clear msg m1 d len hl hr hk
    (n := n) (by omega)
  rw [hst.idx] at hst'
  exact ⟨vq', m', (Releasing.run_succ hnext n).trans hrun, hst.frame.trans hst'.frame, hst'.idx,
    fun j hj => (hst'.slots j hj).trans (hst.slots j hj)⟩

/-- From the computed slot on: the descriptor goes into that slot, whatever the index has become. -/
theorem Releasing.run_putSlot (clear : Bool) (msg : Nat) (m : ByteMem) (d : UInt16) (len : UInt32)
    (hl : vr.Laid) (hr : vq.ring = vr) (hk : r.getKind = k.other) (hs : s < vr.num) {n : Nat}
    (hn : 4 ≤ n) :
    ∃ vq' m', Releasing.run clear r msg n (.ring (.putSlot d len s), vq, m) = (.ring (.ret .done), vq', m') ∧
      vr.ringIdx m' k = vr.ringIdx m k + 1 ∧ vr.slotId m' k s = d ∧
      ∀ j < vr.num, j ≠ s → vr.slotId m' k j = vr.slotId m k j := by
  obtain ⟨n, rfl⟩ : ∃ n', n = n' + 1 := ⟨n - 1, by omega⟩
  obtain ⟨pc, m1, hnext, hst, hid, hpc⟩ := ReleasePc.next_putSlot clear msg m d len hl hr hk hs
  have hrest : ∃ vq' m', Releasing.run clear r msg n (.ring pc, vq, m1) = (.ring (.ret .done), vq', m') ∧
      IdxStore vr k (vr.ringIdx m1 k + 1) m1 m' := by
    rcases hpc with rfl | ⟨rfl, rfl⟩
    · exact Releasing.run_putIncRead clear msg m1 d len hl hr hk (by omega)
    · exact Releasing.run_putLen clear msg m1 d len hl hr hk hs (by omega)
  obtain ⟨vq', m', hrun, hst'⟩ := hrest
  refine ⟨vq', m', (Releasing.run_succ hnext n).trans hrun, ?_, ?_, fun j hj hne => ?_⟩
  · rw [hst'.idx, hst.idx]
  · rw [hst'.slots s hs, hid]
  · rw [hst'.slots j hj, hst.other j hj hne]

end

/-! ## The task up to the interrupt -/

/-- What the task has done to its ring since `m₀`: the index is `i`, the slot behind the old index holds
`a`, the others are as they were. -/
structure RingSince (vr : Vring) (k : RingKind) (m₀ m : ByteMem) (i a : UInt16) : Prop where
  idx : vr.ringIdx m k = i
  own : vr.slotId m k ((vr.ringIdx m₀ k).toNat % vr.num) = a
  other : ∀ j < vr.num, j ≠ (vr.ringIdx m₀ k).toNat % vr.num → vr.slotId m k j = vr.slotId m₀ k j

/-- The task has not touched its ring. -/
def Untouched (vr : Vring) (k : RingKind) (m₀ m : ByteMem) : Prop :=
  vr.ringIdx m k = vr.ringIdx m₀ k ∧ ∀ j < vr.num, vr.slotId m k j = vr.slotId m₀ k j

/-- A task releasing descriptor `d`, from the memory `m₀` on. -/
def ReleasePc.Ok (B : BufferPool) (k : RingKind) (d : UInt16) (m₀ m : ByteMem) : ReleasePc → Prop
  | .readIdx => Untouched B.vr k m₀ m ∧ m.ld16 (hdrIdxAt (B.buffer d)) = d
  | .readLen idx => Untouched B.vr k m₀ m ∧ m.ld16 (hdrIdxAt (B.buffer d)) = d ∧ idx = d
  | .readIdxAgain len => Untouched B.vr k m₀ m ∧ m.ld16 (hdrIdxAt (B.buffer d)) = d ∧ len = UInt32.ofNat B.size
  | .clear e len _ => Untouched B.vr k m₀ m ∧ e = d ∧ len = UInt32.ofNat B.size
  | .ring (.put e _) => Untouched B.vr k m₀ m ∧ e = d
  | .ring (.putSlot e _ s) => Untouched B.vr k m₀ m ∧ e = d ∧ s = (B.vr.ringIdx m₀ k).toNat % B.vr.num
  | .ring (.putLen e _ s) =>
    RingSince B.vr k m₀ m (B.vr.ringIdx m₀ k) d ∧ e = d ∧ k = .used ∧ s = (B.vr.ringIdx m₀ k).toNat % B.vr.num
  | .ring (.putIncRead e _) => RingSince B.vr k m₀ m (B.vr.ringIdx m₀ k) d ∧ e = d
  | .ring (.putIncWrite _ _ i) => RingSince B.vr k m₀ m (B.vr.ringIdx m₀ k) d ∧ i = B.vr.ringIdx m₀ k
  | .ring (.ret .done) => RingSince B.vr k m₀ m (B.vr.ringIdx m₀ k + 1) d
  | _ => False

/-- A task inside the release of `d`, with the messages `Q` waiting for the interrupt. -/
structure Releasing.Inv (B : BufferPool) (k : RingKind) (d : UInt16) (Q : List UInt16) (m₀ : ByteMem) (s : Releasing) :
    Prop where
  view : RxView B k s.2.2 s.2.1 Q
  ok : s.1.Ok B k d m₀ s.2.2

/-- The most accesses that are left, for buffers of `size` bytes. -/
def ReleasePc.left (size : Nat) : ReleasePc → Nat
  | .readIdx => size + 9
  | .readLen _ => size + 8
  | .readIdxAgain _ => size + 7
  | .clear _ _ i => size - i + 6
  | .ring (.put _ _) => 5
  | .ring (.putSlot _ _ _) => 4
  | .ring (.putLen _ _ _) => 3
  | .ring (.putIncRead _ _) => 2
  | .ring (.putIncWrite _ _ _) => 1
  | _ => 0

section

variable {B : BufferPool} {k : RingKind} {d : UInt16} {Q : List UInt16} {m₀ m m' : ByteMem} {s s' : Releasing} {clear : Bool}
  {r : Role}

theorem Untouched.congr {vr : Vring} (h : Untouched vr k m₀ m) (ha : Agree m m' (vr.ringLo k) (vr.ringHi k)) :
    Untouched vr k m₀ m' :=
  ⟨(Vring.ringIdx_congr ha).trans h.1, fun j hj => (vr.slotId_congr ha hj).trans (h.2 j hj)⟩

theorem IdxStore.since {vr : Vring} {i i' a : UInt16} (h : IdxStore vr k i' m m') (hs : RingSince vr k m₀ m i a)
    (hn : 0 < vr.num) : RingSince vr k m₀ m' i' a :=
  ⟨h.idx, (h.slots _ (Nat.mod_lt _ hn)).trans hs.own, fun j hj hne => (h.slots j hj).trans (hs.other j hj hne)⟩

/-- One access of the task. -/
theorem Releasing.Inv.step (h : s.Inv B k d Q m₀) (hk : r.getKind = k.other) (hd : d ∈ B.ids)
    (hs : s.1.next clear r (B.buffer d) s.2.1 s.2.2 = some s') :
    s'.Inv B k d Q m₀ ∧ s'.1.left B.size < s.1.left B.size := by
  obtain ⟨pc, vq, m⟩ := s
  obtain ⟨hview, hok⟩ := h
  have hpos := B.laid.size.pos
  have hslot := Nat.mod_lt (B.vr.ringIdx m₀ k).toNat hpos
  dsimp only at hview hok hs
  cases pc with
  | readIdx =>
    obtain ⟨hu, hidx⟩ := hok
    cases hs
    exact ⟨⟨hview, hu, hidx, hidx⟩, Nat.lt_succ_self _⟩
  | readLen idx =>
    obtain ⟨hu, hidx, rfl⟩ := hok
    cases hs
    refine ⟨⟨hview, hu, hidx, ?_⟩, Nat.lt_succ_self _⟩
    rw [virtqueueGetBufferLength, hview.ring]
    exact (hview.desc idx.toNat (B.mem_ids.1 hd)).2
  | readIdxAgain len =>
    obtain ⟨hu, hidx, rfl⟩ := hok
    cases hs
    exact ⟨⟨hview, hu, hidx, rfl⟩, Nat.lt_succ_self _⟩
  | clear e len i =>
    obtain ⟨hu, rfl, rfl⟩ := hok
    by_cases hc : clear = true ∧ i < (UInt32.ofNat B.size).toNat
    · obtain ⟨rfl, hi⟩ := hc
      rw [ReleasePc.next_clear hi] at hs
      cases hs
      rw [B.toNat_size] at hi
      have hf : Frame m (m.fill (B.buffer e + i) 1 0) (B.buffer e) (B.buffer e + B.size) :=
        (frame_fill m _ _ _).mono (by omega) (by omega)
      have ha := Flow.tables_of_store hd hf
      refine ⟨⟨hview.bufferStore hd hf, hu.congr (ha.mono (B.laid.desc_le_ringLo _) (B.laid.ringHi_le _)), rfl, rfl⟩, ?_⟩
      simp only [ReleasePc.left]
      omega
    · rw [ReleasePc.next_cleared hc] at hs
      cases hs
      have hle := hview.le_nentries hd
      have henter : ReleasePc.enter r vq e (UInt32.ofNat B.size) = .ring (.put e (UInt32.ofNat B.size)) :=
        if_neg fun hgt => absurd hle (UInt16.not_le.2 hgt.2)
      rw [henter]
      refine ⟨⟨hview, hu, rfl⟩, ?_⟩
      simp only [ReleasePc.left]
      omega
  | failed => cases hs
  | ring pc =>
    cases pc with
    | put e len =>
      obtain ⟨hu, rfl⟩ := hok
      simp only [ReleasePc.next, Pc.next, hk, RingKind.other_other, Option.map_some] at hs
      cases hs
      refine ⟨⟨hview, hu, rfl, ?_⟩, Nat.lt_succ_self _⟩
      rw [hview.wf.mask, hview.ring, hu.1]
    | putSlot e len j =>
      obtain ⟨hu, rfl, rfl⟩ := hok
      obtain ⟨pc', m', hnext, hst, hid, hpc⟩ := ReleasePc.next_putSlot clear (B.buffer e) m e len B.laid hview.ring hk hslot
      rw [hnext] at hs
      cases hs
      have hsince : RingSince B.vr k m₀ m' (B.vr.ringIdx m₀ k) e :=
        ⟨hst.idx.trans hu.1, hid, fun j hj hne => (hst.other j hj hne).trans (hu.2 j hj)⟩
      rcases hpc with rfl | ⟨hused, rfl⟩
      · exact ⟨⟨hview.ringStore hst.frame, hsince, rfl⟩, Nat.lt_of_sub_eq_succ rfl⟩
      · exact ⟨⟨hview.ringStore hst.frame, hsince, rfl, hused, rfl⟩, Nat.lt_succ_self _⟩
    | putLen e len j =>
      obtain ⟨hsince, rfl, rfl, rfl⟩ := hok
      obtain ⟨m', hnext, hst⟩ := ReleasePc.next_putLen clear (B.buffer e) m e len B.laid hview.ring hslot r
      rw [hnext] at hs
      cases hs
      rw [hsince.idx] at hst
      exact ⟨⟨hview.ringStore hst.frame, hst.since hsince hpos, rfl⟩, Nat.lt_succ_self _⟩
    | putIncRead e len =>
      obtain ⟨hsince, rfl⟩ := hok
      simp only [ReleasePc.next, Pc.next, hk, RingKind.other_other, Option.map_some] at hs
      cases hs
      refine ⟨⟨hview, hsince, ?_⟩, Nat.lt_succ_self _⟩
      rw [hview.ring, hsince.idx]
    | putIncWrite e len i =>
      obtain ⟨hsince, rfl⟩ := hok
      obtain ⟨c, m', hnext, hst⟩ := ReleasePc.next_putIncWrite clear (B.buffer d) m e len B.laid hview.ring hk
      rw [hnext] at hs
      cases hs
      have hv := hview.ringStore hst.frame
      exact ⟨⟨⟨⟨hv.wf.laid, hv.wf.num_eq⟩, hv.ring, hv.desc, by cases k <;> exact hv.queue, hv.mem⟩,
        hst.since hsince hpos⟩, Nat.lt_succ_self _⟩
    | ret res => cases hs
    | _ => exact hok.elim

/-- Any number of accesses of the task. -/
theorem Releasing.Inv.run (clear : Bool) (h : s.Inv B k d Q m₀) (hk : r.getKind = k.other) (hd : d ∈ B.ids) (n : Nat) :
    (s.run clear r (B.buffer d) n).Inv B k d Q m₀ := by
  induction n generalizing s with
  | zero => exact h
  | succ n ih =>
    cases hs : s.1.next clear r (B.buffer d) s.2.1 s.2.2 with
    | none => rw [Releasing.run_end hs]; exact h
    | some s' => rw [Releasing.run_succ hs]; exact ih (h.step hk hd hs).1

theorem ReleasePc.left_of_next_none {pc : ReleasePc} {vq : Virtqueue} {msg size : Nat}
    (h : pc.next clear r msg vq m = none) : pc.left size = 0 := by
  cases pc with
  | readIdx => cases h
  | readLen => cases h
  | readIdxAgain => cases h
  | clear e len i =>
    by_cases hc : clear = true ∧ i < len.toNat
    · obtain ⟨rfl, hi⟩ := hc
      rw [ReleasePc.next_clear hi] at h; cases h
    · rw [ReleasePc.next_cleared hc] at h; cases h
  | failed => rfl
  | ring pc =>
    have hnext := Option.map_eq_none_iff.1 h
    cases pc with
    | put => cases hnext
    | putSlot => simp only [Pc.next] at hnext; split at hnext <;> cases hnext
    | putLen => cases hnext
    | putIncRead => cases hnext
    | putIncWrite => simp only [Pc.next] at hnext; split at hnext <;> cases hnext
    | _ => rfl

theorem ReleasePc.Ok.done {pc : ReleasePc} (h : pc.Ok B k d m₀ m) (hleft : pc.left B.size = 0) : pc = .ring (.ret .done) := by
  cases pc with
  | ring pc =>
    cases pc with
    | ret res =>
      cases res with
      | done => rfl
      | _ => exact h.elim
    | put => cases hleft
    | putSlot => cases hleft
    | putLen => cases hleft
    | putIncRead => cases hleft
    | putIncWrite => cases hleft
    | _ => exact h.elim
  | failed => exact h.elim
  | _ => simp only [ReleasePc.left] at hleft; omega

/-- The task returns. -/
theorem Releasing.Inv.run_done (clear : Bool) (h : s.Inv B k d Q m₀) (hk : r.getKind = k.other) (hd : d ∈ B.ids) {n : Nat}
    (hn : s.1.left B.size ≤ n) : (s.run clear r (B.buffer d) n).1 = .ring (.ret .done) := by
  induction n generalizing s with
  | zero => exact h.ok.done (Nat.le_zero.1 hn)
  | succ n ih =>
    cases hs : s.1.next clear r (B.buffer d) s.2.1 s.2.2 with
    | none => rw [Releasing.run_end hs]; exact h.ok.done (ReleasePc.left_of_next_none hs)
    | some s' =>
      obtain ⟨hinv, hlt⟩ := h.step hk hd hs
      rw [Releasing.run_succ hs]
      exact ih hinv (by omega)

end

end RpmsgLite
