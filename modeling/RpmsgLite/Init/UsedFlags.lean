/-
The notification flag of a vring. `vq_ring_must_notify_host` tests a bit of `used->flags` that no code
ever sets: it is what the vring loop of `rpmsg_lite_master_init` leaves, zero if the zeroed range reaches
it, and otherwise what the memory held before.
-/
import RpmsgLite.Init.Layout

namespace RpmsgLite

open MaskArith ByteMem

/-- `used->flags` of a vring. -/
def Vring.usedFlags (vr : Vring) (m : ByteMem) : UInt16 := m.ld16 vr.usedFlagsAt

/-- `VRING_USED_F_NO_NOTIFY` is not set. -/
def Vring.Notifies (vr : Vring) (m : ByteMem) : Prop := vr.usedFlags m &&& VRING_USED_F_NO_NOTIFY = 0

/-- The byte of the flag lies in the zeroed range, or the flag was clear before. -/
def NotifyCleared (m : ByteMem) (vr : Vring) (zeroed : Nat) : Prop :=
  vr.used < vr.desc + zeroed ∨ m vr.used &&& 1 = 0

section

variable {vr : Vring} {vq : Virtqueue} {m m' : ByteMem}

theorem Vring.usedFlags_congr {lo hi : Nat} (h : Agree m m' lo hi) (hlo : lo ≤ vr.used) (hhi : vr.used + 2 ≤ hi) :
    vr.usedFlags m' = vr.usedFlags m :=
  ld16_congr (h.mono (by simp only [usedFlagsAt]; omega) (by simp only [usedFlagsAt]; omega))

/-- The flag is the lowest bit of the first byte. -/
theorem Vring.notifies_iff : vr.Notifies m ↔ m vr.used &&& 1 = 0 := by
  have h16 : ∀ x : UInt16, x &&& 1 = 0 ↔ x.toNat % 2 = 0 := fun x => by
    rw [← UInt16.toNat_inj, UInt16.toNat_and]
    exact (congrArg (· = 0) (Nat.and_one_is_mod x.toNat)).to_iff
  have h8 : ∀ x : UInt8, x &&& 1 = 0 ↔ x.toNat % 2 = 0 := fun x => by
    rw [← UInt8.toNat_inj, UInt8.toNat_and]
    exact (congrArg (· = 0) (Nat.and_one_is_mod x.toNat)).to_iff
  show m.ld16 vr.usedFlagsAt &&& 1 = 0 ↔ _
  rw [h16, h8, ld16, UInt16.toNat_ofNat']
  simp only [le, usedFlagsAt]
  omega

/-! ## The ring operations -/

theorem vqRingUpdateUsed_usedFlags (vq : Virtqueue) (m : ByteMem) (d : UInt16) (len : UInt32) :
    vq.ring.usedFlags (vqRingUpdateUsed vq m d len) = vq.ring.usedFlags m := by
  unfold vqRingUpdateUsed
  simp only
  generalize (m.ld16 vq.ring.usedIdxAt &&& (vq.nentries - 1)).toNat = i
  have f1 := frame_st32 m (vq.ring.usedIdAt i) d.toUInt32
  generalize m.st32 (vq.ring.usedIdAt i) d.toUInt32 = m1 at f1
  have f2 := frame_st32 m1 (vq.ring.usedLenAt i) len
  generalize m1.st32 (vq.ring.usedLenAt i) len = m2 at f2
  have f3 := frame_st16 m2 vq.ring.usedIdxAt (m2.ld16 vq.ring.usedIdxAt + 1)
  have h1 : vq.ring.usedFlags m1 = vq.ring.usedFlags m :=
    Vring.usedFlags_congr (f1.agree (by simp only [Vring.usedIdAt]; omega)) le_rfl le_rfl
  have h2 : vq.ring.usedFlags m2 = vq.ring.usedFlags m1 :=
    Vring.usedFlags_congr (f2.agree (by simp only [Vring.usedLenAt]; omega)) le_rfl le_rfl
  have h3 : vq.ring.usedFlags (m2.st16 vq.ring.usedIdxAt (m2.ld16 vq.ring.usedIdxAt + 1)) = vq.ring.usedFlags m2 :=
    Vring.usedFlags_congr (f3.agree (by simp only [Vring.usedIdxAt]; omega)) le_rfl le_rfl
  exact h3.trans (h2.trans h1)

theorem vqPut_usedFlags (k : RingKind) (h : vq.Wf) (m : ByteMem) (d : UInt16) (len : UInt32) :
    vq.ring.usedFlags (vqPut k vq m d len).2 = vq.ring.usedFlags m := by
  cases k with
  | avail =>
    have hlaid := h.laid.used_le
    exact Vring.usedFlags_congr ((vqRingUpdateAvail_spec h d).frame.agree (Or.inr hlaid)) le_rfl le_rfl
  | used =>
    show vq.ring.usedFlags (virtqueueAddConsumedBuffer vq m d len).2 = _
    unfold virtqueueAddConsumedBuffer
    split
    · rfl
    · exact vqRingUpdateUsed_usedFlags vq m d len

/-! ## The initialisation -/

/-- One turn of the vring loop clears the flags as far as its zeroed range goes. -/
theorem vringMem_usedFlags (h : vq.Wf) (hf : vq.flags = 0) (zeroed : Nat) :
    vq.ring.usedFlags (vringMem zeroed vq m) = vq.ring.usedFlags (m.fill vq.ring.desc zeroed 0) := by
  have hav : vq.ring.avail = vq.ring.desc + 16 * vq.ring.num := h.laid.avail_eq
  have hus : vq.ring.avail + 4 + 2 * vq.ring.num ≤ vq.ring.used := h.laid.used_le
  unfold vringMem
  rw [virtqueueDisableCb_eq hf]
  have f2 := frame_vqRingInit h (m := m.fill vq.ring.desc zeroed 0)
  generalize vqRingInit vq (m.fill vq.ring.desc zeroed 0) = m2 at f2
  have f3 := frame_st16 m2 vq.ring.availFlagsAt (m2.ld16 vq.ring.availFlagsAt ||| VRING_AVAIL_F_NO_INTERRUPT)
  refine (Vring.usedFlags_congr (f3.agree ?_) le_rfl le_rfl).trans (Vring.usedFlags_congr (f2.agree ?_) le_rfl le_rfl)
  · simp only [Vring.availFlagsAt]; omega
  · simp only [Vring.descEnd]; omega

theorem notifies_fill {zeroed : Nat} (h : vr.desc ≤ vr.used) :
    vr.Notifies (m.fill vr.desc zeroed 0) ↔ NotifyCleared m vr zeroed := by
  rw [Vring.notifies_iff]
  unfold NotifyCleared
  by_cases hb : vr.used < vr.desc + zeroed
  · rw [fill_in (by omega) hb]
    exact ⟨fun _ => Or.inl hb, fun _ => rfl⟩
  · rw [frame_fill m vr.desc zeroed 0 vr.used (Or.inr (by omega)), or_iff_right hb]

variable {w : Nat} {p : ShmemParams} {addr total lo : Nat} {isRvq : Bool} {vq0 : Virtqueue} {m0 : ByteMem}

/-- The buffer loop leaves the flags of its own vring alone. -/
theorem masterFill_usedFlags (h : vq0.Wf) (ha : FillApart w p addr total lo vq0.ring) {i : Nat} {st st' : FillState}
    (hi : i < vq0.ring.num) (hinv : FillInv w p addr total lo isRvq vq0 m0 i st)
    (hs : masterFill w p addr isRvq total st = some st') : vq0.ring.usedFlags st'.m = vq0.ring.usedFlags st.m := by
  obtain ⟨c, hvq⟩ := hinv.vq
  have hw : st.vq.Wf := by rw [hvq]; exact ⟨h.laid, h.num_eq⟩
  have hring : st.vq.ring = vq0.ring := by rw [hvq]
  have hheadN : st.vq.descHeadIdx.toNat = i := by
    rw [hvq]
    have hle := h.laid.size.le
    exact UInt16.toNat_ofNat_of_lt' (by simp only [UInt16.size]; omega)
  -- the buffer of this turn lies behind or before the tables
  have hmul : p.bufferSize * (lo + i) + p.bufferSize ≤ p.bufferSize * (lo + vq0.ring.num) := by
    rw [← Nat.mul_succ]; exact Nat.mul_le_mul_left _ (by omega)
  have hlo : p.bufferSize * lo ≤ p.bufferSize * (lo + i) := Nat.mul_le_mul_left _ (by omega)
  have htop := ha.top
  have hsz := ha.size_pos
  have hbase := ha.base_pos
  have htot := ha.total_le
  have hapart := ha.apart
  have hbuf : nextBuffer w p addr total st.remaining = shMemBase w p addr + p.bufferSize * (lo + i) := by
    unfold nextBuffer
    rw [hinv.remaining, if_pos (by omega), show total - (total - (lo + i)) = lo + i by omega, wrap_of_lt (by omega)]
  generalize hb : shMemBase w p addr + p.bufferSize * (lo + i) = b at hbuf
  simp only [masterFill, hbuf, if_neg (show b ≠ 0 by omega), Option.some.injEq] at hs
  subst hs
  have ffill := frame_fill st.m b p.bufferSize 0
  obtain ⟨fdesc, -⟩ := fillDesc_spec st.vq (st.m.fill b p.bufferSize 0) st.vq.descHeadIdx
    (b := b) (UInt32.ofNat p.bufferSize) (by omega)
  rw [hring, hheadN] at fdesc
  have hdu := h.laid.descEnd_le_ringLo .used
  have hdd := vq0.ring.desc_le_descEnd
  simp only [Vring.descEnd, Vring.ringLo] at hdu
  have hend : vq0.ring.usedEnd = vq0.ring.used + 4 + 8 * vq0.ring.num := rfl
  have h1 : vq0.ring.usedFlags (st.m.fill b p.bufferSize 0) = vq0.ring.usedFlags st.m :=
    Vring.usedFlags_congr (ffill.agree (show vq0.ring.used + 2 ≤ b ∨ b + p.bufferSize ≤ vq0.ring.used by omega)) le_rfl le_rfl
  have h2 : vq0.ring.usedFlags (fillDesc st.vq (st.m.fill b p.bufferSize 0) st.vq.descHeadIdx b
      (UInt32.ofNat p.bufferSize)) = vq0.ring.usedFlags (st.m.fill b p.bufferSize 0) :=
    Vring.usedFlags_congr (fdesc.agree (Or.inr (show _ ≤ vq0.ring.used by omega))) le_rfl le_rfl
  rw [← h1, ← h2]
  cases isRvq with
  | true =>
    have hw' : ({ st.vq with descHeadIdx := st.vq.descHeadIdx + 1 } : Virtqueue).Wf := ⟨hw.laid, hw.num_eq⟩
    rw [← hring]
    exact vqPut_usedFlags .avail hw' _ st.vq.descHeadIdx 0
  | false =>
    simp only [fillBuffers, virtqueueFillUsedBuffers, vqRingAddBuffer, if_neg (show b ≠ 0 by omega), Bool.false_eq_true,
      if_false]
    rw [← hring]
    exact vqRingUpdateUsed_usedFlags st.vq _ st.vq.descHeadIdx _

theorem masterFillLoop_usedFlags (h : vq0.Wf) (ha : FillApart w p addr total lo vq0.ring) :
    ∀ {n i : Nat} {st st' : FillState}, i + n ≤ vq0.ring.num → FillInv w p addr total lo isRvq vq0 m0 i st →
      masterFillLoop w p addr isRvq total n st = some st' → vq0.ring.usedFlags st'.m = vq0.ring.usedFlags st.m
  | 0, _, st, st', _, _, hs => by
    cases hs
    rfl
  | n + 1, i, st, st', hn, hinv, hs => by
    obtain ⟨st1, h1, hs⟩ := Option.bind_eq_some_iff.1 hs
    obtain ⟨st2, h2, hinv1⟩ := masterFill_step h ha (i := i) (by omega) hinv
    obtain rfl : st1 = st2 := Option.some.inj (h1.symm.trans h2)
    exact (masterFillLoop_usedFlags h ha (n := n) (i := i + 1) (by omega) hinv1 hs).trans
      (masterFill_usedFlags h ha (by omega) hinv h1)

/-- The vring loop clears the flag of a vring exactly as far as its zeroed range or the memory before did. -/
theorem vringLoop_notifies (hl : LayoutOk w p addr) (linkId : UInt32) (m : ByteMem) :
    ((vringOf w p addr 0).Notifies (vringLoopMem w p addr linkId m) ↔
      NotifyCleared m (vringOf w p addr 0) (zeroedSize w p)) ∧
    ((vringOf w p addr 1).Notifies (vringLoopMem w p addr linkId m) ↔
      NotifyCleared m (vringOf w p addr 1) (zeroedSize w p)) := by
  have hw0 : (initVq w p addr linkId .rxCallback 0).Wf := initVq_wf hl.laid0
  have hw1 : (initVq w p addr linkId .txCallback 1).Wf := initVq_wf hl.laid1
  unfold vringLoopMem Vring.Notifies
  obtain ⟨f0, -⟩ := vringMem_spec hw0 rfl hl.zeroed (m := m)
  have u0 := vringMem_usedFlags hw0 rfl (zeroedSize w p) (m := m)
  generalize vringMem (zeroedSize w p) (initVq w p addr linkId .rxCallback 0) m = m1 at f0 u0
  obtain ⟨f1, -⟩ := vringMem_spec hw1 rfl hl.zeroed (m := m1)
  have u1 := vringMem_usedFlags hw1 rfl (zeroedSize w p) (m := m1)
  generalize vringMem (zeroedSize w p) (initVq w p addr linkId .txCallback 1) m1 = m2 at f1 u1
  change Frame m m1 (vringOf w p addr 0).desc ((vringOf w p addr 0).desc + zeroedSize w p) at f0
  change Frame m1 m2 (vringOf w p addr 1).desc ((vringOf w p addr 1).desc + zeroedSize w p) at f1
  change (vringOf w p addr 0).usedFlags m1 = _ at u0
  change (vringOf w p addr 1).usedFlags m2 = _ at u1
  have hd0 := hl.laid0.desc_le_ringLo .used
  have hd1 := hl.laid1.desc_le_ringLo .used
  have hord := hl.order
  have hend : (vringOf w p addr 0).used + 2 ≤ (vringOf w p addr 0).usedEnd := by
    simp only [Vring.usedEnd]; omega
  simp only [Vring.ringLo] at hd0 hd1
  refine ⟨?_, ?_⟩
  · rw [Vring.usedFlags_congr (f1.agree (Or.inl (hend.trans hord))) le_rfl le_rfl, u0]
    exact notifies_fill hd0
  · rw [u1]
    refine (notifies_fill hd1).trans ?_
    unfold NotifyCleared
    by_cases hb : (vringOf w p addr 1).used < (vringOf w p addr 1).desc + zeroedSize w p
    · exact ⟨fun _ => Or.inl hb, fun _ => Or.inl hb⟩
    · rw [f0 (vringOf w p addr 1).used (Or.inr (by omega))]

/-- After a successful initialisation a kick on a vring notifies exactly when its flag was cleared. -/
theorem MasterRun.notifies {env : InitEnv} {cfg : ShmemConfig} {length count : Nat} {linkId : UInt32}
    {m m' : ByteMem} {dev : RpmsgLiteInstance} (h : MasterRun w env cfg addr length linkId m p count dev m')
    (hl : LayoutOk w p addr) (ht : p.count.toNat + p.count.toNat ≤ wrap 32 count) :
    ((vringOf w p addr 0).Notifies m' ↔ NotifyCleared m (vringOf w p addr 0) (zeroedSize w p)) ∧
    ((vringOf w p addr 1).Notifies m' ↔ NotifyCleared m (vringOf w p addr 1) (zeroedSize w p)) := by
  have hw1 : (initVq w p addr linkId .txCallback 1).Wf := initVq_wf hl.laid1
  obtain ⟨n0, n1⟩ := vringLoop_notifies hl linkId m
  obtain ⟨st0, st1, hf, rfl⟩ := h.filled hl ht
  generalize vringLoopMem w p addr linkId m = m2 at hf n0 n1
  have hflags1 := masterFillLoop_usedFlags hw1 (hl.apart ht).2 (n := p.count.toNat) (i := 0)
    (by rw [Nat.zero_add]; exact le_rfl) (fillInv_start (c := 0)) hf.loop
  have hend : ∀ idx, (vringOf w p addr idx).used + 2 ≤ (vringOf w p addr idx).usedEnd := fun idx => by
    simp only [Vring.usedEnd]; omega
  refine ⟨?_, ?_⟩
  · rw [← n0]
    unfold Vring.Notifies
    rw [Vring.usedFlags_congr (hf.vring0 hl) (hl.laid0.desc_le_ringLo .used) (hend 0),
      Vring.usedFlags_congr (hf.used0 hl) le_rfl (hend 0)]
  · rw [← n1]
    unfold Vring.Notifies
    rw [show (vringOf w p addr 1).usedFlags st1.m = (vringOf w p addr 1).usedFlags st0.m from hflags1,
      Vring.usedFlags_congr (hf.vring1 hl) (hl.laid1.desc_le_ringLo .used) (hend 1)]

end

end RpmsgLite
