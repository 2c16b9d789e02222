/-
The shared memory after `rpmsg_lite_master_init`, for a layout whose tables and buffers are apart.
The vring loop leaves both rings empty, except that a used index outside the zeroed range keeps what
the memory held. The invariant of the buffer loop says which entries are published so far.
-/
import RpmsgLite.Init.Master

namespace RpmsgLite

open MaskArith ByteMem

/-! ## The vring loop -/

section Vring

variable {vq : Virtqueue} {m : ByteMem}

theorem frame_vqRingInit_foldl {vr : Vring} : ∀ (l : List Nat) (m : ByteMem), (∀ i ∈ l, i < vr.num) →
    Frame m (l.foldl (fun m i => m.st16 (vr.descNextAt i) (UInt16.ofNat (i + 1))) m) vr.desc vr.descEnd
  | [], m, _ => Frame.refl _ _ _
  | i :: l, m, h => by
    have hi := h i List.mem_cons_self
    refine ((frame_st16 m (vr.descNextAt i) _).mono ?_ ?_).trans
      (frame_vqRingInit_foldl l _ fun j hj => h j (List.mem_cons_of_mem _ hj))
    · simp only [Vring.descNextAt]; omega
    · simp only [Vring.descNextAt, Vring.descEnd]; omega

/-- With at least one entry the 32-bit bound `size - 1` does not wrap. -/
theorem vqRingInit_bound {n : Nat} (h0 : 0 < n) (hn : n ≤ 65535) : wrap 32 (n + (2 ^ 32 - 1)) = n - 1 := by
  unfold wrap; omega

theorem frame_vqRingInit (h : vq.Wf) : Frame m (vqRingInit vq m) vq.ring.desc vq.ring.descEnd := by
  have hpos := h.pos
  have hle := h.laid.size.le
  unfold vqRingInit vqRingInitWrites
  simp only
  rw [h.num_eq, vqRingInit_bound hpos (by omega)]
  refine (frame_vqRingInit_foldl _ m fun i hi => ?_).trans ((frame_st16 _ _ _).mono ?_ ?_)
  · have := List.mem_range.1 hi; omega
  · simp only [Vring.descNextAt]; omega
  · simp only [Vring.descNextAt, Vring.descEnd]; omega

theorem virtqueueDisableCb_eq (hf : vq.flags = 0) : virtqueueDisableCb vq m =
    m.st16 vq.ring.availFlagsAt (m.ld16 vq.ring.availFlagsAt ||| VRING_AVAIL_F_NO_INTERRUPT) := by
  unfold virtqueueDisableCb
  rw [if_neg (by rw [hf]; decide)]

/-- What the vring loop does to the shared memory: both rings are empty, if the zeroed range reaches
the used index. -/
theorem vringMem_spec (h : vq.Wf) (hf : vq.flags = 0) {zeroed : Nat} (hz : 18 * vq.ring.num + 8 ≤ zeroed) :
    Frame m (vringMem zeroed vq m) vq.ring.desc (vq.ring.desc + zeroed) ∧
    (vringMem zeroed vq m).ld16 vq.ring.availIdxAt = 0 ∧
    (vringMem zeroed vq m).ld16 vq.ring.usedIdxAt = (m.fill vq.ring.desc zeroed 0).ld16 vq.ring.usedIdxAt := by
  have hav : vq.ring.avail = vq.ring.desc + 16 * vq.ring.num := h.laid.avail_eq
  have hus : vq.ring.avail + 4 + 2 * vq.ring.num ≤ vq.ring.used := h.laid.used_le
  unfold vringMem
  rw [virtqueueDisableCb_eq hf]
  have f1 := frame_fill m vq.ring.desc zeroed 0
  have f2 := frame_vqRingInit h (m := m.fill vq.ring.desc zeroed 0)
  have f3 := frame_st16 (vqRingInit vq (m.fill vq.ring.desc zeroed 0)) vq.ring.availFlagsAt
    ((vqRingInit vq (m.fill vq.ring.desc zeroed 0)).ld16 vq.ring.availFlagsAt ||| VRING_AVAIL_F_NO_INTERRUPT)
  have key : ∀ a, vq.ring.avail + 2 ≤ a →
      (((vqRingInit vq (m.fill vq.ring.desc zeroed 0)).st16 vq.ring.availFlagsAt
        ((vqRingInit vq (m.fill vq.ring.desc zeroed 0)).ld16 vq.ring.availFlagsAt ||| VRING_AVAIL_F_NO_INTERRUPT))).ld16 a =
      (m.fill vq.ring.desc zeroed 0).ld16 a := by
    intro a ha
    rw [ld16_congr (f3.agree (by simp only [Vring.availFlagsAt]; omega)),
      ld16_congr (f2.agree (by simp only [Vring.descEnd]; omega))]
  refine ⟨?_, ?_, ?_⟩
  · refine (f1.trans (f2.mono le_rfl (by simp only [Vring.descEnd]; omega))).trans (f3.mono ?_ ?_)
    · simp only [Vring.availFlagsAt]; omega
    · simp only [Vring.availFlagsAt]; omega
  · rw [key _ (by simp only [Vring.availIdxAt]; omega), ld16_eq_zero_iff]
    intro b h1 h2
    simp only [Vring.availIdxAt] at h1 h2
    exact fill_in (by omega) (by omega)
  · exact key _ (by simp only [Vring.usedIdxAt]; omega)

end Vring

/-! ## One turn of the buffer loop -/

def fillKind (isRvq : Bool) : RingKind := if isRvq then .avail else .used

theorem envMapVatopa_toUInt64 {b : Nat} (h : b < 2 ^ 32) : (envMapVatopa b).toUInt64 = UInt64.ofNat b := by
  unfold envMapVatopa
  rw [← UInt64.toNat_inj, UInt32.toNat_toUInt64, UInt32.toNat_ofNat_of_lt' (by simpa [UInt32.size] using h),
    UInt64.toNat_ofNat_of_lt' (by simp only [UInt64.size]; omega)]

/-- The stores into one descriptor. -/
theorem fillDesc_spec (vq : Virtqueue) (m : ByteMem) (d : UInt16) {b : Nat} (len : UInt32) (hb : b < 2 ^ 32) :
    Frame m (fillDesc vq m d b len) (vq.ring.desc + 16 * d.toNat) (vq.ring.desc + 16 * d.toNat + 16) ∧
    (fillDesc vq m d b len).ld64 (vq.ring.descAddrAt d.toNat) = UInt64.ofNat b ∧
    (fillDesc vq m d b len).ld32 (vq.ring.descLenAt d.toNat) = len := by
  unfold fillDesc
  simp only [Vring.descAddrAt, Vring.descLenAt, Vring.descFlagsAt, envMapVatopa_toUInt64 hb]
  generalize vq.ring.desc + 16 * d.toNat = a
  have f1 := frame_st64 m a (UInt64.ofNat b)
  have f2 := frame_st32 (m.st64 a (UInt64.ofNat b)) (a + 8) len
  have f3 := frame_st16 ((m.st64 a (UInt64.ofNat b)).st32 (a + 8) len) (a + 12) VRING_DESC_F_WRITE
  refine ⟨?_, ?_, ?_⟩
  · exact ((f1.mono le_rfl (by omega)).trans (f2.mono (by omega) (by omega))).trans (f3.mono (by omega) (by omega))
  · rw [ld64_congr (f3.agree (by omega)), ld64_congr (f2.agree (by omega)), ld64_st64]
  · rw [ld32_congr (f3.agree (by omega)), ld32_st32]

/-- The fill operation publishes the descriptor it has just written. -/
theorem fillBuffers_spec {vq : Virtqueue} (h : vq.Wf) (isRvq : Bool) (m : ByteMem) {b : Nat} (hb : b ≠ 0)
    (len : UInt32) :
    (∃ c, (fillBuffers isRvq vq m b len).1 = { vq with descHeadIdx := vq.descHeadIdx + 1, queuedCnt := c }) ∧
    RingPut vq.ring (fillKind isRvq) (fillDesc vq m vq.descHeadIdx b len) (fillBuffers isRvq vq m b len).2
      vq.descHeadIdx len := by
  cases isRvq with
  | true =>
    have hw : ({ vq with descHeadIdx := vq.descHeadIdx + 1 } : Virtqueue).Wf := ⟨h.laid, h.num_eq⟩
    exact ⟨⟨_, rfl⟩, (vqRingUpdateAvail_spec hw vq.descHeadIdx).ringPut h.laid.size len⟩
  | false =>
    refine ⟨⟨vq.queuedCnt, ?_⟩, ?_⟩
    · simp [fillBuffers, virtqueueFillUsedBuffers, vqRingAddBuffer, hb]
    · have hput := (vqRingUpdateUsed_spec h vq.descHeadIdx len (m := fillDesc vq m vq.descHeadIdx b len)).ringPut
        h.laid.size
      simpa [fillBuffers, virtqueueFillUsedBuffers, vqRingAddBuffer, hb, fillKind] using hput

/-! ## The buffer loop -/

section Loop

variable {w : Nat} {p : ShmemParams} {addr total lo : Nat} {isRvq : Bool} {vq0 : Virtqueue} {m0 : ByteMem}

/-- The state after `i` turns of the loop over `vq0`, which starts with `lo` buffers handed out: the
descriptors `0..i-1` are published in order, and nothing but the tables and these buffers changed. -/
structure FillInv (w : Nat) (p : ShmemParams) (addr total lo : Nat) (isRvq : Bool) (vq0 : Virtqueue)
    (m0 : ByteMem) (i : Nat) (st : FillState) : Prop where
  vq : ∃ c, st.vq = { vq0 with descHeadIdx := UInt16.ofNat i, queuedCnt := c }
  remaining : st.remaining = total - (lo + i)
  idx : vq0.ring.ringIdx st.m (fillKind isRvq) = vq0.ring.ringIdx m0 (fillKind isRvq) + UInt16.ofNat i
  pending : vq0.ring.PendingIs st.m (fillKind isRvq) (vq0.ring.ringIdx m0 (fillKind isRvq))
    ((List.range i).map UInt16.ofNat) (UInt32.ofNat p.bufferSize)
  desc : vq0.ring.DescIs st.m i (shMemBase w p addr) p.bufferSize lo
  frame : ∀ a, (a < vq0.ring.desc ∨ vq0.ring.descEnd ≤ a) →
    (a < vq0.ring.ringLo (fillKind isRvq) ∨ vq0.ring.ringHi (fillKind isRvq) ≤ a) →
    (a < shMemBase w p addr + p.bufferSize * lo ∨ shMemBase w p addr + p.bufferSize * (lo + i) ≤ a) → st.m a = m0 a

/-- The vring of the loop lies apart from the buffers it hands out. -/
structure FillApart (w : Nat) (p : ShmemParams) (addr total lo : Nat) (vr : Vring) : Prop where
  base_pos : 0 < shMemBase w p addr
  size_pos : 0 < p.bufferSize
  top : shMemBase w p addr + p.bufferSize * (lo + vr.num) ≤ 2 ^ 32
  apart : vr.usedEnd ≤ shMemBase w p addr + p.bufferSize * lo ∨
    shMemBase w p addr + p.bufferSize * (lo + vr.num) ≤ vr.desc
  total_le : lo + vr.num ≤ total

theorem fillInv_start {m : ByteMem} {c : UInt16} :
    FillInv w p addr total lo isRvq vq0 m 0 { vq := { vq0 with descHeadIdx := 0, queuedCnt := c }, m, remaining := total - lo } :=
  ⟨⟨c, rfl⟩, rfl, by simp, Vring.pendingIs_nil _ _ _ _, fun d hd => absurd hd (Nat.not_lt_zero d), fun _ _ _ _ => rfl⟩

/-- The loop leaves every range alone that is apart from the descriptors, the ring and the buffers. -/
theorem FillInv.agree {i : Nat} {st : FillState} (hinv : FillInv w p addr total lo isRvq vq0 m0 i st) {x y : Nat}
    (hd : y ≤ vq0.ring.desc ∨ vq0.ring.descEnd ≤ x)
    (hr : y ≤ vq0.ring.ringLo (fillKind isRvq) ∨ vq0.ring.ringHi (fillKind isRvq) ≤ x)
    (hb : y ≤ shMemBase w p addr + p.bufferSize * lo ∨ shMemBase w p addr + p.bufferSize * (lo + i) ≤ x) :
    Agree m0 st.m x y :=
  fun a _ _ => hinv.frame a (by omega) (by omega) (by omega)

/-- One turn publishes one more buffer. -/
theorem masterFill_step (h : vq0.Wf) (ha : FillApart w p addr total lo vq0.ring) {i : Nat} {st : FillState}
    (hi : i < vq0.ring.num) (hinv : FillInv w p addr total lo isRvq vq0 m0 i st) :
    ∃ st', masterFill w p addr isRvq total st = some st' ∧ FillInv w p addr total lo isRvq vq0 m0 (i + 1) st' := by
  have hle := h.laid.size.le
  have htot := ha.total_le
  -- the buffer of this turn
  have hmul : p.bufferSize * (lo + i) + p.bufferSize ≤ p.bufferSize * (lo + vq0.ring.num) := by
    rw [← Nat.mul_succ]; exact Nat.mul_le_mul_left _ (by omega)
  have hlo : p.bufferSize * lo ≤ p.bufferSize * (lo + i) := Nat.mul_le_mul_left _ (by omega)
  have htop := ha.top
  have hsz := ha.size_pos
  have hbase := ha.base_pos
  have hbuf : nextBuffer w p addr total st.remaining = shMemBase w p addr + p.bufferSize * (lo + i) := by
    unfold nextBuffer
    rw [hinv.remaining, if_pos (by omega), show total - (total - (lo + i)) = lo + i by omega, wrap_of_lt (by omega)]
  obtain ⟨c, hvq⟩ := hinv.vq
  have hw : st.vq.Wf := by rw [hvq]; exact ⟨h.laid, h.num_eq⟩
  have hring : st.vq.ring = vq0.ring := by rw [hvq]
  have hhead : st.vq.descHeadIdx = UInt16.ofNat i := by rw [hvq]
  have hheadN : (UInt16.ofNat i).toNat = i := UInt16.toNat_ofNat_of_lt' (by simp only [UInt16.size]; omega)
  generalize hb : shMemBase w p addr + p.bufferSize * (lo + i) = b at hbuf
  have hb0 : b ≠ 0 := by omega
  have hstep : masterFill w p addr isRvq total st = some
      { vq := (fillBuffers isRvq st.vq (st.m.fill b p.bufferSize 0) b (UInt32.ofNat p.bufferSize)).1
        m := (fillBuffers isRvq st.vq (st.m.fill b p.bufferSize 0) b (UInt32.ofNat p.bufferSize)).2
        remaining := st.remaining - 1 } := by
    simp only [masterFill, hbuf, if_neg hb0]
  refine ⟨_, hstep, ?_⟩
  obtain ⟨⟨c', hvq'⟩, hput⟩ := fillBuffers_spec hw isRvq (st.m.fill b p.bufferSize 0) (b := b) (by omega)
    (UInt32.ofNat p.bufferSize)
  obtain ⟨fdesc, haddr, hlen⟩ := fillDesc_spec st.vq (st.m.fill b p.bufferSize 0) st.vq.descHeadIdx
    (b := b) (UInt32.ofNat p.bufferSize) (by omega)
  have ffill := frame_fill st.m b p.bufferSize 0
  rw [hring, hhead, hheadN] at fdesc haddr hlen
  rw [hring, hhead] at hput
  generalize hm2 : fillDesc st.vq (st.m.fill b p.bufferSize 0) (UInt16.ofNat i) b (UInt32.ofNat p.bufferSize) = m2
    at fdesc haddr hlen hput
  generalize hr : fillBuffers isRvq st.vq (st.m.fill b p.bufferSize 0) b (UInt32.ofNat p.bufferSize) = r at hput hvq'
  have hrlo := h.laid.descEnd_le_ringLo (fillKind isRvq)
  have hrhi := h.laid.ringHi_le (fillKind isRvq)
  have hde := h.laid.descEnd_le_usedEnd
  have hrpos := vq0.ring.desc_le_descEnd
  have hapart := ha.apart
  -- the buffer and the descriptor lie outside the ring
  have hagree : Agree st.m m2 (vq0.ring.ringLo (fillKind isRvq)) (vq0.ring.ringHi (fillKind isRvq)) :=
    (ffill.agree (by omega)).trans (fdesc.agree (by simp only [Vring.descEnd] at hrlo; omega))
  refine ⟨⟨c', ?_⟩, ?_, ?_, ?_, ?_, ?_⟩
  · rw [hvq', hvq]
    simp only [Virtqueue.mk.injEq, true_and, and_true]
    rw [UInt16.ofNat_add]; rfl
  · show st.remaining - 1 = _
    rw [hinv.remaining]; omega
  · rw [hput.idx, Vring.ringIdx_congr hagree, hinv.idx, UInt16.ofNat_add, UInt16.add_assoc]; rfl
  · rw [List.range_succ, List.map_append, List.map_singleton]
    refine hput.push _ _ (hinv.pending.congr h.pos hagree) ?_
    rw [List.length_map, List.length_range]; exact hi
  · intro d hd
    have hr2 : Agree m2 r.2 vq0.ring.desc vq0.ring.descEnd := hput.frame.agree (Or.inl hrlo)
    by_cases hdi : d = i
    · subst hdi
      rw [ld64_congr (hr2.mono (by simp only [Vring.descAddrAt]; omega)
          (by simp only [Vring.descAddrAt, Vring.descEnd]; omega)),
        ld32_congr (hr2.mono (by simp only [Vring.descLenAt]; omega)
          (by simp only [Vring.descLenAt, Vring.descEnd]; omega)), haddr, hlen, hb]
      exact ⟨rfl, rfl⟩
    · obtain ⟨h1, h2⟩ := hinv.desc d (by omega)
      have hout : Agree st.m r.2 (vq0.ring.desc + 16 * d) (vq0.ring.desc + 16 * d + 16) := by
        refine ((ffill.agree ?_).trans (fdesc.agree ?_)).trans (hr2.mono ?_ ?_)
        · simp only [Vring.descEnd] at hrlo hde; omega
        · omega
        · omega
        · simp only [Vring.descEnd]; omega
      rw [ld64_congr (hout.mono (by simp only [Vring.descAddrAt]; omega) (by simp only [Vring.descAddrAt]; omega)),
        ld32_congr (hout.mono (by simp only [Vring.descLenAt]; omega) (by simp only [Vring.descLenAt]; omega))]
      exact ⟨h1, h2⟩
  · intro a h1 h2 h3
    have h4 : a < b ∨ b + p.bufferSize ≤ a := by
      rw [show lo + (i + 1) = (lo + i) + 1 by omega, Nat.mul_succ] at h3
      omega
    show r.2 a = m0 a
    rw [hput.frame a h2, fdesc a (by simp only [Vring.descEnd] at h1; omega), ffill a h4]
    exact hinv.frame a h1 h2 (by rw [show lo + (i + 1) = (lo + i) + 1 by omega, Nat.mul_succ] at h3; omega)

/-- The whole loop publishes every descriptor of the virtqueue. -/
theorem masterFillLoop_inv (isRvq : Bool) (m0 : ByteMem) (h : vq0.Wf) (ha : FillApart w p addr total lo vq0.ring) :
    ∀ {n i : Nat} {st : FillState}, i + n ≤ vq0.ring.num → FillInv w p addr total lo isRvq vq0 m0 i st →
      ∃ st', masterFillLoop w p addr isRvq total n st = some st' ∧
        FillInv w p addr total lo isRvq vq0 m0 (i + n) st'
  | 0, _, st, _, hinv => ⟨st, rfl, hinv⟩
  | n + 1, i, st, hn, hinv => by
    obtain ⟨st1, h1, hinv1⟩ := masterFill_step h ha (i := i) (by omega) hinv
    obtain ⟨st2, h2, hinv2⟩ := masterFillLoop_inv isRvq m0 h ha (n := n) (i := i + 1) (by omega) hinv1
    refine ⟨st2, ?_, by rwa [show i + (n + 1) = i + 1 + n by omega]⟩
    rw [masterFillLoop, h1, Option.bind_some, h2]

end Loop

/-! ## The whole initialisation -/

/-- Vring `idx` as both sides place it. -/
def vringOf (w : Nat) (p : ShmemParams) (addr idx : Nat) : Vring :=
  vringInit w p.count.toNat (vringBase w p addr idx) p.align

/-- The bytes one turn of the vring loop zeroes. -/
def zeroedSize (w : Nat) (p : ShmemParams) : Nat := vringSize w p.count.toNat p.align

/-- A layout whose two vrings and buffers are apart: the tables of each vring lie behind one another,
the first vring ends before the second, the buffers overlap neither and hold a header. -/
structure LayoutOk (w : Nat) (p : ShmemParams) (addr : Nat) : Prop where
  laid0 : (vringOf w p addr 0).Laid
  laid1 : (vringOf w p addr 1).Laid
  order : (vringOf w p addr 0).usedEnd ≤ (vringOf w p addr 1).desc
  bufs0 : (vringOf w p addr 0).usedEnd ≤ shMemBase w p addr
  bufs1 : (vringOf w p addr 1).usedEnd ≤ shMemBase w p addr ∨
    shMemBase w p addr + p.bufferSize * (p.count.toNat + p.count.toNat) ≤ (vringOf w p addr 1).desc
  top : shMemBase w p addr + p.bufferSize * (p.count.toNat + p.count.toNat) ≤ 2 ^ 32
  size_ge : 16 ≤ p.bufferSize
  zeroed : 18 * p.count.toNat + 8 ≤ zeroedSize w p

/-- Each byte of the used index lies in the zeroed range or was zero before. -/
def UsedCleared (m : ByteMem) (vr : Vring) (zeroed : Nat) : Prop :=
  ∀ b, vr.usedIdxAt ≤ b → b < vr.usedIdxAt + 2 → b < vr.desc + zeroed ∨ m b = 0

theorem usedCleared_iff {m : ByteMem} {vr : Vring} {zeroed : Nat} (h : vr.desc ≤ vr.used) :
    (m.fill vr.desc zeroed 0).ld16 vr.usedIdxAt = 0 ↔ UsedCleared m vr zeroed := by
  rw [ld16_eq_zero_iff]
  refine forall_congr' fun b => ?_
  refine imp_congr_right fun h1 => imp_congr_right fun _ => ?_
  simp only [Vring.usedIdxAt] at h1
  by_cases hb : b < vr.desc + zeroed
  · exact ⟨fun _ => Or.inl hb, fun _ => fill_in (by omega) hb⟩
  · rw [frame_fill m vr.desc zeroed 0 b (Or.inr (by omega))]
    exact ⟨Or.inr, fun h => h.resolve_left hb⟩

/-- The shared memory after a successful initialisation; `z0` and `z1` are the used indices the vring
loop leaves. -/
structure InitMem (w : Nat) (p : ShmemParams) (addr : Nat) (z0 z1 : UInt16) (m : ByteMem) : Prop where
  avail0 : (vringOf w p addr 0).PendingIs m .avail 0 ((List.range p.count.toNat).map UInt16.ofNat)
    (UInt32.ofNat p.bufferSize)
  availIdx0 : (vringOf w p addr 0).ringIdx m .avail = p.count
  usedIdx0 : (vringOf w p addr 0).ringIdx m .used = z0
  availIdx1 : (vringOf w p addr 1).ringIdx m .avail = 0
  used1 : (vringOf w p addr 1).PendingIs m .used z1 ((List.range p.count.toNat).map UInt16.ofNat)
    (UInt32.ofNat p.bufferSize)
  usedIdx1 : (vringOf w p addr 1).ringIdx m .used = z1 + p.count
  desc0 : (vringOf w p addr 0).DescIs m p.count.toNat (shMemBase w p addr) p.bufferSize 0
  desc1 : (vringOf w p addr 1).DescIs m p.count.toNat (shMemBase w p addr) p.bufferSize p.count.toNat

section Whole

variable {w : Nat} {p : ShmemParams} {addr : Nat}

theorem initVq_wf {linkId : UInt32} {callback : VqCallback} {idx : Nat} (h : (vringOf w p addr idx).Laid) :
    (initVq w p addr linkId callback idx).Wf := ⟨h, rfl⟩

/-- The memory after the vring loop. -/
def vringLoopMem (w : Nat) (p : ShmemParams) (addr : Nat) (linkId : UInt32) (m : ByteMem) : ByteMem :=
  vringMem (zeroedSize w p) (initVq w p addr linkId .txCallback 1)
    (vringMem (zeroedSize w p) (initVq w p addr linkId .rxCallback 0) m)

/-- The vring loop over both vrings: the avail indices are zero, and the used indices are zero exactly
when they were cleared. -/
theorem vringLoop_spec (hl : LayoutOk w p addr) (linkId : UInt32) (m : ByteMem) :
    (vringOf w p addr 0).ringIdx (vringLoopMem w p addr linkId m) .avail = 0 ∧
    (vringOf w p addr 1).ringIdx (vringLoopMem w p addr linkId m) .avail = 0 ∧
    ((vringOf w p addr 0).ringIdx (vringLoopMem w p addr linkId m) .used = 0 ↔
      UsedCleared m (vringOf w p addr 0) (zeroedSize w p)) ∧
    ((vringOf w p addr 1).ringIdx (vringLoopMem w p addr linkId m) .used = 0 ↔
      UsedCleared m (vringOf w p addr 1) (zeroedSize w p)) := by
  have hw0 : (initVq w p addr linkId .rxCallback 0).Wf := initVq_wf hl.laid0
  have hw1 : (initVq w p addr linkId .txCallback 1).Wf := initVq_wf hl.laid1
  unfold vringLoopMem
  obtain ⟨f0, a0, u0⟩ := vringMem_spec hw0 rfl hl.zeroed (m := m)
  generalize vringMem (zeroedSize w p) (initVq w p addr linkId .rxCallback 0) m = m1 at f0 a0 u0
  obtain ⟨f1, a1, u1⟩ := vringMem_spec hw1 rfl hl.zeroed (m := m1)
  generalize vringMem (zeroedSize w p) (initVq w p addr linkId .txCallback 1) m1 = m2 at f1 a1 u1
  change Frame m m1 (vringOf w p addr 0).desc ((vringOf w p addr 0).desc + zeroedSize w p) at f0
  change Frame m1 m2 (vringOf w p addr 1).desc ((vringOf w p addr 1).desc + zeroedSize w p) at f1
  -- the second vring is cleared without touching the first
  have hag : ∀ k, Agree m1 m2 ((vringOf w p addr 0).ringLo k) ((vringOf w p addr 0).ringHi k) := fun k =>
    f1.agree (Or.inl ((hl.laid0.ringHi_le k).trans hl.order))
  have hd0 := hl.laid0.desc_le_ringLo .used
  have hd1 := hl.laid1.desc_le_ringLo .used
  have hord := hl.order
  have hmid : (vringOf w p addr 0).desc ≤ (vringOf w p addr 1).desc :=
    (hd0.trans (by simp only [Vring.ringLo, Vring.usedEnd]; omega)).trans hord
  refine ⟨(Vring.ringIdx_congr (hag .avail)).trans a0, a1, ?_, ?_⟩
  · rw [Vring.ringIdx_congr (hag .used)]
    exact (Iff.of_eq (congrArg (· = 0) u0)).trans (usedCleared_iff hd0)
  · refine ((Iff.of_eq (congrArg (· = 0) u1)).trans (usedCleared_iff hd1)).trans ?_
    refine forall_congr' fun b => imp_congr_right fun h1 => imp_congr_right fun _ => ?_
    by_cases hb : b < (vringOf w p addr 1).desc + zeroedSize w p
    · exact ⟨fun _ => Or.inl hb, fun _ => Or.inl hb⟩
    · rw [f0 b (Or.inr (by omega))]
      exact Iff.rfl

theorem masterBuffers_eq {total : Nat} {vq0 vq1 : Virtqueue} {m : ByteMem} (linkId : UInt32) (st0 st1 : FillState)
    (h0 : masterFillLoop w p addr true total (min vq0.nentries.toNat total) { vq := vq0, m, remaining := total } =
      some st0)
    (h1 : masterFillLoop w p addr false total (min vq1.nentries.toNat total) { st0 with vq := vq1 } = some st1) :
    masterBuffers w p addr linkId total vq0 vq1 m = .instance
      { role := .master, rvq := (virtqueueKick st0.vq st1.m).1, tvq := st1.vq, linkId, linkState := true
        shMemBase := shMemBase w p addr, shMemRemaining := st1.remaining, shMemTotal := total } st1.m := by
  unfold masterBuffers
  rw [h0]
  simp only
  rw [h1]

theorem LayoutOk.apart (hl : LayoutOk w p addr) {total : Nat} (ht : p.count.toNat + p.count.toNat ≤ total) :
    FillApart w p addr total 0 (vringOf w p addr 0) ∧
      FillApart w p addr total p.count.toNat (vringOf w p addr 1) := by
  have hbase : 0 < shMemBase w p addr := by
    have h0 := hl.bufs0
    simp only [Vring.usedEnd] at h0; omega
  have hsz := hl.size_ge
  have hmul : p.bufferSize * p.count.toNat ≤ p.bufferSize * (p.count.toNat + p.count.toNat) :=
    Nat.mul_le_mul_left _ (Nat.le_add_left _ _)
  have htop := hl.top
  refine ⟨⟨hbase, by omega, ?_, Or.inl ?_, ?_⟩, ⟨hbase, by omega, htop, ?_, ht⟩⟩
  · rw [Nat.zero_add]; exact (Nat.add_le_add_left hmul _).trans htop
  · rw [Nat.mul_zero]; exact hl.bufs0
  · rw [Nat.zero_add]; exact (Nat.le_add_left _ _).trans ht
  · rcases hl.bufs1 with h1 | h1
    · exact Or.inl (h1.trans (Nat.le_add_right _ _))
    · exact Or.inr h1

/-- The two buffer loops: what the first leaves in `st0` and the second in `st1`. -/
structure Filled (w : Nat) (p : ShmemParams) (addr total : Nat) (linkId : UInt32) (m : ByteMem) (st0 st1 : FillState) : Prop where
  first : FillInv w p addr total 0 true (initVq w p addr linkId .rxCallback 0) m p.count.toNat st0
  second : FillInv w p addr total p.count.toNat false (initVq w p addr linkId .txCallback 1) st0.m p.count.toNat st1
  loop : masterFillLoop w p addr false total p.count.toNat
    { vq := initVq w p addr linkId .txCallback 1, m := st0.m, remaining := total - p.count.toNat } = some st1
  run : ∃ dev, masterBuffers w p addr linkId total (initVq w p addr linkId .rxCallback 0)
    (initVq w p addr linkId .txCallback 1) m = .instance dev st1.m

/-- Over an apart layout the buffer loops run to their end. -/
theorem masterBuffers_filled (hl : LayoutOk w p addr) {total : Nat} (ht : p.count.toNat + p.count.toNat ≤ total)
    (linkId : UInt32) (m : ByteMem) : ∃ st0 st1, Filled w p addr total linkId m st0 st1 := by
  have hw0 : (initVq w p addr linkId .rxCallback 0).Wf := initVq_wf hl.laid0
  have hw1 : (initVq w p addr linkId .txCallback 1).Wf := initVq_wf hl.laid1
  obtain ⟨hap0, hap1⟩ := hl.apart ht
  have hmin : min p.count.toNat total = p.count.toNat := Nat.min_eq_left (by omega)
  obtain ⟨st0, h0, inv0⟩ := masterFillLoop_inv true m hw0 hap0 (n := p.count.toNat) (i := 0)
    (by rw [Nat.zero_add]; exact le_rfl) (fillInv_start (c := 0))
  obtain ⟨st1, h1, inv1⟩ := masterFillLoop_inv false st0.m hw1 hap1 (n := p.count.toNat) (i := 0)
    (by rw [Nat.zero_add]; exact le_rfl) (fillInv_start (c := 0))
  rw [Nat.zero_add] at inv0 inv1
  have hrem := inv0.remaining
  rw [Nat.zero_add] at hrem
  refine ⟨st0, st1, inv0, inv1, h1, _, masterBuffers_eq linkId st0 st1 ?_ ?_⟩
  · rw [show min (initVq w p addr linkId .rxCallback 0).nentries.toNat total = _ from hmin]; exact h0
  · rw [show min (initVq w p addr linkId .txCallback 1).nentries.toNat total = _ from hmin, hrem]; exact h1

section

variable {total : Nat} {linkId : UInt32} {m : ByteMem} {st0 st1 : FillState}

/-- The first loop leaves the second vring alone. -/
theorem Filled.vring1 (h : Filled w p addr total linkId m st0 st1) (hl : LayoutOk w p addr) :
    Agree m st0.m (vringOf w p addr 1).desc (vringOf w p addr 1).usedEnd := by
  have hb1 := hl.bufs1
  have hS : p.bufferSize * (p.count.toNat + p.count.toNat) = p.bufferSize * p.count.toNat + p.bufferSize * p.count.toNat :=
    Nat.mul_add _ _ _
  rw [hS] at hb1
  exact h.first.agree (Or.inr (hl.laid0.descEnd_le_usedEnd.trans hl.order)) (Or.inr ((hl.laid0.ringHi_le _).trans hl.order))
    (by rw [Nat.mul_zero, Nat.zero_add]; omega)

/-- The first loop leaves its own used ring alone. -/
theorem Filled.used0 (h : Filled w p addr total linkId m st0 st1) (hl : LayoutOk w p addr) :
    Agree m st0.m (vringOf w p addr 0).used (vringOf w p addr 0).usedEnd :=
  h.first.agree (Or.inr (hl.laid0.descEnd_le_ringLo .used)) (Or.inr hl.laid0.used_le)
    (Or.inl (by rw [Nat.mul_zero]; exact hl.bufs0))

/-- The second loop leaves the first vring alone. -/
theorem Filled.vring0 (h : Filled w p addr total linkId m st0 st1) (hl : LayoutOk w p addr) :
    Agree st0.m st1.m (vringOf w p addr 0).desc (vringOf w p addr 0).usedEnd :=
  have hb0 := hl.bufs0
  h.second.agree (Or.inl hl.order) (Or.inl (hl.order.trans (hl.laid1.desc_le_ringLo _))) (Or.inl (by omega))

/-- The second loop leaves its own avail ring alone. -/
theorem Filled.avail1 (h : Filled w p addr total linkId m st0 st1) (hl : LayoutOk w p addr) :
    Agree st0.m st1.m (vringOf w p addr 1).avail (vringOf w p addr 1).availEnd := by
  have hb1 := hl.bufs1
  have hS : p.bufferSize * (p.count.toNat + p.count.toNat) = p.bufferSize * p.count.toNat + p.bufferSize * p.count.toNat :=
    Nat.mul_add _ _ _
  rw [hS] at hb1
  refine h.second.agree (Or.inr hl.laid1.avail_eq.ge) (Or.inl hl.laid1.used_le) ?_
  have hlo := hl.laid1.desc_le_ringLo .avail
  have hhi := hl.laid1.ringHi_le .avail
  simp only [Vring.ringLo] at hlo
  simp only [Vring.ringHi] at hhi
  omega

end

/-- The memory of a successful initialisation over an apart layout is that of the two loops. -/
theorem MasterRun.filled {env : InitEnv} {cfg : ShmemConfig} {length count : Nat} {linkId : UInt32}
    {m m' : ByteMem} {dev : RpmsgLiteInstance} (h : MasterRun w env cfg addr length linkId m p count dev m')
    (hl : LayoutOk w p addr) (ht : p.count.toNat + p.count.toNat ≤ wrap 32 count) :
    ∃ st0 st1, Filled w p addr (wrap 32 count) linkId (vringLoopMem w p addr linkId m) st0 st1 ∧ st1.m = m' := by
  obtain ⟨st0, st1, hf⟩ := masterBuffers_filled hl ht linkId (vringLoopMem w p addr linkId m)
  obtain ⟨dev', hrun⟩ := hf.run
  have hb := hrun.symm.trans h.buffers
  cases hb
  exact ⟨st0, st1, hf, rfl⟩

/-- An accepted configuration with an apart layout yields an instance. -/
theorem masterInit_returns (hl : LayoutOk w p addr) {env : InitEnv} {highestLinkId linkId : UInt32} {cfg : ShmemConfig}
    {length count : Nat} {m : ByteMem} (hlink : ¬ linkId > highestLinkId) (haddr : addr ≠ 0)
    (hp : masterParams w cfg = some p)
    (hcalc : rlCalculateBufferCountDownSafe w length p.overhead p.bufferSize = some count)
    (hcount : 2 * p.count.toNat ≤ count) (he : env.Succeeds) (ha : p.align ≤ INT32_MAX)
    (ht : p.count.toNat + p.count.toNat ≤ wrap 32 count) :
    ∃ dev m', rpmsgLiteMasterInit w env highestLinkId cfg addr length linkId m = .instance dev m' := by
  obtain ⟨st0, st1, hf⟩ := masterBuffers_filled hl ht linkId (vringLoopMem w p addr linkId m)
  obtain ⟨dev, hb⟩ := hf.run
  refine ⟨dev, st1.m, ?_⟩
  unfold rpmsgLiteMasterInit
  rw [if_neg hlink, if_neg haddr, hp]
  simp only [hcalc, he.instanceAlloc, he.envInit, he.mutex, masterVring_eq ha he.vqAlloc0, masterVring_eq ha he.vqAlloc1]
  rw [if_neg (by omega)]
  exact hb

/-- A successful initialisation over an apart layout fills the rvq's avail ring and the tvq's used
ring with all descriptors in order. -/
theorem MasterRun.mem {env : InitEnv} {cfg : ShmemConfig} {length count : Nat} {linkId : UInt32}
    {m m' : ByteMem} {dev : RpmsgLiteInstance} (h : MasterRun w env cfg addr length linkId m p count dev m')
    (hl : LayoutOk w p addr) (ht : p.count.toNat + p.count.toNat ≤ wrap 32 count) :
    ∃ z0 z1, InitMem w p addr z0 z1 m' ∧
      (z0 = 0 ↔ UsedCleared m (vringOf w p addr 0) (zeroedSize w p)) ∧
      (z1 = 0 ↔ UsedCleared m (vringOf w p addr 1) (zeroedSize w p)) := by
  have hw0 : (initVq w p addr linkId .rxCallback 0).Wf := initVq_wf hl.laid0
  obtain ⟨hav0, hav1, hz0, hz1⟩ := vringLoop_spec hl linkId m
  obtain ⟨st0, st1, hf, rfl⟩ := h.filled hl ht
  generalize vringLoopMem w p addr linkId m = m2 at hf hav0 hav1 hz0 hz1
  have inv0 := hf.first
  have inv1 := hf.second
  have hag0 := hf.vring0 hl
  have hring0 : ∀ k, Agree st0.m st1.m ((vringOf w p addr 0).ringLo k) ((vringOf w p addr 0).ringHi k) := fun k =>
    hag0.mono (hl.laid0.desc_le_ringLo k) (hl.laid0.ringHi_le k)
  have hring1 : ∀ k, Agree m2 st0.m ((vringOf w p addr 1).ringLo k) ((vringOf w p addr 1).ringHi k) := fun k =>
    (hf.vring1 hl).mono (hl.laid1.desc_le_ringLo k) (hl.laid1.ringHi_le k)
  refine ⟨_, _, ⟨?_, ?_, ?_, ?_, inv1.pending, ?_, ?_, inv1.desc⟩, hz0, ?_⟩
  · have hp := inv0.pending.congr hw0.pos (hring0 _)
    rwa [show (initVq w p addr linkId .rxCallback 0).ring.ringIdx m2 (fillKind true) = 0 from hav0] at hp
  · rw [Vring.ringIdx_congr (hring0 .avail)]
    have hi := inv0.idx
    rw [show (initVq w p addr linkId .rxCallback 0).ring.ringIdx m2 (fillKind true) = 0 from hav0,
      UInt16.ofNat_toNat, UInt16.zero_add] at hi
    exact hi
  · rw [Vring.ringIdx_congr (hring0 .used), Vring.ringIdx_congr (k := .used) (hf.used0 hl)]
  · rw [Vring.ringIdx_congr (k := .avail) (hf.avail1 hl), Vring.ringIdx_congr (hring1 .avail)]
    exact hav1
  · have hi := inv1.idx
    rw [UInt16.ofNat_toNat] at hi
    exact hi
  · exact inv0.desc.congr le_rfl (hag0.mono le_rfl hl.laid0.descEnd_le_usedEnd)
  · rw [show (initVq w p addr linkId .txCallback 1).ring.ringIdx st0.m (fillKind false) = _ from
      Vring.ringIdx_congr (hring1 .used)]
    exact hz1

end Whole

/-! ## The protocol's initial state -/

/-- The rings and the cursors a peer expects: the rvq's avail ring and the tvq's used ring hold the
descriptors `0..n-1` in order, the other two rings are empty and every local cursor is zero; the
descriptors name the buffers of the pool. -/
structure ProtocolInit (dev : RpmsgLiteInstance) (n size : Nat) (m : ByteMem) : Prop where
  rvqAvail : ∀ k < n, dev.rvq.ring.availSlot m k = UInt16.ofNat k
  rvqAvailIdx : m.ld16 dev.rvq.ring.availIdxAt = UInt16.ofNat n
  tvqUsed : ∀ k < n, dev.tvq.ring.usedSlot m k = ((UInt16.ofNat k).toUInt32, UInt32.ofNat size)
  tvqUsedIdx : m.ld16 dev.tvq.ring.usedIdxAt = UInt16.ofNat n
  rvqUsedIdx : m.ld16 dev.rvq.ring.usedIdxAt = 0
  tvqAvailIdx : m.ld16 dev.tvq.ring.availIdxAt = 0
  cursors : ∀ vq ∈ [dev.rvq, dev.tvq], vq.usedConsIdx = 0 ∧ vq.availableIdx = 0
  rvqDesc : dev.rvq.ring.DescIs m n dev.shMemBase size 0
  tvqDesc : dev.tvq.ring.DescIs m n dev.shMemBase size n

section Protocol

variable {w : Nat} {p : ShmemParams} {addr total : Nat} {linkId : UInt32} {dev : RpmsgLiteInstance}

theorem MasterShape.rvq_ring (h : MasterShape w p addr linkId total dev) :
    dev.rvq.ring = vringOf w p addr 0 ∧ dev.rvq.nentries = p.count ∧ dev.rvq.usedConsIdx = 0 ∧
      dev.rvq.availableIdx = 0 ∧ dev.rvq.queueIndex = rlGetVqId linkId 0 := by
  obtain ⟨hd, c, he⟩ := h.rvq
  rw [he]; exact ⟨rfl, rfl, rfl, rfl, rfl⟩

theorem MasterShape.tvq_ring (h : MasterShape w p addr linkId total dev) :
    dev.tvq.ring = vringOf w p addr 1 ∧ dev.tvq.nentries = p.count ∧ dev.tvq.usedConsIdx = 0 ∧
      dev.tvq.availableIdx = 0 ∧ dev.tvq.queueIndex = rlGetVqId linkId 1 := by
  obtain ⟨hd, c, he⟩ := h.tvq
  rw [he]; exact ⟨rfl, rfl, rfl, rfl, rfl⟩

/-- The master leaves the protocol's initial state exactly when both used indices start at zero. -/
theorem InitMem.protocol_iff {z0 z1 : UInt16} {m : ByteMem} (h : InitMem w p addr z0 z1 m)
    (hs : MasterShape w p addr linkId total dev) :
    ProtocolInit dev p.count.toNat p.bufferSize m ↔ z0 = 0 ∧ z1 = 0 := by
  obtain ⟨hr0, -, hu0, ha0, -⟩ := hs.rvq_ring
  obtain ⟨hr1, -, hu1, ha1, -⟩ := hs.tvq_ring
  have husd := h.usedIdx1
  have hz := h.usedIdx0
  have hav := h.availIdx0
  have hav1 := h.availIdx1
  simp only [Vring.ringIdx] at husd hz hav hav1
  have hlen : ((List.range p.count.toNat).map UInt16.ofNat).length = p.count.toNat := by simp
  constructor
  · intro hp
    have h1 := hp.rvqUsedIdx
    have h2 := hp.tvqUsedIdx
    rw [hr0, hz] at h1
    rw [hr1, husd, UInt16.ofNat_toNat] at h2
    refine ⟨h1, ?_⟩
    have : z1 + p.count - p.count = p.count - p.count := by rw [h2]
    simpa using this
  · rintro ⟨rfl, rfl⟩
    have hpa := h.avail0
    have hpu := h.used1
    simp only [Vring.PendingIs] at hpa hpu
    refine ⟨?_, ?_, ?_, ?_, ?_, ?_, ?_, ?_, ?_⟩
    · intro k hk
      rw [hr0]
      have := FreeRing.slot_of_pending_zero hpa (k := k) (by rwa [hlen]) hk
      simpa using this
    · rw [hr0, hav, UInt16.ofNat_toNat]
    · intro k hk
      rw [hr1]
      have := FreeRing.slot_of_pending_zero hpu (k := k) (by rwa [List.length_map, hlen]) hk
      simpa using this
    · rw [hr1, husd, UInt16.ofNat_toNat, UInt16.zero_add]
    · rw [hr0, hz]
    · rw [hr1, hav1]
    · intro vq hvq
      rcases List.mem_cons.1 hvq with rfl | hvq
      · exact ⟨hu0, ha0⟩
      · rw [List.mem_singleton.1 hvq]; exact ⟨hu1, ha1⟩
    · rw [hr0, hs.base]; exact h.desc0
    · rw [hr1, hs.base]; exact h.desc1

end Protocol

end RpmsgLite
