/-
The initialisations on platforms that translate addresses. The master writes `platform_vatopa` of its buffers
and stores nothing else that depends on it; each core computes its instance from the address under which it
finds the shared memory. So the translated link starts as the link on one address space does.
-/
import RpmsgLite.Link.Delivery
import RpmsgLite.Link.StartLifted
import RpmsgLite.Link.Translated

namespace RpmsgLite

open MaskArith ByteMem

/-! ## The master -/

section

variable (T : Translation) (vq : Virtqueue) (m : ByteMem)

/-- The descriptor stores shared by `virtqueue_fill_avail_buffers` and `vq_ring_add_buffer`. -/
def Translation.fillDesc (headIdx : UInt16) (buffer : Nat) (len : UInt32) : ByteMem :=
  let m := m.st64 (vq.ring.descAddrAt headIdx.toNat) (T.platformVatopa buffer).toUInt64
  let m := m.st32 (vq.ring.descLenAt headIdx.toNat) len
  m.st16 (vq.ring.descFlagsAt headIdx.toNat) VRING_DESC_F_WRITE

/-- `vq_ring_add_buffer` -/
def Translation.vqRingAddBuffer (headIdx : UInt16) (buffer : Nat) (len : UInt32) : UInt16 × ByteMem :=
  if buffer = 0 then (headIdx, m) else (headIdx + 1, T.fillDesc vq m headIdx buffer len)

/-- `virtqueue_fill_avail_buffers` -/
def Translation.virtqueueFillAvailBuffers (buffer : Nat) (len : UInt32) : Virtqueue × ByteMem :=
  let headIdx := vq.descHeadIdx
  let m := T.fillDesc vq m headIdx buffer len
  vqRingUpdateAvail { vq with descHeadIdx := headIdx + 1 } m headIdx

/-- `virtqueue_fill_used_buffers` -/
def Translation.virtqueueFillUsedBuffers (buffer : Nat) (len : UInt32) : Virtqueue × ByteMem :=
  let headIdx := vq.descHeadIdx
  let (idx, m) := T.vqRingAddBuffer vq m headIdx buffer len
  ({ vq with descHeadIdx := idx }, vqRingUpdateUsed vq m headIdx len)

def Translation.fillBuffers (isRvq : Bool) (buffer : Nat) (len : UInt32) : Virtqueue × ByteMem :=
  if isRvq then T.virtqueueFillAvailBuffers vq m buffer len else T.virtqueueFillUsedBuffers vq m buffer len

end

section

variable (T : Translation) (w : Nat) (p : ShmemParams) (addr : Nat)

/-- One turn of the master's buffer loop. -/
def Translation.masterFill (isRvq : Bool) (total : Nat) (st : FillState) : Option FillState :=
  let buffer := nextBuffer w p addr total st.remaining
  if buffer = 0 then none
  else
    let r := T.fillBuffers st.vq (st.m.fill buffer p.bufferSize 0) isRvq buffer (UInt32.ofNat p.bufferSize)
    some { vq := r.1, m := r.2, remaining := st.remaining - 1 }

def Translation.masterFillLoop (isRvq : Bool) (total : Nat) : Nat → FillState → Option FillState
  | 0, st => some st
  | n + 1, st => (T.masterFill w p addr isRvq total st).bind (Translation.masterFillLoop isRvq total n)

/-- The end of `rpmsg_lite_master_init`. -/
def Translation.masterBuffers (linkId : UInt32) (total : Nat) (vq0 vq1 : Virtqueue) (m : ByteMem) : InitResult :=
  match T.masterFillLoop w p addr true total (min vq0.nentries.toNat total) { vq := vq0, m, remaining := total } with
  | none => .stuck
  | some st0 =>
    match T.masterFillLoop w p addr false total (min vq1.nentries.toNat total) { st0 with vq := vq1 } with
    | none => .stuck
    | some st1 =>
      let (rvq, _) := virtqueueKick st0.vq st1.m
      .instance
        { role := .master, rvq, tvq := st1.vq, linkId, linkState := true, shMemBase := shMemBase w p addr,
          shMemRemaining := st1.remaining, shMemTotal := total } st1.m

end

/-- `rpmsg_lite_master_init` on a core that translates. -/
def Translation.rpmsgLiteMasterInit (T : Translation) (w : Nat) (env : InitEnv) (highestLinkId : UInt32) (cfg : ShmemConfig)
    (addr length : Nat) (linkId : UInt32) (m : ByteMem) : InitResult :=
  if linkId > highestLinkId then .rejected
  else if addr = 0 then .rejected
  else match masterParams w cfg with
    | none => .rejected
    | some p =>
      match rlCalculateBufferCountDownSafe w length p.overhead p.bufferSize with
      | none => .stuck
      | some count =>
        if 2 * p.count.toNat > count then .rejected
        else if !env.instanceAlloc then .rejected
        else if !env.envInit then .rejected
        else match masterVring w p addr env linkId .rxCallback 0 m with
          | .error m => .failed m
          | .ok (vq0, m) => match masterVring w p addr env linkId .txCallback 1 m with
            | .error m => .failed m
            | .ok (vq1, m) =>
              if !env.mutex then .failed m
              else T.masterBuffers w p addr linkId (wrap 32 count) vq0 vq1 m

/-! ## One turn of the buffer loop -/

section Turn

variable {vq : Virtqueue} {v w : ByteMem} {b : Nat}

/-- The byte is part of the buffer address in descriptor `d`. -/
def Vring.AddrOf (vr : Vring) (d b : Nat) : Prop := vr.descAddrAt d ≤ b ∧ b < vr.descAddrAt d + 8

/-- What a turn stores besides the buffer: the rest of the descriptor, and the ring. -/
def Vring.TurnOf (vr : Vring) (d b : Nat) : Prop := vr.descLenAt d ≤ b ∧ b < vr.descAddrAt d + 16 ∨ vr.Ring b

/-- The translated stores into a descriptor differ in the address. -/
theorem fillDesc_same (T : Translation) (vq : Virtqueue) (v w : ByteMem) (d : UInt16) (b : Nat) (len : UInt32) :
    SameStoresOff (vq.ring.AddrOf d.toNat) (vq.ring.TurnOf d.toNat) v (T.fillDesc vq v d b len) w (fillDesc vq w d b len) := by
  unfold Translation.fillDesc fillDesc
  refine ((SameStoresOff.of_frames (frame_st64 v _ _) (frame_st64 w _ _) fun b h1 h2 => ⟨h1, h2⟩).trans
    ((SameStores.st32 _ _ _ _).off _ |>.mono (fun _ => id) fun b hb => ?_)).trans
    ((SameStores.st16 _ _ _ _).off _ |>.mono (fun _ => id) fun b hb => ?_)
  all_goals
    left
    simp only [Vring.descLenAt, Vring.descFlagsAt, Vring.descAddrAt] at hb ⊢
    omega

theorem fillDesc_addr (T : Translation) (vq : Virtqueue) (m : ByteMem) (d : UInt16) (b : Nat) (len : UInt32) :
    (T.fillDesc vq m d b len).ld64 (vq.ring.descAddrAt d.toNat) = (T.platformVatopa b).toUInt64 := by
  unfold Translation.fillDesc
  generalize hm : m.st64 (vq.ring.descAddrAt d.toNat) (T.platformVatopa b).toUInt64 = m1
  have h1 := frame_st32 m1 (vq.ring.descLenAt d.toNat) len
  have h2 := frame_st16 (m1.st32 (vq.ring.descLenAt d.toNat) len) (vq.ring.descFlagsAt d.toNat) VRING_DESC_F_WRITE
  rw [ld64_congr (h2.agree ?_), ld64_congr (h1.agree ?_), ← hm, ld64_st64]
  all_goals
    simp only [Vring.descLenAt, Vring.descFlagsAt, Vring.descAddrAt]
    omega

/-- The stores into a descriptor leave the rings as they are. -/
theorem Vring.Laid.turn_off_ring {vr : Vring} (h : vr.Laid) {d : Nat} (hd : d < vr.num) {k : RingKind} {a : Nat}
    (h1 : vr.ringLo k ≤ a) : ¬ vr.AddrOf d a ∧ ¬ (vr.descLenAt d ≤ a ∧ a < vr.descAddrAt d + 16) := by
  have hlo := h.descEnd_le_ringLo k
  simp only [Vring.AddrOf, Vring.descAddrAt, Vring.descLenAt, Vring.descEnd] at hlo ⊢
  omega

/-- A turn on both memories, where the rings are the same. -/
theorem fillBuffers_same (T : Translation) (len : UInt32) (h : vq.Wf) (isRvq : Bool)
    (hr : ∀ k, Agree w v (vq.ring.ringLo k) (vq.ring.ringHi k)) (hd : vq.descHeadIdx.toNat < vq.ring.num) (hb : b ≠ 0) :
    (T.fillBuffers vq v isRvq b len).1 = (fillBuffers isRvq vq w b len).1 ∧
      SameStoresOff (vq.ring.AddrOf vq.descHeadIdx.toNat) (vq.ring.TurnOf vq.descHeadIdx.toNat)
        v (T.fillBuffers vq v isRvq b len).2 w (fillBuffers isRvq vq w b len).2 ∧
      (T.fillBuffers vq v isRvq b len).2.ld64 (vq.ring.descAddrAt vq.descHeadIdx.toNat) = (T.platformVatopa b).toUInt64 := by
  have hdesc := fillDesc_same T vq v w vq.descHeadIdx b len
  have haddr := fillDesc_addr T vq v vq.descHeadIdx b len
  have hring : ∀ k, Agree (fillDesc vq w vq.descHeadIdx b len) (T.fillDesc vq v vq.descHeadIdx b len) (vq.ring.ringLo k)
      (vq.ring.ringHi k) := fun k a h1 h2 => hdesc.apply (h.laid.turn_off_ring hd h1).1 (hr k a h1 h2)
  have htrue : T.fillBuffers vq v true b len =
      vqRingUpdateAvail { vq with descHeadIdx := vq.descHeadIdx + 1 } (T.fillDesc vq v vq.descHeadIdx b len) vq.descHeadIdx := rfl
  have hfalse : T.fillBuffers vq v false b len =
      ({ vq with descHeadIdx := vq.descHeadIdx + 1 },
        vqRingUpdateUsed vq (T.fillDesc vq v vq.descHeadIdx b len) vq.descHeadIdx len) := by
    simp [Translation.fillBuffers, Translation.virtqueueFillUsedBuffers, Translation.vqRingAddBuffer, hb]
  generalize T.fillDesc vq v vq.descHeadIdx b len = v1 at hdesc haddr hring htrue hfalse
  -- the ring is stored behind the descriptor
  have hfinish : ∀ {k : RingKind} {v2 w2 : ByteMem},
      SameStores (fun b => vq.ring.ringLo k ≤ b ∧ b < vq.ring.ringHi k) v1 v2 (fillDesc vq w vq.descHeadIdx b len) w2 →
      SameStoresOff (vq.ring.AddrOf vq.descHeadIdx.toNat) (vq.ring.TurnOf vq.descHeadIdx.toNat) v v2 w w2 ∧
        v2.ld64 (vq.ring.descAddrAt vq.descHeadIdx.toNat) = (T.platformVatopa b).toUInt64 := by
    intro k v2 w2 hput
    refine ⟨hdesc.trans ((hput.off _).mono (fun _ => id) fun a ha => Or.inr ⟨k, ha⟩), ?_⟩
    rw [← haddr]
    refine ld64_congr fun a h1 h2 => (hput.off fun _ => False).unstored id fun ha => ?_
    exact (h.laid.turn_off_ring hd ha.1).1 ⟨h1, h2⟩
  have hidx : ∀ {i : UInt16}, ({ vq with descHeadIdx := i } : Virtqueue).Wf := ⟨h.laid, h.num_eq⟩
  cases isRvq with
  | true =>
    have hplain : fillBuffers true vq w b len = vqRingUpdateAvail { vq with descHeadIdx := vq.descHeadIdx + 1 }
        (fillDesc vq w vq.descHeadIdx b len) vq.descHeadIdx := rfl
    rw [htrue, hplain]
    exact ⟨rfl, hfinish (vqRingUpdateAvail_same hidx (hring .avail) vq.descHeadIdx)⟩
  | false =>
    have hplain : fillBuffers false vq w b len = ({ vq with descHeadIdx := vq.descHeadIdx + 1 },
        vqRingUpdateUsed vq (fillDesc vq w vq.descHeadIdx b len) vq.descHeadIdx len) := by
      simp [fillBuffers, virtqueueFillUsedBuffers, vqRingAddBuffer, hb]
    rw [hfalse, hplain]
    exact ⟨rfl, hfinish (vqRingUpdateUsed_same h (hring .used) vq.descHeadIdx len)⟩

end Turn

/-! ## The buffer loop -/

section Loop

variable {T : Translation} {w : Nat} {p : ShmemParams} {addr total lo i : Nat} {isRvq : Bool} {vq0 : Virtqueue}
  {mT m : ByteMem} {stT st : FillState}

/-- What the loop over a virtqueue stores: its tables and its buffers. -/
def FillArea (w : Nat) (p : ShmemParams) (addr lo : Nat) (vr : Vring) (b : Nat) : Prop :=
  vr.desc ≤ b ∧ b < vr.usedEnd ∨
    shMemBase w p addr + p.bufferSize * lo ≤ b ∧ b < shMemBase w p addr + p.bufferSize * (lo + vr.num)

/-- The translated loop beside the plain one, which started with `mT` and `m`, after `i` turns. -/
structure FillRel (T : Translation) (w : Nat) (p : ShmemParams) (addr lo : Nat) (vr : Vring) (mT m : ByteMem) (i : Nat)
    (stT st : FillState) : Prop where
  vq : stT.vq = st.vq
  remaining : stT.remaining = st.remaining
  memory : SameStoresOff vr.Addr (FillArea w p addr lo vr) mT stT.m m st.m
  desc : ∀ d < i, stT.m.ld64 (vr.descAddrAt d) =
    (T.platformVatopa (shMemBase w p addr + p.bufferSize * (lo + d))).toUInt64

/-- The buffer of a turn. -/
theorem FillInv.nextBuffer (hinv : FillInv w p addr total lo isRvq vq0 m i st) (ha : FillApart w p addr total lo vq0.ring)
    (hi : i < vq0.ring.num) : nextBuffer w p addr total st.remaining = shMemBase w p addr + p.bufferSize * (lo + i) := by
  have htot := ha.total_le
  have hmul : p.bufferSize * (lo + i) + p.bufferSize ≤ p.bufferSize * (lo + vq0.ring.num) := by
    rw [← Nat.mul_succ]
    exact Nat.mul_le_mul_left _ (by omega)
  have htop := ha.top
  have hbase := ha.base_pos
  unfold RpmsgLite.nextBuffer
  rw [hinv.remaining, if_pos (by omega), show total - (total - (lo + i)) = lo + i by omega, wrap_of_lt (by omega)]

theorem masterFill_eq (h : nextBuffer w p addr total st.remaining ≠ 0) : masterFill w p addr isRvq total st =
    some
      { vq := (fillBuffers isRvq st.vq (st.m.fill (nextBuffer w p addr total st.remaining) p.bufferSize 0)
          (nextBuffer w p addr total st.remaining) (UInt32.ofNat p.bufferSize)).1
        m := (fillBuffers isRvq st.vq (st.m.fill (nextBuffer w p addr total st.remaining) p.bufferSize 0)
          (nextBuffer w p addr total st.remaining) (UInt32.ofNat p.bufferSize)).2
        remaining := st.remaining - 1 } := by
  simp only [masterFill, if_neg h]

/-- One turn of both loops. -/
theorem masterFill_rel (h : vq0.Wf) (ha : FillApart w p addr total lo vq0.ring)
    (hring : ∀ k, Agree m mT (vq0.ring.ringLo k) (vq0.ring.ringHi k)) (hi : i < vq0.ring.num)
    (hinv : FillInv w p addr total lo isRvq vq0 m i st) (hrel : FillRel T w p addr lo vq0.ring mT m i stT st) :
    ∃ stT' st', T.masterFill w p addr isRvq total stT = some stT' ∧ masterFill w p addr isRvq total st = some st' ∧
      FillInv w p addr total lo isRvq vq0 m (i + 1) st' ∧ FillRel T w p addr lo vq0.ring mT m (i + 1) stT' st' := by
  obtain ⟨st', hst, hinv'⟩ := masterFill_step h ha hi hinv
  have hbuf := hinv.nextBuffer ha hi
  have hle := h.laid.size.le
  have hmul : p.bufferSize * (lo + i) + p.bufferSize ≤ p.bufferSize * (lo + vq0.ring.num) := by
    rw [← Nat.mul_succ]
    exact Nat.mul_le_mul_left _ (by omega)
  have hlo : p.bufferSize * lo ≤ p.bufferSize * (lo + i) := Nat.mul_le_mul_left _ (by omega)
  have hbase := ha.base_pos
  have hapart := ha.apart
  have hend := h.laid.descEnd_le_usedEnd
  obtain ⟨c, hvq⟩ := hinv.vq
  have hw : st.vq.Wf := by
    rw [hvq]
    exact ⟨h.laid, h.num_eq⟩
  have hvr : st.vq.ring = vq0.ring := by rw [hvq]
  have hhead : st.vq.descHeadIdx.toNat = i := by
    rw [hvq]
    exact UInt16.toNat_ofNat_of_lt' (by simp only [UInt16.size]; omega)
  rw [masterFill_eq (by rw [hbuf]; omega), hbuf] at hst
  generalize hb : shMemBase w p addr + p.bufferSize * (lo + i) = b at hst hbuf
  have hb0 : b ≠ 0 := by omega
  have hfill := SameStores.fill stT.m st.m b p.bufferSize 0
  -- the rings are still the same in both
  have hagree : ∀ k, Agree (st.m.fill b p.bufferSize 0) (stT.m.fill b p.bufferSize 0) (st.vq.ring.ringLo k)
    (st.vq.ring.ringHi k) := by
    rw [hvr]
    intro k a h1 h2
    refine hfill.apply (hrel.memory.apply ?_ (hring k a h1 h2))
    rintro ⟨d, hd, haddr⟩
    exact (h.laid.turn_off_ring hd h1).1 haddr
  obtain ⟨hvq', hmem, haddr⟩ :=
    fillBuffers_same T (UInt32.ofNat p.bufferSize) hw isRvq hagree (by rw [hhead, hvr]; exact hi) hb0
  rw [hvr, hhead] at hmem haddr
  have hT : T.masterFill w p addr isRvq total stT = some
      { vq := (T.fillBuffers stT.vq (stT.m.fill b p.bufferSize 0) isRvq b (UInt32.ofNat p.bufferSize)).1
        m := (T.fillBuffers stT.vq (stT.m.fill b p.bufferSize 0) isRvq b (UInt32.ofNat p.bufferSize)).2
        remaining := stT.remaining - 1 } := by
    simp only [Translation.masterFill, hrel.remaining, hbuf, if_neg hb0]
  rw [hrel.vq] at hT
  refine ⟨_, st', hT, ?_, hinv', ?_⟩
  · rw [masterFill_eq (by rw [hbuf]; exact hb0), hbuf]
    exact hst
  cases hst
  refine ⟨hvq', congrArg (· - 1) hrel.remaining, ?_, fun d hd => ?_⟩
  · refine (hrel.memory.trans ((hfill.off _).mono (fun _ => id) fun a hin => Or.inr (by omega))).trans (hmem.mono ?_ ?_)
    · exact fun a hin => ⟨i, hi, hin⟩
    · rintro a (⟨h1, h2⟩ | ⟨k, h1, h2⟩)
      · left
        simp only [Vring.descLenAt, Vring.descAddrAt, Vring.descEnd] at h1 h2 hend ⊢
        omega
      · exact Or.inl ⟨(h.laid.desc_le_ringLo k).trans h1, h2.trans_le (h.laid.ringHi_le k)⟩
  · by_cases hdi : d = i
    · subst hdi
      rw [haddr, hb]
    · rw [← hrel.desc d (by omega)]
      refine ld64_congr fun a h1 h2 => ?_
      have hin : a < vq0.ring.descEnd := by
        simp only [Vring.descAddrAt, Vring.descEnd] at h2 ⊢
        omega
      have hbelow : vq0.ring.desc ≤ a := (Nat.le_add_right _ _).trans h1
      refine (hmem.unstored ?_ ?_).trans ((hfill.off fun _ => False).unstored id (by omega))
      · simp only [Vring.AddrOf, Vring.descAddrAt] at h1 h2 ⊢
        omega
      · rintro (⟨h3, h4⟩ | ⟨k, h3, -⟩)
        · simp only [Vring.descLenAt, Vring.descAddrAt] at h1 h2 h3 h4
          omega
        · exact absurd (h.laid.descEnd_le_ringLo k) (by omega)

/-- The whole of both loops. -/
theorem masterFillLoop_rel (h : vq0.Wf) (ha : FillApart w p addr total lo vq0.ring)
    (hring : ∀ k, Agree m mT (vq0.ring.ringLo k) (vq0.ring.ringHi k)) :
    ∀ {n i : Nat} {stT st : FillState}, i + n ≤ vq0.ring.num → FillInv w p addr total lo isRvq vq0 m i st →
      FillRel T w p addr lo vq0.ring mT m i stT st →
      ∃ stT' st', T.masterFillLoop w p addr isRvq total n stT = some stT' ∧
        masterFillLoop w p addr isRvq total n st = some st' ∧
        FillInv w p addr total lo isRvq vq0 m (i + n) st' ∧ FillRel T w p addr lo vq0.ring mT m (i + n) stT' st'
  | 0, _, stT, st, _, hinv, hrel => ⟨stT, st, rfl, rfl, hinv, hrel⟩
  | n + 1, i, stT, st, hn, hinv, hrel => by
    obtain ⟨stT1, st1, h1T, h1, hinv1, hrel1⟩ := masterFill_rel h ha hring (i := i) (by omega) hinv hrel
    obtain ⟨stT2, st2, h2T, h2, hinv2, hrel2⟩ := masterFillLoop_rel h ha hring (n := n) (i := i + 1) (by omega) hinv1 hrel1
    rw [show i + (n + 1) = i + 1 + n by omega]
    refine ⟨stT2, st2, ?_, ?_, hinv2, hrel2⟩
    · rw [Translation.masterFillLoop, h1T, Option.bind_some, h2T]
    · rw [masterFillLoop, h1, Option.bind_some, h2]

/-- Both loops, from a virtqueue that nothing was handed out of. -/
theorem masterFillLoop_same (T : Translation) (isRvq : Bool) {n remaining : Nat} (h : vq0.Wf) (h0 : vq0.descHeadIdx = 0)
    (hn : n = vq0.ring.num) (hrem : remaining = total - lo) (ha : FillApart w p addr total lo vq0.ring)
    (hring : ∀ k, Agree m mT (vq0.ring.ringLo k) (vq0.ring.ringHi k)) :
    ∃ stT st, T.masterFillLoop w p addr isRvq total n ⟨vq0, mT, remaining⟩ = some stT ∧
      masterFillLoop w p addr isRvq total n ⟨vq0, m, remaining⟩ = some st ∧
      FillInv w p addr total lo isRvq vq0 m n st ∧ FillRel T w p addr lo vq0.ring mT m n stT st := by
  have hinv : FillInv w p addr total lo isRvq vq0 m 0 ⟨vq0, m, remaining⟩ := by
    have hvq : ({ vq0 with descHeadIdx := 0, queuedCnt := vq0.queuedCnt } : Virtqueue) = vq0 := by rw [← h0]
    have hstart : FillInv w p addr total lo isRvq vq0 m 0
        ⟨{ vq0 with descHeadIdx := 0, queuedCnt := vq0.queuedCnt }, m, total - lo⟩ := fillInv_start
    rwa [hvq, ← hrem] at hstart
  have hrel : FillRel T w p addr lo vq0.ring mT m 0 ⟨vq0, mT, remaining⟩ ⟨vq0, m, remaining⟩ :=
    ⟨rfl, rfl, (SameStores.refl _ _ _).off _, fun d hd => absurd hd (Nat.not_lt_zero d)⟩
  have hrun := masterFillLoop_rel (n := n) h ha hring (by omega) hinv hrel
  rwa [Nat.zero_add] at hrun

end Loop

/-! ## The whole initialisation -/

section Run

variable {T : Translation} {w : Nat} {p : ShmemParams} {addr : Nat} {env : InitEnv} {highestLinkId linkId : UInt32}
  {cfg : ShmemConfig} {length count : Nat} {m m' : ByteMem} {dev : RpmsgLiteInstance}

/-- What a successful initialisation went through before the buffer loops, which start with the memory `m'`. -/
structure MasterChecks (w : Nat) (env : InitEnv) (highestLinkId : UInt32) (cfg : ShmemConfig) (addr length : Nat)
    (linkId : UInt32) (m : ByteMem) (p : ShmemParams) (count : Nat) (m' : ByteMem) : Prop where
  link : ¬ linkId > highestLinkId
  addr_ne : addr ≠ 0
  params : masterParams w cfg = some p
  calc_eq : rlCalculateBufferCountDownSafe w length p.overhead p.bufferSize = some count
  enough : ¬ 2 * p.count.toNat > count
  align_le : p.align ≤ INT32_MAX
  alloc : env.Succeeds
  memory : m' = vringMem (vringSize w p.count.toNat p.align) (initVq w p addr linkId .txCallback 1)
    (vringMem (vringSize w p.count.toNat p.align) (initVq w p addr linkId .rxCallback 0) m)

theorem Translation.masterInit_run (h : T.rpmsgLiteMasterInit w env highestLinkId cfg addr length linkId m = .instance dev m') :
    ∃ p count m1, MasterChecks w env highestLinkId cfg addr length linkId m p count m1 ∧
      T.masterBuffers w p addr linkId (wrap 32 count) (initVq w p addr linkId .rxCallback 0) (initVq w p addr linkId .txCallback 1)
        m1 = .instance dev m' := by
  unfold Translation.rpmsgLiteMasterInit at h
  split at h
  · cases h
  rename_i hlink
  split at h
  · cases h
  rename_i haddr
  split at h
  · cases h
  rename_i p hp
  split at h
  · cases h
  rename_i count hcalc
  split at h
  · cases h
  rename_i hcount
  split at h
  · cases h
  rename_i halloc
  split at h
  · cases h
  rename_i hinit
  split at h
  · cases h
  rename_i vq0 m1 h0
  split at h
  · cases h
  rename_i vq1 m2 h1
  split at h
  · cases h
  rename_i hmutex
  obtain ⟨rfl, ha, ha0, rfl⟩ := masterVring_ok h0
  obtain ⟨rfl, -, ha1, rfl⟩ := masterVring_ok h1
  exact ⟨p, count, _, ⟨hlink, haddr, hp, hcalc, hcount, ha,
    ⟨by simpa using halloc, by simpa using hinit, ha0, ha1, by simpa using hmutex⟩, rfl⟩, h⟩

theorem MasterChecks.translated (h : MasterChecks w env highestLinkId cfg addr length linkId m p count m') (T : Translation) :
    T.rpmsgLiteMasterInit w env highestLinkId cfg addr length linkId m =
      T.masterBuffers w p addr linkId (wrap 32 count) (initVq w p addr linkId .rxCallback 0) (initVq w p addr linkId .txCallback 1)
        m' := by
  unfold Translation.rpmsgLiteMasterInit
  rw [if_neg h.link, if_neg h.addr_ne, h.params, h.memory]
  simp only [h.calc_eq, h.alloc.instanceAlloc, h.alloc.envInit, h.alloc.mutex, masterVring_eq h.align_le h.alloc.vqAlloc0,
    masterVring_eq h.align_le h.alloc.vqAlloc1]
  rw [if_neg h.enough]
  rfl

theorem MasterChecks.plain (h : MasterChecks w env highestLinkId cfg addr length linkId m p count m') :
    rpmsgLiteMasterInit w env highestLinkId cfg addr length linkId m =
      masterBuffers w p addr linkId (wrap 32 count) (initVq w p addr linkId .rxCallback 0) (initVq w p addr linkId .txCallback 1)
        m' := by
  unfold rpmsgLiteMasterInit
  rw [if_neg h.link, if_neg h.addr_ne, h.params, h.memory]
  simp only [h.calc_eq, h.alloc.instanceAlloc, h.alloc.envInit, h.alloc.mutex, masterVring_eq h.align_le h.alloc.vqAlloc0,
    masterVring_eq h.align_le h.alloc.vqAlloc1]
  rw [if_neg h.enough]
  rfl

end Run

/-! ## Under other addresses -/

/-- The translations of a core that finds its memory `d` below, for the addresses `d` above. -/
def Translation.lift (d : Nat) (T : Translation) : Translation := { T with platformVatopa := fun a => T.platformVatopa (a - d) }

def FillState.lift (d : Nat) (m : ByteMem) (st : FillState) : FillState :=
  { vq := st.vq.lift d, m := m.raise d st.m, remaining := st.remaining }

section Lifted

variable {w : Nat} {p : ShmemParams} {addr d total : Nat} {linkId : UInt32} {isRvq : Bool} {st st' : FillState}

theorem Translation.fillDesc_lift (T : Translation) (d : Nat) (m v : ByteMem) (vq : Virtqueue) (i : UInt16) (b : Nat)
    (len : UInt32) :
    (T.lift d).fillDesc (vq.lift d) (m.raise d v) i (b + d) len = m.raise d (T.fillDesc vq v i b len) := by
  simp only [Translation.fillDesc, Translation.lift, Virtqueue.lift_ring, Vring.lift_descAddrAt, Vring.lift_descLenAt,
    Vring.lift_descFlagsAt, st64_raise, st32_raise, st16_raise, Nat.add_sub_cancel]

theorem Translation.fillBuffers_lift (T : Translation) (d : Nat) (m v : ByteMem) (vq : Virtqueue) {b : Nat} (len : UInt32)
    (hb : b ≠ 0) : (T.lift d).fillBuffers (vq.lift d) (m.raise d v) isRvq (b + d) len =
      ((T.fillBuffers vq v isRvq b len).1.lift d, m.raise d (T.fillBuffers vq v isRvq b len).2) := by
  have hidx : ∀ i, ({ vq.lift d with descHeadIdx := i } : Virtqueue) = ({ vq with descHeadIdx := i } : Virtqueue).lift d :=
    fun _ => rfl
  have hhead : (vq.lift d).descHeadIdx = vq.descHeadIdx := rfl
  cases isRvq with
  | true =>
    simp only [Translation.fillBuffers, Translation.virtqueueFillAvailBuffers, if_true, hhead, hidx, T.fillDesc_lift,
      vqRingUpdateAvail_lift]
  | false =>
    simp only [Translation.fillBuffers, Translation.virtqueueFillUsedBuffers, Translation.vqRingAddBuffer, Bool.false_eq_true,
      if_false, hhead, hidx, T.fillDesc_lift, if_neg hb, if_neg (show b + d ≠ 0 by omega), vqRingUpdateUsed_lift]

/-- One turn of the buffer loop, `d` above. -/
theorem Translation.masterFill_lift (T : Translation) (m : ByteMem) (hb : shMemBase w p (addr + d) = shMemBase w p addr + d)
    (h : T.masterFill w p addr isRvq total st = some st') :
    (T.lift d).masterFill w p (addr + d) isRvq total (st.lift d m) = some (st'.lift d m) := by
  unfold Translation.masterFill at h ⊢
  simp only at h ⊢
  split at h
  · cases h
  rename_i hne
  cases h
  simp only [FillState.lift, nextBuffer_add hb hne, fill_raise, T.fillBuffers_lift d m _ _ _ hne]
  rw [if_neg (by omega)]

/-- The whole loop. -/
theorem Translation.masterFillLoop_lift (T : Translation) (m : ByteMem) (hb : shMemBase w p (addr + d) = shMemBase w p addr + d) :
    ∀ {n : Nat} {st st' : FillState}, T.masterFillLoop w p addr isRvq total n st = some st' →
      (T.lift d).masterFillLoop w p (addr + d) isRvq total n (st.lift d m) = some (st'.lift d m)
  | 0, _, _, h => by
    cases h
    rfl
  | n + 1, st, st', h => by
    obtain ⟨st1, h1, h2⟩ := Option.bind_eq_some_iff.1 h
    rw [Translation.masterFillLoop, T.masterFill_lift m hb h1, Option.bind_some, T.masterFillLoop_lift m hb h2]

theorem Translation.masterBuffers_lift (T : Translation) (m : ByteMem) {v v' : ByteMem} {vq0 vq1 : Virtqueue}
    {dev : RpmsgLiteInstance} (hb : shMemBase w p (addr + d) = shMemBase w p addr + d)
    (h : T.masterBuffers w p addr linkId total vq0 vq1 v = .instance dev v') :
    (T.lift d).masterBuffers w p (addr + d) linkId total (vq0.lift d) (vq1.lift d) (m.raise d v) =
      .instance (dev.lift d) (m.raise d v') := by
  unfold Translation.masterBuffers at h ⊢
  split at h
  · cases h
  rename_i st0 h0
  split at h
  · cases h
  rename_i st1 h1
  cases h
  have h0' := T.masterFillLoop_lift m hb h0
  have h1' := T.masterFillLoop_lift m hb h1
  simp only [FillState.lift] at h0' h1'
  simp only [Virtqueue.lift_nentries, h0', h1', hb]
  rfl

/-- An initialisation on a core that finds the memory `d` below is one at the addresses above. -/
theorem Translation.masterInit_lift {T : Translation} {env : InitEnv} {highestLinkId : UInt32} {cfg : ShmemConfig} {length : Nat}
    {m v : ByteMem} {dev : RpmsgLiteInstance}
    (h : T.rpmsgLiteMasterInit w env highestLinkId cfg addr length linkId (m.lower d) = .instance dev v)
    (hp : masterParams w cfg = some p) (hv : ∀ idx < 2, vringOf w p (addr + d) idx = (vringOf w p addr idx).lift d)
    (hb : shMemBase w p (addr + d) = shMemBase w p addr + d) :
    (T.lift d).rpmsgLiteMasterInit w env highestLinkId cfg (addr + d) length linkId m =
      .instance (dev.lift d) (m.raise d v) := by
  obtain ⟨q, count, v1, hc, hbuf⟩ := T.masterInit_run h
  obtain rfl : q = p := Option.some.inj (hc.params.symm.trans hp)
  have hmem := hc.memory
  have hchecks : MasterChecks w env highestLinkId cfg (addr + d) length linkId m q count (m.raise d v1) := by
    refine ⟨hc.link, ?_, hc.params, hc.calc_eq, hc.enough, hc.align_le, hc.alloc, ?_⟩
    · have := hc.addr_ne
      omega
    · rw [initVq_add (hv 0 (by decide)), initVq_add (hv 1 (by decide)), hmem, ← vringMem_lift, ← vringMem_lift, raise_lower]
  rw [hchecks.translated, initVq_add (hv 0 (by decide)), initVq_add (hv 1 (by decide))]
  exact T.masterBuffers_lift m hb hbuf

end Lifted

/-! ## The descriptors -/

/-- The memory `mT` is `m` with the master's translations in the descriptors. -/
structure Translation.Holds (T : Translation) (W : Pools) (mT m : ByteMem) : Prop where
  memory : ∀ b, ¬ W.Addr b → mT b = m b
  desc : ∀ q, ∀ d ∈ (W.pool q).ids,
    mT.ld64 ((W.pool q).vr.descAddrAt d.toNat) = (T.platformVatopa ((W.pool q).buffer d)).toUInt64

section Whole

variable {T : Translation} {w : Nat} {p : ShmemParams} {addr : Nat} {linkId : UInt32}

/-- What the loop over the second virtqueue stores is apart from the first vring. -/
theorem LayoutOk.fillArea_apart (hl : LayoutOk w p addr) {b : Nat} (h : b < (vringOf w p addr 0).usedEnd) :
    ¬ (vringOf w p addr 1).Addr b ∧ ¬ FillArea w p addr p.count.toNat (vringOf w p addr 1) b := by
  have hord := hl.order
  have hbuf := hl.bufs0
  refine ⟨fun haddr => ?_, ?_⟩
  · exact absurd haddr.table.1 (by omega)
  · rintro (⟨h3, -⟩ | ⟨h3, -⟩)
    · omega
    · omega

/-- The buffer loops of both initialisations: the same instance, and the same memory but for the addresses. -/
theorem masterBuffers_rel (T : Translation) (hl : LayoutOk w p addr) (linkId : UInt32) {total : Nat}
    (ht : p.count.toNat + p.count.toNat ≤ total) (m : ByteMem) :
    ∃ dev mT' m', T.masterBuffers w p addr linkId total (initVq w p addr linkId .rxCallback 0)
        (initVq w p addr linkId .txCallback 1) m = .instance dev mT' ∧
      masterBuffers w p addr linkId total (initVq w p addr linkId .rxCallback 0) (initVq w p addr linkId .txCallback 1) m =
        .instance dev m' ∧ T.Holds hl.pools mT' m' := by
  have hw0 : (initVq w p addr linkId .rxCallback 0).Wf := initVq_wf hl.laid0
  have hw1 : (initVq w p addr linkId .txCallback 1).Wf := initVq_wf hl.laid1
  obtain ⟨hap0, hap1⟩ := hl.apart ht
  have hmin : min p.count.toNat total = p.count.toNat := Nat.min_eq_left (by omega)
  obtain ⟨stT0, st0, h0T, h0, inv0, rel0⟩ :=
    masterFillLoop_same T true hw0 rfl rfl (Nat.sub_zero total).symm hap0 fun _ => .refl m _ _
  have hring1 : ∀ k, Agree st0.m stT0.m ((vringOf w p addr 1).ringLo k) ((vringOf w p addr 1).ringHi k) := by
    intro k a hlo _
    refine rel0.memory.apply (fun haddr => ?_) rfl
    have hbelow : a < (vringOf w p addr 0).descEnd := haddr.table.2
    have hend := hl.laid0.descEnd_le_usedEnd
    have hord := hl.order
    have hdesc := hl.laid1.desc_le_ringLo k
    omega
  have hrem : st0.remaining = total - p.count.toNat := by
    rw [inv0.remaining, Nat.zero_add]
    rfl
  obtain ⟨stT1, st1, h1T, h1, -, rel1⟩ := masterFillLoop_same T false hw1 rfl rfl hrem hap1 hring1
  have hmin' : ∀ cb idx, min (initVq w p addr linkId cb idx).nentries.toNat total = (initVq w p addr linkId cb idx).ring.num :=
    fun _ _ => hmin
  have hb := masterBuffers_eq linkId st0 st1 (by rw [hmin']; exact h0) (by rw [hmin']; exact h1)
  refine ⟨_, stT1.m, st1.m, ?_, hb, ?_⟩
  · unfold Translation.masterBuffers
    rw [hmin', hmin', h0T]
    simp only
    rw [rel0.remaining, h1T]
    simp only [rel0.vq, rel1.vq, rel1.remaining]
    rfl
  refine ⟨fun b hb => ?_, fun q d hd => ?_⟩
  · have hb0 : ¬ (vringOf w p addr 0).Addr b := fun h => hb ⟨.remote, h⟩
    have hb1 : ¬ (vringOf w p addr 1).Addr b := fun h => hb ⟨.master, h⟩
    exact rel1.memory.apply hb1 (rel0.memory.apply hb0 rfl)
  · have hlt : d.toNat < p.count.toNat := by
      have hmem := (hl.pools.pool q).mem_ids.1 hd
      rwa [hl.pool_vr_num] at hmem
    cases q with
    | master => exact rel1.desc d.toNat hlt
    | remote =>
      refine Eq.trans (ld64_congr fun b _ h2 => ?_) (rel0.desc d.toNat hlt)
      have hin : b < (vringOf w p addr 0).usedEnd := by
        have hend := hl.laid0.descEnd_le_usedEnd
        have h2 : b < (vringOf w p addr 0).descAddrAt d.toNat + 8 := h2
        simp only [Vring.descAddrAt, Vring.descEnd, vringOf_num] at h2 hend
        omega
      obtain ⟨hout, harea⟩ := hl.fillArea_apart hin
      exact rel1.memory.unstored hout harea

/-- A translated initialisation of the master beside the plain one. -/
theorem masterInit_rel {env : InitEnv} {highestLinkId : UInt32} {cfg : ShmemConfig} {length : Nat} {m mT : ByteMem}
    {dev : RpmsgLiteInstance} (h : T.rpmsgLiteMasterInit w env highestLinkId cfg addr length linkId m = .instance dev mT)
    (hlen : addr + length ≤ 2 ^ 32) (hp : masterParams w cfg = some p) (hl : LayoutOk w p addr) :
    ∃ m', rpmsgLiteMasterInit w env highestLinkId cfg addr length linkId m = .instance dev m' ∧ T.Holds hl.pools mT m' := by
  obtain ⟨q, count, m1, hc, hbuf⟩ := T.masterInit_run h
  obtain rfl : q = p := Option.some.inj (hc.params.symm.trans hp)
  have henough := hc.enough
  have haddr := hc.addr_ne
  have hwrap : wrap 32 count = count := wrap_of_lt (by have := calc_le hc.calc_eq; omega)
  obtain ⟨dev', mT', m', hT, hplain, hholds⟩ :=
    masterBuffers_rel T hl linkId (show q.count.toNat + q.count.toNat ≤ wrap 32 count by omega) m1
  rw [hT, InitResult.instance.injEq] at hbuf
  obtain ⟨rfl, rfl⟩ := hbuf
  exact ⟨m', hc.plain.trans hplain, hholds⟩

end Whole

/-! ## The link -/

/-- The descriptors hold the addresses that the master wrote. -/
def Mapping.Written (M : Mapping) (W : Pools) (t : Link) : Prop :=
  ∀ q, ∀ d ∈ (W.pool q).ids, t.m.ld64 ((W.pool q).vr.descAddrAt d.toNat) = (M.described ((W.pool q).buffer d)).toUInt64

section Link

variable {w : Nat} {env envR : InitEnv} {highestM highestR linkId : UInt32} {cfg : ShmemConfig} {addr : Role → Nat}
  {base length : Nat} {p : ShmemParams} {m v : ByteMem} {dm dr : RpmsgLiteInstance} {M : Mapping} {c : LinkConfig} {t : Link}

/-- The link after both initialisations; the master has turned what it sees of the memory `m` into `v`. -/
def Mapping.start (M : Mapping) (m v : ByteMem) (dm dr : RpmsgLiteInstance) : Link :=
  Link.start (m.raise (M.off .master) v) dm dr

/-- What both instances are on one address space. -/
def Mapping.plainStart (M : Mapping) (m' : ByteMem) (dm dr : RpmsgLiteInstance) : Link :=
  Link.start m' (dm.lift (M.off .master)) (dr.lift (M.off .remote))

/-- The translated link starts as the plain one: each core finds the shared memory at its own address of `base`. -/
theorem Mapping.Rel.of_init (hw : 32 ≤ w) (haddr : ∀ r, addr r + M.off r = base)
    (hm : (M.port .master).rpmsgLiteMasterInit w env highestM cfg (addr .master) length linkId (m.lower (M.off .master)) =
      .instance dm v)
    (hr : rpmsgLiteRemoteInit w envR highestR cfg (addr .remote) linkId = some dr) (hlen : base + length ≤ 2 ^ 32)
    (halign : ∀ r, RL_MAX_VRING_ALIGN ∣ M.off r) (hm' : masterParams w cfg = some p) (hr' : remoteParams w cfg = some p)
    (hl : LayoutOk w p base) :
    ∃ m', rpmsgLiteMasterInit w env highestM cfg base length linkId m = .instance (dm.lift (M.off .master)) m' ∧
      rpmsgLiteRemoteInit w envR highestR cfg base linkId = some (dr.lift (M.off .remote)) ∧
      M.Rel hl.pools (M.start m v dm dr) (M.plainStart m' dm dr) ∧ M.Written hl.pools (M.start m v dm dr) := by
  obtain ⟨q, count, v1, hc, -⟩ := Translation.masterInit_run hm
  obtain rfl : q = p := Option.some.inj (hc.params.symm.trans hm')
  have hle : q.align ≤ RL_MAX_VRING_ALIGN := by
    rw [masterParams_eq_capped hm' hr']
    exact Nat.min_le_right _ _
  have hne : base ≠ 0 := by
    have hlow := hc.addr_ne
    have hbase := haddr .master
    omega
  obtain ⟨h0, hwrap⟩ := hl.noWrap hw hlen hne hle (masterParams_vringSize_lt hm') hc.calc_eq (Nat.le_of_not_lt hc.enough)
  have hv : ∀ r, ∀ idx < 2, vringOf w q (addr r + M.off r) idx = (vringOf w q (addr r) idx).lift (M.off r) := fun r _ hidx => by
    rw [← haddr r] at hwrap
    exact hwrap.vringOf_add hw h0 hle (halign r) hidx
  have hb : ∀ r, shMemBase w q (addr r + M.off r) = shMemBase w q (addr r) + M.off r := fun r => by
    rw [← haddr r] at hwrap
    exact hwrap.shMemBase_add hw (halign r)
  have hlift := Translation.masterInit_lift hm hm' (hv .master) (hb .master)
  have hremote := remoteInit_add hr hr' (hv .remote) (hb .remote)
  rw [haddr] at hlift hremote
  obtain ⟨m', hplain, hholds⟩ := masterInit_rel hlift hlen hm' hl
  refine ⟨m', hplain, hremote, ⟨fun r => ?_, hholds.memory, fun q d hd => ?_⟩, hholds.desc⟩
  · cases r <;> rfl
  · show ((m.raise (M.off .master) v).ld64 _).toUInt32 = _
    rw [hholds.desc q d hd, UInt32.toUInt32_toUInt64]
    rfl

/-- Between `lo` and `hi` each core finds its own address of what the master describes. -/
structure Mapping.Window (M : Mapping) (lo hi : Nat) : Prop where
  above : ∀ r, M.off r < lo
  patova : ∀ r a, lo ≤ a → a < hi → (M.port r).platformPatova (M.described a) = some (a - M.off r)

/-- The buffers of an accepted layout start in the memory it was given. -/
theorem LayoutOk.buffer_within {addr : Nat} (hl : LayoutOk w p addr) (hw : 32 ≤ w) {count : Nat} (hlen : addr + length ≤ 2 ^ 32)
    (ha0 : addr ≠ 0)
    (hcalc : rlCalculateBufferCountDownSafe w length p.overhead p.bufferSize = some count) (hcount : 2 * p.count.toNat ≤ count)
    {q : Role} {d : UInt16} (hd : d ∈ (hl.pools.pool q).ids) :
    addr ≤ (hl.pools.pool q).buffer d ∧ (hl.pools.pool q).buffer d < addr + length := by
  have h32 : (2 : Nat) ^ 32 ≤ 2 ^ w := Nat.pow_le_pow_right (by decide) hw
  have hpos : 0 < p.count.toNat := hl.laid0.size.pos
  obtain ⟨hover, -, hfit⟩ := calc_fits (by omega) (by omega) (show 0 < 2 * p.count.toNat by omega) hcalc hcount
  have hsize := hl.size_ge
  have hbytes : 16 * 2 ≤ p.bufferSize * (2 * p.count.toNat) := Nat.mul_le_mul hsize (by omega)
  have hbase : shMemBase w p addr = wordUp (addr + p.overhead) := rlWordAlignUp_of_lt (by omega) (by omega)
  have hend : (hl.pools.pool q).bufHi ≤ shMemBase w p addr + p.bufferSize * (2 * p.count.toNat) := by
    cases q with
    | master => exact Nat.add_le_add_left (Nat.mul_le_mul_left _ (show p.count.toNat + p.count.toNat ≤ _ by omega)) _
    | remote => exact Nat.add_le_add_left (Nat.mul_le_mul_left _ (show 0 + p.count.toNat ≤ _ by omega)) _
  have hstart : shMemBase w p addr ≤ (hl.pools.pool q).bufLo := by
    cases q with
    | master => exact Nat.le_add_right _ _
    | remote => exact Nat.le_add_right _ _
  obtain ⟨-, hlo, hhi⟩ := BufferPool.buffer_bounds hd
  rw [hl.pool_size] at hhi
  unfold wordUp at hbase
  omega

theorem Mapping.Window.fits {lo hi : Nat} (h : M.Window lo hi) {W : Pools}
    (hW : ∀ q, ∀ d ∈ (W.pool q).ids, lo ≤ (W.pool q).buffer d ∧ (W.pool q).buffer d < hi) : M.Fits W := by
  intro r q d hd
  have habove := h.above r
  obtain ⟨hlo, hhi⟩ := hW q d hd
  exact ⟨_, h.patova r _ hlo hhi, by omega, by omega⟩

/-- A state of the link with translations, and the state of the link without that it is. -/
structure Mapping.Refines (M : Mapping) (W : Pools) (c : LinkConfig) (t s : Link) : Prop where
  rel : M.Rel W t s
  enabled : ∀ r a, (t.stepOn M c r a).isSome = (s.step c r a).isSome
  running : ∀ r, (t.side r).halted = false
  delivered : ∀ r, (t.side r.peer).rx.recv <+: (t.side r).tx.sent.map Msg.seen

theorem Mapping.Rel.refines {W : Pools} {s : Link} {P : ∀ r, Custody (W.pool r).ids} (h : M.Rel W t s) (hinv : LinkInv W s P)
    (hpay : ∀ r, c.payloadSize + 16 ≤ (W.pool r).size) (hf : M.Fits W) : M.Refines W c t s := by
  refine ⟨h, fun r a => ?_, fun r => ?_, fun r => ?_⟩
  · rcases h.step hinv hpay hf r a with ⟨h1, h2⟩ | ⟨t', s', h1, h2, -⟩
    · rw [h1, h2]
    · rw [h1, h2]
      rfl
  · have hrun := hinv.running r
    rwa [h.side r] at hrun
  · have hfifo := (hinv.flow r).contents.fifo
    rw [h.side r, h.side r.peer] at hfifo
    rw [show (t.side r).tx.sent.map Msg.seen = _ from hfifo]
    exact List.prefix_append _ _

/-- With translations that name the same bytes, the link goes through the runs of the link on one address space: the
initialisations of both cores, each at its own address of `base`, start it there. -/
theorem translated_link_refines (hw : 32 ≤ w) (haddr : ∀ r, addr r + M.off r = base)
    (hm : (M.port .master).rpmsgLiteMasterInit w env highestM cfg (addr .master) length linkId (m.lower (M.off .master)) =
      .instance dm v)
    (hr : rpmsgLiteRemoteInit w envR highestR cfg (addr .remote) linkId = some dr) (hlen : base + length ≤ 2 ^ 32)
    (halign : ∀ r, RL_MAX_VRING_ALIGN ∣ M.off r) (hp : masterParams w cfg = some p) (hp' : remoteParams w cfg = some p)
    (hok : LinkReady w cfg base p m) (hc : c.payloadSize = cfg.payloadSize) (hf : M.Fits hok.layout.pools)
    (h : Link.ReachableOn M c (M.start m v dm dr) t) :
    ∃ m' s, rpmsgLiteMasterInit w env highestM cfg base length linkId m = .instance (dm.lift (M.off .master)) m' ∧
      rpmsgLiteRemoteInit w envR highestR cfg base linkId = some (dr.lift (M.off .remote)) ∧
      Link.Reachable c (M.plainStart m' dm dr) s ∧ M.Refines hok.layout.pools c t s := by
  obtain ⟨m', hplain, hremote, hrel, -⟩ := Mapping.Rel.of_init hw haddr hm hr hlen halign hp hp' hok.layout
  obtain ⟨P₀, h₀⟩ := linkInv_start hplain hremote hlen hp hok
  have hpay := hok.pool_payload hc
  obtain ⟨s, P, hreach, hinv, hrel'⟩ := hrel.reachable h₀ hpay hf h
  exact ⟨m', s, hplain, hremote, hreach, hrel'.refines hinv hpay hf⟩

end Link

/-! ## Two views of the same memory -/

/-- A run of several steps. -/
def Link.runOn (M : Mapping) (c : LinkConfig) : Link → List (Role × Act) → Option Link
  | t, [] => some t
  | t, (r, a) :: as => (t.stepOn M c r a).bind fun t => t.runOn M c as

theorem Link.reachableOn_of_run {M : Mapping} {c : LinkConfig} {t₀ t t' : Link} {as : List (Role × Act)}
    (h : Link.ReachableOn M c t₀ t) (hr : t.runOn M c as = some t') : Link.ReachableOn M c t₀ t' := by
  have hrun : IsRun (fun (t : Link) (a : Role × Act) => t.stepOn M c a.1 a.2) (Link.runOn M c) :=
    ⟨fun _ => rfl, fun _ _ _ => rfl⟩
  exact hrun.keeps (fun h hs => h.step hs) h hr

/-- A core that finds itself `d` below what the descriptors say. -/
def Translation.below (d : Nat) : Translation := ⟨fun a => UInt32.ofNat (a + d), fun a => some (a.toNat - d)⟩

/-- A remote that finds the memory 0x200000 above the master's addresses; the descriptors hold neither core's. -/
def twoViews : Mapping where
  port
    | .master => .below 0x400000
    | .remote => .below 0x200000
  off
    | .master => 0x400000
    | .remote => 0x200000

/-- Where each core finds the memory. -/
def twoViewsAddr : Role → Nat
  | .master => 4128
  | .remote => 4128 + 0x200000

theorem twoViews_window : twoViews.Window 0x400001 (2 ^ 32) := by
  refine ⟨fun r => by cases r <;> decide, fun r a h1 h2 => ?_⟩
  have hsame : (twoViews.described a).toNat = a := by
    show (UInt32.ofNat (a - 0x400000 + 0x400000)).toNat = a
    rw [UInt32.toNat_ofNat_of_lt' (by simp only [UInt32.size]; omega)]
    omega
  have hpatova : ∀ r, (twoViews.port r).platformPatova (twoViews.described a) =
      some ((twoViews.described a).toNat - twoViews.off r) := fun r => by cases r <;> rfl
  rw [hpatova, hsame]

theorem linkReady_twoViews : LinkReady 32 (.build (headerTwo 64 align_64_le headerVringSize_two_lt)) (4128 + 0x400000)
    ((headerTwo 64 align_64_le headerVringSize_two_lt).params 32) (fun _ => 0) :=
  header_linkReady (k := 6) rfl rfl (by decide) (by decide) fun _ _ _ _ _ => Or.inr rfl

/-- The remote reads a message at its own address. -/
theorem translated_link_refines_two : ∃ dm v dr t s,
    (twoViews.port .master).rpmsgLiteMasterInit 32 InitEnv.ok 0 (.build (headerTwo 64 align_64_le headerVringSize_two_lt))
      4128 512 0 (fun _ => 0) = .instance dm v ∧
    rpmsgLiteRemoteInit 32 InitEnv.ok 0 (.build (headerTwo 64 align_64_le headerVringSize_two_lt)) (4128 + 0x200000) 0 = some dr ∧
    (twoViews.start (fun _ => 0) v dm dr).runOn twoViews ⟨false, 16, 16⟩ sendThree = some t ∧
    (t.side .remote).rx.recv = [⟨7, 9, 3, [1, 2, 3]⟩] ∧ (t.side .remote).rx.hand.got = [⟨4576 + 0x200000, 32, 0⟩] ∧
    twoViews.Refines linkReady_twoViews.layout.pools ⟨false, 16, 16⟩ t s := by
  have hcheck : (rpmsgLiteRemoteInit 32 InitEnv.ok 0 (.build (headerTwo 64 align_64_le headerVringSize_two_lt))
      (4128 + 0x200000) 0).any (fun dr => ((twoViews.port .master).rpmsgLiteMasterInit 32 InitEnv.ok 0
        (.build (headerTwo 64 align_64_le headerVringSize_two_lt)) 4128 512 0 (fun _ => 0)).check
          fun dm v => ((twoViews.start (fun _ => 0) v dm dr).runOn twoViews ⟨false, 16, 16⟩ sendThree).any fun t =>
            (t.side .remote).rx.recv == [⟨7, 9, 3, [1, 2, 3]⟩] &&
              (t.side .remote).rx.hand.got == [⟨4576 + 0x200000, 32, 0⟩]) = true := by
    decide +kernel
  obtain ⟨dr, hr, hcheck⟩ := (Option.any_eq_true _ _).1 hcheck
  obtain ⟨dm, v, hm, hcheck⟩ := InitResult.of_check hcheck
  obtain ⟨t, hrun, hcheck⟩ := (Option.any_eq_true _ _).1 hcheck
  obtain ⟨hrecv, hhand⟩ := Bool.and_eq_true_iff.1 hcheck
  have hcalc : rlCalculateBufferCountDownSafe 32 512 ((headerTwo 64 align_64_le headerVringSize_two_lt).params 32).overhead
      ((headerTwo 64 align_64_le headerVringSize_two_lt).params 32).bufferSize = some 4 := by decide
  have hf : twoViews.Fits linkReady_twoViews.layout.pools := twoViews_window.fits fun q d hd => by
    obtain ⟨hlo, hhi⟩ := linkReady_twoViews.layout.buffer_within (by decide) (by decide) (by decide) hcalc (by decide) hd
    exact ⟨le_trans (by decide) hlo, hhi.trans_le (by decide)⟩
  have haddr : ∀ r, twoViewsAddr r + twoViews.off r = 4128 + 0x400000 := fun r => by cases r <;> rfl
  obtain ⟨m', s, -, -, -, href⟩ :=
    translated_link_refines (by decide) haddr hm hr (by decide) (fun r => by cases r <;> decide) rfl
    rfl linkReady_twoViews rfl hf (Link.reachableOn_of_run .start hrun)
  exact ⟨dm, v, dr, t, s, hm, hr, hrun, eq_of_beq hrecv, eq_of_beq hhand, href⟩

end RpmsgLite
