/-
What `rpmsg_lite_master_init` leaves behind. First the shape of the returned instance, for every
layout; then, for a layout whose tables and buffers are apart, the contents of the shared memory:
the vring loop leaves empty rings, the buffer loop fills one ring entry after the other.
-/
import RpmsgLite.Init.Setup
import RpmsgLite.Virtio.Ring

namespace RpmsgLite

open MaskArith ByteMem

section Shape

variable {w : Nat} {p : ShmemParams} {addr : Nat} {env : InitEnv} {linkId : UInt32}

/-! ## The returned instance -/

/-- The virtqueue as `virtqueue_create` leaves it. -/
def initVq (w : Nat) (p : ShmemParams) (addr : Nat) (linkId : UInt32) (callback : VqCallback) (idx : Nat) :
    Virtqueue where
  callback := callback
  flags := 0
  ring := vringInit w p.count.toNat (vringBase w p addr idx) p.align
  queueIndex := rlGetVqId linkId idx
  nentries := p.count
  queuedCnt := 0
  descHeadIdx := 0
  usedConsIdx := 0
  availableIdx := 0

/-- The memory after one turn of the vring loop. -/
def vringMem (zeroed : Nat) (vq : Virtqueue) (m : ByteMem) : ByteMem :=
  virtqueueDisableCb vq (vqRingInit vq (m.fill vq.ring.desc zeroed 0))

theorem virtqueueCreate_ok {allocOk : Bool} {callback : VqCallback} {idx : Nat} {vq : Virtqueue}
    (h : virtqueueCreate w allocOk (rlGetVqId linkId idx) (vringAllocInfo w p addr idx) callback = .ok vq) :
    vq = initVq w p addr linkId callback idx ∧ p.align ≤ INT32_MAX ∧ allocOk = true := by
  unfold virtqueueCreate at h
  split at h
  · cases h
  · rename_i ha
    split at h
    · cases h
    · rename_i halloc
      cases h
      exact ⟨rfl, Nat.le_of_not_lt ha, by simpa using halloc⟩

theorem masterVring_ok {callback : VqCallback} {idx : Nat} {vq : Virtqueue} {m m' : ByteMem}
    (h : masterVring w p addr env linkId callback idx m = .ok (vq, m')) :
    vq = initVq w p addr linkId callback idx ∧ p.align ≤ INT32_MAX ∧ env.vqAlloc idx = true ∧
      m' = vringMem (vringSize w p.count.toNat p.align) vq m := by
  unfold masterVring at h
  simp only at h
  split at h
  · cases h
  · rename_i vq' hc
    cases h
    obtain ⟨rfl, ha, halloc⟩ := virtqueueCreate_ok hc
    exact ⟨rfl, ha, halloc, rfl⟩

/-- The calls that can fail after the first store to the shared memory, and those before it. -/
structure InitEnv.Succeeds (env : InitEnv) : Prop where
  instanceAlloc : env.instanceAlloc = true
  envInit : env.envInit = true
  vqAlloc0 : env.vqAlloc 0 = true
  vqAlloc1 : env.vqAlloc 1 = true
  mutex : env.mutex = true

/-- What a successful `rpmsg_lite_master_init` went through. -/
structure MasterRun (w : Nat) (env : InitEnv) (cfg : ShmemConfig) (addr length : Nat) (linkId : UInt32)
    (m : ByteMem) (p : ShmemParams) (count : Nat) (dev : RpmsgLiteInstance) (m' : ByteMem) : Prop where
  params : masterParams w cfg = some p
  addr_ne : addr ≠ 0
  calc_eq : rlCalculateBufferCountDownSafe w length p.overhead p.bufferSize = some count
  enough : 2 * p.count.toNat ≤ count
  align_le : p.align ≤ INT32_MAX
  alloc : env.Succeeds
  buffers : masterBuffers w p addr linkId (wrap 32 count) (initVq w p addr linkId .rxCallback 0)
    (initVq w p addr linkId .txCallback 1)
    (vringMem (vringSize w p.count.toNat p.align) (initVq w p addr linkId .txCallback 1)
      (vringMem (vringSize w p.count.toNat p.align) (initVq w p addr linkId .rxCallback 0) m)) = .instance dev m'

theorem masterInit_run {highestLinkId : UInt32} {cfg : ShmemConfig} {length : Nat} {m m' : ByteMem}
    {dev : RpmsgLiteInstance} (h : rpmsgLiteMasterInit w env highestLinkId cfg addr length linkId m = .instance dev m') :
    ∃ p count, MasterRun w env cfg addr length linkId m p count dev m' := by
  unfold rpmsgLiteMasterInit at h
  split at h
  · cases h
  split at h
  · cases h
  rename_i haddr
  split at h
  · cases h
  rename_i p hp
  split at h
  · cases h
  rename_i count hcalc
  split at h
  · cases h
  rename_i hcount
  split at h
  · cases h
  rename_i halloc
  split at h
  · cases h
  rename_i hinit
  split at h
  · cases h
  rename_i vq0 m1 h0
  split at h
  · cases h
  rename_i vq1 m2 h1
  split at h
  · cases h
  rename_i hmutex
  obtain ⟨rfl, ha, ha0, rfl⟩ := masterVring_ok h0
  obtain ⟨rfl, -, ha1, rfl⟩ := masterVring_ok h1
  exact ⟨p, count, hp, haddr, hcalc, Nat.le_of_not_lt hcount, ha,
    ⟨by simpa using halloc, by simpa using hinit, ha0, ha1, by simpa using hmutex⟩, h⟩

theorem masterVring_eq {callback : VqCallback} {idx : Nat} (ha : p.align ≤ INT32_MAX) (halloc : env.vqAlloc idx = true)
    (m : ByteMem) : masterVring w p addr env linkId callback idx m =
      .ok (initVq w p addr linkId callback idx,
        vringMem (vringSize w p.count.toNat p.align) (initVq w p addr linkId callback idx) m) := by
  have hc : virtqueueCreate w (env.vqAlloc idx) (rlGetVqId linkId idx) (vringAllocInfo w p addr idx) callback =
      .ok (initVq w p addr linkId callback idx) := by
    unfold virtqueueCreate
    rw [if_neg (show ¬ (vringAllocInfo w p addr idx).align > INT32_MAX from Nat.not_lt.2 ha), halloc]
    rfl
  unfold masterVring
  simp only [hc]
  rfl

/-- The checks that return NULL before any store. -/
def MasterRejects (w : Nat) (env : InitEnv) (highestLinkId : UInt32) (cfg : ShmemConfig) (addr length : Nat)
    (linkId : UInt32) : Prop :=
  linkId > highestLinkId ∨ addr = 0 ∨ masterParams w cfg = none ∨
    ∃ p count, masterParams w cfg = some p ∧
      rlCalculateBufferCountDownSafe w length p.overhead p.bufferSize = some count ∧
      (2 * p.count.toNat > count ∨ env.instanceAlloc = false ∨ env.envInit = false)

theorem masterBuffers_ne_rejected {total : Nat} {vq0 vq1 : Virtqueue} {m : ByteMem} :
    masterBuffers w p addr linkId total vq0 vq1 m ≠ .rejected := by
  intro h
  unfold masterBuffers at h
  split at h
  · cases h
  split at h
  · cases h
  · cases h

theorem masterInit_rejected_iff {highestLinkId : UInt32} {cfg : ShmemConfig} {length : Nat} {m : ByteMem} :
    rpmsgLiteMasterInit w env highestLinkId cfg addr length linkId m = .rejected ↔
      MasterRejects w env highestLinkId cfg addr length linkId := by
  unfold MasterRejects
  constructor
  · intro h
    unfold rpmsgLiteMasterInit at h
    split at h
    · rename_i hlink; exact Or.inl hlink
    split at h
    · rename_i haddr; exact Or.inr (Or.inl haddr)
    split at h
    · rename_i hp; exact Or.inr (Or.inr (Or.inl hp))
    rename_i p hp
    refine Or.inr (Or.inr (Or.inr ?_))
    split at h
    · cases h
    rename_i count hcalc
    refine ⟨p, count, hp, hcalc, ?_⟩
    split at h
    · rename_i hcount; exact Or.inl hcount
    split at h
    · rename_i halloc; exact Or.inr (Or.inl (by simpa using halloc))
    split at h
    · rename_i hinit; exact Or.inr (Or.inr (by simpa using hinit))
    split at h
    · cases h
    split at h
    · cases h
    split at h
    · cases h
    exact absurd h masterBuffers_ne_rejected
  · intro h
    unfold rpmsgLiteMasterInit
    by_cases hlink : linkId > highestLinkId
    · rw [if_pos hlink]
    rw [if_neg hlink]
    by_cases haddr : addr = 0
    · rw [if_pos haddr]
    rw [if_neg haddr]
    rcases h with h | h | h | ⟨p, count, hp, hcalc, h⟩
    · exact absurd h hlink
    · exact absurd h haddr
    · rw [h]
    · rw [hp]
      simp only [hcalc]
      rcases h with h | h | h
      · rw [if_pos h]
      · split
        · rfl
        · rw [if_pos (by rw [h]; rfl)]
      · split
        · rfl
        · split
          · rfl
          · rw [if_pos (by rw [h]; rfl)]

/-! ## The buffer loops leave the virtqueues' rings and cursors alone -/

/-- Two states of a virtqueue that differ at most in the descriptor head and the queued count. -/
def SameRing (vq vq' : Virtqueue) : Prop :=
  ∃ h c, vq' = { vq with descHeadIdx := h, queuedCnt := c }

theorem SameRing.refl (vq : Virtqueue) : SameRing vq vq := ⟨vq.descHeadIdx, vq.queuedCnt, rfl⟩

theorem SameRing.trans {a b c : Virtqueue} (h : SameRing a b) (h' : SameRing b c) : SameRing a c := by
  obtain ⟨h1, c1, rfl⟩ := h
  obtain ⟨h2, c2, rfl⟩ := h'
  exact ⟨h2, c2, rfl⟩

theorem fillBuffers_sameRing (isRvq : Bool) (vq : Virtqueue) (m : ByteMem) (b : Nat) (len : UInt32) :
    SameRing vq (fillBuffers isRvq vq m b len).1 := by
  cases isRvq
  · exact ⟨_, vq.queuedCnt, rfl⟩
  · exact ⟨_, _, rfl⟩

theorem masterFill_sameRing {isRvq : Bool} {total : Nat} {st st' : FillState}
    (h : masterFill w p addr isRvq total st = some st') : SameRing st.vq st'.vq := by
  unfold masterFill at h
  simp only at h
  split at h
  · cases h
  · cases h
    exact fillBuffers_sameRing _ _ _ _ _

theorem masterFillLoop_sameRing {isRvq : Bool} {total : Nat} :
    ∀ {n : Nat} {st st' : FillState}, masterFillLoop w p addr isRvq total n st = some st' → SameRing st.vq st'.vq
  | 0, st, st', h => by cases h; exact SameRing.refl _
  | n + 1, st, st', h => by
    obtain ⟨st1, h1, h2⟩ := Option.bind_eq_some_iff.1 h
    exact (masterFill_sameRing h1).trans (masterFillLoop_sameRing h2)

/-- The fields of the master's instance that the layout fixes. -/
structure MasterShape (w : Nat) (p : ShmemParams) (addr : Nat) (linkId : UInt32) (total : Nat)
    (dev : RpmsgLiteInstance) : Prop where
  rvq : SameRing (initVq w p addr linkId .rxCallback 0) dev.rvq
  tvq : SameRing (initVq w p addr linkId .txCallback 1) dev.tvq
  role : dev.role = .master
  up : dev.linkState = true
  base : dev.shMemBase = shMemBase w p addr
  total : dev.shMemTotal = total

theorem MasterRun.shape {cfg : ShmemConfig} {length count : Nat} {m m' : ByteMem} {dev : RpmsgLiteInstance}
    (h : MasterRun w env cfg addr length linkId m p count dev m') :
    MasterShape w p addr linkId (wrap 32 count) dev := by
  have hb := h.buffers
  unfold masterBuffers at hb
  split at hb
  · cases hb
  rename_i st0 h0
  split at hb
  · cases hb
  rename_i st1 h1
  cases hb
  refine ⟨(masterFillLoop_sameRing h0).trans ⟨_, _, rfl⟩, masterFillLoop_sameRing h1, rfl, rfl, rfl, rfl⟩

end Shape

end RpmsgLite
