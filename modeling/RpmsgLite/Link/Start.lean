/-
The link right after both initialisations. `LinkReady` says when the two sides start on common ground:
the layout has no overlap and holds the payload, both see the same rings, and the used indices were
cleared. Then every descriptor is free for its sender and the invariant holds.
-/
import RpmsgLite.Init.SameLayout
import RpmsgLite.Link.Invariant

namespace RpmsgLite

open ByteMem

/-- `RL_BUFFER_PAYLOAD_SIZE`, or the platform's `buffer_payload_size` -/
def ShmemConfig.payloadSize : ShmemConfig → Nat
  | .build c => c.payloadSize
  | .custom none => 0
  | .custom (some c) => c.bufferPayloadSize.toNat

/-- The initialisations over the memory `m` leave the two sides on common ground. -/
structure LinkReady (w : Nat) (cfg : ShmemConfig) (addr : Nat) (p : ShmemParams) (m : ByteMem) : Prop where
  layout : LayoutOk w p addr
  payload : cfg.payloadSize + 16 ≤ p.bufferSize
  cap : CapAgrees w addr cfg
  cleared : ∀ idx < 2, UsedCleared m (vringOf w p addr idx) (zeroedSize w p)

section

variable {w : Nat} {p : ShmemParams} {addr : Nat}

/-! ## The two pools -/

theorem LayoutOk.half_le (hl : LayoutOk w p addr) :
    shMemBase w p addr + p.bufferSize * p.count.toNat ≤ shMemBase w p addr + p.bufferSize * (p.count.toNat + p.count.toNat) ∧
      0 < shMemBase w p addr := by
  have h0 := hl.bufs0
  simp only [Vring.usedEnd] at h0
  exact ⟨Nat.add_le_add_left (Nat.mul_le_mul_left _ (Nat.le_add_left _ _)) _, by omega⟩

/-- The vring the remote sends on: vring 0 with the first half of the buffers. -/
def LayoutOk.pool0 (hl : LayoutOk w p addr) : BufferPool where
  vr := vringOf w p addr 0
  base := shMemBase w p addr
  size := p.bufferSize
  lo := 0
  laid := hl.laid0
  base_pos := hl.half_le.2
  size_ge := hl.size_ge
  top := by
    rw [Nat.zero_add]
    exact hl.half_le.1.trans hl.top
  apart := Or.inl hl.bufs0

/-- The vring the master sends on: vring 1 with the second half. -/
def LayoutOk.pool1 (hl : LayoutOk w p addr) : BufferPool where
  vr := vringOf w p addr 1
  base := shMemBase w p addr
  size := p.bufferSize
  lo := p.count.toNat
  laid := hl.laid1
  base_pos := hl.half_le.2
  size_ge := hl.size_ge
  top := hl.top
  apart := hl.bufs1.imp (fun h => h.trans (Nat.le_add_right _ _)) id

def LayoutOk.pools (hl : LayoutOk w p addr) : Pools where
  pool
    | .master => hl.pool1
    | .remote => hl.pool0
  separate := by
    refine ⟨Or.inr hl.order, ?_, Or.inr (hl.bufs0.trans (Nat.le_add_right _ _)), Or.inr ?_⟩
    · refine hl.bufs1.imp id fun h => le_trans ?_ h
      show shMemBase w p addr + p.bufferSize * (0 + p.count.toNat) ≤ _
      rw [Nat.zero_add]
      exact hl.half_le.1
    · show shMemBase w p addr + p.bufferSize * (0 + p.count.toNat) ≤ shMemBase w p addr + p.bufferSize * p.count.toNat
      rw [Nat.zero_add]

theorem LayoutOk.pool_vr_num (hl : LayoutOk w p addr) (r : Role) : (hl.pools.pool r).vr.num = p.count.toNat := by
  cases r <;> rfl

theorem LayoutOk.pool_size (hl : LayoutOk w p addr) (r : Role) : (hl.pools.pool r).size = p.bufferSize := by
  cases r <;> rfl

/-! ## Both sides see the same rings -/

theorem vringOf_eq_of_cap {cfg : ShmemConfig} {pm pr : ShmemParams} (hm : masterParams w cfg = some pm)
    (hr : remoteParams w cfg = some pr) (hc : CapAgrees w addr cfg) (idx : Nat) (hidx : idx < 2) :
    vringOf w pr addr idx = vringOf w pm addr idx ∧ pr.count = pm.count := by
  have heq := masterParams_eq_capped hm hr
  have hused := (capAgrees_iff addr hm hr).1 hc idx hidx
  have hcount : pm.count = pr.count := by rw [heq]
  have hbase : vringBase w pm addr idx = vringBase w pr addr idx := by rw [heq]; rfl
  refine ⟨?_, hcount.symm⟩
  have hv : ∀ a b : Vring, a.num = b.num → a.desc = b.desc → a.avail = b.avail → a.used = b.used → a = b := by
    rintro ⟨_, _, _, _⟩ ⟨_, _, _, _⟩ rfl rfl rfl rfl; rfl
  refine hv _ _ ?_ ?_ ?_ hused.symm
  · simp only [vringOf, vringInit, hcount]
  · simp only [vringOf, vringInit, hbase]
  · simp only [vringOf, vringInit, hbase, hcount]

/-! ## The start -/

/-- One direction right after the initialisations. -/
theorem flow_start {B : BufferPool} {k : RingKind} {m : ByteMem} {tvq rvq : Virtqueue} (ht : tvq.ring = B.vr)
    (htn : tvq.nentries.toNat = B.vr.num) (htc : tvq.cursor k = 0) (hr : rvq.ring = B.vr)
    (hrn : rvq.nentries.toNat = B.vr.num) (hrc : rvq.cursor k.other = 0)
    (hdesc : B.vr.DescIs m B.vr.num B.base B.size B.lo)
    (hfree : B.vr.PendingIs m k 0 ((List.range B.vr.num).map UInt16.ofNat) (UInt32.ofNat B.size))
    (hidx : B.vr.ringIdx m k.other = 0) :
    Flow B k m tvq rvq ⟨[], [], []⟩ ⟨.idle, [], []⟩ (Custody.start ((List.range B.vr.num).map UInt16.ofNat)) := by
  have hnil := Vring.pendingIs_nil B.vr m k.other (UInt32.ofNat B.size)
  rw [hidx] at hnil
  refine ⟨⟨⟨ht ▸ B.laid, by rw [htn, ht]⟩, ht, ⟨hr ▸ B.laid, by rw [hrn, hr]⟩, hr, hdesc, by rw [htc]; exact hfree,
    by rw [hrc]; exact hnil⟩, rfl, rfl, ?_⟩
  refine ⟨?_, ?_, ?_, ?_, ?_, ?_, ?_, rfl⟩
  all_goals intro _ h; cases h

theorem calc_le {length overhead buffSize count : Nat}
    (h : rlCalculateBufferCountDownSafe w length overhead buffSize = some count) : count ≤ length := by
  unfold rlCalculateBufferCountDownSafe at h
  split at h
  · cases h; exact Nat.zero_le _
  split at h
  · cases h
  · cases h
    exact ((Nat.div_le_self _ _).trans Nat.and_le_left).trans (Nat.sub_le _ _)

theorem linkInv_start {env envR : InitEnv} {highestM highestR linkId : UInt32} {cfg : ShmemConfig} {length : Nat}
    {m m' : ByteMem} {dm dr : RpmsgLiteInstance}
    (hm : rpmsgLiteMasterInit w env highestM cfg addr length linkId m = .instance dm m')
    (hr : rpmsgLiteRemoteInit w envR highestR cfg addr linkId = some dr) (hlen : addr + length ≤ 2 ^ 32)
    (hp : masterParams w cfg = some p) (hok : LinkReady w cfg addr p m) :
    ∃ P, LinkInv hok.layout.pools (Link.start m' dm dr) P := by
  obtain ⟨pm, count, hrun⟩ := masterInit_run hm
  obtain rfl : pm = p := Option.some.inj (hrun.params.symm.trans hp)
  obtain ⟨pr, hpr, -, htvq, hrvq, hrole, -⟩ := remoteInit_shape hr
  have hl := hok.layout
  have hwrap : MaskArith.wrap 32 count = count :=
    MaskArith.wrap_of_lt (by have := calc_le hrun.calc_eq; have := hrun.addr_ne; omega)
  obtain ⟨z0, z1, hmem, hz0, hz1⟩ := hrun.mem hl (by rw [hwrap]; have := hrun.enough; omega)
  obtain rfl := hz0.2 (hok.cleared 0 (by decide))
  obtain rfl := hz1.2 (hok.cleared 1 (by decide))
  have hshape := hrun.shape
  obtain ⟨mr, mrn, mrc, -, -⟩ := hshape.rvq_ring
  obtain ⟨mt, mtn, mtc, -, -⟩ := hshape.tvq_ring
  obtain ⟨e0, en⟩ := vringOf_eq_of_cap hp hpr hok.cap 0 (by decide)
  obtain ⟨e1, -⟩ := vringOf_eq_of_cap hp hpr hok.cap 1 (by decide)
  have rr : dr.rvq.ring = vringOf w pm addr 1 := by rw [hrvq]; exact e1
  have rrn : dr.rvq.nentries = pm.count := by rw [hrvq]; exact en
  have rrc : dr.rvq.availableIdx = 0 := by rw [hrvq]; rfl
  have rt : dr.tvq.ring = vringOf w pm addr 0 := by rw [htvq]; exact e0
  have rtn : dr.tvq.nentries = pm.count := by rw [htvq]; exact en
  have rtc : dr.tvq.availableIdx = 0 := by rw [htvq]; rfl
  have hcount : ∀ vq : Virtqueue, vq.nentries = pm.count → vq.nentries.toNat = pm.count.toNat := fun _ h => by rw [h]
  refine ⟨fun | .master => Custody.start _ | .remote => Custody.start _, ⟨?_, ?_, ?_⟩⟩
  · intro r
    cases r with
    | master => exact hshape.role
    | remote => exact hrole
  · intro r; cases r <;> rfl
  · intro r
    cases r with
    | master =>
      exact flow_start (B := hl.pool1) (k := .used) mt (hcount _ mtn) mtc rr (hcount _ rrn) rrc hmem.desc1 hmem.used1 hmem.availIdx1
    | remote =>
      exact flow_start (B := hl.pool0) (k := .avail) rt (hcount _ rtn) rtc mr
        (hcount _ mrn) mrc hmem.desc0 hmem.avail0 hmem.usedIdx0

/-- The largest message fits a buffer of either pool. -/
theorem LinkReady.pool_payload {cfg : ShmemConfig} {m : ByteMem} {c : LinkConfig} (hok : LinkReady w cfg addr p m)
    (hc : c.payloadSize = cfg.payloadSize) (r : Role) : c.payloadSize + 16 ≤ (hok.layout.pools.pool r).size := by
  rw [hok.layout.pool_size, hc]
  exact hok.payload

/-- Every state of every run from a ready start. -/
theorem linkInv_reachable {env envR : InitEnv} {highestM highestR linkId : UInt32} {cfg : ShmemConfig} {length : Nat}
    {m m' : ByteMem} {dm dr : RpmsgLiteInstance} {c : LinkConfig} {s : Link}
    (hm : rpmsgLiteMasterInit w env highestM cfg addr length linkId m = .instance dm m')
    (hr : rpmsgLiteRemoteInit w envR highestR cfg addr linkId = some dr) (hlen : addr + length ≤ 2 ^ 32)
    (hp : masterParams w cfg = some p) (hok : LinkReady w cfg addr p m) (hc : c.payloadSize = cfg.payloadSize)
    (h : Link.Reachable c (Link.start m' dm dr) s) : ∃ P, LinkInv hok.layout.pools s P := by
  obtain ⟨P₀, h₀⟩ := linkInv_start hm hr hlen hp hok
  exact h₀.reachable (hok.pool_payload hc) h

end

end RpmsgLite
