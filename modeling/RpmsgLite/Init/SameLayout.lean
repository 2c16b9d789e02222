/-
The master and the remote compute the layout separately. Their validations differ in one value: the
master caps a custom alignment at 65536 and the remote takes it as it is, so the two agree on where
the used rings are exactly when rounding to either alignment gives the same addresses.
-/
import RpmsgLite.Init.Master

namespace RpmsgLite

open MaskArith

variable {w : Nat} {p : ShmemParams} {addr : Nat} {env : InitEnv} {linkId : UInt32}

/-! ## The remote's instance -/

/-- The remote's virtqueues are the ones `virtqueue_create` makes. -/
theorem remoteInit_shape {highestLinkId : UInt32} {cfg : ShmemConfig} {dev : RpmsgLiteInstance}
    (h : rpmsgLiteRemoteInit w env highestLinkId cfg addr linkId = some dev) :
    ∃ p, remoteParams w cfg = some p ∧ p.align ≤ INT32_MAX ∧ dev.tvq = initVq w p addr linkId .txCallback 0 ∧
      dev.rvq = initVq w p addr linkId .rxCallback 1 ∧ dev.role = .remote ∧ dev.linkState = false ∧
      dev.shMemBase = shMemBase w p addr := by
  unfold rpmsgLiteRemoteInit at h
  split at h
  · cases h
  split at h
  · cases h
  split at h
  · cases h
  rename_i p hp
  split at h
  · cases h
  split at h
  · cases h
  split at h
  · cases h
  rename_i vq0 h0
  split at h
  · cases h
  rename_i vq1 h1
  split at h
  · cases h
  cases h
  obtain ⟨rfl, ha, -⟩ := virtqueueCreate_ok h0
  obtain ⟨rfl, -, -⟩ := virtqueueCreate_ok h1
  exact ⟨p, hp, ha, rfl, rfl, rfl, rfl, rfl⟩

/-! ## The two validations -/

/-- The master's parameters are the remote's with the alignment capped. -/
theorem masterParams_eq_capped {cfg : ShmemConfig} {pm pr : ShmemParams} (hm : masterParams w cfg = some pm)
    (hr : remoteParams w cfg = some pr) : pm = { pr with align := min pr.align RL_MAX_VRING_ALIGN } := by
  cases cfg with
  | build c =>
    simp only [masterParams, remoteParams, Option.some.injEq] at hm hr
    subst hm hr
    simp only [BuildConfig.params, Nat.min_eq_left c.align_le]
  | custom c =>
    cases c with
    | none => cases hm
    | some c =>
      simp only [masterParams] at hm
      simp only [remoteParams] at hr
      split at hm
      · cases hm
      split at hm
      · cases hm
      split at hm
      · cases hm
      split at hr
      · cases hr
      split at hr
      · cases hr
      cases hm
      cases hr
      simp only [RpmsgPlatformShmemConfig.params, RpmsgPlatformShmemConfig.capAlign_count,
        RpmsgPlatformShmemConfig.capAlign_payload, RpmsgPlatformShmemConfig.capAlign_size,
        RpmsgPlatformShmemConfig.capAlign_align]

/-! ## Agreement -/

/-- Two sides see the same vring: table addresses, entry count and virtqueue id. -/
structure SameVring (a b : Virtqueue) : Prop where
  desc : a.ring.desc = b.ring.desc
  avail : a.ring.avail = b.ring.avail
  used : a.ring.used = b.ring.used
  num : a.ring.num = b.ring.num
  nentries : a.nentries = b.nentries
  queueIndex : a.queueIndex = b.queueIndex

/-- The address whose rounding is the used ring of vring `idx`: the end of its avail ring. -/
def RpmsgPlatformShmemConfig.tablesEnd (w : Nat) (c : RpmsgPlatformShmemConfig) (addr idx : Nat) : Nat :=
  vringBase w (c.params w) addr idx + c.bufferCount.toNat * 16 + 4 + c.bufferCount.toNat * 2

/-- The configuration's alignment is within the master's cap, or rounding to it and to the cap gives the
same two addresses. -/
def CapAgrees (w : Nat) (addr : Nat) : ShmemConfig → Prop
  | .custom (some c) => c.vringAlign.toNat ≤ RL_MAX_VRING_ALIGN ∨
      ∀ idx < 2, roundUp w (c.tablesEnd w addr idx) c.vringAlign.toNat =
        roundUp w (c.tablesEnd w addr idx) RL_MAX_VRING_ALIGN
  | _ => True

theorem capAgrees_iff (addr : Nat) {cfg : ShmemConfig} {pm pr : ShmemParams} (hm : masterParams w cfg = some pm)
    (hr : remoteParams w cfg = some pr) : CapAgrees w addr cfg ↔
      ∀ idx < 2, (vringInit w pm.count.toNat (vringBase w pm addr idx) pm.align).used =
        (vringInit w pr.count.toNat (vringBase w pr addr idx) pr.align).used := by
  have heq := masterParams_eq_capped hm hr
  cases cfg with
  | build c =>
    simp only [masterParams, remoteParams, Option.some.injEq] at hm hr
    subst hm hr
    simp [CapAgrees]
  | custom c =>
    cases c with
    | none => cases hm
    | some c =>
      have hpr : pr = c.params w := by
        simp only [remoteParams] at hr
        split at hr
        · cases hr
        split at hr
        · cases hr
        cases hr; rfl
      subst hpr heq
      simp only [CapAgrees]
      by_cases hle : c.vringAlign.toNat ≤ RL_MAX_VRING_ALIGN
      · have hmin : min (c.params w).align RL_MAX_VRING_ALIGN = (c.params w).align := Nat.min_eq_left hle
        refine ⟨fun _ idx _ => ?_, fun _ => Or.inl hle⟩
        rw [hmin]
      · have hmin : min (c.params w).align RL_MAX_VRING_ALIGN = RL_MAX_VRING_ALIGN :=
          Nat.min_eq_right (Nat.le_of_not_le hle)
        rw [hmin]
        constructor
        · rintro (h | h)
          · exact absurd h hle
          · exact fun idx hidx => (h idx hidx).symm
        · exact fun h => Or.inr fun idx hidx => (h idx hidx).symm

/-- When both initialisations return an instance, the master's tvq is the remote's rvq and the master's
rvq the remote's tvq exactly when the cap does not move a used ring. -/
theorem masterInit_remoteInit_same {envR : InitEnv} {highestM highestR : UInt32} {cfg : ShmemConfig} {length : Nat}
    {m m' : ByteMem} {dm dr : RpmsgLiteInstance}
    (hm : rpmsgLiteMasterInit w env highestM cfg addr length linkId m = .instance dm m')
    (hr : rpmsgLiteRemoteInit w envR highestR cfg addr linkId = some dr) :
    (SameVring dm.rvq dr.tvq ∧ SameVring dm.tvq dr.rvq) ↔ CapAgrees w addr cfg := by
  obtain ⟨pm, count, hrun⟩ := masterInit_run hm
  obtain ⟨pr, hpr, -, htvq, hrvq, -⟩ := remoteInit_shape hr
  obtain ⟨h0, c0, he0⟩ := hrun.shape.rvq
  obtain ⟨h1, c1, he1⟩ := hrun.shape.tvq
  rw [capAgrees_iff addr hrun.params hpr, he0, he1, htvq, hrvq]
  have heq := masterParams_eq_capped hrun.params hpr
  have hcount : pm.count = pr.count := by rw [heq]
  have hbase : ∀ idx, vringBase w pm addr idx = vringBase w pr addr idx := fun idx => by rw [heq]; rfl
  have hsame : ∀ (idx : Nat) (a b : Virtqueue), a.ring = vringInit w pm.count.toNat (vringBase w pm addr idx) pm.align →
      b.ring = vringInit w pr.count.toNat (vringBase w pr addr idx) pr.align → a.nentries = pm.count →
      b.nentries = pr.count → a.queueIndex = rlGetVqId linkId idx → b.queueIndex = rlGetVqId linkId idx →
      (SameVring a b ↔ (vringInit w pm.count.toNat (vringBase w pm addr idx) pm.align).used =
        (vringInit w pr.count.toNat (vringBase w pr addr idx) pr.align).used) := by
    intro idx a b ha hb hna hnb hqa hqb
    rw [← ha, ← hb]
    refine ⟨fun h => h.used, fun h => ⟨?_, ?_, h, ?_, ?_, by rw [hqa, hqb]⟩⟩
    · rw [ha, hb]; exact hbase idx
    · rw [ha, hb]; simp only [vringInit, hbase, hcount]
    · rw [ha, hb]; simp only [vringInit, hcount]
    · rw [hna, hnb, hcount]
  rw [hsame 0 _ _ rfl rfl rfl rfl rfl rfl, hsame 1 _ _ rfl rfl rfl rfl rfl rfl]
  constructor
  · rintro ⟨e0, e1⟩ idx hidx
    obtain rfl | rfl : idx = 0 ∨ idx = 1 := by omega
    · exact e0
    · exact e1
  · exact fun h => ⟨h 0 (by omega), h 1 (by omega)⟩

/-! ## On both sides of the cap -/

/-- A custom configuration with two buffers and the given alignment. -/
def customTwo (align : UInt32) : RpmsgPlatformShmemConfig := ⟨16, 2, 0x30000, align⟩

theorem masterInit_remoteInit_uncapped : ∃ dm m' dr,
    rpmsgLiteMasterInit 32 InitEnv.ok 0 (.custom (some (customTwo 0x1000))) 4096 0x61000 0 (fun _ => 0) =
      .instance dm m' ∧
    rpmsgLiteRemoteInit 32 InitEnv.ok 0 (.custom (some (customTwo 0x1000))) 4096 0 = some dr ∧
    SameVring dm.rvq dr.tvq ∧ SameVring dm.tvq dr.rvq := by
  obtain ⟨dm, m', hm, -⟩ := InitResult.of_check (t := fun _ _ => true)
    (r := rpmsgLiteMasterInit 32 InitEnv.ok 0 (.custom (some (customTwo 0x1000))) 4096 0x61000 0 (fun _ => 0))
    (by decide +kernel)
  obtain ⟨dr, hr⟩ := Option.isSome_iff_exists.1
    (show (rpmsgLiteRemoteInit 32 InitEnv.ok 0 (.custom (some (customTwo 0x1000))) 4096 0).isSome = true by decide +kernel)
  exact ⟨dm, m', dr, hm, hr, (masterInit_remoteInit_same hm hr).2 (Or.inl (by decide))⟩

/-- At alignment 0x20000 the master places the used ring at 0x10000 and the remote at 0x20000. -/
theorem masterInit_remoteInit_differ : ∃ dm m' dr,
    rpmsgLiteMasterInit 32 InitEnv.ok 0 (.custom (some (customTwo 0x20000))) 4096 0x61000 0 (fun _ => 0) =
      .instance dm m' ∧
    rpmsgLiteRemoteInit 32 InitEnv.ok 0 (.custom (some (customTwo 0x20000))) 4096 0 = some dr ∧
    ¬ (SameVring dm.rvq dr.tvq ∧ SameVring dm.tvq dr.rvq) := by
  obtain ⟨dm, m', hm, htm⟩ := InitResult.of_check (t := fun dev _ => dev.rvq.ring.used == 0x10000)
    (r := rpmsgLiteMasterInit 32 InitEnv.ok 0 (.custom (some (customTwo 0x20000))) 4096 0x61000 0 (fun _ => 0))
    (by decide +kernel)
  have htr : (rpmsgLiteRemoteInit 32 InitEnv.ok 0 (.custom (some (customTwo 0x20000))) 4096 0).any
      (fun dev => dev.tvq.ring.used == 0x20000) = true := by decide +kernel
  obtain ⟨dr, hr, hused⟩ := (Option.any_eq_true _ _).1 htr
  refine ⟨dm, m', dr, hm, hr, fun hs => ?_⟩
  have := hs.1.used
  rw [eq_of_beq htm, eq_of_beq hused] at this
  exact absurd this (by decide)

end RpmsgLite
