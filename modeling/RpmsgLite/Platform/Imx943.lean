/-
Address translation on the i.MX943, in `platform_patova` of the M33S and of the M70. Each core's tightly
coupled memory has one address for its owner and another one for the other two, and of each only the windows
that two cores share may be passed on. The constants pair the `BEGIN` and `END` macros of the two platform
headers, which agree where both have them.
-/
import RpmsgLite.Lib.AddressMap

namespace RpmsgLite

namespace Imx943

open AddressMap

/-! ## The memory map -/

def RPMSG_M33S_SYS_TCM_FROM_M70_VIEW : Range := ⟨0x20A00000, 0x20A3FFFF, by decide⟩
def RPMSG_M70_DTCM_FROM_M70_VIEW : Range := ⟨0x20000000, 0x2003FFFF, by decide⟩
def RPMSG_M71_DTCM_FROM_M70_VIEW : Range := ⟨0x20300000, 0x2033FFFF, by decide⟩

def RPMSG_M33S_SYS_TCM_FROM_M71_VIEW : Range := ⟨0x20A00000, 0x20A3FFFF, by decide⟩
def RPMSG_M70_DTCM_FROM_M71_VIEW : Range := ⟨0x20400000, 0x2043FFFF, by decide⟩
def RPMSG_M71_DTCM_FROM_M71_VIEW : Range := ⟨0x20000000, 0x2003FFFF, by decide⟩

def RPMSG_M33S_SYS_TCM_FROM_M33S_VIEW : Range := ⟨0x20000000, 0x2003FFFF, by decide⟩
def RPMSG_M70_DTCM_FROM_M33S_VIEW : Range := ⟨0x20400000, 0x2043FFFF, by decide⟩
def RPMSG_M71_DTCM_FROM_M33S_VIEW : Range := ⟨0x20300000, 0x2033FFFF, by decide⟩

/-! The windows are named by master and remote and lie in the remote's memory: the far view is the master's,
the near one the remote's. -/

def RPMSG_SHMEM_M33S_M70_DTCM : Shared where
  far := ⟨0x2043A800, 0x2043BFFF, by decide⟩
  near := ⟨0x2003A800, 0x2003BFFF, by decide⟩
  size := by decide

def RPMSG_SHMEM_M71_M70_DTCM : Shared where
  far := ⟨0x20439000, 0x2043A7FF, by decide⟩
  near := ⟨0x20039000, 0x2003A7FF, by decide⟩
  size := by decide

def RPMSG_SHMEM_M70_M71_DTCM : Shared where
  far := ⟨0x20339000, 0x2033A7FF, by decide⟩
  near := ⟨0x20039000, 0x2003A7FF, by decide⟩
  size := by decide

def RPMSG_SHMEM_M70_M33S_SYS_TCM : Shared where
  far := ⟨0x20A39000, 0x20A3A7FF, by decide⟩
  near := ⟨0x20039000, 0x2003A7FF, by decide⟩
  size := by decide

def RPMSG_SHMEM_M71_M33S_SYS_TCM : Shared where
  far := ⟨0x20A3A800, 0x20A3BFFF, by decide⟩
  near := ⟨0x2003A800, 0x2003BFFF, by decide⟩
  size := by decide

def RPMSG_SHMEM_M33S_M71_DTCM : Shared where
  far := ⟨0x2033A800, 0x2033BFFF, by decide⟩
  near := ⟨0x2003A800, 0x2003BFFF, by decide⟩
  size := by decide

/-! ## `platform_patova` -/

/-- On the M70; `none` is the failed assertion. -/
def M70.platformPatova (addr : UInt32) : Option UInt32 :=
  -- M70 as master, M71 as remote; the end is that of the M70's own memory
  if RPMSG_M71_DTCM_FROM_M70_VIEW.first ≤ addr ∧ addr ≤ RPMSG_M70_DTCM_FROM_M70_VIEW.last then
    if addr ∈ RPMSG_SHMEM_M70_M71_DTCM.far then some addr else none
  -- M33S as master, M70 as remote or M71 as master, M70 as remote
  else if addr ∈ RPMSG_M70_DTCM_FROM_M33S_VIEW then
    if addr ∈ RPMSG_SHMEM_M33S_M70_DTCM.far then
      some (addr - (RPMSG_M70_DTCM_FROM_M33S_VIEW.first - RPMSG_M70_DTCM_FROM_M70_VIEW.first))
    else if addr ∈ RPMSG_SHMEM_M71_M70_DTCM.far then
      some (addr - (RPMSG_M70_DTCM_FROM_M71_VIEW.first - RPMSG_M70_DTCM_FROM_M70_VIEW.first))
    else none
  -- M70 as master, M33S as remote
  else if addr ∈ RPMSG_M33S_SYS_TCM_FROM_M70_VIEW then
    if addr ∈ RPMSG_SHMEM_M70_M33S_SYS_TCM.far then some addr else none
  else some addr

/-- On the M33S. -/
def M33s.platformPatova (addr : UInt32) : Option UInt32 :=
  -- M33S as master, M70 as remote
  if addr ∈ RPMSG_M70_DTCM_FROM_M33S_VIEW then
    if addr ∈ RPMSG_SHMEM_M33S_M70_DTCM.far then some addr else none
  -- M33S as master, M71 as remote
  else if addr ∈ RPMSG_M71_DTCM_FROM_M33S_VIEW then
    if addr ∈ RPMSG_SHMEM_M33S_M71_DTCM.far then some addr else none
  -- M71 as master, M33S as remote or M70 as master, M33S as remote
  else if addr ∈ RPMSG_M33S_SYS_TCM_FROM_M71_VIEW then
    if addr ∈ RPMSG_SHMEM_M71_M33S_SYS_TCM.far then
      some (addr - (RPMSG_M33S_SYS_TCM_FROM_M71_VIEW.first - RPMSG_M33S_SYS_TCM_FROM_M33S_VIEW.first))
    else if addr ∈ RPMSG_SHMEM_M70_M33S_SYS_TCM.far then
      some (addr - (RPMSG_M33S_SYS_TCM_FROM_M70_VIEW.first - RPMSG_M33S_SYS_TCM_FROM_M33S_VIEW.first))
    else none
  else some addr

/-! ## What the translation is for -/

/-- An address of the window is passed on as it is by the master, and the remote finds the same byte in its
own view; no two addresses are taken for one. -/
def Faithful (w : Shared) (master remote : UInt32 → Option UInt32) (addr : UInt32) : Prop :=
  addr ∈ w.far → master addr = some addr ∧ (∃ a, remote addr = some a ∧ w.SameByte addr a) ∧
    ∀ addr' ∈ w.far, addr' ≠ addr → master addr' ≠ master addr ∧ remote addr' ≠ remote addr

/-- An address in one of the memories but in none of the windows is refused. -/
def Closed (memories windows : List Range) (patova : UInt32 → Option UInt32) (addr : UInt32) : Prop :=
  (∃ r ∈ memories, addr ∈ r) → (∀ r ∈ windows, addr ∉ r) → patova addr = none

/-- The tightly coupled memories as cores other than their owners see them. Where an owner sees its memory
every other core has its own. -/
def tcmFromPeers : List Range :=
  [RPMSG_M33S_SYS_TCM_FROM_M70_VIEW, RPMSG_M33S_SYS_TCM_FROM_M71_VIEW, RPMSG_M70_DTCM_FROM_M71_VIEW,
    RPMSG_M70_DTCM_FROM_M33S_VIEW, RPMSG_M71_DTCM_FROM_M70_VIEW, RPMSG_M71_DTCM_FROM_M33S_VIEW]

/-- The windows of the M70's header. -/
def M70.windows : List Range :=
  [RPMSG_SHMEM_M33S_M70_DTCM.far, RPMSG_SHMEM_M71_M70_DTCM.far, RPMSG_SHMEM_M70_M71_DTCM.far,
    RPMSG_SHMEM_M70_M33S_SYS_TCM.far]

/-- The windows of the M33S's header. -/
def M33s.windows : List Range :=
  [RPMSG_SHMEM_M33S_M70_DTCM.far, RPMSG_SHMEM_M70_M33S_SYS_TCM.far, RPMSG_SHMEM_M71_M33S_SYS_TCM.far,
    RPMSG_SHMEM_M33S_M71_DTCM.far]

/-- Both pairs of the two cores translate the address faithfully, and both cores are closed to it. -/
structure Translates (addr : UInt32) : Prop where
  m33sM70 : Faithful RPMSG_SHMEM_M33S_M70_DTCM M33s.platformPatova M70.platformPatova addr
  m70M33s : Faithful RPMSG_SHMEM_M70_M33S_SYS_TCM M70.platformPatova M33s.platformPatova addr
  m70 : Closed tcmFromPeers M70.windows M70.platformPatova addr
  m33s : Closed tcmFromPeers M33s.windows M33s.platformPatova addr

/-! ## What each core does -/

section

variable {addr : UInt32}

/-- A range that ends before it begins holds nothing. -/
theorem M70.guard_empty (addr : UInt32) :
    ¬ (RPMSG_M71_DTCM_FROM_M70_VIEW.first ≤ addr ∧ addr ≤ RPMSG_M70_DTCM_FROM_M70_VIEW.last) :=
  fun h => absurd (UInt32.le_trans h.1 h.2) (by decide)

/-- Faithful where the master passes the window's addresses on and the remote subtracts the distance of its starts. -/
theorem Faithful.of_sub {w : Shared} {master remote : UInt32 → Option UInt32} {d : UInt32} (hd : d = w.far.first - w.near.first)
    (hm : ∀ a ∈ w.far, master a = some a) (hr : ∀ a ∈ w.far, remote a = some (a - d)) : Faithful w master remote addr := by
  intro ha
  refine ⟨hm addr ha, ⟨addr - d, hr addr ha, Shared.sameByte_sub ha hd⟩,
    fun addr' ha' hne => ⟨fun h => hne ?_, fun h => hne ?_⟩⟩
  · rwa [hm addr ha, hm addr' ha', Option.some.injEq] at h
  · rw [hr addr ha, hr addr' ha', Option.some.injEq] at h
    have hsame := Shared.sameByte_sub ha' hd
    rw [h] at hsame
    exact hsame.inj (Shared.sameByte_sub ha hd)

/-- The M70 in the window in its own memory. -/
theorem M70.patova_near (h : addr ∈ RPMSG_SHMEM_M33S_M70_DTCM.far) : M70.platformPatova addr =
    some (addr - (RPMSG_M70_DTCM_FROM_M33S_VIEW.first - RPMSG_M70_DTCM_FROM_M70_VIEW.first)) := by
  have hmem : addr ∈ RPMSG_M70_DTCM_FROM_M33S_VIEW := Range.mem_of_sub (by decide) (by decide) h
  rw [M70.platformPatova, if_neg (M70.guard_empty addr), if_pos hmem, if_pos h]

/-- The M70 in the window in the M33S's memory. -/
theorem M70.patova_far (h : addr ∈ RPMSG_SHMEM_M70_M33S_SYS_TCM.far) : M70.platformPatova addr = some addr := by
  have hmem : addr ∈ RPMSG_M33S_SYS_TCM_FROM_M70_VIEW := Range.mem_of_sub (by decide) (by decide) h
  have hnot : addr ∉ RPMSG_M70_DTCM_FROM_M33S_VIEW := Range.notMem_of_gt (by decide) hmem
  rw [M70.platformPatova, if_neg (M70.guard_empty addr), if_neg hnot, if_pos hmem, if_pos h]

theorem M33s.patova_far (h : addr ∈ RPMSG_SHMEM_M33S_M70_DTCM.far) : M33s.platformPatova addr = some addr := by
  have hmem : addr ∈ RPMSG_M70_DTCM_FROM_M33S_VIEW := Range.mem_of_sub (by decide) (by decide) h
  rw [M33s.platformPatova, if_pos hmem, if_pos h]

theorem M33s.patova_near (h : addr ∈ RPMSG_SHMEM_M70_M33S_SYS_TCM.far) : M33s.platformPatova addr =
    some (addr - (RPMSG_M33S_SYS_TCM_FROM_M70_VIEW.first - RPMSG_M33S_SYS_TCM_FROM_M33S_VIEW.first)) := by
  have hmem : addr ∈ RPMSG_M33S_SYS_TCM_FROM_M71_VIEW := Range.mem_of_sub (by decide) (by decide) h
  have h70 : addr ∉ RPMSG_M70_DTCM_FROM_M33S_VIEW := Range.notMem_of_gt (by decide) hmem
  have h71 : addr ∉ RPMSG_M71_DTCM_FROM_M33S_VIEW := Range.notMem_of_gt (by decide) hmem
  have hnot : addr ∉ RPMSG_SHMEM_M71_M33S_SYS_TCM.far := Range.notMem_of_lt (by decide) h
  rw [M33s.platformPatova, if_neg h70, if_neg h71, if_pos hmem, if_neg hnot, if_pos h]

/-- The other cores see each memory under one address. -/
theorem mem_tcmFromPeers (h : ∃ r ∈ tcmFromPeers, addr ∈ r) :
    addr ∈ RPMSG_M33S_SYS_TCM_FROM_M70_VIEW ∨ addr ∈ RPMSG_M70_DTCM_FROM_M33S_VIEW ∨
      addr ∈ RPMSG_M71_DTCM_FROM_M70_VIEW := by
  obtain ⟨r, hr, ha⟩ := h
  simp only [tcmFromPeers, List.mem_cons, List.not_mem_nil, or_false] at hr
  rcases hr with rfl | rfl | rfl | rfl | rfl | rfl
  · exact Or.inl ha
  · exact Or.inl ha
  · exact Or.inr (Or.inl ha)
  · exact Or.inr (Or.inl ha)
  · exact Or.inr (Or.inr ha)
  · exact Or.inr (Or.inr ha)

/-- The M33S refuses what lies outside its windows. -/
theorem M33s.closed (addr : UInt32) : Closed tcmFromPeers M33s.windows M33s.platformPatova addr := by
  intro hmem hout
  simp only [M33s.windows, List.forall_mem_cons] at hout
  obtain ⟨hm33sM70, hm70M33s, hm71M33s, hm33sM71, -⟩ := hout
  rcases mem_tcmFromPeers hmem with h | h | h
  · have h70 : addr ∉ RPMSG_M70_DTCM_FROM_M33S_VIEW := Range.notMem_of_gt (by decide) h
    have h71 : addr ∉ RPMSG_M71_DTCM_FROM_M33S_VIEW := Range.notMem_of_gt (by decide) h
    have h' : addr ∈ RPMSG_M33S_SYS_TCM_FROM_M71_VIEW := h
    rw [M33s.platformPatova, if_neg h70, if_neg h71, if_pos h', if_neg hm71M33s, if_neg hm70M33s]
  · rw [M33s.platformPatova, if_pos h, if_neg hm33sM70]
  · have h70 : addr ∉ RPMSG_M70_DTCM_FROM_M33S_VIEW := Range.notMem_of_lt (by decide) h
    have h' : addr ∈ RPMSG_M71_DTCM_FROM_M33S_VIEW := h
    rw [M33s.platformPatova, if_neg h70, if_pos h', if_neg hm33sM71]

/-- The M70 returns every address of the M71's memory. -/
theorem M70.patova_m71 (h : addr ∈ RPMSG_M71_DTCM_FROM_M70_VIEW) : M70.platformPatova addr = some addr := by
  have h70 : addr ∉ RPMSG_M70_DTCM_FROM_M33S_VIEW := Range.notMem_of_lt (by decide) h
  have hm33s : addr ∉ RPMSG_M33S_SYS_TCM_FROM_M70_VIEW := Range.notMem_of_lt (by decide) h
  rw [M70.platformPatova, if_neg (M70.guard_empty addr), if_neg h70, if_neg hm33s]

/-- The M70 refuses what lies outside its windows, but for the M71's memory. -/
theorem M70.closed_iff (addr : UInt32) : Closed tcmFromPeers M70.windows M70.platformPatova addr ↔
    ¬ (addr ∈ RPMSG_M71_DTCM_FROM_M70_VIEW ∧ addr ∉ RPMSG_SHMEM_M70_M71_DTCM.far) := by
  constructor
  · rintro hclosed ⟨hmem, hout⟩
    have hnone := hclosed ⟨RPMSG_M71_DTCM_FROM_M70_VIEW, by simp [tcmFromPeers], hmem⟩ (by
      simp only [M70.windows, List.forall_mem_cons]
      refine ⟨?_, ?_, hout, ?_, nofun⟩
      · exact Range.notMem_of_lt (by decide) hmem
      · exact Range.notMem_of_lt (by decide) hmem
      · exact Range.notMem_of_lt (by decide) hmem)
    rw [M70.patova_m71 hmem] at hnone
    cases hnone
  · intro hnot hmem hout
    simp only [M70.windows, List.forall_mem_cons] at hout
    obtain ⟨hm33sM70, hm71M70, hm70M71, hm70M33s, -⟩ := hout
    rcases mem_tcmFromPeers hmem with h | h | h
    · have h70 : addr ∉ RPMSG_M70_DTCM_FROM_M33S_VIEW := Range.notMem_of_gt (by decide) h
      rw [M70.platformPatova, if_neg (M70.guard_empty addr), if_neg h70, if_pos h, if_neg hm70M33s]
    · rw [M70.platformPatova, if_neg (M70.guard_empty addr), if_pos h, if_neg hm33sM70, if_neg hm71M70]
    · exact absurd ⟨h, hm70M71⟩ hnot

/-- Both cores treat an address as they should exactly when it is not one of the M71's memory outside the
window the M70 shares with it. -/
theorem patova_translates_iff (addr : UInt32) :
    Translates addr ↔ ¬ (addr ∈ RPMSG_M71_DTCM_FROM_M70_VIEW ∧ addr ∉ RPMSG_SHMEM_M70_M71_DTCM.far) := by
  constructor
  · exact fun h => (M70.closed_iff addr).1 h.m70
  · intro h
    refine ⟨?_, ?_, (M70.closed_iff addr).2 h, M33s.closed addr⟩
    · exact Faithful.of_sub (by decide) (fun _ => M33s.patova_far) fun _ => M70.patova_near
    · exact Faithful.of_sub (by decide) (fun _ => M70.patova_far) fun _ => M33s.patova_near

/-- The start of the M71's memory, which the M70 returns as it is. -/
theorem patova_m71_start : M70.platformPatova 0x20300000 = some 0x20300000 ∧ M33s.platformPatova 0x20300000 = none ∧
    ¬ Translates 0x20300000 := by
  refine ⟨by decide, by decide, fun h => ?_⟩
  have hnone := h.m70 ⟨RPMSG_M71_DTCM_FROM_M70_VIEW, by simp [tcmFromPeers], by decide⟩ (by decide)
  exact absurd hnone (by decide)

end

end Imx943

end RpmsgLite
