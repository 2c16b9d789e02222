/-
The ports that translate addresses, or are one of two cores that see their shared memory at different ones:
the three cores of the i.MX943 with their windows in tightly coupled memory, the i.MX RT500 and the i.MX 8ULP
with their DSPs, the MCXL20, and the five ports whose two CPUs talk through the IMU.
Within a port's window its translations name the same bytes, so its link goes through the runs of the link on
one address space.
-/
import RpmsgLite.Link.Checked
import RpmsgLite.Platform.Imx943

namespace RpmsgLite

open AddressMap

/-! ## The i.MX943 -/

namespace Imx943

/-- `platform_patova` on the M71; `none` is the failed assertion. -/
def M71.platformPatova (addr : UInt32) : Option UInt32 :=
  -- M71 as master, M70 as remote
  if addr ∈ RPMSG_M70_DTCM_FROM_M71_VIEW then
    if addr ∈ RPMSG_SHMEM_M71_M70_DTCM.far then some addr else none
  -- M70 as master, M71 as remote or M33S as master, M71 as remote
  else if addr ∈ RPMSG_M71_DTCM_FROM_M70_VIEW then
    if addr ∈ RPMSG_SHMEM_M70_M71_DTCM.far then
      some (addr - (RPMSG_M71_DTCM_FROM_M70_VIEW.first - RPMSG_M71_DTCM_FROM_M71_VIEW.first))
    else if addr ∈ RPMSG_SHMEM_M33S_M71_DTCM.far then
      some (addr - (RPMSG_M71_DTCM_FROM_M33S_VIEW.first - RPMSG_M71_DTCM_FROM_M71_VIEW.first))
    else none
  -- M71 as master, M33S as remote
  else if addr ∈ RPMSG_M33S_SYS_TCM_FROM_M71_VIEW then
    if addr ∈ RPMSG_SHMEM_M71_M33S_SYS_TCM.far then some addr else none
  else some addr

/-- The cores; `platform_vatopa` returns the address on all of them. -/
inductive Core | m33s | m70 | m71

def Core.platformPatova : Core → UInt32 → Option UInt32
  | .m33s => M33s.platformPatova
  | .m70 => M70.platformPatova
  | .m71 => M71.platformPatova

def Core.translation (core : Core) : Translation :=
  ⟨UInt32.ofNat, fun a => (core.platformPatova a).map UInt32.toNat⟩

/-- A core as master and another one as remote. -/
inductive Pair | m33sM70 | m33sM71 | m70M33s | m70M71 | m71M33s | m71M70

def Pair.master : Pair → Core
  | .m33sM70 | .m33sM71 => .m33s
  | .m70M33s | .m70M71 => .m70
  | .m71M33s | .m71M70 => .m71

def Pair.remote : Pair → Core
  | .m70M33s | .m71M33s => .m33s
  | .m33sM70 | .m71M70 => .m70
  | .m33sM71 | .m70M71 => .m71

/-- The shared memory of a pair, as the master and as the remote see it. -/
def Pair.window : Pair → Shared
  | .m33sM70 => RPMSG_SHMEM_M33S_M70_DTCM
  | .m33sM71 => RPMSG_SHMEM_M33S_M71_DTCM
  | .m70M33s => RPMSG_SHMEM_M70_M33S_SYS_TCM
  | .m70M71 => RPMSG_SHMEM_M70_M71_DTCM
  | .m71M33s => RPMSG_SHMEM_M71_M33S_SYS_TCM
  | .m71M70 => RPMSG_SHMEM_M71_M70_DTCM

variable {addr : UInt32}

/-! ### The M71 -/

theorem M71.patova_m70 (h : addr ∈ RPMSG_SHMEM_M71_M70_DTCM.far) : M71.platformPatova addr = some addr := by
  have hmem : addr ∈ RPMSG_M70_DTCM_FROM_M71_VIEW := Range.mem_of_sub (by decide) (by decide) h
  rw [M71.platformPatova, if_pos hmem, if_pos h]

theorem M71.patova_m33s (h : addr ∈ RPMSG_SHMEM_M71_M33S_SYS_TCM.far) : M71.platformPatova addr = some addr := by
  have hmem : addr ∈ RPMSG_M33S_SYS_TCM_FROM_M71_VIEW := Range.mem_of_sub (by decide) (by decide) h
  have h70 : addr ∉ RPMSG_M70_DTCM_FROM_M71_VIEW := Range.notMem_of_gt (by decide) hmem
  have h71 : addr ∉ RPMSG_M71_DTCM_FROM_M70_VIEW := Range.notMem_of_gt (by decide) hmem
  rw [M71.platformPatova, if_neg h70, if_neg h71, if_pos hmem, if_pos h]

/-- The M71 finds both windows in its own memory at one distance. -/
theorem M71.patova_near (h : addr ∈ RPMSG_SHMEM_M70_M71_DTCM.far ∨ addr ∈ RPMSG_SHMEM_M33S_M71_DTCM.far) :
    M71.platformPatova addr = some (addr - 0x300000) := by
  have hmem : addr ∈ RPMSG_M71_DTCM_FROM_M70_VIEW := by
    rcases h with h | h
    · exact Range.mem_of_sub (by decide) (by decide) h
    · exact Range.mem_of_sub (by decide) (by decide) h
  have h70 : addr ∉ RPMSG_M70_DTCM_FROM_M71_VIEW := Range.notMem_of_lt (by decide) hmem
  rw [M71.platformPatova, if_neg h70, if_pos hmem]
  by_cases hm70M71 : addr ∈ RPMSG_SHMEM_M70_M71_DTCM.far
  · rw [if_pos hm70M71]
    rfl
  · rw [if_neg hm70M71, if_pos (h.resolve_left hm70M71)]
    rfl

/-! ### The other two with the M71 -/

theorem M70.patova_m71Master (h : addr ∈ RPMSG_SHMEM_M71_M70_DTCM.far) :
    M70.platformPatova addr = some (addr - (RPMSG_M70_DTCM_FROM_M71_VIEW.first - RPMSG_M70_DTCM_FROM_M70_VIEW.first)) := by
  have hmem : addr ∈ RPMSG_M70_DTCM_FROM_M33S_VIEW := Range.mem_of_sub (by decide) (by decide) h
  have hnot : addr ∉ RPMSG_SHMEM_M33S_M70_DTCM.far := Range.notMem_of_lt (by decide) h
  rw [M70.platformPatova, if_neg (M70.guard_empty addr), if_pos hmem, if_neg hnot, if_pos h]

theorem M33s.patova_m71Remote (h : addr ∈ RPMSG_SHMEM_M33S_M71_DTCM.far) : M33s.platformPatova addr = some addr := by
  have hmem : addr ∈ RPMSG_M71_DTCM_FROM_M33S_VIEW := Range.mem_of_sub (by decide) (by decide) h
  have h70 : addr ∉ RPMSG_M70_DTCM_FROM_M33S_VIEW := Range.notMem_of_lt (by decide) hmem
  rw [M33s.platformPatova, if_neg h70, if_pos hmem, if_pos h]

theorem M33s.patova_m71Master (h : addr ∈ RPMSG_SHMEM_M71_M33S_SYS_TCM.far) : M33s.platformPatova addr =
    some (addr - (RPMSG_M33S_SYS_TCM_FROM_M71_VIEW.first - RPMSG_M33S_SYS_TCM_FROM_M33S_VIEW.first)) := by
  have hmem : addr ∈ RPMSG_M33S_SYS_TCM_FROM_M71_VIEW := Range.mem_of_sub (by decide) (by decide) h
  have h70 : addr ∉ RPMSG_M70_DTCM_FROM_M33S_VIEW := Range.notMem_of_gt (by decide) hmem
  have h71 : addr ∉ RPMSG_M71_DTCM_FROM_M33S_VIEW := Range.notMem_of_gt (by decide) hmem
  rw [M33s.platformPatova, if_neg h70, if_neg h71, if_pos hmem, if_pos h]

/-! ### The pairs -/

/-- The master passes the addresses of its window on. -/
theorem Pair.master_patova (pair : Pair) (h : addr ∈ pair.window.far) : pair.master.platformPatova addr = some addr := by
  cases pair with
  | m33sM70 => exact M33s.patova_far h
  | m33sM71 => exact M33s.patova_m71Remote h
  | m70M33s => exact M70.patova_far h
  | m70M71 => exact M70.patova_m71 (Range.mem_of_sub (by decide) (by decide) h)
  | m71M33s => exact M71.patova_m33s h
  | m71M70 => exact M71.patova_m70 h

/-- The remote subtracts the distance of its view. -/
theorem Pair.remote_patova (pair : Pair) (h : addr ∈ pair.window.far) :
    pair.remote.platformPatova addr = some (addr - (pair.window.far.first - pair.window.near.first)) := by
  cases pair with
  | m33sM70 => exact M70.patova_near h
  | m33sM71 => exact M71.patova_near (Or.inr h)
  | m70M33s => exact M33s.patova_near h
  | m70M71 => exact M71.patova_near (Or.inl h)
  | m71M33s => exact M33s.patova_m71Master h
  | m71M70 => exact M70.patova_m71Master h

end Imx943

/-! ## The DSPs, the Cortex-M0+ and CPU 2 -/

/-- `platform_vatopa` and `platform_patova` without assertions; `uintptr_t` has 32 bits on all of these cores. -/
def Translation.of (platformVatopa platformPatova : UInt32 → UInt32) : Translation :=
  ⟨fun a => platformVatopa (UInt32.ofNat a), fun a => some (platformPatova a).toNat⟩

/-- The dummy functions. -/
def Translation.same : Translation := .of id id

namespace Imxrt500

/-- On the Cortex-M33: its addresses to those of the DSP, and back. -/
def M33.platformVatopa (addr : UInt32) : UInt32 := (addr &&& 0x0FFFFFFF) + 0x800000
def M33.platformPatova (addr : UInt32) : UInt32 := (addr - 0x00800000) ||| 0x20000000

end Imxrt500

namespace Imx8ulp

/-- On the Fusion DSP. The distance of the first branch is written in decimal. -/
def Fusionf1.platformVatopa (addr : UInt32) : UInt32 :=
  if addr < 0x880000 then (addr ||| 0x20000000) - 800000
  else if addr < 0x8C0000 then addr - 0x800000 + 0x0FFC0000
  else addr

def Fusionf1.platformPatova (addr : UInt32) : UInt32 :=
  let addr := addr &&& 0xEFFFFFFF
  -- SSRAM P7
  if addr < 0x10000000 then addr - 0x0FFC0000 + 0x880000
  -- SSRAM P0-P6
  else if addr < 0x20080000 then (addr &&& 0x0FFFFFFF) + 0x800000
  else addr

end Imx8ulp

namespace Mcxl20

/-- On the Cortex-M0+. -/
def Cm0plus.platformVatopa (addr : UInt32) : UInt32 := addr &&& 0x00FFFFFF
def Cm0plus.platformPatova (addr : UInt32) : UInt32 := addr &&& 0x00FFFFFF

end Mcxl20

namespace Imu

/-- On CPU 2 of the kw45b41, the kw47b42, the k32w1, the mcxw71x and the mcxw72x: its addresses to those of CPU 1, and
back. -/
def Cpu2.platformVatopa (addr : UInt32) : UInt32 := (addr &&& 0x0000FFFF) + 0x489C0000
def Cpu2.platformPatova (addr : UInt32) : UInt32 := (addr &&& 0x0000FFFF) + 0xB0000000

end Imu

/-! ## The ports -/

/-- A port with its two cores, and which of them is the master where both can be; the i.MX 8ULP has two shared memories, and
the Cortex-M0+ of the MCXL20 drops the top byte of an address. -/
inductive TranslatingPort
  | imx943 (pair : Imx943.Pair)
  | imxrt500 (m33 : Role)
  | imx8ulpP0P6
  | imx8ulpP7
  | mcxl20 (top : UInt8)
  | imu (cpu1 : Role)

def TranslatingPort.core : TranslatingPort → Role → Translation
  | .imx943 pair, .master => pair.master.translation
  | .imx943 pair, .remote => pair.remote.translation
  | .imxrt500 m33, r => if r = m33 then .of Imxrt500.M33.platformVatopa Imxrt500.M33.platformPatova else .same
  | .imx8ulpP0P6, .master => .same
  | .imx8ulpP0P6, .remote => .of Imx8ulp.Fusionf1.platformVatopa Imx8ulp.Fusionf1.platformPatova
  | .imx8ulpP7, .master => .same
  | .imx8ulpP7, .remote => .of Imx8ulp.Fusionf1.platformVatopa Imx8ulp.Fusionf1.platformPatova
  | .mcxl20 _, .master => .same
  | .mcxl20 _, .remote => .of Mcxl20.Cm0plus.platformVatopa Mcxl20.Cm0plus.platformPatova
  | .imu cpu1, r => if r = cpu1 then .same else .of Imu.Cpu2.platformVatopa Imu.Cpu2.platformPatova

/-- The core that finds the shared memory below where the other one does. -/
def TranslatingPort.low : TranslatingPort → Role
  | .imx943 _ => .remote
  | .imxrt500 m33 => m33.peer
  | .imx8ulpP0P6 => .remote
  | .imx8ulpP7 => .remote
  | .mcxl20 _ => .remote
  | .imu cpu1 => cpu1

/-- How far below. -/
def TranslatingPort.distance : TranslatingPort → Nat
  | .imx943 pair => (pair.window.far.first - pair.window.near.first).toNat
  | .imxrt500 _ => 0x1F800000
  | .imx8ulpP0P6 => 0x1F800000
  | .imx8ulpP7 => 0x0F740000
  | .mcxl20 top => top.toNat * 0x1000000
  | .imu _ => 0x67640000

/-- Where the other core sees the shared memory, first and one behind the last. -/
def TranslatingPort.first : TranslatingPort → Nat
  | .imx943 pair => pair.window.far.first.toNat
  | .imxrt500 _ => 0x20000000
  | .imx8ulpP0P6 => 0x20000000
  | .imx8ulpP7 => 0x0FFC0000
  | .mcxl20 top => top.toNat * 0x1000000 + 1
  | .imu _ => 0xB0000000

def TranslatingPort.behind : TranslatingPort → Nat
  | .imx943 pair => pair.window.far.last.toNat + 1
  | .imxrt500 _ => 0x30000000
  | .imx8ulpP0P6 => 0x20080000
  | .imx8ulpP7 => 0x10000000
  | .mcxl20 top => top.toNat * 0x1000000 + 0x1000000
  | .imu _ => 0xB0010000

/-- How far below the other core's addresses the descriptors' are. -/
def TranslatingPort.described : TranslatingPort → Nat
  | .imx943 _ => 0
  | .imxrt500 _ => 0x1F800000
  | .imx8ulpP0P6 => 0
  | .imx8ulpP7 => 0
  | .mcxl20 _ => 0
  | .imu _ => 0x67640000

def TranslatingPort.mapping (port : TranslatingPort) : Mapping where
  port := port.core
  off r := if r = port.low then port.distance else 0

/-! ### The windows -/

theorem and_mask (a k m : Nat) : a &&& (2 ^ k * m + (2 ^ k - 1)) = 2 ^ k * (a / 2 ^ k &&& m) + a % 2 ^ k := by
  have hpos := Nat.two_pow_pos k
  have hdiv : (2 ^ k * m + (2 ^ k - 1)) / 2 ^ k = m := by
    rw [Nat.mul_add_div hpos, Nat.div_eq_of_lt (by omega), Nat.add_zero]
  have hmod : (2 ^ k * m + (2 ^ k - 1)) % 2 ^ k = 2 ^ k - 1 := by
    rw [Nat.mul_add_mod, Nat.mod_eq_of_lt (by omega)]
  have h := Nat.div_add_mod (a &&& (2 ^ k * m + (2 ^ k - 1))) (2 ^ k)
  rw [Nat.and_div_two_pow, Nat.and_mod_two_pow, hdiv, hmod, Nat.and_two_pow_sub_one_eq_mod, Nat.mod_mod] at h
  exact h.symm

section

variable {a : Nat}

/-- The Cortex-M33 of the i.MX RT500 writes the DSP's addresses. -/
theorem Imxrt500.vatopa_toNat (h1 : 0x20000000 ≤ a) (h2 : a < 0x30000000) :
    (M33.platformVatopa (UInt32.ofNat a)).toNat = a - 0x1F800000 := by
  have hlow : (UInt32.ofNat a &&& 0x0FFFFFFF).toNat = a - 0x20000000 := by
    rw [UInt32.toNat_and, UInt32.toNat_ofNat_of_lt' (by simp only [UInt32.size]; omega)]
    show a &&& (2 ^ 28 - 1) = _
    rw [Nat.and_two_pow_sub_one_eq_mod]
    omega
  unfold M33.platformVatopa
  rw [UInt32.toNat_add, hlow]
  show (a - 0x20000000 + 0x800000) % 2 ^ 32 = _
  omega

/-- And finds its own address again. -/
theorem Imxrt500.patova_toNat {v : UInt32} (h1 : 0x800000 ≤ v.toNat) (h2 : v.toNat < 0x10800000) :
    (M33.platformPatova v).toNat = v.toNat + 0x1F800000 := by
  have hsub : (v - 0x00800000).toNat = v.toNat - 0x800000 := UInt32.toNat_sub_of_le _ _ (UInt32.le_iff_toNat_le.2 h1)
  unfold M33.platformPatova
  rw [UInt32.toNat_or, hsub]
  show _ ||| 2 ^ 29 = _
  rw [Nat.or_two_pow_eq_add_of_lt (by omega)]
  omega

theorem Imx8ulp.mask_toNat (h : a < 2 ^ 32) :
    (UInt32.ofNat a &&& 0xEFFFFFFF).toNat = 2 ^ 28 * (a / 2 ^ 28 &&& 14) + a % 2 ^ 28 := by
  rw [UInt32.toNat_and, UInt32.toNat_ofNat_of_lt' h]
  exact and_mask a 28 14

/-- The DSP of the i.MX 8ULP in the first six RAMs. -/
theorem Imx8ulp.patova_p0p6 (h1 : 0x20000000 ≤ a) (h2 : a < 0x20080000) :
    (Fusionf1.platformPatova (UInt32.ofNat a)).toNat = a - 0x1F800000 := by
  have hmask : (UInt32.ofNat a &&& 0xEFFFFFFF).toNat = a := by
    rw [Imx8ulp.mask_toNat (by omega), show a / 2 ^ 28 = 2 by omega]
    show 2 ^ 28 * 2 + _ = _
    omega
  unfold Fusionf1.platformPatova
  generalize UInt32.ofNat a &&& 0xEFFFFFFF = v at hmask
  have hlow : (v &&& 0x0FFFFFFF).toNat = a - 0x20000000 := by
    rw [UInt32.toNat_and, hmask]
    show a &&& (2 ^ 28 - 1) = _
    rw [Nat.and_two_pow_sub_one_eq_mod]
    omega
  simp only
  rw [if_neg (by rw [UInt32.lt_iff_toNat_lt, hmask]; exact Nat.not_lt.2 (le_trans (by decide) h1)),
    if_pos (by rw [UInt32.lt_iff_toNat_lt, hmask]; exact h2), UInt32.toNat_add, hlow]
  show (a - 0x20000000 + 0x800000) % 2 ^ 32 = _
  omega

/-- And in the last one. -/
theorem Imx8ulp.patova_p7 (h1 : 0x0FFC0000 ≤ a) (h2 : a < 0x10000000) :
    (Fusionf1.platformPatova (UInt32.ofNat a)).toNat = a - 0x0F740000 := by
  have hmask : (UInt32.ofNat a &&& 0xEFFFFFFF).toNat = a := by
    rw [Imx8ulp.mask_toNat (by omega), show a / 2 ^ 28 = 0 by omega]
    show 2 ^ 28 * 0 + _ = _
    omega
  unfold Fusionf1.platformPatova
  generalize UInt32.ofNat a &&& 0xEFFFFFFF = v at hmask
  have hsub : (v - 0x0FFC0000).toNat = a - 0x0FFC0000 := by
    rw [← hmask]
    exact UInt32.toNat_sub_of_le _ _ (UInt32.le_iff_toNat_le.2 (by rw [hmask]; exact h1))
  simp only
  rw [if_pos (by rw [UInt32.lt_iff_toNat_lt, hmask]; exact h2), UInt32.toNat_add, hsub]
  show (a - 0x0FFC0000 + 0x880000) % 2 ^ 32 = _
  omega

theorem Mcxl20.patova_toNat (h : a < 2 ^ 32) : (Cm0plus.platformPatova (UInt32.ofNat a)).toNat = a % 2 ^ 24 := by
  unfold Cm0plus.platformPatova
  rw [UInt32.toNat_and, UInt32.toNat_ofNat_of_lt' h]
  exact Nat.and_two_pow_sub_one_eq_mod a 24

theorem Imu.low_toNat (v : UInt32) : (v &&& 0x0000FFFF).toNat = v.toNat % 2 ^ 16 := by
  rw [UInt32.toNat_and]
  exact Nat.and_two_pow_sub_one_eq_mod _ 16

/-- CPU 2 writes the addresses of CPU 1. -/
theorem Imu.vatopa_toNat (h1 : 0xB0000000 ≤ a) (h2 : a < 0xB0010000) :
    (Cpu2.platformVatopa (UInt32.ofNat a)).toNat = a - 0x67640000 := by
  unfold Cpu2.platformVatopa
  rw [UInt32.toNat_add, Imu.low_toNat, UInt32.toNat_ofNat_of_lt' (by simp only [UInt32.size]; omega)]
  show (a % 2 ^ 16 + 0x489C0000) % 2 ^ 32 = _
  omega

/-- And finds its own address again. -/
theorem Imu.patova_toNat {v : UInt32} (h1 : 0x489C0000 ≤ v.toNat) (h2 : v.toNat < 0x489D0000) :
    (Cpu2.platformPatova v).toNat = v.toNat + 0x67640000 := by
  unfold Cpu2.platformPatova
  rw [UInt32.toNat_add, Imu.low_toNat]
  show (v.toNat % 2 ^ 16 + 0xB0000000) % 2 ^ 32 = _
  omega

end

theorem TranslatingPort.behind_le (port : TranslatingPort) : port.behind ≤ 2 ^ 32 := by
  cases port with
  | imx943 pair => exact pair.window.far.last.toNat_lt
  | imxrt500 m33 => cases m33 <;> decide
  | imx8ulpP0P6 => decide
  | imx8ulpP7 => decide
  | mcxl20 top =>
    have htop := top.toNat_lt
    show top.toNat * 0x1000000 + 0x1000000 ≤ 2 ^ 32
    omega
  | imu cpu1 => cases cpu1 <;> decide

theorem TranslatingPort.align_dvd_distance (port : TranslatingPort) : RL_MAX_VRING_ALIGN ∣ port.distance := by
  cases port with
  | imx943 pair => cases pair <;> decide
  | imxrt500 m33 => cases m33 <;> decide
  | imx8ulpP0P6 => decide
  | imx8ulpP7 => decide
  | mcxl20 top => exact (show RL_MAX_VRING_ALIGN ∣ 0x1000000 by decide).mul_left _
  | imu cpu1 => cases cpu1 <;> decide

theorem TranslatingPort.distance_lt (port : TranslatingPort) : port.distance < port.first := by
  cases port with
  | imx943 pair => cases pair <;> decide
  | imxrt500 m33 => cases m33 <;> decide
  | imx8ulpP0P6 => decide
  | imx8ulpP7 => decide
  | mcxl20 top => exact Nat.lt_succ_self _
  | imu cpu1 => cases cpu1 <;> decide

/-- A window is no longer than the distance of the views, where there is one. -/
theorem TranslatingPort.behind_le_first (port : TranslatingPort) :
    port.distance = 0 ∨ port.behind ≤ port.first + port.distance := by
  cases port with
  | imx943 pair => cases pair <;> decide
  | imxrt500 m33 => cases m33 <;> exact Or.inr (by decide)
  | imx8ulpP0P6 => exact Or.inr (by decide)
  | imx8ulpP7 => exact Or.inr (by decide)
  | mcxl20 top =>
    show top.toNat * 0x1000000 = 0 ∨
      top.toNat * 0x1000000 + 0x1000000 ≤ top.toNat * 0x1000000 + 1 + top.toNat * 0x1000000
    omega
  | imu cpu1 => cases cpu1 <;> exact Or.inr (by decide)

/-- The descriptors hold the addresses that one of the cores sees. -/
theorem TranslatingPort.described_eq (port : TranslatingPort) : port.described = 0 ∨ port.described = port.distance := by
  cases port with
  | imx943 => exact Or.inl rfl
  | imxrt500 => exact Or.inr rfl
  | imx8ulpP0P6 => exact Or.inl rfl
  | imx8ulpP7 => exact Or.inl rfl
  | mcxl20 => exact Or.inl rfl
  | imu => exact Or.inr rfl

theorem TranslatingPort.off_eq (port : TranslatingPort) (r : Role) :
    port.mapping.off r = 0 ∨ port.mapping.off r = port.distance := by
  show (if r = port.low then port.distance else 0) = 0 ∨ (if r = port.low then port.distance else 0) = port.distance
  split
  · exact Or.inr rfl
  · exact Or.inl rfl

/-- The distance of the views, on an address of the far one. -/
theorem Imx943.Pair.sub_toNat (pair : Pair) {a : Nat} (h1 : pair.window.far.first.toNat ≤ a) (h2 : a < 2 ^ 32) :
    (UInt32.ofNat a - (pair.window.far.first - pair.window.near.first)).toNat =
      a - (pair.window.far.first - pair.window.near.first).toNat := by
  have hle : (pair.window.far.first - pair.window.near.first).toNat ≤ pair.window.far.first.toNat := by cases pair <;> decide
  rw [UInt32.toNat_sub_of_le _ _ (UInt32.le_iff_toNat_le.2 (by rw [UInt32.toNat_ofNat_of_lt' h2]; omega)),
    UInt32.toNat_ofNat_of_lt' h2]

/-- A port's translations name the same bytes if each core finds its own address of what the master describes. -/
theorem TranslatingPort.window_of {port : TranslatingPort}
    (hlow : ∀ a, port.first ≤ a → a < port.behind →
      (port.core port.low).platformPatova (port.mapping.described a) = some (a - port.distance))
    (hpeer : ∀ a, port.first ≤ a → a < port.behind →
      (port.core port.low.peer).platformPatova (port.mapping.described a) = some a) :
    port.mapping.Window port.first port.behind := by
  refine ⟨fun r => ?_, fun r a h1 h2 => ?_⟩
  · have hlt := port.distance_lt
    have hoff := port.off_eq r
    omega
  · rcases port.low.eq_or_peer r with rfl | rfl
    · rw [show port.mapping.off port.low = port.distance from if_pos rfl]
      exact hlow a h1 h2
    · rw [show port.mapping.off port.low.peer = 0 from if_neg (Role.peer_ne _)]
      exact hpeer a h1 h2

theorem Imx943.window (pair : Pair) : (TranslatingPort.imx943 pair).mapping.Window (TranslatingPort.imx943 pair).first
    (TranslatingPort.imx943 pair).behind := by
  have hin : ∀ a, pair.window.far.first.toNat ≤ a → a < pair.window.far.last.toNat + 1 →
      a < 2 ^ 32 ∧ UInt32.ofNat a ∈ pair.window.far := fun a h1 h2 => by
    have hlast := pair.window.far.last.toNat_lt
    have hlt : a < 2 ^ 32 := by omega
    have ha : (UInt32.ofNat a).toNat = a := UInt32.toNat_ofNat_of_lt' hlt
    exact ⟨hlt, UInt32.le_iff_toNat_le.2 (by omega), UInt32.le_iff_toNat_le.2 (by omega)⟩
  refine TranslatingPort.window_of (fun a h1 h2 => ?_) fun a h1 h2 => ?_
  · obtain ⟨hlt, hmem⟩ := hin a h1 h2
    show (pair.remote.platformPatova (UInt32.ofNat a)).map UInt32.toNat = _
    rw [pair.remote_patova hmem, Option.map_some, pair.sub_toNat h1 hlt]
    rfl
  · obtain ⟨hlt, hmem⟩ := hin a h1 h2
    show (pair.master.platformPatova (UInt32.ofNat a)).map UInt32.toNat = _
    rw [pair.master_patova hmem, Option.map_some, UInt32.toNat_ofNat_of_lt' hlt]

/-- What the master of a port writes into a descriptor. -/
theorem TranslatingPort.described_toNat (port : TranslatingPort) {a : Nat} (h1 : port.first ≤ a) (h2 : a < port.behind) :
    (port.mapping.described a).toNat = a - port.described := by
  have hbehind := port.behind_le
  have hsame : ∀ b ≤ a, (UInt32.ofNat b).toNat = b := fun b hb => UInt32.toNat_ofNat_of_lt' (by simp only [UInt32.size]; omega)
  cases port with
  | imx943 => exact hsame a (le_refl a)
  | imxrt500 m33 =>
    cases m33 with
    | master => exact Imxrt500.vatopa_toNat h1 h2
    | remote => exact hsame _ (Nat.sub_le _ _)
  | imx8ulpP0P6 => exact hsame a (le_refl a)
  | imx8ulpP7 => exact hsame a (le_refl a)
  | mcxl20 => exact hsame a (le_refl a)
  | imu cpu1 =>
    cases cpu1 with
    | master => exact hsame _ (Nat.sub_le _ _)
    | remote => exact Imu.vatopa_toNat h1 h2

/-- The DSP of the i.MX RT500 finds its own address in a descriptor, the Cortex-M33 translates it. -/
theorem Imxrt500.window (m33 : Role) : (TranslatingPort.imxrt500 m33).mapping.Window (TranslatingPort.imxrt500 m33).first
    (TranslatingPort.imxrt500 m33).behind := by
  refine TranslatingPort.window_of (fun a h1 h2 => ?_) fun a h1 h2 => ?_
  · show (if m33.peer = m33 then Translation.of _ _ else Translation.same).platformPatova _ = _
    rw [if_neg (Role.peer_ne _)]
    exact congrArg some (TranslatingPort.described_toNat _ h1 h2)
  · show (if m33.peer.peer = m33 then Translation.of _ _ else Translation.same).platformPatova _ = _
    rw [if_pos (Role.peer_peer _)]
    have hv := TranslatingPort.described_toNat _ h1 h2
    have h1 : 0x20000000 ≤ a := h1
    have h2 : a < 0x30000000 := h2
    have hv : ((TranslatingPort.imxrt500 m33).mapping.described a).toNat = a - 0x1F800000 := hv
    have hown := Imxrt500.patova_toNat (v := (TranslatingPort.imxrt500 m33).mapping.described a) (by omega) (by omega)
    refine congrArg some (hown.trans ?_)
    omega

/-- CPU 1 finds its own address in a descriptor, CPU 2 translates it. -/
theorem Imu.window (cpu1 : Role) : (TranslatingPort.imu cpu1).mapping.Window (TranslatingPort.imu cpu1).first
    (TranslatingPort.imu cpu1).behind := by
  refine TranslatingPort.window_of (fun a h1 h2 => ?_) fun a h1 h2 => ?_
  · show (if cpu1 = cpu1 then Translation.same else Translation.of _ _).platformPatova _ = _
    rw [if_pos rfl]
    exact congrArg some (TranslatingPort.described_toNat _ h1 h2)
  · show (if cpu1.peer = cpu1 then Translation.same else Translation.of _ _).platformPatova _ = _
    rw [if_neg (Role.peer_ne _)]
    have hv := TranslatingPort.described_toNat _ h1 h2
    have h1 : 0xB0000000 ≤ a := h1
    have h2 : a < 0xB0010000 := h2
    have hv : ((TranslatingPort.imu cpu1).mapping.described a).toNat = a - 0x67640000 := hv
    have hown := Imu.patova_toNat (v := (TranslatingPort.imu cpu1).mapping.described a) (by omega) (by omega)
    refine congrArg some (hown.trans ?_)
    omega

/-- Within its window every port names the same bytes on both cores. -/
theorem TranslatingPort.window (port : TranslatingPort) : port.mapping.Window port.first port.behind := by
  cases port with
  | imx943 pair => exact Imx943.window pair
  | imxrt500 m33 => exact Imxrt500.window m33
  | imx8ulpP0P6 =>
    exact window_of (fun a h1 h2 => congrArg some (Imx8ulp.patova_p0p6 h1 h2))
      fun a h1 h2 => congrArg some (TranslatingPort.imx8ulpP0P6.described_toNat h1 h2)
  | imx8ulpP7 =>
    exact window_of (fun a h1 h2 => congrArg some (Imx8ulp.patova_p7 h1 h2))
      fun a h1 h2 => congrArg some (TranslatingPort.imx8ulpP7.described_toNat h1 h2)
  | mcxl20 top =>
    refine window_of (fun a h1 h2 => ?_) fun a h1 h2 => congrArg some ((TranslatingPort.mcxl20 top).described_toNat h1 h2)
    have hlt := h2.trans_le (TranslatingPort.mcxl20 top).behind_le
    refine congrArg some ((Mcxl20.patova_toNat hlt).trans ?_)
    have h1 : top.toNat * 0x1000000 + 1 ≤ a := h1
    have h2 : a < top.toNat * 0x1000000 + 0x1000000 := h2
    show _ = a - top.toNat * 0x1000000
    omega
  | imu cpu1 => exact Imu.window cpu1

/-! ## The link -/

section

variable {env envR : InitEnv} {highestM highestR linkId : UInt32} {cfg : ShmemConfig} {addr : Role → Nat} {base length : Nat}
  {p : ShmemParams} {m v : ByteMem} {dm dr : RpmsgLiteInstance} {c : LinkConfig} {t : Link} {port : TranslatingPort}

theorem TranslatingPort.align_dvd_off (port : TranslatingPort) (r : Role) : RL_MAX_VRING_ALIGN ∣ port.mapping.off r := by
  rcases port.off_eq r with h | h
  · rw [h]
    exact Nat.dvd_zero _
  · rw [h]
    exact port.align_dvd_distance

/-- In the window of the port both cores find the buffers. -/
theorem port_within (hm : (port.core .master).rpmsgLiteMasterInit 32 env highestM cfg (addr .master) length linkId
      (m.lower (port.mapping.off .master)) = .instance dm v)
    (haddr : ∀ r, addr r + port.mapping.off r = base) (hlo : port.first ≤ base) (hhi : base + length ≤ port.behind)
    (hp : masterParams 32 cfg = some p) (hl : LayoutOk 32 p base) {q : Role} {d : UInt16} (hd : d ∈ (hl.pools.pool q).ids) :
    port.first ≤ (hl.pools.pool q).buffer d ∧ (hl.pools.pool q).buffer d < port.behind := by
  obtain ⟨pm, count, v1, hc, -⟩ := Translation.masterInit_run hm
  obtain rfl : pm = p := Option.some.inj (hc.params.symm.trans hp)
  have hne : base ≠ 0 := by
    have hlow := hc.addr_ne
    have hbase := haddr .master
    omega
  obtain ⟨h1, h2⟩ := hl.buffer_within (le_refl 32) (hhi.trans port.behind_le) hne hc.calc_eq (Nat.le_of_not_lt hc.enough) hd
  exact ⟨hlo.trans h1, h2.trans_le hhi⟩

/-- On each of the ports, with the shared memory anywhere in its window, the link goes through the runs of the link on one
address space. -/
theorem port_link_refines (haddr : ∀ r, addr r + port.mapping.off r = base)
    (hm : (port.core .master).rpmsgLiteMasterInit 32 env highestM cfg (addr .master) length linkId
      (m.lower (port.mapping.off .master)) = .instance dm v)
    (hr : rpmsgLiteRemoteInit 32 envR highestR cfg (addr .remote) linkId = some dr) (hlo : port.first ≤ base)
    (hhi : base + length ≤ port.behind) (hp : masterParams 32 cfg = some p) (hp' : remoteParams 32 cfg = some p)
    (hok : LinkReady 32 cfg base p m) (hc : c.payloadSize = cfg.payloadSize)
    (h : Link.ReachableOn port.mapping c (port.mapping.start m v dm dr) t) :
    ∃ m' s, rpmsgLiteMasterInit 32 env highestM cfg base length linkId m = .instance (dm.lift (port.mapping.off .master)) m' ∧
      rpmsgLiteRemoteInit 32 envR highestR cfg base linkId = some (dr.lift (port.mapping.off .remote)) ∧
      Link.Reachable c (port.mapping.plainStart m' dm dr) s ∧ port.mapping.Refines hok.layout.pools c t s := by
  have hlen := hhi.trans port.behind_le
  have hf := port.window.fits fun q d => port_within hm haddr hlo hhi hp hok.layout
  obtain ⟨m', hplain, hremote, hrel, -⟩ :=
    Mapping.Rel.of_init (M := port.mapping) (le_refl 32) haddr hm hr hlen port.align_dvd_off hp hp' hok.layout
  obtain ⟨P₀, h₀⟩ := linkInv_start hplain hremote hlen hp hok
  have hpay := hok.pool_payload hc
  obtain ⟨s, P, hreach, hinv, hrel'⟩ := hrel.reachable h₀ hpay hf h
  exact ⟨m', s, hplain, hremote, hreach, hrel'.refines hinv hpay hf⟩

end

/-- CPU 2 as remote of CPU 1, which finds the memory below. -/
def TranslatingPort.cpu2Remote : TranslatingPort := .imu .master

def cpu2RemoteAddr : Role → Nat
  | .master => 0x489C1020
  | .remote => 0xB0001020

theorem linkReady_cpu2Remote : LinkReady 32 (.build (headerTwo 64 align_64_le headerVringSize_two_lt)) 0xB0001020
    ((headerTwo 64 align_64_le headerVringSize_two_lt).params 32) (fun _ => 0) :=
  header_linkReady (k := 6) rfl rfl (by decide) (by decide) fun _ _ _ _ _ => Or.inr rfl

/-- Three bytes from CPU 1 to CPU 2. -/
theorem port_link_refines_cpu2Remote : ∃ dm v dr t s,
    (TranslatingPort.cpu2Remote.core .master).rpmsgLiteMasterInit 32 InitEnv.ok 0
      (.build (headerTwo 64 align_64_le headerVringSize_two_lt)) 0x489C1020 0x1800 0 (fun _ => 0) = .instance dm v ∧
    rpmsgLiteRemoteInit 32 InitEnv.ok 0 (.build (headerTwo 64 align_64_le headerVringSize_two_lt)) 0xB0001020 0 = some dr ∧
    (TranslatingPort.cpu2Remote.mapping.start (fun _ => 0) v dm dr).runOn TranslatingPort.cpu2Remote.mapping ⟨false, 16, 16⟩
      sendThree = some t ∧
    (t.side .remote).rx.recv = [⟨7, 9, 3, [1, 2, 3]⟩] ∧
    TranslatingPort.cpu2Remote.mapping.Refines linkReady_cpu2Remote.layout.pools ⟨false, 16, 16⟩ t s := by
  have hcheck : (rpmsgLiteRemoteInit 32 InitEnv.ok 0 (.build (headerTwo 64 align_64_le headerVringSize_two_lt)) 0xB0001020 0).any
      (fun dr => ((TranslatingPort.cpu2Remote.core .master).rpmsgLiteMasterInit 32 InitEnv.ok 0
        (.build (headerTwo 64 align_64_le headerVringSize_two_lt)) 0x489C1020 0x1800 0 (fun _ => 0)).check fun dm v =>
          ((TranslatingPort.cpu2Remote.mapping.start (fun _ => 0) v dm dr).runOn TranslatingPort.cpu2Remote.mapping
            ⟨false, 16, 16⟩ sendThree).any fun t => (t.side .remote).rx.recv == [⟨7, 9, 3, [1, 2, 3]⟩]) = true := by
    decide +kernel
  obtain ⟨dr, hr, hcheck⟩ := (Option.any_eq_true _ _).1 hcheck
  obtain ⟨dm, v, hm, hcheck⟩ := InitResult.of_check hcheck
  obtain ⟨t, hrun, hrecv⟩ := (Option.any_eq_true _ _).1 hcheck
  have haddr : ∀ r, cpu2RemoteAddr r + TranslatingPort.cpu2Remote.mapping.off r = 0xB0001020 := fun r => by cases r <;> rfl
  obtain ⟨m', s, -, -, -, href⟩ := port_link_refines haddr hm hr (by decide) (by decide) rfl rfl linkReady_cpu2Remote rfl
    (Link.reachableOn_of_run .start hrun)
  exact ⟨dm, v, dr, t, s, hm, hr, hrun, eq_of_beq hrecv, href⟩

/-! ## The check of the buffers -/

/-- On each of the ports the descriptors hold the addresses that one of the cores sees. -/
theorem TranslatingPort.describes (port : TranslatingPort) : port.mapping.Describes port.first port.behind port.described := by
  have hx := port.described_eq
  have hlt := port.distance_lt
  refine ⟨fun a h1 h2 => ?_, fun r hr a b ha1 ha2 hb1 hb2 => ?_⟩
  · rw [port.described_toNat h1 h2]
    omega
  · have hlen := port.behind_le_first
    have hoff := port.off_eq r
    omega

section

variable {env envR : InitEnv} {highestM highestR linkId : UInt32} {cfg : ShmemConfig} {addr : Role → Nat} {base length : Nat}
  {p : ShmemParams} {m v : ByteMem} {dm dr : RpmsgLiteInstance} {c : LinkConfig} {t : Link} {port : TranslatingPort}

/-- With the check, a core that sees the memory elsewhere than the descriptors say stops in its first zero-copy send and in its
first release; up to there, and on the other core, the check changes nothing. -/
theorem port_checked_link (haddr : ∀ r, addr r + port.mapping.off r = base)
    (hm : (port.core .master).rpmsgLiteMasterInit 32 env highestM cfg (addr .master) length linkId
      (m.lower (port.mapping.off .master)) = .instance dm v)
    (hr : rpmsgLiteRemoteInit 32 envR highestR cfg (addr .remote) linkId = some dr) (hlo : port.first ≤ base)
    (hhi : base + length ≤ port.behind) (hp : masterParams 32 cfg = some p) (hp' : remoteParams 32 cfg = some p)
    (hok : LinkReady 32 cfg base p m) (hc : c.payloadSize = cfg.payloadSize)
    (h : Link.ReachableChecked port.mapping c (port.mapping.start m v dm dr) t) (hrun : ∀ r, (t.side r).halted = false) :
    Link.ReachableOn port.mapping c (port.mapping.start m v dm dr) t ∧
      ∀ r a, t.checkedOn port.mapping c r a =
        if port.mapping.off r ≠ port.described ∧ ((t.side r).checks c a).isSome then some (t.stop r)
        else t.stepOn port.mapping c r a := by
  have hlen := hhi.trans port.behind_le
  have hwithin : ∀ q, ∀ d ∈ (hok.layout.pools.pool q).ids, _ := fun q d => port_within hm haddr hlo hhi hp hok.layout
  obtain ⟨m', hplain, hremote, hrel, hw₀⟩ :=
    Mapping.Rel.of_init (M := port.mapping) (le_refl 32) haddr hm hr hlen port.align_dvd_off hp hp' hok.layout
  obtain ⟨P₀, h₀⟩ := linkInv_start hplain hremote hlen hp hok
  obtain ⟨s, P, hreach, hinv, hrel', hw⟩ := port.describes.reachable hwithin hrel h₀ hw₀ (hok.pool_payload hc)
    (port.window.fits hwithin) h hrun
  exact ⟨hreach, fun r a => port.describes.checked_step hwithin hrel' hinv hw r a⟩

end

/-- The message of `sendThree`, held by the remote. -/
def sendThreeHeld : List (Role × Act) := sendThree ++ [(.remote, .rx (.done true))]

/-- The i.MX943, with the M33S as master and the M70 as remote. -/
def TranslatingPort.m33sM70 : TranslatingPort := .imx943 .m33sM70

def m33sM70Addr : Role → Nat
  | .master => 0x2003A800 + TranslatingPort.m33sM70.distance
  | .remote => 0x2003A800

theorem linkReady_m33sM70 : LinkReady 32 (.build (headerTwo 64 align_64_le headerVringSize_two_lt))
    (0x2003A800 + TranslatingPort.m33sM70.distance) ((headerTwo 64 align_64_le headerVringSize_two_lt).params 32) (fun _ => 0) :=
  header_linkReady (k := 6) rfl rfl (by decide) (by decide) fun _ _ _ _ _ => Or.inr rfl

/-- The M70's release of it stops the M70. -/
theorem port_checked_link_m33sM70 : ∃ dm v dr t,
    (TranslatingPort.m33sM70.core .master).rpmsgLiteMasterInit 32 InitEnv.ok 0
      (.build (headerTwo 64 align_64_le headerVringSize_two_lt)) (0x2003A800 + TranslatingPort.m33sM70.distance) 0x1800 0
        (fun _ => 0) = .instance dm v ∧
    rpmsgLiteRemoteInit 32 InitEnv.ok 0 (.build (headerTwo 64 align_64_le headerVringSize_two_lt)) 0x2003A800 0 = some dr ∧
    (TranslatingPort.m33sM70.mapping.start (fun _ => 0) v dm dr).runChecked TranslatingPort.m33sM70.mapping ⟨false, 16, 16⟩
      sendThreeHeld = some t ∧
    t.checkedOn TranslatingPort.m33sM70.mapping ⟨false, 16, 16⟩ .remote (.rx (.releaseRxBuffer 0)) =
      some (t.stop .remote) := by
  have hcheck : (rpmsgLiteRemoteInit 32 InitEnv.ok 0 (.build (headerTwo 64 align_64_le headerVringSize_two_lt)) 0x2003A800 0).any
      (fun dr => ((TranslatingPort.m33sM70.core .master).rpmsgLiteMasterInit 32 InitEnv.ok 0
        (.build (headerTwo 64 align_64_le headerVringSize_two_lt)) (0x2003A800 + TranslatingPort.m33sM70.distance) 0x1800 0
          (fun _ => 0)).check fun dm v =>
            ((TranslatingPort.m33sM70.mapping.start (fun _ => 0) v dm dr).runChecked TranslatingPort.m33sM70.mapping
              ⟨false, 16, 16⟩ sendThreeHeld).any fun t => !(t.side .master).halted && !(t.side .remote).halted &&
                ((t.side .remote).checks ⟨false, 16, 16⟩ (.rx (.releaseRxBuffer 0))).isSome) = true := by
    decide +kernel
  obtain ⟨dr, hr, hcheck⟩ := (Option.any_eq_true _ _).1 hcheck
  obtain ⟨dm, v, hm, hcheck⟩ := InitResult.of_check hcheck
  obtain ⟨t, hrun, hcheck⟩ := (Option.any_eq_true _ _).1 hcheck
  obtain ⟨hup, hsome⟩ := Bool.and_eq_true_iff.1 hcheck
  obtain ⟨hmaster, hremote⟩ := Bool.and_eq_true_iff.1 hup
  have hhalt : ∀ r, (t.side r).halted = false := by
    intro r
    cases r with
    | master => exact (Bool.not_eq_true' _).mp hmaster
    | remote => exact (Bool.not_eq_true' _).mp hremote
  have haddr : ∀ r, m33sM70Addr r + TranslatingPort.m33sM70.mapping.off r = 0x2003A800 + TranslatingPort.m33sM70.distance :=
    fun r => by cases r <;> rfl
  obtain ⟨-, hstep⟩ := port_checked_link haddr hm hr (by decide) (by decide) rfl rfl linkReady_m33sM70 rfl
    (Link.reachableChecked_of_run .start hrun) hhalt
  refine ⟨dm, v, dr, t, hm, hr, hrun, ?_⟩
  rw [hstep, if_pos ⟨by decide, hsome⟩]

/-! ## The DSP's own addresses -/

namespace Imx8ulp

/-- The masked address: bit 28 is cleared. -/
theorem masked_toNat (a : UInt32) : (a &&& 0xEFFFFFFF).toNat = 2 ^ 29 * (a.toNat / 2 ^ 29) + a.toNat % 2 ^ 28 := by
  have hlt := a.toNat_lt
  have heven : ∀ q < 16, q &&& 14 = 2 * (q / 2) := by decide
  have hmask := mask_toNat hlt
  rw [UInt32.ofNat_toNat, heven _ (by omega)] at hmask
  omega

theorem vatopa_cases (a : UInt32) :
    a.toNat < 0x880000 ∧ (Fusionf1.platformVatopa a).toNat = a.toNat + 0x20000000 - 800000 ∨
      0x880000 ≤ a.toNat ∧ a.toNat < 0x8C0000 ∧ (Fusionf1.platformVatopa a).toNat = a.toNat + 0x0F7C0000 ∨
      0x8C0000 ≤ a.toNat ∧ Fusionf1.platformVatopa a = a := by
  unfold Fusionf1.platformVatopa
  by_cases h1 : a < 0x880000
  · have h1' : a.toNat < 0x880000 := UInt32.lt_iff_toNat_lt.1 h1
    have hor : (a ||| 0x20000000).toNat = a.toNat + 0x20000000 := by
      rw [UInt32.toNat_or]
      exact Nat.or_two_pow_eq_add_of_lt (show a.toNat < 2 ^ 29 by omega)
    have hle : (800000 : UInt32) ≤ a ||| 0x20000000 :=
      UInt32.le_iff_toNat_le.2 (by rw [hor]; exact le_trans (by decide) (Nat.le_add_left _ _))
    rw [if_pos h1, UInt32.toNat_sub_of_le _ _ hle, hor]
    exact Or.inl ⟨h1', rfl⟩
  have h1' : 0x880000 ≤ a.toNat := Nat.le_of_not_lt fun h => h1 (UInt32.lt_iff_toNat_lt.2 h)
  rw [if_neg h1]
  by_cases h2 : a < 0x8C0000
  · have h2' : a.toNat < 0x8C0000 := UInt32.lt_iff_toNat_lt.1 h2
    have hsub : (a - 0x800000).toNat = a.toNat - 0x800000 :=
      UInt32.toNat_sub_of_le _ _ (UInt32.le_iff_toNat_le.2 (le_trans (by decide) h1'))
    rw [if_pos h2, UInt32.toNat_add, hsub]
    refine Or.inr (Or.inl ⟨h1', h2', ?_⟩)
    show (a.toNat - 0x800000 + 0x0FFC0000) % 2 ^ 32 = _
    omega
  · rw [if_neg h2]
    exact Or.inr (Or.inr ⟨Nat.le_of_not_lt fun h => h2 (UInt32.lt_iff_toNat_lt.2 h), rfl⟩)

theorem patova_cases (v : UInt32) :
    (v &&& 0xEFFFFFFF).toNat < 0x10000000 ∧
        (Fusionf1.platformPatova v).toNat = ((v &&& 0xEFFFFFFF).toNat + 0xF08C0000) % 2 ^ 32 ∨
      0x10000000 ≤ (v &&& 0xEFFFFFFF).toNat ∧ (v &&& 0xEFFFFFFF).toNat < 0x20080000 ∧
        (Fusionf1.platformPatova v).toNat = (v &&& 0xEFFFFFFF).toNat % 2 ^ 28 + 0x800000 ∨
      0x20080000 ≤ (v &&& 0xEFFFFFFF).toNat ∧ (Fusionf1.platformPatova v).toNat = (v &&& 0xEFFFFFFF).toNat := by
  unfold Fusionf1.platformPatova
  generalize v &&& 0xEFFFFFFF = m
  simp only
  by_cases h1 : m < 0x10000000
  · rw [if_pos h1, UInt32.toNat_add, UInt32.toNat_sub]
    refine Or.inl ⟨UInt32.lt_iff_toNat_lt.1 h1, ?_⟩
    show ((2 ^ 32 - 0x0FFC0000 + m.toNat) % 2 ^ 32 + 0x880000) % 2 ^ 32 = _
    omega
  have h1' : 0x10000000 ≤ m.toNat := Nat.le_of_not_lt fun h => h1 (UInt32.lt_iff_toNat_lt.2 h)
  rw [if_neg h1]
  by_cases h2 : m < 0x20080000
  · have hlow : (m &&& 0x0FFFFFFF).toNat = m.toNat % 2 ^ 28 := by
      rw [UInt32.toNat_and]
      exact Nat.and_two_pow_sub_one_eq_mod _ 28
    rw [if_pos h2, UInt32.toNat_add, hlow]
    refine Or.inr (Or.inl ⟨h1', UInt32.lt_iff_toNat_lt.1 h2, ?_⟩)
    show (m.toNat % 2 ^ 28 + 0x800000) % 2 ^ 32 = _
    omega
  · rw [if_neg h2]
    exact Or.inr (Or.inr ⟨Nat.le_of_not_lt fun h => h2 (UInt32.lt_iff_toNat_lt.2 h), rfl⟩)

/-- The DSP's `platform_patova` undoes its `platform_vatopa` on the addresses that the second returns as they are, while
bit 28 is clear, and on no other one. -/
theorem patova_vatopa_iff (a : UInt32) : Fusionf1.platformPatova (Fusionf1.platformVatopa a) = a ↔
    0x20080000 ≤ a ∧ a.toNat.testBit 28 = false := by
  have hlt := a.toNat_lt
  have hbit : a.toNat.testBit 28 = false ↔ a.toNat / 2 ^ 28 % 2 = 0 := by
    rw [Nat.testBit_eq_decide_div_mod_eq]
    simp
  have hle : 0x20080000 ≤ a ↔ 0x20080000 ≤ a.toNat := UInt32.le_iff_toNat_le
  rw [hbit, hle, ← UInt32.toNat_inj]
  have hmask := masked_toNat (Fusionf1.platformVatopa a)
  rcases vatopa_cases a with ⟨h1, hv⟩ | ⟨h1, h2, hv⟩ | ⟨h1, hv⟩
  · rcases patova_cases (Fusionf1.platformVatopa a) with ⟨h3, hp⟩ | ⟨h3, h4, hp⟩ | ⟨h3, hp⟩ <;> omega
  · rcases patova_cases (Fusionf1.platformVatopa a) with ⟨h3, hp⟩ | ⟨h3, h4, hp⟩ | ⟨h3, hp⟩ <;> omega
  · rw [hv] at hmask ⊢
    rcases patova_cases a with ⟨h3, hp⟩ | ⟨h3, h4, hp⟩ | ⟨h3, hp⟩ <;> omega

end Imx8ulp

end RpmsgLite
