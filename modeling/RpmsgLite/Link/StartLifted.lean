/-
The layout under other addresses. Every rounding of the layout is to at most `RL_MAX_VRING_ALIGN`, so a core
that finds the shared memory a multiple of it below another one computes the same rings and the same buffers,
as far below.
-/
import RpmsgLite.Init.Layout
import RpmsgLite.Init.SameLayout
import RpmsgLite.Link.Lift

namespace RpmsgLite

open MaskArith ByteMem

variable {w : Nat} {p : ShmemParams} {addr d : Nat} {linkId : UInt32}

theorem rlWordAlignUp_add (hw : 2 ≤ w) {a : Nat} (hd : 4 ∣ d) (h : a + d + 3 < 2 ^ w) :
    rlWordAlignUp w (a + d) = rlWordAlignUp w a + d := by
  rw [rlWordAlignUp_of_lt hw h, rlWordAlignUp_of_lt hw (by omega)]
  unfold wordUp
  omega

theorem masterParams_vringSize_lt {cfg : ShmemConfig} (h : masterParams w cfg = some p) : p.vringSize < 2 ^ 32 := by
  cases cfg with
  | build c =>
    cases h
    exact c.vringSize_lt
  | custom c =>
    cases c with
    | none => cases h
    | some c =>
      simp only [masterParams] at h
      split at h
      · cases h
      split at h
      · cases h
      split at h
      · cases h
      cases h
      exact c.capAlign.vringSize.toNat_lt

/-- Nothing of the layout wraps around the address width. -/
structure NoWrap (w : Nat) (p : ShmemParams) (addr : Nat) : Prop where
  word : addr + 3 < 2 ^ w
  vring : wordUp addr + p.vringSize < 2 ^ w
  used : ∀ idx < 2, vringBase w p addr idx + 18 * p.count.toNat + 4 + (p.align - 1) < 2 ^ w
  base : addr + p.overhead + 3 < 2 ^ w

/-- An accepted layout in the address space of the link. -/
theorem LayoutOk.noWrap (hl : LayoutOk w p addr) (hw : 32 ≤ w) {length count : Nat} (hlen : addr + length ≤ 2 ^ 32)
    (ha0 : addr ≠ 0) (halign : p.align ≤ RL_MAX_VRING_ALIGN) (hsize : p.vringSize < 2 ^ 32)
    (hcalc : rlCalculateBufferCountDownSafe w length p.overhead p.bufferSize = some count) (hcount : 2 * p.count.toNat ≤ count) :
    0 < p.align ∧ NoWrap w p addr := by
  have h32 : (2 : Nat) ^ 32 ≤ 2 ^ w := Nat.pow_le_pow_right (by decide) hw
  have hpos : 0 < p.count.toNat := hl.laid0.size.pos
  obtain ⟨hover, -, hfit⟩ := calc_fits (by omega) (by omega) (show 0 < 2 * p.count.toNat by omega) hcalc hcount
  have hbytes : 16 * 2 ≤ p.bufferSize * (2 * p.count.toNat) := Nat.mul_le_mul hl.size_ge (by omega)
  have hword : addr + 3 < 2 ^ w := by omega
  have hup : rlWordAlignUp w addr = wordUp addr := rlWordAlignUp_of_lt (by omega) hword
  have hupw : wordUp addr < 2 ^ w := by
    unfold wordUp
    omega
  have h0 : vringBase w p addr 0 = wordUp addr := by
    unfold vringBase
    rw [hup, if_pos rfl, Nat.add_zero, wrap_of_lt hupw]
  -- the second vring would lie below the first one
  have hvring : wordUp addr + p.vringSize < 2 ^ w := by
    by_contra hge
    have hbase : vringBase w p addr 1 = wordUp addr + p.vringSize - 2 ^ w := by
      unfold vringBase wrap
      rw [hup, if_neg (by decide), Nat.mod_eq_sub_mod (by omega), Nat.mod_eq_of_lt (by omega)]
    have hord := hl.order
    have hend := hl.laid0.descEnd_le_usedEnd
    simp only [Vring.descEnd, vringOf_desc, h0, hbase] at hord hend
    omega
  have hused : ∀ idx, (vringOf w p addr idx).Laid → 0 < p.align ∧
      vringBase w p addr idx + 18 * p.count.toNat + 4 + (p.align - 1) < 2 ^ w := by
    intro idx hlaid
    obtain ⟨hpos, heq⟩ := vringOf_used_of_order halign hw hlaid.used_le
    refine ⟨hpos, lt_of_alignUp_lt hpos (by unfold RL_MAX_VRING_ALIGN at halign; omega) ?_⟩
    rw [← heq]
    exact roundUp_lt _ _ _
  refine ⟨(hused 0 hl.laid0).1, hword, hvring, fun idx hidx => ?_, by omega⟩
  obtain rfl | rfl : idx = 0 ∨ idx = 1 := by omega
  · exact (hused 0 hl.laid0).2
  · exact (hused 1 hl.laid1).2

/-- Under other addresses the vrings are the same ones. -/
theorem NoWrap.vringOf_add (h : NoWrap w p (addr + d)) (hw : 32 ≤ w) (h0 : 0 < p.align) (halign : p.align ≤ RL_MAX_VRING_ALIGN)
    (hd : RL_MAX_VRING_ALIGN ∣ d) {idx : Nat} (hidx : idx < 2) : vringOf w p (addr + d) idx = (vringOf w p addr idx).lift d := by
  have hd4 : 4 ∣ d := (show 4 ∣ RL_MAX_VRING_ALIGN by decide).trans hd
  have hup : wordUp (addr + d) = wordUp addr + d := by
    unfold wordUp
    omega
  have hvring := h.vring
  obtain ⟨hb0, hb1⟩ := vringBase_eq p (addr + d) (by omega) hvring
  obtain ⟨hc0, hc1⟩ := vringBase_eq p addr (by omega) (show wordUp addr + p.vringSize < 2 ^ w by omega)
  have hbase : vringBase w p (addr + d) idx = vringBase w p addr idx + d := by
    obtain rfl | rfl : idx = 0 ∨ idx = 1 := by omega
    · rw [hb0, hc0, hup]
    · rw [hb1, hc1, hup]
      omega
  have hlt := h.used idx hidx
  have hused : (vringOf w p (addr + d) idx).used = (vringOf w p addr idx).used + d := by
    rw [vringOf_used w p (addr + d) idx h0 hlt, vringOf_used w p addr idx h0 (by omega), hbase,
      show vringBase w p addr idx + d + 18 * p.count.toNat + 4 = vringBase w p addr idx + 18 * p.count.toNat + 4 + d by omega]
    exact alignUp_add (k := 16) h0 halign hd
  unfold Vring.lift
  rw [← hused]
  simp only [vringOf, vringInit, hbase, Vring.mk.injEq, and_true, true_and]
  omega

theorem NoWrap.shMemBase_add (h : NoWrap w p (addr + d)) (hw : 32 ≤ w) (hd : RL_MAX_VRING_ALIGN ∣ d) :
    shMemBase w p (addr + d) = shMemBase w p addr + d := by
  have hbase := h.base
  unfold shMemBase
  rw [Nat.add_right_comm]
  exact rlWordAlignUp_add (by omega) ((show 4 ∣ RL_MAX_VRING_ALIGN by decide).trans hd) (by omega)

theorem virtqueueCreate_eq {allocOk : Bool} {callback : VqCallback} {idx : Nat} (ha : p.align ≤ INT32_MAX)
    (halloc : allocOk = true) :
    virtqueueCreate w allocOk (rlGetVqId linkId idx) (vringAllocInfo w p addr idx) callback =
      .ok (initVq w p addr linkId callback idx) := by
  unfold virtqueueCreate
  rw [if_neg (show ¬ (vringAllocInfo w p addr idx).align > INT32_MAX from Nat.not_lt.2 ha), halloc]
  rfl

theorem initVq_add {callback : VqCallback} {idx : Nat} (hv : vringOf w p (addr + d) idx = (vringOf w p addr idx).lift d) :
    initVq w p (addr + d) linkId callback idx = (initVq w p addr linkId callback idx).lift d := by
  unfold initVq Virtqueue.lift
  simp only [Virtqueue.mk.injEq, and_true, true_and]
  exact hv

/-- One turn of the master's vring loop, `d` above. -/
theorem vringMem_lift (zeroed : Nat) (vq : Virtqueue) (d : Nat) (m v : ByteMem) :
    vringMem zeroed (vq.lift d) (m.raise d v) = m.raise d (vringMem zeroed vq v) := by
  unfold vringMem
  rw [← virtqueueDisableCb_lift, ← vqRingInit_lift, ← fill_raise]
  rfl

/-- The next buffer, if there is one. -/
theorem nextBuffer_add {total remaining : Nat} (hb : shMemBase w p (addr + d) = shMemBase w p addr + d)
    (h : nextBuffer w p addr total remaining ≠ 0) :
    nextBuffer w p (addr + d) total remaining = nextBuffer w p addr total remaining + d := by
  unfold nextBuffer at h ⊢
  by_cases hr : 0 < remaining
  · rw [if_pos hr, if_pos hr, hb, Nat.add_right_comm]
  · rw [if_neg hr] at h
    exact absurd rfl h

/-- `rpmsg_lite_remote_init` computes the same instance under other addresses. -/
theorem remoteInit_add {env : InitEnv} {highestLinkId : UInt32} {cfg : ShmemConfig} {dev : RpmsgLiteInstance}
    (h : rpmsgLiteRemoteInit w env highestLinkId cfg addr linkId = some dev) (hp : remoteParams w cfg = some p)
    (hv : ∀ idx < 2, vringOf w p (addr + d) idx = (vringOf w p addr idx).lift d)
    (hb : shMemBase w p (addr + d) = shMemBase w p addr + d) :
    rpmsgLiteRemoteInit w env highestLinkId cfg (addr + d) linkId = some (dev.lift d) := by
  unfold rpmsgLiteRemoteInit at h ⊢
  rw [hp] at h ⊢
  by_cases hlink : linkId > highestLinkId
  · rw [if_pos hlink] at h
    cases h
  by_cases haddr : addr = 0
  · rw [if_neg hlink, if_pos haddr] at h
    cases h
  rw [if_neg hlink, if_neg haddr] at h
  rw [if_neg hlink, if_neg (show addr + d ≠ 0 by omega)]
  simp only at h ⊢
  split at h
  · cases h
  rename_i halloc
  split at h
  · cases h
  rename_i hinit
  rw [if_neg halloc, if_neg hinit]
  split at h
  · cases h
  rename_i vq0 h0
  split at h
  · cases h
  rename_i vq1 h1
  split at h
  · cases h
  rename_i hmutex
  cases h
  obtain ⟨rfl, ha, halloc0⟩ := virtqueueCreate_ok h0
  obtain ⟨rfl, -, halloc1⟩ := virtqueueCreate_ok h1
  simp only [virtqueueCreate_eq ha halloc0, virtqueueCreate_eq ha halloc1, if_neg hmutex, initVq_add (hv 0 (by decide)),
    initVq_add (hv 1 (by decide)), hb]
  rfl

end RpmsgLite
