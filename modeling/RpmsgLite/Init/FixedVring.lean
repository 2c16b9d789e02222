/-
Platforms whose header fixes `VRING_SIZE` at 0x8000 and `VRING_ALIGN` at 0x1000. Nothing relates the
fixed size to `RL_BUFFER_COUNT`: the tables fit up to 1024 buffers and from 2048 on they do not.
-/
import RpmsgLite.Init.Layout

namespace RpmsgLite

open MaskArith

/-- The tables of each vring, and the range zeroed for it, end before what follows: the second vring for
the first one, the buffers for the second. -/
structure VringsFit (dev : RpmsgLiteInstance) (zeroed : Nat) : Prop where
  rvq : dev.rvq.ring.descEnd ≤ dev.tvq.ring.desc ∧ dev.rvq.ring.availEnd ≤ dev.tvq.ring.desc ∧
    dev.rvq.ring.usedEnd ≤ dev.tvq.ring.desc
  tvq : dev.tvq.ring.descEnd ≤ dev.shMemBase ∧ dev.tvq.ring.availEnd ≤ dev.shMemBase ∧
    dev.tvq.ring.usedEnd ≤ dev.shMemBase
  zeroed : dev.rvq.ring.desc + zeroed ≤ dev.tvq.ring.desc ∧ dev.tvq.ring.desc + zeroed ≤ dev.shMemBase

/-- A fixed vring of 0x8000 bytes at alignment 0x1000 holds its tables exactly up to 1024 buffers. -/
theorem masterInit_fixed_fits_iff {w : Nat} {c : BuildConfig} {env : InitEnv} {highestLinkId linkId : UInt32}
    {addr length : Nat} {m m' : ByteMem} {dev : RpmsgLiteInstance} (hw : 32 ≤ w) (hv : c.vringSize = 0x8000)
    (ha : c.vringAlign = 0x1000) (haddr : 4 ∣ addr) (hlen : addr + length ≤ 2 ^ w)
    (h : rpmsgLiteMasterInit w env highestLinkId (.build c) addr length linkId m = .instance dev m') :
    VringsFit dev (zeroedSize w (c.params w)) ↔ c.bufferCount ≤ 1024 := by
  obtain ⟨p, count, hrun⟩ := masterInit_run h
  have hp : p = c.params w := by
    have := hrun.params
    simp only [masterParams, Option.some.injEq] at this
    exact this.symm
  subst hp
  have hshape := hrun.shape
  have hne := hrun.addr_ne
  have hsz : FreeRing.IsSize c.bufferCount := FreeRing.isSize_of_and c.count_ne c.count_le c.count_and
  have hle := hsz.le
  have hpos := hsz.pos
  have hcnt : (c.params w).count.toNat = c.bufferCount :=
    UInt16.toNat_ofNat_of_lt' (by simp only [UInt16.size]; omega)
  have hover : (c.params w).overhead = 65536 := by simp only [BuildConfig.params, hv]; rfl
  have hali : (c.params w).align = 4096 := ha
  have hvs : (c.params w).vringSize = 32768 := hv
  -- the accepted length has room for both vrings and a buffer
  have hcalc := hrun.calc_eq
  have henough := hrun.enough
  rw [hcnt] at henough
  obtain ⟨h1, h2, h3⟩ := calc_fits (by omega) (by omega) (by omega) hcalc henough
  rw [hover] at h1 h3
  have h4 : 1 * (2 * c.bufferCount) ≤ (c.params w).bufferSize * (2 * c.bufferCount) := Nat.mul_le_mul_right _ h2
  obtain ⟨q, hq⟩ := haddr
  have hwu : wordUp addr = addr := by unfold wordUp; omega
  obtain ⟨hb0, hb1⟩ := vringBase_eq (w := w) (c.params w) addr (by omega) (by rw [hwu, hvs]; omega)
  rw [hwu] at hb0
  rw [hwu, hvs] at hb1
  have hbase : shMemBase w (c.params w) addr = addr + 65536 := by
    unfold shMemBase
    rw [hover, rlWordAlignUp_of_lt (by omega) (by omega)]
    unfold wordUp; omega
  have hr0 := hshape.rvq_ring.1
  have hr1 := hshape.tvq_ring.1
  constructor
  · intro hf
    -- the avail ring alone is too long from 2048 buffers on
    have havail := hf.rvq.2.1
    rw [hr0, hr1, vringOf_availEnd, vringOf_desc, hb0, hb1, hcnt] at havail
    obtain ⟨k, hk⟩ := hsz.two_pow
    by_contra hgt
    have hk11 : 11 ≤ k := by
      by_contra hlt
      have := Nat.pow_le_pow_right (n := 2) (by decide) (show k ≤ 10 by omega)
      omega
    have := Nat.pow_le_pow_right (n := 2) (by decide) hk11
    omega
  · intro hn
    have hu0 := vringOf_used w (c.params w) addr 0 (by omega)
      (by rw [hb0, hcnt, hali]; omega)
    have hu1 := vringOf_used w (c.params w) addr 1 (by omega)
      (by rw [hb1, hcnt, hali]; omega)
    rw [hb0, hcnt, hali] at hu0
    rw [hb1, hcnt, hali] at hu1
    have up0 := alignUp_le (addr + 18 * c.bufferCount + 4) 4096
    have up1 := alignUp_le (addr + 32768 + 18 * c.bufferCount + 4) 4096
    have upz := alignUp_le (18 * c.bufferCount + 8) 4096
    have hz := zeroedSize_eq (p := c.params w) hw (by omega) (by omega)
    rw [hcnt, hali] at hz
    refine ⟨⟨?_, ?_, ?_⟩, ⟨?_, ?_, ?_⟩, ⟨?_, ?_⟩⟩
    · rw [hr0, hr1, vringOf_desc, hb1]
      simp only [Vring.descEnd, vringOf_desc, vringOf_num, hb0, hcnt]; omega
    · rw [hr0, hr1, vringOf_availEnd, vringOf_desc, hb0, hb1, hcnt]; omega
    · rw [hr0, hr1, vringOf_usedEnd, vringOf_desc, hu0, hb1, hcnt]; omega
    · rw [hr1, hshape.base, hbase]
      simp only [Vring.descEnd, vringOf_desc, vringOf_num, hb1, hcnt]; omega
    · rw [hr1, hshape.base, vringOf_availEnd, hb1, hbase, hcnt]; omega
    · rw [hr1, hshape.base, vringOf_usedEnd, hu1, hbase, hcnt]; omega
    · rw [hr0, hr1, vringOf_desc, vringOf_desc, hb0, hb1, hz]; omega
    · rw [hr1, hshape.base, vringOf_desc, hb1, hbase, hz]; omega

/-- The fixed values with `2 ^ k` buffers. -/
def fixedConfig (k : Nat) (hk : k ≤ 15) : BuildConfig where
  bufferCount := 2 ^ k
  payloadSize := 16
  vringAlign := 0x1000
  vringSize := 0x8000
  count_ne := (Nat.two_pow_pos k).ne'
  count_and := by rw [Nat.and_two_pow_sub_one_eq_mod, Nat.mod_self]
  count_le := Nat.pow_le_pow_right (by decide) hk
  align_le := by decide
  payload_pos := payload_16_pos
  payload_lt := payload_16_lt
  vringSize_lt := by decide

theorem masterInit_fixed_two_fits : ∃ dev m',
    rpmsgLiteMasterInit 32 InitEnv.ok 0 (.build (fixedConfig 1 (by decide))) 4096 0x20000 0 (fun _ => 0) =
      .instance dev m' ∧ VringsFit dev 4126 := by
  obtain ⟨dev, m', h, -⟩ := InitResult.of_check (t := fun _ _ => true)
    (r := rpmsgLiteMasterInit 32 InitEnv.ok 0 (.build (fixedConfig 1 (by decide))) 4096 0x20000 0 (fun _ => 0))
    (by decide +kernel)
  exact ⟨dev, m', h, (masterInit_fixed_fits_iff le_rfl rfl rfl (by decide) (by decide) h).2 (by decide)⟩

/-- With 2048 buffers the avail ring of the first vring runs into the second. -/
theorem masterInit_fixed_overlaps : ∃ dev m',
    rpmsgLiteMasterInit 32 InitEnv.ok 0 (.build (fixedConfig 11 (by decide))) 4096 0x40000 0 (fun _ => 0) =
      .instance dev m' ∧ ¬ VringsFit dev 57374 := by
  obtain ⟨dev, m', h, ht⟩ := InitResult.of_check
    (t := fun dev _ => dev.rvq.ring.availEnd == 40964 && dev.tvq.ring.desc == 36864)
    (r := rpmsgLiteMasterInit 32 InitEnv.ok 0 (.build (fixedConfig 11 (by decide))) 4096 0x40000 0 (fun _ => 0))
    (by decide +kernel)
  refine ⟨dev, m', h, fun hf => ?_⟩
  rw [Bool.and_eq_true] at ht
  have havail := hf.rvq.2.1
  rw [eq_of_beq ht.1, eq_of_beq ht.2] at havail
  exact absurd havail (by decide)

end RpmsgLite
