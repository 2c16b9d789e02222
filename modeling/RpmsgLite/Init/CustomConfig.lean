/-
Run-time shared-memory configurations. The checks of `rpmsg_lite_master_init` do not relate the vring
size to the tables and let zero counts, zero alignments and wrapping sizes through; this module says
exactly which of the values that pass them are laid out as a caller may rely on.
-/
import RpmsgLite.Init.Layout

namespace RpmsgLite

open MaskArith

/-! ## What an accepted configuration should give -/

/-- The layout and the rings a caller may rely on. -/
structure CustomInit (c : RpmsgPlatformShmemConfig) (addr length : Nat) (dev : RpmsgLiteInstance) (m : ByteMem) :
    Prop where
  inside : ∀ vr ∈ [dev.rvq.ring, dev.tvq.ring], addr ≤ vr.desc ∧ vr.availEnd ≤ vr.used ∧ vr.usedEnd ≤ addr + length
  buffers : ∀ i < 2 * c.bufferCount.toNat, addr ≤ bufferAt dev.shMemBase (rlBufferSize 32 c.bufferPayloadSize.toNat) i ∧
    bufferAt dev.shMemBase (rlBufferSize 32 c.bufferPayloadSize.toNat) i + rlBufferSize 32 c.bufferPayloadSize.toNat ≤
      addr + length
  holds : c.bufferPayloadSize.toNat + 16 ≤ rlBufferSize 32 c.bufferPayloadSize.toNat
  vrings : Apart dev.rvq.ring.desc dev.rvq.ring.usedEnd dev.tvq.ring.desc dev.tvq.ring.usedEnd
  bufVring : ∀ i < 2 * c.bufferCount.toNat, ∀ vr ∈ [dev.rvq.ring, dev.tvq.ring],
    Apart (bufferAt dev.shMemBase (rlBufferSize 32 c.bufferPayloadSize.toNat) i)
      (bufferAt dev.shMemBase (rlBufferSize 32 c.bufferPayloadSize.toNat) i +
        rlBufferSize 32 c.bufferPayloadSize.toNat) vr.desc vr.usedEnd
  bufBuf : ∀ i < 2 * c.bufferCount.toNat, ∀ j < 2 * c.bufferCount.toNat, i ≠ j →
    Apart (bufferAt dev.shMemBase (rlBufferSize 32 c.bufferPayloadSize.toNat) i)
      (bufferAt dev.shMemBase (rlBufferSize 32 c.bufferPayloadSize.toNat) i +
        rlBufferSize 32 c.bufferPayloadSize.toNat)
      (bufferAt dev.shMemBase (rlBufferSize 32 c.bufferPayloadSize.toNat) j)
      (bufferAt dev.shMemBase (rlBufferSize 32 c.bufferPayloadSize.toNat) j +
        rlBufferSize 32 c.bufferPayloadSize.toNat)
  ringInit : ∀ i ∈ vqRingInitWrites c.bufferCount.toNat ++ [wrap 32 (c.bufferCount.toNat + (2 ^ 32 - 1))],
    i < c.bufferCount.toNat
  rvqHolds : (dev.rvq.ring.availPending m 0).length = c.bufferCount.toNat
  tvqHolds : (dev.tvq.ring.usedPending m dev.tvq.usedConsIdx).length = c.bufferCount.toNat

/-- A validated configuration: NULL before any store, or an instance as above. -/
def CustomValidated (c : RpmsgPlatformShmemConfig) (addr length : Nat) : InitResult → Prop
  | .rejected => True
  | .failed _ => False
  | .stuck => False
  | .instance dev m => CustomInit c addr length dev m

/-! ## Which configurations give it -/

/-- The length of the vring placed at `b`: the tables, with the padding the address asks for. -/
def RpmsgPlatformShmemConfig.extent (c : RpmsgPlatformShmemConfig) (b : Nat) : Nat :=
  alignUp (b + 18 * c.bufferCount.toNat + 4) (min c.vringAlign.toNat RL_MAX_VRING_ALIGN) + 8 * c.bufferCount.toNat + 4 - b

/-- The bytes of all buffers. -/
def RpmsgPlatformShmemConfig.poolSize (c : RpmsgPlatformShmemConfig) : Nat :=
  rlBufferSize 32 c.bufferPayloadSize.toNat * (2 * c.bufferCount.toNat)

/-- The values that fit `[addr, addr + length)`. Below `2 ^ 31` the vrings come first and the buffers
behind them; from there on twice the vring size wraps and the buffers come between the two vrings. -/
structure CustomFits (c : RpmsgPlatformShmemConfig) (addr length : Nat) : Prop where
  count_ne : c.bufferCount ≠ 0
  align_ne : c.vringAlign ≠ 0
  payload : c.bufferPayloadSize.toNat + 19 < 2 ^ 32
  areas : (c.vringSize.toNat < 2 ^ 31 ∧ c.extent addr ≤ c.vringSize.toNat ∧
      c.vringSize.toNat + c.extent (addr + c.vringSize.toNat) ≤ wordUp (2 * c.vringSize.toNat) ∧
      wordUp (2 * c.vringSize.toNat) + c.poolSize ≤ length) ∨
    (2 ^ 31 ≤ c.vringSize.toNat ∧ c.extent addr ≤ wordUp (2 * c.vringSize.toNat - 2 ^ 32) ∧
      wordUp (2 * c.vringSize.toNat - 2 ^ 32) + c.poolSize ≤ c.vringSize.toNat ∧
      c.vringSize.toNat + c.extent (addr + c.vringSize.toNat) ≤ length)

section

variable {c : RpmsgPlatformShmemConfig} {p : ShmemParams} {addr length : Nat}

theorem masterParams_custom (h : masterParams 32 (.custom (some c)) = some p) :
    p = c.capAlign.params 32 ∧ (c.bufferCount ≠ 0 → FreeRing.IsSize c.bufferCount.toNat) := by
  simp only [masterParams] at h
  split at h
  · cases h
  rename_i hle
  split at h
  · cases h
  rename_i hand
  split at h
  · cases h
  cases h
  refine ⟨rfl, fun hne => ?_⟩
  have hne' : c.bufferCount.toNat ≠ 0 := fun h0 => hne (UInt16.toNat_inj.1 h0)
  refine FreeRing.isSize_of_and hne' (by simpa [RL_MAX_BUFFER_COUNT] using hle) ?_
  have h0 := congrArg UInt16.toNat (not_not.1 hand)
  rw [RpmsgPlatformShmemConfig.capAlign_count, UInt16.toNat_and, UInt16.toNat_sub] at h0
  have := c.bufferCount.toNat_lt
  rw [show (2 ^ 16 - UInt16.toNat 1 + c.bufferCount.toNat) % 2 ^ 16 = c.bufferCount.toNat - 1 by
    simp only [UInt16.reduceToNat]; omega] at h0
  exact h0

/-- The numbers behind the accepted parameters. -/
theorem capAlign_params (c : RpmsgPlatformShmemConfig) :
    (c.capAlign.params 32).count = c.bufferCount ∧
    (c.capAlign.params 32).align = min c.vringAlign.toNat RL_MAX_VRING_ALIGN ∧
    (c.capAlign.params 32).vringSize = c.vringSize.toNat ∧
    (c.capAlign.params 32).overhead = wrap 32 (2 * c.vringSize.toNat) ∧
    (c.capAlign.params 32).bufferSize = rlBufferSize 32 c.bufferPayloadSize.toNat := by
  simp only [RpmsgPlatformShmemConfig.params, RpmsgPlatformShmemConfig.capAlign_count,
    RpmsgPlatformShmemConfig.capAlign_payload, RpmsgPlatformShmemConfig.capAlign_size,
    RpmsgPlatformShmemConfig.capAlign_align, and_self]

/-! ## Where the areas lie -/

/-- Where an accepted configuration places its vrings and its buffers. -/
structure CustomBases (c : RpmsgPlatformShmemConfig) (addr length : Nat) : Prop where
  desc0 : vringBase 32 (c.capAlign.params 32) addr 0 = addr
  desc1 : vringBase 32 (c.capAlign.params 32) addr 1 = wrap 32 (addr + c.vringSize.toNat)
  pool : shMemBase 32 (c.capAlign.params 32) addr = addr + wordUp (wrap 32 (2 * c.vringSize.toNat))
  room : wrap 32 (2 * c.vringSize.toNat) + c.poolSize ≤ length
  size_pos : 4 ≤ rlBufferSize 32 c.bufferPayloadSize.toNat

theorem customBases {count : Nat} (haddr : 4 ∣ addr) (hlen : addr + length ≤ 2 ^ 32) (h0 : addr ≠ 0)
    (hn : c.bufferCount ≠ 0)
    (hcalc : rlCalculateBufferCountDownSafe 32 length (c.capAlign.params 32).overhead
      (c.capAlign.params 32).bufferSize = some count) (hle : 2 * c.bufferCount.toNat ≤ count) :
    CustomBases c addr length := by
  obtain ⟨-, -, hvs, hov, hbs⟩ := capAlign_params c
  have hN : 0 < c.bufferCount.toNat := Nat.pos_of_ne_zero fun hz => hn (UInt16.toNat_inj.1 hz)
  rw [hov, hbs] at hcalc
  obtain ⟨h1, h2, h3⟩ := calc_fits (by decide) (by omega) (by omega) hcalc hle
  have hdvd := four_dvd_rlBufferSize c.bufferPayloadSize.toNat
  have h4 : 4 * (2 * c.bufferCount.toNat) ≤ rlBufferSize 32 c.bufferPayloadSize.toNat * (2 * c.bufferCount.toNat) :=
    Nat.mul_le_mul_right _ (by omega)
  have hup : rlWordAlignUp 32 addr = addr := by
    rw [rlWordAlignUp_of_lt (by decide) (by omega)]
    unfold wordUp; omega
  refine ⟨?_, ?_, ?_, by unfold RpmsgPlatformShmemConfig.poolSize; omega, by omega⟩
  · unfold vringBase
    rw [hup, if_pos rfl, Nat.add_zero, wrap_of_lt (by omega)]
  · unfold vringBase
    rw [hup, if_neg (by decide), hvs]
  · unfold shMemBase
    rw [hov, rlWordAlignUp_of_lt (by decide) (by omega)]
    unfold wordUp; omega

theorem wrap_double (v : UInt32) : wrap 32 (2 * v.toNat) =
    if v.toNat < 2 ^ 31 then 2 * v.toNat else 2 * v.toNat - 2 ^ 32 := by
  have := v.toNat_lt
  unfold wrap
  split <;> omega

/-- Contiguous buffers that start before a range and are apart from it end before it. -/
theorem pool_le_of_apart {base size n lo hi : Nat} (hs : 0 < size) (hlo : base ≤ lo) (hne : lo < hi)
    (h : ∀ i < n, Apart (bufferAt base size i) (bufferAt base size i + size) lo hi) : base + size * n ≤ lo := by
  by_contra hgt
  -- the buffer that holds the first byte of the range
  have hi := h ((lo - base) / size) ((Nat.div_lt_iff_lt_mul hs).2 (by rw [Nat.mul_comm]; omega))
  have hdiv := Nat.div_add_mod (lo - base) size
  have hmod := Nat.mod_lt (lo - base) hs
  unfold Apart bufferAt at hi
  omega

theorem add_extent (c : RpmsgPlatformShmemConfig) (b : Nat) : b + c.extent b =
    alignUp (b + 18 * c.bufferCount.toNat + 4) (min c.vringAlign.toNat RL_MAX_VRING_ALIGN) + 8 * c.bufferCount.toNat + 4 := by
  have := le_alignUp (b + 18 * c.bufferCount.toNat + 4) (min c.vringAlign.toNat RL_MAX_VRING_ALIGN)
  unfold RpmsgPlatformShmemConfig.extent
  omega

theorem le_extent (c : RpmsgPlatformShmemConfig) (b : Nat) : 26 * c.bufferCount.toNat + 8 ≤ c.extent b := by
  have := le_alignUp (b + 18 * c.bufferCount.toNat + 4) (min c.vringAlign.toNat RL_MAX_VRING_ALIGN)
  unfold RpmsgPlatformShmemConfig.extent
  omega

/-- A vring that ends below `2 ^ 32` is as long as its extent. -/
theorem custom_usedEnd {idx b : Nat} (hb : vringBase 32 (c.capAlign.params 32) addr idx = b)
    (ha : c.vringAlign ≠ 0) (htop : b + c.extent b ≤ 2 ^ 32) :
    (vringOf 32 (c.capAlign.params 32) addr idx).usedEnd = b + c.extent b ∧
      (vringOf 32 (c.capAlign.params 32) addr idx).availEnd ≤ (vringOf 32 (c.capAlign.params 32) addr idx).used := by
  obtain ⟨hcnt, hal, -⟩ := capAlign_params c
  have hpos : 0 < min c.vringAlign.toNat RL_MAX_VRING_ALIGN := by
    have : c.vringAlign.toNat ≠ 0 := fun hz => ha (UInt32.toNat_inj.1 hz)
    simp only [RL_MAX_VRING_ALIGN]; omega
  have hadd := add_extent c b
  have hu := vringOf_used 32 (c.capAlign.params 32) addr idx (by rw [hal]; exact hpos)
    (by
      rw [hb, hcnt, hal]
      refine lt_of_alignUp_lt hpos ?_ (by omega)
      simp only [RL_MAX_VRING_ALIGN]; omega)
  rw [hb, hcnt, hal] at hu
  have hle := le_alignUp (b + 18 * c.bufferCount.toNat + 4) (min c.vringAlign.toNat RL_MAX_VRING_ALIGN)
  refine ⟨?_, ?_⟩
  · rw [vringOf_usedEnd, hu, hcnt, hadd]
  · rw [vringOf_availEnd, hu, hb, hcnt]; exact hle

/-- The areas of values that fit are apart. -/
structure CustomAreas (c : RpmsgPlatformShmemConfig) (addr length : Nat) : Prop where
  layout : LayoutOk 32 (c.capAlign.params 32) addr
  desc0 : vringBase 32 (c.capAlign.params 32) addr 0 = addr
  desc1 : vringBase 32 (c.capAlign.params 32) addr 1 = addr + c.vringSize.toNat
  end0 : (vringOf 32 (c.capAlign.params 32) addr 0).usedEnd ≤ addr + length
  end1 : (vringOf 32 (c.capAlign.params 32) addr 1).usedEnd ≤ addr + length
  pool : shMemBase 32 (c.capAlign.params 32) addr + c.poolSize ≤ addr + length

theorem CustomFits.areas_apart (hf : CustomFits c addr length) (hb : CustomBases c addr length)
    (hlen : addr + length ≤ 2 ^ 32) (hs : FreeRing.IsSize c.bufferCount.toNat) : CustomAreas c addr length := by
  obtain ⟨hcnt, hal, -, -, hbs⟩ := capAlign_params c
  have hpool := hb.pool
  rw [wrap_double] at hpool
  have hl0 := le_extent c addr
  have hl1 := le_extent c (addr + c.vringSize.toNat)
  have hpos := hs.pos
  have hup : ∀ x, x ≤ wordUp x := fun x => by unfold wordUp; omega
  have hholds := (rlBufferSize_holds_iff (c.bufferPayloadSize.toNat_lt)).2 hf.payload
  -- the second vring does not wrap, and all areas end inside the caller's memory
  have hsum : c.extent addr ≤ length ∧ c.vringSize.toNat + c.extent (addr + c.vringSize.toNat) ≤ length := by
    rcases hf.areas with ⟨h1, h2, h3, h4⟩ | ⟨h1, h2, h3, h4⟩ <;> omega
  have hd1 : vringBase 32 (c.capAlign.params 32) addr 1 = addr + c.vringSize.toNat := by
    rw [hb.desc1, wrap_of_lt (by omega)]
  obtain ⟨hu0, ho0⟩ := custom_usedEnd hb.desc0 hf.align_ne (by omega)
  obtain ⟨hu1, ho1⟩ := custom_usedEnd hd1 hf.align_ne (by omega)
  have hpl : c.poolSize = (c.capAlign.params 32).bufferSize *
      ((c.capAlign.params 32).count.toNat + (c.capAlign.params 32).count.toNat) := by
    rw [hbs, hcnt, ← Nat.two_mul]; rfl
  have hend : shMemBase 32 (c.capAlign.params 32) addr + c.poolSize ≤ addr + length := by
    rw [hpool]
    rcases hf.areas with ⟨h1, h2, h3, h4⟩ | ⟨h1, h2, h3, h4⟩
    · rw [if_pos h1]; omega
    · rw [if_neg (by omega)]; omega
  refine ⟨⟨vringOf_laid (hcnt ▸ hs) ho0, vringOf_laid (hcnt ▸ hs) ho1, ?_, ?_, ?_, ?_, ?_, ?_⟩, hb.desc0,
    hd1, ?_, ?_, hend⟩
  · rw [hu0, vringOf_desc, hd1]
    have := hup (2 * c.vringSize.toNat - 2 ^ 32)
    rcases hf.areas with ⟨h1, h2, h3, h4⟩ | ⟨h1, h2, h3, h4⟩ <;> omega
  · rw [hu0, hpool]
    rcases hf.areas with ⟨h1, h2, h3, h4⟩ | ⟨h1, h2, h3, h4⟩
    · rw [if_pos h1]; omega
    · rw [if_neg (by omega)]; omega
  · rw [hu1, vringOf_desc, hd1, ← hpl, hpool]
    rcases hf.areas with ⟨h1, h2, h3, h4⟩ | ⟨h1, h2, h3, h4⟩
    · rw [if_pos h1]; exact Or.inl (by omega)
    · rw [if_neg (by omega)]; exact Or.inr (by omega)
  · rw [← hpl]; omega
  · rw [hbs]; omega
  · refine zeroedSize_ge (by decide) ?_ ?_
    · rw [hal]
      have : c.vringAlign.toNat ≠ 0 := fun hz => hf.align_ne (UInt32.toNat_inj.1 hz)
      simp only [RL_MAX_VRING_ALIGN]; omega
    · rw [hal]; simp only [RL_MAX_VRING_ALIGN]; omega
  · rw [hu0]; omega
  · rw [hu1]; omega

/-! ## Exactly the values that fit -/

section Run

variable {env : InitEnv} {linkId : UInt32} {m m' : ByteMem} {dev : RpmsgLiteInstance} {count : Nat}

/-- A layout a caller may rely on comes from values that fit. -/
theorem CustomInit.fits (hi : CustomInit c addr length dev m') (hb : c.bufferCount ≠ 0 → CustomBases c addr length)
    (haddr : 4 ∣ addr) (hlen : addr + length ≤ 2 ^ 32) {total : Nat}
    (hshape : MasterShape 32 (c.capAlign.params 32) addr linkId total dev) : CustomFits c addr length := by
  obtain ⟨hcnt, hal, -, -, hbs⟩ := capAlign_params c
  have hr0 := hshape.rvq_ring.1
  have hr1 := hshape.tvq_ring.1
  have hN : 0 < c.bufferCount.toNat := by
    have := hi.ringInit _ (List.mem_append_right _ (List.mem_singleton.2 rfl))
    omega
  have hb := hb fun h => by rw [h] at hN; exact absurd hN (by decide)
  have hin0 := hi.inside dev.rvq.ring List.mem_cons_self
  have hin1 := hi.inside dev.tvq.ring (List.mem_cons_of_mem _ List.mem_cons_self)
  have hbuf := hi.buffers (2 * c.bufferCount.toNat - 1) (by omega)
  have hvr := hi.vrings
  have hbv0 := hi.bufVring 0 (by omega) dev.rvq.ring List.mem_cons_self
  have hbv1 := fun i hi' => hi.bufVring i hi' dev.tvq.ring (List.mem_cons_of_mem _ List.mem_cons_self)
  rw [hr0] at hin0 hvr hbv0
  rw [hr1] at hin1 hvr
  simp only [hr1, hshape.base] at hbv1
  rw [hshape.base] at hbuf hbv0
  obtain ⟨hlo0, hord0, hhi0⟩ := hin0
  obtain ⟨hlo1, hord1, hhi1⟩ := hin1
  have hale : (c.capAlign.params 32).align ≤ 65536 := by rw [hal]; simp only [RL_MAX_VRING_ALIGN]; omega
  obtain ⟨hapos, hu0⟩ := vringOf_used_of_order hale (by decide) hord0
  obtain ⟨-, hu1⟩ := vringOf_used_of_order hale (by decide) hord1
  -- the second vring lies a vring size behind the first: a wrapped address would lie before the memory
  have hV := c.vringSize.toNat_lt
  have hd1 : vringBase 32 (c.capAlign.params 32) addr 1 = addr + c.vringSize.toNat := by
    rw [vringOf_desc, hb.desc1] at hlo1
    rw [hb.desc1]
    unfold wrap at hlo1 ⊢
    omega
  have he0 : (vringOf 32 (c.capAlign.params 32) addr 0).usedEnd = addr + c.extent addr := by
    rw [vringOf_usedEnd, hu0, hb.desc0, hcnt, hal, add_extent]
  have he1 : (vringOf 32 (c.capAlign.params 32) addr 1).usedEnd =
      addr + c.vringSize.toNat + c.extent (addr + c.vringSize.toNat) := by
    rw [vringOf_usedEnd, hu1, hd1, hcnt, hal, add_extent]
  have hl0 := le_extent c addr
  have hl1 := le_extent c (addr + c.vringSize.toNat)
  have hpool := hb.pool
  have hup : ∀ x, x ≤ wordUp x ∧ wordUp x ≤ x + 3 := fun x => by unfold wordUp; omega
  have hsz := hb.size_pos
  rw [wrap_double] at hpool
  rw [he0, vringOf_desc, vringOf_desc, hb.desc0, hd1, he1] at hvr
  rw [vringOf_desc, hb.desc0, he0] at hbv0
  rw [vringOf_desc, hd1, he1] at hbv1
  rw [he0] at hhi0
  rw [he1] at hhi1
  unfold Apart at hvr hbv0
  have hend : shMemBase 32 (c.capAlign.params 32) addr + c.poolSize ≤ addr + length := by
    have := hbuf.2
    unfold bufferAt at this
    rw [Nat.add_assoc, ← Nat.mul_succ, show Nat.succ (2 * c.bufferCount.toNat - 1) = 2 * c.bufferCount.toNat by omega] at this
    exact this
  refine ⟨fun h => by rw [h] at hN; exact absurd hN (by decide), ?_,
    (rlBufferSize_holds_iff c.bufferPayloadSize.toNat_lt).1 hi.holds, ?_⟩
  · intro hz
    rw [hal, hz] at hapos
    exact absurd hapos (by decide)
  simp only [bufferAt, Nat.mul_zero] at hbv0
  by_cases hv : c.vringSize.toNat < 2 ^ 31
  · rw [if_pos hv] at hpool
    have h2 := hup (2 * c.vringSize.toNat)
    have hfirst := hbv1 0 (by omega)
    simp only [Apart, bufferAt, Nat.mul_zero] at hfirst
    exact Or.inl ⟨hv, by omega, by omega, by omega⟩
  · rw [if_neg hv] at hpool
    have h2 := hup (2 * c.vringSize.toNat - 2 ^ 32)
    -- the buffers start before the second vring, so they end before it
    have hbefore := pool_le_of_apart (by omega) (by omega) (by omega) hbv1
    refine Or.inr ⟨by omega, by omega, ?_, by omega⟩
    have : c.poolSize = rlBufferSize 32 c.bufferPayloadSize.toNat * (2 * c.bufferCount.toNat) := rfl
    omega

/-- What an instance over values that fit provides; the tvq's count needs a cleared used index. -/
theorem CustomFits.init_iff (hf : CustomFits c addr length) (ha : CustomAreas c addr length)
    (hs : FreeRing.IsSize c.bufferCount.toNat)
    (hrun : MasterRun 32 env (.custom (some c)) addr length linkId m (c.capAlign.params 32) count dev m') :
    CustomInit c addr length dev m' ↔
      UsedCleared m (vringOf 32 (c.capAlign.params 32) addr 1) (zeroedSize 32 (c.capAlign.params 32)) := by
  obtain ⟨hcnt, -, -, -, hbs⟩ := capAlign_params c
  have hshape := hrun.shape
  obtain ⟨hr0, -, -, -, -⟩ := hshape.rvq_ring
  obtain ⟨hr1, -, hc1, -, -⟩ := hshape.tvq_ring
  have henough := hrun.enough
  rw [hcnt] at henough
  have hwrap : wrap 32 count = count := wrap_of_lt (calc_lt hrun.calc_eq)
  obtain ⟨z0, z1, hmem, -, h1⟩ := hrun.mem ha.layout (by rw [hwrap, hcnt]; omega)
  have hpos := hs.pos
  have hsz := hs.le
  -- the used entries pending for a consumer at zero
  have hused := hmem.usedIdx1
  rw [hcnt] at hused
  simp only [Vring.ringIdx] at hused
  have htvq : (dev.tvq.ring.usedPending m' dev.tvq.usedConsIdx).length = c.bufferCount.toNat ↔ z1 = 0 := by
    rw [hr1, hc1, Vring.usedPending, FreeRing.length_pending, hused, FreeRing.count]
    constructor
    · intro h
      have h2 : z1 + c.bufferCount - 0 = c.bufferCount := UInt16.toNat_inj.1 h
      have h3 : z1 + c.bufferCount - c.bufferCount = c.bufferCount - c.bufferCount := by
        rw [UInt16.sub_zero] at h2; rw [h2]
      simpa using h3
    · rintro rfl
      simp
  rw [← h1, ← htvq]
  refine ⟨fun h => h.tvqHolds, fun h => ?_⟩
  have hpool := ha.pool
  have hb1 := ha.layout.bufs1
  rw [hcnt, hbs, ← Nat.two_mul] at hb1
  have hd0 := ha.layout.laid0.descEnd_le_usedEnd
  have hdd0 := (vringOf 32 (c.capAlign.params 32) addr 0).desc_le_descEnd
  have hdd1 := (vringOf 32 (c.capAlign.params 32) addr 1).desc_le_descEnd
  have hb0 := ha.layout.bufs0
  have hord := ha.layout.order
  rw [vringOf_desc, ha.desc0] at hdd0
  rw [vringOf_desc, ha.desc1] at hord
  refine ⟨?_, ?_, (rlBufferSize_holds_iff c.bufferPayloadSize.toNat_lt).2 hf.payload, ?_, ?_,
    fun i _ j _ hne => bufferAt_apart _ _ hne, ?_, ?_, h⟩
  · intro vr hvr
    rcases List.mem_cons.1 hvr with rfl | hvr
    · rw [hr0, vringOf_desc, ha.desc0]
      exact ⟨le_rfl, ha.layout.laid0.used_le, ha.end0⟩
    · rw [List.mem_singleton.1 hvr, hr1, vringOf_desc, ha.desc1]
      exact ⟨Nat.le_add_right _ _, ha.layout.laid1.used_le, ha.end1⟩
  · intro i hi
    have hle := bufferAt_le (shMemBase 32 (c.capAlign.params 32) addr) (rlBufferSize 32 c.bufferPayloadSize.toNat) hi
    rw [hshape.base]
    refine ⟨?_, hle.trans hpool⟩
    unfold bufferAt; omega
  · rw [hr0, hr1, vringOf_desc, vringOf_desc, ha.desc1]
    exact Or.inl hord
  · intro i hi vr hvr
    have hle := bufferAt_le (shMemBase 32 (c.capAlign.params 32) addr) (rlBufferSize 32 c.bufferPayloadSize.toNat) hi
    have hge : shMemBase 32 (c.capAlign.params 32) addr ≤
        bufferAt (shMemBase 32 (c.capAlign.params 32) addr) (rlBufferSize 32 c.bufferPayloadSize.toNat) i :=
      Nat.le_add_right _ _
    rw [hshape.base]
    rcases List.mem_cons.1 hvr with rfl | hvr
    · rw [hr0]; exact Or.inr (hb0.trans hge)
    · rw [List.mem_singleton.1 hvr, hr1]
      rcases hb1 with hb1 | hb1
      · exact Or.inr (hb1.trans hge)
      · exact Or.inl (hle.trans hb1)
  · intro i hi
    rw [vqRingInitWrites, vqRingInit_bound hpos (by omega)] at hi
    rcases List.mem_append.1 hi with hi | hi
    · have := List.mem_range.1 hi; omega
    · have := List.mem_singleton.1 hi; omega
  · have hp := hmem.avail0
    simp only [Vring.PendingIs] at hp
    rw [hr0, hp, List.length_map, List.length_range, hcnt]

/-- A custom configuration is validated exactly when the checks reject it, or no allocation fails behind
the first store, the values fit, and the tvq's used index was cleared. -/
theorem masterInit_custom_iff {highestLinkId : UInt32} (haddr : 4 ∣ addr) (hlen : addr + length ≤ 2 ^ 32) :
    CustomValidated c addr length (rpmsgLiteMasterInit 32 env highestLinkId (.custom (some c)) addr length linkId m) ↔
      MasterRejects 32 env highestLinkId (.custom (some c)) addr length linkId ∨
      (env.Succeeds ∧ CustomFits c addr length ∧
        UsedCleared m (vringOf 32 (c.capAlign.params 32) addr 1) (zeroedSize 32 (c.capAlign.params 32))) := by
  obtain ⟨hcnt, hal, -, -, hbs⟩ := capAlign_params c
  by_cases hrej : MasterRejects 32 env highestLinkId (.custom (some c)) addr length linkId
  · rw [masterInit_rejected_iff.2 hrej]
    exact ⟨fun _ => Or.inl hrej, fun _ => trivial⟩
  rw [or_iff_right hrej]
  constructor
  · intro h
    generalize hres : rpmsgLiteMasterInit 32 env highestLinkId (.custom (some c)) addr length linkId m = res at h
    cases res with
    | rejected => exact absurd (masterInit_rejected_iff.1 hres) hrej
    | failed => exact h.elim
    | stuck => exact h.elim
    | «instance» dev m' =>
      obtain ⟨p, count, hrun⟩ := masterInit_run hres
      obtain ⟨rfl, hsize⟩ := masterParams_custom hrun.params
      have henough := hrun.enough
      rw [hcnt] at henough
      have hbases := fun hn => customBases haddr hlen hrun.addr_ne hn hrun.calc_eq henough
      have hf := CustomInit.fits h hbases haddr hlen hrun.shape
      have ha := hf.areas_apart (hbases hf.count_ne) hlen (hsize hf.count_ne)
      exact ⟨hrun.alloc, hf, (hf.init_iff ha (hsize hf.count_ne) hrun).1 h⟩
  · rintro ⟨henv, hf, hcl⟩
    have hne : ∀ p count, masterParams 32 (.custom (some c)) = some p →
        rlCalculateBufferCountDownSafe 32 length p.overhead p.bufferSize = some count → 2 * p.count.toNat ≤ count := by
      intro p count hp hcalc
      by_contra hgt
      exact hrej (Or.inr (Or.inr (Or.inr ⟨p, count, hp, hcalc, Or.inl (Nat.lt_of_not_le hgt)⟩)))
    cases hp : masterParams 32 (.custom (some c)) with
    | none => exact absurd (Or.inr (Or.inr (Or.inl hp))) hrej
    | some p =>
      obtain ⟨rfl, hsize⟩ := masterParams_custom hp
      have hlink : ¬ linkId > highestLinkId := fun h => hrej (Or.inl h)
      have h0 : addr ≠ 0 := fun h => hrej (Or.inr (Or.inl h))
      have hholds := (rlBufferSize_holds_iff c.bufferPayloadSize.toNat_lt).2 hf.payload
      cases hcalc : rlCalculateBufferCountDownSafe 32 length (c.capAlign.params 32).overhead
          (c.capAlign.params 32).bufferSize with
      | none =>
        -- the only way is a division by zero
        unfold rlCalculateBufferCountDownSafe at hcalc
        split at hcalc
        · cases hcalc
        split at hcalc
        · rename_i hz; rw [hbs] at hz; omega
        · cases hcalc
      | some count =>
        have henough := hne _ _ hp hcalc
        have hwrap : wrap 32 count = count := wrap_of_lt (calc_lt hcalc)
        have ha := hf.areas_apart (customBases haddr hlen h0 hf.count_ne hcalc (by rwa [hcnt] at henough)) hlen
          (hsize hf.count_ne)
        obtain ⟨dev, m', hres⟩ := masterInit_returns (m := m) ha.layout hlink h0 hp hcalc henough henv
          (by rw [hal]; simp only [RL_MAX_VRING_ALIGN, INT32_MAX]; omega) (by rw [hwrap]; omega)
        rw [hres]
        obtain ⟨p', count', hrun⟩ := masterInit_run hres
        obtain ⟨rfl, -⟩ := masterParams_custom hrun.params
        exact (hf.init_iff ha (hsize hf.count_ne) hrun).2 hcl

end Run

end

/-- The default values are validated over cleared memory. -/
theorem masterInit_custom_two : CustomValidated ⟨16, 2, 0x400, 16⟩ 4096 0x1000
    (rpmsgLiteMasterInit 32 InitEnv.ok 0 (.custom (some ⟨16, 2, 0x400, 16⟩)) 4096 0x1000 0 (fun _ => 0)) := by
  refine (masterInit_custom_iff (by decide) (by decide)).2 (Or.inr ⟨⟨rfl, rfl, rfl, rfl, rfl⟩, ⟨?_, ?_, ?_, ?_⟩, ?_⟩)
  · decide
  · decide
  · decide
  · exact Or.inl (by decide)
  · exact fun _ _ _ => Or.inr rfl

/-- A buffer count of zero passes every check, and `vq_ring_init` then runs over the whole 32-bit range. -/
theorem masterInit_custom_zero_count : ¬ CustomValidated ⟨16, 0, 0x400, 16⟩ 4096 0x1000
    (rpmsgLiteMasterInit 32 InitEnv.ok 0 (.custom (some ⟨16, 0, 0x400, 16⟩)) 4096 0x1000 0 (fun _ => 0)) := by
  obtain ⟨dev, m', h, -⟩ := InitResult.of_check (t := fun _ _ => true)
    (r := rpmsgLiteMasterInit 32 InitEnv.ok 0 (.custom (some ⟨16, 0, 0x400, 16⟩)) 4096 0x1000 0 (fun _ => 0))
    (by decide +kernel)
  rw [h]
  intro hv
  exact absurd (hv.ringInit _ (List.mem_append_right _ (List.mem_singleton.2 rfl))) (by decide)

end RpmsgLite
