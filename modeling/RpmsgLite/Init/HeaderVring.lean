/-
Platforms whose header computes `VRING_SIZE` from `RL_BUFFER_COUNT`. For every power-of-two alignment
the tables of a vring fit the computed size, wherever the base lies; what the zeroing covers is less
than what `vring_init` places, so a used index behind the zeroed range keeps its old contents.
-/
import RpmsgLite.Init.Layout

namespace RpmsgLite

open MaskArith ByteMem

/-! ## The computed size -/

theorem headerVringSize_eq {n a : Nat} (h0 : 0 < a) (ha : a ≤ 65536) (hn : n ≤ 32768) :
    headerVringSize n a = alignUp (16 * n) a + alignUp (2 * n + 8) a + alignUp (8 * n + 14) a := by
  have h1 := alignUp_le (16 * n) a
  have h2 := alignUp_le (2 * n + 8) a
  have h3 := alignUp_le (8 * n + 14) a
  unfold headerVringSize
  rw [show n * 16 = 16 * n by omega, show 6 + n * 2 + 2 = 2 * n + 8 by omega, show 12 + n * 8 + 2 = 8 * n + 14 by omega,
    roundUp_eq h0 (by omega), roundUp_eq h0 (by omega), roundUp_eq h0 (by omega),
    wrap_of_lt (x := alignUp (16 * n) a + _) (by omega), wrap_of_lt (by omega)]

theorem headerVringSize_zero (n : Nat) : headerVringSize n 0 = 0 := by
  unfold headerVringSize
  rw [roundUp_zero, roundUp_zero, roundUp_zero]
  rfl

theorem headerVringSize_bounds {n a : Nat} (h0 : 0 < a) (ha : a ≤ 65536) (hn : n ≤ 32768) :
    26 * n + 22 ≤ headerVringSize n a ∧ headerVringSize n a ≤ 26 * n + 22 + 3 * 65535 ∧ 2 ∣ headerVringSize n a := by
  have l1 := le_alignUp (16 * n) a
  have l2 := le_alignUp (2 * n + 8) a
  have l3 := le_alignUp (8 * n + 14) a
  have u1 := alignUp_le (16 * n) a
  have u2 := alignUp_le (2 * n + 8) a
  have u3 := alignUp_le (8 * n + 14) a
  have e1 := two_dvd_alignUp (x := 16 * n) (by omega) a
  have e2 := two_dvd_alignUp (x := 2 * n + 8) (by omega) a
  have e3 := two_dvd_alignUp (x := 8 * n + 14) (by omega) a
  rw [headerVringSize_eq h0 ha hn]
  omega

/-- The computed size has room for the tables at every even base: the exact fit is 26 * n + 22 bytes at
alignment 16. -/
theorem headerVring_fits {n j k b : Nat} (hn : n = 2 ^ j) (hb : 2 ∣ b) :
    alignUp (b + 18 * n + 4) (2 ^ k) + 8 * n + 4 ≤
      b + (alignUp (16 * n) (2 ^ k) + alignUp (2 * n + 8) (2 ^ k) + alignUp (8 * n + 14) (2 ^ k)) := by
  have l1 := le_alignUp (16 * n) (2 ^ k)
  have l2 := le_alignUp (2 * n + 8) (2 ^ k)
  have l3 := le_alignUp (8 * n + 14) (2 ^ k)
  have hup := alignUp_le_of_even (x := b + 18 * n + 4) (k := k) (by omega)
  have hpos : 0 < n := hn ▸ Nat.two_pow_pos j
  rcases Nat.lt_or_ge k 5 with hk | hk
  · have : 2 ^ k ≤ 2 ^ 4 := Nat.pow_le_pow_right (by decide) (by omega)
    omega
  have h32 : 2 ^ 5 ≤ 2 ^ k := Nat.pow_le_pow_right (by decide) hk
  rcases Nat.lt_or_ge (j + 3) k with hlt | hge
  · -- all three tables fit one alignment unit
    have h16 : 16 * n ≤ 2 ^ k := by
      have : 2 ^ (j + 4) ≤ 2 ^ k := Nat.pow_le_pow_right (by decide) (by omega)
      rw [pow_add, ← hn] at this; omega
    have g1 := two_pow_le_alignUp (x := 16 * n) (k := k) (by omega)
    have g2 := two_pow_le_alignUp (x := 2 * n + 8) (k := k) (by omega)
    have g3 := two_pow_le_alignUp (x := 8 * n + 14) (k := k) (by omega)
    omega
  · -- the used table is rounded up by a whole unit
    have hd : 2 ^ k ∣ 8 * n := by
      rw [hn, show 8 * 2 ^ j = 2 ^ (j + 3) by rw [pow_add]; omega]
      exact Nat.pow_dvd_pow 2 hge
    have g3 := two_pow_le_alignUp (x := 14) (k := k) (by omega)
    rw [alignUp_add_of_dvd hd] at l3 ⊢
    omega

/-- What `vring_size` promises, and so what is zeroed, fits as well. -/
theorem headerVring_zeroed {n k : Nat} : alignUp (18 * n + 8) (2 ^ k) + 8 * n + 14 ≤
    alignUp (16 * n) (2 ^ k) + alignUp (2 * n + 8) (2 ^ k) + alignUp (8 * n + 14) (2 ^ k) := by
  have h1 := alignUp_add_le (16 * n) (2 * n + 8) k
  have h2 := le_alignUp (8 * n + 14) (2 ^ k)
  rw [show 16 * n + (2 * n + 8) = 18 * n + 8 by omega] at h1
  omega

/-! ## The parameters of a computed header -/

section

variable {c : BuildConfig} {addr : Nat}

theorem BuildConfig.isSize (c : BuildConfig) : FreeRing.IsSize c.bufferCount :=
  FreeRing.isSize_of_and c.count_ne c.count_le c.count_and

theorem BuildConfig.params_count (w : Nat) (c : BuildConfig) : (c.params w).count.toNat = c.bufferCount :=
  UInt16.toNat_ofNat_of_lt' (by have := c.isSize.le; simp only [UInt16.size]; omega)

/-- The shared memory that a compile-time configuration needs from the aligned address on. -/
def BuildConfig.span (c : BuildConfig) : Nat := 2 * c.vringSize + rlBufferSize 32 c.payloadSize * (2 * c.bufferCount)

/-- Where a computed header places its vrings and its buffers. -/
theorem header_bases (addr : Nat) (hv : c.vringSize = headerVringSize c.bufferCount c.vringAlign) (ha : 0 < c.vringAlign)
    (htop : wordUp addr + 2 * c.vringSize < 2 ^ 32) :
    vringBase 32 (c.params 32) addr 0 = wordUp addr ∧
    vringBase 32 (c.params 32) addr 1 = wordUp addr + c.vringSize ∧
    shMemBase 32 (c.params 32) addr = wordUp addr + 2 * c.vringSize := by
  obtain ⟨-, hup, heven⟩ := headerVringSize_bounds ha c.align_le c.count_le
  rw [← hv] at hup heven
  have hcount := c.count_le
  simp only [RL_MAX_BUFFER_COUNT] at hcount
  obtain ⟨h0, h1⟩ := vringBase_eq (w := 32) (c.params 32) addr (by decide)
    (by simp only [BuildConfig.params]; omega)
  refine ⟨h0, h1, ?_⟩
  unfold shMemBase
  rw [show (c.params 32).overhead = wrap 32 (2 * c.vringSize) from rfl, wrap_of_lt (x := 2 * c.vringSize) (by omega),
    rlWordAlignUp_of_lt (by decide) (by unfold wordUp at htop; omega)]
  unfold wordUp
  omega

/-- For a power-of-two alignment the computed sizes lay everything out apart. -/
theorem header_layoutOk {k : Nat} (hv : c.vringSize = headerVringSize c.bufferCount c.vringAlign)
    (hk : c.vringAlign = 2 ^ k) (hpay : c.payloadSize + 19 < 2 ^ 32) (htop : wordUp addr + c.span ≤ 2 ^ 32) :
    LayoutOk 32 (c.params 32) addr := by
  have ha : 0 < c.vringAlign := hk ▸ Nat.two_pow_pos k
  have hcount := c.params_count 32
  have hale := c.align_le
  have hcle := c.count_le
  simp only [RL_MAX_VRING_ALIGN] at hale
  simp only [RL_MAX_BUFFER_COUNT] at hcle
  obtain ⟨hlo, hhi, heven⟩ := headerVringSize_bounds ha hale hcle
  rw [← hv] at hlo hhi heven
  have hsize := rlBufferSize_of_lt hpay
  have hsz16 : 16 ≤ rlBufferSize 32 c.payloadSize := by rw [hsize]; unfold wordUp; omega
  have hprod : 16 * (2 * c.bufferCount) ≤ rlBufferSize 32 c.payloadSize * (2 * c.bufferCount) :=
    Nat.mul_le_mul_right _ hsz16
  have hpos := c.isSize.pos
  unfold BuildConfig.span at htop
  obtain ⟨hb0, hb1, hbase⟩ := header_bases addr hv ha (by omega)
  obtain ⟨j, hj⟩ := c.isSize.two_pow
  have hwe : 2 ∣ wordUp addr := by unfold wordUp; omega
  have fit0 := headerVring_fits (k := k) (b := wordUp addr) hj hwe
  have fit1 := headerVring_fits (k := k) (b := wordUp addr + c.vringSize) hj (by omega)
  rw [← hk, ← headerVringSize_eq ha hale hcle, ← hv] at fit0 fit1
  have hlow : ∀ x, alignUp x c.vringAlign < 2 ^ 32 → x + (c.vringAlign - 1) < 2 ^ 32 := fun _ =>
    lt_of_alignUp_lt ha (by omega)
  have hu0 := vringOf_used 32 (c.params 32) addr 0 ha
    (by rw [hb0, hcount]; exact hlow _ (by omega))
  have hu1 := vringOf_used 32 (c.params 32) addr 1 ha
    (by rw [hb1, hcount]; exact hlow _ (by omega))
  have hali : (c.params 32).align = c.vringAlign := rfl
  rw [hb0, hcount, hali] at hu0
  rw [hb1, hcount, hali] at hu1
  have l0 := le_alignUp (wordUp addr + 18 * c.bufferCount + 4) c.vringAlign
  have l1 := le_alignUp (wordUp addr + c.vringSize + 18 * c.bufferCount + 4) c.vringAlign
  have hS : (c.params 32).bufferSize = rlBufferSize 32 c.payloadSize := rfl
  refine ⟨vringOf_laid (hcount ▸ c.isSize) ?_, vringOf_laid (hcount ▸ c.isSize) ?_, ?_, ?_, Or.inl ?_, ?_, hS ▸ hsz16,
    zeroedSize_ge (by decide) ha hale⟩
  · rw [vringOf_availEnd, hb0, hu0, hcount]; exact l0
  · rw [vringOf_availEnd, hb1, hu1, hcount]; exact l1
  · rw [vringOf_usedEnd, vringOf_desc, hb1, hu0, hcount]; omega
  · rw [vringOf_usedEnd, hbase, hu0, hcount]; omega
  · rw [vringOf_usedEnd, hbase, hu1, hcount]; omega
  · rw [hbase, hcount, hS, show c.bufferCount + c.bufferCount = 2 * c.bufferCount by omega]; omega

/-! ## The initial state -/

/-- With a computed vring size and a power-of-two alignment the master's layout has no overlap. It leaves
the protocol's initial state exactly when each used index lies in the zeroed range or was zero before:
`vring_size` does not know how far the absolute address makes `vring_init` round. -/
theorem masterInit_header {k : Nat} {env : InitEnv} {highestLinkId linkId : UInt32} {length : Nat}
    {m m' : ByteMem} {dev : RpmsgLiteInstance}
    (hv : c.vringSize = headerVringSize c.bufferCount c.vringAlign) (hk : c.vringAlign = 2 ^ k)
    (hpay : c.payloadSize + 19 < 2 ^ 32) (htop : wordUp addr + c.span ≤ 2 ^ 32)
    (h : rpmsgLiteMasterInit 32 env highestLinkId (.build c) addr length linkId m = .instance dev m') :
    (Disjoint dev.rvq.ring dev.tvq.ring (zeroedSize 32 (c.params 32)) dev.shMemBase (rlBufferSize 32 c.payloadSize)
        (2 * c.bufferCount) ∧
      ProtocolInit dev c.bufferCount (rlBufferSize 32 c.payloadSize) m') ↔
    UsedCleared m (vringOf 32 (c.params 32) addr 0) (zeroedSize 32 (c.params 32)) ∧
      UsedCleared m (vringOf 32 (c.params 32) addr 1) (zeroedSize 32 (c.params 32)) := by
  obtain ⟨p, count, hrun⟩ := masterInit_run h
  have hp : p = c.params 32 := by
    have := hrun.params
    simp only [masterParams, Option.some.injEq] at this
    exact this.symm
  subst hp
  have hl := header_layoutOk hv hk hpay htop
  have hcnt := c.params_count 32
  have hwrap : wrap 32 count = count := wrap_of_lt (calc_lt hrun.calc_eq)
  have hshape := hrun.shape
  obtain ⟨z0, z1, hmem, h0, h1⟩ := hrun.mem hl (by rw [hwrap]; have := hrun.enough; omega)
  have hproto := hmem.protocol_iff hshape
  rw [hcnt] at hproto
  rw [← h0, ← h1, ← hproto]
  refine ⟨And.right, fun hpr => ⟨?_, hpr⟩⟩
  rw [hshape.rvq_ring.1, hshape.tvq_ring.1, hshape.base, ← hcnt]
  -- the zeroed ranges fit as well
  have ha : 0 < c.vringAlign := hk ▸ Nat.two_pow_pos k
  have hz := headerVring_zeroed (n := c.bufferCount) (k := k)
  rw [← hk, ← headerVringSize_eq ha c.align_le c.count_le, ← hv] at hz
  have hzs := zeroedSize_eq (w := 32) (p := c.params 32) (by decide) ha c.align_le
  rw [hcnt, show (c.params 32).align = c.vringAlign from rfl] at hzs
  have hpos := c.isSize.pos
  have hsz := hl.size_ge
  have hprod : 16 * (2 * c.bufferCount) ≤ rlBufferSize 32 c.payloadSize * (2 * c.bufferCount) :=
    Nat.mul_le_mul_right _ hsz
  unfold BuildConfig.span at htop
  obtain ⟨hb0, hb1, hbase⟩ := header_bases addr hv ha (by omega)
  refine hl.disjoint (by omega) (by omega) (hl.bufs1.resolve_right ?_)
  rw [vringOf_desc, hb1, hbase, hcnt]
  omega

/-- Two buffers with a computed vring size. -/
def headerTwo (align : Nat) (h : align ≤ RL_MAX_VRING_ALIGN) (hv : headerVringSize 2 align < 2 ^ 32) : BuildConfig where
  bufferCount := 2
  payloadSize := 16
  vringAlign := align
  vringSize := headerVringSize 2 align
  count_ne := count_two_ne
  count_and := count_two_and
  count_le := count_two_le
  align_le := h
  payload_pos := payload_16_pos
  payload_lt := payload_16_lt
  vringSize_lt := hv

/-- Over cleared memory the initial state is the protocol's, here at alignment 64 and an address that is
28 modulo 64. -/
theorem masterInit_header_cleared : ∃ dev m',
    rpmsgLiteMasterInit 32 InitEnv.ok 0 (.build (headerTwo 64 (by decide) (by decide))) 4124 512 0 (fun _ => 0) =
      .instance dev m' ∧
    Disjoint dev.rvq.ring dev.tvq.ring 94 dev.shMemBase 32 4 ∧ ProtocolInit dev 2 32 m' := by
  obtain ⟨dev, m', h, -⟩ := InitResult.of_check (t := fun _ _ => true)
    (r := rpmsgLiteMasterInit 32 InitEnv.ok 0 (.build (headerTwo 64 (by decide) (by decide))) 4124 512 0 (fun _ => 0))
    (by decide +kernel)
  exact ⟨dev, m', h, (masterInit_header (k := 6) rfl rfl (by decide) (by decide) h).2
    ⟨fun _ _ _ => Or.inr rfl, fun _ _ _ => Or.inr rfl⟩⟩

/-- Over memory that was not cleared the same configuration keeps the garbage in the used indices. -/
theorem masterInit_header_garbage : ∃ dev m',
    rpmsgLiteMasterInit 32 InitEnv.ok 0 (.build (headerTwo 64 (by decide) (by decide))) 4124 512 0 (fun _ => 0xFF) =
      .instance dev m' ∧
    ¬ (Disjoint dev.rvq.ring dev.tvq.ring 94 dev.shMemBase 32 4 ∧ ProtocolInit dev 2 32 m') := by
  obtain ⟨dev, m', h, ht⟩ := InitResult.of_check
    (t := fun dev m' => m'.ld16 dev.rvq.ring.usedIdxAt ≠ 0 && m'.ld16 dev.tvq.ring.usedIdxAt ≠ 2)
    (r := rpmsgLiteMasterInit 32 InitEnv.ok 0 (.build (headerTwo 64 (by decide) (by decide))) 4124 512 0 (fun _ => 0xFF))
    (by decide +kernel)
  refine ⟨dev, m', h, fun hp => ?_⟩
  have h0 := hp.2.rvqUsedIdx
  simp [h0] at ht

/-! ## Staying inside the caller's memory -/

/-- Everything the instance writes lies in `[lo, hi)`: the tables of the vrings, the ranges zeroed for
them, the buffers, and every message the send functions accept. -/
structure StaysInside (dev : RpmsgLiteInstance) (zeroed size payload n lo hi : Nat) : Prop where
  tables : ∀ vr ∈ [dev.rvq.ring, dev.tvq.ring], vr.Inside lo hi
  zeroing : ∀ vr ∈ [dev.rvq.ring, dev.tvq.ring], vr.desc + zeroed ≤ hi
  buffers : ∀ i < n, lo ≤ bufferAt dev.shMemBase size i ∧ bufferAt dev.shMemBase size i + size ≤ hi
  traffic : ∀ i < n, ∀ len ≤ payload, bufferAt dev.shMemBase size i + 16 + len ≤ hi

/-- When a compile-time configuration with a computed vring size fits `[addr, addr + length)`: the
alignment is not zero, the buffer size does not wrap, there is room for the padding of an unaligned
address, and for an alignment that is no power of two the rounded tables and the zeroing fit as well. -/
structure HeaderFits (c : BuildConfig) (addr length : Nat) : Prop where
  align_pos : 0 < c.vringAlign
  payload : c.payloadSize + 19 < 2 ^ 32
  padding : wordUp addr + c.span ≤ addr + length
  tables : ∀ b ∈ [wordUp addr, wordUp addr + c.vringSize],
    alignUp (b + 18 * c.bufferCount + 4) c.vringAlign + 8 * c.bufferCount + 4 ≤ addr + length
  zeroing : wordUp addr + c.vringSize + (alignUp (18 * c.bufferCount + 8) c.vringAlign + 8 * c.bufferCount + 14) ≤
    addr + length

/-- For a power-of-two alignment the padding decides. -/
theorem headerFits_iff {k length : Nat} (hv : c.vringSize = headerVringSize c.bufferCount c.vringAlign)
    (hk : c.vringAlign = 2 ^ k) : HeaderFits c addr length ↔
      c.payloadSize + 19 < 2 ^ 32 ∧ wordUp addr + c.span ≤ addr + length := by
  have ha : 0 < c.vringAlign := hk ▸ Nat.two_pow_pos k
  obtain ⟨j, hj⟩ := c.isSize.two_pow
  obtain ⟨-, -, heven⟩ := headerVringSize_bounds ha c.align_le c.count_le
  have hwe : 2 ∣ wordUp addr := by unfold wordUp; omega
  have fit0 := headerVring_fits (k := k) (b := wordUp addr) hj hwe
  have fit1 := headerVring_fits (k := k) (b := wordUp addr + c.vringSize) hj (by omega)
  have hz := headerVring_zeroed (n := c.bufferCount) (k := k)
  rw [← hk, ← headerVringSize_eq ha c.align_le c.count_le, ← hv] at fit0 fit1 hz
  refine ⟨fun h => ⟨h.payload, h.padding⟩, fun ⟨hp, hpad⟩ => ⟨ha, hp, hpad, ?_, ?_⟩⟩
  · intro b hb
    unfold BuildConfig.span at hpad
    rcases List.mem_cons.1 hb with rfl | hb
    · omega
    · rw [List.mem_singleton.1 hb]; omega
  · unfold BuildConfig.span at hpad
    omega

/-- What an accepted length is known to hold. -/
theorem accepted_room {env : InitEnv} {length count : Nat} {linkId : UInt32} {m m' : ByteMem}
    {dev : RpmsgLiteInstance} (hlen : addr + length ≤ 2 ^ 32) (hv2 : 2 * c.vringSize < 2 ^ 32)
    (h : MasterRun 32 env (.build c) addr length linkId m (c.params 32) count dev m') :
    2 * c.vringSize ≤ length ∧ 0 < rlBufferSize 32 c.payloadSize ∧
      wordUp addr + 2 * c.vringSize < 2 ^ 32 ∧
      2 * c.vringSize + rlBufferSize 32 c.payloadSize * (2 * c.bufferCount) ≤ length := by
  have hne := h.addr_ne
  have henough := h.enough
  rw [c.params_count] at henough
  have hpos := c.isSize.pos
  have hcalc := h.calc_eq
  rw [show (c.params 32).overhead = 2 * c.vringSize from wrap_of_lt hv2,
    show (c.params 32).bufferSize = rlBufferSize 32 c.payloadSize from rfl] at hcalc
  obtain ⟨h1, h2, h3⟩ := calc_fits (by decide) (by omega) (by omega) hcalc henough
  have hdvd := four_dvd_rlBufferSize c.payloadSize
  have h4 : 4 * (2 * c.bufferCount) ≤ rlBufferSize 32 c.payloadSize * (2 * c.bufferCount) :=
    Nat.mul_le_mul_right _ (by omega)
  refine ⟨h1, h2, ?_, by omega⟩
  unfold wordUp; omega

/-- A vring whose used ring lies at or after the caller's memory was placed without wrapping. -/
theorem used_of_inside (ha : c.vringAlign ≤ 65536) {idx lo hi : Nat} (h0 : 0 < lo) (hhi : hi ≤ 2 ^ 32)
    (hb : vringBase 32 (c.params 32) addr idx ≤ lo + 2 ^ 22)
    (hin : (vringOf 32 (c.params 32) addr idx).Inside lo hi) :
    0 < c.vringAlign ∧ (vringOf 32 (c.params 32) addr idx).used =
      alignUp (vringBase 32 (c.params 32) addr idx + 18 * c.bufferCount + 4) c.vringAlign := by
  have hcnt := c.params_count 32
  have hcle := c.count_le
  simp only [RL_MAX_BUFFER_COUNT] at hcle
  obtain ⟨-, ⟨-, havail⟩, ⟨hlo, -⟩⟩ := hin
  rw [vringOf_availEnd, hcnt] at havail
  have hu : (vringOf 32 (c.params 32) addr idx).used =
      roundUp 32 (vringBase 32 (c.params 32) addr idx + 18 * c.bufferCount + 4) c.vringAlign := by
    simp only [vringOf, vringInit, hcnt]
    rw [show (c.params 32).align = c.vringAlign from rfl]
    congr 1; omega
  have hpos : 0 < c.vringAlign := by
    by_contra hz
    rw [show c.vringAlign = 0 by omega, roundUp_zero] at hu
    omega
  refine ⟨hpos, ?_⟩
  rw [hu]
  refine roundUp_eq hpos ?_
  by_contra hge
  have := roundUp_le_of_wrap hpos (w := 32) (by omega) (by omega) (Nat.le_of_not_lt hge)
  omega

/-- The master stays inside the caller's memory exactly when the configuration fits it, padding
included: the size check subtracts the overhead from the unaligned length only. -/
theorem masterInit_stays_inside {env : InitEnv} {highestLinkId linkId : UInt32} {length : Nat}
    {m m' : ByteMem} {dev : RpmsgLiteInstance}
    (hv : c.vringSize = headerVringSize c.bufferCount c.vringAlign) (hlen : addr + length ≤ 2 ^ 32)
    (h : rpmsgLiteMasterInit 32 env highestLinkId (.build c) addr length linkId m = .instance dev m') :
    StaysInside dev (zeroedSize 32 (c.params 32)) (rlBufferSize 32 c.payloadSize) c.payloadSize (2 * c.bufferCount)
      addr (addr + length) ↔ HeaderFits c addr length := by
  obtain ⟨p, count, hrun⟩ := masterInit_run h
  have hp : p = c.params 32 := by
    have := hrun.params
    simp only [masterParams, Option.some.injEq] at this
    exact this.symm
  subst hp
  have hshape := hrun.shape
  have hale := c.align_le
  have hcle := c.count_le
  simp only [RL_MAX_VRING_ALIGN] at hale
  simp only [RL_MAX_BUFFER_COUNT] at hcle
  have hne := hrun.addr_ne
  have hpos := c.isSize.pos
  have hcnt := c.params_count 32
  have hvle : c.vringSize ≤ 2 ^ 21 := by
    rw [hv]
    rcases Nat.eq_zero_or_pos c.vringAlign with hz | hz
    · rw [hz, headerVringSize_zero]; omega
    · have := (headerVringSize_bounds hz hale hcle).2.1; omega
  obtain ⟨-, -, htop, hroom⟩ := accepted_room hlen (by omega) hrun
  obtain ⟨hb0, hb1⟩ := vringBase_eq (w := 32) (c.params 32) addr (by decide)
    (by simp only [BuildConfig.params]; omega)
  rw [show (c.params 32).vringSize = c.vringSize from rfl] at hb1
  have hwu : addr ≤ wordUp addr ∧ wordUp addr ≤ addr + 3 := by unfold wordUp; omega
  have hr0 := hshape.rvq_ring.1
  have hr1 := hshape.tvq_ring.1
  constructor
  · intro hs
    have hin0 := hs.tables dev.rvq.ring List.mem_cons_self
    have hin1 := hs.tables dev.tvq.ring (List.mem_cons_of_mem _ List.mem_cons_self)
    have hz1 := hs.zeroing dev.tvq.ring (List.mem_cons_of_mem _ List.mem_cons_self)
    have hbuf := (hs.buffers (2 * c.bufferCount - 1) (by omega)).2
    have htr := hs.traffic 0 (by omega) c.payloadSize le_rfl
    rw [hr0] at hin0
    rw [hr1] at hin1 hz1
    rw [hshape.base] at hbuf htr
    obtain ⟨ha, hu0⟩ := used_of_inside hale (by omega) hlen (by omega) hin0
    obtain ⟨-, hu1⟩ := used_of_inside hale (by omega) hlen (by omega) hin1
    obtain ⟨hlo, -, -⟩ := headerVringSize_bounds ha hale hcle
    rw [← hv] at hlo
    obtain ⟨-, -, hbase⟩ := header_bases addr hv ha htop
    rw [hbase] at hbuf htr
    have hend0 := hin0.used.2
    have hend1 := hin1.used.2
    rw [vringOf_usedEnd, hu0, hb0, hcnt] at hend0
    rw [vringOf_usedEnd, hu1, hb1, hcnt] at hend1
    rw [vringOf_desc, hb1, zeroedSize_eq (by decide) ha hale, hcnt] at hz1
    unfold bufferAt at hbuf htr
    rw [Nat.mul_zero] at htr
    rw [Nat.add_assoc, ← Nat.mul_succ, show Nat.succ (2 * c.bufferCount - 1) = 2 * c.bufferCount by omega] at hbuf
    refine ⟨ha, by omega, by unfold BuildConfig.span; omega, ?_, by exact hz1⟩
    intro b hb
    rcases List.mem_cons.1 hb with rfl | hb
    · omega
    · rw [List.mem_singleton.1 hb]; omega
  · intro hf
    have ha := hf.align_pos
    have hpay := hf.payload
    have hpad := hf.padding
    unfold BuildConfig.span at hpad
    obtain ⟨-, -, hbase⟩ := header_bases addr hv ha htop
    have ht0 := hf.tables _ List.mem_cons_self
    have ht1 := hf.tables _ (List.mem_cons_of_mem _ List.mem_cons_self)
    have hz1 := hf.zeroing
    have hu0 := vringOf_used 32 (c.params 32) addr 0 ha
      (by
        rw [hb0, hcnt]
        exact lt_of_alignUp_lt ha (by change c.vringAlign ≤ _; omega) (by change alignUp _ c.vringAlign < _; omega))
    have hu1 := vringOf_used 32 (c.params 32) addr 1 ha
      (by
        rw [hb1, hcnt]
        exact lt_of_alignUp_lt ha (by change c.vringAlign ≤ _; omega) (by change alignUp _ c.vringAlign < _; omega))
    rw [hb0, hcnt, show (c.params 32).align = c.vringAlign from rfl] at hu0
    rw [hb1, hcnt, show (c.params 32).align = c.vringAlign from rfl] at hu1
    have l0 := le_alignUp (wordUp addr + 18 * c.bufferCount + 4) c.vringAlign
    have l1 := le_alignUp (wordUp addr + c.vringSize + 18 * c.bufferCount + 4) c.vringAlign
    have hsize := rlBufferSize_of_lt hpay
    have hin0 : (vringOf 32 (c.params 32) addr 0).Inside addr (addr + length) :=
      vringOf_inside (by rw [hb0, hu0, hcnt]; rfl) (by omega) (by rw [hu0, hcnt]; exact ht0)
    have hin1 : (vringOf 32 (c.params 32) addr 1).Inside addr (addr + length) :=
      vringOf_inside (by rw [hb1, hu1, hcnt]; rfl) (by omega) (by rw [hu1, hcnt]; exact ht1)
    have hzs : zeroedSize 32 (c.params 32) = alignUp (18 * c.bufferCount + 8) c.vringAlign + 8 * c.bufferCount + 14 := by
      rw [zeroedSize_eq (by decide) ha hale, hcnt]; rfl
    refine ⟨?_, ?_, ?_, ?_⟩
    · intro vr hvr
      rcases List.mem_cons.1 hvr with rfl | hvr
      · rw [hr0]; exact hin0
      · rw [List.mem_singleton.1 hvr, hr1]; exact hin1
    · intro vr hvr
      rw [hzs]
      rcases List.mem_cons.1 hvr with rfl | hvr
      · rw [hr0, vringOf_desc, hb0]; omega
      · rw [List.mem_singleton.1 hvr, hr1, vringOf_desc, hb1]; exact hz1
    · intro i hi
      have hle := bufferAt_le (wordUp addr + 2 * c.vringSize) (rlBufferSize 32 c.payloadSize) hi
      rw [hshape.base, hbase]
      unfold bufferAt at hle ⊢
      omega
    · intro i hi len hlen'
      have hle := bufferAt_le (wordUp addr + 2 * c.vringSize) (rlBufferSize 32 c.payloadSize) hi
      have hholds := (rlBufferSize_holds_iff c.payload_lt).2 hpay
      rw [hshape.base, hbase]
      omega

/-- At a word-aligned address the accepted length is enough. -/
theorem masterInit_aligned_inside : ∃ dev m',
    rpmsgLiteMasterInit 32 InitEnv.ok 0 (.build (headerTwo 16 (by decide) (by decide))) 4096 288 0 (fun _ => 0) =
      .instance dev m' ∧ StaysInside dev 78 32 16 4 4096 (4096 + 288) := by
  obtain ⟨dev, m', h, -⟩ := InitResult.of_check (t := fun _ _ => true)
    (r := rpmsgLiteMasterInit 32 InitEnv.ok 0 (.build (headerTwo 16 (by decide) (by decide))) 4096 288 0 (fun _ => 0))
    (by decide +kernel)
  exact ⟨dev, m', h, (masterInit_stays_inside rfl (by decide) h).2 ((headerFits_iff (k := 4) rfl rfl).2 (by decide))⟩

/-- One byte further the same length is accepted and the last buffer ends three bytes behind the memory. -/
theorem masterInit_unaligned_overruns : ∃ dev m',
    rpmsgLiteMasterInit 32 InitEnv.ok 0 (.build (headerTwo 16 (by decide) (by decide))) 4097 288 0 (fun _ => 0) =
      .instance dev m' ∧ ¬ StaysInside dev 78 32 16 4 4097 (4097 + 288) := by
  obtain ⟨dev, m', h, ht⟩ := InitResult.of_check (t := fun dev _ => dev.shMemBase == 4260)
    (r := rpmsgLiteMasterInit 32 InitEnv.ok 0 (.build (headerTwo 16 (by decide) (by decide))) 4097 288 0 (fun _ => 0))
    (by decide +kernel)
  refine ⟨dev, m', h, fun hs => ?_⟩
  have hbuf := (hs.buffers 3 (by decide)).2
  rw [eq_of_beq ht] at hbuf
  exact absurd hbuf (by decide)

end

end RpmsgLite
