/-
The configuration that the application core of kw47b42 leaves in shared memory for the other core, with an identifier
before it and a CRC behind. The bit loop of the CRC is a polynomial division, so the other core takes the configuration as
it was written and falls back to its default when the identifier or a short run of bits is damaged.
-/
import RpmsgLite.Init.Setup
import RpmsgLite.Lib.Crc

namespace RpmsgLite

open ByteMem Polynomial

/-- Generator for CRC calculations. -/
def POLGEN : UInt16 := 0x1021

def RL_PLATFORM_SHMEM_CFG_IDENTIFIER_LENGTH : Nat := 12

def ShmemConfigIdentifier : List UInt8 := "SMEM_CONFIG:".toList.map fun ch => UInt8.ofNat ch.toNat

/-! ## `rpmsg_platform_shmem_config_protected_t` -/

/-- `sizeof`, with two bytes of padding behind `buffer_count` and two at the end. -/
def protectedSize : Nat := 32

/-- `&protec_shmem_struct->config` -/
def configAt (s : Nat) : Nat := s + RL_PLATFORM_SHMEM_CFG_IDENTIFIER_LENGTH

/-- `&protec_shmem_struct->shmemConfigCrc` -/
def shmemConfigCrcAt (s : Nat) : Nat := configAt s + 16

def ldShmemConfig (m : ByteMem) (a : Nat) : RpmsgPlatformShmemConfig :=
    ⟨m.ld32 a, m.ld16 (a + 4), m.ld32 (a + 8), m.ld32 (a + 12)⟩

/-! ## The CRC -/

/-- The body of the inner loop. -/
def crcBit (computedCRC : UInt16) : UInt16 :=
  if computedCRC &&& 0x8000 ≠ 0 then (computedCRC <<< 1) ^^^ POLGEN else computedCRC <<< 1

/-- The inner loop. -/
def crcBits : (crcA : Nat) → UInt16 → UInt16
  | 0, computedCRC => computedCRC
  | crcA + 1, computedCRC => crcBits crcA (crcBit computedCRC)

/-- The outer loop. -/
def crcLoop (m : ByteMem) : (ptr len : Nat) → UInt16 → UInt16
  | _, 0, computedCRC => computedCRC
  | ptr, len + 1, computedCRC => crcLoop m (ptr + 1) len (crcBits 8 (computedCRC ^^^ ((m ptr).toUInt16 <<< 8)))

/-- `platform_compute_crc_over_shmem_struct` -/
def platformComputeCrcOverShmemStruct (m : ByteMem) (protecShmemStruct : Nat) : UInt16 :=
  let ptr := configAt protecShmemStruct
  let len := UInt32.ofNat (shmemConfigCrcAt protecShmemStruct) - UInt32.ofNat (configAt protecShmemStruct)
  crcLoop m ptr len.toNat 0

/-! ## The two sides -/

/-- `platform_set_static_shmem_config`. The local structure is at `s` of a stack that holds anything, so its padding is
anything, too. -/
def platformSetStaticShmemConfig (c : BuildConfig) (stack : ByteMem) (s : Nat) (m : ByteMem) (rpmsgShMemStart : Nat) :
    ByteMem :=
  let stack := stack.copy s ShmemConfigIdentifier
  let stack := stack.st32 (configAt s) (UInt32.ofNat c.payloadSize)
  let stack := stack.st16 (configAt s + 4) (UInt16.ofNat c.bufferCount)
  let stack := stack.st32 (configAt s + 8) (UInt32.ofNat c.vringSize)
  let stack := stack.st32 (configAt s + 12) (UInt32.ofNat c.vringAlign)
  let stack := stack.st16 (shmemConfigCrcAt s) (platformComputeCrcOverShmemStruct stack s)
  m.copy rpmsgShMemStart (stack.block s protectedSize)

/-- The variables of the file. -/
structure ShmemStatics where
  firstTime : Bool
  shmemConfig : RpmsgPlatformShmemConfig

/-- Before the first call. -/
def ShmemStatics.start : ShmemStatics := ⟨true, ⟨0, 0, 0, 0⟩⟩

/-- The values of the MR3 connectivity release. -/
def mr3ShmemConfig : RpmsgPlatformShmemConfig := ⟨496, 4, 0x80, 0x10⟩

/-- The loop of `platform_get_custom_shmem_config`, which runs once. -/
def ShmemStatics.get (t : ShmemStatics) (stack : ByteMem) (s : Nat) (m : ByteMem) (rpmsgShMemStart : Nat) : ShmemStatics :=
  let stack := stack.fill s protectedSize 0
  if t.firstTime = false then t
  else
    let stack := stack.copy s (m.block rpmsgShMemStart protectedSize)
    if stack.block s RL_PLATFORM_SHMEM_CFG_IDENTIFIER_LENGTH ≠ ShmemConfigIdentifier then ⟨false, mr3ShmemConfig⟩
    else if platformComputeCrcOverShmemStruct stack s ≠ stack.ld16 (shmemConfigCrcAt s) then ⟨false, mr3ShmemConfig⟩
    else ⟨false, ldShmemConfig stack (configAt s)⟩

/-- `platform_get_custom_shmem_config`: the variables, `*config` and the result. -/
def platformGetCustomShmemConfig (t : ShmemStatics) (stack : ByteMem) (s : Nat) (m : ByteMem) (rpmsgShMemStart : Nat)
    (_linkId : UInt32) : ShmemStatics × RpmsgPlatformShmemConfig × Int :=
  let t := t.get stack s m rpmsgShMemStart
  (t, t.shmemConfig, 0)

/-! ## The loop divides -/

theorem toBitVec_crcBit (crc : UInt16) : (crcBit crc).toBitVec = Crc.shift POLGEN.toBitVec crc.toBitVec := by
  have htop : crc &&& 0x8000 ≠ 0 ↔ crc.toBitVec.msb = true := by
    have hand : (crc &&& 0x8000).toBitVec = if crc.toBitVec.getLsbD 15 then BitVec.twoPow 16 15 else 0#16 :=
      BitVec.and_twoPow crc.toBitVec 15
    rw [BitVec.msb_eq_getLsbD_last, Ne, ← UInt16.toBitVec_inj, hand]
    split
    · rename_i h
      exact ⟨fun _ => h, fun _ => by decide⟩
    · rename_i h
      exact ⟨fun hne => absurd rfl hne, fun h' => absurd h' h⟩
  unfold crcBit Crc.shift
  by_cases h : crc.toBitVec.msb = true
  · rw [if_pos (htop.2 h), if_pos h]
    rfl
  · rw [if_neg (mt htop.1 h), if_neg h]
    rfl

theorem toBitVec_crcBits : ∀ (crcA : Nat) (crc : UInt16),
    (crcBits crcA crc).toBitVec = (Crc.shift POLGEN.toBitVec)^[crcA] crc.toBitVec
  | 0, _ => rfl
  | crcA + 1, crc => by
    rw [crcBits, toBitVec_crcBits crcA, toBitVec_crcBit, Function.iterate_succ_apply]

/-- The bytes at `a`, as words of a message. -/
def wordsAt (m : ByteMem) (a n : Nat) : List (BitVec 8) := (m.block a n).map UInt8.toBitVec

theorem wordsAt_succ (m : ByteMem) (a n : Nat) : wordsAt m a (n + 1) = (m a).toBitVec :: wordsAt m (a + 1) n := by
  unfold wordsAt
  rw [block_succ, List.map_cons]

theorem toBitVec_crcLoop (m : ByteMem) : ∀ (len ptr : Nat) (crc : UInt16),
    (crcLoop m ptr len crc).toBitVec = Crc.run POLGEN.toBitVec crc.toBitVec (wordsAt m ptr len)
  | 0, _, _ => rfl
  | len + 1, ptr, crc => by
    rw [crcLoop, toBitVec_crcLoop m len, toBitVec_crcBits, wordsAt_succ, Crc.run_cons]
    rfl

/-- The 17 bits of the generator. -/
theorem gen_polgen : Crc.gen POLGEN.toBitVec = X ^ 16 + X ^ 12 + X ^ 5 + 1 := by
  have hbits : Crc.poly POLGEN.toBitVec = X ^ 12 + X ^ 5 + 1 := by
    show Crc.ofBits [false, false, false, true, false, false, false, false, false, false, true, false, false, false, false,
      true] = _
    simp [Crc.ofBits, add_assoc]
  rw [Crc.gen, hbits]
  ring

theorem len_eq (s : Nat) : (UInt32.ofNat (shmemConfigCrcAt s) - UInt32.ofNat (configAt s)).toNat = 16 := by
  unfold shmemConfigCrcAt
  rw [UInt32.toNat_sub, UInt32.toNat_ofNat', UInt32.toNat_ofNat']
  omega

theorem toBitVec_computeCrc (m : ByteMem) (a : Nat) : (platformComputeCrcOverShmemStruct m a).toBitVec =
    Crc.run POLGEN.toBitVec 0 (wordsAt m (configAt a) 16) := by
  unfold platformComputeCrcOverShmemStruct
  simp only
  rw [len_eq, toBitVec_crcLoop]
  rfl

/-! ## What is stored and what is taken -/

/-- The numbers of a compile-time configuration. -/
structure BuildConfig.Is (c : BuildConfig) (o : RpmsgPlatformShmemConfig) : Prop where
  payload : o.bufferPayloadSize.toNat = c.payloadSize
  count : o.bufferCount.toNat = c.bufferCount
  size : o.vringSize.toNat = c.vringSize
  align : o.vringAlign.toNat = c.vringAlign

/-- A structure that the other core accepts. -/
def Accepted (m : ByteMem) (a : Nat) : Prop :=
  m.block a RL_PLATFORM_SHMEM_CFG_IDENTIFIER_LENGTH = ShmemConfigIdentifier ∧
    platformComputeCrcOverShmemStruct m a = m.ld16 (shmemConfigCrcAt a)

instance (m : ByteMem) (a : Nat) : Decidable (Accepted m a) := inferInstanceAs (Decidable (_ ∧ _))

section

variable {m m' : ByteMem} {a b : Nat} {c : BuildConfig}

theorem block_config {n : Nat} (h : m'.block b n = m.block a n) (hn : 28 ≤ n) :
    m'.block (configAt b) 16 = m.block (configAt a) 16 := block_sub h hn

theorem ld16_crc {n : Nat} (h : m'.block b n = m.block a n) (hn : 30 ≤ n) :
    m'.ld16 (shmemConfigCrcAt b) = m.ld16 (shmemConfigCrcAt a) := ld16_of_block (block_sub (i := 28) h hn)

theorem computeCrc_of_block (h : m'.block (configAt b) 16 = m.block (configAt a) 16) :
    platformComputeCrcOverShmemStruct m' b = platformComputeCrcOverShmemStruct m a := by
  apply UInt16.toBitVec_inj.1
  rw [toBitVec_computeCrc, toBitVec_computeCrc, wordsAt, wordsAt, h]

/-- All that is read lies in the first 30 bytes. -/
theorem accepted_of_block (h : m'.block b 30 = m.block a 30) : Accepted m' b ↔ Accepted m a := by
  have hid : m'.block b RL_PLATFORM_SHMEM_CFG_IDENTIFIER_LENGTH = m.block a RL_PLATFORM_SHMEM_CFG_IDENTIFIER_LENGTH :=
    block_mono h (by decide)
  unfold Accepted
  rw [hid, ld16_crc h (by decide), computeCrc_of_block (block_config h (by decide))]

theorem ldShmemConfig_of_block (h : m'.block b 16 = m.block a 16) : ldShmemConfig m' b = ldShmemConfig m a := by
  have h0 : m'.ld32 b = m.ld32 a := ld32_of_block (block_mono h (by decide))
  unfold ldShmemConfig
  rw [h0, ld16_of_block (block_sub h (by decide)), ld32_of_block (block_sub h (by decide)),
    ld32_of_block (block_sub h (by decide))]

/-- The first call takes what it accepts, and else the default. -/
theorem get_start (stack : ByteMem) (s : Nat) (m : ByteMem) (a : Nat) (linkId : UInt32) :
    (platformGetCustomShmemConfig .start stack s m a linkId).2.1 =
      if Accepted m a then ldShmemConfig m (configAt a) else mr3ShmemConfig := by
  have hcopy := block_copy_block (stack.fill s protectedSize 0) m s a protectedSize
  have hid : ((stack.fill s protectedSize 0).copy s (m.block a protectedSize)).block s RL_PLATFORM_SHMEM_CFG_IDENTIFIER_LENGTH =
      m.block a RL_PLATFORM_SHMEM_CFG_IDENTIFIER_LENGTH := block_mono hcopy (by decide)
  have hcfg := block_config hcopy (by decide)
  unfold platformGetCustomShmemConfig ShmemStatics.get ShmemStatics.start
  simp only [Bool.true_eq_false, if_false]
  rw [hid, ld16_crc hcopy (by decide), computeCrc_of_block hcfg, ldShmemConfig_of_block hcfg]
  by_cases h1 : m.block a RL_PLATFORM_SHMEM_CFG_IDENTIFIER_LENGTH = ShmemConfigIdentifier
  · rw [if_neg (not_not.2 h1)]
    by_cases h2 : platformComputeCrcOverShmemStruct m a = m.ld16 (shmemConfigCrcAt a)
    · rw [if_neg (not_not.2 h2), if_pos (show Accepted m a from ⟨h1, h2⟩)]
    · rw [if_pos h2, if_neg fun h : Accepted m a => h2 h.2]
  · rw [if_pos h1, if_neg fun h : Accepted m a => h1 h.1]

/-- What `platform_set_static_shmem_config` leaves in shared memory. -/
theorem platformSetStaticShmemConfig_spec (c : BuildConfig) (stack : ByteMem) (s : Nat) (m : ByteMem) (a : Nat) :
    Accepted (platformSetStaticShmemConfig c stack s m a) a ∧
      c.Is (ldShmemConfig (platformSetStaticShmemConfig c stack s m a) (configAt a)) := by
  unfold platformSetStaticShmemConfig
  extract_lets st0 st1 st2 st3 st4 st5
  have hcopy : (m.copy a (st5.block s protectedSize)).block a protectedSize = st5.block s protectedSize :=
    block_copy_block m st5 a s protectedSize
  rw [accepted_of_block (block_mono hcopy (by decide)), ldShmemConfig_of_block (block_config hcopy (by decide))]
  -- each store leaves what was stored before it
  have f5 : Frame st4 st5 (shmemConfigCrcAt s) (shmemConfigCrcAt s + 2) := frame_st16 _ _ _
  have f4 : Frame st3 st5 (configAt s + 12) (shmemConfigCrcAt s + 2) :=
    ((frame_st32 _ _ _).mono le_rfl (by unfold shmemConfigCrcAt; omega)).trans (f5.mono (by unfold shmemConfigCrcAt; omega) le_rfl)
  have f3 : Frame st2 st5 (configAt s + 8) (shmemConfigCrcAt s + 2) :=
    ((frame_st32 _ _ _).mono le_rfl (by unfold shmemConfigCrcAt; omega)).trans (f4.mono (by omega) le_rfl)
  have f2 : Frame st1 st5 (configAt s + 4) (shmemConfigCrcAt s + 2) :=
    ((frame_st16 _ _ _).mono le_rfl (by unfold shmemConfigCrcAt; omega)).trans (f3.mono (by omega) le_rfl)
  have f1 : Frame st0 st5 (configAt s) (shmemConfigCrcAt s + 2) :=
    ((frame_st32 _ _ _).mono le_rfl (by unfold shmemConfigCrcAt; omega)).trans (f2.mono (by omega) le_rfl)
  refine ⟨⟨?_, ?_⟩, ?_, ?_, ?_, ?_⟩
  · rw [block_congr (f1.agree (Or.inl le_rfl))]
    exact block_copy stack s ShmemConfigIdentifier
  · rw [computeCrc_of_block (block_congr (f5.agree (Or.inl le_rfl)))]
    exact (ld16_st16 st4 (shmemConfigCrcAt s) _).symm
  · show (st5.ld32 (configAt s)).toNat = _
    rw [ld32_congr (f2.agree (Or.inl le_rfl)), ld32_st32, UInt32.toNat_ofNat_of_lt' c.payload_lt]
  · show (st5.ld16 (configAt s + 4)).toNat = _
    rw [ld16_congr (f3.agree (Or.inl (by omega))), ld16_st16,
      UInt16.toNat_ofNat_of_lt' (lt_of_le_of_lt c.count_le (by decide))]
  · show (st5.ld32 (configAt s + 8)).toNat = _
    rw [ld32_congr (f4.agree (Or.inl le_rfl)), ld32_st32, UInt32.toNat_ofNat_of_lt' c.vringSize_lt]
  · show (st5.ld32 (configAt s + 12)).toNat = _
    rw [ld32_congr (f5.agree (Or.inl le_rfl)), ld32_st32,
      UInt32.toNat_ofNat_of_lt' (lt_of_le_of_lt c.align_le (by decide))]

/-- A damaged configuration under the old CRC is not accepted. -/
theorem not_accepted_of_burst (h : Accepted m a) (hcrc : Agree m m' (shmemConfigCrcAt a) (shmemConfigCrcAt a + 2))
    (hb : Crc.Burst 16 ((wordsAt m (configAt a) 16).flatMap Crc.bits) ((wordsAt m' (configAt a) 16).flatMap Crc.bits)) :
    ¬ Accepted m' a := by
  intro h'
  have heq : platformComputeCrcOverShmemStruct m a = platformComputeCrcOverShmemStruct m' a := by
    rw [h.2, h'.2, ld16_congr hcrc]
  apply Crc.run_ne_of_burst (g := POLGEN.toBitVec) (by decide) (by decide) hb
  rw [← toBitVec_computeCrc, ← toBitVec_computeCrc, heq]

/-- A remote that takes the configuration from shared memory starts as one that was built with it. -/
theorem BuildConfig.Is.remoteInit_eq {o : RpmsgPlatformShmemConfig} (h : c.Is o) (w : Nat) (env : InitEnv)
    (highestLinkId : UInt32) (addr : Nat) (linkId : UInt32) :
    rpmsgLiteRemoteInit w env highestLinkId (.custom (some o)) addr linkId =
      rpmsgLiteRemoteInit w env highestLinkId (.build c) addr linkId := by
  have hcount : o.bufferCount = UInt16.ofNat c.bufferCount := by rw [← h.count, UInt16.ofNat_toNat]
  have hparams : o.params w = c.params w := by
    unfold RpmsgPlatformShmemConfig.params BuildConfig.params
    rw [h.payload, h.size, h.align, hcount]
  have hpow : o.bufferCount &&& (o.bufferCount - 1) = 0 := by
    have hone : (1 : UInt16) ≤ o.bufferCount := by
      rw [UInt16.le_iff_toNat_le, h.count]
      exact Nat.pos_of_ne_zero c.count_ne
    apply UInt16.toNat_inj.1
    rw [UInt16.toNat_and, UInt16.toNat_sub_of_le _ _ hone, h.count]
    exact c.count_and
  have hpay : ¬ o.bufferPayloadSize ≤ 0 := by
    have := c.payload_pos
    rw [UInt32.le_iff_toNat_le, h.payload]
    show ¬ c.payloadSize ≤ 0
    omega
  have hsame : remoteParams w (.custom (some o)) = remoteParams w (.build c) := by
    show (if o.bufferCount &&& (o.bufferCount - 1) ≠ 0 then none
      else if o.bufferPayloadSize ≤ 0 then none else some (o.params w)) = some (c.params w)
    rw [if_neg (not_not.2 hpow), if_neg hpay, hparams]
  unfold rpmsgLiteRemoteInit
  rw [hsame]

end

/-- The macros of kw47b42 as they are without an application's own. -/
def kw47b42Config : BuildConfig where
  bufferCount := 2
  payloadSize := 496
  vringAlign := 0x10
  vringSize := headerVringSize 2 0x10
  count_ne := count_two_ne
  count_and := count_two_and
  count_le := count_two_le
  align_le := by decide
  payload_pos := by decide
  payload_lt := by decide
  vringSize_lt := by decide

end RpmsgLite
