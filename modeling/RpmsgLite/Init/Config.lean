/-
Shared-memory configurations: the compile-time macros with the preprocessor checks they passed, and
the run-time structure a platform returns per link. Both are reduced to the same numbers
(`ShmemParams`), with the validation of the master and of the remote kept apart: the master also
checks the maximum count and caps the alignment.
-/
import RpmsgLite.Virtio.Virtqueue

namespace RpmsgLite

open MaskArith

def RL_MAX_BUFFER_COUNT : Nat := 32768
def RL_MAX_VRING_ALIGN : Nat := 65536
def RL_WORD_SIZE : Nat := 4

/-- `RL_WORD_ALIGN_UP` and `RL_WORD_ALIGN_DOWN` in `uintptr_t` -/
def rlWordAlignUp (w a : Nat) : Nat := roundUp w a RL_WORD_SIZE
def rlWordAlignDown (w a : Nat) : Nat := roundDown w a RL_WORD_SIZE

/-- `RL_BUFFER_SIZE`: payload and header, rounded up to a word; `+ 16UL` wraps at the width of `long`. -/
def rlBufferSize (w payloadSize : Nat) : Nat := wrap 32 (rlWordAlignUp w (wrap w (payloadSize + 16)))

/-- `RL_CALCULATE_BUFFER_COUNT_DOWN_SAFE`; `none` is a division by zero. -/
def rlCalculateBufferCountDownSafe (w length overhead buffSize : Nat) : Option Nat :=
  if length < overhead then some 0
  else if buffSize = 0 then none
  else some (rlWordAlignDown w (length - overhead) / buffSize)

/-- `RL_GET_VQ_ID` -/
def rlGetVqId (linkId : UInt32) (queueId : Nat) : UInt16 :=
  ((UInt32.ofNat queueId &&& (1 : UInt32)) ||| ((linkId <<< (1 : UInt32)) &&& (0xFFFFFFFE : UInt32))).toUInt16

/-! ## Configurations -/

/-- The compile-time configuration, with the checks of the preprocessor. -/
structure BuildConfig where
  /-- `RL_BUFFER_COUNT` -/
  bufferCount : Nat
  /-- `RL_BUFFER_PAYLOAD_SIZE`, a 32-bit constant -/
  payloadSize : Nat
  vringAlign : Nat
  vringSize : Nat
  count_ne : bufferCount ≠ 0
  count_and : bufferCount &&& (bufferCount - 1) = 0
  count_le : bufferCount ≤ RL_MAX_BUFFER_COUNT
  align_le : vringAlign ≤ RL_MAX_VRING_ALIGN
  payload_pos : 16 < payloadSize + 16
  payload_lt : payloadSize < 2 ^ 32
  vringSize_lt : vringSize < 2 ^ 32

/-- `VRING_SIZE` of the headers that compute it: three separately rounded sizes. -/
def headerVringSize (count align : Nat) : Nat :=
  wrap 32 (wrap 32 (roundUp 32 (count * 16) align + roundUp 32 (6 + count * 2 + 2) align) +
    roundUp 32 (12 + count * 8 + 2) align)

/-! What the checks ask of two buffers, a payload of 16 bytes and an alignment of 64, which configurations share. -/

theorem count_two_ne : (2 : Nat) ≠ 0 := by decide
theorem count_two_and : 2 &&& (2 - 1) = 0 := by decide
theorem count_two_le : 2 ≤ RL_MAX_BUFFER_COUNT := by decide
theorem payload_16_pos : 16 < 16 + 16 := by decide
theorem payload_16_lt : 16 < 2 ^ 32 := by decide
theorem align_64_le : 64 ≤ RL_MAX_VRING_ALIGN := by decide
theorem headerVringSize_two_lt : headerVringSize 2 64 < 2 ^ 32 := by decide

/-- `rpmsg_platform_shmem_config_t` -/
structure RpmsgPlatformShmemConfig where
  bufferPayloadSize : UInt32
  bufferCount : UInt16
  vringSize : UInt32
  vringAlign : UInt32

/-- Where the configuration comes from: the macros, or `platform_get_custom_shmem_config`, which may
fail. -/
inductive ShmemConfig
  | build (c : BuildConfig)
  | custom (c : Option RpmsgPlatformShmemConfig)

/-- The numbers the two init functions compute with. -/
structure ShmemParams where
  count : UInt16
  align : Nat
  vringSize : Nat
  /-- Twice the vring size, in 32 bits. -/
  overhead : Nat
  bufferSize : Nat
deriving DecidableEq

/-! ## Validation -/

def BuildConfig.params (w : Nat) (c : BuildConfig) : ShmemParams where
  count := UInt16.ofNat c.bufferCount
  align := c.vringAlign
  vringSize := c.vringSize
  overhead := wrap 32 (2 * c.vringSize)
  bufferSize := rlBufferSize w c.payloadSize

def RpmsgPlatformShmemConfig.params (w : Nat) (c : RpmsgPlatformShmemConfig) : ShmemParams where
  count := c.bufferCount
  align := c.vringAlign.toNat
  vringSize := c.vringSize.toNat
  overhead := wrap 32 (2 * c.vringSize.toNat)
  bufferSize := rlBufferSize w c.bufferPayloadSize.toNat

/-- The alignment is capped, not rejected. -/
def RpmsgPlatformShmemConfig.capAlign (c : RpmsgPlatformShmemConfig) : RpmsgPlatformShmemConfig :=
  if c.vringAlign.toNat > RL_MAX_VRING_ALIGN then { c with vringAlign := UInt32.ofNat RL_MAX_VRING_ALIGN } else c

@[simp] theorem RpmsgPlatformShmemConfig.capAlign_count (c : RpmsgPlatformShmemConfig) :
    c.capAlign.bufferCount = c.bufferCount := by unfold capAlign; split <;> rfl

@[simp] theorem RpmsgPlatformShmemConfig.capAlign_payload (c : RpmsgPlatformShmemConfig) :
    c.capAlign.bufferPayloadSize = c.bufferPayloadSize := by unfold capAlign; split <;> rfl

@[simp] theorem RpmsgPlatformShmemConfig.capAlign_size (c : RpmsgPlatformShmemConfig) :
    c.capAlign.vringSize = c.vringSize := by unfold capAlign; split <;> rfl

theorem RpmsgPlatformShmemConfig.capAlign_align (c : RpmsgPlatformShmemConfig) :
    c.capAlign.vringAlign.toNat = min c.vringAlign.toNat RL_MAX_VRING_ALIGN := by
  unfold capAlign
  split
  · rename_i h; rw [Nat.min_eq_right h.le]; rfl
  · rename_i h; rw [Nat.min_eq_left (Nat.le_of_not_lt h)]

/-- The custom-configuration checks of `rpmsg_lite_master_init`, in its order; `none` returns NULL. -/
def masterParams (w : Nat) : ShmemConfig → Option ShmemParams
  | .build c => some (c.params w)
  | .custom none => none
  | .custom (some c) =>
    if c.bufferCount.toNat > RL_MAX_BUFFER_COUNT then none
    else if c.capAlign.bufferCount &&& (c.capAlign.bufferCount - 1) ≠ 0 then none
    else if c.capAlign.bufferPayloadSize ≤ 0 then none
    else some (c.capAlign.params w)

/-- The checks of `rpmsg_lite_remote_init`: no maximum count and no cap. -/
def remoteParams (w : Nat) : ShmemConfig → Option ShmemParams
  | .build c => some (c.params w)
  | .custom none => none
  | .custom (some c) =>
    if c.bufferCount &&& (c.bufferCount - 1) ≠ 0 then none
    else if c.bufferPayloadSize ≤ 0 then none
    else some (c.params w)

end RpmsgLite
