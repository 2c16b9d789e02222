/-
How the ThreadX environment turns milliseconds into kernel ticks, with an `unsigned long` of 32 bits.
`env_sleep_msec` scales whole seconds and the rest apart, which cannot wrap; the wait for the link and the
two queue calls multiply first, in 32 bits or in the width of `uintptr_t`.
-/
import RpmsgLite.Lib.EventBits
import RpmsgLite.Link.Timeout

namespace RpmsgLite

namespace Threadx

open EventBits

/-! ## The kernel -/

/-- A call of the kernel; the last argument is a `ULONG` of ticks. -/
inductive KernelCall
  /-- `tx_thread_sleep` -/
  | threadSleep (ticks : UInt32)
  /-- `tx_event_flags_get` on the event group, with `TX_AND` -/
  | eventFlagsGet (requestedFlags waitOption : UInt32)
  /-- `tx_queue_send` -/
  | queueSend (queue source : Nat) (waitOption : UInt32)
  /-- `tx_queue_receive` -/
  | queueReceive (queue destination : Nat) (waitOption : UInt32)
deriving DecidableEq

def KernelCall.ticks : KernelCall → UInt32
  | .threadSleep t => t
  | .eventFlagsGet _ t => t
  | .queueSend _ _ t => t
  | .queueReceive _ _ t => t

/-- What the kernel's calls return. -/
abbrev Kernel := KernelCall → UInt32

def TX_SUCCESS : UInt32 := 0
def TX_WAIT_FOREVER : UInt32 := 0xFFFFFFFF

/-- The calls that a function makes and what it returns. -/
structure Outcome where
  calls : List KernelCall
  ret : UInt32
deriving DecidableEq

/-- One call, and 1 for success. -/
def Kernel.wait (kernel : Kernel) (call : KernelCall) : Outcome :=
  ⟨[call], if kernel call = TX_SUCCESS then 1 else 0⟩

/-! ## The environment's functions -/

section

variable (ticksPerSecond : UInt32) (kernel : Kernel)

/-- `env_sleep_msec` -/
def envSleepMsec (numMsec : UInt32) : KernelCall :=
  .threadSleep (numMsec / 1000 * ticksPerSecond + numMsec % 1000 * ticksPerSecond / 1000)

/-- `env_wait_for_link_up` -/
def envWaitForLinkUp (linkState linkId timeoutMs : UInt32) : Outcome :=
  if linkState ≠ 1 then
    if timeoutMs.toNat = rlBlock 32 then kernel.wait (.eventFlagsGet (bit linkId) TX_WAIT_FOREVER)
    else kernel.wait (.eventFlagsGet (bit linkId) (timeoutMs * ticksPerSecond / 1000))
  else ⟨[], 1⟩

variable {w : Nat}

/-- `(timeout_ms * TX_TIMER_TICKS_PER_SECOND) / 1000UL` on a `uintptr_t`, passed as a `ULONG`. -/
def queueTicks (timeoutMs : BitVec w) : UInt32 :=
  ⟨(timeoutMs * ticksPerSecond.toBitVec.setWidth w / 1000#w).setWidth 32⟩

/-- `env_put_queue` -/
def envPutQueue (queue msg : Nat) (timeoutMs : BitVec w) : Outcome :=
  if timeoutMs.toNat = rlBlock 32 then kernel.wait (.queueSend queue msg TX_WAIT_FOREVER)
  else kernel.wait (.queueSend queue msg (queueTicks ticksPerSecond timeoutMs))

/-- `env_get_queue` -/
def envGetQueue (queue msg : Nat) (timeoutMs : BitVec w) : Outcome :=
  if timeoutMs.toNat = rlBlock 32 then kernel.wait (.queueReceive queue msg TX_WAIT_FOREVER)
  else kernel.wait (.queueReceive queue msg (queueTicks ticksPerSecond timeoutMs))

end

/-- All four functions pass the kernel `n` ticks for `ms` milliseconds. -/
structure Converts (w : Nat) (ticksPerSecond ms : UInt32) (n : Nat) : Prop where
  sleep : (envSleepMsec ticksPerSecond ms).ticks.toNat = n
  link : ∀ kernel linkState linkId, linkState ≠ 1 →
    (envWaitForLinkUp ticksPerSecond kernel linkState linkId ms).calls.map (·.ticks.toNat) = [n]
  put : ∀ kernel queue msg,
    (envPutQueue ticksPerSecond kernel queue msg (ms.toBitVec.setWidth w)).calls.map (·.ticks.toNat) = [n]
  get : ∀ kernel queue msg,
    (envGetQueue ticksPerSecond kernel queue msg (ms.toBitVec.setWidth w)).calls.map (·.ticks.toNat) = [n]

/-! ## What each passes -/

section

variable {w n : Nat} {T ms ms' : UInt32}

/-- At most a thousand ticks a second: no more ticks than milliseconds. -/
theorem scaled_lt (hT : T ≤ 1000) : ms.toNat * T.toNat / 1000 < 2 ^ 32 := by
  have hle : T.toNat ≤ 1000 := UInt32.le_iff_toNat_le.1 hT
  have hmul := Nat.mul_le_mul_left ms.toNat hle
  have hms := ms.toNat_lt
  omega

/-- Sleeping is exact for every time. -/
theorem envSleepMsec_ticks (hT : T ≤ 1000) : (envSleepMsec T ms).ticks.toNat = ms.toNat * T.toNat / 1000 := by
  have hle : T.toNat ≤ 1000 := UInt32.le_iff_toNat_le.1 hT
  have hlt : ms.toNat * T.toNat / 1000 < 2 ^ 32 := scaled_lt hT
  rw [← Ticks.scale_split ms.toNat T.toNat (by decide : 0 < 1000)] at hlt ⊢
  have hsmall : ms.toNat % 1000 * T.toNat < 2 ^ 32 := by
    have := Nat.mul_le_mul (Nat.mod_lt ms.toNat (by decide : 0 < 1000)).le hle
    omega
  show (ms / 1000 * T + ms % 1000 * T / 1000).toNat = _
  simp only [UInt32.toNat_add, UInt32.toNat_mul, UInt32.toNat_div, UInt32.toNat_mod, UInt32.reduceToNat]
  rw [Nat.mod_eq_of_lt hsmall, Nat.mod_eq_of_lt (by omega : ms.toNat / 1000 * T.toNat < 2 ^ 32), Nat.mod_eq_of_lt hlt]

/-- The product of the wait for the link is cut to 32 bits. -/
theorem envWaitForLinkUp_ticks {kernel : Kernel} {linkState linkId : UInt32} (hms : ms.toNat ≠ rlBlock 32)
    (hl : linkState ≠ 1) :
    (envWaitForLinkUp T kernel linkState linkId ms).calls.map (·.ticks.toNat) = [ms.toNat * T.toNat % 2 ^ 32 / 1000] := by
  unfold envWaitForLinkUp
  rw [if_pos hl, if_neg hms]
  show [(ms * T / 1000).toNat] = _
  rw [UInt32.toNat_div, UInt32.toNat_mul]
  rfl

/-- The product of the queue calls fits in a `uintptr_t` when it fits in 32 bits. -/
theorem queueTicks_toNat (hw : 32 ≤ w) (h : ms.toNat * T.toNat < 2 ^ 32) :
    (queueTicks T (ms.toBitVec.setWidth w)).toNat = ms.toNat * T.toNat / 1000 := by
  have hpow : 2 ^ 32 ≤ 2 ^ w := Nat.pow_le_pow_right (by decide) hw
  have hms : ms.toNat < 2 ^ w := ms.toNat_lt.trans_le hpow
  have hT : T.toNat < 2 ^ w := T.toNat_lt.trans_le hpow
  have h1000 : 1000 < 2 ^ w := by omega
  show ((ms.toBitVec.setWidth w * T.toBitVec.setWidth w / 1000#w).setWidth 32).toNat = _
  rw [BitVec.toNat_setWidth, BitVec.toNat_udiv, BitVec.toNat_mul, BitVec.toNat_setWidth, BitVec.toNat_setWidth,
    BitVec.toNat_ofNat, UInt32.toNat_toBitVec, UInt32.toNat_toBitVec, Nat.mod_eq_of_lt hms, Nat.mod_eq_of_lt hT,
    Nat.mod_eq_of_lt h1000, Nat.mod_eq_of_lt (h.trans_le hpow)]
  exact Nat.mod_eq_of_lt ((Nat.div_le_self _ _).trans_lt h)

/-- A time whose product fits is converted alike by all four. -/
theorem converts_of_lt (hw : 32 ≤ w) (hT : T ≤ 1000) (hms : ms.toNat ≠ rlBlock 32) (h : ms.toNat * T.toNat < 2 ^ 32) :
    Converts w T ms (ms.toNat * T.toNat / 1000) := by
  have hpow : 2 ^ 32 ≤ 2 ^ w := Nat.pow_le_pow_right (by decide) hw
  have hblock : (ms.toBitVec.setWidth w).toNat ≠ rlBlock 32 := by
    rwa [BitVec.toNat_setWidth, UInt32.toNat_toBitVec, Nat.mod_eq_of_lt (ms.toNat_lt.trans_le hpow)]
  have hqueue := queueTicks_toNat (T := T) hw h
  refine ⟨envSleepMsec_ticks hT, fun kernel linkState linkId hl => ?_, fun kernel queue msg => ?_, fun kernel queue msg => ?_⟩
  · rw [envWaitForLinkUp_ticks hms hl, Nat.mod_eq_of_lt h]
  · rw [envPutQueue, if_neg hblock]
    exact congrArg (fun n => [n]) hqueue
  · rw [envGetQueue, if_neg hblock]
    exact congrArg (fun n => [n]) hqueue

/-- The four functions pass the exact number of ticks, and no more for any shorter time, exactly when the
product of the time and the tick rate fits in 32 bits. -/
theorem timeouts_convert_iff (hw : 32 ≤ w) (hT : T ≤ 1000) (hms : ms.toNat ≠ rlBlock 32) :
    (Converts w T ms (ms.toNat * T.toNat / 1000) ∧ ∀ ms' ≤ ms, ∃ n ≤ ms.toNat * T.toNat / 1000, Converts w T ms' n) ↔
      ms.toNat * T.toNat < 2 ^ 32 := by
  constructor
  · rintro ⟨hconv, -⟩
    have hlink := hconv.link (fun _ => 0) 0 0 (by decide)
    rw [envWaitForLinkUp_ticks hms (by decide), List.singleton_inj] at hlink
    exact (Ticks.mod_div_eq_iff (by decide) (by decide)).1 hlink
  · intro h
    refine ⟨converts_of_lt hw hT hms h, fun ms' hle => ?_⟩
    have hle' : ms'.toNat ≤ ms.toNat := UInt32.le_iff_toNat_le.1 hle
    have hmul : ms'.toNat * T.toNat ≤ ms.toNat * T.toNat := Nat.mul_le_mul_right _ hle'
    have hms' : ms'.toNat ≠ rlBlock 32 := by
      have hlt := ms.toNat_lt
      unfold rlBlock at hms ⊢
      omega
    exact ⟨_, Nat.div_le_div_right hmul, converts_of_lt hw hT hms' (hmul.trans_lt h)⟩

/-- Two and a half seconds at 100 ticks a second. -/
theorem timeouts_convert_2500 : Converts 32 100 2500 250 :=
  ((timeouts_convert_iff (by decide) (by decide) (by decide)).2 (by decide)).1

/-- About twelve hours at 100 ticks a second: a millisecond more wraps the product, and only the sleep still
lasts that long. -/
theorem timeouts_wrap : (envSleepMsec 100 42949673).ticks = 4294967 ∧
    (envWaitForLinkUp 100 (fun _ => 0) 0 0 42949672).calls = [.eventFlagsGet 1 4294967] ∧
    (envWaitForLinkUp 100 (fun _ => 0) 0 0 42949673).calls = [.eventFlagsGet 1 0] ∧
    (envPutQueue 100 (fun _ => 0) 1 2 42949673#32).calls = [.queueSend 1 2 0] ∧
    (envGetQueue 100 (fun _ => 0) 1 2 42949673#32).calls = [.queueReceive 1 2 0] ∧
    ¬ Converts 32 100 42949673 (42949673 * 100 / 1000) := by
  refine ⟨by decide, by decide, by decide, by decide, by decide, fun h => ?_⟩
  exact absurd (h.link (fun _ => 0) 0 0 (by decide)) (by decide)

end

end Threadx

end RpmsgLite
