/-
`rpmsg_lite_master_init` and `rpmsg_lite_remote_init`. The master clears and lays out both vrings
and hands out the buffers; the remote only computes where they are. The environment's answers
(allocations, `env_init`, `env_create_mutex`) are an argument, and every way the master's
initialisation ends says what the shared memory holds.
-/
import RpmsgLite.Init.Config

namespace RpmsgLite

open MaskArith

inductive Role | master | remote
deriving DecidableEq

/-- `struct rpmsg_lite_instance`, without its endpoints and its lock. -/
structure RpmsgLiteInstance where
  /-- `vq_ops`: `master_vq_ops` or `remote_vq_ops` -/
  role : Role
  rvq : Virtqueue
  tvq : Virtqueue
  linkId : UInt32
  linkState : Bool
  shMemBase : Nat
  shMemRemaining : Nat
  shMemTotal : Nat
deriving DecidableEq

/-- What the environment answers during an initialisation. -/
structure InitEnv where
  instanceAlloc : Bool
  envInit : Bool
  vqAlloc : Nat → Bool
  mutex : Bool

/-- How the master's initialisation ends: NULL before any store to the shared memory, NULL after some,
an instance, or never (a failed `RL_ASSERT` loops and a division by zero is undefined). -/
inductive InitResult
  | rejected
  | failed (m : ByteMem)
  | stuck
  | instance (dev : RpmsgLiteInstance) (m : ByteMem)

/-- The initialisation returned an instance that passes the test. -/
def InitResult.check (t : RpmsgLiteInstance → ByteMem → Bool) : InitResult → Bool
  | .instance dev m => t dev m
  | _ => false

theorem InitResult.of_check {t : RpmsgLiteInstance → ByteMem → Bool} {r : InitResult} (h : r.check t = true) :
    ∃ dev m, r = .instance dev m ∧ t dev m = true := by
  cases r with
  | «instance» dev m => exact ⟨dev, m, rfl, h⟩
  | rejected => cases h
  | failed => cases h
  | stuck => cases h

/-- An environment in which every call succeeds. -/
def InitEnv.ok : InitEnv where
  instanceAlloc := true
  envInit := true
  vqAlloc := fun _ => true
  mutex := true

section

variable (w : Nat) (p : ShmemParams) (addr : Nat)

/-- The base address of vring `idx`. -/
def vringBase (idx : Nat) : Nat := wrap w (rlWordAlignUp w addr + if idx = 0 then 0 else p.vringSize)

def vringAllocInfo (idx : Nat) : VringAllocInfo where
  phyAddr := vringBase w p addr idx
  align := p.align
  numDescs := p.count

/-- `sh_mem_base` -/
def shMemBase : Nat := rlWordAlignUp w (addr + p.overhead)

/-! ## The master -/

/-- One turn of the master's vring loop; an error is the memory at the NULL return. -/
def masterVring (env : InitEnv) (linkId : UInt32) (callback : VqCallback) (idx : Nat) (m : ByteMem) :
    Except ByteMem (Virtqueue × ByteMem) :=
  let info := vringAllocInfo w p addr idx
  let m := m.fill info.phyAddr (vringSize w info.numDescs.toNat info.align) 0
  match virtqueueCreate w (env.vqAlloc idx) (rlGetVqId linkId idx) info callback with
  | .error _ => .error m
  | .ok vq =>
    let m := vqRingInit vq m
    .ok (vq, virtqueueDisableCb vq m)

/-- The state of the master's buffer loop. -/
structure FillState where
  vq : Virtqueue
  m : ByteMem
  remaining : Nat

/-- The next unused buffer, or NULL when `sh_mem_remaining` is exhausted. -/
def nextBuffer (total remaining : Nat) : Nat :=
  if 0 < remaining then shMemBase w p addr + wrap 32 (p.bufferSize * (total - remaining)) else 0

/-- Which fill operation the loop uses: avail for the rvq, used for the tvq. -/
def fillBuffers (isRvq : Bool) (vq : Virtqueue) (m : ByteMem) (buffer : Nat) (len : UInt32) : Virtqueue × ByteMem :=
  if isRvq then virtqueueFillAvailBuffers vq m buffer len else virtqueueFillUsedBuffers vq m buffer len

/-- One turn of the master's buffer loop; `none` is the failed `RL_ASSERT(buffer != RL_NULL)`. The fill
operations cannot fail, so the clean-up branch behind them is not reached. -/
def masterFill (isRvq : Bool) (total : Nat) (st : FillState) : Option FillState :=
  let buffer := nextBuffer w p addr total st.remaining
  if buffer = 0 then none
  else
    let r := fillBuffers isRvq st.vq (st.m.fill buffer p.bufferSize 0) buffer (UInt32.ofNat p.bufferSize)
    some { vq := r.1, m := r.2, remaining := st.remaining - 1 }

/-- The inner buffer loop over one virtqueue. -/
def masterFillLoop (isRvq : Bool) (total : Nat) : Nat → FillState → Option FillState
  | 0, st => some st
  | n + 1, st => (masterFill w p addr isRvq total st).bind (masterFillLoop isRvq total n)

/-- The end of `rpmsg_lite_master_init`: the buffers of the two virtqueues, and the kick. -/
def masterBuffers (linkId : UInt32) (total : Nat) (vq0 vq1 : Virtqueue) (m : ByteMem) : InitResult :=
  match masterFillLoop w p addr true total (min vq0.nentries.toNat total) { vq := vq0, m, remaining := total } with
  | none => .stuck
  | some st0 =>
    match masterFillLoop w p addr false total (min vq1.nentries.toNat total) { st0 with vq := vq1 } with
    | none => .stuck
    | some st1 =>
      let (rvq, _) := virtqueueKick st0.vq st1.m
      .instance
        { role := .master, rvq, tvq := st1.vq, linkId, linkState := true, shMemBase := shMemBase w p addr,
          shMemRemaining := st1.remaining, shMemTotal := total } st1.m

end

/-- `rpmsg_lite_master_init`; the static variant is `env` with every allocation succeeding. -/
def rpmsgLiteMasterInit (w : Nat) (env : InitEnv) (highestLinkId : UInt32) (cfg : ShmemConfig)
    (addr length : Nat) (linkId : UInt32) (m : ByteMem) : InitResult :=
  if linkId > highestLinkId then .rejected
  else if addr = 0 then .rejected
  else match masterParams w cfg with
    | none => .rejected
    | some p =>
      match rlCalculateBufferCountDownSafe w length p.overhead p.bufferSize with
      | none => .stuck
      | some count =>
        if 2 * p.count.toNat > count then .rejected
        else if !env.instanceAlloc then .rejected
        else if !env.envInit then .rejected
        else match masterVring w p addr env linkId .rxCallback 0 m with
          | .error m => .failed m
          | .ok (vq0, m) => match masterVring w p addr env linkId .txCallback 1 m with
            | .error m => .failed m
            | .ok (vq1, m) =>
              if !env.mutex then .failed m
              else masterBuffers w p addr linkId (wrap 32 count) vq0 vq1 m

/-! ## The remote -/

/-- `rpmsg_lite_remote_init`; it does not touch the shared memory. -/
def rpmsgLiteRemoteInit (w : Nat) (env : InitEnv) (highestLinkId : UInt32) (cfg : ShmemConfig)
    (addr : Nat) (linkId : UInt32) : Option RpmsgLiteInstance :=
  if linkId > highestLinkId then none
  else if addr = 0 then none
  else match remoteParams w cfg with
    | none => none
    | some p =>
      if !env.instanceAlloc then none
      else if !env.envInit then none
      else match virtqueueCreate w (env.vqAlloc 0) (rlGetVqId linkId 0) (vringAllocInfo w p addr 0) .txCallback with
        | .error _ => none
        | .ok vq0 =>
          match virtqueueCreate w (env.vqAlloc 1) (rlGetVqId linkId 1) (vringAllocInfo w p addr 1) .rxCallback with
          | .error _ => none
          | .ok vq1 =>
            if !env.mutex then none
            else some
              { role := .remote, rvq := vq1, tvq := vq0, linkId, linkState := false,
                shMemBase := shMemBase w p addr, shMemRemaining := 0, shMemTotal := 0 }

end RpmsgLite
