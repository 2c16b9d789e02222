/-
The messaging functions of `rpmsg_lite.c` over the virtqueues: the operation tables of the two roles,
the message header, and the send, zero-copy and receive functions, cut where they release the lock.
`none` is a failed `RL_ASSERT`. The macros that add a kick on freed buffers and the buffer check are
off, `RL_CLEAR_USED_BUFFERS` is an argument.
-/
import RpmsgLite.Init.Setup
import RpmsgLite.Virtio.Ring

namespace RpmsgLite

open ByteMem

def RL_SUCCESS : Int := 0
def RL_ERR_NO_MEM : Int := -5001
def RL_ERR_BUFF_SIZE : Int := -5002
def RL_NOT_READY : Int := -5007
def RL_NO_FLAGS : UInt16 := 0

/-! ## The message -/

/-- Field addresses of `struct rpmsg_std_msg`. -/
def hdrSrcAt (msg : Nat) : Nat := msg
def hdrDstAt (msg : Nat) : Nat := msg + 4
def hdrIdxAt (msg : Nat) : Nat := msg + 10
def hdrLenAt (msg : Nat) : Nat := msg + 12
def hdrFlagsAt (msg : Nat) : Nat := msg + 14
def msgDataAt (msg : Nat) : Nat := msg + 16

/-- `RPMSG_STD_MSG_FROM_BUF` -/
def msgFromBuf (buf : Nat) : Nat := buf - 16

/-- A message as its reader sees it: `hdr.len` says how much payload there is. -/
structure Msg where
  src : UInt32
  dst : UInt32
  len : UInt16
  data : List UInt8
deriving DecidableEq

/-- The message in the buffer at `msg`. -/
def msgAt (m : ByteMem) (msg : Nat) : Msg where
  src := m.ld32 (hdrSrcAt msg)
  dst := m.ld32 (hdrDstAt msg)
  len := m.ld16 (hdrLenAt msg)
  data := m.block (msgDataAt msg) (m.ld16 (hdrLenAt msg)).toNat

/-- The header stores of a send; the length is cut to 16 bits. -/
def writeHdr (m : ByteMem) (msg : Nat) (src dst : UInt32) (size : Nat) : ByteMem :=
  let m := m.st32 (hdrDstAt msg) dst
  let m := m.st32 (hdrSrcAt msg) src
  let m := m.st16 (hdrLenAt msg) (UInt16.ofNat size)
  m.st16 (hdrFlagsAt msg) RL_NO_FLAGS

/-! ## The operation tables -/

/-- `struct virtqueue_ops` -/
structure VirtqueueOps where
  vqTx : Virtqueue → ByteMem → Nat → UInt32 → UInt16 → Option (Virtqueue × ByteMem)
  vqTxAlloc : Virtqueue → ByteMem → Virtqueue × Option Got
  vqRx : Virtqueue → ByteMem → Virtqueue × Option Got
  vqRxFree : Virtqueue → ByteMem → Nat → UInt32 → UInt16 → Option (Virtqueue × ByteMem)

/-- The callers see a buffer when the returned pointer is not NULL. -/
def nonNull (r : Virtqueue × Option Got) : Virtqueue × Option Got := (r.1, r.2.filter fun g => g.buffer ≠ 0)

def vqTxMaster (tvq : Virtqueue) (m : ByteMem) (_buffer : Nat) (_len : UInt32) (idx : UInt16) :
    Option (Virtqueue × ByteMem) :=
  some (virtqueueAddBuffer tvq m idx)

def vqTxAllocMaster (tvq : Virtqueue) (m : ByteMem) : Virtqueue × Option Got := nonNull (virtqueueGetBuffer tvq m)

def vqRxMaster (rvq : Virtqueue) (m : ByteMem) : Virtqueue × Option Got := nonNull (virtqueueGetBuffer rvq m)

def vqRxFreeMaster (clear : Bool) (rvq : Virtqueue) (m : ByteMem) (buffer : Nat) (len : UInt32) (idx : UInt16) :
    Option (Virtqueue × ByteMem) :=
  let m := if clear then m.fill buffer len.toNat 0 else m
  some (virtqueueAddBuffer rvq m idx)

def vqTxRemote (tvq : Virtqueue) (m : ByteMem) (_buffer : Nat) (len : UInt32) (idx : UInt16) :
    Option (Virtqueue × ByteMem) :=
  let (status, m) := virtqueueAddConsumedBuffer tvq m idx len
  if status = VQUEUE_SUCCESS then some (tvq, m) else none

def vqTxAllocRemote (tvq : Virtqueue) (m : ByteMem) : Virtqueue × Option Got :=
  nonNull (virtqueueGetAvailableBuffer tvq m)

def vqRxRemote (rvq : Virtqueue) (m : ByteMem) : Virtqueue × Option Got :=
  nonNull (virtqueueGetAvailableBuffer rvq m)

def vqRxFreeRemote (clear : Bool) (rvq : Virtqueue) (m : ByteMem) (buffer : Nat) (len : UInt32) (idx : UInt16) :
    Option (Virtqueue × ByteMem) :=
  let m := if clear then m.fill buffer len.toNat 0 else m
  let (status, m) := virtqueueAddConsumedBuffer rvq m idx len
  if status = VQUEUE_SUCCESS then some (rvq, m) else none

def masterVqOps (clear : Bool) : VirtqueueOps := ⟨vqTxMaster, vqTxAllocMaster, vqRxMaster, vqRxFreeMaster clear⟩
def remoteVqOps (clear : Bool) : VirtqueueOps := ⟨vqTxRemote, vqTxAllocRemote, vqRxRemote, vqRxFreeRemote clear⟩

def Role.vqOps (clear : Bool) : Role → VirtqueueOps
  | .master => masterVqOps clear
  | .remote => remoteVqOps clear

/-! ## Sending -/

section Functions

variable (clear : Bool) (payloadSize : Nat) (dev : RpmsgLiteInstance) (m : ByteMem)

/-- `rpmsg_lite_send` up to one call of `vq_tx_alloc`; a blocking send repeats it. -/
def rpmsgLiteSendAlloc (size : Nat) : RpmsgLiteInstance × Except Int Got :=
  if size > payloadSize then (dev, .error RL_ERR_BUFF_SIZE)
  else if !dev.linkState then (dev, .error RL_NOT_READY)
  else
    match (dev.role.vqOps clear).vqTxAlloc dev.tvq m with
    | (tvq, none) => ({ dev with tvq }, .error RL_ERR_NO_MEM)
    | (tvq, some g) => ({ dev with tvq }, .ok g)

/-- The header and the payload that `rpmsg_lite_format_message` writes without the lock. -/
def rpmsgLiteFormatMessage (g : Got) (src dst : UInt32) (data : List UInt8) : ByteMem :=
  (writeHdr m g.buffer src dst data.length).copy (msgDataAt g.buffer) data

/-- The end of `rpmsg_lite_format_message`: `vq_tx` and the kick. -/
def rpmsgLiteSendEnqueue (g : Got) : Option (RpmsgLiteInstance × ByteMem) :=
  match (dev.role.vqOps clear).vqTx dev.tvq m g.buffer g.len g.idx with
  | none => none
  | some (tvq, m) => some ({ dev with tvq := (virtqueueKick tvq m).1 }, m)

/-- `rpmsg_lite_alloc_tx_buffer`, one attempt: the payload pointer it returns is `msgDataAt g.buffer`. -/
def rpmsgLiteAllocTxBuffer : RpmsgLiteInstance × ByteMem × Option Got :=
  if !dev.linkState then (dev, m, none)
  else
    match (dev.role.vqOps clear).vqTxAlloc dev.tvq m with
    | (tvq, none) => ({ dev with tvq }, m, none)
    | (tvq, some g) => ({ dev with tvq }, m.st16 (hdrIdxAt g.buffer) g.idx, some g)

/-- `rpmsg_lite_send_nocopy` of an endpoint `src`: the descriptor index is the one kept in the header. -/
def rpmsgLiteSendNocopy (src dst : UInt32) (data size : Nat) : Option (RpmsgLiteInstance × ByteMem × Int) :=
  if size > payloadSize then some (dev, m, RL_ERR_BUFF_SIZE)
  else if !dev.linkState then some (dev, m, RL_NOT_READY)
  else
    let msg := msgFromBuf data
    let m := writeHdr m msg src dst size
    let idx := m.ld16 (hdrIdxAt msg)
    match (dev.role.vqOps clear).vqTx dev.tvq m msg (virtqueueGetBufferLength dev.tvq m idx) idx with
    | none => none
    | some (tvq, m) => some ({ dev with tvq := (virtqueueKick tvq m).1 }, m, RL_SUCCESS)

/-! ## Receiving -/

/-- The `vq_rx` of `rpmsg_lite_rx_callback`. -/
def rpmsgLiteRx : RpmsgLiteInstance × Option Got :=
  let (rvq, g) := (dev.role.vqOps clear).vqRx dev.rvq m
  ({ dev with rvq }, g)

/-- What `rpmsg_lite_rx_callback` does after the endpoint's callback returned. -/
def rpmsgLiteRxDone (hold : Bool) (g : Got) : Option (RpmsgLiteInstance × ByteMem) :=
  if hold then some (dev, m.st16 (hdrIdxAt g.buffer) g.idx)
  else
    match (dev.role.vqOps clear).vqRxFree dev.rvq m g.buffer g.len g.idx with
    | none => none
    | some (rvq, m) => some ({ dev with rvq }, m)

/-- `rpmsg_lite_release_rx_buffer` -/
def rpmsgLiteReleaseRxBuffer (rxbuf : Nat) : Option (RpmsgLiteInstance × ByteMem) :=
  let msg := msgFromBuf rxbuf
  let idx := m.ld16 (hdrIdxAt msg)
  match (dev.role.vqOps clear).vqRxFree dev.rvq m msg (virtqueueGetBufferLength dev.rvq m idx) idx with
  | none => none
  | some (rvq, m) => some ({ dev with rvq }, m)

/-- `rpmsg_lite_tx_callback` -/
def rpmsgLiteTxCallback : RpmsgLiteInstance := { dev with linkState := true }

end Functions

/-! ## The rings behind the operations -/

/-- The ring a role takes from, and the one it publishes on. -/
def Role.getKind : Role → RingKind
  | .master => .used
  | .remote => .avail

def Role.peer : Role → Role
  | .master => .remote
  | .remote => .master

@[simp] theorem Role.peer_peer (r : Role) : r.peer.peer = r := by cases r <;> rfl

@[simp] theorem Role.getKind_peer (r : Role) : r.peer.getKind = r.getKind.other := by cases r <;> rfl

theorem Role.peer_ne (r : Role) : r.peer ≠ r := by cases r <;> decide

theorem Role.eq_or_peer (r q : Role) : q = r ∨ q = r.peer := by cases r <;> cases q <;> simp [Role.peer]

section Tables

variable {clear : Bool} {vq : Virtqueue} {m : ByteMem} {buffer : Nat} {len : UInt32} {idx : UInt16}

/-- Both tables publish on the role's put ring, and the assertion holds. -/
theorem vqTx_eq (r : Role) (h : idx ≤ vq.nentries) :
    (r.vqOps clear).vqTx vq m buffer len idx = some (vqPut r.getKind.other vq m idx len) := by
  cases r with
  | master => rfl
  | remote =>
    show vqTxRemote vq m buffer len idx = some (vqPut .used vq m idx len)
    simp only [vqTxRemote, vqPut, virtqueueAddConsumedBuffer_taken h, if_pos]

theorem vqRxFree_eq (r : Role) (clear : Bool) (m : ByteMem) (buffer : Nat) (len : UInt32) (h : idx ≤ vq.nentries) :
    (r.vqOps clear).vqRxFree vq m buffer len idx =
      some (vqPut r.getKind.other vq (if clear then m.fill buffer len.toNat 0 else m) idx len) := by
  cases r with
  | master => rfl
  | remote =>
    show vqRxFreeRemote clear vq m buffer len idx = some (vqPut .used vq _ idx len)
    simp only [vqRxFreeRemote, vqPut, virtqueueAddConsumedBuffer_taken h, if_pos]

theorem vqTxAlloc_eq (r : Role) : (r.vqOps clear).vqTxAlloc vq m = nonNull (vqGet r.getKind vq m) := by
  cases r <;> rfl

theorem vqRx_eq (r : Role) : (r.vqOps clear).vqRx vq m = nonNull (vqGet r.getKind vq m) := by
  cases r <;> rfl

theorem nonNull_some {g : Got} (h : g.buffer ≠ 0) : nonNull (vq, some g) = (vq, some g) := by
  simp [nonNull, h]

theorem nonNull_none : nonNull (vq, none) = (vq, none) := rfl

end Tables

end RpmsgLite
