/-
The three sending functions from their argument checks to their return, with the polls of a blocking
call, the instance lock and the notification. A call is cut where it takes or releases the lock and
where it sleeps; between its steps either core and any other task may run. The stores into the header
of a zero-copy buffer are taken together with `vq_tx`: no other step reaches a buffer of the call.
-/
import RpmsgLite.Ept.Endpoint
import RpmsgLite.Link.LinkState
import RpmsgLite.Link.Parked
import RpmsgLite.Link.ZeroCopy

namespace RpmsgLite

open ByteMem

/-! ## Calls -/

/-- A function with its arguments on a valid instance; `none` and `false` are NULL. A zero-copy buffer is
given by what `rpmsg_lite_alloc_tx_buffer` returned. -/
inductive TxCall
  | send (ept : Option UInt32) (dst : UInt32) (data : Option (Nat → UInt8)) (size timeout : Nat)
  | allocTxBuffer (size : Bool) (timeout : Nat)
  | sendNocopy (ept : Option UInt32) (dst : UInt32) (data : Option Got) (size : Nat)

/-- What is left to do after the argument checks; `rpmsg_lite_format_message` has a 32-bit timeout,
`rpmsg_lite_alloc_tx_buffer` one of the size of a pointer. -/
inductive TxJob
  | send (src dst : UInt32) (data : List UInt8) (timeout : UInt32)
  | allocTxBuffer (timeout : Nat)
  | sendNocopy (src dst : UInt32) (size : Nat)
deriving DecidableEq

def TxJob.timeout : TxJob → Nat
  | .send _ _ _ timeout => timeout.toNat
  | .allocTxBuffer timeout => timeout
  | .sendNocopy _ _ _ => 0

/-- A status, or the buffer of `rpmsg_lite_alloc_tx_buffer`. -/
inductive TxRet
  | status (status : Int)
  | buffer (g : Option Got)
deriving DecidableEq

/-- The return without a buffer. -/
def TxJob.noBuffer : TxJob → TxRet
  | .allocTxBuffer _ => .buffer none
  | _ => .status RL_ERR_NO_MEM

/-- Where a call is; `tick` is `none` before the first attempt to take a buffer. -/
inductive TxAt
  | entry
  | lock (j : TxJob) (tick : Option UInt32)
  | alloc (j : TxJob) (tick : Option UInt32)
  | unlock (j : TxJob) (tick : Option UInt32) (got : Option Got)
  | sleep (j : TxJob) (tick : UInt32)
  | fill (j : TxJob) (g : Got)
  | lockTx (j : TxJob) (g : Got)
  | tx (j : TxJob) (g : Got)
  | unlockTx (j : TxJob) (g : Got)
  | ret (v : TxRet)
deriving DecidableEq

inductive TxEvent | lock | unlock | sleep | notify
deriving DecidableEq

section Step

variable (c : LinkConfig) (interval : UInt32) (x : Side) (m : ByteMem)

/-- The checks before anything is done. -/
def TxCall.checks : TxCall → Except TxRet TxAt
  | .send none _ _ _ _ => .error (.status RL_ERR_PARAM)
  | .send (some src) dst data size timeout =>
    if size > c.payloadSize then .error (.status RL_ERR_BUFF_SIZE)
    else
      match data with
      | none => .error (.status RL_ERR_PARAM)
      | some data =>
        if !x.dev.linkState then .error (.status RL_NOT_READY)
        else .ok (.lock (.send src dst ((List.range size).map data) (UInt32.ofNat timeout)) none)
  | .allocTxBuffer size timeout =>
    if !size then .error (.buffer none)
    else if !x.dev.linkState then .error (.buffer none)
    else .ok (.lock (.allocTxBuffer timeout) none)
  | .sendNocopy (some src) dst (some g) size =>
    if size > c.payloadSize then .error (.status RL_ERR_BUFF_SIZE)
    else if !x.dev.linkState then .error (.status RL_NOT_READY)
    else .ok (.lockTx (.sendNocopy src dst size) g)
  | .sendNocopy _ _ _ _ => .error (.status RL_ERR_PARAM)

/-- `vq_tx_alloc`; an allocation keeps the descriptor index in the header. -/
def TxJob.alloc (j : TxJob) : Option Got × Side × ByteMem :=
  match (x.dev.role.vqOps c.clear).vqTxAlloc x.dev.tvq m with
  | (tvq, none) => (none, { x with dev := { x.dev with tvq } }, m)
  | (tvq, some g) =>
    match j with
    | .send src dst data _ =>
      (some g, { x with dev := { x.dev with tvq }
                        tx := { x.tx with sending := x.tx.sending ++ [⟨g, src, dst, data, false⟩] } }, m)
    | _ => (some g, { x with dev := { x.dev with tvq }, tx := { x.tx with owned := x.tx.owned ++ [g] } },
        m.st16 (hdrIdxAt g.buffer) g.idx)

/-- After an attempt: with a buffer the call goes on, without one it returns when its time is over. The
ticks count the sleeps. -/
def TxJob.attempted (j : TxJob) (tick : Option UInt32) : Option Got → TxAt
  | some g =>
    match j with
    | .allocTxBuffer _ => .ret (.buffer (some g))
    | _ => .fill j g
  | none =>
    match tick with
    | none => if j.timeout = 0 then .ret j.noBuffer else .sleep j 0
    | some tick => if j.timeout ≤ (tick + interval).toNat then .ret j.noBuffer else .sleep j (tick + interval)

/-- The entry of the send that has the buffer `g`. -/
def TxHalf.sendingAt (t : TxHalf) (g : Got) : Nat := t.sending.findIdx fun e => e.got = g

def TxHalf.ownedAt (t : TxHalf) (g : Got) : Nat := t.owned.findIdx fun e => e = g

/-- `vq_tx` and the kick, for a zero-copy send after the header stores; `none` is a failed assertion. -/
def TxJob.tx (j : TxJob) (g : Got) : Option (Side × ByteMem × Bool) :=
  match j with
  | .send src dst data _ =>
    ((x.dev.role.vqOps c.clear).vqTx x.dev.tvq m g.buffer g.len g.idx).map fun y =>
      ({ x with dev := { x.dev with tvq := (virtqueueKick y.1 y.2).1 }
                tx := { x.tx with sending := x.tx.sending.eraseIdx (x.tx.sendingAt g)
                                  sent := x.tx.sent ++ [Msg.of src dst data] } }, y.2, (virtqueueKick y.1 y.2).2)
  | .sendNocopy src dst size =>
    let m' := writeHdr m g.buffer src dst size
    let idx := m'.ld16 (hdrIdxAt g.buffer)
    ((x.dev.role.vqOps c.clear).vqTx x.dev.tvq m' g.buffer (virtqueueGetBufferLength x.dev.tvq m' idx) idx).map fun y =>
      ({ x with dev := { x.dev with tvq := (virtqueueKick y.1 y.2).1 }
                tx := { x.tx with owned := x.tx.owned.eraseIdx (x.tx.ownedAt g)
                                  sent := x.tx.sent ++ [Msg.of src dst (m.block (msgDataAt g.buffer) size)] } },
        y.2, (virtqueueKick y.1 y.2).2)
  | .allocTxBuffer _ => none

/-- The next step of a call on its core: where it is then, the core, the memory, and what it did to the
lock and to the peer. -/
def TxCall.step (call : TxCall) : TxAt → Option (TxAt × Side × ByteMem × List TxEvent)
  | .entry =>
    match call.checks c x with
    | .error v => some (.ret v, x, m, [])
    | .ok pc => some (pc, x, m, [])
  | .lock j tick => some (.alloc j tick, x, m, [.lock])
  | .alloc j tick =>
    match j.alloc c x m with
    | (got, x', m') => some (.unlock j tick got, x', m', [])
  | .unlock j tick got => some (j.attempted interval tick got, x, m, [.unlock])
  | .sleep j tick => some (.lock j (some tick), x, m, [.sleep])
  | .fill j g =>
    match x.tx.sending[x.tx.sendingAt g]? with
    | none => none
    | some e =>
      some (.lockTx j g, { x with tx := { x.tx with sending := x.tx.sending.set (x.tx.sendingAt g) { e with filled := true } } },
        rpmsgLiteFormatMessage m g e.src e.dst e.data, [])
  | .lockTx j g => some (.tx j g, x, m, [.lock])
  | .tx j g =>
    match j.tx c x m g with
    | none => none
    | some (x', m', notified) => some (.unlockTx j g, x', m', if notified then [.notify] else [])
  | .unlockTx _ _ => some (.ret (.status RL_SUCCESS), x, m, [.unlock])
  | .ret _ => none

end Step

/-! ## Runs -/

/-- A step of the call, with the link before and after it. -/
structure TxOwn where
  before : Link
  after : Link
  events : List TxEvent

/-- The buffer that is in the hands of the call. -/
def TxAt.holds : TxAt → Option Got
  | .unlock _ _ got => got
  | .fill _ g | .lockTx _ g | .tx _ g => some g
  | _ => none

/-- The buffer that a step of an application works on. -/
def Act.buffer (x : Side) : Act → Option Got
  | .tx (.fill i) | .tx (.enqueue i) => (x.tx.sending[i]?).map Sending.got
  | .tx (.write i _ _) | .tx (.sendNocopy i _ _ _) => x.tx.owned[i]?
  | _ => none

/-- A buffer that is given to a zero-copy send belongs to the application until the send. -/
def TxCall.gives : TxCall → Option Got
  | .sendNocopy _ _ data _ => data
  | _ => none

/-- The buffer that no other step may work on. -/
def TxCall.claims (call : TxCall) (pc : TxAt) : Option Got :=
  match pc with
  | .entry => call.gives
  | _ => pc.holds

section

variable (c : LinkConfig) (interval : UInt32) (r : Role) (call : TxCall)

/-- The runs of one call of core `r`, from its start at `s₀`, with the steps that the call has taken. -/
inductive TxCall.Run (s₀ : Link) : List TxOwn → TxAt → Link → Prop
  | start : Run s₀ [] .entry s₀
  /-- a step of anyone else -/
  | other {log : List TxOwn} {pc : TxAt} {s s' : Link} {q : Role} {a : Act} (h : Run s₀ log pc s)
      (hfree : q = r → ∀ g ∈ call.claims pc, a.buffer (s.side r) ≠ some g) (hs : s.step c q a = some s') :
      Run s₀ log pc s'
  | own {log : List TxOwn} {pc pc' : TxAt} {s : Link} {x : Side} {m : ByteMem} {events : List TxEvent}
      (h : Run s₀ log pc s) (hs : call.step c interval (s.side r) s.m pc = some (pc', x, m, events)) :
      Run s₀ (log ++ [⟨s, { m, side := Function.update s.side r x }, events⟩]) pc'
        { m, side := Function.update s.side r x }

end

end RpmsgLite
