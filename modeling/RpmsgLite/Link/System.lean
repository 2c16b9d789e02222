/-
The two cores on one shared memory. Each core runs the messaging functions in the pieces between
which the other core, and the other tasks of the same core, may run: `Link.step` lets either core take
any of its pieces, so a run is an arbitrary interleaving. The applications keep their side of the
contract: they write only payload bytes of buffers they hold, send a zero-copy buffer at most once and
return a held buffer at most once. What is sent and read is logged for the statements.
-/
import RpmsgLite.Link.Ops

namespace RpmsgLite

open ByteMem

/-! ## The state -/

/-- A `rpmsg_lite_send` that has its buffer and has not returned. -/
structure Sending where
  got : Got
  src : UInt32
  dst : UInt32
  data : List UInt8
  filled : Bool
deriving DecidableEq

/-- The message of a send: its arguments, the length in 16 bits. -/
def Msg.of (src dst : UInt32) (data : List UInt8) : Msg := ⟨src, dst, UInt16.ofNat data.length, data⟩

/-- As much of a message as its length field covers. -/
def Msg.seen (msg : Msg) : Msg := { msg with data := msg.data.take msg.len.toNat }

/-- The transmit side of a core: sends under way, zero-copy buffers of the application, and the log of
the enqueued messages. -/
structure TxHalf where
  sending : List Sending
  owned : List Got
  sent : List Msg
deriving DecidableEq

/-- Where `rpmsg_lite_rx_callback` is: between messages, with a message not yet read, or after reading. -/
inductive RxHand
  | idle
  | taken (g : Got)
  | seen (g : Got)
deriving DecidableEq

/-- The receive side of a core: the callback's message, the held buffers, and the log of what was read. -/
structure RxHalf where
  hand : RxHand
  held : List Got
  recv : List Msg
deriving DecidableEq

/-- One core; a failed `RL_ASSERT` halts it. -/
structure Side where
  dev : RpmsgLiteInstance
  tx : TxHalf
  rx : RxHalf
  halted : Bool

structure Link where
  m : ByteMem
  side : Role → Side

/-- The build options of the functions, and the largest message the applications send. -/
structure LinkConfig where
  clear : Bool
  payloadSize : Nat
  limit : Nat

/-! ## The steps of one core -/

inductive TxAct
  /-- `rpmsg_lite_send` up to `vq_tx_alloc` -/
  | send (src dst : UInt32) (data : List UInt8)
  /-- the stores of a send -/
  | fill (i : Nat)
  /-- the end of a send -/
  | enqueue (i : Nat)
  | allocTxBuffer
  /-- the application writes payload bytes of a zero-copy buffer -/
  | write (i off : Nat) (bytes : List UInt8)
  | sendNocopy (i : Nat) (src dst : UInt32) (size : Nat)
deriving DecidableEq

inductive RxAct
  /-- `vq_rx` -/
  | rx
  /-- the callback reads the message -/
  | read
  /-- the endpoint's callback returns `RL_HOLD` or `RL_RELEASE` -/
  | done (hold : Bool)
  /-- the callback writes payload bytes of its message -/
  | writeMsg (off : Nat) (bytes : List UInt8)
  /-- the application writes payload bytes of a held buffer -/
  | writeHeld (i off : Nat) (bytes : List UInt8)
  | releaseRxBuffer (i : Nat)
deriving DecidableEq

inductive Act
  | tx (a : TxAct)
  | rx (a : RxAct)
  /-- the peer's kick on the tvq -/
  | txCallback
deriving DecidableEq

/-- A write of an application that holds the buffer: the payload pointer and the size it was given
bound it. -/
def writePayload (m : ByteMem) (g : Got) (off : Nat) (bytes : List UInt8) : Option ByteMem :=
  if off + bytes.length ≤ g.len.toNat - 16 then some (m.copy (msgDataAt g.buffer + off) bytes) else none

section Step

variable (c : LinkConfig) (s : Side) (m : ByteMem)

/-- `none` is a step the core cannot take in this state. -/
def Side.txStep : TxAct → Option (Side × ByteMem)
  | .send src dst data =>
    if data.length > c.limit then none
    else
      match rpmsgLiteSendAlloc c.clear c.payloadSize s.dev m data.length with
      | (dev, .error _) => some ({ s with dev }, m)
      | (dev, .ok got) =>
        some ({ s with dev, tx := { s.tx with sending := s.tx.sending ++ [⟨got, src, dst, data, false⟩] } }, m)
  | .fill i =>
    match s.tx.sending[i]? with
    | none => none
    | some e =>
      some ({ s with tx := { s.tx with sending := s.tx.sending.set i { e with filled := true } } },
        rpmsgLiteFormatMessage m e.got e.src e.dst e.data)
  | .enqueue i =>
    match s.tx.sending[i]? with
    | none => none
    | some e =>
      if !e.filled then none
      else
        match rpmsgLiteSendEnqueue c.clear s.dev m e.got with
        | none => some ({ s with halted := true }, m)
        | some (dev, m) =>
          some ({ s with dev, tx := { s.tx with sending := s.tx.sending.eraseIdx i
                                                sent := s.tx.sent ++ [Msg.of e.src e.dst e.data] } }, m)
  | .allocTxBuffer =>
    match rpmsgLiteAllocTxBuffer c.clear s.dev m with
    | (dev, m, none) => some ({ s with dev }, m)
    | (dev, m, some g) => some ({ s with dev, tx := { s.tx with owned := s.tx.owned ++ [g] } }, m)
  | .write i off bytes =>
    match s.tx.owned[i]? with
    | none => none
    | some g => (writePayload m g off bytes).map fun m => (s, m)
  | .sendNocopy i src dst size =>
    if size > c.limit then none
    else
      match s.tx.owned[i]? with
      | none => none
      | some g =>
        match rpmsgLiteSendNocopy c.clear c.payloadSize s.dev m src dst (msgDataAt g.buffer) size with
        | none => some ({ s with halted := true }, m)
        | some (dev, m', status) =>
          if status = RL_SUCCESS then
            some ({ s with dev, tx := { s.tx with owned := s.tx.owned.eraseIdx i
                                                  sent := s.tx.sent ++
                                                    [Msg.of src dst (m.block (msgDataAt g.buffer) size)] } }, m')
          else some ({ s with dev }, m')

def Side.rxStep : RxAct → Option (Side × ByteMem)
  | .rx =>
    if s.rx.hand ≠ .idle then none
    else
      match rpmsgLiteRx c.clear s.dev m with
      | (dev, none) => some ({ s with dev }, m)
      | (dev, some g) => some ({ s with dev, rx := { s.rx with hand := .taken g } }, m)
  | .read =>
    match s.rx.hand with
    | .taken g => some ({ s with rx := { s.rx with hand := .seen g, recv := s.rx.recv ++ [msgAt m g.buffer] } }, m)
    | _ => none
  | .done hold =>
    match s.rx.hand with
    | .seen g =>
      match rpmsgLiteRxDone c.clear s.dev m hold g with
      | none => some ({ s with halted := true }, m)
      | some (dev, m) =>
        some ({ s with dev, rx := { s.rx with hand := .idle
                                              held := if hold then s.rx.held ++ [g] else s.rx.held } }, m)
    | _ => none
  | .writeMsg off bytes =>
    match s.rx.hand with
    | .seen g => (writePayload m g off bytes).map fun m => (s, m)
    | _ => none
  | .writeHeld i off bytes =>
    match s.rx.held[i]? with
    | none => none
    | some g => (writePayload m g off bytes).map fun m => (s, m)
  | .releaseRxBuffer i =>
    match s.rx.held[i]? with
    | none => none
    | some g =>
      match rpmsgLiteReleaseRxBuffer c.clear s.dev m (msgDataAt g.buffer) with
      | none => some ({ s with halted := true }, m)
      | some (dev, m) => some ({ s with dev, rx := { s.rx with held := s.rx.held.eraseIdx i } }, m)

def Side.step : Act → Option (Side × ByteMem)
  | .tx a => s.txStep c m a
  | .rx a => s.rxStep c m a
  | .txCallback => some ({ s with dev := rpmsgLiteTxCallback s.dev }, m)

end Step

/-! ## What a step can do -/

section Cases

/-- The outcomes of a transmit step. -/
inductive Side.TxStepped (c : LinkConfig) (s : Side) (m : ByteMem) : TxAct → Side → ByteMem → Prop
  | sendRefused {src dst : UInt32} {data : List UInt8} {dev : RpmsgLiteInstance} {status : Int} (hle : data.length ≤ c.limit)
      (h : rpmsgLiteSendAlloc c.clear c.payloadSize s.dev m data.length = (dev, .error status)) :
      TxStepped c s m (.send src dst data) { s with dev } m
  | send {src dst : UInt32} {data : List UInt8} {dev : RpmsgLiteInstance} {got : Got} (hle : data.length ≤ c.limit)
      (h : rpmsgLiteSendAlloc c.clear c.payloadSize s.dev m data.length = (dev, .ok got)) :
      TxStepped c s m (.send src dst data)
        { s with dev, tx := { s.tx with sending := s.tx.sending ++ [⟨got, src, dst, data, false⟩] } } m
  | fill {i : Nat} {e : Sending} (hi : s.tx.sending[i]? = some e) :
      TxStepped c s m (.fill i) { s with tx := { s.tx with sending := s.tx.sending.set i { e with filled := true } } }
        (rpmsgLiteFormatMessage m e.got e.src e.dst e.data)
  | enqueueStuck {i : Nat} {e : Sending} (hi : s.tx.sending[i]? = some e) (hf : e.filled = true)
      (h : rpmsgLiteSendEnqueue c.clear s.dev m e.got = none) :
      TxStepped c s m (.enqueue i) { s with halted := true } m
  | enqueue {i : Nat} {e : Sending} {dev : RpmsgLiteInstance} {m' : ByteMem} (hi : s.tx.sending[i]? = some e) (hf : e.filled = true)
      (h : rpmsgLiteSendEnqueue c.clear s.dev m e.got = some (dev, m')) :
      TxStepped c s m (.enqueue i)
        { s with dev, tx := { s.tx with sending := s.tx.sending.eraseIdx i
                                        sent := s.tx.sent ++ [Msg.of e.src e.dst e.data] } } m'
  | allocNone {dev : RpmsgLiteInstance} {m' : ByteMem} (h : rpmsgLiteAllocTxBuffer c.clear s.dev m = (dev, m', none)) :
      TxStepped c s m .allocTxBuffer { s with dev } m'
  | allocTxBuffer {dev : RpmsgLiteInstance} {m' : ByteMem} {g : Got}
      (h : rpmsgLiteAllocTxBuffer c.clear s.dev m = (dev, m', some g)) :
      TxStepped c s m .allocTxBuffer { s with dev, tx := { s.tx with owned := s.tx.owned ++ [g] } } m'
  | write {i off : Nat} {bytes : List UInt8} {g : Got} {m' : ByteMem} (hi : s.tx.owned[i]? = some g)
      (h : writePayload m g off bytes = some m') : TxStepped c s m (.write i off bytes) s m'
  | nocopyStuck {i size : Nat} {src dst : UInt32} {g : Got} (hle : size ≤ c.limit) (hi : s.tx.owned[i]? = some g)
      (h : rpmsgLiteSendNocopy c.clear c.payloadSize s.dev m src dst (msgDataAt g.buffer) size = none) :
      TxStepped c s m (.sendNocopy i src dst size) { s with halted := true } m
  | sendNocopy {i size : Nat} {src dst : UInt32} {g : Got} {dev : RpmsgLiteInstance} {m' : ByteMem} (hle : size ≤ c.limit)
      (hi : s.tx.owned[i]? = some g)
      (h : rpmsgLiteSendNocopy c.clear c.payloadSize s.dev m src dst (msgDataAt g.buffer) size = some (dev, m', RL_SUCCESS)) :
      TxStepped c s m (.sendNocopy i src dst size)
        { s with dev, tx := { s.tx with owned := s.tx.owned.eraseIdx i
                                        sent := s.tx.sent ++ [Msg.of src dst (m.block (msgDataAt g.buffer) size)] } } m'
  | nocopyRefused {i size : Nat} {src dst : UInt32} {g : Got} {dev : RpmsgLiteInstance} {m' : ByteMem} {status : Int}
      (hle : size ≤ c.limit) (hi : s.tx.owned[i]? = some g)
      (h : rpmsgLiteSendNocopy c.clear c.payloadSize s.dev m src dst (msgDataAt g.buffer) size = some (dev, m', status))
      (hst : status ≠ RL_SUCCESS) :
      TxStepped c s m (.sendNocopy i src dst size) { s with dev } m'

/-- The outcomes of a receive step. -/
inductive Side.RxStepped (c : LinkConfig) (s : Side) (m : ByteMem) : RxAct → Side → ByteMem → Prop
  | rxNone {dev : RpmsgLiteInstance} (hidle : s.rx.hand = .idle) (h : rpmsgLiteRx c.clear s.dev m = (dev, none)) :
      RxStepped c s m .rx { s with dev } m
  | rx {dev : RpmsgLiteInstance} {g : Got} (hidle : s.rx.hand = .idle) (h : rpmsgLiteRx c.clear s.dev m = (dev, some g)) :
      RxStepped c s m .rx { s with dev, rx := { s.rx with hand := .taken g } } m
  | read {g : Got} (hhand : s.rx.hand = .taken g) :
      RxStepped c s m .read { s with rx := { s.rx with hand := .seen g, recv := s.rx.recv ++ [msgAt m g.buffer] } } m
  | doneStuck {hold : Bool} {g : Got} (hhand : s.rx.hand = .seen g) (h : rpmsgLiteRxDone c.clear s.dev m hold g = none) :
      RxStepped c s m (.done hold) { s with halted := true } m
  | done {hold : Bool} {g : Got} {dev : RpmsgLiteInstance} {m' : ByteMem} (hhand : s.rx.hand = .seen g)
      (h : rpmsgLiteRxDone c.clear s.dev m hold g = some (dev, m')) :
      RxStepped c s m (.done hold)
        { s with dev, rx := { s.rx with hand := .idle
                                        held := if hold then s.rx.held ++ [g] else s.rx.held } } m'
  | writeMsg {off : Nat} {bytes : List UInt8} {g : Got} {m' : ByteMem} (hhand : s.rx.hand = .seen g)
      (h : writePayload m g off bytes = some m') : RxStepped c s m (.writeMsg off bytes) s m'
  | writeHeld {i off : Nat} {bytes : List UInt8} {g : Got} {m' : ByteMem} (hi : s.rx.held[i]? = some g)
      (h : writePayload m g off bytes = some m') : RxStepped c s m (.writeHeld i off bytes) s m'
  | releaseStuck {i : Nat} {g : Got} (hi : s.rx.held[i]? = some g)
      (h : rpmsgLiteReleaseRxBuffer c.clear s.dev m (msgDataAt g.buffer) = none) :
      RxStepped c s m (.releaseRxBuffer i) { s with halted := true } m
  | release {i : Nat} {g : Got} {dev : RpmsgLiteInstance} {m' : ByteMem} (hi : s.rx.held[i]? = some g)
      (h : rpmsgLiteReleaseRxBuffer c.clear s.dev m (msgDataAt g.buffer) = some (dev, m')) :
      RxStepped c s m (.releaseRxBuffer i) { s with dev, rx := { s.rx with held := s.rx.held.eraseIdx i } } m'

variable {c : LinkConfig} {s s' : Side} {m m' : ByteMem}

theorem Side.txStep_cases {a : TxAct} (ha : s.txStep c m a = some (s', m')) : s.TxStepped c m a s' m' := by
  unfold Side.txStep at ha
  cases a with
  | send src dst data =>
    simp only at ha
    split at ha
    · cases ha
    rename_i hle
    split at ha
    · rename_i h
      cases ha
      exact .sendRefused (Nat.le_of_not_lt hle) h
    · rename_i h
      cases ha
      exact .send (Nat.le_of_not_lt hle) h
  | fill i =>
    simp only at ha
    split at ha
    · cases ha
    · rename_i hi
      cases ha
      exact .fill hi
  | enqueue i =>
    simp only at ha
    split at ha
    · cases ha
    rename_i hi
    split at ha
    · cases ha
    rename_i hf
    split at ha
    · rename_i h
      cases ha
      exact .enqueueStuck hi (by simpa using hf) h
    · rename_i h
      cases ha
      exact .enqueue hi (by simpa using hf) h
  | allocTxBuffer =>
    simp only at ha
    split at ha
    · rename_i h
      cases ha
      exact .allocNone h
    · rename_i h
      cases ha
      exact .allocTxBuffer h
  | write i off bytes =>
    simp only at ha
    split at ha
    · cases ha
    · rename_i hi
      obtain ⟨m1, h, he⟩ := Option.map_eq_some_iff.1 ha
      cases he
      exact .write hi h
  | sendNocopy i src dst size =>
    simp only at ha
    split at ha
    · cases ha
    rename_i hle
    split at ha
    · cases ha
    rename_i hi
    split at ha
    · rename_i h
      cases ha
      exact .nocopyStuck (Nat.le_of_not_lt hle) hi h
    rename_i h
    split at ha
    · rename_i hst
      subst hst
      cases ha
      exact .sendNocopy (Nat.le_of_not_lt hle) hi h
    · rename_i hst
      cases ha
      exact .nocopyRefused (Nat.le_of_not_lt hle) hi h hst

theorem Side.rxStep_cases {a : RxAct} (ha : s.rxStep c m a = some (s', m')) : s.RxStepped c m a s' m' := by
  unfold Side.rxStep at ha
  cases a with
  | rx =>
    simp only at ha
    split at ha
    · cases ha
    rename_i hidle
    split at ha
    · rename_i h
      cases ha
      exact .rxNone (not_not.1 hidle) h
    · rename_i h
      cases ha
      exact .rx (not_not.1 hidle) h
  | read =>
    simp only at ha
    split at ha
    · rename_i hhand
      cases ha
      exact .read hhand
    · cases ha
  | done hold =>
    simp only at ha
    split at ha
    · rename_i hhand
      split at ha
      · rename_i h
        cases ha
        exact .doneStuck hhand h
      · rename_i h
        cases ha
        exact .done hhand h
    · cases ha
  | writeMsg off bytes =>
    simp only at ha
    split at ha
    · rename_i hhand
      obtain ⟨m1, h, he⟩ := Option.map_eq_some_iff.1 ha
      cases he
      exact .writeMsg hhand h
    · cases ha
  | writeHeld i off bytes =>
    simp only at ha
    split at ha
    · cases ha
    · rename_i hi
      obtain ⟨m1, h, he⟩ := Option.map_eq_some_iff.1 ha
      cases he
      exact .writeHeld hi h
  | releaseRxBuffer i =>
    simp only at ha
    split at ha
    · cases ha
    rename_i hi
    split at ha
    · rename_i h
      cases ha
      exact .releaseStuck hi h
    · rename_i h
      cases ha
      exact .release hi h

/-- The receive side is not the transmit steps'. -/
theorem Side.txStep_rx {a : TxAct} (ha : s.txStep c m a = some (s', m')) : s'.rx = s.rx := by
  cases Side.txStep_cases ha <;> rfl

/-- The transmit side is not the receive steps'. -/
theorem Side.rxStep_tx {a : RxAct} (ha : s.rxStep c m a = some (s', m')) : s'.tx = s.tx := by
  cases Side.rxStep_cases ha <;> rfl

end Cases

/-! ## Runs -/

/-- One step of core `r`. -/
def Link.step (c : LinkConfig) (s : Link) (r : Role) (a : Act) : Option Link :=
  if (s.side r).halted then none
  else ((s.side r).step c s.m a).map fun x => { m := x.2, side := Function.update s.side r x.1 }

/-- A core after its initialisation. -/
def Side.start (dev : RpmsgLiteInstance) : Side where
  dev := dev
  tx := ⟨[], [], []⟩
  rx := ⟨.idle, [], []⟩
  halted := false

/-- Both cores after their initialisations. -/
def Link.start (m : ByteMem) (master remote : RpmsgLiteInstance) : Link where
  m := m
  side
    | .master => Side.start master
    | .remote => Side.start remote

/-- The states of all runs of both cores. -/
inductive Link.Reachable (c : LinkConfig) (s₀ : Link) : Link → Prop
  | start : Reachable c s₀ s₀
  | step {s s' : Link} {r : Role} {a : Act} (h : Reachable c s₀ s) (hs : s.step c r a = some s') : Reachable c s₀ s'

/-! ## Where the descriptors are -/

def Sending.id (e : Sending) : UInt16 := e.got.idx

/-- The buffers in the hands of a half. -/
def TxHalf.gots (t : TxHalf) : List Got := t.sending.map Sending.got ++ t.owned

def RxHand.got : RxHand → List Got
  | .idle => []
  | .taken g => [g]
  | .seen g => [g]

def RxHalf.gots (x : RxHalf) : List Got := x.hand.got ++ x.held

/-- The message the callback has taken and not read yet. -/
def RxHand.unread : RxHand → List Got
  | .taken g => [g]
  | _ => []

/-- The descriptors pending in a ring, oldest first, as its slots hold them. -/
def Vring.pendingIds (vr : Vring) (m : ByteMem) (k : RingKind) (cons : UInt16) : List UInt16 :=
  match k with
  | .avail => vr.availPending m cons
  | .used => (vr.usedPending m cons).map fun e => e.1.toUInt16

theorem Vring.PendingIs.pendingIds {vr : Vring} {m : ByteMem} {k : RingKind} {cons : UInt16} {ids : List UInt16}
    {len : UInt32} (h : vr.PendingIs m k cons ids len) : vr.pendingIds m k cons = ids := by
  cases k with
  | avail => exact h
  | used =>
    simp only [PendingIs] at h
    simp only [Vring.pendingIds, h, List.map_map]
    exact (List.map_congr_left fun d _ => toUInt16_toUInt32 d).trans (List.map_id ids)

end RpmsgLite
