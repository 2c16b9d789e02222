/-
The receive queues of one instance on the running link. The receive callback hands each message to the endpoint bound
to its destination; `rpmsg_queue_rx_cb` puts it into the queue of the endpoint, from where any number of tasks take it
and give its buffer back. All steps interleave: also between the endpoint's callback and the store of `reserved.idx`
that follows it.
-/
import RpmsgLite.Link.Clean
import RpmsgLite.Queue.Recv

namespace RpmsgLite

open ByteMem

/-- `rpmsg_lite_release_rx_buffer` as a change of the link; the application's list of held buffers loses the one it
gives back. -/
def Link.giveBack (c : LinkConfig) (r : Role) (s : Link) (data : Nat) : Link :=
  match rpmsgLiteReleaseRxBuffer c.clear (s.side r).dev s.m data with
  | none => { s with side := Function.update s.side r { s.side r with halted := true } }
  | some (dev, m) =>
    { m := m
      side := Function.update s.side r { s.side r with
        dev := dev
        rx := { (s.side r).rx with held := (s.side r).rx.held.eraseP fun g => msgDataAt g.buffer = data } } }

namespace RxQueues

/-! ## Queues and endpoints -/

/-- A queue of the environment: a FIFO with room for `capacity` entries. -/
structure EnvQueue where
  capacity : Nat
  items : List MsgQueue.RxCbData
  fits : items.length ≤ capacity

def envCreateQueue (length : Nat) : EnvQueue := ⟨length, [], Nat.zero_le length⟩

/-- `env_put_queue` without a timeout -/
def EnvQueue.envPutQueue (q : EnvQueue) (msg : MsgQueue.RxCbData) : Option EnvQueue :=
  if h : q.items.length < q.capacity then some ⟨q.capacity, q.items ++ [msg], by simpa using h⟩ else none

/-- `env_get_queue`; on an empty queue the timeout expires -/
def EnvQueue.envGetQueue (q : EnvQueue) : Option (MsgQueue.RxCbData × EnvQueue) :=
  q.items.head?.map fun msg => (msg, ⟨q.capacity, q.items.tail, by
    rw [List.length_tail]
    exact (Nat.sub_le _ _).trans q.fits⟩)

theorem EnvQueue.envGetQueue_items {q q' : EnvQueue} {e : MsgQueue.RxCbData} (h : q.envGetQueue = some (e, q')) :
    q.items = e :: q'.items ∧ q'.capacity = q.capacity := by
  obtain ⟨e', hhead, hx⟩ := Option.map_eq_some_iff.1 h
  obtain ⟨rfl, rfl⟩ := Prod.mk.inj hx
  exact ⟨(List.cons_head?_tail hhead).symm, rfl⟩

/-- `rpmsg_queue_create` -/
def rpmsgQueueCreate (dev : RpmsgLiteInstance) : EnvQueue := envCreateQueue (2 * dev.rvq.nentries.toNat)

/-- `rpmsg_queue_rx_cb`: whether the buffer is held, and the queue. -/
def rpmsgQueueRxCb (q : EnvQueue) (msg : MsgQueue.RxCbData) : Bool × EnvQueue :=
  match q.envPutQueue msg with
  | some q => (true, q)
  | none => (false, q)

/-- The `rx_cb` of an endpoint: `rpmsg_queue_rx_cb` with its queue, or a function of the application. -/
inductive RxCb
  | queue (k : Nat)
  | app
deriving DecidableEq

structure Endpoint where
  addr : UInt32
  rxCb : RxCb
deriving DecidableEq

/-- The queue of an endpoint has been created. -/
def Endpoint.bound (queues : Nat) (x : Endpoint) : Bool :=
  match x.rxCb with
  | .queue k => k < queues
  | .app => true

/-- What the receive callback passes on of the message in `g`. -/
def msgOf (m : ByteMem) (g : Got) : MsgQueue.RxCbData where
  src := m.ld32 (hdrSrcAt g.buffer)
  data := msgDataAt g.buffer
  len := (m.ld16 (hdrLenAt g.buffer)).toUInt32
  data_ne := Nat.succ_ne_zero _

/-! ## The state and its steps -/

/-- `ret` is what the endpoint's callback has returned, until the receive callback has acted on it. `tasks` are the
messages that have left a queue and whose buffers have not been given back. The last three are logs: what was passed to
`rpmsg_queue_rx_cb`, the messages among them that found no room, and those given back. -/
structure State where
  link : Link
  queues : List EnvQueue
  epts : List Endpoint
  ret : Option Bool
  tasks : List MsgQueue.RxCbData
  addressed : List MsgQueue.RxCbData
  dropped : List MsgQueue.RxCbData
  freed : List MsgQueue.RxCbData

def State.start (link : Link) : State := ⟨link, [], [], none, [], [], [], []⟩

inductive OwnAct
  | rpmsgQueueCreate
  /-- endpoints come and go -/
  | endpoints (epts : List Endpoint)
  /-- the endpoint's callback; `hold` is what a function of the application returns -/
  | rxCb (hold : Bool)
  /-- the receive callback acts on what the endpoint's callback returned -/
  | rxDone
  /-- `env_get_queue` in `rpmsg_queue_recv` and `rpmsg_queue_recv_nocopy` -/
  | envGetQueue (k : Nat)
  /-- the release in `rpmsg_queue_recv` and `rpmsg_queue_nocopy_free` -/
  | release (i : Nat)
deriving DecidableEq

inductive Move
  | link (q : Role) (a : Act)
  | own (a : OwnAct)
deriving DecidableEq

/-- The messages in the queues, and those taken out and not given back. -/
def State.live (s : State) : List MsgQueue.RxCbData := s.queues.flatMap EnvQueue.items ++ s.tasks

section

variable (c : LinkConfig) (r : Role) (s : State)

/-- Whatever else the cores do. The end of the receive callback is a step of its own here, and the applications of core
`r` release the buffers that their own callbacks held, not those in a queue or taken from one. -/
def State.isOther (q : Role) (a : Act) : Bool :=
  if q ≠ r then true
  else
    match a with
    | .rx (.done _) => false
    | .rx (.releaseRxBuffer i) => (s.link.side r).rx.held[i]?.all fun g => s.live.all fun e => e.data ≠ msgDataAt g.buffer
    | _ => true

/-- `rpmsg_queue_rx_cb` with queue `k`. -/
def State.queueRxCb (k : Nat) (q : EnvQueue) (msg : MsgQueue.RxCbData) : State :=
  match rpmsgQueueRxCb q msg with
  | (true, q) => { s with queues := s.queues.set k q, ret := some true, addressed := s.addressed ++ [msg] }
  | (false, _) => { s with ret := some false, addressed := s.addressed ++ [msg], dropped := s.dropped ++ [msg] }

/-- The steps of core `r` on its queues. -/
def State.own : OwnAct → Option State
  | .rpmsgQueueCreate => some { s with queues := s.queues ++ [RxQueues.rpmsgQueueCreate (s.link.side r).dev] }
  | .endpoints epts => if epts.all (Endpoint.bound s.queues.length) then some { s with epts } else none
  | .rxCb hold =>
    match s.ret, (s.link.side r).rx.hand with
    | none, .seen g =>
      match s.epts.find? fun x => x.addr = s.link.m.ld32 (hdrDstAt g.buffer) with
      | none => some { s with ret := some false }
      | some ⟨_, .app⟩ => some { s with ret := some hold }
      | some ⟨_, .queue k⟩ => s.queues[k]?.map fun q => s.queueRxCb k q (msgOf s.link.m g)
    | _, _ => none
  | .rxDone => s.ret.bind fun hold => (s.link.step c r (.rx (.done hold))).map fun link => { s with link, ret := none }
  | .envGetQueue k =>
    s.queues[k]?.map fun q =>
      match q.envGetQueue with
      | none => s
      | some (e, q) => { s with queues := s.queues.set k q, tasks := s.tasks ++ [e] }
  | .release i =>
    s.tasks[i]?.map fun e =>
      { s with link := s.link.giveBack c r e.data, tasks := s.tasks.eraseIdx i, freed := s.freed ++ [e] }

def State.step : Move → Option State
  | .link q a => if s.isOther r q a then (s.link.step c q a).map fun link => { s with link } else none
  | .own a => if (s.link.side r).halted then none else s.own c r a

end

/-- The states of the runs whose steps all meet `ok`. -/
inductive Reachable (c : LinkConfig) (r : Role) (ok : State → Move → Bool) (s₀ : State) : State → Prop
  | start : Reachable c r ok s₀ s₀
  | step {s s' : State} {mv : Move} (h : Reachable c r ok s₀ s) (hok : ok s mv = true) (hs : s.step c r mv = some s') :
    Reachable c r ok s₀ s'

/-- Every step, save a release of the message that the receive callback has not finished. -/
def settled (r : Role) (s : State) : Move → Bool
  | .own (.release i) => s.tasks[i]?.all fun e => (s.link.side r).rx.hand.got.all fun g => e.data ≠ msgDataAt g.buffer
  | _ => true

/-- A run whose steps meet `ok`, and its final state. -/
def State.run (c : LinkConfig) (r : Role) (ok : State → Move → Bool) : State → List Move → Option State
  | s, [] => some s
  | s, mv :: mvs => if ok s mv then (s.step c r mv).bind fun s => s.run c r ok mvs else none

/-! ## The receive functions -/

/-- `rpmsg_queue_recv` with nothing in between takes the first message of the queue and gives its buffer back. -/
theorem own_recv {c : LinkConfig} {r : Role} {s : State} {k : Nat} {q : EnvQueue} {a : MsgQueue.Args} {res : MsgQueue.Result}
    {shared : MsgQueue.Shared} (hk : s.queues[k]? = some q) (hv : a.valid = true)
    (hr : MsgQueue.rpmsgQueueRecv c.clear a ⟨(s.link.side r).dev, s.link.m, q.items⟩ = some (res, shared))
    (hne : q.items ≠ []) :
    ∃ s₁ s₂ q', s.own c r (.envGetQueue k) = some s₁ ∧ s₁.own c r (.release s.tasks.length) = some s₂ ∧
      shared = ⟨(s₂.link.side r).dev, s₂.link.m, q'.items⟩ ∧ s₂.queues = s.queues.set k q' ∧
      s₂.tasks = s.tasks := by
  cases hq : q.items with
  | nil => exact absurd hq hne
  | cons e items =>
    have hhead : q.items.head? = some e := by
      rw [hq]
      rfl
    obtain ⟨q', hget⟩ : ∃ q', q.envGetQueue = some (e, q') := ⟨_, Option.map_eq_some_iff.2 ⟨e, hhead, rfl⟩⟩
    have hitems : q'.items = items := by
      have hcons := (EnvQueue.envGetQueue_items hget).1
      rw [hq] at hcons
      exact (List.cons.inj hcons).2.symm
    rw [hq] at hr
    unfold MsgQueue.rpmsgQueueRecv MsgQueue.release at hr
    simp only [hv, Bool.not_true, Bool.false_eq_true, if_false, if_neg e.data_ne, Option.map_map,
      Option.map_eq_some_iff] at hr
    obtain ⟨⟨dev, m⟩, hrel, hx⟩ := hr
    obtain ⟨-, rfl⟩ := Prod.mk.inj hx
    have herase : (s.tasks ++ [e]).eraseIdx s.tasks.length = s.tasks := by
      rw [List.eraseIdx_append_of_length_le le_rfl, Nat.sub_self]
      exact List.append_nil _
    refine ⟨{ s with queues := s.queues.set k q', tasks := s.tasks ++ [e] },
      { s with link := s.link.giveBack c r e.data, queues := s.queues.set k q', freed := s.freed ++ [e] }, q', ?_, ?_, ?_,
      rfl, rfl⟩
    · simp only [State.own, hk, Option.map_some, hget]
    · simp only [State.own, List.getElem?_concat_length, Option.map_some, herase]
    · simp only [Link.giveBack, hrel, Function.update_self, hitems]

end RxQueues

end RpmsgLite
