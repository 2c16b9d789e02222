/-
The receive queue of `rpmsg_queue.c`: `rpmsg_queue_recv`, `rpmsg_queue_recv_nocopy` and `rpmsg_queue_nocopy_free` over
a FIFO of the environment, called by any number of tasks and cut where other tasks and the receive callback may run.
-/
import RpmsgLite.Ept.Endpoint
import RpmsgLite.Link.GiveBack
import RpmsgLite.Lib.Runs

namespace RpmsgLite

namespace MsgQueue

open ByteMem

def RL_ERR_NO_BUFF : Int := -5006

/-- `rpmsg_queue_rx_cb_data_t`: the payload pointer of a message is not NULL. -/
structure RxCbData where
  src : UInt32
  data : Nat
  len : UInt32
  data_ne : data ≠ 0
deriving DecidableEq

/-- What the functions of all tasks share. -/
structure Shared where
  dev : RpmsgLiteInstance
  m : ByteMem
  queue : List RxCbData

/-- The arguments of a receive function: which pointers are not NULL, and the room at `data`. -/
structure Args where
  dev : Bool
  q : Bool
  data : Bool
  src : Bool
  len : Bool
  maxlen : UInt32

/-- The pointers that must not be NULL. -/
def Args.valid (a : Args) : Bool := a.dev && a.q && a.data

/-- What `rpmsg_queue_recv` returns and writes; `data` are the bytes it copies. -/
structure Result where
  status : Int
  src : Option UInt32
  len : Option UInt32
  data : Option (List UInt8)
deriving DecidableEq

/-- What `rpmsg_queue_recv_nocopy` returns and writes. -/
structure NocopyResult where
  status : Int
  src : Option UInt32
  len : Option UInt32
  data : Option Nat
deriving DecidableEq

/-- An error before anything is written. -/
def Result.failed (status : Int) : Result := ⟨status, none, none, none⟩

def NocopyResult.failed (status : Int) : NocopyResult := ⟨status, none, none, none⟩

def Args.outSrc (a : Args) (e : RxCbData) : Option UInt32 := if a.src then some e.src else none

def Args.outLen (a : Args) (e : RxCbData) : Option UInt32 := if a.len then some e.len else none

/-- `rpmsg_queue_recv` between `env_get_queue` and the release. -/
def recvCopy (a : Args) (m : ByteMem) (e : RxCbData) : Result :=
  if a.maxlen ≥ e.len then ⟨RL_SUCCESS, a.outSrc e, a.outLen e, some (m.block e.data e.len.toNat)⟩
  else ⟨RL_ERR_BUFF_SIZE, a.outSrc e, a.outLen e, none⟩

/-- The status of the release decides between `retval` and an error. -/
def Result.ret (r : Result) (status : Int) : Result := { r with status := if status = RL_SUCCESS then r.status else RL_ERR_PARAM }

/-- `rpmsg_queue_recv_nocopy` after `env_get_queue`. -/
def nocopyOut (a : Args) (e : RxCbData) : NocopyResult := ⟨RL_SUCCESS, a.outSrc e, a.outLen e, some e.data⟩

section

variable (clear : Bool)

/-- `rpmsg_lite_release_rx_buffer` on an instance; `none` is a failed assertion. -/
def release (s : Shared) (rxbuf : Nat) : Option (Int × Shared) :=
  if rxbuf = 0 then some (RL_ERR_PARAM, s)
  else (rpmsgLiteReleaseRxBuffer clear s.dev s.m rxbuf).map fun x => (RL_SUCCESS, { s with dev := x.1, m := x.2 })

/-- `rpmsg_queue_recv` -/
def rpmsgQueueRecv (a : Args) (s : Shared) : Option (Result × Shared) :=
  if !a.valid then some (.failed RL_ERR_PARAM, s)
  else
    match s.queue with
    | [] => some (.failed RL_ERR_NO_BUFF, s)
    | e :: queue => (release clear { s with queue } e.data).map fun x => ((recvCopy a s.m e).ret x.1, x.2)

/-- `rpmsg_queue_recv_nocopy` -/
def rpmsgQueueRecvNocopy (a : Args) (s : Shared) : NocopyResult × Shared :=
  if !a.valid then (.failed RL_ERR_PARAM, s)
  else
    match s.queue with
    | [] => (.failed RL_ERR_NO_BUFF, s)
    | e :: queue => (nocopyOut a e, { s with queue })

/-- `rpmsg_queue_nocopy_free` -/
def rpmsgQueueNocopyFree (dev : Bool) (data : Nat) (s : Shared) : Option (Int × Shared) :=
  if !dev || data = 0 then some (RL_ERR_PARAM, s)
  else (release clear s data).map fun x => (if x.1 = RL_SUCCESS then RL_SUCCESS else RL_ERR_PARAM, x.2)

/-- What an application does without `rpmsg_queue_recv`: receive without a copy, copy, and free. -/
def recvThenCopy (a : Args) (s : Shared) : Option (Result × Shared) :=
  match rpmsgQueueRecvNocopy { a with len := true } s with
  | (⟨_, src, some len, some data⟩, s) =>
    (rpmsgQueueNocopyFree clear true data s).map fun x =>
      (⟨x.1, src, if a.len then some len else none, some (s.m.block data len.toNat)⟩, x.2)
  | (r, s) => some (.failed r.status, s)

/-! ## The tasks -/

/-- Where a call is. -/
inductive Pc
  | recv (a : Args)
  | dequeued (a : Args) (e : RxCbData)
  | copied (a : Args) (e : RxCbData) (r : Result)
  | recvDone (a : Args) (r : Result)
  | nocopy (a : Args)
  | nocopyDone (a : Args) (r : NocopyResult)
  | free (dev : Bool) (data : Nat)
  | freeDone (dev : Bool) (data : Nat) (status : Int)
  /-- a failed assertion of the release -/
  | halted (data : Nat)

/-- The release at the end of a call. -/
def releases (s : Shared) (data : Nat) (pc : Int → Pc) : Shared × Pc :=
  match release clear s data with
  | none => (s, .halted data)
  | some (status, s) => (s, pc status)

/-- The next step of a call: what it leaves of the shared state, and where the call is then. On an empty queue the
timeout expires. -/
def Pc.go (s : Shared) : Pc → Option (Shared × Pc)
  | .recv a =>
    if !a.valid then some (s, .recvDone a (.failed RL_ERR_PARAM))
    else
      match s.queue with
      | [] => some (s, .recvDone a (.failed RL_ERR_NO_BUFF))
      | e :: queue => some ({ s with queue }, .dequeued a e)
  | .dequeued a e => some (s, .copied a e (recvCopy a s.m e))
  | .copied a e r => some (releases clear s e.data fun status => .recvDone a (r.ret status))
  | .nocopy a =>
    if !a.valid then some (s, .nocopyDone a (.failed RL_ERR_PARAM))
    else
      match s.queue with
      | [] => some (s, .nocopyDone a (.failed RL_ERR_NO_BUFF))
      | e :: queue => some ({ s with queue }, .nocopyDone a (nocopyOut a e))
  | .free dev data =>
    if !dev || data = 0 then some (s, .freeDone dev data RL_ERR_PARAM)
    else some (releases clear s data fun status => .freeDone dev data (if status = RL_SUCCESS then RL_SUCCESS else RL_ERR_PARAM))
  | .recvDone _ _ | .nocopyDone _ _ | .freeDone _ _ _ | .halted _ => none

/-- A call, with the shared state before and after each of its steps. -/
structure Call where
  pc : Pc
  steps : List (Shared × Shared)

def Call.new (pc : Pc) : Call := ⟨pc, []⟩

/-- The entry that is gone from the front of the queue. -/
def Shared.taken (s s' : Shared) : Option RxCbData :=
  match s.queue with
  | [] => none
  | e :: queue => if queue = s'.queue then some e else none

/-- What a call has taken from the queue. -/
def Call.got (c : Call) : Option RxCbData := c.steps.findSome? fun x => x.1.taken x.2

/-- `puts` logs what has been put in the queue, `gets` what has gone from it in the steps of each call. -/
structure State where
  shared : Shared
  calls : List Call
  puts : List RxCbData
  gets : List (Nat × RxCbData)

def State.start (s : Shared) : State := ⟨s, [], s.queue, []⟩

inductive Move
  /-- `rpmsg_queue_rx_cb` -/
  | put (e : RxCbData)
  /-- whatever else changes the rings and the shared memory -/
  | other (dev : RpmsgLiteInstance) (m : ByteMem)
  /-- a task calls one of the functions -/
  | call (pc : Pc)
  /-- a call takes its next step -/
  | go (i : Nat)

/-- The first steps of the three functions. -/
def Pc.isEntry : Pc → Bool
  | .recv _ | .nocopy _ | .free _ _ => true
  | .dequeued _ _ | .copied _ _ _ | .recvDone _ _ | .nocopyDone _ _ | .freeDone _ _ _ | .halted _ => false

/-- The step of call `i` that leads to `shared` and to `pc`. -/
def State.goes (s : State) (i : Nat) (c : Call) (shared : Shared) (pc : Pc) : State where
  shared := shared
  calls := s.calls.set i ⟨pc, c.steps ++ [(s.shared, shared)]⟩
  puts := s.puts
  gets := s.gets ++ ((s.shared.taken shared).map fun e => (i, e)).toList

/-- `capacity` is the room of the queue. -/
def State.step (capacity : Nat) (s : State) : Move → Option State
  | .put e =>
    if s.shared.queue.length < capacity then
      some { s with shared := { s.shared with queue := s.shared.queue ++ [e] }, puts := s.puts ++ [e] }
    else none
  | .other dev m => some { s with shared := { s.shared with dev, m } }
  | .call pc => if pc.isEntry then some { s with calls := s.calls ++ [.new pc] } else none
  | .go i => s.calls[i]?.bind fun c => (c.pc.go clear s.shared).map fun x => s.goes i c x.1 x.2

inductive Reachable (capacity : Nat) (s₀ : State) : State → Prop
  | start : Reachable capacity s₀ s₀
  | step {s s' : State} {mv : Move} (h : Reachable capacity s₀ s) (hs : s.step clear capacity mv = some s') :
    Reachable capacity s₀ s'

end

/-! ## What a call does -/

/-- The first entry of the queue is taken, and nothing else changes. -/
structure Took (s s' : Shared) (e : RxCbData) : Prop where
  queue : s.queue = e :: s'.queue
  dev : s'.dev = s.dev
  m : s'.m = s.m

/-- The buffer with its payload at `data` is given back, and nothing else changes. -/
structure Released (clear : Bool) (s s' : Shared) (data : Nat) : Prop where
  queue : s'.queue = s.queue
  back : GivesBack clear s.dev s.m (.ofBuf s.dev s.m data) s'.dev s'.m

/-- What `rpmsg_queue_recv` hands out of the message `e` in the memory `m`. -/
structure Delivered (a : Args) (e : RxCbData) (m : ByteMem) (r : Result) : Prop where
  src : r.src = a.outSrc e
  len : r.len = a.outLen e
  data : if e.len ≤ a.maxlen then r.status = RL_SUCCESS ∧ r.data = some (m.block e.data e.len.toNat)
    else r.status = RL_ERR_BUFF_SIZE ∧ r.data = none

/-- The error of a call that takes nothing. -/
def Args.Fails (a : Args) (s : Shared) (status : Int) : Prop :=
  if a.valid then s.queue = [] ∧ status = RL_ERR_NO_BUFF else status = RL_ERR_PARAM

/-- A call that has returned has taken one message and given it back once, or has changed nothing; between its steps the
shared state is anything. -/
def Call.Right (clear : Bool) (c : Call) : Prop :=
  match c.pc with
  | .recv _ | .nocopy _ | .free _ _ => c.steps = []
  | .dequeued a e => a.valid = true ∧ ∃ s s', c.steps = [(s, s')] ∧ Took s s' e
  | .copied a e r => a.valid = true ∧ ∃ s s' x, c.steps = [(s, s'), (x, x)] ∧ Took s s' e ∧ Delivered a e x.m r
  | .recvDone a r =>
    (a.valid = true ∧ ∃ e s s' x y y', c.steps = [(s, s'), (x, x), (y, y')] ∧ Took s s' e ∧ Delivered a e x.m r ∧
      Released clear y y' e.data) ∨
    ∃ s status, c.steps = [(s, s)] ∧ a.Fails s status ∧ r = .failed status
  | .nocopyDone a r =>
    (a.valid = true ∧ ∃ e s s', c.steps = [(s, s')] ∧ Took s s' e ∧
      r = ⟨RL_SUCCESS, a.outSrc e, a.outLen e, some e.data⟩) ∨
    ∃ s status, c.steps = [(s, s)] ∧ a.Fails s status ∧ r = .failed status
  | .freeDone dev data status =>
    ∃ s s', c.steps = [(s, s')] ∧
      if dev = true ∧ data ≠ 0 then status = RL_SUCCESS ∧ Released clear s s' data else status = RL_ERR_PARAM ∧ s' = s
  | .halted data => ∃ before s, c.steps = before ++ [(s, s)] ∧ Refuses s.dev (.ofBuf s.dev s.m data)

/-- The queue is the unread end of what was put, each call has taken at most what the log says, and the calls do what
they should. -/
structure Accounted (clear : Bool) (s : State) : Prop where
  fifo : s.gets.map Prod.snd ++ s.shared.queue = s.puts
  gets : ∀ i, s.gets.filter (fun x => x.1 = i) = ((s.calls[i]?.bind Call.got).map fun e => (i, e)).toList
  calls : ∀ c ∈ s.calls, c.Right clear

section

variable {clear : Bool} {capacity : Nat} {s s' s₀ : State} {mv : Move} {i : Nat} {c c' : Call} {e : RxCbData} {pc : Pc}
  {shared shared' : Shared}

/-- A release gives the buffer back, or its assertion fails. -/
theorem release_cases {data : Nat} (hd : data ≠ 0) (clear : Bool) (s : Shared) :
    release clear s data = none ∧ Refuses s.dev (.ofBuf s.dev s.m data) ∨
      ∃ s', release clear s data = some (RL_SUCCESS, s') ∧ Released clear s s' data := by
  unfold release
  rw [if_neg hd, rpmsgLiteReleaseRxBuffer_eq]
  rcases rpmsgLiteRxDone_free clear s.dev s.m (.ofBuf s.dev s.m data) with ⟨h, href⟩ | ⟨dev, m, h, -, hback⟩
  · exact Or.inl ⟨by rw [h]; rfl, href⟩
  · exact Or.inr ⟨{ s with dev, m }, by rw [h]; rfl, rfl, hback⟩

theorem delivered_recvCopy (a : Args) (m : ByteMem) (e : RxCbData) : Delivered a e m (recvCopy a m e) := by
  unfold recvCopy
  by_cases hle : e.len ≤ a.maxlen
  · rw [if_pos (show a.maxlen ≥ e.len from hle)]
    exact ⟨rfl, rfl, by rw [if_pos hle]; exact ⟨rfl, rfl⟩⟩
  · rw [if_neg (show ¬ a.maxlen ≥ e.len from hle)]
    exact ⟨rfl, rfl, by rw [if_neg hle]; exact ⟨rfl, rfl⟩⟩

theorem taken_eq_some : shared.taken shared' = some e ↔ shared.queue = e :: shared'.queue := by
  unfold Shared.taken
  cases shared.queue with
  | nil => simp
  | cons e' queue =>
    by_cases hq : queue = shared'.queue
    · simp [hq]
    · simp [hq]

theorem taken_eq_none (h : shared'.queue = shared.queue) : shared.taken shared' = none := by
  refine Option.eq_none_iff_forall_not_mem.2 fun e he => ?_
  have hcons := taken_eq_some.1 he
  rw [h] at hcons
  exact absurd (congrArg List.length hcons) (by rw [List.length_cons]; omega)

/-- One step of a call; only a call that has taken no step takes a message. -/
theorem Call.Right.go (h : c.Right clear) (hs : c.pc.go clear shared = some (shared', pc)) :
    Call.Right clear ⟨pc, c.steps ++ [(shared, shared')]⟩ ∧
      (shared'.queue = shared.queue ∨ c.steps = [] ∧ ∃ e, shared.queue = e :: shared'.queue) := by
  obtain ⟨pc₀, steps⟩ := c
  cases pc₀ with
  | recv a =>
    obtain rfl : steps = [] := h
    simp only [Pc.go] at hs
    split at hs
    · rename_i hv
      cases hs
      exact ⟨Or.inr ⟨shared, _, rfl, by rw [Args.Fails, if_neg (by simpa using hv)], rfl⟩, Or.inl rfl⟩
    rename_i hv
    have hv : a.valid = true := by simpa using hv
    split at hs
    · rename_i hq
      cases hs
      exact ⟨Or.inr ⟨shared, _, rfl, by rw [Args.Fails, if_pos hv]; exact ⟨hq, rfl⟩, rfl⟩, Or.inl rfl⟩
    · rename_i e queue hq
      cases hs
      exact ⟨⟨hv, shared, _, rfl, hq, rfl, rfl⟩, Or.inr ⟨rfl, e, hq⟩⟩
  | dequeued a e =>
    obtain ⟨hv, s, s', rfl, htook⟩ := h
    cases hs
    exact ⟨⟨hv, s, s', shared, rfl, htook, delivered_recvCopy a shared.m e⟩, Or.inl rfl⟩
  | copied a e r =>
    obtain ⟨hv, s, s', x, rfl, htook, hdel⟩ := h
    simp only [Pc.go, releases] at hs
    rcases release_cases e.data_ne clear shared with ⟨hrel, href⟩ | ⟨y', hrel, hback⟩
    · rw [hrel] at hs
      cases hs
      exact ⟨⟨[(s, s'), (x, x)], shared, rfl, href⟩, Or.inl rfl⟩
    · rw [hrel] at hs
      cases hs
      exact ⟨Or.inl ⟨hv, e, s, s', x, shared, _, rfl, htook, hdel, hback⟩, Or.inl hback.queue⟩
  | nocopy a =>
    obtain rfl : steps = [] := h
    simp only [Pc.go] at hs
    split at hs
    · rename_i hv
      cases hs
      exact ⟨Or.inr ⟨shared, _, rfl, by rw [Args.Fails, if_neg (by simpa using hv)], rfl⟩, Or.inl rfl⟩
    rename_i hv
    have hv : a.valid = true := by simpa using hv
    split at hs
    · rename_i hq
      cases hs
      exact ⟨Or.inr ⟨shared, _, rfl, by rw [Args.Fails, if_pos hv]; exact ⟨hq, rfl⟩, rfl⟩, Or.inl rfl⟩
    · rename_i e queue hq
      cases hs
      exact ⟨Or.inl ⟨hv, e, shared, _, rfl, ⟨hq, rfl, rfl⟩, rfl⟩, Or.inr ⟨rfl, e, hq⟩⟩
  | free dev data =>
    obtain rfl : steps = [] := h
    simp only [Pc.go, releases] at hs
    by_cases hok : dev = true ∧ data ≠ 0
    · obtain ⟨rfl, hd⟩ := hok
      rw [if_neg (by simpa using hd)] at hs
      rcases release_cases hd clear shared with ⟨hrel, href⟩ | ⟨y', hrel, hback⟩
      · rw [hrel] at hs
        cases hs
        exact ⟨⟨[], shared, rfl, href⟩, Or.inl rfl⟩
      · rw [hrel] at hs
        cases hs
        exact ⟨⟨shared, _, rfl, by rw [if_pos ⟨rfl, hd⟩]; exact ⟨rfl, hback⟩⟩, Or.inl hback.queue⟩
    · have hnull : (!dev || decide (data = 0)) = true := by
        by_contra hno
        simp only [Bool.or_eq_true, Bool.not_eq_true', decide_eq_true_iff, not_or] at hno
        exact hok ⟨by simpa using hno.1, hno.2⟩
      rw [if_pos hnull] at hs
      cases hs
      exact ⟨⟨shared, _, rfl, by rw [if_neg hok]; exact ⟨rfl, rfl⟩⟩, Or.inl rfl⟩
  | recvDone => cases hs
  | nocopyDone => cases hs
  | freeDone => cases hs
  | halted => cases hs

theorem Call.got_append (c : Call) (pc : Pc) (x : Shared × Shared) :
    Call.got ⟨pc, c.steps ++ [x]⟩ = c.got.or (x.1.taken x.2) := by
  unfold Call.got
  rw [List.findSome?_append]
  simp

theorem accounted_start : Accounted clear (.start shared) := by
  refine ⟨List.nil_append _, fun i => ?_, fun c hc => nomatch hc⟩
  rfl

/-- The call that takes the first entry is the only one with it. -/
theorem Accounted.go (h : Accounted clear s) (hi : s.calls[i]? = some c) (hs : c.pc.go clear s.shared = some (shared, pc)) :
    Accounted clear (s.goes i c shared pc) := by
  obtain ⟨hright, hqueue⟩ := (h.calls c (List.mem_of_getElem? hi)).go hs
  refine ⟨?_, fun j => ?_, fun d hd => ?_⟩
  · show (s.gets ++ ((s.shared.taken shared).map fun e => (i, e)).toList).map Prod.snd ++ shared.queue = s.puts
    rcases hqueue with hsame | ⟨-, e, he⟩
    · rw [taken_eq_none hsame, hsame, ← h.fifo]
      simp
    · rw [taken_eq_some.2 he, ← h.fifo, he]
      simp
  · show (s.gets ++ ((s.shared.taken shared).map fun e => (i, e)).toList).filter _ =
      (((s.calls.set i ⟨pc, c.steps ++ [(s.shared, shared)]⟩)[j]?.bind Call.got).map _).toList
    rw [List.filter_append, h.gets j]
    by_cases hj : i = j
    · subst hj
      rw [List.getElem?_set_self (List.getElem?_eq_some_iff.1 hi).1, hi, Option.bind_some, Option.bind_some, Call.got_append]
      rcases hqueue with hsame | ⟨hnil, e, he⟩
      · simp [taken_eq_none hsame]
      · have hgot : c.got = none := by
          rw [Call.got, hnil]
          rfl
        simp [taken_eq_some.2 he, hgot]
    · rw [List.getElem?_set_ne hj]
      cases s.shared.taken shared with
      | none => simp
      | some e => simp [hj]
  · rcases List.mem_or_eq_of_mem_set hd with hd | rfl
    · exact h.calls d hd
    · exact hright

/-- A new call has taken nothing. -/
theorem Accounted.call (h : Accounted clear s) (hpc : pc.isEntry = true) :
    Accounted clear { s with calls := s.calls ++ [.new pc] } := by
  refine ⟨h.fifo, fun j => ?_, fun d hd => ?_⟩
  · show s.gets.filter _ = (((s.calls ++ [.new pc])[j]?.bind Call.got).map _).toList
    rw [h.gets j]
    rcases Nat.lt_trichotomy j s.calls.length with hj | rfl | hj
    · rw [List.getElem?_append_left hj]
    · rw [List.getElem?_concat_length, List.getElem?_eq_none le_rfl]
      rfl
    · rw [List.getElem?_eq_none hj.le, List.getElem?_eq_none (by simpa using hj)]
  · rcases List.mem_append.1 hd with hd | hd
    · exact h.calls d hd
    · rw [List.mem_singleton.1 hd]
      cases pc with
      | recv => rfl
      | nocopy => rfl
      | free => rfl
      | dequeued => cases hpc
      | copied => cases hpc
      | recvDone => cases hpc
      | nocopyDone => cases hpc
      | freeDone => cases hpc
      | halted => cases hpc

theorem Accounted.step (h : Accounted clear s) (hs : s.step clear capacity mv = some s') : Accounted clear s' := by
  cases mv with
  | put e =>
    simp only [State.step] at hs
    split at hs
    · cases hs
      refine ⟨?_, h.gets, h.calls⟩
      show s.gets.map Prod.snd ++ (s.shared.queue ++ [e]) = s.puts ++ [e]
      rw [← h.fifo, List.append_assoc]
    · cases hs
  | other dev m =>
    cases hs
    exact ⟨h.fifo, h.gets, h.calls⟩
  | call pc =>
    simp only [State.step] at hs
    split at hs
    · rename_i hpc
      cases hs
      exact h.call hpc
    · cases hs
  | go i =>
    obtain ⟨c, hi, hgo⟩ := Option.bind_eq_some_iff.1 hs
    obtain ⟨x, hx, rfl⟩ := Option.map_eq_some_iff.1 hgo
    exact h.go hi hx

theorem Reachable.accounted (h : Reachable clear capacity (.start shared) s) : Accounted clear s := by
  induction h with
  | start => exact accounted_start
  | step _ hs ih => exact ih.step hs

/-! ## A call that runs alone -/

/-- A run, and its final state. -/
def State.run (clear : Bool) (capacity : Nat) : State → List Move → Option State
  | s, [] => some s
  | s, mv :: mvs => (s.step clear capacity mv).bind fun s => s.run clear capacity mvs

theorem isRun (clear : Bool) (capacity : Nat) : IsRun (State.step clear capacity) (State.run clear capacity) :=
  ⟨fun _ => rfl, fun _ _ _ => rfl⟩

theorem reachable_of_run {mvs : List Move} (hs : Reachable clear capacity s₀ s)
    (h : s.run clear capacity mvs = some s') : Reachable clear capacity s₀ s' :=
  (isRun clear capacity).keeps (fun hs hstep => hs.step hstep) hs h

/-- The last call takes its next step. -/
theorem run_go_last {calls : List Call} {mvs : List Move} (hc : s.calls = calls ++ [c])
    (hs : c.pc.go clear s.shared = some (shared, pc)) :
    s.run clear capacity (.go calls.length :: mvs) = (s.goes calls.length c shared pc).run clear capacity mvs := by
  show (s.calls[calls.length]?.bind _).bind _ = _
  rw [hc, List.getElem?_concat_length, Option.bind_some, hs]
  rfl

theorem goes_calls {calls : List Call} (shared : Shared) (pc : Pc) (hc : s.calls = calls ++ [c]) :
    (s.goes calls.length c shared pc).calls = calls ++ [⟨pc, c.steps ++ [(s.shared, shared)]⟩] := by
  show s.calls.set calls.length _ = _
  rw [hc, List.set_append_right _ _ le_rfl, Nat.sub_self]
  rfl

/-- Without anything in between, the steps of a receiving task are `rpmsg_queue_recv`. -/
theorem run_recv {a : Args} {r : Result} {queue : List RxCbData} (hv : a.valid = true)
    (hq : s.shared.queue = e :: queue) (hr : rpmsgQueueRecv clear a s.shared = some (r, shared')) :
    ∃ s', s.run clear capacity [.call (.recv a), .go s.calls.length, .go s.calls.length, .go s.calls.length] = some s' ∧
      s'.shared = shared' ∧ ∃ steps, s'.calls = s.calls ++ [⟨.recvDone a r, steps⟩] := by
  unfold rpmsgQueueRecv at hr
  simp only [hv, Bool.not_true, Bool.false_eq_true, if_false, hq] at hr
  obtain ⟨⟨status, shared₁⟩, hrel, hx⟩ := Option.map_eq_some_iff.1 hr
  obtain ⟨rfl, rfl⟩ := Prod.mk.inj hx
  let sharedQ : Shared := { s.shared with queue }
  have h₁ : (Pc.recv a).go clear s.shared = some (sharedQ, .dequeued a e) := by
    simp only [Pc.go, hv, Bool.not_true, Bool.false_eq_true, if_false, hq]
    rfl
  have h₂ : (Pc.dequeued a e).go clear sharedQ = some (sharedQ, .copied a e (recvCopy a s.shared.m e)) := rfl
  have h₃ : (Pc.copied a e (recvCopy a s.shared.m e)).go clear sharedQ =
      some (shared₁, .recvDone a ((recvCopy a s.shared.m e).ret status)) := by
    simp only [Pc.go, releases, show release clear sharedQ e.data = some (status, shared₁) from hrel]
  let s₁ : State := { s with calls := s.calls ++ [.new (.recv a)] }
  have hc₁ : s₁.calls = s.calls ++ [.new (.recv a)] := rfl
  have hc₂ := goes_calls sharedQ (.dequeued a e) hc₁
  have hc₃ := goes_calls sharedQ (.copied a e (recvCopy a s.shared.m e)) hc₂
  have hc₄ := goes_calls shared₁ (.recvDone a ((recvCopy a s.shared.m e).ret status)) hc₃
  refine ⟨_, ?_, ?_, _, hc₄⟩
  · show s₁.run clear capacity _ = _
    rw [run_go_last hc₁ h₁, run_go_last hc₂ h₂, run_go_last hc₃ h₃]
    rfl
  · rfl

/-! ## With and without a copy -/

/-- On the pointer of a message, the free is the release. -/
theorem nocopyFree_eq {data : Nat} (hd : data ≠ 0) : rpmsgQueueNocopyFree clear true data shared = release clear shared data := by
  have hnull : ¬ (!true || decide (data = 0)) = true := by simpa using hd
  unfold rpmsgQueueNocopyFree
  rw [if_neg hnull]
  rcases release_cases hd clear shared with ⟨hr, -⟩ | ⟨shared', hr, -⟩
  · rw [hr]
    rfl
  · rw [hr]
    rfl

theorem nocopyOut_len {a : Args} : nocopyOut { a with len := true } e = ⟨RL_SUCCESS, a.outSrc e, some e.len, some e.data⟩ := rfl

/-- On a message that fits, `rpmsg_queue_recv` is a receive without a copy, a copy, and a free. -/
theorem recv_eq_recvThenCopy {a : Args} (hfit : ∀ e ∈ shared.queue.head?, e.len ≤ a.maxlen) :
    rpmsgQueueRecv clear a shared = recvThenCopy clear a shared := by
  have hvalid : Args.valid { a with len := true } = a.valid := rfl
  unfold rpmsgQueueRecv recvThenCopy rpmsgQueueRecvNocopy
  rw [hvalid]
  by_cases hv : a.valid = true
  · simp only [hv, Bool.not_true, Bool.false_eq_true, if_false]
    cases hq : shared.queue with
    | nil => rfl
    | cons e queue =>
      have hlen : a.maxlen ≥ e.len := hfit e (by rw [hq]; rfl)
      simp only [nocopyOut_len, nocopyFree_eq e.data_ne, recvCopy, if_pos hlen]
      rcases release_cases e.data_ne clear ⟨shared.dev, shared.m, queue⟩ with ⟨hr, -⟩ | ⟨shared', hr, -⟩
      · rw [hr]
        rfl
      · rw [hr]
        rfl
  · rw [Bool.not_eq_true] at hv
    rw [hv]
    rfl

/-- A call with nothing in between takes one message, hands it out and gives its buffer back, or changes nothing. -/
theorem recv_spec {a : Args} {r : Result} (hr : rpmsgQueueRecv clear a shared = some (r, shared')) :
    (a.valid = true ∧ ∃ e queue, shared.queue = e :: queue ∧ Delivered a e shared.m r ∧
      Released clear { shared with queue } shared' e.data) ∨
    ∃ status, shared' = shared ∧ a.Fails shared status ∧ r = .failed status := by
  unfold rpmsgQueueRecv at hr
  split at hr
  · rename_i hv
    cases hr
    exact Or.inr ⟨_, rfl, by rw [Args.Fails, if_neg (by simpa using hv)], rfl⟩
  rename_i hv
  have hv : a.valid = true := by simpa using hv
  split at hr
  · rename_i hq
    cases hr
    exact Or.inr ⟨_, rfl, by rw [Args.Fails, if_pos hv]; exact ⟨hq, rfl⟩, rfl⟩
  · rename_i e queue hq
    obtain ⟨⟨status, shared₁⟩, hrel, hx⟩ := Option.map_eq_some_iff.1 hr
    obtain ⟨rfl, rfl⟩ := Prod.mk.inj hx
    rcases release_cases e.data_ne clear { shared with queue } with ⟨hnone, -⟩ | ⟨shared₂, hsome, hback⟩
    · rw [hnone] at hrel
      cases hrel
    · rw [hsome] at hrel
      cases hrel
      exact Or.inl ⟨hv, e, queue, hq, delivered_recvCopy a shared.m e, hback⟩

/-- In every run of any number of receiving tasks each message is taken once, in the order of the queue, and each call gives
back on the ring what it took, once; so does `rpmsg_queue_recv` with nothing in between, which on a message that fits does
what the three calls do. -/
theorem recv_releases_dequeued :
    (∀ (capacity : Nat) (s₀ : Shared) (s : State), Reachable clear capacity (.start s₀) s → Accounted clear s) ∧
      (∀ (a : Args) (s s' : Shared) (r : Result), rpmsgQueueRecv clear a s = some (r, s') →
        (a.valid = true ∧ ∃ e queue, s.queue = e :: queue ∧ Delivered a e s.m r ∧
          Released clear { s with queue } s' e.data) ∨
        ∃ status, s' = s ∧ a.Fails s status ∧ r = .failed status) ∧
      ∀ (a : Args) (s : Shared), (∀ e ∈ s.queue.head?, e.len ≤ a.maxlen) →
        rpmsgQueueRecv clear a s = recvThenCopy clear a s :=
  ⟨fun _ _ _ h => h.accounted, fun _ _ _ _ hr => recv_spec hr, fun _ _ hfit => recv_eq_recvThenCopy hfit⟩

end

/-- An instance with two descriptors and its rings at 4096. -/
def devTwo : RpmsgLiteInstance :=
  let vq : Virtqueue := ⟨.rxCallback, 0, vringInit 32 2 4096 64, 0, 2, 0, 0, 0, 0⟩
  ⟨.remote, vq, vq, 0, true, 4400, 0, 0⟩

def messageOne : RxCbData := ⟨7, 4416, 3, by decide⟩

def messageTwo : RxCbData := ⟨8, 4448, 2, by decide⟩

/-- The two messages in their buffers, the second one with descriptor 1 in its header. -/
def memTwo : ByteMem := ((ByteMem.copy (fun _ => 0) 4416 [1, 2, 3]).copy 4448 [4, 5]).st16 (hdrIdxAt 4432) 1

/-- Two tasks, of which the first has too little room. -/
def twoReceivers : List Move :=
  let room (n : UInt32) : Args := ⟨true, true, true, true, true, n⟩
  [.call (.recv (room 1)), .call (.recv (room 2)), .put messageTwo, .go 0, .go 1, .go 1, .go 0, .go 1, .go 0]

/-- What a receiving call has returned. -/
def Call.result (c : Call) : Option Result :=
  match c.pc with
  | .recvDone _ r => some r
  | .recv _ | .dequeued _ _ | .copied _ _ _ | .nocopy _ | .nocopyDone _ _ | .free _ _ | .freeDone _ _ _ | .halted _ => none

/-- Each of the two tasks gives back the message it took, the first one with an error; descriptor 1 is first on the ring. -/
theorem recv_releases_dequeued_two : ∃ s shared r, Reachable false 4 (.start ⟨devTwo, memTwo, [messageOne]⟩) s ∧
    s.gets = [(0, messageOne), (1, messageTwo)] ∧
    s.calls.map Call.result =
      [some ⟨RL_ERR_BUFF_SIZE, some 7, some 3, none⟩, some ⟨RL_SUCCESS, some 8, some 2, some [4, 5]⟩] ∧
    [0, 1].map (devTwo.rvq.ring.slotIdx s.shared.m .used) = [1, 0] ∧ Accounted false s ∧
    rpmsgQueueRecv false ⟨true, true, true, true, true, 8⟩ ⟨devTwo, memTwo, [messageTwo]⟩ = some (r, shared) ∧
    Released false ⟨devTwo, memTwo, []⟩ shared messageTwo.data ∧
    recvThenCopy false ⟨true, true, true, true, true, 8⟩ ⟨devTwo, memTwo, [messageTwo]⟩ = some (r, shared) := by
  have hrun : ((State.start ⟨devTwo, memTwo, [messageOne]⟩).run false 4 twoReceivers).any (fun s =>
      decide (s.gets = [(0, messageOne), (1, messageTwo)] ∧
        s.calls.map Call.result =
          [some ⟨RL_ERR_BUFF_SIZE, some 7, some 3, none⟩, some ⟨RL_SUCCESS, some 8, some 2, some [4, 5]⟩] ∧
        [0, 1].map (devTwo.rvq.ring.slotIdx s.shared.m .used) = [1, 0])) = true := by
    decide +kernel
  obtain ⟨s, hs, hq⟩ := (Option.any_eq_true _ _).1 hrun
  obtain ⟨hgets, hresults, hring⟩ := of_decide_eq_true hq
  have hreach := reachable_of_run .start hs
  obtain ⟨⟨r, shared⟩, hr⟩ := Option.isSome_iff_exists.1 (show (rpmsgQueueRecv false ⟨true, true, true, true, true, 8⟩
    ⟨devTwo, memTwo, [messageTwo]⟩).isSome = true by decide +kernel)
  refine ⟨s, shared, r, hreach, hgets, hresults, hring, recv_releases_dequeued.1 4 _ s hreach, hr, ?_, ?_⟩
  · rcases recv_releases_dequeued.2.1 _ _ _ _ hr with ⟨-, e, queue, hqueue, -, hback⟩ | ⟨status, -, hfail, -⟩
    · cases hqueue
      exact hback
    · rw [Args.Fails, if_pos (by decide)] at hfail
      cases hfail.1
  · rw [← recv_releases_dequeued.2.2 _ _ fun e he => ?_]
    · exact hr
    · cases he
      decide

end MsgQueue

end RpmsgLite
