/-
The endpoint table and the receive callback as one machine. The application creates and destroys
endpoints, from a task or from inside an endpoint's callback; `rpmsg_lite_rx_callback` takes a buffer,
looks its destination up, calls the endpoint bound to it and gives the buffer back or holds it. Whatever
else changes the rings and the shared memory in between is one step of its own. Above it stands what the
component is for: a finite map of addresses and a dispatcher that follows it.
-/
import RpmsgLite.Ept.Endpoint
import RpmsgLite.Link.GiveBack

namespace RpmsgLite

open ByteMem

/-! ## The map -/

/-- What an address is bound to: the endpoint and its callback. -/
structure EptBinding where
  ptr : Nat
  rxCb : Nat
  rxCbData : Nat
deriving DecidableEq

abbrev EptMap := UInt32 → Option EptBinding

/-- What happens, for the log: the results of the application's calls and the way of each buffer. -/
inductive EptEvent
  /-- a create on memory that was there or not, and the endpoint it returned -/
  | create (addr : UInt32) (ok : Bool) (b : EptBinding)
  | destroy (ptr : Nat) (status : Int)
  | taken (g : Got) (msg : Msg)
  /-- the endpoint's callback, with the message it is given -/
  | called (b : EptBinding) (msg : Msg)
  | held (g : Got)
  | freed (g : Got)
deriving DecidableEq

/-- A turn of the receive loop: its buffer, and whether an endpoint's callback was called. -/
structure Turn where
  got : Got
  called : Bool
deriving DecidableEq

/-- The logs of a finite map with a dispatcher: the map they lead to, and the turn that has not ended.
A failed create returns null. -/
inductive MapRun : List EptEvent → EptMap → Option Turn → Prop
  | start : MapRun [] (fun _ => none) none
  | createFails {t M turn addr ok rxCb rxCbData} (h : MapRun t M turn)
      (hc : Chosen (fun a => M a ≠ none) addr none ∨ ok = false) :
      MapRun (t ++ [.create addr ok ⟨0, rxCb, rxCbData⟩]) M turn
  | creates {t M turn addr a b} (h : MapRun t M turn) (hc : Chosen (fun a => M a ≠ none) addr (some a)) (hb : b.ptr ≠ 0) :
      MapRun (t ++ [.create addr true b]) (Function.update M a (some b)) turn
  | destroys {t M turn a b} (h : MapRun t M turn) (hM : M a = some b) :
      MapRun (t ++ [.destroy b.ptr RL_SUCCESS]) (Function.update M a none) turn
  | calls {t M g msg b} (h : MapRun t M none) (hM : M msg.dst = some b) :
      MapRun (t ++ [.taken g msg, .called b msg]) M (some ⟨g, true⟩)
  | misses {t M g msg} (h : MapRun t M none) (hM : M msg.dst = none) : MapRun (t ++ [.taken g msg]) M (some ⟨g, false⟩)
  | holds {t M g} (h : MapRun t M (some ⟨g, true⟩)) : MapRun (t ++ [.held g]) M none
  | frees {t M turn} (h : MapRun t M (some turn)) : MapRun (t ++ [.freed turn.got]) M none

/-! ## The machine -/

structure EptConfig where
  clear : Bool
  /-- `RL_USE_STATIC_API` -/
  static : Bool

/-- One instance with its application: the endpoints it has not destroyed, and the turn of the receive loop
that has not ended. A failed `RL_ASSERT` halts it. -/
structure EptSystem where
  dev : RpmsgLiteInstance
  m : ByteMem
  table : EptTable
  epts : List Nat
  turn : Option Turn
  trace : List EptEvent
  halted : Bool

inductive EptAct
  | createEpt (addr : UInt32) (rxCb rxCbData : Nat) (mem : EptMem)
  /-- on the `i`th live endpoint -/
  | destroyEpt (i : Nat)
  /-- `vq_rx` and what follows up to the endpoint's callback -/
  | rx
  /-- the end of a turn, after a callback that returned `cbRet` -/
  | ret (cbRet : Int)
  /-- everything else that works on the rings and the shared memory -/
  | other (rvq tvq : Virtqueue) (m : ByteMem)

/-- The allocator returns memory that is not in use, the application a context that is not in use. -/
def EptMem.fits (static : Bool) (T : EptTable) (epts : List Nat) : EptMem → Bool
  | .dynamic ept node _ => !static && (ept == 0 || (T.ept ept).isNone) && (node == 0 || (T.node node).isNone)
  | .static context => static && (context == 0 || (T.node context).isSome && !epts.contains context)

namespace EptSystem

variable (c : EptConfig) (fuel : Nat) (s : EptSystem)

/-- The end of one turn of the loop: the buffer is held or freed. -/
def done (hold : Bool) (g : Got) : EptSystem :=
  match rpmsgLiteRxDone c.clear s.dev s.m hold g with
  | none => { s with halted := true }
  | some (dev, m) =>
    { s with dev, m, turn := none, trace := s.trace ++ [if hold then EptEvent.held g else EptEvent.freed g] }

/-- `none` is a step that is not taken here, or a loop that needs more fuel. -/
def step : EptAct → Option EptSystem
  | .createEpt addr rxCb rxCbData mem =>
    if s.halted || !mem.fits c.static s.table s.epts then none
    else
      (rpmsgLiteCreateEpt fuel s.table addr rxCb rxCbData mem).map fun (ept, table) =>
        { s with table
                 epts := if ept = 0 then s.epts else s.epts ++ [ept]
                 trace := s.trace ++ [.create addr mem.ptrs.isSome ⟨ept, rxCb, rxCbData⟩] }
  | .destroyEpt i =>
    if s.halted then none
    else
      s.epts[i]?.bind fun ept => (rpmsgLiteDestroyEpt fuel s.table c.static ept).map fun (status, table) =>
        { s with table
                 epts := if status = RL_SUCCESS then s.epts.eraseIdx i else s.epts
                 trace := s.trace ++ [.destroy ept status] }
  | .rx =>
    if s.halted || s.turn.isSome then none
    else
      match rpmsgLiteRx c.clear s.dev s.m with
      | (dev, none) => some { s with dev }
      | (dev, some g) =>
        let msg := msgAt s.m g.buffer
        (rpmsgLiteGetEndpointFromAddr fuel s.table msg.dst).bind fun node =>
          if node = 0 then some { s with dev, turn := some ⟨g, false⟩, trace := s.trace ++ [.taken g msg] }
          else
            (s.table.node node).bind fun n => (s.table.ept n.data).map fun e =>
              { s with dev
                       turn := some ⟨g, true⟩
                       trace := s.trace ++ [.taken g msg, .called ⟨n.data, e.rxCb, e.rxCbData⟩ msg] }
  | .ret cbRet =>
    if s.halted then none
    else s.turn.map fun t => done c s ((if t.called then cbRet else RL_RELEASE) = RL_HOLD) t.got
  | .other rvq tvq m => if s.halted then none else some { s with dev := { s.dev with rvq, tvq }, m }

/-- With enough fuel the step leads to `s'`. -/
def Steps (a : EptAct) (s' : EptSystem) : Prop := ∃ bound, ∀ fuel, bound ≤ fuel → s.step c fuel a = some s'

/-- An instance without endpoints, on any heap. -/
def start (dev : RpmsgLiteInstance) (m : ByteMem) (node : Nat → Option LList) (ept : Nat → Option RpmsgLiteEndpoint) :
    EptSystem where
  dev := dev
  m := m
  table := ⟨0, node, ept⟩
  epts := []
  turn := none
  trace := []
  halted := false

end EptSystem

/-- What a step does to the instance, the shared memory and the turn. -/
def EptSystem.Effect (c : EptConfig) (s s' : EptSystem) : EptAct → Prop
  | .createEpt _ _ _ _ => s'.dev = s.dev ∧ s'.m = s.m ∧ s'.turn = s.turn
  | .destroyEpt _ => s'.dev = s.dev ∧ s'.m = s.m ∧ s'.turn = s.turn
  | .rx => s'.m = s.m ∧
      (s'.turn = none ∧ s'.trace = s.trace ∨
        ∃ turn called, s'.turn = some turn ∧ Takes s.dev s.m turn.got s'.dev ∧
          s'.trace = s.trace ++ .taken turn.got (msgAt s.m turn.got.buffer) :: called ∧ (called ≠ [] ↔ turn.called = true))
  | .ret cbRet => ∃ turn, s.turn = some turn ∧
      if turn.called = true ∧ cbRet = RL_HOLD then
        s'.turn = none ∧ s'.trace = s.trace ++ [.held turn.got] ∧ s'.dev = s.dev ∧ KeepsIdx s.m turn.got s'.m
      else if Refuses s.dev turn.got then s' = { s with halted := true }
      else s'.turn = none ∧ s'.trace = s.trace ++ [.freed turn.got] ∧ GivesBack c.clear s.dev s.m turn.got s'.dev s'.m
  | .other rvq tvq m => s' = { s with dev := { s.dev with rvq, tvq }, m }

/-- The states of all runs. -/
inductive EptSystem.Reachable (c : EptConfig) (s₀ : EptSystem) : EptSystem → Prop
  | start : Reachable c s₀ s₀
  | step {s s' : EptSystem} {a : EptAct} (h : Reachable c s₀ s) (hs : s.Steps c a s') : Reachable c s₀ s'

end RpmsgLite
