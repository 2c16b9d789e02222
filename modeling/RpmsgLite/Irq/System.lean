/-
The notification side of the link. To the messaging functions of the two cores it adds what lies between
an enqueue and the peer's callback: `virtqueue_kick`, the platform's `platform_notify` and interrupt
handler, `env_isr` and the loop of `rpmsg_lite_rx_callback`. A `Port` is one platform, and `Sys.step` lets
either core take any of its micro-steps. The locks around a kick are left out: more than one task may be
inside a kick, which only adds interleavings. Other instances on the same platform take part through their
notifications: their tasks may call `platform_notify` at any time, and their receive callbacks end with a
kick or without one.
-/
import RpmsgLite.Link.Kicks
import RpmsgLite.Lib.Runs

namespace RpmsgLite

/-! ## Platforms -/

/-- What an interrupt handler does after a micro-step. -/
inductive HandlerNext (H : Type)
  | goto (pc : H)
  /-- calls `env_isr(vector)` and goes on at `pc` -/
  | envIsr (vector : UInt32) (pc : H)
  | done

/-- A platform: the state `Hw` of its mailbox, the micro-steps of `platform_notify` and of the handler. -/
structure Port where
  Hw : Type
  NotifyPc : Type
  HandlerPc : Type
  /-- `platform_notify` with its vector -/
  platformNotify : UInt32 → NotifyPc
  /-- one step of core `r`; a wait repeats its state, `none` is the return -/
  notifyStep : Role → NotifyPc → Hw → Hw × Option NotifyPc
  /-- the interrupt line of core `r` -/
  raised : Role → Hw → Bool
  /-- the core enters its handler -/
  accept : Role → Hw → Hw
  handler : HandlerPc
  handlerStep : Role → HandlerPc → Hw → Hw × HandlerNext HandlerPc

/-! ## The state -/

def ISR_COUNT : UInt32 := 32

/-- The variables behind a core's interrupt: `isr_table` with the virtqueues of the link, the platform's
counters and enables. -/
structure IsrState where
  isrTable : UInt32 → Option Queue
  isrCounter : Nat
  disableCounter : Nat
  /-- the mailbox's receive interrupt -/
  mailbox : Bool
  /-- the line in the interrupt controller -/
  nvic : Bool

/-- `env_register_isr` -/
def IsrState.envRegisterIsr (i : IsrState) (vector : UInt32) (q : Queue) : IsrState :=
  if vector < ISR_COUNT then { i with isrTable := Function.update i.isrTable vector (some q) } else i

/-- A `virtqueue_kick`: before `vq_ring_must_notify_host`, or inside `platform_notify`. Of another instance's
kick only the call is here. -/
structure Kick (N : Type) where
  queue : Option Queue
  call : Option N

/-- What the interrupt side of a core does. -/
inductive Irq (H N : Type)
  | idle
  | handler (pc : H)
  /-- `rpmsg_lite_rx_callback` between two of its steps, with `rx_freed` -/
  | rxCallback (freed : Bool) (pc : H)
  /-- the receive callback of another instance, for its receive queue `vector` -/
  | other (vector : UInt32) (pc : H)
  /-- the kick at the end of `rpmsg_lite_rx_callback` -/
  | kick (k : Kick N) (pc : H)

def Irq.isIdle {H N : Type} : Irq H N → Bool
  | .idle => true
  | _ => false

structure Cpu (P : Port) where
  /-- what is left of the initialisation -/
  boot : List (IsrState → IsrState)
  isr : IsrState
  /-- the kicks of the tasks -/
  kicks : List (Kick P.NotifyPc)
  irq : Irq P.HandlerPc P.NotifyPc
  /-- the peer has freed a buffer since the last `rpmsg_lite_tx_callback` -/
  unwoken : Bool

structure Sys (P : Port) where
  link : Link
  hw : P.Hw
  cpu : Role → Cpu P

structure SysConfig where
  link : LinkConfig
  /-- `RL_ALLOW_CONSUMED_BUFFERS_NOTIFICATION` -/
  notifyFreed : Bool
  /-- the tasks of a core wait while its handler runs -/
  single : Bool
  /-- the receive queues of other instances -/
  others : Role → UInt32 → Bool

/-! ## Steps -/

inductive Move
  /-- the next step of the initialisation -/
  | boot
  /-- a task's step -/
  | task (a : Act)
  /-- the next step of a task's kick -/
  | kick (i : Nat)
  /-- the core takes its interrupt -/
  | interrupt
  /-- the next step of the handler, or of the callback's kick -/
  | handler
  /-- a step of `rpmsg_lite_rx_callback` or of the endpoint's callback -/
  | callback (a : RxAct)
  /-- a task of another instance calls `platform_notify` -/
  | notify (vector : UInt32)
  /-- the receive callback of another instance returns, after a kick if it has freed a buffer -/
  | otherEnd (freed : Bool)

/-- The steps of the tasks; those of the receive callback belong to the handler. -/
def Act.ofTask : Act → Bool
  | .tx _ => true
  | .rx (.writeHeld _ _ _) => true
  | .rx (.releaseRxBuffer _) => true
  | _ => false

def RxAct.ofCallback : RxAct → Bool
  | .writeHeld _ _ _ => false
  | .releaseRxBuffer _ => false
  | _ => true

/-- The steps that return a buffer to the peer. -/
def Act.frees : Act → Bool
  | .rx (.done false) => true
  | .rx (.releaseRxBuffer _) => true
  | _ => false

def Move.frees : Move → Bool
  | .task a => a.frees
  | .callback a => (Act.rx a).frees
  | _ => false

section Step

variable {P : Port} (c : SysConfig) (s : Sys P) (r : Role)

def Sys.dev : RpmsgLiteInstance := (s.link.side r).dev

def Sys.set (x : Cpu P) : Sys P := { s with cpu := Function.update s.cpu r x }

/-- One step of a kick. -/
def Sys.kickStep (k : Kick P.NotifyPc) : P.Hw × Option (Kick P.NotifyPc) :=
  match k.call, k.queue with
  | some pc, _ =>
    let (hw, next) := P.notifyStep r pc s.hw
    (hw, next.map fun pc => { k with call := some pc })
  | none, some z =>
    if vqRingMustNotifyHost ((s.dev r).queue z) s.link.m then
      (s.hw, some { k with call := some (P.platformNotify ((s.dev r).vector z)) })
    else (s.hw, none)
  | none, none => (s.hw, none)

/-- Another instance's kick of the receive queue `vector`. -/
def Port.kick (vector : UInt32) : Kick P.NotifyPc := ⟨none, some (P.platformNotify vector)⟩

/-- The state after the messaging step `a`, which may return a buffer to the peer. -/
def Sys.messaged (a : Act) (l : Link) : Sys P :=
  let s := { s with link := l }
  if a.frees then s.set r.peer { s.cpu r.peer with unwoken := true } else s

/-- The kick at the end of a task's step: on the tvq after an enqueue, on the rvq after a release. -/
def Sys.kicked (a : Act) (l : Link) : List (Kick P.NotifyPc) :=
  if (l.side r).tx.sent.length ≠ (s.link.side r).tx.sent.length then [⟨some .tvq, none⟩]
  else if a.frees && c.notifyFreed then [⟨some .rvq, none⟩]
  else []

/-- `env_isr` and `virtqueue_notification`; a vector without a virtqueue is ignored. -/
def Sys.envIsr (vector : UInt32) (pc : P.HandlerPc) : Option (Sys P) :=
  if ISR_COUNT ≤ vector then none
  else
    match (s.cpu r).isr.isrTable vector with
    | none => some (s.set r { s.cpu r with irq := if c.others r vector then .other vector pc else .handler pc })
    | some q =>
      match ((s.dev r).queue q).callback with
      | .rxCallback => some (s.set r { s.cpu r with irq := .rxCallback false pc })
      | .txCallback =>
        (s.link.step c.link r .txCallback).map fun l =>
          { s with link := l }.set r { s.cpu r with irq := .handler pc, unwoken := false }

/-- Where `rpmsg_lite_rx_callback` is after the step `a`: at its next step, or, when `vq_rx` has returned
NULL, at its kick or its end. -/
def rxCallbackNext {H N : Type} (freed : Bool) (pc : H) (a : RxAct) (l : Link) : Irq H N :=
  let freed := freed || (Act.rx a).frees
  if a = .rx ∧ (l.side r).rx.hand = .idle then
    if freed && c.notifyFreed then .kick ⟨some .rvq, none⟩ pc else .handler pc
  else .rxCallback freed pc

/-- `none` is a step the core cannot take in this state. -/
def Sys.step : Move → Option (Sys P)
  | .boot =>
    match (s.cpu r).boot with
    | [] => none
    | f :: fs =>
      if c.single && !(s.cpu r).irq.isIdle then none
      else some (s.set r { s.cpu r with boot := fs, isr := f (s.cpu r).isr })
  | .task a =>
    if !a.ofTask || !(s.cpu r).boot.isEmpty || c.single && !(s.cpu r).irq.isIdle then none
    else
      (s.link.step c.link r a).map fun l =>
        (s.messaged r a l).set r { s.cpu r with kicks := (s.cpu r).kicks ++ s.kicked c r a l }
  | .kick i =>
    if c.single && !(s.cpu r).irq.isIdle then none
    else
      match (s.cpu r).kicks[i]? with
      | none => none
      | some k =>
        match s.kickStep r k with
        | (hw, none) => some ({ s with hw }.set r { s.cpu r with kicks := (s.cpu r).kicks.eraseIdx i })
        | (hw, some k) => some ({ s with hw }.set r { s.cpu r with kicks := (s.cpu r).kicks.set i k })
  | .interrupt =>
    if (s.cpu r).irq.isIdle && (s.cpu r).isr.mailbox && (s.cpu r).isr.nvic && P.raised r s.hw then
      some ({ s with hw := P.accept r s.hw }.set r { s.cpu r with irq := .handler P.handler })
    else none
  | .handler =>
    match (s.cpu r).irq with
    | .handler pc =>
      match P.handlerStep r pc s.hw with
      | (hw, .goto pc) => some ({ s with hw }.set r { s.cpu r with irq := .handler pc })
      | (hw, .envIsr vector pc) => { s with hw }.envIsr c r vector pc
      | (hw, .done) => some ({ s with hw }.set r { s.cpu r with irq := .idle })
    | .kick k pc =>
      match s.kickStep r k with
      | (hw, none) => some ({ s with hw }.set r { s.cpu r with irq := .handler pc })
      | (hw, some k) => some ({ s with hw }.set r { s.cpu r with irq := .kick k pc })
    | _ => none
  | .callback a =>
    match (s.cpu r).irq with
    | .rxCallback freed pc =>
      if !a.ofCallback then none
      else
        (s.link.step c.link r (.rx a)).map fun l =>
          (s.messaged r (.rx a) l).set r { s.cpu r with irq := rxCallbackNext c r freed pc a l }
    | _ => none
  | .notify vector =>
    if c.single && !(s.cpu r).irq.isIdle then none
    else some (s.set r { s.cpu r with kicks := (s.cpu r).kicks ++ [P.kick vector] })
  | .otherEnd freed =>
    match (s.cpu r).irq with
    | .other vector pc =>
      some (s.set r { s.cpu r with irq := if freed && c.notifyFreed then .kick (P.kick vector) pc else .handler pc })
    | _ => none

end Step

/-! ## Runs -/

/-- The states of all runs whose steps all satisfy `ok`. -/
inductive Sys.Reachable {P : Port} (c : SysConfig) (ok : Sys P → Role → Move → Prop) (s₀ : Sys P) : Sys P → Prop
  | start : Reachable c ok s₀ s₀
  | step {s s' : Sys P} {r : Role} {mv : Move} (h : Reachable c ok s₀ s) (hok : ok s r mv) (hs : s.step c r mv = some s') :
    Reachable c ok s₀ s'

/-- The run of a list of steps. -/
def Sys.run {P : Port} (c : SysConfig) (s : Sys P) : List (Role × Move) → Option (Sys P)
  | [] => some s
  | (r, mv) :: moves => (s.step c r mv).bind fun s => s.run c moves

theorem Sys.isRun {P : Port} (c : SysConfig) : IsRun (fun (s : Sys P) mv => s.step c mv.1 mv.2) (Sys.run c) :=
  ⟨fun _ => rfl, fun _ _ _ => rfl⟩

theorem Sys.reachable_of_run {P : Port} {c : SysConfig} {s₀ s s' : Sys P} {moves : List (Role × Move)}
    (h : Sys.Reachable c (fun _ _ _ => True) s₀ s) (hr : s.run c moves = some s') :
    Sys.Reachable c (fun _ _ _ => True) s₀ s' :=
  (Sys.isRun c).keeps (fun h hstep => h.step trivial hstep) h hr

/-- The run of a list of steps that pass the test `check`. -/
def Sys.runIf {P : Port} (c : SysConfig) (check : Sys P → Role → Move → Bool) (s : Sys P) :
    List (Role × Move) → Option (Sys P)
  | [] => some s
  | (r, mv) :: moves => if check s r mv then (s.step c r mv).bind fun s => s.runIf c check moves else none

theorem Sys.isRun_if {P : Port} (c : SysConfig) (check : Sys P → Role → Move → Bool) :
    IsRun (IsRun.guarded (fun s mv => check s mv.1 mv.2) fun s mv => s.step c mv.1 mv.2) (Sys.runIf c check) :=
  .of_guarded (fun _ => rfl) fun _ _ _ => rfl

theorem Sys.reachable_of_runIf {P : Port} {c : SysConfig} {check : Sys P → Role → Move → Bool}
    {ok : Sys P → Role → Move → Prop} (hok : ∀ s r mv, check s r mv = true → ok s r mv) {s₀ s s' : Sys P}
    {moves : List (Role × Move)} (h : Sys.Reachable c ok s₀ s) (hr : s.runIf c check moves = some s') :
    Sys.Reachable c ok s₀ s' :=
  (Sys.isRun_if c check).keeps_of_check (fun hc h hstep => h.step (hok _ _ _ hc) hstep) h hr

/-- What holds at the start and survives every step holds in every state. -/
theorem Sys.Reachable.invariant {P : Port} {c : SysConfig} {ok : Sys P → Role → Move → Prop} {s₀ s : Sys P}
    {I : Sys P → Prop} (h : Sys.Reachable c ok s₀ s) (h₀ : I s₀)
    (hstep : ∀ s r mv s', I s → ok s r mv → s.step c r mv = some s' → I s') : I s := by
  induction h with
  | start => exact h₀
  | step _ hok hs ih => exact hstep _ _ _ _ ih hok hs

end RpmsgLite
