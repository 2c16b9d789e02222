/-
The aarch64 mailbox under two cores that kick from inside their handlers. `gen_sw_mbox_sendmsg` waits for
`S_READY`, which only the own core's `gen_sw_mbox_handler` sets; called from that handler for another message
than the one in the channel it waits for ever. Where every kick in a handler finds the channel ready, or its
own message in it, no core is ever caught.
-/
import RpmsgLite.Irq.Install
import RpmsgLite.Irq.SwMbox

namespace RpmsgLite

namespace SwMbox

/-! ## The platform -/

/-- `platform_notify` carries its message along. -/
abbrev port : Port where
  Hw := Mbox
  NotifyPc := UInt32 × Send
  HandlerPc := HandlerPc
  platformNotify vector := (message vector, .readStatus)
  notifyStep r call b :=
    let (b, next) := genSwMboxSendmsg r call.1 call.2 b
    (b, next.map fun pc => (call.1, pc))
  raised r b := b.pending r
  accept r b := { b with pending := Function.update b.pending r false }
  handler := .readTxStatus
  handlerStep := genSwMboxHandler

/-- `platform_init` -/
def platformInit : IsrState := ⟨fun _ => none, 0, 0, true, false⟩

def platformInitInterrupt (vector : UInt32) (q : Queue) (i : IsrState) : IsrState := i.envRegisterIsr vector q

/-- Two initialised cores, whatever the data words and the pending interrupts are. -/
def start (l : Link) (txCh : Role → UInt32) (pending : Role → Bool) : Sys port :=
  Sys.booted l ⟨fun _ => .ready, txCh, pending⟩ platformInit platformInitInterrupt

/-! ## Hanging -/

/-- Core `r` spins in `gen_sw_mbox_sendmsg` called from its own handler: the channel is not ready and holds
another message. -/
structure Hung (s : Sys port) (r : Role) : Prop where
  spins : ∃ k pc msg at_, (s.cpu r).irq = .kick k pc ∧ k.call = some (msg, at_) ∧ (at_ = .readStatus ∨ at_ = .readCh) ∧
    s.hw.txCh r ≠ msg
  notReady : s.hw.txStatus r ≠ .ready

/-- The step calls `platform_notify(v)` from inside the handler. -/
def Calls (c : SysConfig) (s : Sys port) (r : Role) (mv : Move) (v : UInt32) : Prop :=
  (∃ k pc z, mv = .handler ∧ (s.cpu r).irq = .kick k pc ∧ k.call = none ∧ k.queue = some z ∧
    vqRingMustNotifyHost ((s.dev r).queue z) s.link.m = true ∧ v = (s.dev r).vector z) ∨
  ∃ pc, mv = .otherEnd true ∧ (s.cpu r).irq = .other v pc ∧ c.notifyFreed = true

/-- A call from inside the handler finds the channel ready, or its own message in it. -/
def Free (c : SysConfig) (s : Sys port) (r : Role) (mv : Move) : Prop :=
  ∀ v, Calls c s r mv v → s.hw.txStatus r = .ready ∨ s.hw.txCh r = message v

/-- The handler's state behind a callback. -/
def Saved {H N : Type} (pc : H) : Irq H N → Prop
  | .rxCallback _ pc' => pc' = pc
  | .other _ pc' => pc' = pc
  | .kick _ pc' => pc' = pc
  | _ => False

/-- Where the handlers stand with the words they have read, and that no call from inside a handler waits in
vain. -/
structure Handling (s : Sys port) : Prop where
  ready : ∀ r, (s.cpu r).irq = .handler .writeReady → s.hw.txStatus r = .done
  busy : ∀ r, (s.cpu r).irq = .handler .readCh → s.hw.txStatus r.peer = .busy
  taken : ∀ r v, (s.cpu r).irq = .handler (.writeDone v) → s.hw.txStatus r.peer = .busy
  kick : ∀ r k pc msg at_, (s.cpu r).irq = .kick k pc → k.call = some (msg, at_) → at_ = .readStatus ∨ at_ = .readCh →
    s.hw.txStatus r = .ready ∨ s.hw.txCh r = msg
  saved : ∀ r pc, Saved pc (s.cpu r).irq → pc = .exit

section

variable {c : SysConfig} {s s' : Sys port} {r q : Role} {mv : Move}

theorem Handling.not_hung (h : Handling s) (r : Role) : ¬ Hung s r := by
  rintro ⟨⟨k, pc, msg, at_, hirq, hcall, hat, hch⟩, hst⟩
  rcases h.kick r k pc msg at_ hirq hcall hat with hr | hr
  · exact hst hr
  · exact hch hr

theorem handling_start {l : Link} {txCh : Role → UInt32} {pending : Role → Bool} : Handling (start l txCh pending) := by
  refine ⟨?_, ?_, ?_, ?_, ?_⟩
  · rintro r ⟨⟩
  · rintro r ⟨⟩
  · rintro r v ⟨⟩
  · rintro r k pc msg at_ ⟨⟩
  · rintro r pc ⟨⟩

/-- What a step of core `r` does to the channel of the peer: at most the handler acknowledges a message. -/
theorem peer_words (h : Handling s) {b : port.Hw} (hs : Sys.HwStep c s r b) :
    b.txCh r.peer = s.hw.txCh r.peer ∧
      (b.txStatus r.peer = s.hw.txStatus r.peer ∨ s.hw.txStatus r.peer = .busy ∧ b.txStatus r.peer = .done) := by
  have hne := Role.peer_ne r
  cases hs with
  | same => exact ⟨rfl, Or.inl rfl⟩
  | accept => exact ⟨rfl, Or.inl rfl⟩
  | notify => exact ⟨(genSwMboxSendmsg_other hne).2, Or.inl (genSwMboxSendmsg_other hne).1⟩
  | handler hpc =>
    rename_i pc
    refine ⟨congrFun genSwMboxHandler_txCh _, ?_⟩
    cases pc with
    | writeReady => exact Or.inl (Function.update_of_ne hne _ _)
    | writeDone v => exact Or.inr ⟨h.taken r v hpc, Function.update_self ..⟩
    | readTxStatus => exact Or.inl rfl
    | readRxStatus => exact Or.inl rfl
    | readCh => exact Or.inl rfl
    | setPending => exact Or.inl rfl
    | isr => exact Or.inl rfl
    | exit => exact Or.inl rfl

/-- What it does to its own channel: a call makes it busy, the handler makes it ready after it was done. -/
theorem own_words (h : Handling s) {b : port.Hw} (hs : Sys.HwStep c s r b) :
    b.txStatus r = s.hw.txStatus r ∨ b.txStatus r = .busy ∨ s.hw.txStatus r = .done := by
  have hne := (Role.peer_ne r).symm
  cases hs with
  | same => exact Or.inl rfl
  | accept => exact Or.inl rfl
  | notify =>
    rename_i k call hcall hcaller
    obtain ⟨msg, at_⟩ := call
    cases at_ with
    | writeBusy => exact Or.inr (Or.inl (Function.update_self ..))
    | readStatus => exact Or.inl rfl
    | readCh => exact Or.inl rfl
    | writeCh => exact Or.inl rfl
    | setPending => exact Or.inl rfl
  | handler hpc =>
    rename_i pc
    cases pc with
    | writeReady => exact Or.inr (Or.inr (h.ready r hpc))
    | writeDone v => exact Or.inl (Function.update_of_ne hne _ _)
    | readTxStatus => exact Or.inl rfl
    | readRxStatus => exact Or.inl rfl
    | readCh => exact Or.inl rfl
    | setPending => exact Or.inl rfl
    | isr => exact Or.inl rfl
    | exit => exact Or.inl rfl

/-- The next state of the core's own interrupt side is in order. -/
structure Next (b : Mbox) (r : Role) (irq : Irq HandlerPc (UInt32 × Send)) : Prop where
  ready : irq = .handler .writeReady → b.txStatus r = .done
  busy : irq = .handler .readCh → b.txStatus r.peer = .busy
  taken : ∀ v, irq = .handler (.writeDone v) → b.txStatus r.peer = .busy
  kick : ∀ k pc msg at_, irq = .kick k pc → k.call = some (msg, at_) → at_ = .readStatus ∨ at_ = .readCh →
    b.txStatus r = .ready ∨ b.txCh r = msg
  saved : ∀ pc, Saved pc irq → pc = .exit

theorem Handling.next (h : Handling s) (r : Role) : Next s.hw r (s.cpu r).irq :=
  ⟨h.ready r, h.busy r, h.taken r, h.kick r, h.saved r⟩

theorem Next.handling (h : ∀ r, Next s.hw r (s.cpu r).irq) : Handling s :=
  ⟨fun r => (h r).ready, fun r => (h r).busy, fun r => (h r).taken, fun r => (h r).kick, fun r => (h r).saved⟩

/-- A step of core `r` leaves the interrupt side of the peer in order. -/
theorem Next.peer (h : Handling s) {b : port.Hw} (hs : Sys.HwStep c s r b) : Next b r.peer (s.cpu r.peer).irq := by
  obtain ⟨hch, hst⟩ := peer_words h hs
  have hown := own_words h hs
  -- what the peer's handler has found busy is neither done nor made ready
  have hbusy : s.hw.txStatus r.peer.peer = .busy → b.txStatus r.peer.peer = .busy := by
    rw [Role.peer_peer]
    intro hb
    rcases hown with he | he | he
    · exact he.trans hb
    · exact he
    · rw [hb] at he
      cases he
  refine ⟨fun hirq => ?_, fun hirq => hbusy (h.busy _ hirq), fun v hirq => hbusy (h.taken _ v hirq),
    fun k pc msg at_ hirq hcall hat => ?_, h.saved r.peer⟩
  · have hdone := h.ready _ hirq
    rcases hst with he | ⟨he, -⟩
    · exact he.trans hdone
    · rw [hdone] at he
      cases he
  · rcases h.kick _ k pc msg at_ hirq hcall hat with hr | hr
    · rcases hst with he | ⟨he, -⟩
      · exact Or.inl (he.trans hr)
      · rw [hr] at he
        cases he
    · exact Or.inr (hch.trans hr)

/-- Outside a kick there is no wait. -/
theorem Next.noKick {b : Mbox} {irq : Irq HandlerPc (UInt32 × Send)} (hkick : ∀ k pc, irq ≠ .kick k pc)
    (hready : irq = .handler .writeReady → b.txStatus r = .done) (hbusy : irq = .handler .readCh → b.txStatus r.peer = .busy)
    (htaken : ∀ v, irq = .handler (.writeDone v) → b.txStatus r.peer = .busy) (hsaved : ∀ pc, Saved pc irq → pc = .exit) :
    Next b r irq :=
  ⟨hready, hbusy, htaken, fun k pc _ _ he => absurd he (hkick k pc), hsaved⟩

/-- Between two accesses of the handler. -/
theorem Next.ofHandler {b : Mbox} {pc : HandlerPc} (hready : pc = .writeReady → b.txStatus r = .done)
    (hbusy : pc = .readCh → b.txStatus r.peer = .busy) (htaken : ∀ v, pc = .writeDone v → b.txStatus r.peer = .busy) :
    Next b r (.handler pc) :=
  Next.noKick nofun (fun he => hready (Irq.handler.inj he)) (fun he => hbusy (Irq.handler.inj he))
    (fun v he => htaken v (Irq.handler.inj he)) fun _ he => he.elim

theorem Next.idle {b : Mbox} : Next b r .idle := Next.noKick nofun nofun nofun nofun nofun

theorem Next.exit {b : Mbox} : Next b r (.handler .exit) := Next.noKick nofun nofun nofun nofun nofun

theorem Next.rxCallback {b : Mbox} {freed : Bool} : Next b r (.rxCallback freed .exit) :=
  Next.noKick nofun nofun nofun nofun fun _ h => h.symm

theorem Next.other {b : Mbox} {v : UInt32} : Next b r (.other v .exit) :=
  Next.noKick nofun nofun nofun nofun fun _ h => h.symm

/-- A kick waits in its loop only for a channel that is free for it. -/
theorem Next.kick_of {b : Mbox} {k : Kick (UInt32 × Send)} (hkick : ∀ msg at_, k.call = some (msg, at_) →
    at_ = .readStatus ∨ at_ = .readCh → b.txStatus r = .ready ∨ b.txCh r = msg) : Next b r (.kick k .exit) := by
  refine ⟨nofun, nofun, nofun, fun k' pc msg at_ he hcall => ?_, fun _ h => h.symm⟩
  obtain ⟨rfl, -⟩ := Irq.kick.inj he
  exact hkick msg at_ hcall

theorem Next.kick_new {b : Mbox} {k : Kick (UInt32 × Send)} (hk : k.call = none) : Next b r (.kick k .exit) := by
  refine Next.kick_of fun msg at_ hcall => ?_
  rw [hk] at hcall
  cases hcall

/-- The handler passes a vector on only at its end. -/
theorem envIsr_exit {pc pc' : HandlerPc} {b b' : Mbox} {v : UInt32} (h : genSwMboxHandler r pc b = (b', .envIsr v pc')) :
    pc' = .exit := by
  cases pc with
  | isr =>
    cases h
    rfl
  | readRxStatus =>
    simp only [genSwMboxHandler] at h
    split at h
    · cases h
    · cases h
  | readTxStatus => cases h
  | writeReady => cases h
  | readCh => cases h
  | writeDone => cases h
  | setPending => cases h
  | exit => cases h

/-- The handler goes on to a store or to the message only where the words it has read allow it. -/
theorem Next.goto (h : Next s.hw r (s.cpu r).irq) {pc pc' : HandlerPc} {b : Mbox} (hpc : (s.cpu r).irq = .handler pc)
    (hstep : genSwMboxHandler r pc s.hw = (b, .goto pc')) : Next b r (.handler pc') := by
  have hstay : pc' ≠ .writeReady → pc' ≠ .readCh → (∀ v, pc' ≠ .writeDone v) → Next b r (.handler pc') :=
    fun h1 h2 h3 => Next.ofHandler (fun he => absurd he h1) (fun he => absurd he h2) fun v he => absurd he (h3 v)
  cases pc with
  | readTxStatus =>
    by_cases hd : s.hw.txStatus r = .done
    · simp only [genSwMboxHandler, hd, if_true, Prod.mk.injEq, HandlerNext.goto.injEq] at hstep
      obtain ⟨rfl, rfl⟩ := hstep
      exact Next.ofHandler (fun _ => hd) (by simp) (by simp)
    · simp only [genSwMboxHandler, hd, if_false, Prod.mk.injEq, HandlerNext.goto.injEq] at hstep
      obtain ⟨rfl, rfl⟩ := hstep
      exact hstay (by simp) (by simp) (by simp)
  | writeReady =>
    cases hstep
    exact hstay (by simp) (by simp) (by simp)
  | readRxStatus =>
    simp only [genSwMboxHandler, Prod.mk.injEq] at hstep
    obtain ⟨rfl, hnext⟩ := hstep
    split at hnext
    · cases hnext
    · rename_i hb
      cases hnext
      exact Next.ofHandler (by simp) (fun _ => not_not.1 hb) (by simp)
  | readCh =>
    cases hstep
    exact Next.ofHandler (by simp) (by simp) fun _ _ => h.busy hpc
  | writeDone =>
    cases hstep
    exact hstay (by simp) (by simp) (by simp)
  | setPending =>
    cases hstep
    exact hstay (by simp) (by simp) (by simp)
  | isr => cases hstep
  | exit => cases hstep

/-- A kick inside the handler goes on to wait only where the channel is free for it. -/
theorem Next.rxKick (h : Handling s) {k k' : Kick port.NotifyPc} {pc : HandlerPc} {b : port.Hw} (hirq : (s.cpu r).irq = .kick k pc)
    (hstep : s.kickStep r k = (b, some k')) (hfree : Free c s r .handler) : Next b r (.kick k' pc) := by
  obtain rfl := h.saved r pc (by rw [hirq]; rfl)
  refine Next.kick_of fun msg at_ hcall hat => ?_
  unfold Sys.kickStep at hstep
  split at hstep
  · rename_i call hcall₀
    obtain ⟨msg₀, at₀⟩ := call
    have hold := h.kick r k _ msg₀ at₀ hirq hcall₀
    simp only [Prod.mk.injEq, Option.map_map] at hstep
    obtain ⟨rfl, hnext⟩ := hstep
    obtain ⟨at₁, hat₁, rfl⟩ := Option.map_eq_some_iff.1 hnext
    cases hcall
    cases at₀ with
    | readStatus => exact hold (Or.inl rfl)
    | readCh => exact hold (Or.inr rfl)
    | writeCh =>
      cases hat₁
      rcases hat with he | he
      · cases he
      · cases he
    | writeBusy =>
      cases hat₁
      rcases hat with he | he
      · cases he
      · cases he
    | setPending => cases hat₁
  · rename_i z hcall₀ hz
    split at hstep
    · rename_i hmust
      simp only [Prod.mk.injEq, Option.some.injEq] at hstep
      obtain ⟨rfl, rfl⟩ := hstep
      simp only [Option.some.injEq, Prod.mk.injEq] at hcall
      obtain ⟨rfl, rfl⟩ := hcall
      exact hfree _ (Or.inl ⟨k, _, z, rfl, hirq, hcall₀, hz, hmust, rfl⟩)
    · cases hstep
  · cases hstep

/-- A step of core `r` leaves its own interrupt side in order. -/
theorem Next.own (h : Handling s) (hsingle : c.single = true) (hs : Sys.Stepped c s r mv s') (hfree : Free c s r mv) :
    Next s'.hw r (s'.cpu r).irq := by
  have hidle : (c.single = true → (s.cpu r).irq.isIdle = true) → ∀ {b}, Next b r (s.cpu r).irq := by
    intro hi b
    rw [Irq.eq_idle (hi hsingle)]
    exact Next.idle
  cases hs with
  | boot => rw [Sys.set_cpu_self]; exact h.next r
  | task hi => rw [Sys.set_cpu_self]; exact hidle hi
  | kickEnd hi => rw [Sys.set_cpu_self]; exact hidle hi
  | kick hi => rw [Sys.set_cpu_self]; exact hidle hi
  | notify hi => rw [Sys.set_cpu_self]; exact hidle hi
  | interrupt =>
    rw [Sys.set_cpu_self]
    exact Next.noKick nofun nofun nofun nofun nofun
  | goto hpc hstep =>
    rw [Sys.set_cpu_self]
    exact (h.next r).goto hpc hstep
  | ignored hpc hstep =>
    obtain rfl := envIsr_exit hstep
    rw [Sys.set_cpu_self]
    exact Next.exit
  | txCallback hpc hstep =>
    obtain rfl := envIsr_exit hstep
    rw [Sys.set_cpu_self]
    exact Next.exit
  | rxCallback hpc hstep =>
    obtain rfl := envIsr_exit hstep
    rw [Sys.set_cpu_self]
    exact Next.rxCallback
  | otherIsr hpc hstep =>
    obtain rfl := envIsr_exit hstep
    rw [Sys.set_cpu_self]
    exact Next.other
  | done =>
    rw [Sys.set_cpu_self]
    exact Next.idle
  | rxKickEnd hpc =>
    obtain rfl := h.saved r _ (by rw [hpc]; rfl)
    rw [Sys.set_cpu_self]
    exact Next.exit
  | rxKick hpc hstep =>
    rw [Sys.set_cpu_self]
    exact Next.rxKick h hpc hstep hfree
  | callback hpc =>
    obtain rfl := h.saved r _ (by rw [hpc]; rfl)
    rw [Sys.set_cpu_self]
    unfold rxCallbackNext
    dsimp only
    split
    · split
      · exact Next.kick_new rfl
      · exact Next.exit
    · exact Next.rxCallback
  | otherEnd hpc =>
    obtain rfl := h.saved r _ (by rw [hpc]; rfl)
    rw [Sys.set_cpu_self]
    dsimp only
    split
    · rename_i freed v hif
      rw [Bool.and_eq_true] at hif
      obtain ⟨rfl, hnf⟩ := hif
      refine Next.kick_of fun msg at_ hcall _ => ?_
      obtain ⟨rfl, -⟩ := Prod.mk.inj (Option.some.inj hcall)
      exact hfree v (Or.inr ⟨_, rfl, hpc, hnf⟩)
    · exact Next.exit

/-- A step whose calls from inside the handler are free leaves both cores in order. -/
theorem Handling.step (h : Handling s) (hsingle : c.single = true) (hs : Sys.Stepped c s r mv s') (hfree : Free c s r mv) :
    Handling s' := by
  refine Next.handling fun q => ?_
  rcases r.eq_or_peer q with rfl | rfl
  · exact Next.own h hsingle hs hfree
  · rw [hs.irq_of_ne (Role.peer_ne r)]
    exact Next.peer h hs.hwStep

/-- In every run whose calls from inside a handler are free, no core hangs in its handler. -/
theorem handler_never_hangs {l : Link} {txCh : Role → UInt32} {pending : Role → Bool} (hsingle : c.single = true)
    (h : Sys.Reachable c (Free c) (start l txCh pending) s) (r : Role) : ¬ Hung s r :=
  (h.invariant handling_start fun _ _ _ _ hs hfree hstep => hs.step hsingle (Sys.step_cases hstep) hfree).not_hung r

/-! ## A hung core stays hung -/

/-- The peer neither makes the channel ready nor changes its message. -/
theorem waiting_words {b : port.Hw} (hs : Sys.HwStep c s r b) (hst : s.hw.txStatus r.peer ≠ .ready) :
    b.txStatus r.peer ≠ .ready ∧ b.txCh r.peer = s.hw.txCh r.peer := by
  have hne := Role.peer_ne r
  cases hs with
  | same => exact ⟨hst, rfl⟩
  | accept => exact ⟨hst, rfl⟩
  | notify =>
    refine ⟨?_, (genSwMboxSendmsg_other hne).2⟩
    rw [(genSwMboxSendmsg_other hne).1]
    exact hst
  | handler =>
    rename_i pc _
    refine ⟨?_, congrFun genSwMboxHandler_txCh _⟩
    cases pc with
    | writeReady =>
      change Function.update _ _ _ _ ≠ _
      rw [Function.update_of_ne hne]
      exact hst
    | writeDone v =>
      change Function.update _ _ _ _ ≠ _
      rw [Function.update_self]
      exact nofun
    | readTxStatus => exact hst
    | readRxStatus => exact hst
    | readCh => exact hst
    | setPending => exact hst
    | isr => exact hst
    | exit => exact hst

/-- A spinning call finds nothing new. -/
theorem spin_step {k : Kick port.NotifyPc} {msg : UInt32} {at_ : Send} (hcall : k.call = some (msg, at_))
    (hat : at_ = .readStatus ∨ at_ = .readCh) (hch : s.hw.txCh r ≠ msg) (hst : s.hw.txStatus r ≠ .ready) :
    ∃ at', (at' = .readStatus ∨ at' = .readCh) ∧ s.kickStep r k = (s.hw, some { k with call := some (msg, at') }) := by
  rcases hat with rfl | rfl
  · refine ⟨.readCh, Or.inr rfl, ?_⟩
    simp only [Sys.kickStep, hcall, genSwMboxSendmsg, hst, if_false, Option.map_some]
  · refine ⟨.readStatus, Or.inl rfl, ?_⟩
    simp only [Sys.kickStep, hcall, genSwMboxSendmsg, hch.symm, if_false, Option.map_some]

theorem Hung.step (h : Hung s q) (hsingle : c.single = true) (hs : Sys.Stepped c s r mv s') : Hung s' q := by
  obtain ⟨⟨k, pc, msg, at_, hirq, hcall, hat, hch⟩, hst⟩ := h
  rcases r.eq_or_peer q with rfl | rfl
  swap
  · obtain ⟨hst', hch'⟩ := waiting_words hs.hwStep hst
    exact ⟨⟨k, pc, msg, at_, (hs.irq_of_ne (Role.peer_ne r)).trans hirq, hcall, hat, by rw [hch']; exact hch⟩, hst'⟩
  -- the tasks wait, and the core is at its kick
  have hbusy : ¬ (c.single = true → (s.cpu q).irq.isIdle = true) := by
    rw [hirq]
    exact fun hi => Bool.false_ne_true (hi hsingle)
  obtain ⟨at', hat', hspin⟩ := spin_step hcall hat hch hst
  cases hs with
  | boot => exact ⟨⟨k, pc, msg, at_, by rw [Sys.set_cpu_self]; exact hirq, hcall, hat, hch⟩, hst⟩
  | task hi => exact absurd hi hbusy
  | kickEnd hi => exact absurd hi hbusy
  | kick hi => exact absurd hi hbusy
  | notify hi => exact absurd hi hbusy
  | interrupt hi => rw [hirq] at hi; cases hi
  | goto hpc => rw [hirq] at hpc; cases hpc
  | ignored hpc => rw [hirq] at hpc; cases hpc
  | otherIsr hpc => rw [hirq] at hpc; cases hpc
  | rxCallback hpc => rw [hirq] at hpc; cases hpc
  | txCallback hpc => rw [hirq] at hpc; cases hpc
  | done hpc => rw [hirq] at hpc; cases hpc
  | callback hpc => rw [hirq] at hpc; cases hpc
  | otherEnd hpc => rw [hirq] at hpc; cases hpc
  | rxKickEnd hpc hstep =>
    rw [hirq] at hpc
    cases hpc
    rw [hspin] at hstep
    cases hstep
  | rxKick hpc hstep =>
    rw [hirq] at hpc
    cases hpc
    rw [hspin] at hstep
    simp only [Prod.mk.injEq, Option.some.injEq] at hstep
    obtain ⟨rfl, rfl⟩ := hstep
    exact ⟨⟨_, pc, msg, at', by rw [Sys.set_cpu_self], rfl, hat', hch⟩, hst⟩

/-- Whatever both cores do, the core stays in its handler and its channel is never ready again. -/
theorem Hung.forever {ok : Sys port → Role → Move → Prop} (h : Hung s r) (hsingle : c.single = true)
    (hr : Sys.Reachable c ok s s') : Hung s' r :=
  hr.invariant (I := fun s => Hung s r) h fun _ _ _ _ hs _ hstep => hs.step hsingle (Sys.step_cases hstep)

/-- A call from inside the handler that finds the channel taken by another message hangs its core. -/
theorem hung_of_calls {v : UInt32} (hc : Calls c s r mv v) (hst : s.hw.txStatus r ≠ .ready) (hch : s.hw.txCh r ≠ message v)
    (hs : s.step c r mv = some s') : Hung s' r := by
  rcases hc with ⟨k, pc, z, rfl, hirq, hcall, hz, hmust, rfl⟩ | ⟨pc, rfl, hirq, hnf⟩
  · have hkick : s.kickStep r k = (s.hw, some { k with call := some (message ((s.dev r).vector z), .readStatus) }) := by
      simp only [Sys.kickStep, hcall, hz, hmust, if_true]
    simp only [Sys.step, hirq, hkick, Option.some.injEq] at hs
    subst hs
    exact ⟨⟨_, pc, _, .readStatus, by rw [Sys.set_cpu_self], rfl, Or.inl rfl, hch⟩, hst⟩
  · simp only [Sys.step, hirq, hnf, Bool.and_self, if_true, Option.some.injEq] at hs
    subst hs
    exact ⟨⟨_, pc, _, .readStatus, by rw [Sys.set_cpu_self], rfl, Or.inl rfl, hch⟩, hst⟩

end

/-- The kick at the end of `rpmsg_lite_master_init`: the remote's link is up, the master's channel ready. -/
def linkUp : List (Role × Move) :=
  List.replicate 5 (.master, .kick 0) ++ (.remote, .interrupt) :: List.replicate 7 (.remote, .handler) ++
    (.master, .interrupt) :: List.replicate 3 (.master, .handler)

/-- A core sends three bytes and kicks. -/
def sendKick (r : Role) : List (Role × Move) :=
  [(r, .task (.tx (.send 7 9 [1, 2, 3]))), (r, .task (.tx (.fill 0))), (r, .task (.tx (.enqueue 0)))] ++
    List.replicate 5 (r, .kick 0)

/-- The master takes the remote's message in its handler and frees the buffer, up to the kick. -/
def receive : List (Role × Move) :=
  (.master, .interrupt) :: List.replicate 6 (.master, .handler) ++
    [(.master, .callback .rx), (.master, .callback .read), (.master, .callback (.done false)), (.master, .callback .rx)]

/-- The configuration of the example runs. -/
def kicksBack : SysConfig := ⟨⟨false, 16, 16⟩, true, true, fun _ _ => false⟩

/-- A call from inside the handler finds the channel ready. -/
def isReady (s : Sys port) (r : Role) : Move → Bool
  | .handler =>
    match (s.cpu r).irq with
    | .kick _ _ => s.hw.txStatus r == .ready
    | _ => true
  | .otherEnd _ => s.hw.txStatus r == .ready
  | _ => true

theorem free_of_isReady {c : SysConfig} {s : Sys port} {r : Role} {mv : Move} (h : isReady s r mv = true) : Free c s r mv := by
  rintro v (⟨k, pc, z, rfl, hirq, -⟩ | ⟨pc, rfl, -⟩)
  · simp only [isReady, hirq] at h
    exact Or.inl (eq_of_beq h)
  · exact Or.inl (eq_of_beq h)

/-- Without a message of its own in the channel, the master's kick from inside its handler goes through. -/
theorem handler_never_hangs_kick : ∃ dm m' dr s,
    rpmsgLiteMasterInit 32 InitEnv.ok 0 (.build (headerTwo 64 (by decide) (by decide))) 4124 512 0 (fun _ => 0) =
      .instance dm m' ∧
    rpmsgLiteRemoteInit 32 InitEnv.ok 0 (.build (headerTwo 64 (by decide) (by decide))) 4124 0 = some dr ∧
    (start (Link.start m' dm dr) (fun _ => 0) fun _ => false).runIf kicksBack isReady
      (linkUp ++ sendKick .remote ++ receive ++ [(.master, .handler)]) = some s ∧
    (∃ k pc, (s.cpu .master).irq = .kick k pc) ∧ ¬ Hung s .master := by
  obtain ⟨dm, m', dr, hm, hr, ht⟩ := Link.of_check_two 0
    (fun dm m' dr => ((start (Link.start m' dm dr) (fun _ => 0) fun _ => false).runIf kicksBack isReady
      (linkUp ++ sendKick .remote ++ receive ++ [(.master, .handler)])).any fun s =>
        match (s.cpu .master).irq with
        | .kick _ _ => true
        | _ => false)
    (by decide +kernel)
  obtain ⟨s, hs, hq⟩ := (Option.any_eq_true _ _).1 ht
  refine ⟨dm, m', dr, s, hm, hr, hs, ?_, ?_⟩
  · split at hq
    · rename_i k pc hkick
      exact ⟨k, pc, hkick⟩
    · cases hq
  · exact handler_never_hangs rfl
      (Sys.reachable_of_runIf (fun _ _ _ => free_of_isReady) .start hs) .master

/-- With its own message still in the channel, the master hangs in the kick for the buffer it has freed, and
whatever happens then it hangs there for ever. -/
theorem handler_hangs : ∃ dm m' dr s,
    rpmsgLiteMasterInit 32 InitEnv.ok 0 (.build (headerTwo 64 (by decide) (by decide))) 4124 512 0 (fun _ => 0) =
      .instance dm m' ∧
    rpmsgLiteRemoteInit 32 InitEnv.ok 0 (.build (headerTwo 64 (by decide) (by decide))) 4124 0 = some dr ∧
    Sys.Reachable kicksBack (fun _ _ _ => True) (start (Link.start m' dm dr) (fun _ => 0) fun _ => false) s ∧
    Hung s .master ∧ ∀ s', Sys.Reachable kicksBack (fun _ _ _ => True) s s' → Hung s' .master := by
  obtain ⟨dm, m', dr, hm, hr, ht⟩ := Link.of_check_two 0
    (fun dm m' dr => ((start (Link.start m' dm dr) (fun _ => 0) fun _ => false).run kicksBack
      (linkUp ++ sendKick .master ++ sendKick .remote ++ receive ++ [(.master, .handler)])).any fun s =>
        (match (s.cpu .master).irq with
          | .kick k _ => k.call == some (message 0, .readStatus)
          | _ => false) &&
        s.hw.txCh .master != message 0 && s.hw.txStatus .master != .ready)
    (by decide +kernel)
  obtain ⟨s, hs, hq⟩ := (Option.any_eq_true _ _).1 ht
  simp only [Bool.and_eq_true, bne_iff_ne] at hq
  obtain ⟨⟨hirq, hch⟩, hst⟩ := hq
  have hung : Hung s .master := by
    split at hirq
    · rename_i k pc hkick
      exact ⟨⟨k, pc, _, _, hkick, eq_of_beq hirq, Or.inl rfl, hch⟩, hst⟩
    · cases hirq
  exact ⟨dm, m', dr, s, hm, hr, Sys.reachable_of_run .start hs, hung, fun _ => hung.forever rfl⟩

end SwMbox

end RpmsgLite
