/-
The message unit between the two M4 cores of the imx8qm. `platform_notify` waits in `MU_SendMsg` for its
one-word transmit register, which only the peer's handler empties. A core that waits there inside its own
handler blocks the peer's register no more, because the handler has read it first: the two cores never wait
for each other.
-/
import RpmsgLite.Irq.Install

namespace RpmsgLite

namespace Mu

/-! ## The platform -/

def RL_PLATFORM_IMX8QM_M4_M4_COM_ID : UInt32 := 1

/-- The user link between the M4 cores. -/
def RL_PLATFORM_HIGHEST_LINK_ID : UInt32 := 5

def rlGetComId (vqId : UInt32) : UInt32 := vqId >>> 3

/-- `RL_GEN_MU_MSG` -/
def rlGenMuMsg (vqId : UInt32) : UInt32 := (vqId &&& 7) <<< 16

/-- A `platform_notify`: in `MU_SendMsg` before the register was seen empty, or after. A call for another
message unit returns at some time. -/
inductive Notify
  | wait (msg : UInt32)
  | write (msg : UInt32)
  | other
deriving DecidableEq

/-- `LSIO_MU7_INT_A_IRQHandler` and `LSIO_MU7_INT_B_IRQHandler`, by what they do next. -/
inductive HandlerPc
  | getStatusFlags
  | receiveMsg
  | isr (channel : UInt32)
  | exit

/-- The transmit registers of the two cores. -/
abbrev Regs : Type := Role → Option UInt32

def platformNotify (vector : UInt32) : Notify :=
  if rlGetComId vector = RL_PLATFORM_IMX8QM_M4_M4_COM_ID then .wait (rlGenMuMsg vector) else .other

def notifyStep (r : Role) (pc : Notify) (hw : Regs) : Regs × Option Notify :=
  match pc with
  | .wait msg => if hw r = none then (hw, some (.write msg)) else (hw, some (.wait msg))
  | .write msg => (Function.update hw r (some msg), none)
  | .other => (hw, none)

def handlerStep (r : Role) (pc : HandlerPc) (hw : Regs) : Regs × HandlerNext HandlerPc :=
  match pc with
  | .getStatusFlags => (hw, .goto (if hw r.peer = none then .exit else .receiveMsg))
  | .receiveMsg => (Function.update hw r.peer none, .goto (.isr ((hw r.peer).getD 0)))
  | .isr channel => (hw, .envIsr ((channel >>> 16) ||| (RL_PLATFORM_IMX8QM_M4_M4_COM_ID <<< 3)) .exit)
  | .exit => (hw, .done)

/-- The receive interrupt of a core is up while the peer's register is full. -/
abbrev port : Port where
  Hw := Regs
  NotifyPc := Notify
  HandlerPc := HandlerPc
  platformNotify := platformNotify
  notifyStep := notifyStep
  raised r hw := hw r.peer != none
  accept _ hw := hw
  handler := .getStatusFlags
  handlerStep := handlerStep

/-- `platform_init`: the line is enabled, the receive interrupt of the message unit is not. -/
def platformInit : IsrState := ⟨fun _ => none, 0, 0, false, true⟩

def platformInitInterrupt (vector : UInt32) (q : Queue) (i : IsrState) : IsrState :=
  let i := i.envRegisterIsr vector q
  if rlGetComId vector = RL_PLATFORM_IMX8QM_M4_M4_COM_ID then
    { i with mailbox := if i.isrCounter = 0 then true else i.mailbox, isrCounter := i.isrCounter + 1 }
  else i

/-- Two initialised cores, whatever the registers hold. -/
def start (l : Link) (hw : Regs) : Sys port := Sys.booted l hw platformInit platformInitInterrupt

/-! ## Waiting for each other -/

/-- Core `r` waits in `MU_SendMsg` called from its own handler. -/
def Waiting (s : Sys port) (r : Role) : Prop :=
  ∃ k pc msg, (s.cpu r).irq = .kick k pc ∧ k.call = some (.wait msg) ∧ s.hw r ≠ none

/-- The handler has read its message and has not sent one since. -/
def Open : Irq HandlerPc Notify → Prop
  | .idle => False
  | .handler (.isr _) => True
  | .handler _ => False
  | .rxCallback _ pc => pc = .exit
  | .other _ pc => pc = .exit
  | .kick _ pc => pc = .exit

/-- The handler's state behind a callback. -/
def Saved : Irq HandlerPc Notify → Prop
  | .rxCallback _ pc => pc = .exit
  | .other _ pc => pc = .exit
  | .kick _ pc => pc = .exit
  | _ => True

/-- Of two handlers that have read their messages one has found the register of its own core empty since. -/
structure Apart (s : Sys port) : Prop where
  saved : ∀ r, Saved (s.cpu r).irq
  empty : Open (s.cpu .master).irq → Open (s.cpu .remote).irq → s.hw .master = none ∨ s.hw .remote = none

section

variable {c : SysConfig} {s s' : Sys port} {r : Role} {mv : Move}

theorem Apart.empty_peer (h : Apart s) (r : Role) (hr : Open (s.cpu r).irq) (hp : Open (s.cpu r.peer).irq) :
    s.hw r = none ∨ s.hw r.peer = none := by
  cases r with
  | master => exact h.empty hr hp
  | remote => exact (h.empty hp hr).symm

theorem Apart.of_peer (r : Role) (hsaved : ∀ q, Saved (s.cpu q).irq)
    (h : Open (s.cpu r).irq → Open (s.cpu r.peer).irq → s.hw r = none ∨ s.hw r.peer = none) : Apart s := by
  refine ⟨hsaved, fun hm hr => ?_⟩
  cases r with
  | master => exact h hm hr
  | remote => exact (h hr hm).symm

theorem Saved.open {irq : Irq HandlerPc Notify} (h : Saved irq) (hidle : irq ≠ .idle) (hhandler : ∀ pc, irq ≠ .handler pc) :
    Open irq := by
  cases irq with
  | idle => exact absurd rfl hidle
  | handler pc => exact absurd rfl (hhandler pc)
  | rxCallback => exact h
  | other => exact h
  | kick => exact h

theorem Apart.not_waiting (h : Apart s) : ¬ (Waiting s .master ∧ Waiting s .remote) := by
  have hopen : ∀ {r}, Waiting s r → Open (s.cpu r).irq := by
    rintro r ⟨k, pc, msg, hirq, -⟩
    have hs := h.saved r
    rw [hirq] at hs ⊢
    exact hs
  rintro ⟨hm, hr⟩
  have hfull := h.empty (hopen hm) (hopen hr)
  obtain ⟨-, -, -, -, -, hmfull⟩ := hm
  obtain ⟨-, -, -, -, -, hrfull⟩ := hr
  rcases hfull with he | he
  · exact hmfull he
  · exact hrfull he

/-! ## One step -/

/-- The handler calls `env_isr` at its end. -/
theorem handlerStep_envIsr {pc pc' : HandlerPc} {hw hw' : Regs} {v : UInt32}
    (h : handlerStep r pc hw = (hw', .envIsr v pc')) : pc' = .exit ∧ hw' = hw ∧ ∃ channel, pc = .isr channel := by
  cases pc with
  | isr channel =>
    simp only [handlerStep, Prod.mk.injEq, HandlerNext.envIsr.injEq] at h
    exact ⟨h.2.2.symm, h.1.symm, channel, rfl⟩
  | getStatusFlags => cases h
  | receiveMsg => cases h
  | exit => cases h

/-- A step of a kick that goes on leaves the registers as they were. -/
theorem kickStep_some {k k' : Kick Notify} {hw : Regs} (h : s.kickStep r k = (hw, some k')) : hw = s.hw := by
  unfold Sys.kickStep at h
  split at h
  · rename_i pc hcall
    cases pc with
    | wait msg =>
      by_cases he : s.hw r = none
      · simp only [notifyStep, he, if_true, Option.map_some, Prod.mk.injEq] at h
        exact h.1.symm
      · simp only [notifyStep, he, if_false, Option.map_some, Prod.mk.injEq] at h
        exact h.1.symm
    | write msg => simp only [notifyStep, Option.map_none, Prod.mk.injEq, reduceCtorEq, and_false] at h
    | other => simp only [notifyStep, Option.map_none, Prod.mk.injEq, reduceCtorEq, and_false] at h
  · split at h
    · exact (Prod.mk.inj h).1.symm
    · exact (Prod.mk.inj h).1.symm
  · exact (Prod.mk.inj h).1.symm

/-- Where core `r` stands after its own step: it has not read a message, or it was already past reading and the
registers are as before, or it has read the peer's message right now. -/
theorem own_step (h : Apart s) (hsingle : c.single = true) (hs : Sys.Stepped c s r mv s') :
    Saved (s'.cpu r).irq ∧
      (¬ Open (s'.cpu r).irq ∨ Open (s.cpu r).irq ∧ s'.hw = s.hw ∨ s'.hw r.peer = none) := by
  have hsaved := h.saved r
  have hidle : (c.single = true → (s.cpu r).irq.isIdle = true) → Saved (s.cpu r).irq ∧ ¬ Open (s.cpu r).irq := by
    intro hi
    rw [Irq.eq_idle (hi hsingle)]
    exact ⟨trivial, id⟩
  cases hs with
  | boot =>
    rw [Sys.set_cpu_self]
    refine ⟨hsaved, ?_⟩
    by_cases ho : Open (s.cpu r).irq
    · exact Or.inr (Or.inl ⟨ho, rfl⟩)
    · exact Or.inl ho
  | task hi => rw [Sys.set_cpu_self]; exact ⟨(hidle hi).1, Or.inl (hidle hi).2⟩
  | kickEnd hi => rw [Sys.set_cpu_self]; exact ⟨(hidle hi).1, Or.inl (hidle hi).2⟩
  | kick hi => rw [Sys.set_cpu_self]; exact ⟨(hidle hi).1, Or.inl (hidle hi).2⟩
  | notify hi => rw [Sys.set_cpu_self]; exact ⟨(hidle hi).1, Or.inl (hidle hi).2⟩
  | interrupt => rw [Sys.set_cpu_self]; exact ⟨trivial, Or.inl id⟩
  | goto hpc hstep =>
    rename_i pc pc' hw
    rw [Sys.set_cpu_self]
    refine ⟨trivial, ?_⟩
    cases pc with
    | getStatusFlags =>
      by_cases he : s.hw r.peer = none
      · simp only [handlerStep, he, if_true, Prod.mk.injEq, HandlerNext.goto.injEq] at hstep
        obtain ⟨-, rfl⟩ := hstep
        exact Or.inl id
      · simp only [handlerStep, he, if_false, Prod.mk.injEq, HandlerNext.goto.injEq] at hstep
        obtain ⟨-, rfl⟩ := hstep
        exact Or.inl id
    | receiveMsg =>
      obtain ⟨rfl, -⟩ := Prod.mk.inj hstep
      exact Or.inr (Or.inr (Function.update_self ..))
    | isr => cases hstep
    | exit => cases hstep
  | ignored hpc hstep =>
    obtain ⟨rfl, rfl, channel, rfl⟩ := handlerStep_envIsr hstep
    rw [Sys.set_cpu_self]
    exact ⟨trivial, Or.inl id⟩
  | txCallback hpc hstep =>
    obtain ⟨rfl, rfl, channel, rfl⟩ := handlerStep_envIsr hstep
    rw [Sys.set_cpu_self]
    exact ⟨trivial, Or.inl id⟩
  | rxCallback hpc hstep =>
    obtain ⟨rfl, rfl, channel, rfl⟩ := handlerStep_envIsr hstep
    rw [Sys.set_cpu_self, hpc]
    exact ⟨rfl, Or.inr (Or.inl ⟨trivial, rfl⟩)⟩
  | otherIsr hpc hstep =>
    obtain ⟨rfl, rfl, channel, rfl⟩ := handlerStep_envIsr hstep
    rw [Sys.set_cpu_self, hpc]
    exact ⟨rfl, Or.inr (Or.inl ⟨trivial, rfl⟩)⟩
  | done => rw [Sys.set_cpu_self]; exact ⟨trivial, Or.inl id⟩
  | rxKickEnd hpc =>
    rw [hpc] at hsaved
    obtain rfl := hsaved
    rw [Sys.set_cpu_self]
    exact ⟨trivial, Or.inl id⟩
  | rxKick hpc hstep =>
    rw [hpc] at hsaved
    obtain rfl := hsaved
    rw [Sys.set_cpu_self, hpc]
    exact ⟨rfl, Or.inr (Or.inl ⟨rfl, kickStep_some hstep⟩)⟩
  | callback hpc =>
    rw [hpc] at hsaved
    obtain rfl := hsaved
    rw [Sys.set_cpu_self, hpc]
    unfold rxCallbackNext
    dsimp only
    split
    · split
      · exact ⟨rfl, Or.inr (Or.inl ⟨rfl, Sys.messaged_hw⟩)⟩
      · exact ⟨trivial, Or.inl id⟩
    · exact ⟨rfl, Or.inr (Or.inl ⟨rfl, Sys.messaged_hw⟩)⟩
  | otherEnd hpc =>
    rw [hpc] at hsaved
    obtain rfl := hsaved
    rw [Sys.set_cpu_self, hpc]
    dsimp only
    split
    · exact ⟨rfl, Or.inr (Or.inl ⟨rfl, rfl⟩)⟩
    · exact ⟨trivial, Or.inl id⟩

theorem Apart.step (h : Apart s) (hsingle : c.single = true) (hs : Sys.Stepped c s r mv s') : Apart s' := by
  obtain ⟨hsaved, hown⟩ := own_step h hsingle hs
  have hpeer : (s'.cpu r.peer).irq = (s.cpu r.peer).irq := hs.irq_of_ne (Role.peer_ne r)
  refine Apart.of_peer r (fun q => ?_) fun hr hp => ?_
  · rcases r.eq_or_peer q with rfl | rfl
    · exact hsaved
    · rw [hpeer]
      exact h.saved r.peer
  · rw [hpeer] at hp
    rcases hown with hn | ⟨ho, hhw⟩ | he
    · exact absurd hr hn
    · rw [hhw]
      exact h.empty_peer r ho hp
    · exact Or.inr he

/-- In no state of any run do both cores wait in `MU_SendMsg` inside their handlers, whatever the registers, the
tables and the link are at the start. -/
theorem never_wait_for_each_other {s₀ : Sys port} (hsingle : c.single = true) (hidle : ∀ r, (s₀.cpu r).irq = .idle)
    (h : Sys.Reachable c (fun _ _ _ => True) s₀ s) : ¬ (Waiting s .master ∧ Waiting s .remote) := by
  have hstart : Apart s₀ := by
    constructor
    · intro r
      rw [hidle r]
      trivial
    · intro hm
      rw [hidle .master] at hm
      exact hm.elim
  exact (h.invariant hstart fun _ _ _ _ hs _ hstep => hs.step hsingle (Sys.step_cases hstep)).not_waiting

end

/-! ## Load in both directions -/

/-- A core sends three bytes and kicks. -/
def sendKick (r : Role) : List (Role × Move) :=
  [(r, .task (.tx (.send 7 9 [1, 2, 3]))), (r, .task (.tx (.fill 0))), (r, .task (.tx (.enqueue 0)))] ++
    List.replicate 3 (r, .kick 0)

/-- The kick at the end of `rpmsg_lite_master_init`, and the remote's handler for it. -/
def linkUp : List (Role × Move) :=
  List.replicate 3 (.master, .kick 0) ++ (.remote, .interrupt) :: List.replicate 4 (.remote, .handler)

/-- The master takes the remote's message in its handler, frees the buffer and kicks. -/
def receive : List (Role × Move) :=
  (.master, .interrupt) :: List.replicate 3 (.master, .handler) ++
    [(.master, .callback .rx), (.master, .callback .read), (.master, .callback (.done false)), (.master, .callback .rx),
      (.master, .handler), (.master, .handler)]

/-- The configuration of the example run. -/
def kicksBack : SysConfig := ⟨⟨false, 16, 16⟩, true, true, fun _ _ => false⟩

/-- After a send of each core the master waits in its handler, and the remote does not. -/
theorem never_wait_for_each_other_load : ∃ dm m' dr s,
    rpmsgLiteMasterInit 32 InitEnv.ok RL_PLATFORM_HIGHEST_LINK_ID (.build (headerTwo 64 (by decide) (by decide))) 4124 512 5
      (fun _ => 0) = .instance dm m' ∧
    rpmsgLiteRemoteInit 32 InitEnv.ok RL_PLATFORM_HIGHEST_LINK_ID (.build (headerTwo 64 (by decide) (by decide))) 4124 5 =
      some dr ∧
    (start (Link.start m' dm dr) fun _ => none).run kicksBack (linkUp ++ sendKick .master ++ sendKick .remote ++ receive) =
      some s ∧
    Waiting s .master ∧ ¬ (Waiting s .master ∧ Waiting s .remote) := by
  obtain ⟨dm, m', dr, hm, hr, ht⟩ := Link.of_check_link 0 RL_PLATFORM_HIGHEST_LINK_ID 5
    (fun dm m' dr => ((start (Link.start m' dm dr) fun _ => none).run kicksBack
      (linkUp ++ sendKick .master ++ sendKick .remote ++ receive)).any fun s =>
        (s.cpu .master).irq.kicks.map Kick.call == [some (.wait 0x20000)] && s.hw .master != none)
    (by decide +kernel)
  obtain ⟨s, hs, hq⟩ := (Option.any_eq_true _ _).1 ht
  simp only [Bool.and_eq_true, beq_iff_eq, bne_iff_ne] at hq
  obtain ⟨hcall, hfull⟩ := hq
  refine ⟨dm, m', dr, s, hm, hr, hs, ?_, ?_⟩
  · cases hirq : (s.cpu .master).irq with
    | kick k pc =>
      rw [hirq] at hcall
      exact ⟨k, pc, _, hirq, (List.cons.inj hcall).1, hfull⟩
    | _ =>
      rw [hirq] at hcall
      cases hcall
  · exact never_wait_for_each_other rfl (fun _ => rfl) (Sys.reachable_of_run .start hs)

end Mu

end RpmsgLite
