/-
The lpc55s69 mailbox: one word of pending bits for each core, where `platform_notify` sets the bit of a
virtqueue and `MAILBOX_IRQHandler` clears it before it calls `env_isr`. Notifications coalesce, but none is
lost: the bit stays until the handler is about to run the callback that checks the ring again.
-/
import RpmsgLite.Irq.Install

namespace RpmsgLite

namespace Mailbox

/-! ## The platform -/

def RL_PLATFORM_LPC55S69_M33_M33_LINK_ID : UInt32 := 0

def rlGetLinkId (id : UInt32) : UInt32 := (id &&& 0xFFFFFFFE) >>> 1

def rlGetQId (id : UInt32) : UInt32 := id &&& 1

/-- `MAILBOX_IRQHandler`, by what it does next; `value` is what it has read. -/
inductive HandlerPc
  | getValue
  /-- tests bit 0 and clears it -/
  | bit0 (value : UInt32)
  | isr0 (value : UInt32)
  | bit1 (value : UInt32)
  | isr1
  | exit

/-- The words of the two cores. -/
abbrev Words : Type := Role → UInt32

def clearValueBits (hw : Words) (r : Role) (bits : UInt32) : Words := Function.update hw r (hw r &&& ~~~bits)

def setValueBits (hw : Words) (r : Role) (bits : UInt32) : Words := Function.update hw r (hw r ||| bits)

def platformNotify (r : Role) (vector : UInt32) (hw : Words) : Words :=
  if rlGetLinkId vector = RL_PLATFORM_LPC55S69_M33_M33_LINK_ID then setValueBits hw r.peer (1 <<< rlGetQId vector) else hw

def handlerStep (r : Role) (pc : HandlerPc) (hw : Words) : Words × HandlerNext HandlerPc :=
  match pc with
  | .getValue => (hw, .goto (.bit0 (hw r)))
  | .bit0 value => if value &&& 1 ≠ 0 then (clearValueBits hw r 1, .goto (.isr0 value)) else (hw, .goto (.bit1 value))
  | .isr0 value => (hw, .envIsr 0 (.bit1 value))
  | .bit1 value => if value &&& 2 ≠ 0 then (clearValueBits hw r 2, .goto .isr1) else (hw, .done)
  | .isr1 => (hw, .envIsr 1 .exit)
  | .exit => (hw, .done)

/-- The mailbox raises its interrupt as long as a bit is set. -/
abbrev port : Port where
  Hw := Words
  NotifyPc := UInt32
  HandlerPc := HandlerPc
  platformNotify := id
  notifyStep r vector hw := (platformNotify r vector hw, none)
  raised r hw := hw r != 0
  accept _ hw := hw
  handler := .getValue
  handlerStep := handlerStep

/-- `platform_init` -/
def platformInit : IsrState := ⟨fun _ => none, 0, 0, true, false⟩

def platformInitInterrupt (vector : UInt32) (q : Queue) (i : IsrState) : IsrState :=
  let i := i.envRegisterIsr vector q
  { i with isrCounter := i.isrCounter + 1 }

/-! ## Bits -/

theorem or_and_ne_zero {x k : UInt32} (y : UInt32) (h : x &&& k ≠ 0) : (x ||| y) &&& k ≠ 0 := by
  have hor : (x ||| y) &&& k = (x &&& k) ||| (y &&& k) := by
    apply UInt32.toBitVec_inj.1
    ext i hi
    simp [Bool.and_or_distrib_right]
  rw [hor]
  intro h0
  exact h (UInt32.or_eq_zero_iff.1 h0).1

theorem clear_and {x k bits : UInt32} (h : ~~~bits &&& k = k) : (x &&& ~~~bits) &&& k = x &&& k := by
  rw [UInt32.and_assoc, h]

theorem setValueBits_keeps {hw : Words} {r q : Role} {bits k : UInt32} (h : hw q &&& k ≠ 0) :
    setValueBits hw r bits q &&& k ≠ 0 := by
  unfold setValueBits
  by_cases hq : q = r
  · subst hq
    rw [Function.update_self]
    exact or_and_ne_zero bits h
  · rw [Function.update_of_ne hq]
    exact h

/-! ## The mailbox delivers -/

/-- The bit of `v` is set for core `q`. -/
def Pending (hw : Words) (q : Role) (v : UInt32) : Prop := hw q &&& (1 <<< v) ≠ 0

/-- The handler has cleared the bit of `v` and is about to call `env_isr(v)`. -/
def Latched (v : UInt32) : HandlerPc → Prop
  | .isr0 _ => v = 0
  | .isr1 => v = 1
  | _ => False

theorem platformNotify_keeps {hw : Words} {r q : Role} {vector v : UInt32} (h : Pending hw q v) :
    Pending (platformNotify r vector hw) q v := by
  unfold platformNotify
  split
  · exact setValueBits_keeps h
  · exact h

theorem platformNotify_posts {hw : Words} {r : Role} {v : UInt32} (hv : v = 0 ∨ v = 1) :
    Pending (platformNotify r v hw) r.peer v := by
  have hset : ∀ k : UInt32, k &&& k ≠ 0 → setValueBits hw r.peer k r.peer &&& k ≠ 0 := by
    intro k hk
    unfold setValueBits
    rw [Function.update_self, UInt32.or_comm]
    exact or_and_ne_zero _ hk
  rcases hv with rfl | rfl
  · exact hset 1 (by decide)
  · exact hset 2 (by decide)

theorem handlerStep_keeps {hw : Words} {r q : Role} {v : UInt32} {pc : HandlerPc} (hq : q ≠ r) (h : Pending hw q v) :
    Pending (handlerStep r pc hw).1 q v := by
  have hclear : ∀ bits, Pending (clearValueBits hw r bits) q v := by
    intro bits
    unfold Pending clearValueBits
    rw [Function.update_of_ne hq]
    exact h
  unfold handlerStep
  split
  · exact h
  · split
    · exact hclear 1
    · exact h
  · exact h
  · split
    · exact hclear 2
    · exact h
  · exact h
  · exact h

/-- The handler clears a bit only where it goes on to the bit's `env_isr`. -/
theorem handlerStep_takes {hw : Words} {r : Role} {v : UInt32} {pc : HandlerPc} (hv : v = 0 ∨ v = 1) (h : Pending hw r v) :
    Pending (handlerStep r pc hw).1 r v ∨ (handlerStep r pc hw).2.Latched Latched v := by
  have hclear : ∀ bits, ~~~bits &&& (1 <<< v) = 1 <<< v → Pending (clearValueBits hw r bits) r v := by
    intro bits hbits
    unfold Pending clearValueBits
    rw [Function.update_self, clear_and hbits]
    exact h
  unfold handlerStep
  split
  · exact Or.inl h
  · split
    · rcases hv with rfl | rfl
      · exact Or.inr rfl
      · exact Or.inl (hclear 1 (by decide))
    · exact Or.inl h
  · exact Or.inl h
  · split
    · rcases hv with rfl | rfl
      · exact Or.inl (hclear 2 (by decide))
      · exact Or.inr rfl
    · exact Or.inl h
  · exact Or.inl h
  · exact Or.inl h

theorem handlerStep_latched {hw : Words} {r : Role} {v : UInt32} {pc : HandlerPc} (h : Latched v pc) :
    (handlerStep r pc hw).2.Latched Latched v := by
  cases pc with
  | isr0 value => exact Or.inl (Eq.symm h)
  | isr1 => exact Or.inl (Eq.symm h)
  | getValue => exact h.elim
  | bit0 => exact h.elim
  | bit1 => exact h.elim
  | exit => exact h.elim

/-- The mailbox delivers the two virtqueues of its one link. -/
def carries : port.Carries where
  valid v := v = 0 ∨ v = 1
  posted v r hw := (v = 0 ∨ v = 1) ∧ Pending hw r v
  sending v pc := pc = v
  latched := Latched
  notify _ := rfl
  notify_keeps h := ⟨h.1, platformNotify_keeps h.2⟩
  notify_posts := by
    rintro v r pc hw hv rfl
    exact Or.inr ⟨hv, platformNotify_posts hv⟩
  accept_keeps h := h
  handler_keeps hq h := ⟨h.1, handlerStep_keeps hq h.2⟩
  handler_takes h := (handlerStep_takes h.1 h.2).imp (fun hp => ⟨h.1, hp⟩) id
  handler_latched h := handlerStep_latched h

/-! ## No lost wake-up -/

def RL_PLATFORM_HIGHEST_LINK_ID : UInt32 := 0

/-- The start of two initialised cores, whatever bits are set. -/
def start (m : ByteMem) (dm dr : RpmsgLiteInstance) (hw : Words) : Sys port :=
  Sys.booted (Link.start m dm dr) hw platformInit platformInitInterrupt

/-- An entry in the receive queue of core `q`, and a buffer freed for its transmit queue, is not forgotten:
the bit is set, or the peer has its kick before it, or the handler has taken the bit and the callback has
its check of the ring before it. -/
structure NoLostWakeup (c : SysConfig) (s : Sys port) (q : Role) : Prop where
  flags : ∀ z, ((s.dev q).queue z).ring.Notifies s.link.m
  notifies : ∀ z, vqRingMustNotifyHost ((s.dev q).queue z) s.link.m = true
  rvq : s.link.queueIds q.peer ≠ [] →
    Pending s.hw q ((s.dev q).vector .rvq) ∨ s.Kicking q.peer .tvq ∨
      (s.cpu q).irq.Latches carries ((s.dev q).vector .rvq) ∨ ∃ freed pc, (s.cpu q).irq = .rxCallback freed pc
  tvq : c.notifyFreed = true → (s.cpu q).unwoken = true →
    Pending s.hw q ((s.dev q).vector .tvq) ∨ s.Kicking q.peer .rvq ∨
      (s.cpu q).irq.Latches carries ((s.dev q).vector .tvq) ∨ ∃ pc, (s.cpu q.peer).irq = .rxCallback true pc

/-- With no bit set, no kick under way and both cores out of their handlers the queue is empty. -/
theorem NoLostWakeup.drained {c : SysConfig} {s : Sys port} {q : Role} (h : NoLostWakeup c s q) (hbits : s.hw q = 0)
    (hkicks : (s.cpu q.peer).kicks = []) (hpeer : (s.cpu q.peer).irq = .idle) (hidle : (s.cpu q).irq = .idle) :
    s.link.queueIds q.peer = [] := by
  by_contra hne
  rcases h.rvq hne with hp | ⟨k, hk, -⟩ | hl | ⟨freed, pc, hrx⟩
  · exact hp (by rw [hbits, UInt32.zero_and])
  · unfold Cpu.allKicks at hk
    rw [hkicks, hpeer] at hk
    cases hk
  · rw [hidle] at hl
    exact hl
  · rw [hidle] at hrx
    cases hrx

theorem noLostWakeup {W : Pools} {c : SysConfig} {s : Sys port} (h : s.AllCovered carries W c) (q : Role) :
    NoLostWakeup c s q := by
  refine ⟨h.notifying.ring q, h.notifying.must q, fun hne => ?_, fun hfree hu => ?_⟩
  · rcases h.rvq q with hnil | hrx | hn
    · exact absurd hnil hne
    · exact Or.inr (Or.inr (Or.inr hrx))
    · rcases h.notifying.wired.kicking hn with hp | hk | hl
      · exact Or.inl hp.2
      · exact Or.inr (Or.inl hk)
      · exact Or.inr (Or.inr (Or.inl hl))
  · rcases h.tvq hfree q with hnil | hrx | hn
    · rw [hu] at hnil
      cases hnil
    · exact Or.inr (Or.inr (Or.inr hrx))
    · rcases h.notifying.wired.kicking hn with hp | hk | hl
      · exact Or.inl hp.2
      · exact Or.inr (Or.inl hk)
      · exact Or.inr (Or.inr (Or.inl hl))

section

variable {w : Nat} {p : ShmemParams} {addr : Nat} {env envR : InitEnv} {linkId : UInt32} {cfg : ShmemConfig}
  {length : Nat} {m m' : ByteMem} {dm dr : RpmsgLiteInstance} {c : SysConfig} {hw : Words} {s : Sys port}

/-- The one link of the platform has the vectors 0 and 1. -/
theorem start_valid (hm : rpmsgLiteMasterInit w env RL_PLATFORM_HIGHEST_LINK_ID cfg addr length linkId m = .instance dm m')
    (hr : rpmsgLiteRemoteInit w envR RL_PLATFORM_HIGHEST_LINK_ID cfg addr linkId = some dr) (r : Role) (z : Queue) :
    ((Link.start m' dm dr).side r).dev.vector z = 0 ∨ ((Link.start m' dm dr).side r).dev.vector z = 1 := by
  obtain rfl : linkId = 0 := UInt32.le_antisymm (masterInit_linkId hm) (UInt32.zero_le)
  rw [Link.start_vector hm hr]
  cases r with
  | master =>
    cases z with
    | rvq => exact Or.inl rfl
    | tvq => exact Or.inr rfl
  | remote =>
    cases z with
    | rvq => exact Or.inr rfl
    | tvq => exact Or.inl rfl

/-- From a ready start with clear notification flags, no wake-up is lost in any state of any run. -/
theorem mailbox_no_lost_wakeup
    (hm : rpmsgLiteMasterInit w env RL_PLATFORM_HIGHEST_LINK_ID cfg addr length linkId m = .instance dm m')
    (hr : rpmsgLiteRemoteInit w envR RL_PLATFORM_HIGHEST_LINK_ID cfg addr linkId = some dr) (hlen : addr + length ≤ 2 ^ 32)
    (hp : masterParams w cfg = some p) (hok : LinkReady w cfg addr p m)
    (hflags : ∀ idx < 2, NotifyCleared m (vringOf w p addr idx) (zeroedSize w p)) (hc : c.link.payloadSize = cfg.payloadSize)
    (h : Sys.Reachable c (fun _ _ _ => True) (start m' dm dr hw) s) (q : Role) : NoLostWakeup c s q := by
  have hn := notifying_start hm hr hlen hp hok hflags
  have hvalid := start_valid hm hr
  have hpay := hok.pool_payload hc
  have h₀ : (start m' dm dr hw).AllCovered carries hok.layout.pools c := by
    refine Sys.booted_allCovered hn (fun _ _ _ => rfl) hvalid fun r z => ?_
    rcases hvalid r z with hv | hv
    · rw [hv]
      decide
    · rw [hv]
      decide
  exact noLostWakeup (h.allCovered hpay h₀) q

end

/-- The master sends three bytes. -/
def sendThree : List (Role × Move) :=
  [(.master, .task (.tx (.send 7 9 [1, 2, 3]))), (.master, .task (.tx (.fill 0))), (.master, .task (.tx (.enqueue 0)))]

/-- The master ends its initialisation, sends three bytes and kicks. -/
def sendKick : List (Role × Move) :=
  List.replicate 2 (.master, .kick 0) ++ sendThree ++ List.replicate 2 (.master, .kick 0)

/-- Over cleared memory the bits of both virtqueues of the remote are set. -/
theorem mailbox_no_lost_wakeup_send : ∃ dm m' dr s,
    rpmsgLiteMasterInit 32 InitEnv.ok 0 (.build (headerTwo 64 (by decide) (by decide))) 4124 512 0 (fun _ => 0) =
      .instance dm m' ∧
    rpmsgLiteRemoteInit 32 InitEnv.ok 0 (.build (headerTwo 64 (by decide) (by decide))) 4124 0 = some dr ∧
    (start m' dm dr fun _ => 0).run ⟨⟨false, 16, 16⟩, true, false, fun _ _ => false⟩ sendKick = some s ∧
    s.link.queueIds .master ≠ [] ∧ s.hw .remote = 3 ∧
    NoLostWakeup ⟨⟨false, 16, 16⟩, true, false, fun _ _ => false⟩ s .remote := by
  obtain ⟨dm, m', dr, hm, hr, ht⟩ := Link.of_check_two 0
    (fun dm m' dr => ((start m' dm dr fun _ => 0).run ⟨⟨false, 16, 16⟩, true, false, fun _ _ => false⟩ sendKick).any
      fun s => !(s.link.queueIds .master).isEmpty && s.hw .remote == 3)
    (by decide +kernel)
  obtain ⟨s, hs, hq⟩ := (Option.any_eq_true _ _).1 ht
  simp only [Bool.and_eq_true, Bool.not_eq_true', List.isEmpty_eq_false_iff] at hq
  refine ⟨dm, m', dr, s, hm, hr, hs, hq.1, eq_of_beq hq.2, ?_⟩
  exact mailbox_no_lost_wakeup hm hr (by decide) rfl
    linkReady_two (fun _ _ => Or.inr (show (0 : UInt8) &&& 1 = 0 by decide)) rfl
    (Sys.reachable_of_run .start hs) .remote

/-- Over memory that was not cleared the kick does not notify, and nothing tells the remote of the entry. -/
theorem mailbox_no_lost_wakeup_garbage : ∃ dm m' dr s,
    rpmsgLiteMasterInit 32 InitEnv.ok 0 (.build (headerTwo 64 (by decide) (by decide))) 4124 512 0 (fun _ => 0xFF) =
      .instance dm m' ∧
    rpmsgLiteRemoteInit 32 InitEnv.ok 0 (.build (headerTwo 64 (by decide) (by decide))) 4124 0 = some dr ∧
    (start m' dm dr fun _ => 0).run ⟨⟨false, 16, 16⟩, true, false, fun _ _ => false⟩
      ((.master, .kick 0) :: sendThree ++ [(.master, .kick 0)]) = some s ∧
    (s.link.side .master).tx.sent.length = 1 ∧ (s.cpu .master).kicks = [] ∧
    ¬ NoLostWakeup ⟨⟨false, 16, 16⟩, true, false, fun _ _ => false⟩ s .remote := by
  obtain ⟨dm, m', dr, hm, hr, ht⟩ := Link.of_check_two 0xFF
    (fun dm m' dr => ((start m' dm dr fun _ => 0).run ⟨⟨false, 16, 16⟩, true, false, fun _ _ => false⟩
      ((.master, .kick 0) :: sendThree ++ [(.master, .kick 0)])).any fun s =>
        (s.link.side .master).tx.sent.length == 1 && (s.cpu .master).kicks.isEmpty && s.hw .remote == 0 &&
        (s.cpu .master).irq.isIdle && (s.cpu .remote).irq.isIdle && !(s.link.queueIds .master).isEmpty)
    (by decide +kernel)
  obtain ⟨s, hs, hq⟩ := (Option.any_eq_true _ _).1 ht
  simp only [Bool.and_eq_true, Bool.not_eq_true', List.isEmpty_eq_false_iff, List.isEmpty_iff, beq_iff_eq] at hq
  obtain ⟨⟨⟨⟨⟨hsent, hkicks⟩, hbits⟩, hmaster⟩, hremote⟩, hne⟩ := hq
  exact ⟨dm, m', dr, s, hm, hr, hs, hsent, hkicks,
    fun h => hne (h.drained hbits hkicks (Irq.eq_idle hmaster) (Irq.eq_idle hremote))⟩

end Mailbox

end RpmsgLite
