/-
The remote core of the imx8qm while it starts. `platform_init` has enabled the interrupt line and the first
`platform_init_interrupt` enables the message unit, so a message that comes before the second one finds no
virtqueue in `isr_table`. Where no message for the receive queue comes that early nothing is lost.
-/
import RpmsgLite.Irq.Mu

namespace RpmsgLite

namespace Mu

/-! ## Messages in order -/

/-- `MU_SendMsg` in one step: a message is sent once the register is empty. -/
def notifyStepInOrder (r : Role) (pc : Notify) (hw : Regs) : Regs × Option Notify :=
  match pc with
  | .wait msg => if hw r = none then (Function.update hw r (some msg), none) else (hw, some (.wait msg))
  | _ => (hw, none)

abbrev portInOrder : Port := { port with notifyStep := notifyStepInOrder }

/-- The vectors of the link between the M4 cores. -/
def OfLink (v : UInt32) : Prop :=
  rlGetComId v = RL_PLATFORM_IMX8QM_M4_M4_COM_ID ∧
    ((rlGenMuMsg v >>> 16) ||| (RL_PLATFORM_IMX8QM_M4_M4_COM_ID <<< 3)) = v

theorem notifyStepInOrder_keeps {r q : Role} {pc : Notify} {hw : Regs} {msg : UInt32} (h : hw q = some msg) :
    (notifyStepInOrder r pc hw).1 q = some msg := by
  cases pc with
  | wait msg' =>
    unfold notifyStepInOrder
    dsimp only
    split
    · rename_i he
      -- the register that is written was empty
      have hne : q ≠ r := by
        rintro rfl
        rw [he] at h
        cases h
      exact (Function.update_of_ne hne _ _).trans h
    · exact h
  | write => exact h
  | other => exact h

/-- The message unit delivers the vectors of its link. -/
def carries : portInOrder.Carries where
  valid := OfLink
  posted v r hw := OfLink v ∧ hw r.peer = some (rlGenMuMsg v)
  sending v pc := pc = .wait (rlGenMuMsg v)
  latched v pc := OfLink v ∧ pc = .isr (rlGenMuMsg v)
  notify hv := if_pos hv.1
  notify_keeps h := ⟨h.1, notifyStepInOrder_keeps h.2⟩
  notify_posts := by
    rintro v r pc hw hv rfl
    by_cases he : hw r = none
    · refine Or.inr ⟨hv, ?_⟩
      simp only [notifyStepInOrder, he, if_true, Role.peer_peer, Function.update_self]
    · refine Or.inl ⟨_, ?_, rfl⟩
      simp only [notifyStepInOrder, he, if_false]
  accept_keeps h := h
  handler_keeps := by
    rintro v r q pc hw hq ⟨hv, h⟩
    refine ⟨hv, ?_⟩
    cases pc with
    | receiveMsg =>
      have hne : q.peer ≠ r.peer := fun he => hq (by rw [← Role.peer_peer q, he, Role.peer_peer])
      exact (Function.update_of_ne hne _ _).trans h
    | getStatusFlags => exact h
    | isr => exact h
    | exit => exact h
  handler_takes := by
    rintro v r pc hw ⟨hv, h⟩
    cases pc with
    | receiveMsg =>
      refine Or.inr ⟨hv, ?_⟩
      rw [h]
      rfl
    | getStatusFlags => exact Or.inl ⟨hv, h⟩
    | isr => exact Or.inl ⟨hv, h⟩
    | exit => exact Or.inl ⟨hv, h⟩
  handler_latched := by
    rintro v r pc hw ⟨hv, rfl⟩
    exact Or.inl hv.2

/-! ## The remote starts -/

/-- `rpmsg_lite_master_init` has returned but for its kick, the remote has not installed an interrupt service
routine yet. -/
def startRemote (m : ByteMem) (dm dr : RpmsgLiteInstance) (hw : Regs) : Sys portInOrder :=
  let s := Sys.booted (Link.start m dm dr) hw platformInit platformInitInterrupt
  s.set .remote { s.cpu .remote with boot := dr.installIsrs platformInitInterrupt, isr := platformInit }

/-- `env_isr` gets the vector of the remote's receive queue only after its registration. -/
def Registered (s : Sys portInOrder) (r : Role) (mv : Move) : Prop :=
  r = .remote → mv = .handler → s.Delivers .remote ((s.dev .remote).vector .rvq) →
    (s.cpu .remote).isr.isrTable ((s.dev .remote).vector .rvq) = some .rvq

/-- What is in the remote's receive queue has its notification before it, or is being processed: the message is in
the register, the master has its kick before it, or the handler has read the message, or
`rpmsg_lite_rx_callback` runs. -/
def Awaited (s : Sys portInOrder) : Prop :=
  s.link.queueIds .master ≠ [] →
    s.hw .master = some (rlGenMuMsg ((s.dev .remote).vector .rvq)) ∨ s.Kicking .master .tvq ∨
      (s.cpu .remote).irq.Latches carries ((s.dev .remote).vector .rvq) ∨
      ∃ freed pc, (s.cpu .remote).irq = .rxCallback freed pc

/-- The link is in order and what is in the remote's receive queue has its notification before it. -/
structure Starting (W : Pools) (s : Sys portInOrder) : Prop where
  notifying : s.link.Notifying W
  valid : ∀ z, OfLink ((s.dev .remote).vector z)
  covered : s.Covered carries .remote

section

variable {w : Nat} {p : ShmemParams} {addr : Nat} {env envR : InitEnv} {linkId : UInt32} {cfg : ShmemConfig}
  {length : Nat} {m m' : ByteMem} {dm dr : RpmsgLiteInstance} {c : SysConfig} {hw : Regs} {s s' : Sys portInOrder}
  {W : Pools} {r : Role} {mv : Move}

theorem Starting.awaited (h : Starting W s) : Awaited s := by
  intro hne
  rcases h.covered with hnil | hrx | hn
  · exact absurd hnil hne
  · exact Or.inr (Or.inr (Or.inr hrx))
  · rcases h.notifying.wired.kicking hn with hp | hk | hl
    · exact Or.inl hp.2
    · exact Or.inr (Or.inl hk)
    · exact Or.inr (Or.inr (Or.inl hl))

theorem Starting.step (h : Starting W s) (hpay : ∀ r, c.link.payloadSize + 16 ≤ (W.pool r).size)
    (hs : Sys.Stepped c s r mv s') (hreg : Registered s r mv) : Starting W s' := by
  refine ⟨hs.notifying h.notifying hpay, fun z => ?_, ?_⟩
  · rw [hs.vector]
    exact h.valid z
  · refine hs.covered h.notifying hpay (h.valid .rvq) (fun hq hmv hd => ?_) h.covered
    subst hq
    exact hreg rfl hmv hd

/-- The links between the M4 cores have the vectors 8 to 11. -/
theorem start_ofLink (hlink : linkId = 4 ∨ linkId = 5)
    (hm : rpmsgLiteMasterInit w env RL_PLATFORM_HIGHEST_LINK_ID cfg addr length linkId m = .instance dm m')
    (hr : rpmsgLiteRemoteInit w envR RL_PLATFORM_HIGHEST_LINK_ID cfg addr linkId = some dr) (r : Role) (z : Queue) :
    OfLink (((Link.start m' dm dr).side r).dev.vector z) := by
  rw [Link.start_vector hm hr]
  unfold OfLink
  rcases hlink with rfl | rfl
  · cases r <;> cases z <;> decide
  · cases r <;> cases z <;> decide

/-- In every run that calls `env_isr` for the remote's receive queue only after its registration, no entry of that
queue is without its notification. -/
theorem startup_awaited (hlink : linkId = 4 ∨ linkId = 5)
    (hm : rpmsgLiteMasterInit w env RL_PLATFORM_HIGHEST_LINK_ID cfg addr length linkId m = .instance dm m')
    (hr : rpmsgLiteRemoteInit w envR RL_PLATFORM_HIGHEST_LINK_ID cfg addr linkId = some dr) (hlen : addr + length ≤ 2 ^ 32)
    (hp : masterParams w cfg = some p) (hok : LinkReady w cfg addr p m)
    (hflags : ∀ idx < 2, NotifyCleared m (vringOf w p addr idx) (zeroedSize w p)) (hc : c.link.payloadSize = cfg.payloadSize)
    (h : Sys.Reachable c Registered (startRemote m' dm dr hw) s) : Awaited s := by
  have hn := notifying_start hm hr hlen hp hok hflags
  have hpay := hok.pool_payload hc
  have h₀ : Starting hok.layout.pools (startRemote m' dm dr hw) :=
    ⟨hn, start_ofLink hlink hm hr .remote, Or.inl (Link.start_queueIds hn .master)⟩
  exact (h.invariant h₀ fun _ _ _ _ hs hreg hstep => hs.step hpay (Sys.step_cases hstep) hreg).awaited

end

/-! ## A message that comes early -/

/-- A send of three bytes by the master, with its kick. -/
def masterSends : List (Role × Move) :=
  [(.master, .task (.tx (.send 7 9 [1, 2, 3]))), (.master, .task (.tx (.fill 0))), (.master, .task (.tx (.enqueue 0))),
    (.master, .kick 0), (.master, .kick 0)]

/-- The remote's handler for one message. -/
def remoteHandles : List (Role × Move) := (.remote, .interrupt) :: List.replicate 4 (.remote, .handler)

/-- The steps of the remote's initialisation from the first registration on. -/
def remoteInstalls (n : Nat) : List (Role × Move) := List.replicate n (.remote, .boot)

/-- The configuration of the example runs. -/
def noKicksBack : SysConfig := ⟨⟨false, 16, 16⟩, false, true, fun _ _ => false⟩

/-- The receive queue is in the table before the handler runs. -/
def isRegistered (s : Sys portInOrder) (r : Role) (mv : Move) : Bool :=
  decide (r = .master) || mv matches .boot | .interrupt ||
    decide ((s.cpu .remote).isr.isrTable ((s.dev .remote).vector .rvq) = some .rvq)

theorem registered_of_isRegistered {s : Sys portInOrder} {r : Role} {mv : Move} (h : isRegistered s r mv = true) :
    Registered s r mv := by
  rintro rfl rfl -
  simpa [isRegistered] using h

/-- The remote that has registered both virtqueues before the master's message comes has it before it. -/
theorem startup_awaited_installed : ∃ dm m' dr s,
    rpmsgLiteMasterInit 32 InitEnv.ok RL_PLATFORM_HIGHEST_LINK_ID (.build (headerTwo 64 (by decide) (by decide))) 4124 512 5
      (fun _ => 0) = .instance dm m' ∧
    rpmsgLiteRemoteInit 32 InitEnv.ok RL_PLATFORM_HIGHEST_LINK_ID (.build (headerTwo 64 (by decide) (by decide))) 4124 5 =
      some dr ∧
    (startRemote m' dm dr fun _ => none).runIf noKicksBack isRegistered
      ((.master, .kick 0) :: (.master, .kick 0) :: remoteInstalls 2 ++ remoteHandles ++ remoteInstalls 4 ++ masterSends) =
      some s ∧
    (s.cpu .remote).boot.isEmpty = true ∧ s.link.queueIds .master ≠ [] ∧ Awaited s := by
  obtain ⟨dm, m', dr, hm, hr, ht⟩ := Link.of_check_link 0 RL_PLATFORM_HIGHEST_LINK_ID 5
    (fun dm m' dr => ((startRemote m' dm dr fun _ => none).runIf noKicksBack isRegistered
      ((.master, .kick 0) :: (.master, .kick 0) :: remoteInstalls 2 ++ remoteHandles ++ remoteInstalls 4 ++ masterSends)).any
      fun s => (s.cpu .remote).boot.isEmpty && !(s.link.queueIds .master).isEmpty)
    (by decide +kernel)
  obtain ⟨s, hs, hq⟩ := (Option.any_eq_true _ _).1 ht
  simp only [Bool.and_eq_true, Bool.not_eq_true', List.isEmpty_eq_false_iff] at hq
  refine ⟨dm, m', dr, s, hm, hr, hs, hq.1, hq.2, ?_⟩
  exact startup_awaited (Or.inr rfl) hm hr (by decide) rfl linkReady_two
    (fun _ _ => Or.inr (show (0 : UInt8) &&& 1 = 0 by decide)) rfl
    (Sys.reachable_of_runIf (fun _ _ _ => registered_of_isRegistered) .start hs)

/-- The master's first message comes between the two registrations: it is dropped, and once `rpmsg_lite_remote_init`
has returned nothing tells the remote of the entry. -/
theorem startup_drops : ∃ dm m' dr s,
    rpmsgLiteMasterInit 32 InitEnv.ok RL_PLATFORM_HIGHEST_LINK_ID (.build (headerTwo 64 (by decide) (by decide))) 4124 512 5
      (fun _ => 0) = .instance dm m' ∧
    rpmsgLiteRemoteInit 32 InitEnv.ok RL_PLATFORM_HIGHEST_LINK_ID (.build (headerTwo 64 (by decide) (by decide))) 4124 5 =
      some dr ∧
    (startRemote m' dm dr fun _ => none).run noKicksBack
      ((.master, .kick 0) :: (.master, .kick 0) :: remoteInstalls 1 ++ remoteHandles ++ masterSends ++ remoteHandles ++
        remoteInstalls 5) = some s ∧
    (s.cpu .remote).boot.isEmpty = true ∧ ¬ Awaited s := by
  obtain ⟨dm, m', dr, hm, hr, ht⟩ := Link.of_check_link 0 RL_PLATFORM_HIGHEST_LINK_ID 5
    (fun dm m' dr => ((startRemote m' dm dr fun _ => none).run noKicksBack
      ((.master, .kick 0) :: (.master, .kick 0) :: remoteInstalls 1 ++ remoteHandles ++ masterSends ++ remoteHandles ++
        remoteInstalls 5)).any
      fun s => (s.cpu .remote).boot.isEmpty && !(s.link.queueIds .master).isEmpty && s.hw .master == none &&
        (s.cpu .master).kicks.isEmpty && (s.cpu .master).irq.isIdle && (s.cpu .remote).irq.isIdle)
    (by decide +kernel)
  obtain ⟨s, hs, hq⟩ := (Option.any_eq_true _ _).1 ht
  simp only [Bool.and_eq_true, Bool.not_eq_true', List.isEmpty_eq_false_iff, List.isEmpty_iff, beq_iff_eq] at hq
  obtain ⟨⟨⟨⟨⟨hboot, hne⟩, hempty⟩, hkicks⟩, hmaster⟩, hremote⟩ := hq
  refine ⟨dm, m', dr, s, hm, hr, hs, List.isEmpty_iff.2 hboot, fun h => ?_⟩
  rcases h hne with hp | ⟨k, hk, -⟩ | hl | ⟨freed, pc, hrx⟩
  · rw [hempty] at hp
    cases hp
  · unfold Cpu.allKicks at hk
    rw [hkicks, Irq.eq_idle hmaster] at hk
    cases hk
  · rw [Irq.eq_idle hremote] at hl
    exact hl
  · rw [Irq.eq_idle hremote] at hrx
    cases hrx

end Mu

end RpmsgLite
