/-
Notifications on the i.MX RT700: the message units between the two M33 cores and the HiFi4, each core's
`platform_notify`, and one interrupt handler for each side of a message unit. A handler names the link it
serves by a constant; the one of `MU2_B` names the wrong one.
-/
import Mathlib.Logic.Function.Basic
import RpmsgLite.Lib.Runs

namespace RpmsgLite

namespace Rt700

/-! ## Links and message units -/

inductive Core
  | m33_0
  | m33_1
  | hifi4
deriving DecidableEq

/-- The communication ids between the three cores. -/
inductive Com
  | m33_0_m33_1
  | m33_0_hifi4
  | m33_1_hifi4
deriving DecidableEq

def RL_PLATFORM_IMXRT700_M33_0_M33_1_COM_ID : UInt32 := 0
def RL_PLATFORM_IMXRT700_M33_0_HIFI4_COM_ID : UInt32 := 1
def RL_PLATFORM_IMXRT700_M33_1_HIFI4_COM_ID : UInt32 := 5

def Com.id : Com → UInt32
  | .m33_0_m33_1 => RL_PLATFORM_IMXRT700_M33_0_M33_1_COM_ID
  | .m33_0_hifi4 => RL_PLATFORM_IMXRT700_M33_0_HIFI4_COM_ID
  | .m33_1_hifi4 => RL_PLATFORM_IMXRT700_M33_1_HIFI4_COM_ID

/-- The other core of a link, for the cores it connects. -/
def Com.other : Com → Core → Option Core
  | .m33_0_m33_1, .m33_0 => some .m33_1
  | .m33_0_m33_1, .m33_1 => some .m33_0
  | .m33_0_hifi4, .m33_0 => some .hifi4
  | .m33_0_hifi4, .hifi4 => some .m33_0
  | .m33_1_hifi4, .m33_1 => some .hifi4
  | .m33_1_hifi4, .hifi4 => some .m33_1
  | _, _ => none

/-- The two general purpose interrupts of a message unit that the port uses. -/
inductive GenInt
  | gen0
  | gen1
deriving DecidableEq

def GenInt.bit : GenInt → UInt32
  | .gen0 => 0
  | .gen1 => 1

/-- A link id: `RL_GEN_LINK_ID(com, vringId)`. -/
structure LinkId where
  com : Com
  vringId : UInt32

def LinkId.toUInt32 (l : LinkId) : UInt32 := (l.com.id <<< 2) ||| l.vringId

def rlGetVqId (linkId queueId : UInt32) : UInt32 := (queueId &&& 1) ||| ((linkId <<< (1 : UInt32)) &&& 0xFFFFFFFE)
def rlGetComId (vqId : UInt32) : UInt32 := vqId >>> 3
def rlGetQId (vqId : UInt32) : UInt32 := vqId &&& 1

/-- The vector of the queue `n` of a link. -/
def LinkId.vector (l : LinkId) (n : GenInt) : UInt32 := rlGetVqId l.toUInt32 n.bit

/-- The sides of the message units, by their names in the device header. -/
inductive Mu
  | mu1_a
  | mu1_b
  | mu2_a
  | mu2_b
  | mu4_a
  | mu4_b
deriving DecidableEq

/-- The side on which a triggered interrupt becomes pending. -/
def Mu.other : Mu → Mu
  | .mu1_a => .mu1_b
  | .mu1_b => .mu1_a
  | .mu2_a => .mu2_b
  | .mu2_b => .mu2_a
  | .mu4_a => .mu4_b
  | .mu4_b => .mu4_a

/-! ## The platform -/

def genInt (vqId : UInt32) : GenInt := if rlGetQId vqId = 0 then .gen0 else .gen1

/-- `platform_notify`: the side and the interrupt it triggers. The links to the other cores of the chip are not
among these three. -/
def platformNotify (c : Core) (vectorId : UInt32) : Option (Mu × GenInt) :=
  match c with
  | .m33_0 =>
    if rlGetComId vectorId = RL_PLATFORM_IMXRT700_M33_0_M33_1_COM_ID then some (.mu1_a, genInt vectorId)
    else if rlGetComId vectorId = RL_PLATFORM_IMXRT700_M33_0_HIFI4_COM_ID then some (.mu4_a, genInt vectorId)
    else none
  | .m33_1 =>
    if rlGetComId vectorId = RL_PLATFORM_IMXRT700_M33_0_M33_1_COM_ID then some (.mu1_b, genInt vectorId)
    else if rlGetComId vectorId = RL_PLATFORM_IMXRT700_M33_1_HIFI4_COM_ID then some (.mu2_b, genInt vectorId)
    else none
  | .hifi4 =>
    if rlGetComId vectorId = RL_PLATFORM_IMXRT700_M33_0_HIFI4_COM_ID then some (.mu4_b, genInt vectorId)
    else if rlGetComId vectorId = RL_PLATFORM_IMXRT700_M33_1_HIFI4_COM_ID then some (.mu2_a, genInt vectorId)
    else none

/-- The core whose handler serves a side, and the communication id that handler passes on: `MU2_B_IRQHandler`
names `RL_PLATFORM_IMXRT700_M33_0_M33_1_COM_ID`. -/
def irqHandler : Mu → Core × UInt32
  | .mu1_a => (.m33_0, RL_PLATFORM_IMXRT700_M33_0_M33_1_COM_ID)
  | .mu1_b => (.m33_1, RL_PLATFORM_IMXRT700_M33_0_M33_1_COM_ID)
  | .mu2_a => (.hifi4, RL_PLATFORM_IMXRT700_M33_1_HIFI4_COM_ID)
  | .mu2_b => (.m33_1, RL_PLATFORM_IMXRT700_M33_0_M33_1_COM_ID)
  | .mu4_a => (.m33_0, RL_PLATFORM_IMXRT700_M33_0_HIFI4_COM_ID)
  | .mu4_b => (.hifi4, RL_PLATFORM_IMXRT700_M33_0_HIFI4_COM_ID)

def Mu.core (mu : Mu) : Core := (irqHandler mu).1

/-- The vector a handler passes to `env_isr`. -/
def Mu.vector (mu : Mu) (n : GenInt) : UInt32 := n.bit ||| ((irqHandler mu).2 <<< 3)

/-- A handler, by what it does next; `flags` is what it has read. -/
inductive HandlerPc
  | idle
  | getStatusFlags
  | test0 (flags : GenInt → Bool)
  | isr0 (flags : GenInt → Bool)
  | test1 (flags : GenInt → Bool)
  | isr1

/-- What has happened: calls of `platform_notify`, and entries of `env_isr`. -/
inductive Event
  | notify (c : Core) (l : LinkId) (n : GenInt)
  | isr (c : Core) (vector : UInt32)

/-- The pending interrupts, the handlers, and what has happened, the latest first. -/
structure State where
  flags : Mu → GenInt → Bool
  pc : Mu → HandlerPc
  log : List Event

def State.setFlag (s : State) (mu : Mu) (n : GenInt) (b : Bool) : State :=
  { s with flags := Function.update s.flags mu (Function.update (s.flags mu) n b) }

def State.goto (s : State) (mu : Mu) (pc : HandlerPc) : State := { s with pc := Function.update s.pc mu pc }

inductive Move
  | notify (c : Core) (l : LinkId) (n : GenInt)
  /-- the core takes the interrupt of a side -/
  | interrupt (mu : Mu)
  /-- the next step of a handler -/
  | handler (mu : Mu)

/-- `none` is a step that cannot be taken in this state. A core notifies on its links that are up. -/
def State.step (up : LinkId → Bool) (s : State) : Move → Option State
  | .notify c l n =>
    if up l && (l.com.other c).isSome then
      let s := { s with log := .notify c l n :: s.log }
      match platformNotify c (l.vector n) with
      | some (mu, k) => some (s.setFlag mu.other k true)
      | none => some s
    else none
  | .interrupt mu =>
    match s.pc mu with
    | .idle => if s.flags mu .gen0 || s.flags mu .gen1 then some (s.goto mu .getStatusFlags) else none
    | _ => none
  | .handler mu =>
    match s.pc mu with
    | .idle => none
    | .getStatusFlags => some (s.goto mu (.test0 (s.flags mu)))
    | .test0 flags =>
      if flags .gen0 then some ((s.setFlag mu .gen0 false).goto mu (.isr0 flags)) else some (s.goto mu (.test1 flags))
    | .isr0 flags => some ({ s with log := .isr mu.core (mu.vector .gen0) :: s.log }.goto mu (.test1 flags))
    | .test1 flags =>
      if flags .gen1 then some ((s.setFlag mu .gen1 false).goto mu .isr1) else some (s.goto mu .idle)
    | .isr1 => some ({ s with log := .isr mu.core (mu.vector .gen1) :: s.log }.goto mu .idle)

/-- Nothing pending and nothing done. -/
def State.init : State := ⟨fun _ _ => false, fun _ => .idle, []⟩

/-- The states of all runs whose steps all satisfy `ok`. -/
inductive Reachable (up : LinkId → Bool) (ok : Move → Prop) : State → Prop
  | init : Reachable up ok .init
  | step {s s' : State} {mv : Move} (h : Reachable up ok s) (hok : ok mv) (hs : s.step up mv = some s') : Reachable up ok s'

/-! ## Routing -/

/-- No interrupt pending and no handler running. -/
def State.Quiet (s : State) : Prop := ∀ mu, (∀ n, s.flags mu n = false) ∧ s.pc mu = .idle

/-- After each notification the other core of its link has entered `env_isr` with its vector. -/
def Served (log : List Event) : Prop :=
  ∀ later earlier c l n p, log = later ++ .notify c l n :: earlier → l.com.other c = some p → .isr p (l.vector n) ∈ later

/-- A core enters `env_isr` with a vector only after the peer of the vector's link has notified it. -/
def Caused (log : List Event) : Prop :=
  ∀ later earlier c v, log = later ++ .isr c v :: earlier →
    ∃ p l n, v = l.vector n ∧ l.com.other c = some p ∧ .notify p l n ∈ earlier

/-- The HiFi4 does not notify the second M33, and all link ids are those the port defines. -/
def Routed : Move → Prop
  | .notify c l _ => ¬ (c = .hifi4 ∧ l.com = .m33_1_hifi4) ∧ l.vringId = 0
  | _ => True

/-- The handler of the side is about to pass on `n`. -/
def Passes (n : GenInt) : HandlerPc → Prop
  | .isr0 _ => n = .gen0
  | .isr1 => n = .gen1
  | _ => False

/-- The handler has read `n` as pending. -/
def Reads (n : GenInt) : HandlerPc → Prop
  | .test0 flags => flags n = true
  | .isr0 flags => n = .gen0 ∨ flags n = true
  | .test1 flags => n = .gen1 ∧ flags n = true
  | .isr1 => n = .gen1
  | _ => False

/-- The vector of a pending interrupt has been notified by the peer of its link. -/
def Notified (log : List Event) (mu : Mu) (n : GenInt) : Prop :=
  ∃ p l k, mu.vector n = l.vector k ∧ l.com.other mu.core = some p ∧ .notify p l k ∈ log

/-- Each notification is served or on its way, and everything on its way was notified. -/
structure Inv (s : State) : Prop where
  caused : Caused s.log
  flag : ∀ mu n, s.flags mu n = true → Notified s.log mu n
  read : ∀ mu n, Reads n (s.pc mu) → Notified s.log mu n
  served : ∀ later earlier c l n p, s.log = later ++ .notify c l n :: earlier → l.com.other c = some p →
    .isr p (l.vector n) ∈ later ∨
      ∃ mu k, mu.core = p ∧ mu.vector k = l.vector n ∧ (s.flags mu k = true ∨ Passes k (s.pc mu))

section

variable {s s' : State} {up : LinkId → Bool} {mu : Mu} {n : GenInt} {c p : Core} {l : LinkId}

theorem inv_init : Inv .init := by
  refine ⟨?_, nofun, nofun, ?_⟩
  · intro later earlier c v h
    simp [State.init] at h
  · intro later earlier c l n p h
    simp [State.init] at h

/-- A routed notification becomes pending at the other core, at the side whose handler passes its vector on. -/
theorem routed (hr : Routed (.notify c l n)) (hp : l.com.other c = some p) :
    ∃ mu, platformNotify c (l.vector n) = some (mu, n) ∧ mu.other.core = p ∧ mu.other.vector n = l.vector n ∧
      l.com.other p = some c := by
  obtain ⟨com, vringId⟩ := l
  obtain ⟨hne, rfl⟩ := hr
  cases com <;> cases c <;> cases hp
  · cases n
    · exact ⟨.mu1_a, by decide⟩
    · exact ⟨.mu1_a, by decide⟩
  · cases n
    · exact ⟨.mu1_b, by decide⟩
    · exact ⟨.mu1_b, by decide⟩
  · cases n
    · exact ⟨.mu4_a, by decide⟩
    · exact ⟨.mu4_a, by decide⟩
  · cases n
    · exact ⟨.mu4_b, by decide⟩
    · exact ⟨.mu4_b, by decide⟩
  · cases n
    · exact ⟨.mu2_b, by decide⟩
    · exact ⟨.mu2_b, by decide⟩
  · exact absurd ⟨rfl, rfl⟩ hne

/-! ## One step -/

theorem Notified.cons {log : List Event} (e : Event) (h : Notified log mu n) : Notified (e :: log) mu n := by
  obtain ⟨p, l, k, hv, hp, hmem⟩ := h
  exact ⟨p, l, k, hv, hp, List.mem_cons_of_mem e hmem⟩

/-- A new event other than an entry of `env_isr` needs no cause. -/
theorem Caused.cons {log : List Event} {e : Event} (h : Caused log)
    (he : ∀ c v, e = .isr c v → ∃ p l n, v = l.vector n ∧ l.com.other c = some p ∧ .notify p l n ∈ log) :
    Caused (e :: log) := by
  intro later earlier c v hlog
  cases later with
  | nil =>
    obtain ⟨rfl, rfl⟩ := List.cons.inj hlog
    exact he c v rfl
  | cons e' later => exact h later earlier c v (List.cons.inj hlog).2

/-- A step without an event that takes no pending interrupt away but to pass it on. -/
theorem Inv.quiet_step (h : Inv s) (hlog : s'.log = s.log) (hflag : ∀ mu n, s'.flags mu n = true → s.flags mu n = true)
    (hread : ∀ mu n, Reads n (s'.pc mu) → Reads n (s.pc mu) ∨ s.flags mu n = true)
    (hkeep : ∀ mu k, s.flags mu k = true ∨ Passes k (s.pc mu) → s'.flags mu k = true ∨ Passes k (s'.pc mu)) : Inv s' := by
  refine ⟨by rw [hlog]; exact h.caused, fun mu n hf => ?_, fun mu n hr => ?_, fun later earlier c l n p he hp => ?_⟩
  · rw [hlog]
    exact h.flag mu n (hflag mu n hf)
  · rw [hlog]
    rcases hread mu n hr with hr | hf
    · exact h.read mu n hr
    · exact h.flag mu n hf
  · rw [hlog] at he
    rcases h.served later earlier c l n p he hp with hisr | ⟨mu, k, hc, hv, hk⟩
    · exact Or.inl hisr
    · exact Or.inr ⟨mu, k, hc, hv, hkeep mu k hk⟩

theorem State.goto_pc_self (pc : HandlerPc) : (s.goto mu pc).pc mu = pc := Function.update_self ..

theorem State.goto_pc_of_ne {q : Mu} (pc : HandlerPc) (h : q ≠ mu) : (s.goto mu pc).pc q = s.pc q :=
  Function.update_of_ne h _ _

/-- A handler's step without an event and with the flags as they are. -/
theorem Inv.goto (h : Inv s) {pc : HandlerPc} (hread : ∀ n, Reads n pc → Reads n (s.pc mu) ∨ s.flags mu n = true)
    (hpass : ∀ n, ¬ Passes n (s.pc mu)) : Inv (s.goto mu pc) := by
  refine h.quiet_step rfl (fun _ _ hf => hf) (fun q n hr => ?_) fun q k hk => ?_
  · by_cases hq : q = mu
    · subst hq
      rw [State.goto_pc_self] at hr
      exact hread n hr
    · rw [State.goto_pc_of_ne pc hq] at hr
      exact Or.inl hr
  · by_cases hq : q = mu
    · subst hq
      exact hk.imp_right fun hk => absurd hk (hpass k)
    · rw [State.goto_pc_of_ne pc hq]
      exact hk

/-- The handler clears an interrupt it has read and goes on to pass it on. -/
theorem Inv.clear (h : Inv s) {pc : HandlerPc} (hn : Passes n pc) (hread : ∀ k, Reads k pc → Reads k (s.pc mu))
    (hpass : ∀ k, ¬ Passes k (s.pc mu)) : Inv ((s.setFlag mu n false).goto mu pc) := by
  -- the flags of the state after the step
  have hflags : ∀ q k, ((s.setFlag mu n false).goto mu pc).flags q k = (s.flags q k && !(decide (q = mu) && decide (k = n))) := by
    intro q k
    show Function.update s.flags mu (Function.update (s.flags mu) n false) q k = _
    by_cases hq : q = mu
    · subst hq
      rw [Function.update_self]
      by_cases hk : k = n
      · subst hk
        simp
      · simp [hk]
    · simp [hq]
  refine h.quiet_step rfl (fun q k hf => ?_) (fun q k hr => ?_) fun q k hk => ?_
  · rw [hflags, Bool.and_eq_true] at hf
    exact hf.1
  · by_cases hq : q = mu
    · subst hq
      rw [State.goto_pc_self] at hr
      exact Or.inl (hread k hr)
    · rw [State.goto_pc_of_ne pc hq] at hr
      exact Or.inl hr
  · by_cases hq : q = mu
    · subst hq
      rw [State.goto_pc_self]
      by_cases hkn : k = n
      · subst hkn
        exact Or.inr hn
      · refine Or.inl ?_
        rw [hflags, hk.resolve_right (hpass k)]
        simp [hkn]
    · rw [State.goto_pc_of_ne pc hq, hflags]
      refine hk.imp_left fun hk => ?_
      rw [hk]
      simp [hq]

/-- The handler enters `env_isr` with the vector of the interrupt it has cleared. -/
theorem Inv.envIsr (h : Inv s) {pc : HandlerPc} (hn : Reads n (s.pc mu)) (hpass : ∀ k, Passes k (s.pc mu) → k = n)
    (hread : ∀ k, Reads k pc → Reads k (s.pc mu)) :
    Inv ({ s with log := .isr mu.core (mu.vector n) :: s.log }.goto mu pc) := by
  obtain ⟨p₀, l₀, k₀, hv₀, hp₀, hmem₀⟩ := h.read mu n hn
  refine ⟨h.caused.cons fun c v he => ?_, fun q k hf => (h.flag q k hf).cons _, fun q k hr => ?_,
    fun later earlier c l k p he hp => ?_⟩
  · obtain ⟨rfl, rfl⟩ := Event.isr.inj he
    exact ⟨p₀, l₀, k₀, hv₀, hp₀, hmem₀⟩
  · by_cases hq : q = mu
    · subst hq
      rw [State.goto_pc_self] at hr
      exact (h.read q k (hread k hr)).cons _
    · rw [State.goto_pc_of_ne pc hq] at hr
      exact (h.read q k hr).cons _
  · cases later with
    | nil => cases he
    | cons e later =>
      obtain ⟨rfl, hlog⟩ := List.cons.inj he
      rcases h.served later earlier c l k p hlog hp with hisr | ⟨q, j, hc, hv, hj⟩
      · exact Or.inl (List.mem_cons_of_mem _ hisr)
      · by_cases hq : q = mu
        · subst hq
          rcases hj with hj | hj
          · exact Or.inr ⟨q, j, hc, hv, Or.inl hj⟩
          · obtain rfl := hpass j hj
            rw [← hc, ← hv]
            exact Or.inl List.mem_cons_self
        · refine Or.inr ⟨q, j, hc, hv, ?_⟩
          rw [State.goto_pc_of_ne pc hq]
          exact hj

/-- A routed notification. -/
theorem Inv.notify (h : Inv s) (hr : Routed (.notify c l n)) (hp : l.com.other c = some p) {k : GenInt}
    (hn : platformNotify c (l.vector n) = some (mu, k)) :
    Inv ({ s with log := .notify c l n :: s.log }.setFlag mu.other k true) := by
  obtain ⟨mu', hn', hcore, hvec, hback⟩ := routed hr hp
  rw [hn] at hn'
  obtain ⟨rfl, rfl⟩ := Prod.mk.inj (Option.some.inj hn')
  have hflags : ∀ q j, ({ s with log := .notify c l k :: s.log }.setFlag mu.other k true).flags q j =
      (s.flags q j || (decide (q = mu.other) && decide (j = k))) := by
    intro q j
    show Function.update s.flags mu.other (Function.update (s.flags mu.other) k true) q j = _
    by_cases hq : q = mu.other
    · subst hq
      rw [Function.update_self]
      by_cases hj : j = k
      · subst hj
        simp
      · simp [hj]
    · simp [hq]
  refine ⟨h.caused.cons nofun, fun q j hf => ?_, fun q j hread => (h.read q j hread).cons _,
    fun later earlier c' l' n' p' he hp' => ?_⟩
  · rw [hflags, Bool.or_eq_true] at hf
    rcases hf with hf | hf
    · exact (h.flag q j hf).cons _
    · simp only [Bool.and_eq_true, decide_eq_true_eq] at hf
      obtain ⟨rfl, rfl⟩ := hf
      refine ⟨c, l, j, hvec, ?_, List.mem_cons_self⟩
      rw [hcore]
      exact hback
  · cases later with
    | nil =>
      obtain ⟨he, -⟩ := List.cons.inj he
      obtain ⟨rfl, rfl, rfl⟩ := Event.notify.inj he
      rw [hp] at hp'
      cases hp'
      refine Or.inr ⟨mu.other, k, hcore, hvec, Or.inl ?_⟩
      rw [hflags]
      simp
    | cons e later =>
      obtain ⟨rfl, hlog⟩ := List.cons.inj he
      rcases h.served later earlier c' l' n' p' hlog hp' with hisr | ⟨q, j, hc, hv, hj⟩
      · exact Or.inl (List.mem_cons_of_mem _ hisr)
      · refine Or.inr ⟨q, j, hc, hv, hj.imp_left fun hj => ?_⟩
        rw [hflags, hj, Bool.true_or]

/-- Every routed step keeps the invariant. -/
theorem Inv.step (h : Inv s) {mv : Move} (hr : Routed mv) (hs : s.step up mv = some s') : Inv s' := by
  cases mv with
  | notify c l n =>
    simp only [State.step] at hs
    split at hs
    · rename_i hguard
      rw [Bool.and_eq_true] at hguard
      obtain ⟨p, hp⟩ := Option.isSome_iff_exists.1 hguard.2
      split at hs
      · rename_i mu k hn
        cases hs
        exact h.notify hr hp hn
      · rename_i hn
        obtain ⟨mu, hn', -⟩ := routed hr hp
        rw [hn] at hn'
        cases hn'
    · cases hs
  | interrupt mu =>
    simp only [State.step] at hs
    split at hs
    · rename_i hpc
      split at hs
      · cases hs
        exact h.goto (fun _ hr => hr.elim) fun n hp => by rw [hpc] at hp; exact hp
      · cases hs
    · cases hs
  | handler mu =>
    simp only [State.step] at hs
    split at hs
    · cases hs
    · rename_i hpc
      cases hs
      exact h.goto (fun _ hr => Or.inr hr) fun n hp => by rw [hpc] at hp; exact hp
    · rename_i flags hpc
      have hpass : ∀ n, ¬ Passes n (s.pc mu) := fun n hp => by rw [hpc] at hp; exact hp
      split at hs
      · rename_i hf
        cases hs
        refine h.clear rfl (fun k hk => ?_) hpass
        rw [hpc]
        rcases hk with rfl | hk
        · exact hf
        · exact hk
      · cases hs
        refine h.goto (fun k hk => Or.inl ?_) hpass
        rw [hpc]
        exact hk.2
    · rename_i flags hpc
      cases hs
      refine h.envIsr (by rw [hpc]; exact Or.inl rfl) (fun k hk => by rw [hpc] at hk; exact hk) fun k hk => ?_
      rw [hpc]
      exact Or.inr hk.2
    · rename_i flags hpc
      have hpass : ∀ n, ¬ Passes n (s.pc mu) := fun n hp => by rw [hpc] at hp; exact hp
      split at hs
      · rename_i hf
        cases hs
        refine h.clear rfl (fun k hk => ?_) hpass
        rw [hpc]
        obtain rfl : k = .gen1 := hk
        exact ⟨rfl, hf⟩
      · cases hs
        exact h.goto (fun _ hr => hr.elim) hpass
    · rename_i hpc
      cases hs
      exact h.envIsr (by rw [hpc]; exact rfl) (fun k hk => by rw [hpc] at hk; exact hk) fun k hk => hk.elim

/-- In every run of routed notifications the entries of `env_isr` are caused, and once all is quiet every
notification is served. -/
theorem notifications_routed (h : Reachable up Routed s) : Caused s.log ∧ (s.Quiet → Served s.log) := by
  have hinv : Inv s := by
    induction h with
    | init => exact inv_init
    | step _ hok hs ih => exact ih.step hok hs
  refine ⟨hinv.caused, fun hq later earlier c l n p he hp => ?_⟩
  rcases hinv.served later earlier c l n p he hp with hisr | ⟨mu, k, -, -, hk | hk⟩
  · exact hisr
  · rw [(hq mu).1 k] at hk
    cases hk
  · rw [(hq mu).2] at hk
    exact hk.elim

end

/-! ## Two notifications of the HiFi4 -/

/-- The run of a list of steps. -/
def State.run (up : LinkId → Bool) (s : State) : List Move → Option State
  | [] => some s
  | mv :: moves => (s.step up mv).bind fun s => s.run up moves

theorem isRun (up : LinkId → Bool) : IsRun (State.step up) (State.run up) := ⟨fun _ => rfl, fun _ _ _ => rfl⟩

theorem reachable_of_run {up : LinkId → Bool} {ok : Move → Prop} {s s' : State} (moves : List Move) (h : Reachable up ok s)
    (hok : ∀ mv ∈ moves, ok mv) (hr : s.run up moves = some s') : Reachable up ok s' :=
  (isRun up).keeps_of_mem (fun hmv h hstep => h.step (hok _ hmv) hstep) h hr

/-- The HiFi4 notifies on a link, and the handler of the side `mu` runs. -/
def hifi4Notifies (com : Com) (mu : Mu) : List Move :=
  .notify .hifi4 ⟨com, 0⟩ .gen0 :: .interrupt mu :: List.replicate 4 (.handler mu)

/-- A notification to the first M33 core is served. -/
theorem notifications_routed_m33_0 : ∃ s, State.init.run (fun _ => true) (hifi4Notifies .m33_0_hifi4 .mu4_a) = some s ∧
    s.Quiet ∧ s.log.length = 2 ∧ Caused s.log ∧ Served s.log := by
  refine ⟨_, rfl, ?_, rfl, ?_⟩
  · intro mu
    cases mu <;> exact ⟨fun n => by cases n <;> rfl, rfl⟩
  · have hreach : Reachable (fun _ => true) Routed _ :=
      reachable_of_run (hifi4Notifies .m33_0_hifi4 .mu4_a) .init (fun mv hmv => by
        simp only [hifi4Notifies, List.mem_cons, List.mem_replicate] at hmv
        rcases hmv with rfl | rfl | ⟨-, rfl⟩
        · exact ⟨fun h => absurd h.2 nofun, rfl⟩
        · trivial
        · trivial) rfl
    have h := notifications_routed hreach
    refine ⟨h.1, h.2 fun mu => ?_⟩
    cases mu <;> exact ⟨fun n => by cases n <;> rfl, rfl⟩

/-- A notification to the second M33 core ends in `env_isr` with the vector of the link between the M33 cores: the
link it was for is not served, and nobody has notified on the other. -/
theorem notifications_misrouted : ∃ s, Reachable (fun _ => true) (fun _ => True) s ∧ s.Quiet ∧
    s.log = [.isr .m33_1 0, .notify .hifi4 ⟨.m33_1_hifi4, 0⟩ .gen0] ∧ ¬ Caused s.log ∧ ¬ Served s.log := by
  refine ⟨_, reachable_of_run (hifi4Notifies .m33_1_hifi4 .mu2_b) .init (fun _ _ => trivial) rfl, ?_, rfl, ?_, ?_⟩
  · intro mu
    cases mu <;> exact ⟨fun n => by cases n <;> rfl, rfl⟩
  · intro h
    obtain ⟨p, l, n, hv, -, hmem⟩ := h [] _ _ _ rfl
    obtain ⟨-, rfl, rfl⟩ := Event.notify.inj (List.mem_singleton.1 hmem)
    exact absurd hv (by decide)
  · intro h
    have hmem := h [.isr .m33_1 0] [] .hifi4 ⟨.m33_1_hifi4, 0⟩ .gen0 .m33_1 rfl rfl
    obtain ⟨-, hv⟩ := Event.isr.inj (List.mem_singleton.1 hmem)
    exact absurd hv (by decide)

end Rt700

end RpmsgLite
