/-
Both initialisations at once. The statements of `rpmsg_lite_master_init` and `rpmsg_lite_remote_init` interleave in any
order, either may come first, and a notification arrives at any later time and any number of times. The remote can send
only after its transmit callback has run, that needs the kick which ends the master's initialisation, and its own
`link_state = 0` comes before it registers anything.
-/
import RpmsgLite.Irq.Boot
import RpmsgLite.Link.Calls
import RpmsgLite.Lib.Runs

namespace RpmsgLite

open ByteMem

namespace LinkUp

/-! ## The state and its steps -/

structure Setup where
  master : Core
  length : Nat
  remote : Core
  c : LinkConfig
  interval : UInt32

/-- An initialisation is `none` when its argument checks return NULL. `told` is what a core has passed to
`platform_notify`; `signalled` and `rxCalled` say whether the remote's transmit and receive callback have run. -/
structure State where
  m : ByteMem
  master : Option (List MasterOp × MasterVars)
  remote : Option (List RemoteOp × RemoteVars)
  calls : List (TxCall × TxAt)
  told : Role → List UInt32
  signalled : Bool
  rxCalled : Bool

/-- `isr_table` starts with zeroes, the other variables and the memory of the remote's instance with anything. -/
def State.start (k : Setup) (m : ByteMem) (old : RpmsgLiteInstance) (isr : Role → IsrState) : State where
  m := m
  master := k.master.masterEnter k.length { isr .master with isrTable := fun _ => none }
  remote := k.remote.remoteEnter old { isr .remote with isrTable := fun _ => none }
  calls := []
  told := fun _ => []
  signalled := false
  rxCalled := false

inductive Move
  /-- the next statement of `rpmsg_lite_master_init` -/
  | master
  /-- the next statement of `rpmsg_lite_remote_init` -/
  | remote
  /-- whatever the master does after its initialisation, or in its interrupts, to the memory and with `platform_notify` -/
  | masterElse (m : ByteMem) (vectors : List UInt32)
  /-- the remote's interrupt -/
  | deliver (vector : UInt32)
  /-- the remote calls one of the sending functions -/
  | call (call : TxCall)
  | go (i : Nat)
  /-- a receive step of the remote, with a kick or without one -/
  | rx (a : RxAct) (kick : Bool)

section

variable (k : Setup) (s : State)

def State.tell (r : Role) (vectors : List UInt32) : State := { s with told := Function.update s.told r (s.told r ++ vectors) }

@[simp] theorem State.tell_told_self (s : State) (r : Role) (vectors : List UInt32) :
    (s.tell r vectors).told r = s.told r ++ vectors := Function.update_self ..

@[simp] theorem State.tell_told_master (s : State) (vectors : List UInt32) :
    (s.tell .remote vectors).told .master = s.told .master := rfl

@[simp] theorem State.tell_told_remote (s : State) (vectors : List UInt32) :
    (s.tell .master vectors).told .remote = s.told .remote := rfl

/-- The master is through with its initialisation, or something can have interrupted it. -/
def State.masterRuns : Bool :=
  match s.master with
  | some ([], _) => true
  | _ => !(s.told .remote).isEmpty

/-- `env_isr` and `virtqueue_notification` on the remote. -/
def State.envIsr (vector : UInt32) : State :=
  match s.remote with
  | none => s
  | some (todo, v) =>
    match (v.isr.isrTable vector).bind v.vqs with
    | none => s
    | some vq =>
      match vq.callback with
      | .txCallback =>
        { s with
          remote := some (todo, { v with side := { v.side with dev := rpmsgLiteTxCallback v.side.dev } })
          signalled := true }
      | .rxCallback => { s with rxCalled := true }

def State.step : Move → Option State
  | .master =>
    match s.master with
    | some (op :: todo, v) =>
      (op.exec k.master v s.m).map fun x =>
        { s with m := x.2, master := some (todo, x.1) }.tell .master (op.notifies k.master v s.m)
    | _ => none
  | .remote =>
    match s.remote with
    | some (op :: todo, v) => (op.exec k.remote v).map fun v => { s with remote := some (todo, v) }
    | _ => none
  | .masterElse m vectors => if s.masterRuns then some ({ s with m }.tell .master vectors) else none
  | .deliver vector => if vector ∈ s.told .master then some (s.envIsr vector) else none
  | .call call =>
    match s.remote with
    | some ([], _) => some { s with calls := s.calls ++ [(call, .entry)] }
    | _ => none
  | .go i =>
    match s.remote, s.calls[i]? with
    | some ([], v), some (call, pc) =>
      (call.step k.c k.interval v.side s.m pc).map fun x =>
        { s with m := x.2.2.1
                 remote := some ([], { v with side := x.2.1 })
                 calls := s.calls.set i (call, x.1) }.tell .remote
          (if TxEvent.notify ∈ x.2.2.2 then [(k.remote.vqId .remote .tvq).toUInt32] else [])
    | _, _ => none
  | .rx a kick =>
    match s.remote with
    | some (todo, v) =>
      if s.rxCalled then
        (v.side.rxStep k.c s.m a).map fun x =>
          { s with m := x.2, remote := some (todo, { v with side := x.1 }) }.tell .remote
            (if kick then [(k.remote.vqId .remote .rvq).toUInt32] else [])
      else none
    | _ => none

end

inductive Reachable (k : Setup) (s₀ : State) : State → Prop
  | start : Reachable k s₀ s₀
  | step {s s' : State} {mv : Move} (h : Reachable k s₀ s) (hs : s.step k mv = some s') : Reachable k s₀ s'

/-- The master has no store of its initialisation before it: both rings are filled and all buffers zeroed. -/
def State.Filled (s : State) : Prop := ∃ todo v, s.master = some (todo, v) ∧ ∀ op ∈ todo, op.stores = false

/-- What a call returns while the link is down. -/
def refused (c : LinkConfig) : TxCall → TxRet
  | .send none _ _ _ _ => .status RL_ERR_PARAM
  | .send (some _) _ data size _ =>
    if size > c.payloadSize then .status RL_ERR_BUFF_SIZE else if data.isNone then .status RL_ERR_PARAM else .status RL_NOT_READY
  | .allocTxBuffer _ _ => .buffer none
  | .sendNocopy (some _) _ (some _) size =>
    if size > c.payloadSize then .status RL_ERR_BUFF_SIZE else .status RL_NOT_READY
  | .sendNocopy _ _ _ _ => .status RL_ERR_PARAM

/-! ## The order of the statements -/

section

variable {k : Setup} {s s' : State} {v : RemoteVars} {op : MasterOp} {m₀ : ByteMem}

/-- Nothing follows the kick. -/
theorem masterOps_kick {n : Nat} {done todo : List MasterOp} (h : masterOps n = done ++ .virtqueueKick :: todo) : todo = [] := by
  have hpre : ∃ pre, masterOps n = pre ++ [.virtqueueKick] ∧ MasterOp.virtqueueKick ∉ pre := by
    refine ⟨.envInit :: (vringOps .rvq ++ vringOps .tvq ++ [.envCreateMutex] ++ bufferOps .rvq n ++ bufferOps .tvq n ++
      installOps), rfl, ?_⟩
    simp [vringOps, bufferOps, installOps, List.mem_flatten, List.mem_replicate]
  obtain ⟨pre, hpre, hkick⟩ := hpre
  rcases List.eq_nil_or_concat todo with htodo | ⟨l, x, rfl⟩
  · exact htodo
  · rw [hpre, List.concat_eq_append, ← List.cons_append, ← List.append_assoc] at h
    obtain ⟨rfl, -⟩ := List.append_inj' h rfl
    exact absurd (List.mem_append_right _ (List.mem_cons_self ..)) hkick

/-- The link state is written before anything is registered. -/
theorem remoteOps_isr {o : IsrOp} {todo : List RemoteOp} (h : (.isr o :: todo) <:+ remoteOps) :
    ∀ op ∈ todo, op.linkState = false := by
  have hall : remoteOps.tails.all (fun l => match l with
      | .isr _ :: todo => todo.all fun op => !op.linkState
      | _ => true) = true := by
    decide
  have hmem := List.all_eq_true.1 hall _ ((List.mem_tails _ _).2 h)
  intro op hop
  simpa using List.all_eq_true.1 hmem op hop

theorem MasterOp.exec_of_stores {k : Core} {v v' : MasterVars} {m m' : ByteMem} (h : op.stores = false)
    (hx : op.exec k v m = some (v', m')) : m' = m := by
  cases op with
  | envInit =>
    simp only [MasterOp.exec] at hx
    split at hx
    · cases hx; rfl
    · cases hx
  | virtqueueCreate q =>
    simp only [MasterOp.exec] at hx
    split at hx
    · cases hx
    · cases hx; rfl
  | envCreateMutex =>
    simp only [MasterOp.exec] at hx
    split at hx
    · cases hx; rfl
    · cases hx
  | isr op =>
    cases hx
    rfl
  | linkUp =>
    cases hx
    rfl
  | virtqueueKick =>
    obtain ⟨vq, -, hx⟩ := Option.map_eq_some_iff.1 hx
    cases hx
    rfl
  | memset => cases h
  | vqRingInit => cases h
  | virtqueueDisableCb => cases h
  | memsetBuffer => cases h
  | fillBuffer => cases h

theorem MasterOp.execs_of_stores {k : Core} {ops : List MasterOp} {v v' : MasterVars} {m m' : ByteMem}
    (h : ∀ op ∈ ops, op.stores = false) (hx : MasterOp.execs k ops v m = some (v', m')) : m' = m := by
  induction ops generalizing v m with
  | nil =>
    cases hx
    rfl
  | cons op ops ih =>
    obtain ⟨⟨v₁, m₁⟩, hop, hx⟩ := Option.bind_eq_some_iff.1 hx
    rw [ih (fun op hop => h op (List.mem_cons_of_mem _ hop)) hx]
    exact MasterOp.exec_of_stores (h op (List.mem_cons_self ..)) hop

theorem MasterOp.notifies_of_ne {k : Core} {v : MasterVars} {m : ByteMem} (h : op ≠ .virtqueueKick) : op.notifies k v m = [] := by
  cases op with
  | virtqueueKick => exact absurd rfl h
  | _ => rfl

/-! ## What the statements of the remote leave alone -/

theorem RemoteOp.exec_spec {k : Core} {op : RemoteOp} {v' : RemoteVars} (h : op.exec k v = some v') :
    (v'.side.dev.linkState = if op.linkState then false else v.side.dev.linkState) ∧
      ((∀ o, op ≠ .isr o) → v'.isr = v.isr) := by
  cases op with
  | memset =>
    cases h
    exact ⟨rfl, fun _ => rfl⟩
  | envInit =>
    simp only [RemoteOp.exec] at h
    split at h
    · cases h
      exact ⟨rfl, fun _ => rfl⟩
    · cases h
  | virtqueueCreate q =>
    simp only [RemoteOp.exec] at h
    split at h
    · cases h
    · cases h
      exact ⟨rfl, fun _ => rfl⟩
  | envCreateMutex =>
    simp only [RemoteOp.exec] at h
    split at h
    · cases h
      exact ⟨rfl, fun _ => rfl⟩
    · cases h
  | setQueues =>
    obtain ⟨rvq, -, h⟩ := Option.bind_eq_some_iff.1 h
    obtain ⟨tvq, -, rfl⟩ := Option.map_eq_some_iff.1 h
    exact ⟨rfl, fun _ => rfl⟩
  | linkDown =>
    cases h
    exact ⟨rfl, fun _ => rfl⟩
  | isr op =>
    cases h
    exact ⟨rfl, fun hne => absurd rfl (hne op)⟩

/-! ## The calls of the remote -/

theorem checks_refused {c : LinkConfig} {x : Side} (h : x.dev.linkState = false) (call : TxCall) :
    call.checks c x = .error (refused c call) := by
  cases call with
  | send ept dst data size timeout =>
    cases ept with
    | none => rfl
    | some src =>
      simp only [TxCall.checks, refused, h]
      split
      · rfl
      · cases data with
        | none => rfl
        | some data => rfl
  | allocTxBuffer size timeout =>
    simp only [TxCall.checks, refused, h]
    split
    · rfl
    · rfl
  | sendNocopy ept dst data size =>
    cases ept with
    | none => rfl
    | some src =>
      cases data with
      | none => rfl
      | some g =>
        simp only [TxCall.checks, refused, h]
        split
        · rfl
        · rfl

/-- While the link is down a call returns without reading or writing the memory. -/
theorem step_refused {c : LinkConfig} {interval : UInt32} {x : Side} (h : x.dev.linkState = false) (call : TxCall) (m : ByteMem) :
    call.step c interval x m .entry = some (.ret (refused c call), x, m, []) := by
  simp only [TxCall.step, checks_refused h call]

theorem TxCall.step_linkState {c : LinkConfig} {interval : UInt32} {x x' : Side} {m m' : ByteMem} {call : TxCall} {pc pc' : TxAt}
    {events : List TxEvent} (h : call.step c interval x m pc = some (pc', x', m', events)) :
    x'.dev.linkState = x.dev.linkState := by
  cases pc with
  | entry =>
    simp only [TxCall.step] at h
    split at h
    · cases h; rfl
    · cases h; rfl
  | lock j tick =>
    cases h
    rfl
  | alloc j tick =>
    simp only [TxCall.step, TxJob.alloc] at h
    rcases hx : (x.dev.role.vqOps c.clear).vqTxAlloc x.dev.tvq m with ⟨tvq, _ | g⟩
    · rw [hx] at h
      cases h
      rfl
    · rw [hx] at h
      cases j with
      | send => cases h; rfl
      | allocTxBuffer => cases h; rfl
      | sendNocopy => cases h; rfl
  | unlock j tick got =>
    cases h
    rfl
  | sleep j tick =>
    cases h
    rfl
  | fill j g =>
    simp only [TxCall.step] at h
    split at h
    · cases h
    · cases h; rfl
  | lockTx j g =>
    cases h
    rfl
  | tx j g =>
    simp only [TxCall.step] at h
    split at h
    · cases h
    · rename_i hj
      cases h
      cases j with
      | send src dst data timeout =>
        obtain ⟨y, -, hy⟩ := Option.map_eq_some_iff.1 hj
        cases hy
        rfl
      | allocTxBuffer timeout => cases hj
      | sendNocopy src dst size =>
        obtain ⟨y, -, hy⟩ := Option.map_eq_some_iff.1 hj
        cases hy
        rfl
  | unlockTx j g =>
    cases h
    rfl
  | ret v => cases h

/-! ## The invariant -/

/-- The remote has no statement before it that writes the link state. -/
def Past (todo : List RemoteOp) : Prop := ∀ op ∈ todo, op.linkState = false

/-- `m₀` is the memory before both initialisations. -/
structure Inv (k : Setup) (m₀ : ByteMem) (s : State) : Prop where
  /-- until its kick the master's own statements made the memory what it is -/
  own : ∀ op todo v, s.master = some (op :: todo, v) →
    ∃ n v₀ done isr, k.master.masterEnter k.length isr = some (masterOps n, v₀) ∧
    masterOps n = done ++ op :: todo ∧ MasterOp.execs k.master done v₀ m₀ = some (v, s.m)
  told : s.told .master ≠ [] → ∃ v, s.master = some ([], v)
  remoteTold : s.told .remote ≠ [] → s.told .master ≠ []
  suffix : ∀ todo v, s.remote = some (todo, v) → todo <:+ remoteOps
  pending : ∀ todo v, s.remote = some (todo, v) → ¬ Past todo → v.isr.isrTable = fun _ => none
  up : ∀ todo v, s.remote = some (todo, v) → Past todo → v.side.dev.linkState = true → s.told .master ≠ []
  signalled : s.signalled = true → ∃ todo v, s.remote = some (todo, v) ∧ Past todo ∧ v.side.dev.linkState = true
  calls : ∀ x ∈ s.calls, s.told .master = [] → x.2 = .entry ∨ x.2 = .ret (refused k.c x.1)
  rxCalled : s.rxCalled = true → s.told .master ≠ []

theorem Core.masterEnter_ops {k : Core} {length : Nat} {isr : IsrState} {ops : List MasterOp} {v₀ : MasterVars}
    (h : k.masterEnter length isr = some (ops, v₀)) : ∃ n, ops = masterOps n := by
  unfold Core.masterEnter at h
  split at h
  · cases h
  split at h
  · cases h
  split at h
  · cases h
  split at h
  · cases h
  split at h
  · cases h
  split at h
  · cases h
  · cases h
    exact ⟨_, rfl⟩

theorem Core.remoteEnter_eq {k : Core} {old : RpmsgLiteInstance} {isr : IsrState} {ops : List RemoteOp} {v : RemoteVars}
    (h : k.remoteEnter old isr = some (ops, v)) : ops = remoteOps ∧ v.isr = isr := by
  unfold Core.remoteEnter at h
  split at h
  · cases h
  split at h
  · cases h
  split at h
  · cases h
  split at h
  · cases h
  · cases h
    exact ⟨rfl, rfl⟩

theorem inv_start {old : RpmsgLiteInstance} {isr : Role → IsrState} : Inv k m₀ (.start k m₀ old isr) := by
  refine ⟨?_, fun h => absurd rfl h, fun h => absurd rfl h, ?_, ?_, ?_, ?_, ?_, ?_⟩
  · intro op todo v h
    obtain ⟨n, hn⟩ := Core.masterEnter_ops h
    exact ⟨n, v, [], _, hn ▸ h, hn.symm, rfl⟩
  · intro todo v h
    rw [(Core.remoteEnter_eq h).1]
  · intro todo v h _
    rw [(Core.remoteEnter_eq h).2]
  · intro todo v h hpast
    rw [(Core.remoteEnter_eq h).1] at hpast
    exact absurd (hpast .memset (List.mem_cons_self ..)) (by decide)
  · rintro ⟨⟩
  · rintro x ⟨⟩
  · rintro ⟨⟩

theorem told_append {l l' : List UInt32} (h : l ≠ []) : l ++ l' ≠ [] := fun he => h (List.append_eq_nil_iff.1 he).1

/-- A statement of the master. -/
theorem Inv.master (h : Inv k m₀ s) {todo : List MasterOp} {v v' : MasterVars} {m' : ByteMem}
    (hm : s.master = some (op :: todo, v)) (hx : op.exec k.master v s.m = some (v', m')) :
    Inv k m₀ ({ s with m := m', master := some (todo, v') }.tell .master (op.notifies k.master v s.m)) := by
  obtain ⟨n, v₀, done, isr, henter, hops, hexecs⟩ := h.own op todo v hm
  have hnone : s.told .master = [] := by
    by_contra hne
    obtain ⟨v₁, hv₁⟩ := h.told hne
    rw [hm] at hv₁
    cases hv₁
  refine ⟨?_, ?_, ?_, h.suffix, h.pending, ?_, h.signalled, ?_, ?_⟩
  · intro op' todo' v₁ hm'
    cases hm'
    refine ⟨n, v₀, done ++ [op], isr, henter, by rw [hops, List.append_assoc]; rfl, ?_⟩
    rw [execs_trans hexecs, MasterOp.execs, hx]
    rfl
  · intro hne
    refine ⟨v', ?_⟩
    have hkick : op = .virtqueueKick := by
      by_contra hop
      rw [State.tell_told_self, MasterOp.notifies_of_ne hop] at hne
      simp only [hnone] at hne
      exact hne rfl
    rw [hkick] at hops
    rw [masterOps_kick hops]
    rfl
  · intro hne
    rw [State.tell_told_remote] at hne
    exact absurd hnone (h.remoteTold hne)
  · intro todo' v₁ hr hpast hup
    exact absurd hnone (h.up todo' v₁ hr hpast hup)
  · intro x hx _
    exact h.calls x hx hnone
  · intro hrx
    exact absurd hnone (h.rxCalled hrx)

/-- A statement of the remote. -/
theorem Inv.remote (h : Inv k m₀ s) {rop : RemoteOp} {todo : List RemoteOp} {v' : RemoteVars}
    (hr : s.remote = some (rop :: todo, v)) (hx : rop.exec k.remote v = some v') :
    Inv k m₀ { s with remote := some (todo, v') } := by
  have hsuffix := h.suffix _ v hr
  obtain ⟨hlink, hisr⟩ := RemoteOp.exec_spec hx
  refine ⟨h.own, h.told, h.remoteTold, ?_, ?_, ?_, ?_, h.calls, h.rxCalled⟩
  · intro todo' v₁ hr'
    cases hr'
    exact (List.suffix_cons rop todo).trans hsuffix
  · intro todo' v₁ hr' hpast
    cases hr'
    have hne : ∀ o, rop ≠ .isr o := by
      rintro o rfl
      exact hpast (remoteOps_isr hsuffix)
    rw [hisr hne]
    exact h.pending _ v hr fun hp => hpast fun op hop => hp op (List.mem_cons_of_mem _ hop)
  · intro todo' v₁ hr' hpast hup
    cases hr'
    rw [hlink] at hup
    split at hup
    · cases hup
    · rename_i hrop
      refine h.up _ v hr (fun op hop => ?_) hup
      rcases List.mem_cons.1 hop with rfl | hop
      · simpa using hrop
      · exact hpast op hop
  · intro hs
    obtain ⟨todo₁, v₁, hr₁, hpast, hup⟩ := h.signalled hs
    rw [hr] at hr₁
    cases hr₁
    refine ⟨todo, v', rfl, fun op hop => hpast op (List.mem_cons_of_mem _ hop), ?_⟩
    rw [hlink, hpast rop (List.mem_cons_self ..)]
    exact hup

/-- Whatever the master does later. -/
theorem Inv.masterElse (h : Inv k m₀ s) (hruns : s.masterRuns = true) (m : ByteMem) (vectors : List UInt32) :
    Inv k m₀ ({ s with m }.tell .master vectors) := by
  have hdone : ∃ v, s.master = some ([], v) := by
    unfold State.masterRuns at hruns
    split at hruns
    · rename_i v hm
      exact ⟨v, hm⟩
    · refine h.told (h.remoteTold fun hnil => ?_)
      rw [hnil] at hruns
      cases hruns
  obtain ⟨v, hm⟩ := hdone
  have htold : s.told .master ≠ [] → ({ s with m }.tell .master vectors).told .master ≠ [] := by
    intro hne
    rw [State.tell_told_self]
    exact told_append hne
  refine ⟨?_, fun _ => ⟨v, hm⟩, ?_, h.suffix, h.pending, ?_, h.signalled, ?_, fun hrx => htold (h.rxCalled hrx)⟩
  · intro op todo v₁ hm'
    exact absurd (hm.symm.trans hm') (by simp)
  · intro hne
    rw [State.tell_told_remote] at hne
    exact htold (h.remoteTold hne)
  · intro todo v₁ hr hpast hup
    exact htold (h.up todo v₁ hr hpast hup)
  · intro x hx hnil
    refine h.calls x hx ?_
    rw [State.tell_told_self] at hnil
    exact (List.append_eq_nil_iff.1 hnil).1

/-- An interrupt of the remote for a vector the master has passed on. -/
theorem Inv.deliver (h : Inv k m₀ s) {vector : UInt32} (hv : vector ∈ s.told .master) : Inv k m₀ (s.envIsr vector) := by
  have htold : s.told .master ≠ [] := List.ne_nil_of_mem hv
  unfold State.envIsr
  split
  · exact h
  rename_i todo v hr
  split
  · exact h
  rename_i vq hvq
  split
  · -- something is registered, so the link state has been written
    have hpast : Past todo := by
      by_contra hpast
      rw [h.pending todo v hr hpast] at hvq
      cases hvq
    refine ⟨h.own, h.told, h.remoteTold, ?_, ?_, ?_, ?_, h.calls, h.rxCalled⟩
    · intro todo' v' hr'
      cases hr'
      exact h.suffix todo v hr
    · intro todo' v' hr' hp
      cases hr'
      exact absurd hpast hp
    · intro todo' v' _ _ _
      exact htold
    · intro _
      exact ⟨todo, _, rfl, hpast, rfl⟩
  · exact ⟨h.own, h.told, h.remoteTold, h.suffix, h.pending, h.up, h.signalled, h.calls, fun _ => htold⟩

/-- The remote sends: its link state stays, and it notifies the master only when the link is up. -/
theorem Inv.remoteActs (h : Inv k m₀ s) {todo : List RemoteOp} {x : Side} {m' : ByteMem} {calls : List (TxCall × TxAt)}
    {vectors : List UInt32} (hr : s.remote = some (todo, v)) (hx : x.dev.linkState = v.side.dev.linkState)
    (hdown : s.told .master = [] → vectors = [] ∧ m' = s.m ∧ ∀ y ∈ calls, y.2 = .entry ∨ y.2 = .ret (refused k.c y.1)) :
    Inv k m₀ ({ s with m := m', remote := some (todo, { v with side := x }), calls := calls }.tell .remote vectors) := by
  refine ⟨?_, ?_, ?_, ?_, ?_, ?_, ?_, ?_, ?_⟩
  · intro op ops v₁ hm
    have hnone : s.told .master = [] := by
      by_contra hne
      obtain ⟨v₂, hv₂⟩ := h.told hne
      exact absurd (hv₂.symm.trans hm) (by simp)
    obtain ⟨n, v₀, done, isr, henter, hops, hexecs⟩ := h.own op ops v₁ hm
    refine ⟨n, v₀, done, isr, henter, hops, ?_⟩
    rw [hexecs, (hdown hnone).2.1]
    rfl
  · intro hne
    rw [State.tell_told_master] at hne
    exact h.told hne
  · intro hne
    rw [State.tell_told_master]
    by_contra hnone
    rw [State.tell_told_self, (hdown hnone).1, List.append_nil] at hne
    exact h.remoteTold hne hnone
  · intro todo' v' hr'
    cases hr'
    exact h.suffix todo v hr
  · intro todo' v' hr' hpast
    cases hr'
    exact h.pending todo v hr hpast
  · intro todo' v' hr' hpast hup
    cases hr'
    rw [State.tell_told_master]
    exact h.up todo v hr hpast (hx ▸ hup)
  · intro hs
    obtain ⟨todo₁, v₁, hr₁, hpast, hup⟩ := h.signalled hs
    rw [hr] at hr₁
    cases hr₁
    exact ⟨todo, _, rfl, hpast, hx.trans hup⟩
  · intro y hy hnone
    rw [State.tell_told_master] at hnone
    exact (hdown hnone).2.2 y hy
  · intro hrx
    rw [State.tell_told_master]
    exact h.rxCalled hrx

/-- Without a kick of the master the link of the returned instance is down. -/
theorem Inv.down (h : Inv k m₀ s) (hr : s.remote = some ([], v)) (hnone : s.told .master = []) :
    v.side.dev.linkState = false := by
  rw [← Bool.not_eq_true]
  intro hup
  exact h.up [] v hr (fun op hop => nomatch hop) hup hnone

theorem Inv.go (h : Inv k m₀ s) {i : Nat} {call : TxCall} {pc pc' : TxAt} {x : Side} {m' : ByteMem} {events : List TxEvent}
    (hr : s.remote = some ([], v)) (hi : s.calls[i]? = some (call, pc))
    (hx : call.step k.c k.interval v.side s.m pc = some (pc', x, m', events)) :
    Inv k m₀ ({ s with m := m', remote := some ([], { v with side := x }), calls := s.calls.set i (call, pc') }.tell .remote
      (if TxEvent.notify ∈ events then [(k.remote.vqId .remote .tvq).toUInt32] else [])) := by
  refine h.remoteActs hr (TxCall.step_linkState hx) fun hnone => ?_
  have hdown := h.down hr hnone
  rcases h.calls _ (List.mem_of_getElem? hi) hnone with hpc | hpc
  · obtain rfl : pc = .entry := hpc
    rw [step_refused hdown] at hx
    cases hx
    refine ⟨rfl, rfl, fun y hy => ?_⟩
    rcases List.mem_or_eq_of_mem_set hy with hy | rfl
    · exact h.calls y hy hnone
    · exact Or.inr rfl
  · obtain rfl : pc = .ret (refused k.c call) := hpc
    cases hx

theorem Inv.step (h : Inv k m₀ s) {mv : Move} (hs : s.step k mv = some s') : Inv k m₀ s' := by
  cases mv with
  | master =>
    simp only [State.step] at hs
    split at hs
    · rename_i op todo v hm
      obtain ⟨⟨v', m'⟩, hx, rfl⟩ := Option.map_eq_some_iff.1 hs
      exact h.master hm hx
    · cases hs
  | remote =>
    simp only [State.step] at hs
    split at hs
    · rename_i rop todo v hr
      obtain ⟨v', hx, rfl⟩ := Option.map_eq_some_iff.1 hs
      exact h.remote hr hx
    · cases hs
  | masterElse m vectors =>
    simp only [State.step] at hs
    split at hs
    · rename_i hruns
      cases hs
      exact h.masterElse hruns m vectors
    · cases hs
  | deliver vector =>
    simp only [State.step] at hs
    split at hs
    · rename_i hv
      cases hs
      exact h.deliver hv
    · cases hs
  | call call =>
    simp only [State.step] at hs
    split at hs
    · cases hs
      refine ⟨h.own, h.told, h.remoteTold, h.suffix, h.pending, h.up, h.signalled, ?_, h.rxCalled⟩
      intro x hx hnone
      rcases List.mem_append.1 hx with hx | hx
      · exact h.calls x hx hnone
      · rw [List.mem_singleton.1 hx]
        exact Or.inl rfl
    · cases hs
  | go i =>
    simp only [State.step] at hs
    split at hs
    · rename_i v call pc hr hi
      obtain ⟨⟨pc', x, m', events⟩, hx, rfl⟩ := Option.map_eq_some_iff.1 hs
      exact h.go hr hi hx
    · cases hs
  | rx a kick =>
    simp only [State.step] at hs
    split at hs
    · rename_i todo v hr
      split at hs
      · rename_i hrx
        obtain ⟨⟨x, m'⟩, hx, rfl⟩ := Option.map_eq_some_iff.1 hs
        exact h.remoteActs hr (Side.rxStep_linkState hx) fun hnone => absurd hnone (h.rxCalled hrx)
      · cases hs
    · cases hs

theorem Reachable.inv {old : RpmsgLiteInstance} {isr : Role → IsrState} (h : Reachable k (.start k m₀ old isr) s) :
    Inv k m₀ s := by
  induction h with
  | start => exact inv_start
  | step _ hs ih => exact ih.step hs

/-! ## Every run -/

/-- Until the master has filled the rings: the shared memory is as its own statements made it, the remote's receive
callback has not run, and every call of the remote returns without having read or written the memory. -/
structure State.Quiet (k : Setup) (m₀ : ByteMem) (s : State) : Prop where
  own : ∀ op todo v, s.master = some (op :: todo, v) →
    ∃ n v₀ done isr, k.master.masterEnter k.length isr = some (masterOps n, v₀) ∧
    masterOps n = done ++ op :: todo ∧ MasterOp.execs k.master done v₀ m₀ = some (v, s.m)
  rxCalled : s.rxCalled = false
  calls : ∀ x ∈ s.calls, x.2 = .entry ∨ x.2 = .ret (refused k.c x.1)
  refuses : ∀ v, s.remote = some ([], v) → ∀ (call : TxCall) (m : ByteMem),
    call.step k.c k.interval v.side m .entry = some (.ret (refused k.c call), v.side, m, [])

theorem Inv.quiet (h : Inv k m₀ s) (hfill : ¬ s.Filled) : s.Quiet k m₀ := by
  have hnone : s.told .master = [] := by
    by_contra hne
    obtain ⟨v, hm⟩ := h.told hne
    exact hfill ⟨[], v, hm, fun op hop => nomatch hop⟩
  refine ⟨h.own, ?_, fun x hx => h.calls x hx hnone, fun v hr call m => step_refused (h.down hr hnone) call m⟩
  rw [← Bool.not_eq_true]
  intro hrx
  exact h.rxCalled hrx hnone

/-- When the rings are filled and the kick is still to come, the memory is that of `rpmsg_lite_master_init`. -/
theorem Inv.filled (h : Inv k m₀ s) {dm : RpmsgLiteInstance} {m' : ByteMem}
    (hm : rpmsgLiteMasterInit k.master.w k.master.env k.master.highestLinkId k.master.cfg k.master.addr k.length
      k.master.linkId m₀ = .instance dm m') (hfill : s.Filled) (hkick : ∀ v, s.master ≠ some ([], v)) : s.m = m' := by
  obtain ⟨todo, v, hmaster, hstores⟩ := hfill
  cases todo with
  | nil => exact absurd hmaster (hkick v)
  | cons op todo =>
    obtain ⟨n, v₀, done, isr, henter, hops, hexecs⟩ := h.own op todo v hmaster
    obtain ⟨ops, v₁, v', henter', hexecs', -⟩ := masterEnter_execs isr hm
    rw [henter] at henter'
    cases henter'
    rw [hops, execs_trans hexecs] at hexecs'
    exact (MasterOp.execs_of_stores hstores hexecs').symm

end

/-- In every state of every interleaving: a statement of `rpmsg_lite_remote_init` leaves the shared memory alone; before
the rings are filled the remote does not touch them, and each of its calls returns `RL_NOT_READY`, NULL or the error of
its arguments; once they are filled the memory is that of `rpmsg_lite_master_init` until its kick; and a link-up that was
signalled stays. -/
theorem remote_waits_for_master {k : Setup} {m₀ : ByteMem} {old : RpmsgLiteInstance} {isr : Role → IsrState} {s : State}
    (h : Reachable k (.start k m₀ old isr) s) :
    (∀ s', s.step k .remote = some s' → s'.m = s.m) ∧
    (¬ s.Filled → s.Quiet k m₀) ∧
    (∀ dm m', rpmsgLiteMasterInit k.master.w k.master.env k.master.highestLinkId k.master.cfg k.master.addr k.length
      k.master.linkId m₀ = .instance dm m' → s.Filled → (∀ v, s.master ≠ some ([], v)) → s.m = m') ∧
    (s.signalled = true → ∃ todo v, s.remote = some (todo, v) ∧ v.side.dev.linkState = true) := by
  have hinv := h.inv
  refine ⟨?_, hinv.quiet, fun dm m' hm => hinv.filled hm, ?_⟩
  · intro s' hs
    simp only [State.step] at hs
    split at hs
    · obtain ⟨v', -, rfl⟩ := Option.map_eq_some_iff.1 hs
      rfl
    · cases hs
  · intro hs
    obtain ⟨todo, v, hr, -, hup⟩ := hinv.signalled hs
    exact ⟨todo, v, hr, hup⟩

/-! ## A remote that starts first -/

def State.run (k : Setup) : State → List Move → Option State
  | s, [] => some s
  | s, mv :: mvs => (s.step k mv).bind fun s => s.run k mvs

theorem isRun (k : Setup) : IsRun (State.step k) (State.run k) := ⟨fun _ => rfl, fun _ _ _ => rfl⟩

theorem reachable_of_run {k : Setup} {s₀ s s' : State} {mvs : List Move} (hs : Reachable k s₀ s)
    (h : s.run k mvs = some s') : Reachable k s₀ s' :=
  (isRun k).keeps (fun hs hstep => hs.step hstep) hs h

def coreTwo : Core :=
  ⟨32, .build (headerTwo 64 align_64_le headerVringSize_two_lt), 4124, 0, 0, InitEnv.ok, fun v q i => i.envRegisterIsr v q⟩

def setupTwo : Setup := ⟨coreTwo, 512, coreTwo, ⟨false, 16, 16⟩, 1⟩

/-- The memory of the remote's instance, which says that the link is up. -/
def oldTwo : RpmsgLiteInstance :=
  let vq := initVq 32 ((headerTwo 64 align_64_le headerVringSize_two_lt).params 32) 4124 0 .rxCallback 0
  ⟨.remote, vq, vq, 0, true, 0, 0, 0⟩

def isrZero : IsrState := ⟨fun _ => none, 0, 0, false, false⟩

/-- The remote initialises and sends, the master initialises and kicks, and the remote sends again. -/
def remoteFirst : List Move :=
  let send : TxCall := .send (some 7) 9 (some fun _ => 1) 3 0
  List.replicate 13 .remote ++ [.call send, .go 0] ++ List.replicate 26 .master ++ [.deliver 0, .call send, .go 1]

/-- The first send is refused, the second one goes on to the lock. -/
theorem remote_waits_for_master_two : ∃ s, Reachable setupTwo (.start setupTwo (fun _ => 4) oldTwo fun _ => isrZero) s ∧
    (s.calls.map Prod.snd).head? = some (.ret (.status RL_NOT_READY)) ∧ s.told .master = [0] ∧ s.signalled = true ∧
    ∃ todo v, s.remote = some (todo, v) ∧ v.side.dev.linkState = true := by
  have hrun : ((State.start setupTwo (fun _ => 4) oldTwo fun _ => isrZero).run setupTwo remoteFirst).any (fun s =>
      decide ((s.calls.map Prod.snd).head? = some (.ret (.status RL_NOT_READY)) ∧ s.told .master = [0] ∧
        s.signalled = true)) = true := by
    decide +kernel
  obtain ⟨s, hs, hq⟩ := (Option.any_eq_true _ _).1 hrun
  obtain ⟨hcalls, htold, hsignalled⟩ := of_decide_eq_true hq
  have hreach := reachable_of_run .start hs
  exact ⟨s, hreach, hcalls, htold, hsignalled, (remote_waits_for_master hreach).2.2.2 hsignalled⟩

end LinkUp

end RpmsgLite
