/-
What `env_isr` reaches while instances come and go: `rpmsg_lite_master_init`, `rpmsg_lite_remote_init` and
`rpmsg_lite_deinit` step by step, in the bare-metal environment. Between any two steps an entry of the ISR table is NULL
or a virtqueue that is alive, of an instance that is alive and has both its virtqueues.
-/
import RpmsgLite.Init.HeaderVring
import RpmsgLite.Init.Instances
import RpmsgLite.Lib.Blocks
import RpmsgLite.Lib.Runs

namespace RpmsgLite

namespace Lifetime

open Blocks

/-! ## The calls, step by step -/

/-- What the callbacks read of a block: `struct rpmsg_lite_instance` or `struct virtqueue`. -/
inductive Block
  | «instance» (rvq tvq : Nat)
  | virtqueue (queueIndex priv : Nat)
deriving DecidableEq

/-- An instance that an init call has returned. -/
structure Owner where
  ptr : Nat
  rvq : Nat
  tvq : Nat
  rvqIndex : Nat
  tvqIndex : Nat
deriving DecidableEq

/-- A platform: its constants, and which `isr_counter` and `disable_counter` a vector has. -/
structure Platform where
  consts : PlatformConsts
  counter : Nat → Option Nat

/-- One link, and one pair of counters. -/
def lpc55s69 : Platform := ⟨⟨32, 0, 32⟩, fun _ => some 0⟩

/-- A pair of counters for each communication ID. -/
def imxrt700M33 : Platform := ⟨⟨32, 20, 64⟩, fun v => if v / 8 ≤ 5 then some (v / 8) else none⟩

inductive Op
  /-- `env_allocate_memory`, and `env_memset` -/
  | alloc (p : Nat) (b : Block)
  /-- `env_free_memory` -/
  | free (p : Nat)
  /-- `vqs[idx]->priv = rpmsg_lite_dev` -/
  | setPriv (vq dev : Nat)
  | setTvq (dev vq : Nat)
  | setRvq (dev vq : Nat)
  /-- `env_init`: the counter, the table, `platform_init`, and the test of its result -/
  | envInitCount
  | envInitTable
  | platformInit (lock : Nat)
  | envInitStatus (lock dev : Nat)
  /-- `platform_init_interrupt`: `env_register_isr` and the counter -/
  | registerIsr (v vq : Nat)
  | countIsr (v : Nat)
  | disableInterrupt (v : Nat)
  | enableInterrupt (v : Nat)
  /-- `platform_deinit_interrupt`: the counter and `env_unregister_isr` -/
  | uncountIsr (v : Nat)
  | unregisterIsr (v : Nat)
  /-- `env_deinit` -/
  | envDeinitCount
  | platformDeinit
  /-- the init call returns the instance -/
  | returns (o : Owner)

/-- `owners` are the instances the application holds, `rest` is what the running call still does. -/
structure State where
  heap : Nat → Option Block
  isrTable : Nat → Nat
  envInitCounter : Nat
  platformLock : Nat
  isrCounter : Nat → Nat
  disableCounter : Nat → Nat
  owners : List Owner
  rest : List Op

/-- Static storage before the first call. -/
def State.reset : State := ⟨fun _ => none, fun _ => 0, 0, 0, fun _ => 0, fun _ => 0, [], []⟩

/-- Add to a vector's counter. -/
def count (P : Platform) (f : Nat → Nat) (v : Nat) : Nat → Nat :=
  match P.counter v with
  | some k => Function.update f k (f k + 1)
  | none => f

/-- Take from a vector's counter; `none` is the failed assertion that it is positive. -/
def uncount (P : Platform) (f : Nat → Nat) (v : Nat) : Option (Nat → Nat) :=
  match P.counter v with
  | some k => if f k = 0 then none else some (Function.update f k (f k - 1))
  | none => some f

/-- `none` is a failed `RL_ASSERT`, or an answer the allocator does not give. -/
def Op.exec (P : Platform) (s : State) : Op → Option State
  | .alloc p b => if p ≠ 0 ∧ s.heap p = none then some { s with heap := Function.update s.heap p (some b) } else none
  | .free p => some { s with heap := Function.update s.heap p none }
  | .setPriv vq dev =>
    match s.heap vq with
    | some (.virtqueue q _) => some { s with heap := Function.update s.heap vq (some (.virtqueue q dev)) }
    | _ => none
  | .setTvq dev vq =>
    match s.heap dev with
    | some (.instance rvq _) => some { s with heap := Function.update s.heap dev (some (.instance rvq vq)) }
    | _ => none
  | .setRvq dev vq =>
    match s.heap dev with
    | some (.instance _ tvq) => some { s with heap := Function.update s.heap dev (some (.instance vq tvq)) }
    | _ => none
  | .envInitCount => some { s with envInitCounter := s.envInitCounter + 1 }
  | .envInitTable => some (if s.envInitCounter = 1 then { s with isrTable := fun _ => 0 } else s)
  | .platformInit lock => some (if s.envInitCounter = 1 then { s with platformLock := lock } else s)
  | .envInitStatus lock dev => some (if s.envInitCounter = 1 ∧ lock = 0 then { s with rest := [.free dev] } else s)
  | .registerIsr v vq =>
    if s.platformLock = 0 then some s
    else if v < P.consts.isrCount then some { s with isrTable := Function.update s.isrTable v vq }
    else none
  | .countIsr v => some (if s.platformLock = 0 then s else { s with isrCounter := count P s.isrCounter v })
  | .disableInterrupt v => some { s with disableCounter := count P s.disableCounter v }
  | .enableInterrupt v => (uncount P s.disableCounter v).map fun f => { s with disableCounter := f }
  | .uncountIsr v =>
    if s.platformLock = 0 then some s else (uncount P s.isrCounter v).map fun f => { s with isrCounter := f }
  | .unregisterIsr v =>
    if s.platformLock = 0 then some s
    else if v < P.consts.isrCount then some { s with isrTable := Function.update s.isrTable v 0 }
    else none
  | .envDeinitCount => if s.envInitCounter = 0 then none else some { s with envInitCounter := s.envInitCounter - 1 }
  | .platformDeinit => some (if s.envInitCounter = 0 then { s with platformLock := 0 } else s)
  | .returns o => some { s with owners := o :: s.owners }

/-- The end of both init functions. -/
def installOps (role : Role) (o : Owner) : List Op :=
  let register := match role with
    | .master => [.registerIsr o.rvqIndex o.rvq, .countIsr o.rvqIndex, .registerIsr o.tvqIndex o.tvq, .countIsr o.tvqIndex]
    | .remote => [.registerIsr o.tvqIndex o.tvq, .countIsr o.tvqIndex, .registerIsr o.rvqIndex o.rvq, .countIsr o.rvqIndex]
  register ++ [.disableInterrupt o.rvqIndex, .disableInterrupt o.tvqIndex, .enableInterrupt o.rvqIndex,
    .enableInterrupt o.tvqIndex, .returns o]

/-- The instance that the two virtqueues make: the master receives on the first one. -/
def Owner.ofRole (role : Role) (dev vq0 vq1 idx0 idx1 : Nat) : Owner :=
  match role with
  | .master => ⟨dev, vq0, vq1, idx0, idx1⟩
  | .remote => ⟨dev, vq1, vq0, idx1, idx0⟩

/-- The callback of virtqueue `idx`. -/
def callbackOf (role : Role) (idx : Nat) : VqCallback :=
  match role, idx with
  | .master, 0 | .remote, 1 => .rxCallback
  | _, _ => .txCallback

section

variable (P : Platform) (role : Role) (a : EnvAnswers) (c : InitArgs) (filled : Bool)

/-- `virtqueue_create` for virtqueue `idx`. -/
def createVq (p : ShmemParams) (idx : Nat) : Except Int Virtqueue :=
  virtqueueCreate P.consts.width (decide (a.vq idx ≠ 0)) (rlGetVqId c.linkId idx) (vringAllocInfo P.consts.width p c.addr idx)
    (callbackOf role idx)

/-- An init call from the second virtqueue on. -/
def secondVqOps (p : ShmemParams) (idx0 : Nat) : List Op :=
  match createVq P role a c p 1 with
  | .error _ => [.free (a.vq 0), .free a.inst]
  | .ok vq1 =>
    let o := Owner.ofRole role a.inst (a.vq 0) (a.vq 1) idx0 vq1.queueIndex.toNat
    .alloc (a.vq 1) (.virtqueue vq1.queueIndex.toNat 0) :: .setPriv (a.vq 1) a.inst ::
    if a.lock = 0 then [.free (a.vq 0), .free (a.vq 1), .free a.inst]
    else
      .setTvq o.ptr o.tvq :: .setRvq o.ptr o.rvq ::
      if role = .master ∧ filled = false then [.free (a.vq 0), .free (a.vq 1), .free a.inst] else installOps role o

/-- `rpmsg_lite_master_init` and `rpmsg_lite_remote_init`: the arguments, the allocators' answers, and whether the master's
buffers could all be filled in. -/
def initOps : List Op :=
  match c.accepted P.consts role with
  | none => []
  | some p =>
    if a.inst = 0 then []
    else
      .alloc a.inst (.instance 0 0) :: .envInitCount :: .envInitTable :: .platformInit a.platformLock ::
      .envInitStatus a.platformLock a.inst ::
      match createVq P role a c p 0 with
      | .error _ => [.free a.inst]
      | .ok vq0 =>
        .alloc (a.vq 0) (.virtqueue vq0.queueIndex.toNat 0) :: .setPriv (a.vq 0) a.inst ::
        secondVqOps P role a c filled p vq0.queueIndex.toNat

end

/-- `rpmsg_lite_deinit`; no interrupt changes what it reads of the instance. -/
def deinitOps (o : Owner) : List Op :=
  [.uncountIsr o.rvqIndex, .unregisterIsr o.rvqIndex, .uncountIsr o.tvqIndex, .unregisterIsr o.tvqIndex, .free o.rvq,
    .free o.tvq, .setRvq o.ptr 0, .setTvq o.ptr 0, .envDeinitCount, .platformDeinit, .free o.ptr]

inductive Move
  /-- the application calls an init function -/
  | init (role : Role) (a : EnvAnswers) (c : InitArgs) (filled : Bool)
  | deinit (o : Owner)
  /-- the running call takes its next step -/
  | next

def State.step (P : Platform) (s : State) : Move → Option State
  | .init role a c filled => if s.rest.isEmpty then some { s with rest := initOps P role a c filled } else none
  | .deinit o =>
    if s.rest.isEmpty && s.owners.contains o then some { s with owners := s.owners.erase o, rest := deinitOps o } else none
  | .next =>
    match s.rest with
    | [] => none
    | op :: rest => op.exec P { s with rest }

inductive Reachable (P : Platform) : State → Prop
  | start : Reachable P .reset
  | step {s s' : State} {mv : Move} (h : Reachable P s) (hs : s.step P mv = some s') : Reachable P s'

/-- What `env_isr` hands to `virtqueue_notification`; `none` is its failed assertion. -/
def envIsr (P : Platform) (s : State) (v : Nat) : Option Nat := if v < P.consts.isrCount then some (s.isrTable v) else none

/-! ## Who owns what -/

/-- The blocks of an instance that is complete. -/
def Owner.blocks (o : Owner) : List (Nat × Block) :=
  [(o.ptr, .instance o.rvq o.tvq), (o.rvq, .virtqueue o.rvqIndex o.ptr), (o.tvq, .virtqueue o.tvqIndex o.ptr)]

/-- The entries of the ISR table that an instance may have. -/
def Owner.entries (o : Owner) : List (Nat × Nat) := [(o.rvqIndex, o.rvq), (o.tvqIndex, o.tvq)]

/-- The blocks of complete instances, and blocks that only the running call knows. -/
def owned (owners : List Owner) (raw : List (Nat × Block)) : List (Nat × Block) := owners.flatMap Owner.blocks ++ raw

/-- The table points into complete instances only; `credit` counts calls of `env_init` that no complete instance stands
for. -/
structure Own (s : State) (owners : List Owner) (raw : List (Nat × Block)) (credit : Nat) : Prop where
  blocks : Holds s.heap (owned owners raw)
  nonzero : ∀ x ∈ owned owners raw, x.1 ≠ 0
  table : ∀ v, s.isrTable v ≠ 0 → ∃ o ∈ owners, (v, s.isrTable v) ∈ o.entries
  credits : owners.length + credit ≤ s.envInitCounter
  lock : s.platformLock = 0 → ∀ v, s.isrTable v = 0

/-- A virtqueue that has not been freed, of an instance that has not been freed and has both its virtqueues. -/
def Live (s : State) (vq : Nat) : Prop := ∃ q dev rvq tvq,
  s.heap vq = some (.virtqueue q dev) ∧ s.heap dev = some (.instance rvq tvq) ∧ rvq ≠ 0 ∧ tvq ≠ 0 ∧
    (vq = rvq ∨ vq = tvq) ∧ (∃ q, s.heap rvq = some (.virtqueue q dev)) ∧ ∃ q, s.heap tvq = some (.virtqueue q dev)

section

variable {P : Platform} {s s' : State} {owners : List Owner} {raw raw' : List (Nat × Block)} {credit v vq p dev : Nat}
  {b : Block} {o : Owner}

theorem mem_owned (ho : o ∈ owners) {x : Nat × Block} (hx : x ∈ o.blocks) : x ∈ owned owners raw :=
  List.mem_append_left raw (List.mem_flatMap.2 ⟨o, ho, hx⟩)

/-- Whatever is in the table is alive. -/
theorem Own.live (h : Own s owners raw credit) (hv : s.isrTable v ≠ 0) : Live s (s.isrTable v) := by
  obtain ⟨o, ho, hentry⟩ := h.table v hv
  have hdev : s.heap o.ptr = some (.instance o.rvq o.tvq) := h.blocks.get _ (mem_owned ho (.head _))
  have hrvq : s.heap o.rvq = some (.virtqueue o.rvqIndex o.ptr) := h.blocks.get _ (mem_owned ho (.tail _ (.head _)))
  have htvq : s.heap o.tvq = some (.virtqueue o.tvqIndex o.ptr) :=
    h.blocks.get _ (mem_owned ho (.tail _ (.tail _ (.head _))))
  have hr : o.rvq ≠ 0 := h.nonzero _ (mem_owned ho (.tail _ (.head _)))
  have ht : o.tvq ≠ 0 := h.nonzero _ (mem_owned ho (.tail _ (.tail _ (.head _))))
  rcases List.mem_cons.1 hentry with heq | hentry
  · have hvq : s.isrTable v = o.rvq := congrArg Prod.snd heq
    rw [hvq]
    exact ⟨_, _, _, _, hrvq, hdev, hr, ht, Or.inl rfl, ⟨_, hrvq⟩, ⟨_, htvq⟩⟩
  · have hvq : s.isrTable v = o.tvq := congrArg Prod.snd (List.mem_singleton.1 hentry)
    rw [hvq]
    exact ⟨_, _, _, _, htvq, hdev, hr, ht, Or.inr rfl, ⟨_, hrvq⟩, ⟨_, htvq⟩⟩

theorem owned_perm (hp : raw.Perm raw') : (owned owners raw).Perm (owned owners raw') := hp.append_left _

/-- The running call's own blocks come first. -/
theorem owned_cons : (owned owners ((p, b) :: raw)).Perm ((p, b) :: owned owners raw) := List.perm_middle

theorem owned_owner : (owned (o :: owners) raw).Perm (owned owners (o.blocks ++ raw)) := by
  unfold owned
  rw [List.flatMap_cons, ← List.append_assoc]
  exact (List.perm_append_comm).append_right raw

theorem Own.perm (h : Own s owners raw credit) (hp : raw.Perm raw') : Own s owners raw' credit :=
  ⟨h.blocks.perm (owned_perm hp), fun x hx => h.nonzero x ((owned_perm hp).mem_iff.2 hx), h.table, h.credits, h.lock⟩

/-- The order of the instances does not matter. -/
theorem Own.perm_owners {owners' : List Owner} (h : Own s owners raw credit) (hp : owners.Perm owners') :
    Own s owners' raw credit := by
  have hpo : (owned owners raw).Perm (owned owners' raw) := (hp.flatMap_right _).append_right raw
  refine ⟨h.blocks.perm hpo, fun x hx => h.nonzero x (hpo.mem_iff.2 hx), fun v hv => ?_, hp.length_eq ▸ h.credits, h.lock⟩
  obtain ⟨o, ho, hentry⟩ := h.table v hv
  exact ⟨o, hp.mem_iff.1 ho, hentry⟩

/-- Forgetting a call of `env_init`. -/
theorem Own.forget (h : Own s owners raw credit) : Own s owners raw 0 :=
  ⟨h.blocks, h.nonzero, h.table, le_trans (Nat.le_add_right _ _) h.credits, h.lock⟩

theorem Own.alloc (h : Own s owners raw credit) (hp : p ≠ 0) (hfree : s.heap p = none) :
    Own { s with heap := Function.update s.heap p (some b) } owners ((p, b) :: raw) credit := by
  refine ⟨(h.blocks.alloc hfree).perm owned_cons.symm, fun x hx => ?_, h.table, h.credits, h.lock⟩
  rcases List.mem_cons.1 (owned_cons.mem_iff.1 hx) with rfl | hx
  · exact hp
  · exact h.nonzero x hx

theorem Own.free (h : Own s owners ((p, b) :: raw) credit) :
    Own { s with heap := Function.update s.heap p none } owners raw credit :=
  ⟨(h.blocks.perm owned_cons).free, fun x hx => h.nonzero x (owned_cons.mem_iff.2 (.tail _ hx)), h.table, h.credits,
    h.lock⟩

theorem Own.get (h : Own s owners ((p, b) :: raw) credit) : s.heap p = some b :=
  h.blocks.get (p, b) (owned_cons.mem_iff.2 (.head _))

/-- A store in a block of the running call. -/
theorem Own.set (h : Own s owners ((p, b) :: raw) credit) (b' : Block) :
    Own { s with heap := Function.update s.heap p (some b') } owners ((p, b') :: raw) credit := by
  refine ⟨((h.blocks.perm owned_cons).set).perm owned_cons.symm, fun x hx => ?_, h.table, h.credits, h.lock⟩
  rcases List.mem_cons.1 (owned_cons.mem_iff.1 hx) with rfl | hx
  · exact h.nonzero (p, b) (owned_cons.mem_iff.2 (.head _))
  · exact h.nonzero x (owned_cons.mem_iff.2 (.tail _ hx))

/-- The blocks of the running call make an instance. -/
theorem Own.whole (h : Own s owners o.blocks (credit + 1)) : Own s (o :: owners) [] credit := by
  have hp : (owned (o :: owners) []).Perm (owned owners o.blocks) := owned_owner.trans (by rw [List.append_nil])
  refine ⟨h.blocks.perm hp.symm, fun x hx => h.nonzero x (hp.mem_iff.1 hx), fun v hv => ?_, ?_, h.lock⟩
  · obtain ⟨o', ho', hentry⟩ := h.table v hv
    exact ⟨o', List.mem_cons_of_mem o ho', hentry⟩
  · rw [List.length_cons, Nat.add_right_comm, Nat.add_assoc]
    exact h.credits

/-- An instance without an entry in the table falls apart into its blocks. -/
theorem Own.dissolve (h : Own s (o :: owners) [] credit) (hr : s.isrTable o.rvqIndex = 0) (ht : s.isrTable o.tvqIndex = 0) :
    Own s owners o.blocks (credit + 1) := by
  have hp : (owned (o :: owners) []).Perm (owned owners o.blocks) := owned_owner.trans (by rw [List.append_nil])
  refine ⟨h.blocks.perm hp, fun x hx => h.nonzero x (hp.mem_iff.2 hx), fun v hv => ?_, ?_, h.lock⟩
  · obtain ⟨o', ho', hentry⟩ := h.table v hv
    rcases List.mem_cons.1 ho' with rfl | ho'
    · rcases List.mem_cons.1 hentry with heq | hentry
      · have hidx : v = o'.rvqIndex := congrArg Prod.fst heq
        rw [hidx] at hv
        exact absurd hr hv
      · have hidx : v = o'.tvqIndex := congrArg Prod.fst (List.mem_singleton.1 hentry)
        rw [hidx] at hv
        exact absurd ht hv
    · exact ⟨o', ho', hentry⟩
  · have hcredits := h.credits
    rw [List.length_cons, Nat.add_right_comm, Nat.add_assoc] at hcredits
    exact hcredits

theorem Own.register (h : Own s owners raw credit) (ho : o ∈ owners) (hentry : (v, vq) ∈ o.entries)
    (hlock : s.platformLock ≠ 0) : Own { s with isrTable := Function.update s.isrTable v vq } owners raw credit := by
  refine ⟨h.blocks, h.nonzero, fun u hu => ?_, h.credits, fun hl => absurd hl hlock⟩
  by_cases huv : u = v
  · subst huv
    refine ⟨o, ho, ?_⟩
    dsimp only
    rw [Function.update_self]
    exact hentry
  · dsimp only at hu ⊢
    rw [Function.update_of_ne huv] at hu ⊢
    exact h.table u hu

theorem Own.unregister (h : Own s owners raw credit) (v : Nat) :
    Own { s with isrTable := Function.update s.isrTable v 0 } owners raw credit := by
  refine ⟨h.blocks, h.nonzero, fun u hu => ?_, h.credits, fun hl u => ?_⟩
  · by_cases huv : u = v
    · subst huv
      exact absurd (Function.update_self ..) hu
    · dsimp only at hu ⊢
      rw [Function.update_of_ne huv] at hu ⊢
      exact h.table u hu
  · by_cases huv : u = v
    · subst huv
      exact Function.update_self ..
    · dsimp only
      rw [Function.update_of_ne huv]
      exact h.lock hl u

/-- Where every count of the environment is accounted for, nobody owns an entry and the table is empty. -/
theorem Own.table_empty (h : Own s owners raw credit) (hc : s.envInitCounter ≤ credit) (v : Nat) : s.isrTable v = 0 := by
  have hcredits := h.credits
  obtain rfl : owners = [] := List.length_eq_zero_iff.1 (by omega)
  by_contra hv
  obtain ⟨o, ho, -⟩ := h.table v hv
  cases ho

end

/-! ## Ownership along a call -/

/-- The steps a running call may still take: `cur` is its instance while that is complete, `raw` are its blocks while it is
not, and the vectors `off` have no entry in the table. -/
inductive Code : Option Owner → List (Nat × Block) → Nat → List Nat → List Op → Prop
  | done {credit : Nat} {off : List Nat} : Code none [] credit off []
  | perm {raw raw' : List (Nat × Block)} {credit : Nat} {off : List Nat} {ops : List Op} (hp : raw.Perm raw')
    (h : Code none raw' credit off ops) : Code none raw credit off ops
  | alloc {raw : List (Nat × Block)} {credit p : Nat} {b : Block} {off : List Nat} {ops : List Op}
    (h : Code none ((p, b) :: raw) credit off ops) : Code none raw credit off (.alloc p b :: ops)
  | free {raw : List (Nat × Block)} {credit p : Nat} {b : Block} {off : List Nat} {ops : List Op}
    (h : Code none raw credit off ops) : Code none ((p, b) :: raw) credit off (.free p :: ops)
  | setPriv {raw : List (Nat × Block)} {credit p q x dev : Nat} {off : List Nat} {ops : List Op}
    (h : Code none ((p, .virtqueue q dev) :: raw) credit off ops) :
    Code none ((p, .virtqueue q x) :: raw) credit off (.setPriv p dev :: ops)
  | setTvq {raw : List (Nat × Block)} {credit dev rvq x vq : Nat} {off : List Nat} {ops : List Op}
    (h : Code none ((dev, .instance rvq vq) :: raw) credit off ops) :
    Code none ((dev, .instance rvq x) :: raw) credit off (.setTvq dev vq :: ops)
  | setRvq {raw : List (Nat × Block)} {credit dev tvq x vq : Nat} {off : List Nat} {ops : List Op}
    (h : Code none ((dev, .instance vq tvq) :: raw) credit off ops) :
    Code none ((dev, .instance x tvq) :: raw) credit off (.setRvq dev vq :: ops)
  | envInitCount {raw : List (Nat × Block)} {credit : Nat} {off : List Nat} {ops : List Op}
    (h : Code none raw (credit + 1) off ops) : Code none raw credit off (.envInitCount :: ops)
  | envInitTable {raw : List (Nat × Block)} {credit : Nat} {off : List Nat} {ops : List Op}
    (h : Code none raw credit off ops) : Code none raw credit off (.envInitTable :: ops)
  | platformInit {raw : List (Nat × Block)} {credit lock : Nat} {off : List Nat} {ops : List Op}
    (h : Code none raw (credit + 1) off ops) : Code none raw (credit + 1) off (.platformInit lock :: ops)
  | envInitStatus {raw : List (Nat × Block)} {credit lock dev : Nat} {off : List Nat} {ops : List Op}
    (hfail : Code none raw credit off [.free dev]) (h : Code none raw credit off ops) :
    Code none raw credit off (.envInitStatus lock dev :: ops)
  /-- the instance is complete -/
  | whole {o : Owner} {credit : Nat} {ops : List Op} (h : Code (some o) [] credit [] ops) :
    Code none o.blocks (credit + 1) [] ops
  | registerIsr {o : Owner} {credit v vq : Nat} {ops : List Op} (hentry : (v, vq) ∈ o.entries)
    (h : Code (some o) [] credit [] ops) : Code (some o) [] credit [] (.registerIsr v vq :: ops)
  | countIsr {o : Owner} {credit v : Nat} {off : List Nat} {ops : List Op} (h : Code (some o) [] credit off ops) :
    Code (some o) [] credit off (.countIsr v :: ops)
  | disableInterrupt {o : Owner} {credit v : Nat} {off : List Nat} {ops : List Op} (h : Code (some o) [] credit off ops) :
    Code (some o) [] credit off (.disableInterrupt v :: ops)
  | enableInterrupt {o : Owner} {credit v : Nat} {off : List Nat} {ops : List Op} (h : Code (some o) [] credit off ops) :
    Code (some o) [] credit off (.enableInterrupt v :: ops)
  | returns {o : Owner} {credit : Nat} {off : List Nat} : Code (some o) [] credit off [.returns o]
  | uncountIsr {o : Owner} {credit v : Nat} {off : List Nat} {ops : List Op} (h : Code (some o) [] credit off ops) :
    Code (some o) [] credit off (.uncountIsr v :: ops)
  | unregisterIsr {o : Owner} {credit v : Nat} {off : List Nat} {ops : List Op}
    (h : Code (some o) [] credit (v :: off) ops) : Code (some o) [] credit off (.unregisterIsr v :: ops)
  /-- the instance is no longer in the table -/
  | dissolve {o : Owner} {credit : Nat} {off : List Nat} {ops : List Op} (hr : o.rvqIndex ∈ off) (ht : o.tvqIndex ∈ off)
    (h : Code none o.blocks (credit + 1) off ops) : Code (some o) [] credit off ops
  | envDeinitCount {raw : List (Nat × Block)} {credit : Nat} {off : List Nat} {ops : List Op}
    (h : Code none raw credit off ops) : Code none raw (credit + 1) off (.envDeinitCount :: ops)
  | platformDeinit {raw : List (Nat × Block)} {credit : Nat} {off : List Nat} {ops : List Op}
    (h : Code none raw credit off ops) : Code none raw credit off (.platformDeinit :: ops)

/-- The running call is somewhere in its code, and owns what it has there. -/
def Running (s : State) : Prop := ∃ cur raw credit off,
  Code cur raw credit off s.rest ∧ Own s (cur.toList ++ s.owners) raw credit ∧ ∀ v ∈ off, s.isrTable v = 0

section

variable {P : Platform} {s s' : State} {cur : Option Owner} {raw : List (Nat × Block)} {credit : Nat} {off : List Nat}
  {op : Op} {rest : List Op}

/-- One step of the running call. -/
theorem Code.step (hc : Code cur raw credit off (op :: rest)) (h : Own s (cur.toList ++ s.owners) raw credit)
    (hoff : ∀ v ∈ off, s.isrTable v = 0) (hrest : s.rest = rest) (hs : op.exec P s = some s') : Running s' := by
  generalize hops : op :: rest = ops at hc
  induction hc with
  | done => cases hops
  | perm hp _ ih => exact ih (h.perm hp) hoff hops
  | alloc hc =>
    cases hops
    unfold Op.exec at hs
    dsimp only at hs
    split at hs
    · rename_i hp
      cases hs
      exact ⟨_, _, _, _, hrest ▸ hc, h.alloc hp.1 hp.2, hoff⟩
    · cases hs
  | free hc =>
    cases hops
    cases hs
    exact ⟨_, _, _, _, hrest ▸ hc, h.free, hoff⟩
  | setPriv hc =>
    cases hops
    unfold Op.exec at hs
    dsimp only at hs
    rw [h.get] at hs
    cases hs
    exact ⟨_, _, _, _, hrest ▸ hc, h.set _, hoff⟩
  | setTvq hc =>
    cases hops
    unfold Op.exec at hs
    dsimp only at hs
    rw [h.get] at hs
    cases hs
    exact ⟨_, _, _, _, hrest ▸ hc, h.set _, hoff⟩
  | setRvq hc =>
    cases hops
    unfold Op.exec at hs
    dsimp only at hs
    rw [h.get] at hs
    cases hs
    exact ⟨_, _, _, _, hrest ▸ hc, h.set _, hoff⟩
  | envInitCount hc =>
    cases hops
    cases hs
    exact ⟨_, _, _, _, hrest ▸ hc, ⟨h.blocks, h.nonzero, h.table, Nat.succ_le_succ h.credits, h.lock⟩, hoff⟩
  | envInitTable hc =>
    cases hops
    cases hs
    split
    · exact ⟨_, _, _, _, hrest ▸ hc, ⟨h.blocks, h.nonzero, fun v hv => absurd rfl hv, h.credits, fun _ _ => rfl⟩,
        fun _ _ => rfl⟩
    · exact ⟨_, _, _, _, hrest ▸ hc, h, hoff⟩
  | platformInit hc =>
    cases hops
    cases hs
    split
    · rename_i hfirst
      -- the first call of `env_init`: there is no instance yet, and no entry
      have htable : ∀ v, s.isrTable v = 0 := h.table_empty (by omega)
      exact ⟨_, _, _, _, hrest ▸ hc, ⟨h.blocks, h.nonzero, h.table, h.credits, fun _ => htable⟩, hoff⟩
    · exact ⟨_, _, _, _, hrest ▸ hc, h, hoff⟩
  | envInitStatus hfail hc =>
    cases hops
    cases hs
    split
    · exact ⟨_, _, _, _, hfail, ⟨h.blocks, h.nonzero, h.table, h.credits, h.lock⟩, hoff⟩
    · exact ⟨_, _, _, _, hrest ▸ hc, h, hoff⟩
  | whole _ ih => exact ih h.whole hoff hops
  | registerIsr hentry hc =>
    cases hops
    unfold Op.exec at hs
    dsimp only at hs
    split at hs
    · cases hs
      exact ⟨_, _, _, _, hrest ▸ hc, h, hoff⟩
    · rename_i hlock
      split at hs
      · cases hs
        exact ⟨_, _, _, _, hrest ▸ hc, h.register (.head _) hentry hlock, fun _ hv => absurd hv List.not_mem_nil⟩
      · cases hs
  | countIsr hc =>
    cases hops
    cases hs
    split
    · exact ⟨_, _, _, _, hrest ▸ hc, h, hoff⟩
    · exact ⟨_, _, _, _, hrest ▸ hc, ⟨h.blocks, h.nonzero, h.table, h.credits, h.lock⟩, hoff⟩
  | disableInterrupt hc =>
    cases hops
    cases hs
    exact ⟨_, _, _, _, hrest ▸ hc, ⟨h.blocks, h.nonzero, h.table, h.credits, h.lock⟩, hoff⟩
  | enableInterrupt hc =>
    cases hops
    obtain ⟨f, -, rfl⟩ := Option.map_eq_some_iff.1 hs
    exact ⟨_, _, _, _, hrest ▸ hc, ⟨h.blocks, h.nonzero, h.table, h.credits, h.lock⟩, hoff⟩
  | returns =>
    cases hops
    cases hs
    exact ⟨none, _, _, _, hrest ▸ .done, ⟨h.blocks, h.nonzero, h.table, h.credits, h.lock⟩, hoff⟩
  | uncountIsr hc =>
    cases hops
    unfold Op.exec at hs
    dsimp only at hs
    split at hs
    · cases hs
      exact ⟨_, _, _, _, hrest ▸ hc, h, hoff⟩
    · obtain ⟨f, -, rfl⟩ := Option.map_eq_some_iff.1 hs
      exact ⟨_, _, _, _, hrest ▸ hc, ⟨h.blocks, h.nonzero, h.table, h.credits, h.lock⟩, hoff⟩
  | unregisterIsr hc =>
    cases hops
    unfold Op.exec at hs
    dsimp only at hs
    split at hs
    · rename_i hlock
      cases hs
      exact ⟨_, _, _, _, hrest ▸ hc, h, fun v _ => h.lock hlock v⟩
    · split at hs
      · cases hs
        refine ⟨_, _, _, _, hrest ▸ hc, h.unregister _, fun u hu => ?_⟩
        rcases List.mem_cons.1 hu with rfl | hu
        · exact Function.update_self ..
        · dsimp only
          rw [Function.update_apply, hoff u hu, ite_self]
      · cases hs
  | dissolve hr ht _ ih => exact ih (h.dissolve (hoff _ hr) (hoff _ ht)) hoff hops
  | envDeinitCount hc =>
    cases hops
    unfold Op.exec at hs
    dsimp only at hs
    split at hs
    · cases hs
    · cases hs
      refine ⟨_, _, _, _, hrest ▸ hc, ⟨h.blocks, h.nonzero, h.table, ?_, h.lock⟩, hoff⟩
      exact Nat.le_sub_one_of_lt (Nat.lt_of_succ_le h.credits)
  | platformDeinit hc =>
    cases hops
    cases hs
    split
    · rename_i hlast
      -- the last `env_deinit`: no instance is left, and no entry
      have htable : ∀ v, s.isrTable v = 0 := h.table_empty (by omega)
      exact ⟨_, _, _, _, hrest ▸ hc, ⟨h.blocks, h.nonzero, h.table, h.credits, fun _ => htable⟩, hoff⟩
    · exact ⟨_, _, _, _, hrest ▸ hc, h, hoff⟩

/-! ## The code of the calls -/

variable {role : Role} {a : EnvAnswers} {c : InitArgs} {filled : Bool} {o : Owner}

theorem code_install : Code (some o) [] credit [] (installOps role o) := by
  have hr : (o.rvqIndex, o.rvq) ∈ o.entries := .head _
  have ht : (o.tvqIndex, o.tvq) ∈ o.entries := .tail _ (.head _)
  have hend : Code (some o) [] credit [] [.disableInterrupt o.rvqIndex, .disableInterrupt o.tvqIndex,
      .enableInterrupt o.rvqIndex, .enableInterrupt o.tvqIndex, .returns o] :=
    .disableInterrupt (.disableInterrupt (.enableInterrupt (.enableInterrupt .returns)))
  cases role with
  | master => exact .registerIsr hr (.countIsr (.registerIsr ht (.countIsr hend)))
  | remote => exact .registerIsr ht (.countIsr (.registerIsr hr (.countIsr hend)))

/-- The error exits give back what the call has allocated. -/
theorem code_free_both {dev vq0 vq1 : Nat} {b b0 b1 : Block} :
    Code none [(vq1, b1), (vq0, b0), (dev, b)] credit [] [.free vq0, .free vq1, .free dev] :=
  .perm (.swap _ _ _) (.free (.free (.free .done)))

theorem code_secondVq {p : ShmemParams} {idx0 : Nat} :
    Code none [(a.vq 0, .virtqueue idx0 a.inst), (a.inst, .instance 0 0)] 1 [] (secondVqOps P role a c filled p idx0) := by
  unfold secondVqOps
  split
  · exact .free (.free .done)
  rename_i vq1 _
  refine .alloc (.setPriv ?_)
  split
  · exact code_free_both
  -- the instance comes first, to set its virtqueues
  have hfront : ∀ (x y z : Nat × Block), [x, y, z].Perm [z, x, y] := fun x y z =>
    ((List.Perm.swap z y []).cons x).trans (.swap z x [y])
  have hwhole : Code none (Owner.ofRole role a.inst (a.vq 0) (a.vq 1) idx0 vq1.queueIndex.toNat).blocks (0 + 1) []
    (installOps role (.ofRole role a.inst (a.vq 0) (a.vq 1) idx0 vq1.queueIndex.toNat)) := .whole code_install
  refine .perm (hfront _ _ _) ?_
  cases role with
  | master =>
    refine .setTvq (.setRvq ?_)
    split
    · exact .perm (hfront _ _ _) (.free (.perm (.swap _ _ _) (.free (.free .done))))
    · exact .perm (.cons _ (.swap _ _ _)) hwhole
  | remote =>
    refine .setTvq (.setRvq ?_)
    split
    · exact .perm (hfront _ _ _) (.free (.perm (.swap _ _ _) (.free (.free .done))))
    · exact hwhole

theorem code_init : Code none [] 0 [] (initOps P role a c filled) := by
  unfold initOps
  split
  · exact .done
  split
  · exact .done
  refine .alloc (.envInitCount (.envInitTable (.platformInit (.envInitStatus (.free .done) ?_))))
  split
  · exact .free .done
  · exact .alloc (.setPriv code_secondVq)

theorem code_deinit : Code (some o) [] 0 [] (deinitOps o) := by
  refine .uncountIsr (.unregisterIsr (.uncountIsr (.unregisterIsr (.dissolve (.tail _ (.head _)) (.head _) ?_))))
  refine .perm (.swap _ _ _) (.free (.perm (.swap _ _ _) (.free ?_)))
  exact .setRvq (.setTvq (.envDeinitCount (.platformDeinit (.free .done))))

theorem running_reset : Running .reset :=
  ⟨none, [], 0, [], .done, ⟨⟨nofun, List.nodup_nil⟩, nofun, fun _ hv => absurd rfl hv, le_rfl, fun _ _ => rfl⟩, nofun⟩

/-- A call that has ended owns nothing. -/
theorem Code.nil {ops : List Op} (hc : Code cur raw credit off ops) (hops : ops = []) : cur = none ∧ raw = [] := by
  induction hc with
  | done => exact ⟨rfl, rfl⟩
  | perm hp _ ih =>
    obtain ⟨-, rfl⟩ := ih hops
    exact ⟨rfl, hp.eq_nil⟩
  | whole _ ih => cases (ih hops).1
  | dissolve _ _ _ ih => cases (ih hops).2
  | _ => cases hops

theorem Running.idle (h : Running s) (hrest : s.rest = []) : Own s s.owners [] 0 := by
  obtain ⟨cur, raw, credit, off, hc, h, -⟩ := h
  obtain ⟨rfl, rfl⟩ := hc.nil hrest
  exact h.forget

/-- What one step of the application keeps. -/
theorem Running.step {mv : Move} (h : Running s) (hs : s.step P mv = some s') : Running s' := by
  cases mv with
  | init role a c filled =>
    simp only [State.step] at hs
    split at hs
    · rename_i hidle
      have hown := h.idle (List.isEmpty_iff.1 hidle)
      cases hs
      exact ⟨none, [], 0, [], code_init, ⟨hown.blocks, hown.nonzero, hown.table, hown.credits, hown.lock⟩, nofun⟩
    · cases hs
  | deinit o =>
    simp only [State.step] at hs
    split at hs
    · rename_i hidle
      obtain ⟨hrest, ho⟩ := Bool.and_eq_true_iff.1 hidle
      have hown := (h.idle (List.isEmpty_iff.1 hrest)).perm_owners (List.perm_cons_erase (List.contains_iff_mem.1 ho))
      cases hs
      exact ⟨some o, [], 0, [], code_deinit, ⟨hown.blocks, hown.nonzero, hown.table, hown.credits, hown.lock⟩, nofun⟩
    · cases hs
  | next =>
    simp only [State.step] at hs
    split at hs
    · cases hs
    · rename_i op rest hrest
      obtain ⟨cur, raw, credit, off, hc, hown, hoff⟩ := h
      rw [hrest] at hc
      exact hc.step (s := { s with rest }) ⟨hown.blocks, hown.nonzero, hown.table, hown.credits, hown.lock⟩ hoff rfl hs

theorem Reachable.running (h : Reachable P s) : Running s := by
  induction h with
  | start => exact running_reset
  | step _ hs ih => exact ih.step hs

/-- In every run of init and deinit calls, between any two of their steps, `env_isr` hands on NULL or a live virtqueue. -/
theorem envIsr_never_dead {v vq : Nat} (h : Reachable P s) (hv : envIsr P s v = some vq) : vq = 0 ∨ Live s vq := by
  obtain ⟨cur, raw, credit, off, -, hown, -⟩ := h.running
  unfold envIsr at hv
  split at hv
  · cases hv
    by_cases hzero : s.isrTable v = 0
    · exact Or.inl hzero
    · exact Or.inr (hown.live hzero)
  · cases hv

end

/-- A run, and its final state. -/
def State.run (P : Platform) : State → List Move → Option State
  | s, [] => some s
  | s, mv :: mvs => (s.step P mv).bind fun s => s.run P mvs

theorem isRun (P : Platform) : IsRun (State.step P) (State.run P) := ⟨fun _ => rfl, fun _ _ _ => rfl⟩

theorem reachable_of_run {P : Platform} {mvs : List Move} {s s' : State} (hs : Reachable P s) (h : s.run P mvs = some s') :
    Reachable P s' :=
  (isRun P).keeps (fun hs hstep => hs.step hstep) hs h

/-- A master on link 0, and a remote on link 4 of which only the transmit queue is registered. -/
def halfInstalled : List Move :=
  .init .master ⟨10, 5, fun i => 11 + i, 7⟩ ⟨.build (headerTwo 64 align_64_le headerVringSize_two_lt), 4124, 512, 0⟩ true ::
    List.replicate 20 .next ++
  .init .remote ⟨20, 5, fun i => 21 + i, 8⟩ ⟨.build (headerTwo 64 align_64_le headerVringSize_two_lt), 8220, 512, 4⟩ true ::
    List.replicate 12 .next

/-- Between the two registrations of an instance its one entry is a live virtqueue. -/
theorem envIsr_never_dead_half : ∃ s, Reachable imxrt700M33 s ∧ envIsr imxrt700M33 s 8 = some 21 ∧
    envIsr imxrt700M33 s 9 = some 0 ∧ s.owners.length = 1 ∧ ((21 : Nat) = 0 ∨ Live s 21) := by
  have hrun : (State.reset.run imxrt700M33 halfInstalled).any (fun s =>
      decide (envIsr imxrt700M33 s 8 = some 21 ∧ envIsr imxrt700M33 s 9 = some 0 ∧ s.owners.length = 1)) = true := by
    decide +kernel
  obtain ⟨s, hs, hq⟩ := (Option.any_eq_true _ _).1 hrun
  obtain ⟨h8, h9, howners⟩ := of_decide_eq_true hq
  have hreach := reachable_of_run .start hs
  exact ⟨s, hreach, h8, h9, howners, envIsr_never_dead hreach h8⟩

end Lifetime

end RpmsgLite
