/-
Runs of `rpmsg_lite_master_init`, `rpmsg_lite_remote_init` and `rpmsg_lite_deinit` on any number of
instances. While every init call is all or nothing (refused before it allocates, or carried through),
the environment counts the live instances, owns what they own, and is back at its reset state when
the last one is deleted; an init call that fails in between keeps the environment.
-/
import Mathlib.Algebra.BigOperators.Group.List.Basic
import RpmsgLite.Init.HeaderVring
import RpmsgLite.Init.Instances
import RpmsgLite.Lib.Runs

namespace RpmsgLite

open EnvState

/-- The environment, the shared memory, and the instances in use. -/
structure InstState where
  env : EnvState
  m : ByteMem
  handles : List Handle

/-- An API call; `deinit` names an instance by its position, NULL where there is none. -/
inductive Call
  | init (role : Role) (a : EnvAnswers) (c : InitArgs)
  | deinit (i : Nat) (drained : Bool)

/-- The state after a call that returns. -/
def Call.step (P : PlatformConsts) (s : InstState) : Call → Option InstState
  | init role a c => match initCall role P a c s.env s.m with
    | .null e m => some { s with env := e, m }
    | .created h e m => some { env := e, m, handles := h :: s.handles }
    | .stuck => none
  | deinit i drained => match s.handles[i]? with
    | none => some s
    | some h => (rpmsgLiteDeinit P s.env drained h).map fun e => { s with env := e, handles := s.handles.eraseIdx i }

/-- An init call fails before it allocates, or not at all. -/
def Call.AllOrNothing (P : PlatformConsts) (e : EnvState) : Call → Prop
  | init role a c => ∀ p, c.accepted P role = some p → a.inst ≠ 0 → a.Completes e p
  | deinit _ _ => True

/-- The states of runs whose init calls are all or nothing. -/
inductive Run (P : PlatformConsts) : InstState → Prop
  | start (m : ByteMem) : Run P { env := .reset, m, handles := [] }
  | step {s s' : InstState} {call : Call} (h : Run P s) (hc : call.AllOrNothing P s.env) (hs : call.step P s = some s') :
      Run P s'

/-! ## The invariant -/

def Handle.blocks (h : Handle) : Multiset Nat := h.rvq ::ₘ h.tvq ::ₘ {h.ptr}

/-- A handle as an init call returns it. -/
structure Handle.Live (P : PlatformConsts) (h : Handle) : Prop where
  ptr : h.ptr ≠ 0
  rvq : h.rvq ≠ 0
  tvq : h.tvq ≠ 0
  lock : h.lock ≠ 0
  rvqVector : h.dev.rvq.queueIndex.toNat < P.isrCount
  tvqVector : h.dev.tvq.queueIndex.toNat < P.isrCount

/-- The environment holds what the live instances own, and no more. -/
structure Balanced (P : PlatformConsts) (s : InstState) : Prop where
  live : ∀ h ∈ s.handles, h.Live P
  counter : s.env.envInitCounter = s.handles.length
  heap : s.env.heap = (s.handles.map Handle.blocks).sum
  platformLock : s.env.platformLock = 0 ↔ s.handles = []
  mutexes : s.env.mutexes =
    (s.handles.map fun h => ({h.lock} : Multiset Nat)).sum + if s.handles = [] then 0 else {s.env.platformLock}
  mailbox : s.env.mailbox = !s.handles.isEmpty
  isrTable : ∀ v, s.env.isrTable v ≠ 0 →
    ∃ h ∈ s.handles, v = h.dev.rvq.queueIndex.toNat ∨ v = h.dev.tvq.queueIndex.toNat
  isrCounter : s.env.isrCounter = 2 * s.handles.length
  disableCounter : s.env.disableCounter = 0
  irqEnabled : s.env.irqEnabled = !s.handles.isEmpty
  platformInits : s.env.platformInits = s.env.platformDeinits + if s.handles = [] then 0 else 1

section

variable {P : PlatformConsts} {role : Role} {a : EnvAnswers} {c : InitArgs} {e e₁ : EnvState} {m : ByteMem} {s s' : InstState}
  {h : Handle}

theorem Balanced.start (m : ByteMem) : Balanced P { env := .reset, m, handles := [] } where
  live _ hh := absurd hh List.not_mem_nil
  counter := rfl
  heap := rfl
  platformLock := iff_of_true rfl rfl
  mutexes := rfl
  mailbox := rfl
  isrTable _ hv := absurd rfl hv
  isrCounter := rfl
  disableCounter := rfl
  irqEnabled := rfl
  platformInits := rfl

/-! ## Creating -/

theorem envInit_first {lock : Nat} (h0 : e.envInitCounter = 0) (hl : lock ≠ 0) : e.envInit lock = some (true,
    { e with
      envInitCounter := 1, isrTable := fun _ => 0, mailbox := true, mutexes := lock ::ₘ e.mutexes, platformLock := lock
      platformInits := e.platformInits + 1 }) := by
  unfold envInit platformInit envCreateMutex
  simp only [h0, hl, if_false, lt_irrefl, zero_add]

theorem envInit_again {lock : Nat} (h0 : 0 < e.envInitCounter) :
    e.envInit lock = some (true, { e with envInitCounter := e.envInitCounter + 1 }) := by
  unfold envInit
  rw [if_neg (by omega)]
  simp only
  rw [if_pos (by omega)]

/-- The environment of a balanced state after the `env_init` of one more instance. -/
structure Opened (s : InstState) (ptr : Nat) (e₁ : EnvState) : Prop where
  counter : e₁.envInitCounter = s.handles.length + 1
  heap : e₁.heap = ptr ::ₘ s.env.heap
  platformLock : e₁.platformLock ≠ 0
  mutexes : e₁.mutexes = (s.handles.map fun h => ({h.lock} : Multiset Nat)).sum + {e₁.platformLock}
  mailbox : e₁.mailbox = true
  isrTable : ∀ v, e₁.isrTable v ≠ 0 → s.env.isrTable v ≠ 0
  isrCounter : e₁.isrCounter = s.env.isrCounter
  disableCounter : e₁.disableCounter = 0
  platformInits : e₁.platformInits = e₁.platformDeinits + 1

theorem Balanced.opened (hs : Balanced P s) (hi : a.inst ≠ 0)
    (he : (s.env.envAllocateMemory a.inst).envInit a.platformLock = some (true, e₁)) : Opened s a.inst e₁ := by
  have hcount := hs.counter
  have halloc : s.env.envAllocateMemory a.inst = { s.env with heap := a.inst ::ₘ s.env.heap } := if_neg hi
  by_cases hnil : s.handles = []
  · have h0 : s.env.envInitCounter = 0 := by rw [hcount, hnil]; rfl
    have hl := envInit_platform he h0
    rw [envInit_first ((envAllocate_counter _ _).trans h0) hl, halloc] at he
    cases he
    have hmut := hs.mutexes
    have hinits := hs.platformInits
    rw [if_pos hnil, hnil] at hmut
    rw [if_pos hnil] at hinits
    constructor
    · show (1 : Int) = _
      rw [hnil]
      rfl
    · rfl
    · exact hl
    · show a.platformLock ::ₘ s.env.mutexes = _
      rw [hmut, hnil]
      rfl
    · rfl
    · exact fun v hv => absurd rfl hv
    · rfl
    · exact hs.disableCounter
    · exact congrArg (· + 1) hinits
  · have hpos : 0 < s.handles.length := List.length_pos_iff.2 hnil
    have h0 : 0 < s.env.envInitCounter := by omega
    rw [envInit_again ((envAllocate_counter _ _).symm ▸ h0), halloc] at he
    cases he
    have hmut := hs.mutexes
    have hinits := hs.platformInits
    rw [if_neg hnil] at hmut hinits
    constructor
    · show s.env.envInitCounter + 1 = _
      rw [hcount]
    · rfl
    · exact mt hs.platformLock.1 hnil
    · exact hmut
    · show s.env.mailbox = true
      rw [hs.mailbox, Bool.not_eq_true', List.isEmpty_eq_false_iff]
      exact hnil
    · exact fun v hv => hv
    · rfl
    · exact hs.disableCounter
    · exact hinits

/-- A created instance leaves a balanced state. -/
theorem Opened.created {dev : RpmsgLiteInstance} {rvqFirst : Bool} {rvq tvq : Nat} {m' : ByteMem} {e' : EnvState} {p : ShmemParams}
    (hs : Balanced P s) (ho : Opened s a.inst e₁) (hi : a.inst ≠ 0) (hc : a.Completes e p)
    (hvq : (rvq, tvq) = (a.vq 0, a.vq 1) ∨ (rvq, tvq) = (a.vq 1, a.vq 0))
    (hout : installed P a (e₁.owning a) m dev rvqFirst rvq tvq = .created h e' m') :
    Balanced P { env := e', m := m', handles := h :: s.handles } := by
  obtain ⟨rfl, rfl, hr, ht, table, rfl, htable⟩ := installed_spec (e := e₁.owning a) ho.platformLock ho.disableCounter hout
  have hrvq : rvq ≠ 0 ∧ tvq ≠ 0 := by
    rcases hvq with hvq | hvq
    · cases hvq
      exact ⟨hc.vq0, hc.vq1⟩
    · cases hvq
      exact ⟨hc.vq1, hc.vq0⟩
  constructor
  · intro h hh
    rcases List.mem_cons.1 hh with rfl | hh
    · exact ⟨hi, hrvq.1, hrvq.2, hc.lock, hr, ht⟩
    · exact hs.live h hh
  · exact ho.counter
  · show a.vq 1 ::ₘ a.vq 0 ::ₘ e₁.heap = _
    have hpair : a.vq 1 ::ₘ a.vq 0 ::ₘ (0 : Multiset Nat) = rvq ::ₘ tvq ::ₘ 0 := by
      rcases hvq with hvq | hvq
      · cases hvq
        exact Multiset.cons_swap _ _ _
      · cases hvq
        rfl
    calc a.vq 1 ::ₘ a.vq 0 ::ₘ e₁.heap
        = (a.vq 1 ::ₘ a.vq 0 ::ₘ 0) + e₁.heap := by rw [Multiset.cons_add, Multiset.cons_add, zero_add]
      _ = rvq ::ₘ tvq ::ₘ e₁.heap := by rw [hpair, Multiset.cons_add, Multiset.cons_add, zero_add]
      _ = _ := by
        rw [List.map_cons, List.sum_cons, ho.heap, hs.heap, Handle.blocks, Multiset.cons_add, Multiset.cons_add,
          Multiset.singleton_add]
  · exact iff_of_false ho.platformLock (List.cons_ne_nil _ _)
  · show a.lock ::ₘ e₁.mutexes = _
    rw [if_neg (List.cons_ne_nil _ _), List.map_cons, List.sum_cons, ho.mutexes, add_assoc]
    rfl
  · exact ho.mailbox
  · intro v hv
    rcases htable v hv with hv | hv | hv
    · obtain ⟨h, hh, hv⟩ := hs.isrTable v (ho.isrTable v hv)
      exact ⟨h, List.mem_cons_of_mem _ hh, hv⟩
    · exact ⟨_, List.mem_cons_self, Or.inl hv⟩
    · exact ⟨_, List.mem_cons_self, Or.inr hv⟩
  · show e₁.isrCounter + 2 = _
    rw [ho.isrCounter, hs.isrCounter]
    push_cast [List.length_cons]
    ring
  · exact ho.disableCounter
  · rfl
  · exact ho.platformInits

/-! ## Deleting -/

theorem envFree_eq {ptr : Nat} (h : ptr ≠ 0) : e.envFreeMemory ptr = { e with heap := e.heap.erase ptr } := if_neg h

/-- Deleting a live instance releases its entries, its blocks and its lock, and then the environment. -/
theorem rpmsgLiteDeinit_spec {drained : Bool} {rest : Multiset Nat} (hh : h.Live P) (hl : e.platformLock ≠ 0)
    (hi : 2 ≤ e.isrCounter) (hheap : e.heap = h.blocks + rest) :
    rpmsgLiteDeinit P e drained h = (envDeinit
      { e with
        isrTable := Function.update (Function.update e.isrTable h.dev.rvq.queueIndex.toNat 0) h.dev.tvq.queueIndex.toNat 0
        isrCounter := e.isrCounter - 2
        irqEnabled := if e.isrCounter - 2 = 0 then false else e.irqEnabled
        heap := h.ptr ::ₘ rest
        mutexes := e.mutexes.erase h.lock } drained).map fun e => { e with heap := e.heap.erase h.ptr } := by
  have hfree : ((h.blocks + rest).erase h.rvq).erase h.tvq = h.ptr ::ₘ rest := by
    rw [Handle.blocks, Multiset.cons_add, Multiset.erase_cons_head, Multiset.cons_add, Multiset.erase_cons_head,
      Multiset.singleton_add]
  unfold rpmsgLiteDeinit
  rw [if_neg (not_or.2 ⟨hh.rvq, not_or.2 ⟨hh.tvq, hh.lock⟩⟩), platformDeinitInterrupt_spec hl (by omega) hh.rvqVector,
    Option.bind_some, platformDeinitInterrupt_spec (by exact hl) (by show 0 < e.isrCounter - 1; omega) hh.tvqVector,
    Option.bind_some, envFree_eq hh.rvq, envFree_eq hh.tvq, envDeleteMutex, hheap]
  have hne : e.isrCounter - 1 ≠ 0 := by omega
  have htwo : e.isrCounter - 1 - 1 = e.isrCounter - 2 := by omega
  simp only [hfree, hne, if_false, htwo]
  congr 1
  funext e
  exact envFree_eq hh.ptr

/-- The order of the handles does not matter. -/
theorem Balanced.perm {L L' : List Handle} (hs : Balanced P { env := e, m, handles := L }) (hp : L.Perm L') :
    Balanced P { env := e, m, handles := L' } := by
  have hnil : L' = [] ↔ L = [] := ⟨fun h => (h ▸ hp).eq_nil, fun h => (h ▸ hp.symm).eq_nil⟩
  have hempty : L'.isEmpty = L.isEmpty := by rw [Bool.eq_iff_iff, List.isEmpty_iff, List.isEmpty_iff, hnil]
  constructor
  · exact fun h hh => hs.live h (hp.mem_iff.2 hh)
  · exact hs.counter.trans (congrArg _ hp.length_eq)
  · exact hs.heap.trans (hp.map _).sum_eq
  · exact hs.platformLock.trans hnil.symm
  · rw [hs.mutexes, (hp.map _).sum_eq]
    simp only [hnil]
  · exact hs.mailbox.trans (congrArg _ hempty.symm)
  · intro v hv
    obtain ⟨h, hh, hv⟩ := hs.isrTable v hv
    exact ⟨h, hp.mem_iff.1 hh, hv⟩
  · exact hs.isrCounter.trans (by rw [hp.length_eq])
  · exact hs.disableCounter
  · exact hs.irqEnabled.trans (congrArg _ hempty.symm)
  · rw [hs.platformInits]
    simp only [hnil]

theorem Balanced.isrTable_deleted {L : List Handle} (hs : Balanced P { env := e, m, handles := h :: L }) (v : Nat)
    (hv : Function.update (Function.update e.isrTable h.dev.rvq.queueIndex.toNat 0) h.dev.tvq.queueIndex.toNat 0 v ≠ 0) :
    ∃ h ∈ L, v = h.dev.rvq.queueIndex.toNat ∨ v = h.dev.tvq.queueIndex.toNat := by
  have ht : v ≠ h.dev.tvq.queueIndex.toNat := by
    rintro rfl
    exact hv (Function.update_self _ _ _)
  rw [Function.update_of_ne ht] at hv
  have hr : v ≠ h.dev.rvq.queueIndex.toNat := by
    rintro rfl
    exact hv (Function.update_self _ _ _)
  rw [Function.update_of_ne hr] at hv
  obtain ⟨h', hh', hv'⟩ := hs.isrTable v hv
  rcases List.mem_cons.1 hh' with rfl | hmem
  · exact absurd hv' (not_or.2 ⟨hr, ht⟩)
  · exact ⟨h', hmem, hv'⟩

/-- Deleting one of the instances returns unless it is the last and the other core never reads its mailbox,
and leaves a balanced state. -/
theorem Balanced.deleted {L : List Handle} {drained : Bool} (hs : Balanced P { env := e, m, handles := h :: L }) :
    (drained = true ∨ L ≠ [] → (rpmsgLiteDeinit P e drained h).isSome) ∧
      ∀ e', rpmsgLiteDeinit P e drained h = some e' → Balanced P { env := e', m, handles := L } := by
  have hcount : e.envInitCounter = L.length + 1 := hs.counter
  have hlock : e.platformLock ≠ 0 := mt hs.platformLock.1 (List.cons_ne_nil _ _)
  have hisr : e.isrCounter = 2 * (L.length + 1) := by
    rw [hs.isrCounter]
    push_cast [List.length_cons]
    rfl
  have hheap : e.heap = h.blocks + (L.map Handle.blocks).sum := hs.heap
  have hmut : e.mutexes = h.lock ::ₘ (L.map fun h => ({h.lock} : Multiset Nat)).sum + {e.platformLock} := hs.mutexes
  have hinits : e.platformInits = e.platformDeinits + 1 := hs.platformInits
  rw [rpmsgLiteDeinit_spec (hs.live h List.mem_cons_self) hlock (by omega) hheap]
  unfold envDeinit
  rw [if_neg (by show ¬ e.envInitCounter ≤ 0; omega)]
  simp only
  by_cases hL : L = []
  · subst hL
    have hone : e.isrCounter = 2 := hisr
    rw [if_neg (by rw [hcount]; decide), platformDeinit]
    cases drained with
    | false => exact ⟨fun h => absurd h (by simp), fun e' h => by cases h⟩
    | true =>
      refine ⟨fun _ => rfl, ?_⟩
      rintro e' ⟨⟩
      constructor
      · exact fun h' hh' => absurd hh' List.not_mem_nil
      · show e.envInitCounter - 1 = 0
        omega
      · exact Multiset.erase_cons_head h.ptr 0
      · exact iff_of_true rfl rfl
      · show (e.mutexes.erase h.lock).erase e.platformLock = 0
        rw [hmut, Multiset.cons_add, Multiset.erase_cons_head, List.map_nil, List.sum_nil, zero_add]
        exact Multiset.erase_cons_head e.platformLock 0
      · rfl
      · exact hs.isrTable_deleted
      · show e.isrCounter - 2 = 0
        omega
      · exact hs.disableCounter
      · show (if e.isrCounter - 2 = 0 then false else e.irqEnabled) = false
        rw [hone]
        rfl
      · exact hinits
  · have hpos := List.length_pos_iff.2 hL
    have hempty : L.isEmpty = false := List.isEmpty_eq_false_iff.2 hL
    rw [if_pos (by omega)]
    refine ⟨fun _ => rfl, ?_⟩
    rintro e' ⟨⟩
    constructor
    · exact fun h' hh' => hs.live h' (List.mem_cons_of_mem _ hh')
    · show e.envInitCounter - 1 = (L.length : Int)
      omega
    · exact Multiset.erase_cons_head _ _
    · exact iff_of_false hlock hL
    · show e.mutexes.erase h.lock = _
      rw [hmut, Multiset.cons_add, Multiset.erase_cons_head, if_neg hL]
    · exact Eq.trans hs.mailbox (by rw [hempty]; rfl)
    · exact hs.isrTable_deleted
    · show e.isrCounter - 2 = 2 * (L.length : Int)
      omega
    · exact hs.disableCounter
    · show (if e.isrCounter - 2 = 0 then false else e.irqEnabled) = !L.isEmpty
      rw [if_neg (by omega), hempty]
      exact hs.irqEnabled
    · rw [if_neg hL]
      exact hinits

/-! ## Runs -/

theorem Balanced.step {call : Call} (hs : Balanced P s) (hc : call.AllOrNothing P s.env) (hstep : call.step P s = some s') :
    Balanced P s' := by
  cases call with
  | init role a c =>
    have hends : InitEnds P role a c s.env s.m (initCall role P a c s.env s.m) := initCall_ends
    simp only [Call.step] at hstep
    generalize initCall role P a c s.env s.m = out at hends hstep
    cases hends with
    | refused h =>
      cases hstep
      exact hs
    | failed m' hp hi hnc he => exact absurd (hc _ hp hi) hnc
    | stuck => cases hstep
    | created hp hi hcomp he hvq hout =>
      cases out with
      | null e m =>
        unfold installed at hout
        simp only at hout
        split at hout <;> cases hout
      | stuck => cases hstep
      | created h e m =>
        cases hstep
        exact (hs.opened hi he).created hs hi hcomp hvq hout
  | deinit i drained =>
    unfold Call.step at hstep
    simp only at hstep
    split at hstep
    · cases hstep
      exact hs
    · rename_i h hget
      obtain ⟨e', he, rfl⟩ := Option.map_eq_some_iff.1 hstep
      obtain ⟨hlt, rfl⟩ := List.getElem?_eq_some_iff.1 hget
      exact (hs.perm (List.getElem_cons_eraseIdx_perm hlt).symm).deleted.2 e' he

theorem Run.balanced (hr : Run P s) : Balanced P s := by
  induction hr with
  | start m => exact Balanced.start m
  | step _ hc hs ih => exact ih.step hc hs

/-- With no instance left the environment is the reset one, and the platform has been deinitialised as often
as it was initialised. -/
theorem Balanced.reset {e : EnvState} (hs : Balanced P { env := e, m, handles := [] }) :
    e = { EnvState.reset with platformInits := e.platformDeinits, platformDeinits := e.platformDeinits } := by
  have htable : e.isrTable = fun _ => 0 := by
    funext v
    by_contra hv
    obtain ⟨h, hh, -⟩ := hs.isrTable v hv
    exact absurd hh List.not_mem_nil
  obtain ⟨heap, mutexes, counter, table, lock, mailbox, isrs, disabled, irq, inits, deinits⟩ := e
  obtain rfl : heap = 0 := hs.heap
  obtain rfl : mutexes = 0 := hs.mutexes
  obtain rfl : counter = 0 := hs.counter
  obtain rfl : table = fun _ => 0 := htable
  obtain rfl : lock = 0 := hs.platformLock.2 rfl
  obtain rfl : mailbox = false := hs.mailbox
  obtain rfl : isrs = 0 := hs.isrCounter
  obtain rfl : disabled = 0 := hs.disableCounter
  obtain rfl : irq = false := hs.irqEnabled
  obtain rfl : inits = deinits := hs.platformInits
  rfl

/-- Deleting a live instance returns, the last one as soon as the other core has read its mailbox. -/
theorem Run.deinit_returns {i : Nat} {drained : Bool} (hr : Run P s) (hd : drained = true ∨ 1 < s.handles.length) :
    ((Call.deinit i drained).step P s).isSome := by
  simp only [Call.step]
  split
  · rfl
  · rename_i h hget
    obtain ⟨hlt, rfl⟩ := List.getElem?_eq_some_iff.1 hget
    rw [Option.isSome_map]
    refine (hr.balanced.perm (List.getElem_cons_eraseIdx_perm hlt).symm).deleted.1 (hd.imp_right fun hlen hnil => ?_)
    have := List.length_eraseIdx_of_lt hlt
    rw [hnil, List.length_nil] at this
    omega

/-- In runs whose init calls are all or nothing, an init call that is so too changes nothing when it
fails, so that later calls do what they would have done; one that is not keeps the environment
initialised once more. With the last instance deleted the environment is reset, and every
`platform_init` has had its `platform_deinit`. -/
theorem init_balanced (hr : Run P s) :
    (∀ role a c e' m', initCall role P a c s.env s.m = .null e' m' →
      ((Call.init role a c).AllOrNothing P s.env → e' = s.env ∧ m' = s.m) ∧
      (¬ (Call.init role a c).AllOrNothing P s.env → e'.envInitCounter = s.env.envInitCounter + 1)) ∧
    (s.handles = [] → ∃ n, s.env = { EnvState.reset with platformInits := n, platformDeinits := n }) := by
  refine ⟨fun role a c e' m' hnull => ?_, fun hnil => ?_⟩
  · have hends : InitEnds P role a c s.env s.m (initCall role P a c s.env s.m) := initCall_ends
    rw [hnull] at hends
    generalize hout : InitOutcome.null e' m' = out at hends
    cases hends with
    | refused h =>
      cases hout
      refine ⟨fun _ => ⟨rfl, rfl⟩, fun hn => absurd (fun p hp hi => ?_) hn⟩
      rcases h with h | h
      · rw [h] at hp
        cases hp
      · exact absurd h hi
    | failed m' hp hi hnc he =>
      cases hout
      refine ⟨fun hall => absurd (hall _ hp hi) hnc, fun _ => ?_⟩
      rw [envFree_counter, envInit_counter _ he, envAllocate_counter]
    | stuck => cases hout
    | created hp hi hcomp he hvq hinst =>
      subst hout
      unfold installed at hinst
      simp only at hinst
      split at hinst <;> cases hinst
  · obtain ⟨env, m, handles⟩ := s
    obtain rfl : handles = [] := hnil
    exact ⟨env.platformDeinits, hr.balanced.reset⟩

end

/-! ## One instance -/

/-- Allocators that answer every request. -/
def EnvAnswers.all : EnvAnswers where
  inst := 0x100
  platformLock := 0x200
  vq := fun idx => 0x300 + 0x100 * idx
  lock := 0x500

def constsTwo : PlatformConsts where
  width := 32
  highestLinkId := 0
  isrCount := 32

def argsTwo : InitArgs where
  cfg := .build (headerTwo 64 align_64_le headerVringSize_two_lt)
  addr := 4096
  length := 512
  linkId := 0

def InstState.cleared : InstState where
  env := .reset
  m := fun _ => 0
  handles := []

/-- Calls one after the other. -/
def runCalls (P : PlatformConsts) (s : InstState) (calls : List Call) : Option InstState :=
  calls.foldlM (Call.step P) s

theorem isRun_calls (P : PlatformConsts) : IsRun (fun s call => Call.step P s call) (runCalls P) :=
  ⟨fun _ => rfl, fun _ _ _ => List.foldlM_cons⟩

theorem Run.calls {P : PlatformConsts} {calls : List Call} {s s' : InstState} (hr : Run P s)
    (hall : ∀ call ∈ calls, ∀ e, call.AllOrNothing P e) (h : runCalls P s calls = some s') : Run P s' :=
  (isRun_calls P).keeps_of_mem (fun hc hr hstep => hr.step (hall _ hc _) hstep) hr h

/-- One instance created and deleted, with a call in between that cannot allocate its instance. -/
def createDelete : List Call :=
  [.init .master .all argsTwo, .init .remote { EnvAnswers.all with inst := 0 } argsTwo, .deinit 0 true]

theorem init_balanced_one : ∃ s, runCalls constsTwo .cleared createDelete = some s ∧ s.handles = [] ∧
    ∃ n, s.env = { EnvState.reset with platformInits := n, platformDeinits := n } := by
  have hrun : (runCalls constsTwo .cleared createDelete).any fun s => s.handles.isEmpty := by decide +kernel
  obtain ⟨s, hs, hempty⟩ := (Option.any_eq_true _ _).1 hrun
  have hall : ∀ call ∈ createDelete, ∀ e, call.AllOrNothing constsTwo e := by
    intro call hc e
    have haccepted : argsTwo.accepted constsTwo .master = some (BuildConfig.params 32 (headerTwo 64 (by decide) (by decide))) := by
      decide +kernel
    rcases List.mem_cons.1 hc with rfl | hc
    · intro p hp _
      obtain rfl := Option.some.inj (hp.symm.trans haccepted)
      exact ⟨fun _ => by decide, by decide, by decide, by decide, by decide⟩
    rcases List.mem_cons.1 hc with rfl | hc
    · exact fun p _ hi => absurd rfl hi
    · rw [List.mem_singleton.1 hc]
      trivial
  have hnil := List.isEmpty_iff.1 hempty
  exact ⟨s, hs, hnil, (init_balanced ((Run.start _).calls hall hs)).2 hnil⟩

/-- An init call whose first virtqueue cannot be allocated, then an instance created and deleted. -/
def leakCreateDelete : List Call :=
  [.init .master { EnvAnswers.all with vq := fun _ => 0 } argsTwo, .init .master .all argsTwo, .deinit 0 true]

/-- The failed call returns no instance and keeps the environment initialised, and the platform is never
deinitialised. -/
theorem init_balanced_leak :
    (∃ s, (Call.init .master { EnvAnswers.all with vq := fun _ => 0 } argsTwo).step constsTwo .cleared = some s ∧
      s.handles = [] ∧ s.env.envInitCounter = 1 ∧ s.env.platformLock ≠ 0) ∧
    ∃ s, runCalls constsTwo .cleared leakCreateDelete = some s ∧ s.handles = [] ∧ s.env.envInitCounter = 1 ∧
      s.env.platformInits = 1 ∧ s.env.platformDeinits = 0 := by
  constructor
  · have hrun : ((Call.init .master { EnvAnswers.all with vq := fun _ => 0 } argsTwo).step constsTwo .cleared).any fun s =>
        s.handles.isEmpty ∧ s.env.envInitCounter = 1 ∧ s.env.platformLock ≠ 0 := by
      decide +kernel
    obtain ⟨s, hs, h⟩ := (Option.any_eq_true _ _).1 hrun
    obtain ⟨hempty, h⟩ := of_decide_eq_true h
    exact ⟨s, hs, List.isEmpty_iff.1 hempty, h⟩
  · have hrun : (runCalls constsTwo .cleared leakCreateDelete).any fun s => s.handles.isEmpty ∧ s.env.envInitCounter = 1 ∧
        s.env.platformInits = 1 ∧ s.env.platformDeinits = 0 := by
      decide +kernel
    obtain ⟨s, hs, h⟩ := (Option.any_eq_true _ _).1 hrun
    obtain ⟨hempty, h⟩ := of_decide_eq_true h
    exact ⟨s, hs, List.isEmpty_iff.1 hempty, h⟩

end RpmsgLite
