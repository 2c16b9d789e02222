/-
Creating and deleting instances, with the resources: `rpmsg_lite_master_init`, `rpmsg_lite_remote_init`
and `rpmsg_lite_deinit` on the state of the environment. An init call that the allocator refuses after
`env_init` gives back its blocks but not the environment.
-/
import RpmsgLite.Init.Environment
import RpmsgLite.Init.Master

namespace RpmsgLite

open MaskArith EnvState

/-- What the allocators answer during an init call, 0 for NULL. -/
structure EnvAnswers where
  inst : Nat
  /-- The lock `platform_init` creates. -/
  platformLock : Nat
  vq : Nat → Nat
  lock : Nat

/-- A created instance, with the pointers to what it owns. -/
structure Handle where
  dev : RpmsgLiteInstance
  ptr : Nat
  rvq : Nat
  tvq : Nat
  lock : Nat

/-- An init call returns NULL, returns an instance, or never returns. -/
inductive InitOutcome
  | null (e : EnvState) (m : ByteMem)
  | created (h : Handle) (e : EnvState) (m : ByteMem)
  | stuck

/-- The platform's constants: pointer width, `RL_PLATFORM_HIGHEST_LINK_ID` and `ISR_COUNT`. -/
structure PlatformConsts where
  width : Nat
  highestLinkId : UInt32
  isrCount : Nat

/-- The arguments of an init call; the remote has no length. -/
structure InitArgs where
  cfg : ShmemConfig
  addr : Nat
  length : Nat
  linkId : UInt32

/-- The answers as the memory-level model takes them. -/
def EnvAnswers.initEnv (a : EnvAnswers) (e : EnvState) : InitEnv where
  instanceAlloc := decide (a.inst ≠ 0)
  envInit := decide (e.envInitCounter = 0 → a.platformLock ≠ 0)
  vqAlloc := fun idx => decide (a.vq idx ≠ 0)
  mutex := decide (a.lock ≠ 0)

section

variable (P : PlatformConsts) (a : EnvAnswers) (c : InitArgs) (e : EnvState) (m : ByteMem)

/-- The virtqueue pointers come back in the order the two `platform_init_interrupt` calls register them. -/
def installed (dev : RpmsgLiteInstance) (rvqFirst : Bool) (rvq tvq : Nat) : InitOutcome :=
  let r := (dev.rvq.queueIndex.toNat, rvq)
  let t := (dev.tvq.queueIndex.toNat, tvq)
  let (x, y) := if rvqFirst then (r, t) else (t, r)
  match e.installIsrs P.isrCount x.1 x.2 y.1 y.2 with
  | none => .stuck
  | some e => .created { dev, ptr := a.inst, rvq, tvq, lock := a.lock } e m

/-- `rpmsg_lite_master_init` -/
def masterInit : InitOutcome :=
  if c.linkId > P.highestLinkId then .null e m
  else if c.addr = 0 then .null e m
  else match masterParams P.width c.cfg with
    | none => .null e m
    | some p =>
      match rlCalculateBufferCountDownSafe P.width c.length p.overhead p.bufferSize with
      | none => .stuck
      | some count =>
        if 2 * p.count.toNat > count then .null e m
        else if a.inst = 0 then .null e m
        else match (e.envAllocateMemory a.inst).envInit a.platformLock with
          | none => .stuck
          | some (false, e) => .null (e.envFreeMemory a.inst) m
          | some (true, e) =>
            match masterVring P.width p c.addr (a.initEnv e) c.linkId .rxCallback 0 m with
            | .error m => .null (e.envFreeMemory a.inst) m
            | .ok (vq0, m) =>
              let e := e.envAllocateMemory (a.vq 0)
              match masterVring P.width p c.addr (a.initEnv e) c.linkId .txCallback 1 m with
              | .error m => .null ((e.envFreeMemory (a.vq 0)).envFreeMemory a.inst) m
              | .ok (vq1, m) =>
                let e := e.envAllocateMemory (a.vq 1)
                if a.lock = 0 then
                  .null (((e.envFreeMemory (a.vq 0)).envFreeMemory (a.vq 1)).envFreeMemory a.inst) m
                else
                  let e := e.envCreateMutex a.lock
                  match masterBuffers P.width p c.addr c.linkId (wrap 32 count) vq0 vq1 m with
                  | .instance dev m => installed P a e m dev true (a.vq 0) (a.vq 1)
                  | _ => .stuck

/-- `rpmsg_lite_remote_init` -/
def remoteInit : InitOutcome :=
  if c.linkId > P.highestLinkId then .null e m
  else if c.addr = 0 then .null e m
  else match remoteParams P.width c.cfg with
    | none => .null e m
    | some p =>
      if a.inst = 0 then .null e m
      else match (e.envAllocateMemory a.inst).envInit a.platformLock with
        | none => .stuck
        | some (false, e) => .null (e.envFreeMemory a.inst) m
        | some (true, e) =>
          match virtqueueCreate P.width (decide (a.vq 0 ≠ 0)) (rlGetVqId c.linkId 0) (vringAllocInfo P.width p c.addr 0)
              .txCallback with
          | .error _ => .null (e.envFreeMemory a.inst) m
          | .ok vq0 =>
            let e := e.envAllocateMemory (a.vq 0)
            match virtqueueCreate P.width (decide (a.vq 1 ≠ 0)) (rlGetVqId c.linkId 1)
                (vringAllocInfo P.width p c.addr 1) .rxCallback with
            | .error _ => .null ((e.envFreeMemory (a.vq 0)).envFreeMemory a.inst) m
            | .ok vq1 =>
              let e := e.envAllocateMemory (a.vq 1)
              if a.lock = 0 then
                .null (((e.envFreeMemory (a.vq 0)).envFreeMemory (a.vq 1)).envFreeMemory a.inst) m
              else
                let dev : RpmsgLiteInstance :=
                  { role := .remote, rvq := vq1, tvq := vq0, linkId := c.linkId, linkState := false,
                    shMemBase := shMemBase P.width p c.addr, shMemRemaining := 0, shMemTotal := 0 }
                installed P a (e.envCreateMutex a.lock) m dev false (a.vq 1) (a.vq 0)

/-- `rpmsg_lite_deinit` -/
def rpmsgLiteDeinit (drained : Bool) (h : Handle) : Option EnvState :=
  if h.rvq = 0 ∨ h.tvq = 0 ∨ h.lock = 0 then none
  else
    (e.platformDeinitInterrupt P.isrCount h.dev.rvq.queueIndex.toNat).bind fun e =>
      (e.platformDeinitInterrupt P.isrCount h.dev.tvq.queueIndex.toNat).bind fun e =>
        ((((e.envFreeMemory h.rvq).envFreeMemory h.tvq).envDeleteMutex h.lock).envDeinit drained).map fun e =>
          e.envFreeMemory h.ptr

end

/-! ## How an init call ends -/

/-- `rpmsg_lite_master_init` or `rpmsg_lite_remote_init` -/
def initCall (role : Role) : PlatformConsts → EnvAnswers → InitArgs → EnvState → ByteMem → InitOutcome :=
  match role with
  | .master => masterInit
  | .remote => remoteInit

/-- The parameters, unless a check before the first allocation returns NULL. -/
def InitArgs.accepted (c : InitArgs) (P : PlatformConsts) (role : Role) : Option ShmemParams :=
  if c.linkId > P.highestLinkId ∨ c.addr = 0 then none
  else match role with
    | .remote => remoteParams P.width c.cfg
    | .master => (masterParams P.width c.cfg).filter fun p =>
      (rlCalculateBufferCountDownSafe P.width c.length p.overhead p.bufferSize).all fun count => 2 * p.count.toNat ≤ count

/-- Every call after the instance has been allocated succeeds. -/
structure EnvAnswers.Completes (a : EnvAnswers) (e : EnvState) (p : ShmemParams) : Prop where
  platform : e.envInitCounter = 0 → a.platformLock ≠ 0
  align : p.align ≤ INT32_MAX
  vq0 : a.vq 0 ≠ 0
  vq1 : a.vq 1 ≠ 0
  lock : a.lock ≠ 0

/-- With the two virtqueues and the lock of an instance. -/
def EnvState.owning (e : EnvState) (a : EnvAnswers) : EnvState :=
  { e with heap := a.vq 1 ::ₘ a.vq 0 ::ₘ e.heap, mutexes := a.lock ::ₘ e.mutexes }

/-- The ends of an init call: NULL before any allocation stays, NULL after `env_init`, or an instance. -/
inductive InitEnds (P : PlatformConsts) (role : Role) (a : EnvAnswers) (c : InitArgs) (e : EnvState) (m : ByteMem) :
    InitOutcome → Prop
  | refused (h : c.accepted P role = none ∨ a.inst = 0) : InitEnds P role a c e m (.null e m)
  | failed {p : ShmemParams} {ok : Bool} {e₁ : EnvState} (m' : ByteMem) (hp : c.accepted P role = some p)
      (hi : a.inst ≠ 0) (hc : ¬ a.Completes e p)
      (he : (e.envAllocateMemory a.inst).envInit a.platformLock = some (ok, e₁)) :
      InitEnds P role a c e m (.null (e₁.envFreeMemory a.inst) m')
  | created {p : ShmemParams} {e₁ : EnvState} {m' : ByteMem} {dev : RpmsgLiteInstance} {rvqFirst : Bool} {rvq tvq : Nat}
      {out : InitOutcome} (hp : c.accepted P role = some p) (hi : a.inst ≠ 0) (hc : a.Completes e p)
      (he : (e.envAllocateMemory a.inst).envInit a.platformLock = some (true, e₁))
      (hvq : (rvq, tvq) = (a.vq 0, a.vq 1) ∨ (rvq, tvq) = (a.vq 1, a.vq 0))
      (hout : installed P a (e₁.owning a) m' dev rvqFirst rvq tvq = out) : InitEnds P role a c e m out
  | stuck : InitEnds P role a c e m .stuck

section

variable {P : PlatformConsts} {role : Role} {a : EnvAnswers} {c : InitArgs} {e e₁ : EnvState} {m : ByteMem}

theorem owning_eq (h0 : a.vq 0 ≠ 0) (h1 : a.vq 1 ≠ 0) (hl : a.lock ≠ 0) :
    ((e.envAllocateMemory (a.vq 0)).envAllocateMemory (a.vq 1)).envCreateMutex a.lock = e.owning a := by
  unfold envAllocateMemory envCreateMutex owning
  rw [if_neg h0, if_neg h1, if_neg hl]

/-- The clean-up after a failed `env_create_mutex` frees the first virtqueue first. -/
theorem envFree_allocate_both (p q : Nat) :
    ((((e.envAllocateMemory p).envAllocateMemory q).envFreeMemory p).envFreeMemory q) = e := by
  unfold envAllocateMemory envFreeMemory
  by_cases hp : p = 0 <;> by_cases hq : q = 0
  · simp only [hp, hq, if_true]
  · simp only [hp, if_true, if_neg hq, Multiset.erase_cons_head]
  · simp only [hq, if_true, if_neg hp, Multiset.erase_cons_head]
  · simp only [if_neg hp, if_neg hq]
    rw [Multiset.erase_comm, Multiset.erase_cons_head, Multiset.erase_cons_head]

theorem envInit_completes {p : ShmemParams} {ok : Bool} (hc : a.Completes e p)
    (he : (e.envAllocateMemory a.inst).envInit a.platformLock = some (ok, e₁)) : ok = true := by
  refine (envInit_ok _ he).2 ?_
  rw [envAllocate_counter]
  exact hc.platform

theorem envInit_platform (he : (e.envAllocateMemory a.inst).envInit a.platformLock = some (true, e₁)) :
    e.envInitCounter = 0 → a.platformLock ≠ 0 := by
  rw [← envAllocate_counter e a.inst]
  exact (envInit_ok _ he).1 rfl

/-- Whichever virtqueue is registered first, the new entries of the table are the two of the instance. -/
theorem installed_spec {dev : RpmsgLiteInstance} {rvqFirst : Bool} {rvq tvq : Nat} {h : Handle} {e' : EnvState} {m' : ByteMem}
    (hl : e.platformLock ≠ 0) (hd : e.disableCounter = 0) (hout : installed P a e m dev rvqFirst rvq tvq = .created h e' m') :
    h = { dev, ptr := a.inst, rvq, tvq, lock := a.lock } ∧ m' = m ∧
      dev.rvq.queueIndex.toNat < P.isrCount ∧ dev.tvq.queueIndex.toNat < P.isrCount ∧
      ∃ table, e' = { e with isrTable := table, isrCounter := e.isrCounter + 2, irqEnabled := true } ∧
        ∀ v, table v ≠ 0 → e.isrTable v ≠ 0 ∨ v = dev.rvq.queueIndex.toNat ∨ v = dev.tvq.queueIndex.toNat := by
  have htable : ∀ {v0 d0 v1 d1 v : Nat}, Function.update (Function.update e.isrTable v0 d0) v1 d1 v ≠ 0 →
      e.isrTable v ≠ 0 ∨ v = v0 ∨ v = v1 := by
    intro v0 d0 v1 d1 v hv
    by_cases h1 : v = v1
    · exact Or.inr (Or.inr h1)
    by_cases h0 : v = v0
    · exact Or.inr (Or.inl h0)
    rw [Function.update_of_ne h1, Function.update_of_ne h0] at hv
    exact Or.inl hv
  unfold installed at hout
  cases rvqFirst with
  | true =>
    simp only [if_true] at hout
    split at hout
    · cases hout
    rename_i e₂ hisr
    obtain ⟨hr, ht, rfl⟩ := installIsrs_spec hl hd hisr
    cases hout
    exact ⟨rfl, rfl, hr, ht, _, rfl, fun v => htable⟩
  | false =>
    simp only [Bool.false_eq_true, if_false] at hout
    split at hout
    · cases hout
    rename_i e₂ hisr
    obtain ⟨ht, hr, rfl⟩ := installIsrs_spec hl hd hisr
    cases hout
    exact ⟨rfl, rfl, hr, ht, _, rfl, fun v hv => (htable hv).imp_right Or.symm⟩

theorem masterVring_error {w : Nat} {p : ShmemParams} {addr : Nat} {env : InitEnv} {linkId : UInt32} {callback : VqCallback}
    {idx : Nat} {m m' : ByteMem} (h : masterVring w p addr env linkId callback idx m = .error m') (ha : p.align ≤ INT32_MAX) :
    env.vqAlloc idx = false := by
  by_contra hne
  rw [masterVring_eq ha (by simpa using hne)] at h
  cases h

theorem virtqueueCreate_error {w : Nat} {allocOk : Bool} {id : UInt16} {info : VringAllocInfo} {callback : VqCallback} {x : Int}
    (h : virtqueueCreate w allocOk id info callback = .error x) (ha : info.align ≤ INT32_MAX) : allocOk = false := by
  unfold virtqueueCreate at h
  rw [if_neg (Nat.not_lt.2 ha)] at h
  cases allocOk
  · rfl
  · cases h

theorem virtqueueCreate_align {w : Nat} {allocOk : Bool} {id : UInt16} {info : VringAllocInfo} {callback : VqCallback}
    {vq : Virtqueue} (h : virtqueueCreate w allocOk id info callback = .ok vq) : info.align ≤ INT32_MAX ∧ allocOk = true := by
  unfold virtqueueCreate at h
  split at h
  · cases h
  · rename_i ha
    cases allocOk
    · cases h
    · exact ⟨Nat.le_of_not_lt ha, rfl⟩

/-- The checks that both roles make first. -/
theorem InitArgs.accepted_none (h : c.linkId > P.highestLinkId ∨ c.addr = 0) : c.accepted P role = none := if_pos h

theorem masterInit_ends : InitEnds P .master a c e m (masterInit P a c e m) := by
  unfold masterInit
  split
  · rename_i hlink
    exact .refused (Or.inl (InitArgs.accepted_none (Or.inl hlink)))
  rename_i hlink
  split
  · rename_i haddr
    exact .refused (Or.inl (InitArgs.accepted_none (Or.inr haddr)))
  rename_i haddr
  have hacc : c.accepted P .master = (masterParams P.width c.cfg).filter fun p =>
      (rlCalculateBufferCountDownSafe P.width c.length p.overhead p.bufferSize).all fun count => 2 * p.count.toNat ≤ count := by
    unfold InitArgs.accepted
    rw [if_neg (not_or.2 ⟨hlink, haddr⟩)]
  split
  · rename_i hparams
    exact .refused (Or.inl (by rw [hacc, hparams, Option.filter_none]))
  rename_i p hparams
  rw [hparams] at hacc
  split
  · exact .stuck
  rename_i count hcalc
  rw [Option.filter_some, hcalc, Option.all_some] at hacc
  split
  · rename_i hcount
    exact .refused (Or.inl (by rw [hacc, if_neg (by simpa using hcount)]))
  rename_i hcount
  rw [if_pos (by simpa using hcount)] at hacc
  split
  · rename_i hinst
    exact .refused (Or.inr hinst)
  rename_i hinst
  split
  · exact .stuck
  · rename_i e₁ he
    exact .failed m hacc hinst (fun hc => Bool.false_ne_true (envInit_completes hc he)) he
  rename_i e₁ he
  -- from here on the environment is initialised, and no way out undoes it
  split
  · rename_i m₁ h0
    exact .failed m₁ hacc hinst (fun hc => hc.vq0 (by simpa [EnvAnswers.initEnv] using masterVring_error h0 hc.align)) he
  rename_i vq0 m₁ h0
  simp only
  split
  · rename_i m₂ h1
    rw [envFree_allocate]
    exact .failed m₂ hacc hinst (fun hc => hc.vq1 (by simpa [EnvAnswers.initEnv] using masterVring_error h1 hc.align)) he
  rename_i vq1 m₂ h1
  split
  · rename_i hlock
    rw [envFree_allocate_both]
    exact .failed m₂ hacc hinst (fun hc => hc.lock hlock) he
  rename_i hlock
  obtain ⟨-, halign, hv0, -⟩ := masterVring_ok h0
  obtain ⟨-, -, hv1, -⟩ := masterVring_ok h1
  have hv0 : a.vq 0 ≠ 0 := by simpa [EnvAnswers.initEnv] using hv0
  have hv1 : a.vq 1 ≠ 0 := by simpa [EnvAnswers.initEnv] using hv1
  rw [owning_eq hv0 hv1 hlock]
  split
  · rename_i dev m₃ hb
    refine .created hacc hinst ⟨?_, halign, hv0, hv1, hlock⟩ he (Or.inl rfl) rfl
    exact envInit_platform he
  · exact .stuck

theorem remoteInit_ends : InitEnds P .remote a c e m (remoteInit P a c e m) := by
  unfold remoteInit
  split
  · rename_i hlink
    exact .refused (Or.inl (InitArgs.accepted_none (Or.inl hlink)))
  rename_i hlink
  split
  · rename_i haddr
    exact .refused (Or.inl (InitArgs.accepted_none (Or.inr haddr)))
  rename_i haddr
  have hacc : c.accepted P .remote = remoteParams P.width c.cfg := by
    unfold InitArgs.accepted
    rw [if_neg (not_or.2 ⟨hlink, haddr⟩)]
  split
  · rename_i hparams
    exact .refused (Or.inl (hacc.trans hparams))
  rename_i p hparams
  rw [hparams] at hacc
  split
  · rename_i hinst
    exact .refused (Or.inr hinst)
  rename_i hinst
  split
  · exact .stuck
  · rename_i e₁ he
    exact .failed m hacc hinst (fun hc => Bool.false_ne_true (envInit_completes hc he)) he
  rename_i e₁ he
  split
  · rename_i x h0
    exact .failed m hacc hinst (fun hc => of_decide_eq_false (virtqueueCreate_error h0 hc.align) hc.vq0) he
  rename_i vq0 h0
  simp only
  split
  · rename_i x h1
    rw [envFree_allocate]
    exact .failed m hacc hinst (fun hc => of_decide_eq_false (virtqueueCreate_error h1 hc.align) hc.vq1) he
  rename_i vq1 h1
  split
  · rename_i hlock
    rw [envFree_allocate_both]
    exact .failed m hacc hinst (fun hc => hc.lock hlock) he
  rename_i hlock
  obtain ⟨halign, hv0⟩ := virtqueueCreate_align h0
  have hv0 := of_decide_eq_true hv0
  have hv1 := of_decide_eq_true (virtqueueCreate_align h1).2
  rw [owning_eq hv0 hv1 hlock]
  refine .created hacc hinst ⟨?_, halign, hv0, hv1, hlock⟩ he (Or.inr rfl) rfl
  exact envInit_platform he

theorem initCall_ends : InitEnds P role a c e m (initCall role P a c e m) := by
  cases role with
  | master => exact masterInit_ends
  | remote => exact remoteInit_ends

/-! ## The shared memory -/

/-- The memory part of an outcome, as the memory-level model gives it. -/
def InitOutcome.MemoryIs (m : ByteMem) (r : InitResult) : InitOutcome → Prop
  | .null _ m' => r = .failed m' ∨ r = .rejected ∧ m' = m
  | .created h _ m' => r = .instance h.dev m'
  | .stuck => True

theorem installed_memory {dev : RpmsgLiteInstance} {rvqFirst : Bool} {rvq tvq : Nat} {m' : ByteMem} :
    (installed P a e m' dev rvqFirst rvq tvq).MemoryIs m (.instance dev m') := by
  unfold installed
  simp only
  split
  · trivial
  · rfl

/-- The master's calls do to the shared memory what the memory-level model says. -/
theorem masterInit_memory : (masterInit P a c e m).MemoryIs m
    (rpmsgLiteMasterInit P.width (a.initEnv e) P.highestLinkId c.cfg c.addr c.length c.linkId m) := by
  unfold masterInit rpmsgLiteMasterInit
  split
  · exact Or.inr ⟨rfl, rfl⟩
  split
  · exact Or.inr ⟨rfl, rfl⟩
  cases masterParams P.width c.cfg with
  | none => exact Or.inr ⟨rfl, rfl⟩
  | some p =>
    cases hcalc : rlCalculateBufferCountDownSafe P.width c.length p.overhead p.bufferSize with
    | none => simp only [hcalc]; trivial
    | some count =>
      simp only [hcalc]
      split
      · exact Or.inr ⟨rfl, rfl⟩
      by_cases hinst : a.inst = 0
      · rw [if_pos hinst, if_pos (by simpa [EnvAnswers.initEnv] using hinst)]
        exact Or.inr ⟨rfl, rfl⟩
      rw [if_neg hinst, if_neg (by simpa [EnvAnswers.initEnv] using hinst)]
      cases he : (e.envAllocateMemory a.inst).envInit a.platformLock with
      | none => trivial
      | some x =>
        obtain ⟨ok, e₁⟩ := x
        have hok := envInit_ok _ he
        rw [envAllocate_counter] at hok
        cases ok with
        | false =>
          rw [if_pos (by simpa [EnvAnswers.initEnv] using hok)]
          exact Or.inr ⟨rfl, rfl⟩
        | true =>
          rw [if_neg (by simpa [EnvAnswers.initEnv] using hok)]
          -- the vring loop only asks whether the virtqueue could be allocated
          have hvring : ∀ e', masterVring P.width p c.addr (a.initEnv e') = masterVring P.width p c.addr (a.initEnv e) :=
            fun _ => rfl
          simp only [hvring]
          cases h0 : masterVring P.width p c.addr (a.initEnv e) c.linkId .rxCallback 0 m with
          | error m₁ => exact Or.inl rfl
          | ok x =>
            cases h1 : masterVring P.width p c.addr (a.initEnv e) c.linkId .txCallback 1 x.2 with
            | error m₂ =>
              simp only [h1]
              exact Or.inl rfl
            | ok y =>
              simp only [h1]
              by_cases hlock : a.lock = 0
              · rw [if_pos hlock, if_pos (by simpa [EnvAnswers.initEnv] using hlock)]
                exact Or.inl rfl
              rw [if_neg hlock, if_neg (by simpa [EnvAnswers.initEnv] using hlock)]
              cases hb : masterBuffers P.width p c.addr c.linkId (wrap 32 count) x.1 y.1 y.2 with
              | «instance» dev m₃ => exact installed_memory
              | rejected => trivial
              | failed => trivial
              | stuck => trivial

/-- The remote's calls agree with the memory-level model, and leave the shared memory alone. -/
theorem remoteInit_memory : (remoteInit P a c e m).MemoryIs m
    ((rpmsgLiteRemoteInit P.width (a.initEnv e) P.highestLinkId c.cfg c.addr c.linkId).elim .rejected (.instance · m)) := by
  unfold remoteInit rpmsgLiteRemoteInit
  split
  · exact Or.inr ⟨rfl, rfl⟩
  split
  · exact Or.inr ⟨rfl, rfl⟩
  cases remoteParams P.width c.cfg with
  | none => exact Or.inr ⟨rfl, rfl⟩
  | some p =>
    simp only
    by_cases hinst : a.inst = 0
    · rw [if_pos hinst, if_pos (by simpa [EnvAnswers.initEnv] using hinst)]
      exact Or.inr ⟨rfl, rfl⟩
    rw [if_neg hinst, if_neg (by simpa [EnvAnswers.initEnv] using hinst)]
    cases he : (e.envAllocateMemory a.inst).envInit a.platformLock with
    | none => trivial
    | some x =>
      obtain ⟨ok, e₁⟩ := x
      have hok := envInit_ok _ he
      rw [envAllocate_counter] at hok
      cases ok with
      | false =>
        rw [if_pos (by simpa [EnvAnswers.initEnv] using hok)]
        exact Or.inr ⟨rfl, rfl⟩
      | true =>
        rw [if_neg (by simpa [EnvAnswers.initEnv] using hok)]
        have hvq : ∀ idx, (a.initEnv e).vqAlloc idx = decide (a.vq idx ≠ 0) := fun _ => rfl
        simp only [hvq]
        cases virtqueueCreate P.width (decide (a.vq 0 ≠ 0)) (rlGetVqId c.linkId 0) (vringAllocInfo P.width p c.addr 0)
          .txCallback with
        | error => exact Or.inr ⟨rfl, rfl⟩
        | ok vq0 =>
          simp only
          cases virtqueueCreate P.width (decide (a.vq 1 ≠ 0)) (rlGetVqId c.linkId 1) (vringAllocInfo P.width p c.addr 1)
            .rxCallback with
          | error => exact Or.inr ⟨rfl, rfl⟩
          | ok vq1 =>
            simp only
            by_cases hlock : a.lock = 0
            · rw [if_pos hlock, if_pos (by simpa [EnvAnswers.initEnv] using hlock)]
              exact Or.inr ⟨rfl, rfl⟩
            rw [if_neg hlock, if_neg (by simpa [EnvAnswers.initEnv] using hlock)]
            exact installed_memory

end

end RpmsgLite
