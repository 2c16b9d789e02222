/-
The two initialisations statement by statement. A statement of `rpmsg_lite_master_init` stores to the shared memory, or
changes what only its core sees, or kicks; the statements of `rpmsg_lite_remote_init` have no access to the shared memory.
Run to the end without anything in between they are the functions of the initialisation.
-/
import RpmsgLite.Irq.Install

namespace RpmsgLite

open ByteMem MaskArith

namespace LinkUp

/-! ## Statements -/

/-- The end of both functions: `platform_init_interrupt`, `env_disable_interrupt` and `env_enable_interrupt`. -/
inductive IsrOp
  | platformInitInterrupt (q : Queue)
  | envDisableInterrupt
  | envEnableInterrupt
deriving DecidableEq

/-- The statements of `rpmsg_lite_master_init` after its argument checks. -/
inductive MasterOp
  | envInit
  /-- `env_memset` of the vring -/
  | memset (q : Queue)
  | virtqueueCreate (q : Queue)
  | vqRingInit (q : Queue)
  | virtqueueDisableCb (q : Queue)
  | envCreateMutex
  /-- the next buffer, and its `env_memset` -/
  | memsetBuffer
  /-- `virtqueue_fill_avail_buffers` or `virtqueue_fill_used_buffers` -/
  | fillBuffer (q : Queue)
  | isr (op : IsrOp)
  /-- `link_state = 1` -/
  | linkUp
  /-- `virtqueue_kick(rvq)` -/
  | virtqueueKick
deriving DecidableEq

/-- The statements of `rpmsg_lite_remote_init` after its argument checks. -/
inductive RemoteOp
  /-- `env_memset` of the instance -/
  | memset
  | envInit
  | virtqueueCreate (q : Queue)
  | envCreateMutex
  /-- `tvq` and `rvq`, with the fields that nobody reads before the return -/
  | setQueues
  /-- `link_state = 0` -/
  | linkDown
  | isr (op : IsrOp)
deriving DecidableEq

/-- The statements that store to the shared memory. -/
def MasterOp.stores : MasterOp → Bool
  | .memset _ | .vqRingInit _ | .virtqueueDisableCb _ | .memsetBuffer | .fillBuffer _ => true
  | _ => false

/-- The statements that write the link state of the remote. -/
def RemoteOp.linkState : RemoteOp → Bool
  | .memset | .linkDown => true
  | _ => false

/-- The index of a queue in `vqs`, and its vring. -/
def vqIdx : Role → Queue → Nat
  | .master, .rvq => 0
  | .master, .tvq => 1
  | .remote, .tvq => 0
  | .remote, .rvq => 1

def callback : Queue → VqCallback
  | .rvq => .rxCallback
  | .tvq => .txCallback

def vringOps (q : Queue) : List MasterOp := [.memset q, .virtqueueCreate q, .vqRingInit q, .virtqueueDisableCb q]

def bufferOps (q : Queue) (n : Nat) : List MasterOp := (List.replicate n [.memsetBuffer, .fillBuffer q]).flatten

def installOps : List MasterOp :=
  [.isr (.platformInitInterrupt .rvq), .isr (.platformInitInterrupt .tvq), .isr .envDisableInterrupt,
    .isr .envDisableInterrupt, .linkUp, .isr .envEnableInterrupt, .isr .envEnableInterrupt]

/-- `n` is the number of buffers of a vring. -/
def masterOps (n : Nat) : List MasterOp :=
  .envInit :: (vringOps .rvq ++ vringOps .tvq ++ [.envCreateMutex] ++ bufferOps .rvq n ++ bufferOps .tvq n ++ installOps ++
    [.virtqueueKick])

def remoteOps : List RemoteOp :=
  [.memset, .envInit, .virtqueueCreate .tvq, .virtqueueCreate .rvq, .envCreateMutex, .setQueues, .linkDown,
    .isr (.platformInitInterrupt .tvq), .isr (.platformInitInterrupt .rvq), .isr .envDisableInterrupt,
    .isr .envDisableInterrupt, .isr .envEnableInterrupt, .isr .envEnableInterrupt]

/-! ## What they do -/

/-- The arguments of an initialisation, with its platform. -/
structure Core where
  w : Nat
  cfg : ShmemConfig
  addr : Nat
  linkId : UInt32
  highestLinkId : UInt32
  env : InitEnv
  platformInitInterrupt : UInt32 → Queue → IsrState → IsrState

/-- The variables of `rpmsg_lite_master_init`; a NULL in `vqs` is `none`. -/
structure MasterVars where
  p : ShmemParams
  total : Nat
  remaining : Nat
  buffer : Nat
  vqs : Queue → Option Virtqueue
  linkState : Bool
  isr : IsrState

/-- The variables of `rpmsg_lite_remote_init`, with the instance as its core sees it. -/
structure RemoteVars where
  p : ShmemParams
  vqs : Queue → Option Virtqueue
  side : Side
  isr : IsrState

section Exec

variable (k : Core)

/-- The virtqueue id of a queue, which is its vector. -/
def Core.vqId (r : Role) (q : Queue) : UInt16 := rlGetVqId k.linkId (vqIdx r q)

def IsrOp.exec (r : Role) (i : IsrState) : IsrOp → IsrState
  | .platformInitInterrupt q => k.platformInitInterrupt (k.vqId r q).toUInt32 q i
  | .envDisableInterrupt => i.platformInterruptDisable
  | .envEnableInterrupt => i.platformInterruptEnable

/-- `virtqueue_create` of a queue. -/
def Core.create (r : Role) (p : ShmemParams) (q : Queue) : Except Int Virtqueue :=
  virtqueueCreate k.w (k.env.vqAlloc (vqIdx r q)) (k.vqId r q) (vringAllocInfo k.w p k.addr (vqIdx r q)) (callback q)

/-- `none` is a return with NULL or a failed assertion: nothing follows. -/
def MasterOp.exec (v : MasterVars) (m : ByteMem) : MasterOp → Option (MasterVars × ByteMem)
  | .envInit => if k.env.envInit then some (v, m) else none
  | .memset q =>
    let info := vringAllocInfo k.w v.p k.addr (vqIdx .master q)
    some (v, m.fill info.phyAddr (vringSize k.w info.numDescs.toNat info.align) 0)
  | .virtqueueCreate q =>
    match k.create .master v.p q with
    | .error _ => none
    | .ok vq => some ({ v with vqs := Function.update v.vqs q (some vq) }, m)
  | .vqRingInit q => (v.vqs q).map fun vq => (v, RpmsgLite.vqRingInit vq m)
  | .virtqueueDisableCb q => (v.vqs q).map fun vq => (v, RpmsgLite.virtqueueDisableCb vq m)
  | .envCreateMutex => if k.env.mutex then some (v, m) else none
  | .memsetBuffer =>
    let buffer := nextBuffer k.w v.p k.addr v.total v.remaining
    if buffer = 0 then none
    else some ({ v with buffer, remaining := v.remaining - 1 }, m.fill buffer v.p.bufferSize 0)
  | .fillBuffer q =>
    (v.vqs q).map fun vq =>
      let r := fillBuffers (q = .rvq) vq m v.buffer (UInt32.ofNat v.p.bufferSize)
      ({ v with vqs := Function.update v.vqs q (some r.1) }, r.2)
  | .isr op => some ({ v with isr := op.exec k .master v.isr }, m)
  | .linkUp => some ({ v with linkState := true }, m)
  | .virtqueueKick =>
    (v.vqs .rvq).map fun vq => ({ v with vqs := Function.update v.vqs .rvq (some (RpmsgLite.virtqueueKick vq m).1) }, m)

/-- What a statement passes to `platform_notify`. -/
def MasterOp.notifies (v : MasterVars) (m : ByteMem) : MasterOp → List UInt32
  | .virtqueueKick => if (v.vqs .rvq).any fun vq => (RpmsgLite.virtqueueKick vq m).2 then [(k.vqId .master .rvq).toUInt32] else []
  | _ => []

def RemoteOp.exec (v : RemoteVars) : RemoteOp → Option RemoteVars
  | .memset => some { v with side := { v.side with dev := { v.side.dev with linkState := false } } }
  | .envInit => if k.env.envInit then some v else none
  | .virtqueueCreate q =>
    match k.create .remote v.p q with
    | .error _ => none
    | .ok vq => some { v with vqs := Function.update v.vqs q (some vq) }
  | .envCreateMutex => if k.env.mutex then some v else none
  | .setQueues =>
    (v.vqs .rvq).bind fun rvq => (v.vqs .tvq).map fun tvq =>
      { v with side := { v.side with dev :=
        { role := .remote, rvq, tvq, linkId := k.linkId, linkState := v.side.dev.linkState,
          shMemBase := shMemBase k.w v.p k.addr, shMemRemaining := 0, shMemTotal := 0 } } }
  | .linkDown => some { v with side := { v.side with dev := { v.side.dev with linkState := false } } }
  | .isr op => some { v with isr := op.exec k .remote v.isr }

/-- The statements one after the other. -/
def MasterOp.execs : List MasterOp → MasterVars → ByteMem → Option (MasterVars × ByteMem)
  | [], v, m => some (v, m)
  | op :: ops, v, m => (op.exec k v m).bind fun x => MasterOp.execs ops x.1 x.2

def RemoteOp.execs : List RemoteOp → RemoteVars → Option RemoteVars
  | [], v => some v
  | op :: ops, v => (op.exec k v).bind fun v => RemoteOp.execs ops v

/-- The checks of `rpmsg_lite_master_init`, up to the allocation of the instance. -/
def Core.masterEnter (length : Nat) (isr : IsrState) : Option (List MasterOp × MasterVars) :=
  if k.linkId > k.highestLinkId then none
  else if k.addr = 0 then none
  else match masterParams k.w k.cfg with
    | none => none
    | some p =>
      match rlCalculateBufferCountDownSafe k.w length p.overhead p.bufferSize with
      | none => none
      | some count =>
        if 2 * p.count.toNat > count then none
        else if !k.env.instanceAlloc then none
        else some (masterOps (min p.count.toNat (wrap 32 count)),
          ⟨p, wrap 32 count, wrap 32 count, 0, fun _ => none, false, isr⟩)

/-- The checks of `rpmsg_lite_remote_init`, up to the allocation of the instance, which holds anything. -/
def Core.remoteEnter (old : RpmsgLiteInstance) (isr : IsrState) : Option (List RemoteOp × RemoteVars) :=
  if k.linkId > k.highestLinkId then none
  else if k.addr = 0 then none
  else match remoteParams k.w k.cfg with
    | none => none
    | some p => if !k.env.instanceAlloc then none else some (remoteOps, ⟨p, fun _ => none, Side.start old, isr⟩)

end Exec

/-! ## The functions of the initialisation -/

section

variable {k : Core} {length : Nat} {isr : IsrState} {m m' : ByteMem} {dev : RpmsgLiteInstance} {v : MasterVars} {q : Queue}

theorem MasterOp.execs_append (ops ops' : List MasterOp) (v : MasterVars) (m : ByteMem) :
    MasterOp.execs k (ops ++ ops') v m = (MasterOp.execs k ops v m).bind fun x => MasterOp.execs k ops' x.1 x.2 := by
  induction ops generalizing v m with
  | nil => rfl
  | cons op ops ih =>
    simp only [List.cons_append, MasterOp.execs, Option.bind_assoc]
    exact Option.bind_congr fun x _ => ih x.1 x.2

theorem execs_trans {ops ops' : List MasterOp} {v' : MasterVars} (h : MasterOp.execs k ops v m = some (v', m')) :
    MasterOp.execs k (ops ++ ops') v m = MasterOp.execs k ops' v' m' := by
  rw [MasterOp.execs_append, h]
  rfl

/-- The end of the function touches only what its core sees. -/
theorem execs_installOps (v : MasterVars) :
    ∃ i, MasterOp.execs k installOps v m = some ({ v with linkState := true, isr := i }, m) := ⟨_, rfl⟩

theorem Core.create_eq {r : Role} {p : ShmemParams} (ha : p.align ≤ INT32_MAX) (halloc : k.env.vqAlloc (vqIdx r q) = true) :
    k.create r p q = .ok (initVq k.w p k.addr k.linkId (callback q) (vqIdx r q)) := by
  unfold Core.create virtqueueCreate
  rw [if_neg (show ¬ (vringAllocInfo k.w p k.addr (vqIdx r q)).align > INT32_MAX from Nat.not_lt.2 ha), halloc]
  rfl

/-- One turn of the vring loop. -/
theorem execs_vringOps (ha : v.p.align ≤ INT32_MAX) (halloc : k.env.vqAlloc (vqIdx .master q) = true) (m : ByteMem) :
    MasterOp.execs k (vringOps q) v m =
      some ({ v with vqs := Function.update v.vqs q (some (initVq k.w v.p k.addr k.linkId (callback q) (vqIdx .master q))) },
        vringMem (vringSize k.w v.p.count.toNat v.p.align)
          (initVq k.w v.p k.addr k.linkId (callback q) (vqIdx .master q)) m) := by
  simp only [vringOps, MasterOp.execs, MasterOp.exec, Core.create_eq ha halloc, Option.bind_some, Function.update_self,
    Option.map_some]
  rfl

/-- The inner buffer loop. -/
theorem execs_bufferOps {n : Nat} {vq : Virtqueue} {st : FillState} (hvq : v.vqs q = some vq)
    (h : masterFillLoop k.w v.p k.addr (q = .rvq) v.total n ⟨vq, m, v.remaining⟩ = some st) :
    ∃ b, MasterOp.execs k (bufferOps q n) v m =
      some ({ v with vqs := Function.update v.vqs q (some st.vq), remaining := st.remaining, buffer := b }, st.m) := by
  induction n generalizing v m vq with
  | zero =>
    cases h
    refine ⟨v.buffer, ?_⟩
    have hself : Function.update v.vqs q (some vq) = v.vqs := by
      rw [← hvq]
      exact Function.update_eq_self q v.vqs
    simp only [hself]
    rfl
  | succ n ih =>
    obtain ⟨st₁, hfill, hloop⟩ := Option.bind_eq_some_iff.1 h
    unfold masterFill at hfill
    simp only at hfill
    split at hfill
    · cases hfill
    · rename_i hbuf
      cases hfill
      obtain ⟨b, hb⟩ := ih (v := { v with
          vqs := Function.update v.vqs q (some (fillBuffers (q = .rvq) vq
            (m.fill (nextBuffer k.w v.p k.addr v.total v.remaining) v.p.bufferSize 0)
            (nextBuffer k.w v.p k.addr v.total v.remaining) (UInt32.ofNat v.p.bufferSize)).1)
          remaining := v.remaining - 1
          buffer := nextBuffer k.w v.p k.addr v.total v.remaining }) (Function.update_self ..) hloop
      refine ⟨b, ?_⟩
      simp only [Function.update_idem] at hb
      show MasterOp.execs k (.memsetBuffer :: .fillBuffer q :: bufferOps q n) v m = _
      simp only [MasterOp.execs, MasterOp.exec, if_neg hbuf, Option.bind_some, hvq, Option.map_some]
      exact hb

/-- `rpmsg_lite_master_init` is its statements run one after the other. -/
theorem masterEnter_execs (isr : IsrState)
    (h : rpmsgLiteMasterInit k.w k.env k.highestLinkId k.cfg k.addr length k.linkId m = .instance dev m') :
    ∃ ops v v', k.masterEnter length isr = some (ops, v) ∧ MasterOp.execs k ops v m = some (v', m') ∧
      v'.vqs .rvq = some dev.rvq ∧ v'.vqs .tvq = some dev.tvq ∧ v'.linkState = dev.linkState := by
  have hlink := masterInit_linkId h
  obtain ⟨p, count, hrun⟩ := masterInit_run h
  have hne := hrun.addr_ne
  have hle := hrun.enough
  have hsucc := hrun.alloc
  have henter : k.masterEnter length isr = some (masterOps (min p.count.toNat (wrap 32 count)),
      ⟨p, wrap 32 count, wrap 32 count, 0, fun _ => none, false, isr⟩) := by
    unfold Core.masterEnter
    rw [if_neg (UInt32.not_lt.2 hlink), if_neg hne, hrun.params]
    simp only [hrun.calc_eq]
    rw [if_neg (Nat.not_lt.2 hle), hsucc.instanceAlloc]
    rfl
  have hbuf := hrun.buffers
  unfold masterBuffers at hbuf
  split at hbuf
  · cases hbuf
  rename_i st₀ hst₀
  split at hbuf
  · cases hbuf
  rename_i st₁ hst₁
  cases hbuf
  let v₀ : MasterVars := ⟨p, wrap 32 count, wrap 32 count, 0, fun _ => none, false, isr⟩
  let vqs₁ := Function.update v₀.vqs .rvq (some (initVq k.w p k.addr k.linkId .rxCallback 0))
  let vqs₂ := Function.update vqs₁ .tvq (some (initVq k.w p k.addr k.linkId .txCallback 1))
  have hring₀ := execs_vringOps (v := v₀) (q := .rvq) hrun.align_le hsucc.vqAlloc0 m
  have hring₁ := execs_vringOps (v := { v₀ with vqs := vqs₁ }) (q := .tvq) hrun.align_le hsucc.vqAlloc1
    (vringMem (vringSize k.w p.count.toNat p.align) (initVq k.w p k.addr k.linkId .rxCallback 0) m)
  obtain ⟨b₀, hfill₀⟩ := execs_bufferOps (v := { v₀ with vqs := vqs₂ }) (q := .rvq) rfl hst₀
  obtain ⟨b₁, hfill₁⟩ := execs_bufferOps (q := .tvq)
    (v := { v₀ with vqs := Function.update vqs₂ .rvq (some st₀.vq), remaining := st₀.remaining, buffer := b₀ }) rfl hst₁
  let vqs₃ := Function.update (Function.update vqs₂ .rvq (some st₀.vq)) .tvq (some st₁.vq)
  let v₃ : MasterVars := { v₀ with vqs := vqs₃, remaining := st₁.remaining, buffer := b₁ }
  obtain ⟨i, hinstall⟩ := execs_installOps (k := k) (m := st₁.m) v₃
  let v₄ : MasterVars := { v₃ with linkState := true, isr := i }
  have hkick : MasterOp.execs k [.virtqueueKick] v₄ st₁.m =
      some ({ v₄ with vqs := Function.update v₄.vqs .rvq (some (virtqueueKick st₀.vq st₁.m).1) }, st₁.m) := rfl
  have hops : MasterOp.execs k (masterOps (min p.count.toNat (wrap 32 count))) v₀ m =
      MasterOp.execs k [.virtqueueKick] v₄ st₁.m := by
    unfold masterOps
    rw [MasterOp.execs, MasterOp.exec, if_pos hsucc.envInit, Option.bind_some]
    simp only [List.append_assoc]
    refine (execs_trans hring₀).trans ((execs_trans hring₁).trans ?_)
    rw [List.singleton_append, MasterOp.execs, MasterOp.exec, if_pos hsucc.mutex, Option.bind_some]
    exact (execs_trans hfill₀).trans ((execs_trans hfill₁).trans (execs_trans hinstall))
  exact ⟨_, _, _, henter, hops.trans hkick, rfl, rfl, rfl⟩

/-- `rpmsg_lite_remote_init` is its statements run one after the other. -/
theorem remoteEnter_execs {old : RpmsgLiteInstance}
    (h : rpmsgLiteRemoteInit k.w k.env k.highestLinkId k.cfg k.addr k.linkId = some dev) :
    ∃ ops v v', k.remoteEnter old isr = some (ops, v) ∧ RemoteOp.execs k ops v = some v' ∧ v'.side = Side.start dev := by
  unfold rpmsgLiteRemoteInit at h
  split at h
  · cases h
  rename_i hlink
  split at h
  · cases h
  rename_i hne
  split at h
  · cases h
  rename_i p hp
  split at h
  · cases h
  rename_i halloc
  split at h
  · cases h
  rename_i hinit
  split at h
  · cases h
  rename_i vq₀ hvq₀
  split at h
  · cases h
  rename_i vq₁ hvq₁
  split at h
  · cases h
  rename_i hmutex
  cases h
  have hcreate₀ : k.create .remote p .tvq = .ok vq₀ := hvq₀
  have hcreate₁ : k.create .remote p .rvq = .ok vq₁ := hvq₁
  have hinit : k.env.envInit = true := by simpa using hinit
  have hmutex : k.env.mutex = true := by simpa using hmutex
  have henter : k.remoteEnter old isr = some (remoteOps, ⟨p, fun _ => none, Side.start old, isr⟩) := by
    unfold Core.remoteEnter
    rw [if_neg hlink, if_neg hne, hp]
    exact if_neg halloc
  have hexecs : ∃ v', RemoteOp.execs k remoteOps ⟨p, fun _ => none, Side.start old, isr⟩ = some v' ∧
      v'.side = Side.start { role := .remote, rvq := vq₁, tvq := vq₀, linkId := k.linkId, linkState := false,
                             shMemBase := shMemBase k.w p k.addr, shMemRemaining := 0, shMemTotal := 0 } := by
    simp only [remoteOps, RemoteOp.execs, RemoteOp.exec, hinit, hmutex, if_true, hcreate₀, hcreate₁, Option.bind_some]
    exact ⟨_, rfl, rfl⟩
  obtain ⟨v', hexecs, hside⟩ := hexecs
  exact ⟨_, _, v', henter, hexecs, hside⟩

end

end LinkUp

end RpmsgLite
