/-
The interrupt side of the initialisations. `rpmsg_lite_master_init` and `rpmsg_lite_remote_init` register
their two virtqueues and disable and enable the interrupt around the link state; a platform fills in
`platform_init_interrupt`. Two cores that are through with it start with every queue empty and covered.
-/
import RpmsgLite.Irq.Coverage

namespace RpmsgLite

/-! ## Enabling and registering -/

/-- `platform_interrupt_disable` -/
def IsrState.platformInterruptDisable (i : IsrState) : IsrState :=
  let i := if i.disableCounter = 0 then { i with nvic := false } else i
  { i with disableCounter := i.disableCounter + 1 }

/-- `platform_interrupt_enable` -/
def IsrState.platformInterruptEnable (i : IsrState) : IsrState :=
  let i := { i with disableCounter := i.disableCounter - 1 }
  if i.disableCounter = 0 then { i with nvic := true } else i

/-- "Install ISRs" of the two initialisations: the master registers its rvq first, the remote its tvq. -/
def RpmsgLiteInstance.installIsrs (dev : RpmsgLiteInstance) (platformInitInterrupt : UInt32 → Queue → IsrState → IsrState) :
    List (IsrState → IsrState) :=
  match dev.role with
  | .master =>
    [platformInitInterrupt (dev.vector .rvq) .rvq, platformInitInterrupt (dev.vector .tvq) .tvq,
      IsrState.platformInterruptDisable, IsrState.platformInterruptDisable, IsrState.platformInterruptEnable,
      IsrState.platformInterruptEnable]
  | .remote =>
    [platformInitInterrupt (dev.vector .tvq) .tvq, platformInitInterrupt (dev.vector .rvq) .rvq,
      IsrState.platformInterruptDisable, IsrState.platformInterruptDisable, IsrState.platformInterruptEnable,
      IsrState.platformInterruptEnable]

/-- `platform_init_interrupt` registers the virtqueue; what else it does is the platform's. -/
def Registers (platformInitInterrupt : UInt32 → Queue → IsrState → IsrState) : Prop :=
  ∀ v q i, (platformInitInterrupt v q i).isrTable = (i.envRegisterIsr v q).isrTable

@[simp] theorem IsrState.platformInterruptDisable_isrTable (i : IsrState) :
    i.platformInterruptDisable.isrTable = i.isrTable := by
  unfold platformInterruptDisable
  split
  · rfl
  · rfl

@[simp] theorem IsrState.platformInterruptEnable_isrTable (i : IsrState) :
    i.platformInterruptEnable.isrTable = i.isrTable := by
  unfold platformInterruptEnable
  dsimp only
  split
  · rfl
  · rfl

theorem IsrState.envRegisterIsr_self {i : IsrState} {v : UInt32} {q : Queue} (hv : v < ISR_COUNT) :
    (i.envRegisterIsr v q).isrTable v = some q := by
  unfold envRegisterIsr
  rw [if_pos hv]
  exact Function.update_self ..

theorem IsrState.envRegisterIsr_of_ne {i : IsrState} {v v' : UInt32} {q : Queue} (h : v ≠ v') :
    (i.envRegisterIsr v' q).isrTable v = i.isrTable v := by
  unfold envRegisterIsr
  split
  · exact Function.update_of_ne h _ _
  · rfl

section

variable {init : UInt32 → Queue → IsrState → IsrState}

theorem Registers.self (hi : Registers init) {v : UInt32} {q : Queue} {i : IsrState} (hv : v < ISR_COUNT) :
    (init v q i).isrTable v = some q := by
  rw [hi]
  exact IsrState.envRegisterIsr_self hv

theorem Registers.of_ne (hi : Registers init) {v v' : UInt32} {q : Queue} {i : IsrState} (h : v ≠ v') :
    (init v' q i).isrTable v = i.isrTable v := by
  rw [hi]
  exact IsrState.envRegisterIsr_of_ne h

/-- After `installIsrs` both virtqueues are registered. -/
theorem RpmsgLiteInstance.installIsrs_isrTable {dev : RpmsgLiteInstance} (hi : Registers init)
    (hv : ∀ z, dev.vector z < ISR_COUNT) (hne : dev.vector .rvq ≠ dev.vector .tvq) (i : IsrState) (z : Queue) :
    ((dev.installIsrs init).foldl (fun i f => f i) i).isrTable (dev.vector z) = some z := by
  unfold installIsrs
  split
  · simp only [List.foldl_cons, List.foldl_nil, IsrState.platformInterruptEnable_isrTable,
      IsrState.platformInterruptDisable_isrTable]
    cases z with
    | rvq => rw [hi.of_ne hne, hi.self (hv .rvq)]
    | tvq => rw [hi.self (hv .tvq)]
  · simp only [List.foldl_cons, List.foldl_nil, IsrState.platformInterruptEnable_isrTable,
      IsrState.platformInterruptDisable_isrTable]
    cases z with
    | rvq => rw [hi.self (hv .rvq)]
    | tvq => rw [hi.of_ne hne.symm, hi.self (hv .tvq)]

end

/-! ## Two initialised cores -/

/-- Both cores have installed their interrupt service routines over what `platform_init` has set up; the kick
that ends `rpmsg_lite_master_init` is under way. -/
def Sys.booted {P : Port} (l : Link) (hw : P.Hw) (platformInit : IsrState)
    (platformInitInterrupt : UInt32 → Queue → IsrState → IsrState) : Sys P where
  link := l
  hw := hw
  cpu r :=
    { boot := [], isr := ((l.side r).dev.installIsrs platformInitInterrupt).foldl (fun i f => f i) platformInit,
      kicks := match r with
        | .master => [⟨some .rvq, none⟩]
        | .remote => [],
      irq := .idle, unwoken := false }

/-- Right after the initialisations no message is under way. -/
theorem Link.start_queueIds {W : Pools} {m : ByteMem} {dm dr : RpmsgLiteInstance}
    (h : (Link.start m dm dr).Notifying W) (q : Role) : (Link.start m dm dr).queueIds q = [] := by
  obtain ⟨P, hinv⟩ := h.inv
  have hlen := hinv.queue_length q
  have hsent : ((Link.start m dm dr).side q).tx.sent = [] := by
    cases q with
    | master => rfl
    | remote => rfl
  rw [hsent, List.length_nil] at hlen
  exact List.eq_nil_of_length_eq_zero (by omega)

theorem Sys.booted_allCovered {P : Port} {L : P.Carries} {W : Pools} {c : SysConfig} {m : ByteMem}
    {dm dr : RpmsgLiteInstance} {hw : P.Hw} {platformInit : IsrState} {init : UInt32 → Queue → IsrState → IsrState}
    (hn : (Link.start m dm dr).Notifying W) (hi : Registers init)
    (hvalid : ∀ r z, L.valid (((Link.start m dm dr).side r).dev.vector z))
    (hcount : ∀ r z, ((Link.start m dm dr).side r).dev.vector z < ISR_COUNT) :
    (Sys.booted (Link.start m dm dr) hw platformInit init).AllCovered L W c := by
  refine ⟨hn, ⟨fun r => rfl, fun r z => ?_⟩, hvalid, fun q => ?_, fun _ q => ?_⟩
  · exact RpmsgLiteInstance.installIsrs_isrTable hi (hcount r) (hn.wired.distinct r) platformInit z
  · exact Or.inl (Link.start_queueIds hn q.peer)
  · exact Or.inl rfl

/-! ## Link ids -/

/-- A link id the platform does not have is rejected. -/
theorem masterInit_linkId {w : Nat} {addr : Nat} {env : InitEnv} {highest linkId : UInt32} {cfg : ShmemConfig} {length : Nat}
    {m m' : ByteMem} {dev : RpmsgLiteInstance}
    (h : rpmsgLiteMasterInit w env highest cfg addr length linkId m = .instance dev m') : linkId ≤ highest := by
  unfold rpmsgLiteMasterInit at h
  split at h
  · cases h
  · rename_i hid
    exact UInt32.not_lt.1 hid

end RpmsgLite
