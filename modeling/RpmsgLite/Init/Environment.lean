/-
The environment and platform layers under the two init functions: bare-metal environment, mailbox
platform. Their file-scope variables and what they own are one record, and `none` is a failed
`RL_ASSERT`, which loops. An argument that is a pointer is the answer of the allocator, 0 for NULL.
-/
import Mathlib.Data.Multiset.AddSub
import Mathlib.Logic.Function.Basic
import RpmsgLite.Init.Setup

namespace RpmsgLite

/-- The variables of `rpmsg_env_bm.c` and `rpmsg_platform.c`, with the blocks and locks in use. -/
structure EnvState where
  /-- Blocks from `env_allocate_memory` that have not been freed. -/
  heap : Multiset Nat
  /-- Locks from `env_create_mutex` that have not been deleted. -/
  mutexes : Multiset Nat
  envInitCounter : Int
  isrTable : Nat → Nat
  platformLock : Nat
  /-- Between `MAILBOX_Init` and `MAILBOX_Deinit`. -/
  mailbox : Bool
  isrCounter : Int
  disableCounter : Int
  /-- `MAILBOX_IRQn` in the interrupt controller -/
  irqEnabled : Bool
  /-- How often `platform_init` and `platform_deinit` completed. -/
  platformInits : Nat
  platformDeinits : Nat

/-- Static storage before the first call. -/
def EnvState.reset : EnvState where
  heap := 0
  mutexes := 0
  envInitCounter := 0
  isrTable := fun _ => 0
  platformLock := 0
  mailbox := false
  isrCounter := 0
  disableCounter := 0
  irqEnabled := false
  platformInits := 0
  platformDeinits := 0

namespace EnvState

variable (e : EnvState)

/-! ## Memory and locks -/

def envAllocateMemory (ptr : Nat) : EnvState :=
  if ptr = 0 then e else { e with heap := ptr ::ₘ e.heap }

def envFreeMemory (ptr : Nat) : EnvState :=
  if ptr = 0 then e else { e with heap := e.heap.erase ptr }

def envCreateMutex (lock : Nat) : EnvState :=
  if lock = 0 then e else { e with mutexes := lock ::ₘ e.mutexes }

def envDeleteMutex (lock : Nat) : EnvState := { e with mutexes := e.mutexes.erase lock }

theorem envFree_allocate (ptr : Nat) : (e.envAllocateMemory ptr).envFreeMemory ptr = e := by
  unfold envAllocateMemory envFreeMemory
  split
  · rfl
  · simp only [Multiset.erase_cons_head]

@[simp] theorem envAllocate_counter (ptr : Nat) : (e.envAllocateMemory ptr).envInitCounter = e.envInitCounter := by
  unfold envAllocateMemory
  split
  · rfl
  · rfl

@[simp] theorem envFree_counter (ptr : Nat) : (e.envFreeMemory ptr).envInitCounter = e.envInitCounter := by
  unfold envFreeMemory
  split
  · rfl
  · rfl

/-! ## `platform_init` and `platform_deinit` -/

/-- A failed `env_create_mutex` leaves the mailbox initialised. -/
def platformInit (lock : Nat) : Bool × EnvState :=
  let e := { e with mailbox := true }
  if lock = 0 then (false, e)
  else (true, { e.envCreateMutex lock with platformLock := lock, platformInits := e.platformInits + 1 })

/-- Waits until the other core has read its mailbox; `drained` says whether it does. -/
def platformDeinit (drained : Bool) : Option EnvState :=
  if !drained then none
  else some
    { e.envDeleteMutex e.platformLock with
      mailbox := false, platformLock := 0, platformDeinits := e.platformDeinits + 1 }

/-- `env_init`; only the first call reaches `platform_init`. -/
def envInit (lock : Nat) : Option (Bool × EnvState) :=
  if e.envInitCounter < 0 then none
  else
    let e := { e with envInitCounter := e.envInitCounter + 1 }
    if 1 < e.envInitCounter then some (true, e)
    else some (platformInit { e with isrTable := fun _ => 0 } lock)

/-- `env_deinit`; only the last call reaches `platform_deinit`. -/
def envDeinit (drained : Bool) : Option EnvState :=
  if e.envInitCounter ≤ 0 then none
  else
    let e := { e with envInitCounter := e.envInitCounter - 1 }
    if 0 < e.envInitCounter then some e else e.platformDeinit drained

theorem envInit_counter {lock : Nat} {ok : Bool} {e' : EnvState} (h : e.envInit lock = some (ok, e')) :
    e'.envInitCounter = e.envInitCounter + 1 := by
  unfold envInit platformInit envCreateMutex at h
  split at h
  · cases h
  · simp only at h
    split at h
    · cases h
      rfl
    · split at h
      · cases h
        rfl
      · cases h
        rfl

/-- `env_init` answers an error for a failed `platform_init` only. -/
theorem envInit_ok {lock : Nat} {ok : Bool} {e' : EnvState} (h : e.envInit lock = some (ok, e')) :
    ok = true ↔ (e.envInitCounter = 0 → lock ≠ 0) := by
  unfold envInit platformInit at h
  split at h
  · cases h
  · rename_i hneg
    simp only at h
    split at h
    · cases h
      simp only [true_iff]
      omega
    · have h0 : e.envInitCounter = 0 := by omega
      split at h
      · cases h
        simp_all
      · cases h
        simp_all

/-! ## Interrupts -/

def envRegisterIsr (isrCount vector data : Nat) : Option EnvState :=
  if vector < isrCount then some { e with isrTable := Function.update e.isrTable vector data } else none

def envUnregisterIsr (isrCount vector : Nat) : Option EnvState := e.envRegisterIsr isrCount vector 0

/-- `platform_init_interrupt`; without the platform's lock it registers nothing and answers -1, which
nobody reads. -/
def platformInitInterrupt (isrCount vector data : Nat) : Option EnvState :=
  if e.platformLock = 0 then some e
  else (e.envRegisterIsr isrCount vector data).bind fun e =>
    if 0 ≤ e.isrCounter then some { e with isrCounter := e.isrCounter + 1 } else none

theorem platformInitInterrupt_spec {e e' : EnvState} {isrCount v d : Nat} (hl : e.platformLock ≠ 0)
    (h : e.platformInitInterrupt isrCount v d = some e') :
    v < isrCount ∧ e' = { e with isrTable := Function.update e.isrTable v d, isrCounter := e.isrCounter + 1 } := by
  unfold platformInitInterrupt envRegisterIsr at h
  rw [if_neg hl] at h
  split at h
  · rename_i hv
    rw [Option.bind_some] at h
    split at h
    · cases h
      exact ⟨hv, rfl⟩
    · cases h
  · cases h

def platformDeinitInterrupt (isrCount vector : Nat) : Option EnvState :=
  if e.platformLock = 0 then some e
  else if 0 < e.isrCounter then
    let e := { e with isrCounter := e.isrCounter - 1 }
    envUnregisterIsr { e with irqEnabled := if e.isrCounter = 0 then false else e.irqEnabled } isrCount vector
  else none

theorem platformDeinitInterrupt_spec {e : EnvState} {isrCount v : Nat} (hl : e.platformLock ≠ 0) (hc : 0 < e.isrCounter)
    (hv : v < isrCount) : e.platformDeinitInterrupt isrCount v = some
      { e with
        isrTable := Function.update e.isrTable v 0
        isrCounter := e.isrCounter - 1
        irqEnabled := if e.isrCounter - 1 = 0 then false else e.irqEnabled } := by
  unfold platformDeinitInterrupt envUnregisterIsr envRegisterIsr
  rw [if_neg hl, if_pos hc, if_pos hv]

def platformInterruptDisable : Option EnvState :=
  if 0 ≤ e.disableCounter then
    some { e with
      irqEnabled := if e.disableCounter = 0 then false else e.irqEnabled
      disableCounter := e.disableCounter + 1 }
  else none

def platformInterruptEnable : Option EnvState :=
  if 0 < e.disableCounter then
    let e := { e with disableCounter := e.disableCounter - 1 }
    some { e with irqEnabled := if e.disableCounter = 0 then true else e.irqEnabled }
  else none

/-- The end of both init functions: register two virtqueues, then disable and enable each. -/
def installIsrs (isrCount vector0 data0 vector1 data1 : Nat) : Option EnvState :=
  (e.platformInitInterrupt isrCount vector0 data0).bind fun e =>
    (e.platformInitInterrupt isrCount vector1 data1).bind fun e =>
      e.platformInterruptDisable.bind fun e =>
        e.platformInterruptDisable.bind fun e =>
          e.platformInterruptEnable.bind platformInterruptEnable

/-- With the platform up and no interrupt masked, both entries are set, and the interrupt is enabled. -/
theorem installIsrs_spec {e e' : EnvState} {isrCount v0 d0 v1 d1 : Nat} (hl : e.platformLock ≠ 0)
    (hd : e.disableCounter = 0) (h : e.installIsrs isrCount v0 d0 v1 d1 = some e') :
    v0 < isrCount ∧ v1 < isrCount ∧
      e' = { e with
        isrTable := Function.update (Function.update e.isrTable v0 d0) v1 d1
        isrCounter := e.isrCounter + 2
        irqEnabled := true } := by
  unfold installIsrs at h
  obtain ⟨e₁, h₁, h⟩ := Option.bind_eq_some_iff.1 h
  obtain ⟨e₂, h₂, h⟩ := Option.bind_eq_some_iff.1 h
  obtain ⟨hv0, rfl⟩ := platformInitInterrupt_spec hl h₁
  obtain ⟨hv1, rfl⟩ := platformInitInterrupt_spec (by exact hl) h₂
  refine ⟨hv0, hv1, ?_⟩
  -- the two disables and the two enables cancel on the counter
  simp only [platformInterruptDisable, platformInterruptEnable, hd] at h
  cases h
  simp only [hd, add_assoc]
  rfl

end EnvState

end RpmsgLite
