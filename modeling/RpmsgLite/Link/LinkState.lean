/-
The link state of an instance. Only the transmit callback writes it, so a core whose link came up keeps
sending for the rest of the run.
-/
import RpmsgLite.Link.Invariant

namespace RpmsgLite

open ByteMem

/-! ## The functions -/

section

variable {c : LinkConfig} {clear : Bool} {payloadSize : Nat} {dev dev' : RpmsgLiteInstance} {x x' : Side} {m m' : ByteMem} {g : Got}

theorem rpmsgLiteSendAlloc_linkState {size : Nat} {res : Except Int Got}
    (h : rpmsgLiteSendAlloc clear payloadSize dev m size = (dev', res)) : dev'.linkState = dev.linkState := by
  unfold rpmsgLiteSendAlloc at h
  split at h
  · cases h; rfl
  split at h
  · cases h; rfl
  split at h
  · cases h; rfl
  · cases h; rfl

theorem rpmsgLiteAllocTxBuffer_linkState {got : Option Got} (h : rpmsgLiteAllocTxBuffer clear dev m = (dev', m', got)) :
    dev'.linkState = dev.linkState := by
  unfold rpmsgLiteAllocTxBuffer at h
  split at h
  · cases h; rfl
  split at h
  · cases h; rfl
  · cases h; rfl

theorem rpmsgLiteRx_linkState {got : Option Got} (h : rpmsgLiteRx clear dev m = (dev', got)) :
    dev'.linkState = dev.linkState := by
  cases h
  rfl

theorem rpmsgLiteSendEnqueue_linkState (h : rpmsgLiteSendEnqueue clear dev m g = some (dev', m')) :
    dev'.linkState = dev.linkState := by
  unfold rpmsgLiteSendEnqueue at h
  split at h
  · cases h
  · cases h; rfl

theorem rpmsgLiteSendNocopy_linkState {src dst : UInt32} {data size : Nat} {status : Int}
    (h : rpmsgLiteSendNocopy clear payloadSize dev m src dst data size = some (dev', m', status)) :
    dev'.linkState = dev.linkState := by
  unfold rpmsgLiteSendNocopy at h
  split at h
  · cases h; rfl
  split at h
  · cases h; rfl
  simp only at h
  split at h
  · cases h
  · cases h; rfl

theorem rpmsgLiteRxDone_linkState {hold : Bool} (h : rpmsgLiteRxDone clear dev m hold g = some (dev', m')) :
    dev'.linkState = dev.linkState := by
  unfold rpmsgLiteRxDone at h
  split at h
  · cases h; rfl
  split at h
  · cases h
  · cases h; rfl

theorem rpmsgLiteReleaseRxBuffer_linkState {rxbuf : Nat} (h : rpmsgLiteReleaseRxBuffer clear dev m rxbuf = some (dev', m')) :
    dev'.linkState = dev.linkState := by
  unfold rpmsgLiteReleaseRxBuffer at h
  simp only at h
  split at h
  · cases h
  · cases h; rfl

/-! ## The steps -/

theorem Side.txStep_linkState {a : TxAct} (ha : x.txStep c m a = some (x', m')) : x'.dev.linkState = x.dev.linkState := by
  cases Side.txStep_cases ha with
  | sendRefused _ h => exact rpmsgLiteSendAlloc_linkState h
  | send _ h => exact rpmsgLiteSendAlloc_linkState h
  | fill => rfl
  | enqueueStuck => rfl
  | enqueue _ _ h => exact rpmsgLiteSendEnqueue_linkState h
  | allocNone h => exact rpmsgLiteAllocTxBuffer_linkState h
  | allocTxBuffer h => exact rpmsgLiteAllocTxBuffer_linkState h
  | write => rfl
  | nocopyStuck => rfl
  | sendNocopy _ _ h => exact rpmsgLiteSendNocopy_linkState h
  | nocopyRefused _ _ h => exact rpmsgLiteSendNocopy_linkState h

theorem Side.rxStep_linkState {a : RxAct} (ha : x.rxStep c m a = some (x', m')) : x'.dev.linkState = x.dev.linkState := by
  cases Side.rxStep_cases ha with
  | rxNone _ h => exact rpmsgLiteRx_linkState h
  | rx _ h => exact rpmsgLiteRx_linkState h
  | read => rfl
  | doneStuck => rfl
  | done _ h => exact rpmsgLiteRxDone_linkState h
  | writeMsg => rfl
  | writeHeld => rfl
  | releaseStuck => rfl
  | release _ h => exact rpmsgLiteReleaseRxBuffer_linkState h

/-- No step takes a link down. -/
theorem Link.step_linkState {s s' : Link} {r : Role} {a : Act} (hs : s.step c r a = some s') (q : Role)
    (h : (s.side q).dev.linkState = true) : (s'.side q).dev.linkState = true := by
  obtain ⟨x, m', ha, rfl⟩ := Link.step_cases hs
  by_cases hq : q = r
  · subst hq
    simp only [Function.update_self]
    cases a with
    | tx a => rw [Side.txStep_linkState ha]; exact h
    | rx a => rw [Side.rxStep_linkState ha]; exact h
    | txCallback => cases ha; rfl
  · simp only [Function.update_of_ne hq]; exact h

end

end RpmsgLite
