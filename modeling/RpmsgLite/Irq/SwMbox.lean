/-
The generic software mailbox of the aarch64 port: a status word and a data word for each direction, and an
interrupt line for each core. `gen_sw_mbox_sendmsg` and `gen_sw_mbox_handler` are cut into their single
accesses to these words. At the end of `platform_notify` the peer has been told of the virtqueue, unless the
call skipped its message because of a status the peer had already left behind.
-/
import RpmsgLite.Irq.System
import RpmsgLite.Lib.Runs

namespace RpmsgLite

namespace SwMbox

/-! ## The words of the mailbox -/

/-- `enum sw_mbox_channel_status` -/
inductive ChannelStatus
  /-- `S_READY` -/
  | ready
  /-- `S_BUSY` -/
  | busy
  /-- `S_DONE` -/
  | done
deriving DecidableEq

/-- `struct gen_sw_mbox`, by the core that transmits: what is `tx_status` and `tx_ch` to core `r` is
`rx_status` and `rx_ch` to its peer. -/
structure Mbox where
  txStatus : Role → ChannelStatus
  txCh : Role → UInt32
  /-- the core's interrupt is pending -/
  pending : Role → Bool

def Mbox.rxStatus (b : Mbox) (r : Role) : ChannelStatus := b.txStatus r.peer

def Mbox.rxCh (b : Mbox) (r : Role) : UInt32 := b.txCh r.peer

def Mbox.setTxStatus (b : Mbox) (r : Role) (st : ChannelStatus) : Mbox := { b with txStatus := Function.update b.txStatus r st }

def Mbox.setTxCh (b : Mbox) (r : Role) (msg : UInt32) : Mbox := { b with txCh := Function.update b.txCh r msg }

/-- `GIC_SetPendingIRQ` of the line of core `r` -/
def Mbox.setPendingIrq (b : Mbox) (r : Role) : Mbox := { b with pending := Function.update b.pending r true }

/-- The next access of `gen_sw_mbox_sendmsg`. -/
inductive Send
  /-- the test of the loop -/
  | readStatus
  /-- the comparison in the loop -/
  | readCh
  | writeCh
  | writeBusy
  | setPending
deriving DecidableEq

/-- One access of `gen_sw_mbox_sendmsg`; `none` is the return. -/
def genSwMboxSendmsg (r : Role) (msg : UInt32) (pc : Send) (b : Mbox) : Mbox × Option Send :=
  match pc with
  | .readStatus => (b, some (if b.txStatus r = .ready then .writeCh else .readCh))
  | .readCh => (b, if msg = b.txCh r then none else some .readStatus)
  | .writeCh => (b.setTxCh r msg, some .writeBusy)
  | .writeBusy => (b.setTxStatus r .busy, some .setPending)
  | .setPending => (b.setPendingIrq r.peer, none)

/-- The next access of `gen_sw_mbox_handler`, with the `vector_id` it has read. -/
inductive HandlerPc
  | readTxStatus
  | writeReady
  | readRxStatus
  | readCh
  | writeDone (vectorId : UInt32)
  | setPending (vectorId : UInt32)
  | isr (vectorId : UInt32)
  | exit

def genSwMboxHandler (r : Role) (pc : HandlerPc) (b : Mbox) : Mbox × HandlerNext HandlerPc :=
  match pc with
  | .readTxStatus => (b, .goto (if b.txStatus r = .done then .writeReady else .readRxStatus))
  | .writeReady => (b.setTxStatus r .ready, .goto .readRxStatus)
  | .readRxStatus => (b, if b.rxStatus r ≠ .busy then .done else .goto .readCh)
  | .readCh => (b, .goto (.writeDone (b.rxCh r)))
  | .writeDone vectorId => (b.setTxStatus r.peer .done, .goto (.setPending vectorId))
  | .setPending vectorId => (b.setPendingIrq r.peer, .goto (.isr vectorId))
  | .isr vectorId => (b, .envIsr (vectorId >>> 16) .exit)
  | .exit => (b, .done)

/-- The message of `platform_notify`. -/
def message (vectorId : UInt32) : UInt32 := vectorId <<< 16

/-! ## Calls of platform_notify -/

/-- A `platform_notify` under way, with what the peer and the channel have shown it. -/
structure Call where
  vq : UInt16
  pc : Send
  /-- the peer has entered `env_isr(vq)` since the call began -/
  seen : Bool
  /-- the last read of the loop's test was stale -/
  stale : Bool

/-- The two cores, each with the call it is in and its handler. -/
structure Cores where
  mbox : Mbox
  call : Role → Option Call
  irq : Role → Option HandlerPc

inductive Event
  /-- calls `platform_notify` -/
  | platformNotify (vq : UInt16)
  /-- the next access of the call -/
  | send
  | interrupt
  | handler

/-- The handler has taken a message of `vq` and not yet entered `env_isr(vq)`. -/
def Takes (vq : UInt16) : Option HandlerPc → Bool
  | some (.writeDone vectorId) => vectorId >>> 16 == vq.toUInt32
  | some (.setPending vectorId) => vectorId >>> 16 == vq.toUInt32
  | some (.isr vectorId) => vectorId >>> 16 == vq.toUInt32
  | _ => false

/-- The peer will enter `env_isr(vq)`, or has entered it since the call began: the channel is busy with the
message, or the peer's handler has taken it. -/
def Cores.Told (s : Cores) (r : Role) (k : Call) : Prop :=
  (s.mbox.txStatus r = .busy ∧ s.mbox.txCh r = message k.vq.toUInt32) ∨ Takes k.vq (s.irq r.peer) = true ∨ k.seen = true

/-- The channel is done with the call's message, and the peer had passed it to `env_isr` before the call
began. -/
def Cores.isStale (s : Cores) (r : Role) (k : Call) : Bool :=
  s.mbox.txStatus r == .done && s.mbox.txCh r == message k.vq.toUInt32 && !Takes k.vq (s.irq r.peer) && !k.seen

section Step

variable (s : Cores) (r : Role)

/-- The state after the next access of the call `k`. -/
def Cores.sent (k : Call) : Cores :=
  let (mbox, next) := genSwMboxSendmsg r (message k.vq.toUInt32) k.pc s.mbox
  let stale := if k.pc = .readStatus then s.isStale r k else k.stale
  { s with mbox, call := Function.update s.call r (next.map fun pc => { k with pc, stale }) }

/-- A call of the peer sees that `env_isr` was entered. -/
def Call.noteIsr (vector : UInt32) (k : Call) : Call := { k with seen := k.seen || vector == k.vq.toUInt32 }

/-- The state after the handler's next access. -/
def Cores.handled (pc : HandlerPc) : Cores :=
  match genSwMboxHandler r pc s.mbox with
  | (mbox, .goto pc) => { s with mbox, irq := Function.update s.irq r (some pc) }
  | (mbox, .envIsr vector pc) =>
    { mbox, irq := Function.update s.irq r (some pc),
      call := Function.update s.call r.peer ((s.call r.peer).map (Call.noteIsr vector)) }
  | (mbox, .done) => { s with mbox, irq := Function.update s.irq r none }

def Cores.step : Event → Option Cores
  | .platformNotify vq =>
    match s.call r with
    | some _ => none
    | none => some { s with call := Function.update s.call r (some ⟨vq, .readStatus, false, false⟩) }
  | .send => (s.call r).map (s.sent r)
  | .interrupt =>
    match s.irq r with
    | some _ => none
    | none =>
      if s.mbox.pending r then
        some
          { s with
            mbox := { s.mbox with pending := Function.update s.mbox.pending r false }
            irq := Function.update s.irq r (some .readTxStatus) }
      else none
  | .handler => (s.irq r).map (s.handled r)

end Step

/-- After `gen_sw_mailbox_init`, whatever the data words hold. -/
def Cores.start (txCh : Role → UInt32) (pending : Role → Bool) : Cores :=
  ⟨⟨fun _ => .ready, txCh, pending⟩, fun _ => none, fun _ => none⟩

/-- The states of all runs. -/
inductive Cores.Reachable (s₀ : Cores) : Cores → Prop
  | start : Reachable s₀ s₀
  | step {s s' : Cores} {r : Role} {e : Event} (h : Reachable s₀ s) (hs : s.step r e = some s') : Reachable s₀ s'

/-! ## What the accesses do -/

section

variable {s s' : Cores} {r q : Role} {k : Call} {e : Event}

theorem message_shiftRight (vq : UInt16) : message vq.toUInt32 >>> 16 = vq.toUInt32 := by
  apply UInt32.toNat.inj
  have hvq := vq.toNat_lt
  simp only [message, UInt32.toNat_shiftRight, UInt32.toNat_shiftLeft, UInt16.toNat_toUInt32, Nat.shiftLeft_eq,
    Nat.shiftRight_eq_div_pow, UInt32.reduceToNat, Nat.reduceMod, Nat.reducePow]
  omega

theorem genSwMboxSendmsg_other {msg : UInt32} {pc : Send} {b : Mbox} (h : r ≠ q) :
    (genSwMboxSendmsg q msg pc b).1.txStatus r = b.txStatus r ∧ (genSwMboxSendmsg q msg pc b).1.txCh r = b.txCh r := by
  cases pc with
  | readStatus => exact ⟨rfl, rfl⟩
  | readCh => exact ⟨rfl, rfl⟩
  | writeCh => exact ⟨rfl, Function.update_of_ne h _ _⟩
  | writeBusy => exact ⟨Function.update_of_ne h _ _, rfl⟩
  | setPending => exact ⟨rfl, rfl⟩

theorem genSwMboxHandler_txCh {pc : HandlerPc} {b : Mbox} : (genSwMboxHandler q pc b).1.txCh = b.txCh := by
  cases pc <;> rfl

theorem takes_writeDone (vq : UInt16) : Takes vq (some (.writeDone (message vq.toUInt32))) = true := by
  simp only [Takes, message_shiftRight, beq_self_eq_true]

/-- What a call knows of its direction. -/
def Cores.CallOk (s : Cores) (r : Role) (k : Call) : Prop :=
  match k.pc with
  | .readStatus => True
  | .readCh => s.mbox.txCh r = message k.vq.toUInt32 → (s.Told r k ↔ k.stale = false)
  | .writeCh => s.mbox.txStatus r = .ready ∧ k.stale = false
  | .writeBusy => s.mbox.txStatus r = .ready ∧ s.mbox.txCh r = message k.vq.toUInt32 ∧ k.stale = false
  | .setPending => s.Told r k ∧ k.stale = false

/-- Where the handlers stand with the words they have read. -/
structure Cores.Handlers (s : Cores) : Prop where
  ready : ∀ r, s.irq r = some .writeReady → s.mbox.txStatus r = .done
  busy : ∀ r, s.irq r = some .readCh → s.mbox.txStatus r.peer = .busy
  taken : ∀ r v, s.irq r = some (.writeDone v) → s.mbox.txStatus r.peer = .busy ∧ v = s.mbox.txCh r.peer

structure Cores.Inv (s : Cores) : Prop extends s.Handlers where
  call : ∀ r k, s.call r = some k → s.CallOk r k

/-- What a step that is not the call's own leaves of a call and its direction. -/
structure Cores.Kept (s s' : Cores) (r : Role) (k k' : Call) : Prop where
  vq : k'.vq = k.vq
  pc : k'.pc = k.pc
  stale : k'.stale = k.stale
  txCh : s'.mbox.txCh r = s.mbox.txCh r
  ready : s.mbox.txStatus r = .ready → s'.mbox.txStatus r = .ready
  told : s.Told r k → s'.Told r k'
  untold : s.mbox.txCh r = message k.vq.toUInt32 → s'.Told r k' → s.Told r k

theorem Cores.Kept.of_same (hst : s'.mbox.txStatus r = s.mbox.txStatus r) (hch : s'.mbox.txCh r = s.mbox.txCh r)
    (htakes : Takes k.vq (s'.irq r.peer) = Takes k.vq (s.irq r.peer)) : Kept s s' r k k := by
  have htold : s'.Told r k ↔ s.Told r k := by
    unfold Told
    rw [hst, hch, htakes]
  exact ⟨rfl, rfl, rfl, hch, fun h => hst.trans h, htold.2, fun _ => htold.1⟩

theorem Cores.handled_readRxStatus (s : Cores) (q : Role) :
    ∃ x, (x = none ∨ x = some .readCh ∧ s.mbox.txStatus q.peer = .busy) ∧
      s.handled q .readRxStatus = { s with irq := Function.update s.irq q x } := by
  by_cases hb : s.mbox.rxStatus q = .busy
  · refine ⟨some .readCh, Or.inr ⟨rfl, hb⟩, ?_⟩
    simp only [handled, genSwMboxHandler, hb, ne_eq, not_true_eq_false, if_false]
  · refine ⟨none, Or.inl rfl, ?_⟩
    simp only [handled, genSwMboxHandler, hb, ne_eq, not_false_eq_true, if_true]

/-- The handler of the call's own core. -/
theorem Cores.handled_own (h : s.Inv) {pc : HandlerPc} (hpc : s.irq r = some pc) (hk : s.call r = some k) :
    ∃ k', (s.handled r pc).call r = some k' ∧ Kept s (s.handled r pc) r k k' := by
  have hne := Role.peer_ne r
  have hirq : ∀ x, Function.update s.irq r x r.peer = s.irq r.peer := fun x => Function.update_of_ne hne _ _
  cases pc with
  | readTxStatus => exact ⟨k, hk, .of_same rfl rfl (congrArg _ (hirq _))⟩
  | writeReady =>
    have hdone := h.ready r hpc
    have hst : (s.handled r .writeReady).mbox.txStatus r = .ready := Function.update_self ..
    refine ⟨k, hk, rfl, rfl, rfl, rfl, fun _ => hst, fun ht => ?_, fun _ ht => ?_⟩
    · rcases ht with ⟨hb, -⟩ | ht | ht
      · rw [hdone] at hb
        cases hb
      · exact Or.inr (Or.inl ((congrArg _ (hirq _)).trans ht))
      · exact Or.inr (Or.inr ht)
    · rcases ht with ⟨hb, -⟩ | ht | ht
      · rw [hst] at hb
        cases hb
      · exact Or.inr (Or.inl ((congrArg _ (hirq _)).symm.trans ht))
      · exact Or.inr (Or.inr ht)
  | readRxStatus =>
    obtain ⟨x, -, hs⟩ := s.handled_readRxStatus r
    rw [hs]
    exact ⟨k, hk, .of_same rfl rfl (congrArg _ (hirq _))⟩
  | readCh => exact ⟨k, hk, .of_same rfl rfl (congrArg _ (hirq _))⟩
  | writeDone v => exact ⟨k, hk, .of_same (Function.update_of_ne hne.symm _ _) rfl (congrArg _ (hirq _))⟩
  | setPending v => exact ⟨k, hk, .of_same rfl rfl (congrArg _ (hirq _))⟩
  | isr v => exact ⟨k, (Function.update_of_ne hne.symm _ _).trans hk, .of_same rfl rfl (congrArg _ (hirq _))⟩
  | exit => exact ⟨k, hk, .of_same rfl rfl (congrArg _ (hirq _))⟩

/-- The peer's handler: it takes a message only from a busy channel, and what it takes it passes on. -/
theorem Cores.handled_peer (h : s.Inv) {pc : HandlerPc} (hpc : s.irq r.peer = some pc) (hk : s.call r = some k) :
    ∃ k', (s.handled r.peer pc).call r = some k' ∧ Kept s (s.handled r.peer pc) r k k' := by
  have hne := Role.peer_ne r
  have hirq : ∀ x, Function.update s.irq r.peer x r.peer = x := fun x => Function.update_self ..
  have htakes : ∀ {x}, Takes k.vq x = Takes k.vq (some pc) →
      Takes k.vq (Function.update s.irq r.peer x r.peer) = Takes k.vq (s.irq r.peer) := fun hx => by
    rw [hirq, hpc, hx]
  cases pc with
  | readTxStatus =>
    refine ⟨k, hk, .of_same rfl rfl (htakes ?_)⟩
    split <;> rfl
  | writeReady => exact ⟨k, hk, .of_same (Function.update_of_ne hne.symm _ _) rfl (htakes rfl)⟩
  | readRxStatus =>
    obtain ⟨x, hx, hs⟩ := s.handled_readRxStatus r.peer
    rw [hs]
    refine ⟨k, hk, .of_same rfl rfl (htakes ?_)⟩
    rcases hx with rfl | ⟨rfl, -⟩
    · rfl
    · rfl
  | readCh =>
    have hbusy := h.busy r.peer hpc
    rw [Role.peer_peer] at hbusy
    have ht : ∀ {x}, s.mbox.txCh r = message k.vq.toUInt32 → Told { s with irq := x } r k := fun hch => Or.inl ⟨hbusy, hch⟩
    refine ⟨k, hk, rfl, rfl, rfl, rfl, fun hr => hr, fun hold => ?_, fun hch _ => Or.inl ⟨hbusy, hch⟩⟩
    rcases hold with ⟨-, hch⟩ | hold | hold
    · exact ht hch
    · rw [hpc] at hold
      cases hold
    · exact Or.inr (Or.inr hold)
  | writeDone v =>
    obtain ⟨hbusy, hv⟩ := h.taken r.peer v hpc
    rw [Role.peer_peer] at hbusy hv
    have hst : (s.handled r.peer (.writeDone v)).mbox.txStatus r = .done := by
      change Function.update s.mbox.txStatus r.peer.peer .done r = .done
      rw [Role.peer_peer, Function.update_self]
    have heq : Takes k.vq ((s.handled r.peer (.writeDone v)).irq r.peer) = Takes k.vq (s.irq r.peer) := htakes rfl
    refine ⟨k, hk, rfl, rfl, rfl, rfl, fun hr => ?_, fun hold => ?_, fun _ hnew => ?_⟩
    · rw [hbusy] at hr
      cases hr
    · rcases hold with ⟨-, hch⟩ | hold | hold
      · refine Or.inr (Or.inl ?_)
        rw [heq, hpc, hv, hch]
        exact takes_writeDone k.vq
      · exact Or.inr (Or.inl (heq.trans hold))
      · exact Or.inr (Or.inr hold)
    · rcases hnew with ⟨hb, -⟩ | hnew | hnew
      · rw [hst] at hb
        cases hb
      · exact Or.inr (Or.inl (heq.symm.trans hnew))
      · exact Or.inr (Or.inr hnew)
  | setPending v => exact ⟨k, hk, .of_same rfl rfl (htakes rfl)⟩
  | isr v =>
    have hcall : (s.handled r.peer (.isr v)).call r = some (k.noteIsr (v >>> 16)) := by
      change Function.update s.call r.peer.peer ((s.call r.peer.peer).map _) r = _
      rw [Role.peer_peer, Function.update_self, hk]
      rfl
    have hirq' : (s.handled r.peer (.isr v)).irq r.peer = some .exit := hirq _
    have hseen : (k.noteIsr (v >>> 16)).seen = true ↔ k.seen = true ∨ Takes k.vq (s.irq r.peer) = true := by
      rw [hpc]
      exact iff_of_eq (Bool.or_eq_true ..)
    refine ⟨_, hcall, rfl, rfl, rfl, rfl, fun hr => hr, fun hold => ?_, fun _ hnew => ?_⟩
    · rcases hold with hb | hold | hold
      · exact Or.inl hb
      · exact Or.inr (Or.inr (hseen.2 (Or.inr hold)))
      · exact Or.inr (Or.inr (hseen.2 (Or.inl hold)))
    · rcases hnew with hb | hnew | hnew
      · exact Or.inl hb
      · rw [hirq'] at hnew
        cases hnew
      · rcases hseen.1 hnew with hold | hold
        · exact Or.inr (Or.inr hold)
        · exact Or.inr (Or.inl hold)
  | exit => exact ⟨k, hk, .of_same rfl rfl (htakes rfl)⟩

/-- Every step but the call's own keeps what the call has found out. -/
theorem Cores.step_kept (h : s.Inv) (hs : s.step q e = some s') (hk : s.call r = some k) (hother : q = r → e ≠ .send) :
    ∃ k', s'.call r = some k' ∧ Kept s s' r k k' := by
  cases e with
  | platformNotify vq =>
    simp only [step] at hs
    split at hs
    · cases hs
    · rename_i hnone
      cases hs
      have hne : r ≠ q := by
        rintro rfl
        rw [hk] at hnone
        cases hnone
      exact ⟨k, (Function.update_of_ne hne _ _).trans hk, .of_same rfl rfl rfl⟩
  | send =>
    obtain ⟨k₁, -, rfl⟩ := Option.map_eq_some_iff.1 hs
    have hne : r ≠ q := fun he => hother he.symm rfl
    exact ⟨k, (Function.update_of_ne hne _ _).trans hk,
      .of_same (genSwMboxSendmsg_other hne).1 (genSwMboxSendmsg_other hne).2 rfl⟩
  | interrupt =>
    simp only [step] at hs
    split at hs
    · cases hs
    · rename_i hnone
      split at hs
      · cases hs
        refine ⟨k, hk, .of_same rfl rfl ?_⟩
        change Takes k.vq (Function.update s.irq q _ r.peer) = _
        by_cases hq : r.peer = q
        · rw [hq, Function.update_self, hnone]
          rfl
        · rw [Function.update_of_ne hq]
      · cases hs
  | handler =>
    obtain ⟨pc, hpc, rfl⟩ := Option.map_eq_some_iff.1 hs
    rcases r.eq_or_peer q with rfl | rfl
    · exact handled_own h hpc hk
    · exact handled_peer h hpc hk

theorem Cores.Kept.callOk {k' : Call} (h : Kept s s' r k k') (hk : s.CallOk r k) : s'.CallOk r k' := by
  unfold CallOk at hk ⊢
  rw [h.pc, h.vq, h.txCh, h.stale]
  split at hk
  · exact hk
  · exact fun hch => ⟨fun ht => (hk hch).1 (h.untold hch ht), fun hst => h.told ((hk hch).2 hst)⟩
  · exact ⟨h.ready hk.1, hk.2⟩
  · exact ⟨h.ready hk.1, hk.2⟩
  · exact ⟨h.told hk.1, hk.2⟩

theorem Cores.sent_mbox : (s.sent r k).mbox = (genSwMboxSendmsg r (message k.vq.toUInt32) k.pc s.mbox).1 := rfl

theorem Cores.sent_irq : (s.sent r k).irq = s.irq := rfl

theorem Cores.sent_call : (s.sent r k).call r = (genSwMboxSendmsg r (message k.vq.toUInt32) k.pc s.mbox).2.map fun pc =>
    { k with pc, stale := if k.pc = .readStatus then s.isStale r k else k.stale } := Function.update_self ..

/-- A channel that is not ready holds the call's message in vain if and only if the read was stale. -/
theorem Cores.told_iff_isStale (hst : s.mbox.txStatus r ≠ .ready) (hch : s.mbox.txCh r = message k.vq.toUInt32) :
    s.Told r k ↔ s.isStale r k = false := by
  unfold Told isStale
  rw [hch]
  cases hb : s.mbox.txStatus r with
  | ready => exact absurd hb hst
  | busy => simp
  | done => cases Takes k.vq (s.irq r.peer) <;> simp

/-- The call's own access. -/
theorem Cores.sent_callOk (h : s.Inv) (hk : s.call r = some k) {k' : Call} (hk' : (s.sent r k).call r = some k') :
    (s.sent r k).CallOk r k' := by
  have hok := h.call r k hk
  rw [sent_call] at hk'
  cases hpc : k.pc with
  | readStatus =>
    simp only [hpc, genSwMboxSendmsg, Option.map_some, Option.some.injEq, if_true] at hk'
    subst hk'
    by_cases hst : s.mbox.txStatus r = .ready
    · have hstale : s.isStale r k = false := by simp [isStale, hst]
      simp only [CallOk, sent_mbox, hpc, genSwMboxSendmsg, hst, if_true, hstale, and_self]
    · simp only [CallOk, Told, sent_mbox, sent_irq, hpc, genSwMboxSendmsg, hst, if_false]
      exact fun hch => told_iff_isStale hst hch
  | readCh =>
    obtain ⟨pc, hnext, rfl⟩ := Option.map_eq_some_iff.1 hk'
    have hpc' : pc = .readStatus := by
      simp only [hpc, genSwMboxSendmsg] at hnext
      split at hnext
      · exact absurd hnext (by simp)
      · exact (Option.some.inj hnext).symm
    simp only [CallOk, hpc']
  | writeCh =>
    simp only [CallOk, hpc] at hok
    simp only [hpc, genSwMboxSendmsg, Option.map_some, Option.some.injEq] at hk'
    subst hk'
    simp only [CallOk, sent_mbox, hpc, genSwMboxSendmsg, Mbox.setTxCh, Function.update_self]
    exact ⟨hok.1, trivial, hok.2⟩
  | writeBusy =>
    simp only [CallOk, hpc] at hok
    simp only [hpc, genSwMboxSendmsg, Option.map_some, Option.some.injEq] at hk'
    subst hk'
    simp only [CallOk, Told, sent_mbox, hpc, genSwMboxSendmsg, Mbox.setTxStatus, Function.update_self]
    exact ⟨Or.inl ⟨trivial, hok.2.1⟩, hok.2.2⟩
  | setPending =>
    simp only [hpc, genSwMboxSendmsg, Option.map_none, reduceCtorEq] at hk'

/-! ## The invariant -/

theorem Cores.inv_start {txCh : Role → UInt32} {pending : Role → Bool} : (start txCh pending).Inv := by
  refine ⟨⟨?_, ?_, ?_⟩, ?_⟩
  · rintro r ⟨⟩
  · rintro r ⟨⟩
  · rintro r v ⟨⟩
  · rintro r k ⟨⟩

/-- A handler that goes on without a store to the channel. -/
theorem Cores.Handlers.goto (h : s.Handlers) {x : Option HandlerPc} (hst : s'.mbox.txStatus = s.mbox.txStatus)
    (hch : s'.mbox.txCh = s.mbox.txCh) (hirq : s'.irq = Function.update s.irq q x)
    (hready : x = some .writeReady → s.mbox.txStatus q = .done) (hbusy : x = some .readCh → s.mbox.txStatus q.peer = .busy)
    (htaken : ∀ v, x = some (.writeDone v) → s.mbox.txStatus q.peer = .busy ∧ v = s.mbox.txCh q.peer) : s'.Handlers := by
  refine ⟨fun r hr => ?_, fun r hr => ?_, fun r v hr => ?_⟩
  all_goals rw [hirq] at hr
  all_goals by_cases hq : r = q
  · subst hq
    rw [Function.update_self] at hr
    rw [hst]
    exact hready hr
  · rw [Function.update_of_ne hq] at hr
    rw [hst]
    exact h.ready r hr
  · subst hq
    rw [Function.update_self] at hr
    rw [hst]
    exact hbusy hr
  · rw [Function.update_of_ne hq] at hr
    rw [hst]
    exact h.busy r hr
  · subst hq
    rw [Function.update_self] at hr
    rw [hst, hch]
    exact htaken v hr
  · rw [Function.update_of_ne hq] at hr
    rw [hst, hch]
    exact h.taken r v hr

/-- A call stores to its channel only while the channel is ready. -/
theorem Cores.sent_words (h : s.Inv) (hk : s.call q = some k) (hst : s.mbox.txStatus r ≠ .ready) :
    (s.sent q k).mbox.txStatus r = s.mbox.txStatus r ∧ (s.sent q k).mbox.txCh r = s.mbox.txCh r := by
  rw [sent_mbox]
  by_cases hr : r = q
  · subst hr
    have hok := h.call r k hk
    cases hpc : k.pc with
    | readStatus => exact ⟨rfl, rfl⟩
    | readCh => exact ⟨rfl, rfl⟩
    | writeCh =>
      simp only [CallOk, hpc] at hok
      exact absurd hok.1 hst
    | writeBusy =>
      simp only [CallOk, hpc] at hok
      exact absurd hok.1 hst
    | setPending => exact ⟨rfl, rfl⟩
  · exact genSwMboxSendmsg_other hr

theorem Cores.sent_handlers (h : s.Inv) (hk : s.call q = some k) : (s.sent q k).Handlers := by
  refine ⟨fun r hr => ?_, fun r hr => ?_, fun r v hr => ?_⟩
  · have hdone := h.ready r hr
    rw [(sent_words h hk (by rw [hdone]; decide)).1]
    exact hdone
  · have hbusy := h.busy r hr
    rw [(sent_words h hk (by rw [hbusy]; decide)).1]
    exact hbusy
  · have htaken := h.taken r v hr
    obtain ⟨hst, hch⟩ := sent_words h hk (r := r.peer) (by rw [htaken.1]; decide)
    rw [hst, hch]
    exact htaken

theorem Cores.handled_handlers (h : s.Handlers) {pc : HandlerPc} (hpc : s.irq q = some pc) : (s.handled q pc).Handlers := by
  cases pc with
  | readTxStatus =>
    refine h.goto rfl rfl rfl (fun hx => ?_) (fun hx => ?_) fun v hx => ?_
    · by_contra hst
      rw [if_neg hst] at hx
      cases hx
    · split at hx
      · cases hx
      · cases hx
    · split at hx
      · cases hx
      · cases hx
  | writeReady =>
    have hdone := h.ready q hpc
    have hirq : ∀ {r x}, Function.update s.irq q (some .readRxStatus) r = some x → x ≠ .readRxStatus →
      r ≠ q ∧ s.irq r = some x := by
      intro r x hx hne
      by_cases hr : r = q
      · rw [hr, Function.update_self] at hx
        cases hx
        exact absurd rfl hne
      · rw [Function.update_of_ne hr] at hx
        exact ⟨hr, hx⟩
    -- the channel was done, so nobody else is at work on it
    have hst : ∀ r, s.mbox.txStatus r ≠ .done → (s.handled q .writeReady).mbox.txStatus r = s.mbox.txStatus r := by
      intro r hr
      refine Function.update_of_ne ?_ _ _
      rintro rfl
      exact hr hdone
    refine ⟨fun r hr => ?_, fun r hr => ?_, fun r v hr => ?_⟩
    · obtain ⟨hne, hr⟩ := hirq hr (by simp)
      exact (Function.update_of_ne hne _ _).trans (h.ready r hr)
    · have hbusy := h.busy r (hirq hr (by simp)).2
      exact (hst r.peer (by rw [hbusy]; decide)).trans hbusy
    · have htaken := h.taken r v (hirq hr (by simp)).2
      exact ⟨(hst r.peer (by rw [htaken.1]; decide)).trans htaken.1, htaken.2⟩
  | readRxStatus =>
    obtain ⟨x, hx, hs⟩ := s.handled_readRxStatus q
    rw [hs]
    refine h.goto rfl rfl rfl (fun he => ?_) (fun he => ?_) fun v he => ?_
    · subst he
      rcases hx with hx | ⟨hx, -⟩
      · cases hx
      · cases hx
    · subst he
      rcases hx with hx | ⟨-, hb⟩
      · cases hx
      · exact hb
    · subst he
      rcases hx with hx | ⟨hx, -⟩
      · cases hx
      · cases hx
  | readCh =>
    refine h.goto rfl rfl rfl (fun hx => ?_) (fun hx => ?_) fun v hx => ?_
    · cases hx
    · cases hx
    · cases hx
      exact ⟨h.busy q hpc, rfl⟩
  | writeDone v =>
    have hirq : ∀ {r x}, Function.update s.irq q (some (.setPending v)) r = some x → (∀ v, x ≠ .setPending v) →
        r = q.peer ∧ s.irq r = some x := by
      intro r x hx hne
      by_cases hr : r = q
      · rw [hr, Function.update_self] at hx
        cases hx
        exact absurd rfl (hne v)
      · rw [Function.update_of_ne hr] at hx
        exact ⟨(q.eq_or_peer r).resolve_left hr, hx⟩
    -- the peer's handler reads the other direction
    have hst : (s.handled q (.writeDone v)).mbox.txStatus q.peer.peer = s.mbox.txStatus q.peer.peer :=
      Function.update_of_ne (Role.peer_ne q.peer) _ _
    refine ⟨fun r hr => ?_, fun r hr => ?_, fun r v hr => ?_⟩
    · obtain ⟨rfl, hr⟩ := hirq hr (by simp)
      exact Function.update_self ..
    · obtain ⟨rfl, hr⟩ := hirq hr (by simp)
      exact hst.trans (h.busy _ hr)
    · obtain ⟨rfl, hr⟩ := hirq hr (by simp)
      exact ⟨hst.trans (h.taken _ v hr).1, (h.taken _ v hr).2⟩
  | setPending v => exact h.goto rfl rfl rfl (fun hx => by cases hx) (fun hx => by cases hx) fun v hx => by cases hx
  | isr v => exact h.goto rfl rfl rfl (fun hx => by cases hx) (fun hx => by cases hx) fun v hx => by cases hx
  | exit => exact h.goto rfl rfl rfl (fun hx => by cases hx) (fun hx => by cases hx) fun v hx => by cases hx

theorem Cores.handled_call_none {pc : HandlerPc} (hnone : s.call r = none) : (s.handled q pc).call r = none := by
  cases pc with
  | readTxStatus => exact hnone
  | writeReady => exact hnone
  | readRxStatus =>
    obtain ⟨x, -, hs⟩ := s.handled_readRxStatus q
    rw [hs]
    exact hnone
  | readCh => exact hnone
  | writeDone v => exact hnone
  | setPending v => exact hnone
  | isr v =>
    change Function.update s.call q.peer ((s.call q.peer).map _) r = none
    by_cases hr : r = q.peer
    · rw [← hr, Function.update_self, hnone]
      rfl
    · rw [Function.update_of_ne hr]
      exact hnone
  | exit => exact hnone

/-- A call that a step begins is at its first access. -/
theorem Cores.step_new (hs : s.step q e = some s') (hnone : s.call r = none) (hk : s'.call r = some k) : k.pc = .readStatus := by
  cases e with
  | platformNotify vq =>
    simp only [step] at hs
    split at hs
    · cases hs
    · cases hs
      by_cases hr : r = q
      · subst hr
        simp only [Function.update_self, Option.some.injEq] at hk
        rw [← hk]
      · simp only [Function.update_of_ne hr, hnone] at hk
        cases hk
  | send =>
    obtain ⟨k₁, hk₁, rfl⟩ := Option.map_eq_some_iff.1 hs
    have hr : r ≠ q := by
      rintro rfl
      rw [hnone] at hk₁
      cases hk₁
    have hsame := (Function.update_of_ne hr _ _).symm.trans hk
    rw [hnone] at hsame
    cases hsame
  | interrupt =>
    simp only [step] at hs
    split at hs
    · cases hs
    · split at hs
      · cases hs
        rw [hnone] at hk
        cases hk
      · cases hs
  | handler =>
    obtain ⟨pc, hpc, rfl⟩ := Option.map_eq_some_iff.1 hs
    rw [handled_call_none hnone] at hk
    cases hk

theorem Cores.step_handlers (h : s.Inv) (hs : s.step q e = some s') : s'.Handlers := by
  cases e with
  | platformNotify vq =>
    simp only [step] at hs
    split at hs
    · cases hs
    · cases hs
      exact ⟨h.ready, h.busy, h.taken⟩
  | send =>
    obtain ⟨k, hk, rfl⟩ := Option.map_eq_some_iff.1 hs
    exact sent_handlers h hk
  | interrupt =>
    simp only [step] at hs
    split at hs
    · cases hs
    · split at hs
      · cases hs
        exact h.toHandlers.goto rfl rfl rfl (fun hx => by cases hx) (fun hx => by cases hx) fun v hx => by cases hx
      · cases hs
  | handler =>
    obtain ⟨pc, hpc, rfl⟩ := Option.map_eq_some_iff.1 hs
    exact handled_handlers h.toHandlers hpc

theorem Cores.Inv.step (h : s.Inv) (hs : s.step q e = some s') : s'.Inv := by
  refine ⟨step_handlers h hs, fun r k' hk' => ?_⟩
  cases hk : s.call r with
  | none =>
    unfold CallOk
    rw [step_new hs hk hk']
    trivial
  | some k =>
    by_cases hown : q = r ∧ e = .send
    · obtain ⟨rfl, rfl⟩ := hown
      obtain ⟨k₁, hk₁, rfl⟩ := Option.map_eq_some_iff.1 hs
      rw [hk] at hk₁
      cases hk₁
      exact sent_callOk h hk hk'
    · obtain ⟨k₁, hk₁, hkept⟩ := step_kept h hs hk fun hq he => hown ⟨hq, he⟩
      rw [hk'] at hk₁
      cases hk₁
      exact hkept.callOk (h.call r k hk)

theorem Cores.Reachable.inv {txCh : Role → UInt32} {pending : Role → Bool} (h : Reachable (Cores.start txCh pending) s) :
    s.Inv := by
  induction h with
  | start => exact inv_start
  | step _ hs ih => exact ih.step hs

/-! ## The end of a call -/

/-- When `platform_notify` returns, in any run of the two cores, the peer will enter `env_isr` of the
virtqueue or has entered it since the call began, if and only if the last read of the loop's test was not
stale. -/
theorem platformNotify_told {txCh : Role → UInt32} {pending : Role → Bool} (h : Cores.Reachable (.start txCh pending) s)
    (hk : s.call r = some k) (hs : s.step r .send = some s') (hret : s'.call r = none) :
    s'.Told r k ↔ k.stale = false := by
  have hok := h.inv.call r k hk
  obtain ⟨k₁, hk₁, rfl⟩ := Option.map_eq_some_iff.1 hs
  rw [hk] at hk₁
  cases hk₁
  rw [Cores.sent_call] at hret
  have hnext := Option.map_eq_none_iff.1 hret
  cases hpc : k.pc with
  | readStatus =>
    rw [hpc] at hnext
    cases hnext
  | readCh =>
    simp only [Cores.CallOk, hpc] at hok
    simp only [hpc, genSwMboxSendmsg] at hnext
    split at hnext
    · rename_i hch
      simp only [Cores.Told, Cores.sent_mbox, Cores.sent_irq, hpc, genSwMboxSendmsg]
      exact hok hch.symm
    · cases hnext
  | writeCh =>
    rw [hpc] at hnext
    cases hnext
  | writeBusy =>
    rw [hpc] at hnext
    cases hnext
  | setPending =>
    simp only [Cores.CallOk, hpc] at hok
    simp only [Cores.Told, Cores.sent_mbox, Cores.sent_irq, hpc, genSwMboxSendmsg, Mbox.setPendingIrq]
    exact ⟨fun _ => hok.2, fun _ => hok.1⟩

end

/-- The run of a list of steps. -/
def Cores.run (s : Cores) : List (Role × Event) → Option Cores
  | [] => some s
  | (r, e) :: events => (s.step r e).bind fun s => s.run events

theorem Cores.isRun : IsRun (fun (s : Cores) a => s.step a.1 a.2) Cores.run := ⟨fun _ => rfl, fun _ _ _ => rfl⟩

theorem Cores.reachable_of_run {s₀ s s' : Cores} {events : List (Role × Event)} (h : Cores.Reachable s₀ s)
    (hr : s.run events = some s') : Cores.Reachable s₀ s' :=
  Cores.isRun.keeps (fun h hstep => h.step hstep) h hr

/-- A run that ends before the last access of a call of the master. -/
theorem Cores.of_check (s₀ : Cores) (events : List (Role × Event)) (t : Cores → Call → Cores → Bool)
    (h : (s₀.run events).any (fun s => (s.call .master).any fun k => (s.step .master .send).any fun s' =>
      (s'.call .master).isNone && t s k s') = true) :
    ∃ s k s', Cores.Reachable s₀ s ∧ s.call .master = some k ∧ s.step .master .send = some s' ∧ s'.call .master = none ∧
      t s k s' = true := by
  obtain ⟨s, hs, h⟩ := (Option.any_eq_true _ _).1 h
  obtain ⟨k, hk, h⟩ := (Option.any_eq_true _ _).1 h
  obtain ⟨s', hs', h⟩ := (Option.any_eq_true _ _).1 h
  rw [Bool.and_eq_true, Option.isNone_iff_eq_none] at h
  exact ⟨s, k, s', reachable_of_run .start hs, hk, hs', h⟩

/-- The master notifies virtqueue 1 and the remote's handler passes it to `env_isr` and returns. -/
def notifyOne : List (Role × Event) :=
  (.master, .platformNotify 1) :: List.replicate 4 (.master, .send) ++ (.remote, .interrupt) :: List.replicate 7 (.remote, .handler)

/-- The first call: the remote has the message before it. -/
theorem platformNotify_told_first : ∃ s k s', Cores.Reachable (.start (fun _ => 0) fun _ => false) s ∧
    s.call .master = some k ∧ s.step .master .send = some s' ∧ s'.call .master = none ∧ k.vq = 1 ∧ s'.Told .master k := by
  obtain ⟨s, k, s', h, hk, hs, hret, ht⟩ := Cores.of_check (.start (fun _ => 0) fun _ => false) (notifyOne.take 4)
    (fun _ k _ => k.vq == 1 && !k.stale) (by decide)
  simp only [Bool.and_eq_true, Bool.not_eq_true', beq_iff_eq] at ht
  exact ⟨s, k, s', h, hk, hs, hret, ht.1, (platformNotify_told h hk hs hret).2 ht.2⟩

/-- The second call finds the channel done with the first message and returns, though the remote's handler
was through with it before. -/
theorem platformNotify_told_skipped : ∃ s k s', Cores.Reachable (.start (fun _ => 0) fun _ => false) s ∧
    s.call .master = some k ∧ s.step .master .send = some s' ∧ s'.call .master = none ∧ k.vq = 1 ∧
    s'.irq .remote = none ∧ ¬ s'.Told .master k := by
  obtain ⟨s, k, s', h, hk, hs, hret, ht⟩ := Cores.of_check (.start (fun _ => 0) fun _ => false)
    (notifyOne ++ [(.master, .platformNotify 1), (.master, .send)])
    (fun _ k s' => k.vq == 1 && (s'.irq .remote).isNone && s'.mbox.txStatus .master == .done && !k.seen) (by decide)
  simp only [Bool.and_eq_true, Bool.not_eq_true', beq_iff_eq, Option.isNone_iff_eq_none] at ht
  obtain ⟨⟨⟨hvq, hirq⟩, hst⟩, hseen⟩ := ht
  refine ⟨s, k, s', h, hk, hs, hret, hvq, hirq, ?_⟩
  rintro (⟨hb, -⟩ | htakes | hs)
  · rw [hst] at hb
    cases hb
  · rw [show Role.master.peer = .remote from rfl, hirq] at htakes
    cases htakes
  · rw [hseen] at hs
    cases hs

end SwMbox

end RpmsgLite
