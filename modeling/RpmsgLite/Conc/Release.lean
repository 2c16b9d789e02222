/-
`rpmsg_lite_release_rx_buffer` one memory access at a time, and `rpmsg_lite_rx_callback` as the interrupt
that may run between any two of them. Neither environment keeps the interrupt out: the mutex is not
taken in interrupt context. The arguments of `vq_rx_free` are evaluated from left to right.
-/
import RpmsgLite.Conc.Micro
import RpmsgLite.Conc.Slots
import RpmsgLite.Link.Flow

namespace RpmsgLite

open ByteMem

/-! ## The interrupt -/

/-- `rpmsg_lite_rx_callback`: `handle` looks up the endpoint and runs its callback, and says whether the
buffer is held. `none` is a failed assertion, a callback that fails, or no fuel left. -/
def rpmsgLiteRxCallback {σ : Type} (clear : Bool) (handle : σ → ByteMem → Got → Option (Bool × σ)) :
    Nat → σ → RpmsgLiteInstance → ByteMem → Option (σ × RpmsgLiteInstance × ByteMem)
  | 0, _, _, _ => none
  | fuel + 1, x, dev, m =>
    match rpmsgLiteRx clear dev m with
    | (dev, none) => some (x, dev, m)
    | (dev, some g) =>
      (handle x m g).bind fun h => (rpmsgLiteRxDone clear dev m h.1 g).bind fun r =>
        rpmsgLiteRxCallback clear handle fuel h.2 r.1 r.2

/-- Callbacks that hold or release each message by its descriptor. -/
def holdBy (hold : UInt16 → Bool) (_ : Unit) (_ : ByteMem) (g : Got) : Option (Bool × Unit) := some (hold g.idx, ())

/-! ## The task -/

/-- Where a task is inside `rpmsg_lite_release_rx_buffer`. -/
inductive ReleasePc
  /-- read `hdr.reserved.idx` for the length -/
  | readIdx
  /-- read the descriptor's length -/
  | readLen (idx : UInt16)
  /-- read `hdr.reserved.idx` for the index -/
  | readIdxAgain (len : UInt32)
  /-- clear byte `i` of the buffer, or go on -/
  | clear (d : UInt16) (len : UInt32) (i : Nat)
  | ring (pc : Pc)
  /-- `RL_ASSERT` failed -/
  | failed
deriving DecidableEq

/-- `virtqueue_add_buffer` publishes at once, `virtqueue_add_consumed_buffer` checks the index. -/
def ReleasePc.enter (r : Role) (vq : Virtqueue) (d : UInt16) (len : UInt32) : ReleasePc :=
  if r = .remote ∧ d > vq.nentries then .failed else .ring (.put d len)

/-- The task's next access; `none` when the function has returned or failed. -/
def ReleasePc.next (clear : Bool) (r : Role) (msg : Nat) (vq : Virtqueue) (m : ByteMem) :
    ReleasePc → Option (ReleasePc × Virtqueue × ByteMem)
  | .readIdx => some (.readLen (m.ld16 (hdrIdxAt msg)), vq, m)
  | .readLen idx => some (.readIdxAgain (virtqueueGetBufferLength vq m idx), vq, m)
  | .readIdxAgain len => some (.clear (m.ld16 (hdrIdxAt msg)) len 0, vq, m)
  | .clear d len i =>
    if clear ∧ i < len.toNat then some (.clear d len (i + 1), vq, m.fill (msg + i) 1 0)
    else some (ReleasePc.enter r vq d len, vq, m)
  | .ring pc => (pc.next r.getKind vq m).map fun x => (.ring x.1, x.2)
  | .failed => none

/-- The state of the task: where it is, its virtqueue and the memory. -/
abbrev Releasing := ReleasePc × Virtqueue × ByteMem

/-- Up to `n` accesses. -/
def Releasing.run (clear : Bool) (r : Role) (msg : Nat) : Nat → Releasing → Releasing
  | 0, s => s
  | n + 1, s =>
    match s.1.next clear r msg s.2.1 s.2.2 with
    | none => s
    | some s => Releasing.run clear r msg n s

section

variable {clear : Bool} {r : Role} {msg : Nat}

theorem Releasing.run_succ {s s' : Releasing} (h : s.1.next clear r msg s.2.1 s.2.2 = some s') (n : Nat) :
    s.run clear r msg (n + 1) = s'.run clear r msg n := by
  rw [Releasing.run, h]

theorem Releasing.run_end {s : Releasing} (h : s.1.next clear r msg s.2.1 s.2.2 = none) (n : Nat) :
    s.run clear r msg n = s := by
  cases n with
  | zero => rfl
  | succ n => rw [Releasing.run, h]

/-- The accesses of a ring operation. -/
theorem Releasing.run_solo {k n : Nat} {vq vq' : Virtqueue} {m m' : ByteMem} {pc : Pc} {res : QueueRes}
    (h : Pc.solo r.getKind k vq m pc = some (res, vq', m')) (hn : k ≤ n) :
    Releasing.run clear r msg n (.ring pc, vq, m) = (.ring (.ret res), vq', m') := by
  induction k generalizing n vq m pc with
  | zero =>
    cases pc with
    | ret res₀ => cases h; exact Releasing.run_end rfl n
    | _ => cases h
  | succ k ih =>
    by_cases hret : ∃ res₀, pc = .ret res₀
    · obtain ⟨res₀, rfl⟩ := hret
      cases h
      exact Releasing.run_end rfl n
    · have hsolo : Pc.solo r.getKind (k + 1) vq m pc =
          (pc.next r.getKind vq m).bind fun x => Pc.solo r.getKind k x.2.1 x.2.2 x.1 := by
        cases pc with
        | ret res₀ => exact absurd ⟨res₀, rfl⟩ hret
        | _ => rfl
      rw [hsolo] at h
      obtain ⟨x, hx, hs⟩ := Option.bind_eq_some_iff.1 h
      obtain ⟨n, rfl⟩ : ∃ n', n = n' + 1 := ⟨n - 1, by omega⟩
      have hnext : (ReleasePc.ring pc).next clear r msg vq m = some (.ring x.1, x.2) := by
        simp only [ReleasePc.next, hx, Option.map_some]
      rw [Releasing.run_succ hnext]
      exact ih hs (by omega)

theorem Releasing.run_add (s : Releasing) (a b : Nat) :
    s.run clear r msg (a + b) = (s.run clear r msg a).run clear r msg b := by
  induction a generalizing s with
  | zero => rw [Nat.zero_add, Releasing.run]
  | succ a ih =>
    cases h : s.1.next clear r msg s.2.1 s.2.2 with
    | none => rw [Releasing.run_end h, Releasing.run_end h, Releasing.run_end h]
    | some s' => rw [Nat.add_right_comm, Releasing.run_succ h, Releasing.run_succ h, ih]

theorem ReleasePc.next_clear {vq : Virtqueue} {m : ByteMem} {d : UInt16} {len : UInt32} {i : Nat} (h : i < len.toNat) :
    (ReleasePc.clear d len i).next true r msg vq m = some (.clear d len (i + 1), vq, m.fill (msg + i) 1 0) :=
  if_pos ⟨rfl, h⟩

theorem ReleasePc.next_cleared {vq : Virtqueue} {m : ByteMem} {d : UInt16} {len : UInt32} {i : Nat}
    (h : ¬ (clear = true ∧ i < len.toNat)) :
    (ReleasePc.clear d len i).next clear r msg vq m = some (ReleasePc.enter r vq d len, vq, m) := if_neg h

/-- The clearing loop. -/
theorem Releasing.run_clear {vq : Virtqueue} {d : UInt16} {len : UInt32} {n : Nat} :
    ∀ {i : Nat} {m : ByteMem}, i + n = len.toNat →
      Releasing.run true r msg (n + 1) (.clear d len i, vq, m) = (ReleasePc.enter r vq d len, vq, m.fill (msg + i) n 0) := by
  induction n with
  | zero =>
    intro i m hi
    rw [Releasing.run_succ (ReleasePc.next_cleared (by omega)), Releasing.run]
    rw [show m.fill (msg + i) 0 0 = m from funext fun b => if_neg (by omega)]
  | succ n ih =>
    intro i m hi
    rw [Releasing.run_succ (ReleasePc.next_clear (by omega)), ih (by omega)]
    congr 2
    funext b
    simp only [fill]
    by_cases h1 : b = msg + i
    · rw [if_neg (by omega), if_pos (by omega), if_pos (by omega)]
    · by_cases h2 : msg + (i + 1) ≤ b ∧ b < msg + (i + 1) + n
      · rw [if_pos h2, if_pos (by omega)]
      · rw [if_neg h2, if_neg (by omega), if_neg (by omega)]

/-- Without interruption the accesses are `rpmsg_lite_release_rx_buffer`. -/
theorem rpmsgLiteReleaseRxBuffer_run {dev dev' : RpmsgLiteInstance} {m m' : ByteMem} {rxbuf n : Nat}
    (hidx : m.ld16 (hdrIdxAt (msgFromBuf rxbuf)) ≤ dev.rvq.nentries)
    (h : rpmsgLiteReleaseRxBuffer clear dev m rxbuf = some (dev', m'))
    (hn : (virtqueueGetBufferLength dev.rvq m (m.ld16 (hdrIdxAt (msgFromBuf rxbuf)))).toNat + 9 ≤ n) :
    Releasing.run clear dev.role (msgFromBuf rxbuf) n (.readIdx, dev.rvq, m) = (.ring (.ret .done), dev'.rvq, m') := by
  unfold rpmsgLiteReleaseRxBuffer at h
  generalize msgFromBuf rxbuf = msg at *
  simp only at h
  rw [vqRxFree_eq dev.role clear m _ _ hidx] at h
  cases h
  obtain ⟨n, rfl⟩ : ∃ n', n = 3 + n' := ⟨n - 3, by omega⟩
  rw [Releasing.run_add]
  show Releasing.run clear dev.role msg n (.clear (m.ld16 (hdrIdxAt msg)) (virtqueueGetBufferLength dev.rvq m
    (m.ld16 (hdrIdxAt msg))) 0, dev.rvq, m) = _
  generalize virtqueueGetBufferLength dev.rvq m (m.ld16 (hdrIdxAt msg)) = len at *
  generalize m.ld16 (hdrIdxAt msg) = d at *
  have henter : ReleasePc.enter dev.role dev.rvq d len = .ring (.put d len) :=
    if_neg fun hgt => absurd hidx (UInt16.not_le.2 hgt.2)
  have hput : ∀ (k : Nat) (m : ByteMem), 5 ≤ k → Releasing.run clear dev.role msg k (.ring (.put d len), dev.rvq, m) =
      (.ring (.ret .done), vqPut dev.role.getKind.other dev.rvq m d len) := fun k m hk =>
    Releasing.run_solo (Pc.solo_put dev.role.getKind dev.rvq m d len hidx) hk
  cases clear with
  | true =>
    obtain ⟨n, rfl⟩ : ∃ n', n = (len.toNat + 1) + n' := ⟨n - (len.toNat + 1), by omega⟩
    rw [Releasing.run_add, Releasing.run_clear (Nat.zero_add _), henter, hput _ _ (by omega)]
    rfl
  | false =>
    obtain ⟨n, rfl⟩ : ∃ n', n = n' + 1 := ⟨n - 1, by omega⟩
    rw [Releasing.run_succ (ReleasePc.next_cleared (by simp)), henter, hput _ _ (by omega)]
    rfl

end

/-! ## Preemption -/

/-- The interrupt, run to completion while the task stands at `s`. -/
def Releasing.interrupt (clear : Bool) (hold : UInt16 → Bool) (fuel : Nat) (dev : RpmsgLiteInstance) (s : Releasing) :
    Option Releasing :=
  (rpmsgLiteRxCallback clear (holdBy hold) fuel () { dev with rvq := s.2.1 } s.2.2).map fun x => (s.1, x.2.1.rvq, x.2.2)

/-- The task after `i` accesses. -/
def Releasing.at (clear : Bool) (dev : RpmsgLiteInstance) (m : ByteMem) (rxbuf i : Nat) : Releasing :=
  Releasing.run clear dev.role (msgFromBuf rxbuf) i (.readIdx, dev.rvq, m)

/-- The release of `rxbuf`, preempted after `i` accesses and then finished by up to `n` more. -/
def releasePreempted (clear : Bool) (hold : UInt16 → Bool) (dev : RpmsgLiteInstance) (m : ByteMem) (rxbuf i fuel n : Nat) :
    Option Releasing :=
  ((Releasing.at clear dev m rxbuf i).interrupt clear hold fuel dev).map
    (Releasing.run clear dev.role (msgFromBuf rxbuf) n)

end RpmsgLite
