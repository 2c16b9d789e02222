/-
The ring operations one memory access at a time. `Pc.next` is the access a core makes next inside
`vq_ring_update_avail`, `vq_ring_update_used`, `virtqueue_get_available_buffer` or
`virtqueue_get_buffer`; run without interruption the accesses are the operation as a whole. Two cores
interleave their accesses on one memory.
-/
import RpmsgLite.Conc.Atomic

namespace RpmsgLite

open ByteMem

/-! ## Accesses -/

/-- Where a core is inside an operation; the names say what it does next. -/
inductive Pc
  | idle
  /-- read the ring's index -/
  | put (d : UInt16) (len : UInt32)
  /-- store the descriptor into the slot -/
  | putSlot (d : UInt16) (len : UInt32) (slot : Nat)
  /-- store the length into the slot, on the used ring -/
  | putLen (d : UInt16) (len : UInt32) (slot : Nat)
  /-- the load of `idx++` -/
  | putIncRead (d : UInt16) (len : UInt32)
  /-- the store of `idx++` -/
  | putIncWrite (d : UInt16) (len : UInt32) (idx : UInt16)
  /-- read the peer's index -/
  | get
  | usedId (slot : Nat)
  | usedLen (slot : Nat) (d : UInt16)
  /-- advance the local cursor -/
  | usedAdvance (d : UInt16) (len : UInt32)
  /-- read the descriptor -/
  | usedAddr (d : UInt16) (len : UInt32)
  | availAdvance (slot : Nat)
  | availSlot (slot : Nat)
  | availAddr (d : UInt16)
  | availLen (d : UInt16) (buffer : Nat)
  | ret (res : QueueRes)
deriving DecidableEq

/-- The next access of a core whose put ring is `k.other` and whose get ring is `k`; `none` between
operations. -/
def Pc.next (k : RingKind) (vq : Virtqueue) (m : ByteMem) : Pc → Option (Pc × Virtqueue × ByteMem)
  | .idle => none
  | .put d len => some (.putSlot d len (vq.ring.ringIdx m k.other &&& (vq.nentries - 1)).toNat, vq, m)
  | .putSlot d len slot =>
    match k.other with
    | .avail => some (.putIncRead d len, vq, m.st16 (vq.ring.availRingAt slot) d)
    | .used => some (.putLen d len slot, vq, m.st32 (vq.ring.usedIdAt slot) d.toUInt32)
  | .putLen d len slot => some (.putIncRead d len, vq, m.st32 (vq.ring.usedLenAt slot) len)
  | .putIncRead d len => some (.putIncWrite d len (vq.ring.ringIdx m k.other), vq, m)
  | .putIncWrite _ _ idx =>
    match k.other with
    | .avail => some (.ret .done, { vq with queuedCnt := vq.queuedCnt + 1 }, m.st16 vq.ring.availIdxAt (idx + 1))
    | .used => some (.ret .done, vq, m.st16 vq.ring.usedIdxAt (idx + 1))
  | .get =>
    if vq.cursor k = vq.ring.ringIdx m k then some (.ret .empty, vq, m)
    else
      match k with
      | .avail => some (.availAdvance (vq.availableIdx &&& (vq.nentries - 1)).toNat, vq, m)
      | .used => some (.usedId (vq.usedConsIdx &&& (vq.nentries - 1)).toNat, vq, m)
  | .usedId slot => some (.usedLen slot (m.ld32 (vq.ring.usedIdAt slot)).toUInt16, vq, m)
  | .usedLen slot d => some (.usedAdvance d (m.ld32 (vq.ring.usedLenAt slot)), vq, m)
  | .usedAdvance d len => some (.usedAddr d len, { vq with usedConsIdx := vq.usedConsIdx + 1 }, m)
  | .usedAddr d len =>
    some (.ret (.got ⟨envMapPatova (m.ld64 (vq.ring.descAddrAt d.toNat)).toUInt32, len, d⟩), vq, m)
  | .availAdvance slot => some (.availSlot slot, { vq with availableIdx := vq.availableIdx + 1 }, m)
  | .availSlot slot => some (.availAddr (m.ld16 (vq.ring.availRingAt slot)), vq, m)
  | .availAddr d => some (.availLen d (envMapPatova (m.ld64 (vq.ring.descAddrAt d.toNat)).toUInt32), vq, m)
  | .availLen d buffer => some (.ret (.got ⟨buffer, m.ld32 (vq.ring.descLenAt d.toNat), d⟩), vq, m)
  | .ret _ => none

/-- The accesses at which an operation takes effect. -/
def Pc.effect : Pc → Option QueueOp
  | .putIncWrite d len _ => some (.put d len)
  | .get => some .get
  | _ => none

/-- The first access of an operation. -/
def QueueOp.entry : QueueOp → Pc
  | .put d len => .put d len
  | .get => .get

/-! ## Without interruption -/

/-- Accesses of one core until its operation has returned. -/
def Pc.solo (k : RingKind) : Nat → Virtqueue → ByteMem → Pc → Option (QueueRes × Virtqueue × ByteMem)
  | _, vq, m, .ret res => some (res, vq, m)
  | 0, _, _, _ => none
  | n + 1, vq, m, pc => (pc.next k vq m).bind fun x => Pc.solo k n x.2.1 x.2.2 x.1

/-- What the consumer operations of the model return, as a result. -/
def QueueRes.of : Option Got → QueueRes
  | none => .empty
  | some g => .got g

/-- The accesses of a producer operation are `vqPut`. -/
theorem Pc.solo_put (k : RingKind) (vq : Virtqueue) (m : ByteMem) (d : UInt16) (len : UInt32) (hd : d ≤ vq.nentries) :
    Pc.solo k 5 vq m (.put d len) =
      some (.done, (vqPut k.other vq m d len).1, (vqPut k.other vq m d len).2) := by
  cases k with
  | avail =>
    have hput : virtqueueAddConsumedBuffer vq m d len = (VQUEUE_SUCCESS, vqRingUpdateUsed vq m d len) :=
      virtqueueAddConsumedBuffer_taken hd
    simp only [RingKind.other, vqPut, hput]
    rfl
  | used => rfl

/-- The accesses of a consumer operation are `vqGet`. -/
theorem Pc.solo_get (k : RingKind) (vq : Virtqueue) (m : ByteMem) :
    Pc.solo k 5 vq m .get = some (.of (vqGet k vq m).2, (vqGet k vq m).1, m) := by
  show (Pc.get.next k vq m).bind (fun x => Pc.solo k 4 x.2.1 x.2.2 x.1) = _
  by_cases hc : vq.cursor k = vq.ring.ringIdx m k
  · have hnext : Pc.get.next k vq m = some (.ret .empty, vq, m) := if_pos hc
    have hget : vqGet k vq m = (vq, none) := by cases k <;> exact if_pos hc
    rw [hnext, hget]; rfl
  · cases k with
    | avail =>
      have hnext : Pc.get.next .avail vq m = _ := if_neg hc
      have hget : vqGet .avail vq m = _ := if_neg hc
      rw [hnext, hget]; rfl
    | used =>
      have hnext : Pc.get.next .used vq m = _ := if_neg hc
      have hget : vqGet .used vq m = _ := if_neg hc
      rw [hnext, hget]; rfl

/-! ## Two cores -/

structure Core where
  vq : Virtqueue
  pc : Pc
  owned : Multiset UInt16

structure Micro where
  m : ByteMem
  core : Role → Core

/-- The state after core `r` became `x` and the memory `m`. -/
def Micro.put (s : Micro) (r : Role) (x : Core) (m : ByteMem) : Micro := ⟨m, Function.update s.core r x⟩

/-- One access of one core, or a call or a return; a core publishes only a descriptor it owns. -/
inductive Micro.Step : Micro → Option Label → Micro → Prop
  | callPut (s : Micro) (r : Role) (d : UInt16) (len : UInt32) (hs : (s.core r).pc = .idle) (hd : d ∈ (s.core r).owned) :
      Step s (some (.call r (.put d len)))
        (s.put r { s.core r with pc := (QueueOp.put d len).entry, owned := (s.core r).owned.erase d } s.m)
  | callGet (s : Micro) (r : Role) (hs : (s.core r).pc = .idle) :
      Step s (some (.call r .get)) (s.put r { s.core r with pc := QueueOp.get.entry } s.m)
  | access (s : Micro) (r : Role) (pc : Pc) (vq : Virtqueue) (m : ByteMem)
      (hs : (s.core r).pc.next r.getKind (s.core r).vq s.m = some (pc, vq, m)) :
      Step s ((s.core r).pc.effect.map (Label.effect r)) (s.put r { s.core r with pc, vq } m)
  | ret (s : Micro) (r : Role) (res : QueueRes) (hs : (s.core r).pc = .ret res) :
      Step s (some (.ret r res)) (s.put r { s.core r with pc := .idle, owned := (s.core r).owned + res.ids } s.m)

/-- The interleavings from `s₀` with their histories. -/
inductive Micro.Run (s₀ : Micro) : List Label → Micro → Prop
  | start : Run s₀ [] s₀
  | step {ls : List Label} {l : Option Label} {s s' : Micro} (h : Run s₀ ls s) (hs : Step s l s') :
      Run s₀ (ls ++ l.toList) s'

end RpmsgLite
