/-
The single accesses refine the atomic queues. `Micro.abs` reads the two queues off the rings, from the
cursor as the consumer has effectively advanced it to the published index. A producer's accesses change
nothing of it before the store of the index, a consumer's nothing after the load of the index, because
the slot being written is neither pending nor being read: that is where the ownership of the
descriptors comes in.
-/
import RpmsgLite.Conc.Micro
import RpmsgLite.Conc.Slots
import RpmsgLite.Link.Pool

namespace RpmsgLite

open ByteMem

/-! ## Abstraction -/

/-- The cursor is behind what the operation has taken. -/
def Pc.lags : Pc → Bool
  | .usedId _ | .usedLen _ _ | .usedAdvance _ _ | .availAdvance _ => true
  | _ => false

/-- The slot that the operation has yet to read. -/
def Pc.reads : Pc → Option Nat
  | .usedId slot | .usedLen slot _ | .availAdvance slot | .availSlot slot => some slot
  | _ => none

/-- The cursor of a core on ring `k`, counting what its operation has taken. -/
def Core.cons (c : Core) (k : RingKind) : UInt16 := if c.pc.lags then c.vq.cursor k + 1 else c.vq.cursor k

theorem Core.cons_congr {c c' : Core} {k : RingKind} (hv : c'.vq = c.vq) (hl : c'.pc.lags = c.pc.lags) :
    c'.cons k = c.cons k := by
  unfold Core.cons
  rw [hv, hl]

section

variable (vr : Vring) (T : DescTable)

/-- How far the operation of a core is, for its caller; `k` is the core's get ring. -/
def Pc.status (k : RingKind) (m : ByteMem) : Pc → Status
  | .idle => .idle
  | .put d len | .putSlot d len _ | .putLen d len _ | .putIncRead d len | .putIncWrite d len _ => .running (.put d len)
  | .get => .running .get
  | .usedId slot | .usedLen slot _ | .availAdvance slot | .availSlot slot =>
    .finished (.got (T.got (vr.slotEntry T m k slot)))
  | .usedAdvance d len | .usedAddr d len => .finished (.got (T.got (d, len)))
  | .availAddr d | .availLen d _ => .finished (.got (T.got (d, T.len d)))
  | .ret res => .finished res

/-- The entries of a ring that its consumer has not taken. -/
def Micro.queue (s : Micro) (k : RingKind) : List Entry :=
  FreeRing.pending (vr.slotEntry T s.m k) vr.num (vr.ringIdx s.m k) ((s.core k.consumer).cons k)

def Micro.abs (s : Micro) : Atomic where
  queue := s.queue vr T
  status r := (s.core r).pc.status vr T r.getKind s.m
  owned r := (s.core r).owned

/-! ## The invariant -/

/-- What holds of a core between two accesses of its operation. -/
def Pc.Ok (r : Role) (m : ByteMem) (c : Core) : Prop :=
  match c.pc with
  | .putSlot _ _ slot => slot = (vr.ringIdx m r.putKind).toNat % vr.num
  | .putLen d _ slot =>
    r.putKind = .used ∧ slot = (vr.ringIdx m r.putKind).toNat % vr.num ∧ (vr.slotEntry T m .used slot).1 = d
  | .putIncRead d len =>
    vr.slotEntry T m r.putKind ((vr.ringIdx m r.putKind).toNat % vr.num) = T.entry r.putKind d len
  | .putIncWrite d len idx =>
    idx = vr.ringIdx m r.putKind ∧ vr.slotEntry T m r.putKind (idx.toNat % vr.num) = T.entry r.putKind d len
  | .usedId slot => r.getKind = .used ∧ slot = (c.vq.usedConsIdx + 1 - 1).toNat % vr.num
  | .usedLen slot d =>
    r.getKind = .used ∧ slot = (c.vq.usedConsIdx + 1 - 1).toNat % vr.num ∧ (vr.slotEntry T m .used slot).1 = d
  | .usedAdvance _ _ => r.getKind = .used
  | .availAdvance slot => r.getKind = .avail ∧ slot = (c.vq.availableIdx + 1 - 1).toNat % vr.num
  | .availSlot slot => r.getKind = .avail ∧ slot = (c.vq.availableIdx - 1).toNat % vr.num
  | .availLen d buffer => buffer = T.buffer d
  | _ => True

structure Micro.Inv (s : Micro) : Prop where
  laid : vr.Laid
  wf : ∀ r, (s.core r).vq.Wf
  ring : ∀ r, (s.core r).vq.ring = vr
  table : vr.HasTable T s.m
  pc : ∀ r, Pc.Ok vr T r s.m (s.core r)
  total : ∀ d ∈ (s.abs vr T).total, d.toNat < vr.num
  room : (s.abs vr T).total.card ≤ vr.num

/-- One step seen from the atomic queues: nothing, or the labelled step. -/
def Atomic.StepOr (a : Atomic) (l : Option Label) (a' : Atomic) : Prop :=
  match l with
  | none => a' = a
  | some l => Atomic.Step T a l a'

end

section

variable {vr : Vring} {T : DescTable} {s : Micro} {r : Role} {x : Core} {m m' : ByteMem}

theorem Atomic.StepOr.total {a a' : Atomic} {l : Option Label} (h : Atomic.StepOr T a l a') : a'.total = a.total := by
  cases l with
  | none => rw [show a' = a from h]
  | some l => exact Atomic.Step.total h

/-- The slot an operation has yet to read is the one its cursor has just passed. -/
theorem Pc.Ok.reads {slot : Nat} (h : Pc.Ok vr T r m x) (hs : x.pc.reads = some slot) :
    slot = (x.cons r.getKind - 1).toNat % vr.num ∧
      x.pc.status vr T r.getKind m = .finished (.got (T.got (vr.slotEntry T m r.getKind slot))) := by
  unfold Pc.Ok at h
  unfold Core.cons
  cases hp : x.pc with
  | usedId sl =>
    rw [hp] at h hs; cases hs
    rw [h.1]; exact ⟨h.2, rfl⟩
  | usedLen sl d =>
    rw [hp] at h hs; cases hs
    rw [h.1]; exact ⟨h.2.1, rfl⟩
  | availAdvance sl =>
    rw [hp] at h hs; cases hs
    rw [h.1]; exact ⟨h.2, rfl⟩
  | availSlot sl =>
    rw [hp] at h hs; cases hs
    rw [h.1]; exact ⟨h.2, rfl⟩
  | _ => rw [hp] at hs; cases hs

/-- A core's condition and status depend on its put ring's index and slots and on the slot it has yet to
read. -/
theorem Pc.Ok.congr (hn : 0 < vr.num) (h : Pc.Ok vr T r m x) (hidx : vr.ringIdx m' r.putKind = vr.ringIdx m r.putKind)
    (hput : ∀ j < vr.num, vr.slotEntry T m' r.putKind j = vr.slotEntry T m r.putKind j)
    (hread : ∀ slot, x.pc.reads = some slot → vr.slotEntry T m' r.getKind slot = vr.slotEntry T m r.getKind slot) :
    Pc.Ok vr T r m' x ∧ x.pc.status vr T r.getKind m' = x.pc.status vr T r.getKind m := by
  have hslot := hput ((vr.ringIdx m r.putKind).toNat % vr.num) (Nat.mod_lt _ hn)
  unfold Pc.Ok at h ⊢
  cases hp : x.pc with
  | putSlot d len sl => rw [hp] at h; exact ⟨by rw [hidx]; exact h, rfl⟩
  | putLen d len sl =>
    rw [hp] at h
    obtain ⟨h1, h2, h3⟩ := h
    have hs := hput sl (h2 ▸ Nat.mod_lt _ hn)
    rw [h1] at hs
    exact ⟨⟨h1, by rw [hidx]; exact h2, by rw [hs]; exact h3⟩, rfl⟩
  | putIncRead d len => rw [hp] at h; exact ⟨by rw [hidx, hslot]; exact h, rfl⟩
  | putIncWrite d len idx =>
    rw [hp] at h
    obtain ⟨h1, h2⟩ := h
    subst h1
    exact ⟨⟨hidx.symm, by rw [hslot]; exact h2⟩, rfl⟩
  | usedId sl =>
    rw [hp] at h
    have hs := hread sl (by rw [hp]; rfl)
    exact ⟨h, by simp only [Pc.status, hs]⟩
  | usedLen sl d =>
    rw [hp] at h
    have hs := hread sl (by rw [hp]; rfl)
    refine ⟨⟨h.1, h.2.1, ?_⟩, by simp only [Pc.status, hs]⟩
    rw [h.1] at hs
    rw [hs]; exact h.2.2
  | availAdvance sl =>
    rw [hp] at h
    have hs := hread sl (by rw [hp]; rfl)
    exact ⟨h, by simp only [Pc.status, hs]⟩
  | availSlot sl =>
    rw [hp] at h
    have hs := hread sl (by rw [hp]; rfl)
    exact ⟨h, by simp only [Pc.status, hs]⟩
  | usedAdvance d len => rw [hp] at h; exact ⟨h, rfl⟩
  | availLen d b => rw [hp] at h; exact ⟨h, rfl⟩
  | _ => exact ⟨trivial, rfl⟩

/-! ## Steps of one core -/

/-- The abstraction after core `r` changed: only `r`'s own entries can differ. -/
theorem Micro.abs_put (hq : ∀ k, (s.put r x m).queue vr T k = s.queue vr T k)
    (hpeer : (s.core r.peer).pc.status vr T r.peer.getKind m = (s.core r.peer).pc.status vr T r.peer.getKind s.m) :
    (s.put r x m).abs vr T =
      { queue := s.queue vr T
        status := Function.update (s.abs vr T).status r (x.pc.status vr T r.getKind m)
        owned := Function.update (s.abs vr T).owned r x.owned } := by
  refine Atomic.ext (funext hq) (funext fun q => ?_) (funext fun q => ?_)
  · rcases r.eq_or_peer q with rfl | rfl
    · simp only [Micro.abs, Micro.put, Function.update_self]
    · simp only [Micro.abs, Micro.put, Function.update_of_ne (Role.peer_ne r)]
      exact hpeer
  · rcases r.eq_or_peer q with rfl | rfl
    · simp only [Micro.abs, Micro.put, Function.update_self]
    · simp only [Micro.abs, Micro.put, Function.update_of_ne (Role.peer_ne r)]

theorem Micro.queue_put_get (s : Micro) (r : Role) (x : Core) (m : ByteMem) : (s.put r x m).queue vr T r.getKind =
    FreeRing.pending (vr.slotEntry T m r.getKind) vr.num (vr.ringIdx m r.getKind) (x.cons r.getKind) := by
  unfold Micro.queue Micro.put
  rw [← Role.eq_consumer rfl]
  simp only [Function.update_self]

theorem Micro.queue_put_put (s : Micro) (r : Role) (x : Core) (m : ByteMem) : (s.put r x m).queue vr T r.putKind =
    FreeRing.pending (vr.slotEntry T m r.putKind) vr.num (vr.ringIdx m r.putKind) ((s.core r.peer).cons r.putKind) := by
  unfold Micro.queue Micro.put
  rw [← Role.eq_consumer (r := r.peer) (Role.getKind_peer_eq_putKind r)]
  simp only [Function.update_of_ne (Role.peer_ne r)]

theorem Micro.queue_get (s : Micro) (r : Role) : s.queue vr T r.getKind =
    FreeRing.pending (vr.slotEntry T s.m r.getKind) vr.num (vr.ringIdx s.m r.getKind) ((s.core r).cons r.getKind) := by
  unfold Micro.queue
  rw [← Role.eq_consumer rfl]

theorem Micro.queue_putKind (s : Micro) (r : Role) : s.queue vr T r.putKind =
    FreeRing.pending (vr.slotEntry T s.m r.putKind) vr.num (vr.ringIdx s.m r.putKind) ((s.core r.peer).cons r.putKind) := by
  unfold Micro.queue
  rw [← Role.eq_consumer (r := r.peer) (Role.getKind_peer_eq_putKind r)]

theorem RingKind.eq_get_or_put (r : Role) (k : RingKind) : k = r.getKind ∨ k = r.putKind := by
  cases r <;> cases k <;> simp [Role.getKind, Role.putKind, RingKind.other]

/-- A step of core `r` keeps the invariant when the virtqueue and the table are intact and both cores'
conditions hold. -/
theorem Micro.Inv.put (h : s.Inv vr T) {l : Option Label} (hw : x.vq.Wf) (hr : x.vq.ring = vr) (ht : vr.HasTable T m)
    (hok : Pc.Ok vr T r m x) (hpeer : Pc.Ok vr T r.peer m (s.core r.peer))
    (hstep : Atomic.StepOr T (s.abs vr T) l ((s.put r x m).abs vr T)) : (s.put r x m).Inv vr T := by
  refine ⟨h.laid, ?_, ?_, ht, ?_, by rw [hstep.total]; exact h.total, by rw [hstep.total]; exact h.room⟩
  · intro q
    rcases r.eq_or_peer q with rfl | rfl
    · simp only [Micro.put, Function.update_self]; exact hw
    · simp only [Micro.put, Function.update_of_ne (Role.peer_ne r)]; exact h.wf _
  · intro q
    rcases r.eq_or_peer q with rfl | rfl
    · simp only [Micro.put, Function.update_self]; exact hr
    · simp only [Micro.put, Function.update_of_ne (Role.peer_ne r)]; exact h.ring _
  · intro q
    rcases r.eq_or_peer q with rfl | rfl
    · simp only [Micro.put, Function.update_self]; exact hok
    · simp only [Micro.put, Function.update_of_ne (Role.peer_ne r)]; exact hpeer

/-- A step that leaves the memory and the effective cursor alone. -/
theorem Micro.Inv.quiet (h : s.Inv vr T) (hw : x.vq.Wf) (hr : x.vq.ring = vr) (hok : Pc.Ok vr T r s.m x)
    (hcons : x.cons r.getKind = (s.core r).cons r.getKind) {l : Option Label}
    (hstep : Atomic.StepOr T (s.abs vr T) l
      { queue := s.queue vr T
        status := Function.update (s.abs vr T).status r (x.pc.status vr T r.getKind s.m)
        owned := Function.update (s.abs vr T).owned r x.owned }) :
    (s.put r x s.m).Inv vr T ∧ Atomic.StepOr T (s.abs vr T) l ((s.put r x s.m).abs vr T) := by
  have hq : ∀ k, (s.put r x s.m).queue vr T k = s.queue vr T k := by
    intro k
    rcases RingKind.eq_get_or_put r k with rfl | rfl
    · rw [Micro.queue_put_get, hcons, Micro.queue_get]
    · rw [Micro.queue_put_put, Micro.queue_putKind]
  rw [← Micro.abs_put hq rfl] at hstep
  exact ⟨h.put hw hr h.table hok (h.pc _) hstep, hstep⟩

/-- A quiet step that the caller does not see. -/
theorem Micro.Inv.silent (h : s.Inv vr T) (hw : x.vq.Wf) (hr : x.vq.ring = vr) (hok : Pc.Ok vr T r s.m x)
    (hcons : x.cons r.getKind = (s.core r).cons r.getKind) (howned : x.owned = (s.core r).owned)
    (hstatus : x.pc.status vr T r.getKind s.m = (s.core r).pc.status vr T r.getKind s.m) :
    (s.put r x s.m).Inv vr T ∧ Atomic.StepOr T (s.abs vr T) none ((s.put r x s.m).abs vr T) := by
  refine h.quiet hw hr hok hcons ?_
  rw [hstatus, howned]
  refine Atomic.ext rfl ?_ ?_
  · exact Function.update_eq_self r (s.abs vr T).status
  · exact Function.update_eq_self r (s.abs vr T).owned

/-- While core `r` publishes, the slot behind the index is neither pending nor being read. -/
theorem Micro.Inv.free_slot (h : s.Inv vr T) {d : UInt16} {len : UInt32}
    (hs : (s.core r).pc.status vr T r.getKind s.m = .running (.put d len)) :
    FreeRing.count (vr.ringIdx s.m r.putKind) ((s.core r.peer).cons r.putKind) < vr.num ∧
    ∀ slot, (s.core r.peer).pc.reads = some slot →
      slot < vr.num ∧ slot ≠ (vr.ringIdx s.m r.putKind).toNat % vr.num := by
  have hroom := Atomic.room (a := s.abs vr T) hs
  have hcard := h.room
  have hlen : ((s.abs vr T).queue r.putKind).length =
      FreeRing.count (vr.ringIdx s.m r.putKind) ((s.core r.peer).cons r.putKind) := by
    show (s.queue vr T r.putKind).length = _
    rw [Micro.queue_putKind, FreeRing.length_pending]
  rw [hlen] at hroom
  refine ⟨by omega, fun slot hread => ?_⟩
  obtain ⟨hslot, hstat⟩ := (h.pc r.peer).reads hread
  have hhand : ((s.abs vr T).status r.peer).hand.card = 1 := by
    show ((s.core r.peer).pc.status vr T r.peer.getKind s.m).hand.card = 1
    rw [hstat]; rfl
  rw [Role.getKind_peer_eq_putKind] at hslot
  refine ⟨hslot ▸ Nat.mod_lt _ h.laid.size.pos, ?_⟩
  rw [hslot]
  exact FreeRing.passed_slot_ne h.laid.size (by omega)

/-- A store into the slot behind the index. -/
theorem Micro.Inv.slotWrite (h : s.Inv vr T) {d : UInt16} {len : UInt32}
    (hs : (s.core r).pc.status vr T r.getKind s.m = .running (.put d len))
    (hm : SlotWrite vr T r.putKind ((vr.ringIdx s.m r.putKind).toNat % vr.num) s.m m)
    (hw : x.vq.Wf) (hr : x.vq.ring = vr) (hok : Pc.Ok vr T r m x)
    (hcons : x.cons r.getKind = (s.core r).cons r.getKind) (howned : x.owned = (s.core r).owned)
    (hstatus : x.pc.status vr T r.getKind m = .running (.put d len)) :
    (s.put r x m).Inv vr T ∧ Atomic.StepOr T (s.abs vr T) none ((s.put r x m).abs vr T) := by
  obtain ⟨hcount, hread⟩ := h.free_slot hs
  have hpos := h.laid.size.pos
  have hget : ∀ j < vr.num, vr.slotEntry T m r.getKind j = vr.slotEntry T s.m r.getKind j := by
    have := hm.other
    rwa [Role.putKind, RingKind.other_other] at this
  have hq : ∀ k, (s.put r x m).queue vr T k = s.queue vr T k := by
    intro k
    rcases RingKind.eq_get_or_put r k with rfl | rfl
    · rw [Micro.queue_put_get, hcons, Micro.queue_get, hm.idx]
      exact FreeRing.pending_congr hpos hget _ _
    · rw [Micro.queue_put_put, Micro.queue_putKind, hm.idx]
      exact FreeRing.pending_write h.laid.size hcount hm.own
  obtain ⟨hpeer, hpstat⟩ := (h.pc r.peer).congr hpos (hm.idx _)
    (fun j hj => by rw [Role.putKind_peer]; exact hget j hj)
    (fun slot hslot => by
      rw [Role.getKind_peer_eq_putKind]
      exact hm.own slot (hread slot hslot).1 (hread slot hslot).2)
  have habs := Micro.abs_put (x := x) hq hpstat
  have hstep : Atomic.StepOr T (s.abs vr T) none ((s.put r x m).abs vr T) := by
    show _ = _
    rw [habs, hstatus, howned]
    refine Atomic.ext rfl ?_ ?_
    · show Function.update _ r _ = _
      rw [← hs]
      exact Function.update_eq_self r (s.abs vr T).status
    · exact Function.update_eq_self r (s.abs vr T).owned
  exact ⟨h.put hw hr (h.table.congr hm.table) hok hpeer hstep, hstep⟩

/-- The store of the index: the entry in the slot joins the queue. -/
theorem Micro.Inv.idxWrite (h : s.Inv vr T) {d : UInt16} {len : UInt32}
    (hs : (s.core r).pc.status vr T r.getKind s.m = .running (.put d len))
    (hentry : vr.slotEntry T s.m r.putKind ((vr.ringIdx s.m r.putKind).toNat % vr.num) = T.entry r.putKind d len)
    (hm : IdxWrite vr T r.putKind (vr.ringIdx s.m r.putKind + 1) s.m m) (hw : x.vq.Wf) (hr : x.vq.ring = vr)
    (hpc : x.pc = .ret .done) (hcons : x.cons r.getKind = (s.core r).cons r.getKind) (howned : x.owned = (s.core r).owned) :
    (s.put r x m).Inv vr T ∧
      Atomic.StepOr T (s.abs vr T) (some (.effect r (.put d len))) ((s.put r x m).abs vr T) := by
  obtain ⟨hcount, hread⟩ := h.free_slot hs
  have hpos := h.laid.size.pos
  have hotherIdx : vr.ringIdx m r.getKind = vr.ringIdx s.m r.getKind := by
    have := hm.other
    rwa [Role.putKind, RingKind.other_other] at this
  have hqget : (s.put r x m).queue vr T r.getKind = s.queue vr T r.getKind := by
    rw [Micro.queue_put_get, hcons, Micro.queue_get, hotherIdx]
    exact FreeRing.pending_congr hpos (hm.slots _) _ _
  have hqput : (s.put r x m).queue vr T r.putKind = s.queue vr T r.putKind ++ [T.entry r.putKind d len] := by
    rw [Micro.queue_put_put, Micro.queue_putKind, hm.idx,
      FreeRing.pending_push h.laid.size hcount (fun j hj _ => hm.slots _ j hj), hm.slots _ _ (Nat.mod_lt _ hpos), hentry]
  obtain ⟨hpeer, hpstat⟩ := (h.pc r.peer).congr hpos
    (by rw [Role.putKind_peer]; exact hotherIdx) (hm.slots _) (fun slot hslot => hm.slots _ _ (hread slot hslot).1)
  have hstep : Atomic.StepOr T (s.abs vr T) (some (.effect r (.put d len))) ((s.put r x m).abs vr T) := by
    have habs : (s.put r x m).abs vr T =
        { s.abs vr T with queue := Function.update (s.queue vr T) r.putKind (s.queue vr T r.putKind ++ [T.entry r.putKind d len])
                          status := Function.update (s.abs vr T).status r (.finished .done) } := by
      refine Atomic.ext (funext fun k => ?_) (funext fun q => ?_) (funext fun q => ?_)
      · show (s.put r x m).queue vr T k = Function.update (s.queue vr T) r.putKind _ k
        rcases RingKind.eq_get_or_put r k with rfl | rfl
        · rw [Function.update_of_ne (Role.putKind_ne_getKind r).symm]; exact hqget
        · rw [Function.update_self]; exact hqput
      · rcases r.eq_or_peer q with rfl | rfl
        · simp only [Micro.abs, Micro.put, Function.update_self, hpc]; rfl
        · simp only [Micro.abs, Micro.put, Function.update_of_ne (Role.peer_ne r)]; exact hpstat
      · rcases r.eq_or_peer q with rfl | rfl
        · simp only [Micro.abs, Micro.put, Function.update_self, howned]
        · simp only [Micro.abs, Micro.put, Function.update_of_ne (Role.peer_ne r)]
    rw [habs]
    exact .put (s.abs vr T) r d len hs
  refine ⟨h.put hw hr (h.table.congr hm.table) ?_ hpeer hstep, hstep⟩
  unfold Pc.Ok
  rw [hpc]
  trivial

end

end RpmsgLite
