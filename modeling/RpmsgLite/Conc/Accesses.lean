/-
Each access of either core keeps the invariant, and is either invisible to the atomic queues or the
effect of its operation: the store of the index for a producer, the load of the index for a consumer.
-/
import RpmsgLite.Conc.Refine

namespace RpmsgLite

open ByteMem

/-- What an access of core `r` does to the invariant and to the atomic queues. -/
def Micro.Accessed (vr : Vring) (T : DescTable) (s : Micro) (r : Role) (pc : Pc) (vq : Virtqueue) (m : ByteMem) : Prop :=
  (s.put r { s.core r with pc, vq } m).Inv vr T ∧
    Atomic.StepOr T (s.abs vr T) ((s.core r).pc.effect.map (Label.effect r))
      ((s.put r { s.core r with pc, vq } m).abs vr T)

section

variable {vr : Vring} {T : DescTable} {s s' : Micro} {r : Role} {pc pc' : Pc} {vq vq' : Virtqueue} {owned : Multiset UInt16}
  {x : Core} {m : ByteMem} {d : UInt16} {len : UInt32} {slot : Nat}

theorem Micro.Inv.core (h : s.Inv vr T) (hc : s.core r = ⟨vq, pc, owned⟩) :
    vq.Wf ∧ vq.ring = vr ∧ Pc.Ok vr T r s.m ⟨vq, pc, owned⟩ := by
  have hw := h.wf r
  have hr := h.ring r
  have hok := h.pc r
  rw [hc] at hw hr hok
  exact ⟨hw, hr, hok⟩

/-! ## Accesses of a producer -/

theorem Micro.Inv.access_put (h : s.Inv vr T) (hc : s.core r = ⟨vq, .put d len, owned⟩)
    (hs : (Pc.put d len).next r.getKind vq s.m = some (pc', vq', m)) : s.Accessed vr T r pc' vq' m := by
  obtain ⟨hw, hr, -⟩ := h.core hc
  cases hs
  unfold Micro.Accessed
  rw [hc]
  refine h.silent hw hr ?_ (by rw [hc]; rfl) (by rw [hc]) (by rw [hc]; rfl)
  show (vq.ring.ringIdx s.m r.putKind &&& (vq.nentries - 1)).toNat = _
  rw [hw.mask, hr]

theorem Micro.Inv.access_putSlot (h : s.Inv vr T) (hc : s.core r = ⟨vq, .putSlot d len slot, owned⟩)
    (hs : (Pc.putSlot d len slot).next r.getKind vq s.m = some (pc', vq', m)) : s.Accessed vr T r pc' vq' m := by
  obtain ⟨hw, hr, hslot⟩ := h.core hc
  replace hslot : slot = (vr.ringIdx s.m r.putKind).toNat % vr.num := hslot
  have hlt : slot < vr.num := hslot ▸ Nat.mod_lt _ h.laid.size.pos
  have hstat : (s.core r).pc.status vr T r.getKind s.m = .running (.put d len) := by rw [hc]; rfl
  unfold Micro.Accessed
  rw [hc]
  cases hk : r.putKind with
  | avail =>
    rw [Pc.next, show r.getKind.other = .avail from hk] at hs
    cases hs
    rw [hr]
    obtain ⟨hsw, hentry⟩ := availSlot_write (T := T) h.laid hlt s.m d
    refine h.slotWrite hstat (by rw [← hslot, hk]; exact hsw) hw hr ?_ (by rw [hc]; rfl) (by rw [hc]) rfl
    show vr.slotEntry T _ r.putKind ((vr.ringIdx _ r.putKind).toNat % vr.num) = T.entry r.putKind d len
    rw [hsw.idx, ← hslot, hk, hentry]
    rfl
  | used =>
    rw [Pc.next, show r.getKind.other = .used from hk] at hs
    cases hs
    rw [hr]
    obtain ⟨hsw, hentry⟩ := usedId_write (T := T) h.laid hlt s.m d
    refine h.slotWrite hstat (by rw [← hslot, hk]; exact hsw) hw hr ?_ (by rw [hc]; rfl) (by rw [hc]) rfl
    exact ⟨hk, by rw [hsw.idx]; exact hslot, hentry⟩

theorem Micro.Inv.access_putLen (h : s.Inv vr T) (hc : s.core r = ⟨vq, .putLen d len slot, owned⟩)
    (hs : (Pc.putLen d len slot).next r.getKind vq s.m = some (pc', vq', m)) : s.Accessed vr T r pc' vq' m := by
  obtain ⟨hw, hr, hk, hslot, hd⟩ := h.core hc
  have hlt : slot < vr.num := hslot ▸ Nat.mod_lt _ h.laid.size.pos
  have hstat : (s.core r).pc.status vr T r.getKind s.m = .running (.put d len) := by rw [hc]; rfl
  cases hs
  unfold Micro.Accessed
  rw [hc, hr]
  obtain ⟨hsw, hentry⟩ := usedLen_write (T := T) h.laid hlt s.m len
  refine h.slotWrite hstat (by rw [← hslot, hk]; exact hsw) hw hr ?_ (by rw [hc]; rfl) (by rw [hc]) rfl
  show vr.slotEntry T _ r.putKind ((vr.ringIdx _ r.putKind).toNat % vr.num) = T.entry r.putKind d len
  rw [hsw.idx, ← hslot, hk, hentry, hd]
  rfl

theorem Micro.Inv.access_putIncRead (h : s.Inv vr T) (hc : s.core r = ⟨vq, .putIncRead d len, owned⟩)
    (hs : (Pc.putIncRead d len).next r.getKind vq s.m = some (pc', vq', m)) : s.Accessed vr T r pc' vq' m := by
  obtain ⟨hw, hr, hentry⟩ := h.core hc
  cases hs
  unfold Micro.Accessed
  rw [hc, hr]
  exact h.silent hw hr ⟨rfl, hentry⟩ (by rw [hc]; rfl) (by rw [hc]) (by rw [hc]; rfl)

theorem Micro.Inv.access_putIncWrite {idx : UInt16} (h : s.Inv vr T) (hc : s.core r = ⟨vq, .putIncWrite d len idx, owned⟩)
    (hs : (Pc.putIncWrite d len idx).next r.getKind vq s.m = some (pc', vq', m)) : s.Accessed vr T r pc' vq' m := by
  obtain ⟨hw, hr, rfl, hentry⟩ := h.core hc
  have hstat : (s.core r).pc.status vr T r.getKind s.m = .running (.put d len) := by rw [hc]; rfl
  have hiw := idx_write (T := T) h.laid r.putKind s.m (vr.ringIdx s.m r.putKind + 1)
  unfold Micro.Accessed
  rw [hc]
  cases hk : r.putKind with
  | avail =>
    rw [Pc.next, show r.getKind.other = .avail from hk] at hs
    cases hs
    refine h.idxWrite hstat hentry ?_ ⟨hw.laid, hw.num_eq⟩ hr rfl ?_ (by rw [hc])
    · rw [hk] at hiw ⊢
      rw [hr]; exact hiw
    · rw [hc]
      cases r <;> rfl
  | used =>
    rw [Pc.next, show r.getKind.other = .used from hk] at hs
    cases hs
    refine h.idxWrite hstat hentry ?_ hw hr rfl (by rw [hc]; rfl) (by rw [hc])
    rw [hk] at hiw ⊢
    rw [hr]; exact hiw

/-! ## Accesses of a consumer -/

/-- The load of the index by a consumer that finds an entry. -/
theorem Micro.Inv.take (h : s.Inv vr T) (hs : (s.core r).pc.status vr T r.getKind s.m = .running .get)
    (hne : vr.ringIdx s.m r.getKind ≠ (s.core r).cons r.getKind) (hw : x.vq.Wf) (hr : x.vq.ring = vr)
    (hok : Pc.Ok vr T r s.m x) (hcons : x.cons r.getKind = (s.core r).cons r.getKind + 1) (howned : x.owned = (s.core r).owned)
    (hstatus : x.pc.status vr T r.getKind s.m =
      .finished (.got (T.got (vr.slotEntry T s.m r.getKind (((s.core r).cons r.getKind).toNat % vr.num))))) :
    (s.put r x s.m).Inv vr T ∧ Atomic.StepOr T (s.abs vr T) (some (.effect r .get)) ((s.put r x s.m).abs vr T) := by
  have hpop : FreeRing.pending (vr.slotEntry T s.m r.getKind) _ _ _ = _ := FreeRing.pending_pop h.laid.size hne
  rw [← Micro.queue_get, ← hcons, ← Micro.queue_put_get s] at hpop
  have hstep : Atomic.StepOr T (s.abs vr T) (some (.effect r .get)) ((s.put r x s.m).abs vr T) := by
    have habs : (s.put r x s.m).abs vr T =
        { s.abs vr T with
          queue := Function.update (s.queue vr T) r.getKind ((s.put r x s.m).queue vr T r.getKind)
          status := Function.update (s.abs vr T).status r (x.pc.status vr T r.getKind s.m) } := by
      refine Atomic.ext (funext fun k => ?_) (funext fun q => ?_) (funext fun q => ?_)
      · show (s.put r x s.m).queue vr T k = Function.update (s.queue vr T) r.getKind _ k
        rcases RingKind.eq_get_or_put r k with rfl | rfl
        · rw [Function.update_self]
        · rw [Function.update_of_ne (Role.putKind_ne_getKind r), Micro.queue_put_put, Micro.queue_putKind]
      · rcases r.eq_or_peer q with rfl | rfl
        · simp only [Micro.abs, Micro.put, Function.update_self]
        · simp only [Micro.abs, Micro.put, Function.update_of_ne (Role.peer_ne r)]
      · rcases r.eq_or_peer q with rfl | rfl
        · simp only [Micro.abs, Micro.put, Function.update_self, howned]
        · simp only [Micro.abs, Micro.put, Function.update_of_ne (Role.peer_ne r)]
    rw [habs, hstatus]
    exact .get (s.abs vr T) r _ _ hs hpop
  exact ⟨h.put hw hr h.table hok (h.pc _) hstep, hstep⟩

theorem Micro.Inv.access_get (h : s.Inv vr T) (hc : s.core r = ⟨vq, .get, owned⟩)
    (hs : Pc.get.next r.getKind vq s.m = some (pc', vq', m)) : s.Accessed vr T r pc' vq' m := by
  obtain ⟨hw, hr, -⟩ := h.core hc
  have hstat : (s.core r).pc.status vr T r.getKind s.m = .running .get := by rw [hc]; rfl
  have hcur : (s.core r).cons r.getKind = vq.cursor r.getKind := by rw [hc]; rfl
  unfold Micro.Accessed
  rw [hc]
  unfold Pc.next at hs
  by_cases he : vq.cursor r.getKind = vq.ring.ringIdx s.m r.getKind
  · rw [if_pos he] at hs
    cases hs
    refine h.quiet (x := ⟨vq, .ret .empty, owned⟩) hw hr trivial (by rw [hc]; rfl) ?_
    rw [show owned = (s.abs vr T).owned r by simp only [Micro.abs, hc], Function.update_eq_self]
    refine .getEmpty (s.abs vr T) r hstat ?_
    show s.queue vr T r.getKind = []
    rw [Micro.queue_get, hcur, FreeRing.pending_eq_nil_iff, he, hr]
  · rw [if_neg he] at hs
    have hne : vr.ringIdx s.m r.getKind ≠ (s.core r).cons r.getKind := by
      rw [hcur, ← hr]; exact Ne.symm he
    cases hk : r.getKind with
    | avail =>
      rw [hk] at hs hcur
      cases hs
      have hmask := hw.mask vq.availableIdx
      rw [hr] at hmask
      refine h.take hstat hne hw hr ⟨hk, ?_⟩ ?_ (by rw [hc]) ?_
      · rw [hmask, UInt16.add_sub_cancel]
      · rw [hk, hcur]; rfl
      · rw [hk, hcur]
        simp only [Pc.status, hmask, Virtqueue.cursor]
    | used =>
      rw [hk] at hs hcur
      cases hs
      have hmask := hw.mask vq.usedConsIdx
      rw [hr] at hmask
      refine h.take hstat hne hw hr ⟨hk, ?_⟩ ?_ (by rw [hc]) ?_
      · rw [hmask, UInt16.add_sub_cancel]
      · rw [hk, hcur]; rfl
      · rw [hk, hcur]
        simp only [Pc.status, hmask, Virtqueue.cursor]

theorem Micro.Inv.access_usedId (h : s.Inv vr T) (hc : s.core r = ⟨vq, .usedId slot, owned⟩)
    (hs : (Pc.usedId slot).next r.getKind vq s.m = some (pc', vq', m)) : s.Accessed vr T r pc' vq' m := by
  obtain ⟨hw, hr, hk, hslot⟩ := h.core hc
  cases hs
  unfold Micro.Accessed
  rw [hc, hr]
  exact h.silent hw hr ⟨hk, hslot, rfl⟩ (by rw [hc]; rfl) (by rw [hc]) (by rw [hc]; rfl)

theorem Micro.Inv.access_usedLen (h : s.Inv vr T) (hc : s.core r = ⟨vq, .usedLen slot d, owned⟩)
    (hs : (Pc.usedLen slot d).next r.getKind vq s.m = some (pc', vq', m)) : s.Accessed vr T r pc' vq' m := by
  obtain ⟨hw, hr, hk, hslot, rfl⟩ := h.core hc
  cases hs
  unfold Micro.Accessed
  rw [hc, hr]
  refine h.silent hw hr hk (by rw [hc]; rfl) (by rw [hc]) ?_
  rw [hc]
  simp only [Pc.status, hk, Vring.slotEntry]

theorem Micro.Inv.access_usedAdvance (h : s.Inv vr T) (hc : s.core r = ⟨vq, .usedAdvance d len, owned⟩)
    (hs : (Pc.usedAdvance d len).next r.getKind vq s.m = some (pc', vq', m)) : s.Accessed vr T r pc' vq' m := by
  obtain ⟨hw, hr, hk⟩ := h.core hc
  cases hs
  unfold Micro.Accessed
  rw [hc]
  refine h.silent ⟨hw.laid, hw.num_eq⟩ hr trivial ?_ (by rw [hc]) (by rw [hc]; rfl)
  rw [hc, show r.getKind = .used from hk]
  rfl

theorem Micro.Inv.access_availAdvance (h : s.Inv vr T) (hc : s.core r = ⟨vq, .availAdvance slot, owned⟩)
    (hs : (Pc.availAdvance slot).next r.getKind vq s.m = some (pc', vq', m)) : s.Accessed vr T r pc' vq' m := by
  obtain ⟨hw, hr, hk, hslot⟩ := h.core hc
  cases hs
  unfold Micro.Accessed
  rw [hc]
  refine h.silent ⟨hw.laid, hw.num_eq⟩ hr ⟨hk, hslot⟩ ?_ (by rw [hc]) (by rw [hc]; rfl)
  rw [hc, hk]
  rfl

/-- What an operation has taken is a descriptor of the vring. -/
theorem Micro.Inv.taken_lt (h : s.Inv vr T) {e : Entry}
    (hs : (s.core r).pc.status vr T r.getKind s.m = .finished (.got (T.got e))) : e.1.toNat < vr.num := by
  refine h.total e.1 (Atomic.mem_hand (r := r) ?_)
  show e.1 ∈ ((s.core r).pc.status vr T r.getKind s.m).hand
  rw [hs]
  exact Multiset.mem_singleton_self e.1

theorem Micro.Inv.access_usedAddr (h : s.Inv vr T) (hc : s.core r = ⟨vq, .usedAddr d len, owned⟩)
    (hs : (Pc.usedAddr d len).next r.getKind vq s.m = some (pc', vq', m)) : s.Accessed vr T r pc' vq' m := by
  obtain ⟨hw, hr, -⟩ := h.core hc
  have hd := h.taken_lt (r := r) (e := (d, len)) (by rw [hc]; rfl)
  cases hs
  unfold Micro.Accessed
  rw [hc, hr]
  refine h.silent hw hr trivial (by rw [hc]; rfl) (by rw [hc]) ?_
  rw [hc]
  simp only [Pc.status, DescTable.got, (h.table d hd).1]

theorem Micro.Inv.access_availSlot (h : s.Inv vr T) (hc : s.core r = ⟨vq, .availSlot slot, owned⟩)
    (hs : (Pc.availSlot slot).next r.getKind vq s.m = some (pc', vq', m)) : s.Accessed vr T r pc' vq' m := by
  obtain ⟨hw, hr, hk, -⟩ := h.core hc
  cases hs
  unfold Micro.Accessed
  rw [hc, hr]
  refine h.silent hw hr trivial (by rw [hc]; rfl) (by rw [hc]) ?_
  rw [hc]
  simp only [Pc.status, hk, Vring.slotEntry]

theorem Micro.Inv.access_availAddr (h : s.Inv vr T) (hc : s.core r = ⟨vq, .availAddr d, owned⟩)
    (hs : (Pc.availAddr d).next r.getKind vq s.m = some (pc', vq', m)) : s.Accessed vr T r pc' vq' m := by
  obtain ⟨hw, hr, -⟩ := h.core hc
  have hd := h.taken_lt (r := r) (e := (d, T.len d)) (by rw [hc]; rfl)
  cases hs
  unfold Micro.Accessed
  rw [hc, hr]
  exact h.silent hw hr (h.table d hd).1 (by rw [hc]; rfl) (by rw [hc]) (by rw [hc]; rfl)

theorem Micro.Inv.access_availLen {buffer : Nat} (h : s.Inv vr T) (hc : s.core r = ⟨vq, .availLen d buffer, owned⟩)
    (hs : (Pc.availLen d buffer).next r.getKind vq s.m = some (pc', vq', m)) : s.Accessed vr T r pc' vq' m := by
  obtain ⟨hw, hr, hb⟩ := h.core hc
  have hd := h.taken_lt (r := r) (e := (d, T.len d)) (by rw [hc]; rfl)
  cases hs
  unfold Micro.Accessed
  rw [hc, hr]
  refine h.silent hw hr trivial (by rw [hc]; rfl) (by rw [hc]) ?_
  rw [hc]
  simp only [Pc.status, DescTable.got, (h.table d hd).2, show buffer = T.buffer d from hb]

theorem Micro.Inv.access (h : s.Inv vr T) (hs : (s.core r).pc.next r.getKind (s.core r).vq s.m = some (pc', vq', m)) :
    s.Accessed vr T r pc' vq' m := by
  obtain ⟨vq, pc, owned, hc⟩ : ∃ vq pc owned, s.core r = ⟨vq, pc, owned⟩ := ⟨_, _, _, rfl⟩
  rw [hc] at hs
  cases pc with
  | put d len => exact h.access_put hc hs
  | putSlot d len slot => exact h.access_putSlot hc hs
  | putLen d len slot => exact h.access_putLen hc hs
  | putIncRead d len => exact h.access_putIncRead hc hs
  | putIncWrite d len idx => exact h.access_putIncWrite hc hs
  | get => exact h.access_get hc hs
  | usedId slot => exact h.access_usedId hc hs
  | usedLen slot d => exact h.access_usedLen hc hs
  | usedAdvance d len => exact h.access_usedAdvance hc hs
  | usedAddr d len => exact h.access_usedAddr hc hs
  | availAdvance slot => exact h.access_availAdvance hc hs
  | availSlot slot => exact h.access_availSlot hc hs
  | availAddr d => exact h.access_availAddr hc hs
  | availLen d buffer => exact h.access_availLen hc hs
  | idle => cases hs
  | ret res => cases hs

end

end RpmsgLite
