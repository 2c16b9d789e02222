/-
What a receive interrupt inside `rpmsg_lite_release_rx_buffer` does to the published descriptors: they
are the released ones, each once, exactly when the interrupt releases nothing, falls outside the
task's read-store-increment, or meets a slot that by chance already holds the missing descriptor.
-/
import RpmsgLite.Conc.ReleaseRace
import RpmsgLite.Link.Delivery

namespace RpmsgLite

open ByteMem

/-! ## The condition -/

/-- The descriptor in the slot that the task publishes blindly: the one behind the interrupt's entries. -/
def Releasing.stale (vr : Vring) (k : RingKind) (F : List UInt16) (s : Releasing) : UInt16 :=
  vr.slotId s.2.2 k (((vr.ringIdx s.2.2 k).toNat + F.length) % vr.num)

/-- The interrupt, which releases `F`, does no harm where the task stands. -/
def Releasing.Harmless (vr : Vring) (k : RingKind) (F : List UInt16) (s : Releasing) : Prop :=
  match F with
  | [] => True
  | f :: _ =>
    match s.1 with
    | .ring (.putSlot _ _ _) => s.stale vr k F = f
    | .ring (.putLen d _ _) => s.stale vr k F = d
    | .ring (.putIncRead d _) => s.stale vr k F = d
    | .ring (.putIncWrite _ _ _) => False
    | _ => True

/-- A core holds the buffer of `d`, with its index parked in the header, while the messages `Q` wait. -/
structure Releasable (B : BufferPool) (k : RingKind) (dev : RpmsgLiteInstance) (m : ByteMem) (Q : List UInt16) (d : UInt16) :
    Prop where
  view : RxView B k m dev.rvq Q
  kind : dev.role.getKind = k.other
  mem : d ∈ B.ids
  nodup : (d :: Q).Nodup
  parked : m.ld16 (hdrIdxAt (B.buffer d)) = d

/-- Every held buffer in every state of the link. -/
theorem Flow.releasable {B : BufferPool} {k : RingKind} {m : ByteMem} {tvq : Virtqueue} {t : TxHalf} {x : RxHalf}
    {P : Custody B.ids} {dev : RpmsgLiteInstance} (h : Flow B k m tvq dev.rvq t x P) (hk : dev.role.getKind = k.other)
    {g : Got} (hg : g ∈ x.held) : Releasable B k dev m P.queue g.idx := by
  have hgot : g ∈ x.gots := List.mem_append_right _ hg
  have hn := (List.nodup_append.1 h.nodup).2.1
  refine ⟨h.linked.rxView, hk, h.rx_ids hgot, List.nodup_cons.2 ⟨fun hq => ?_, (List.nodup_append.1 hn).1⟩,
    h.contents.rxKept g hg⟩
  exact (List.nodup_append.1 hn).2.2 _ hq _ (List.mem_map_of_mem hgot) rfl

/-! ## The phases -/

section

variable {B : BufferPool} {k : RingKind} {dev : RpmsgLiteInstance} {m : ByteMem} {Q : List UInt16} {d : UInt16}
  {clear : Bool} {hold : UInt16 → Bool}

theorem perm_append_singleton_iff {l : List UInt16} {a b : UInt16} : (l ++ [a]).Perm (b :: l) ↔ a = b := by
  constructor
  · intro h
    have := (List.perm_append_singleton a l).symm.trans h
    rw [← Multiset.coe_eq_coe, ← Multiset.cons_coe, ← Multiset.cons_coe] at this
    exact (Multiset.cons_inj_left _).1 this
  · rintro rfl
    exact List.perm_append_singleton a l

/-- The released descriptors leave a slot of the ring free. -/
theorem Releasable.length_lt (h : Releasable B k dev m Q d) (hold : UInt16 → Bool) :
    (Q.filter fun e => !hold e).length < B.vr.num := by
  have hle : ((d :: Q : List UInt16) : Multiset UInt16) ≤ B.ids := by
    refine (Multiset.le_iff_subset (Multiset.coe_nodup.2 h.nodup)).2 fun e he => ?_
    rcases List.mem_cons.1 (Multiset.mem_coe.1 he) with rfl | he
    · exact h.mem
    · exact h.view.mem e he
  have hcard := Multiset.card_le_card hle
  rw [Multiset.coe_card, B.card_ids, List.length_cons] at hcard
  have := List.length_filter_le (fun e => !hold e) Q
  omega

/-- The task has not read the index yet. -/
def ReleasePc.early : ReleasePc → Bool
  | .readIdx | .readLen _ | .readIdxAgain _ | .clear _ _ _ | .ring (.put _ _) => true
  | _ => false

/-- A task that has not read the index starts over on the memory the interrupt left. -/
theorem ReleasePc.Ok.rebase {pc : ReleasePc} {m₀ m1 : ByteMem} (h : pc.Ok B k d m₀ m) (hpc : pc.early = true)
    (ha : Agree m m1 (B.buffer d) (B.buffer d + B.size)) : Untouched B.vr k m₀ m ∧ pc.Ok B k d m1 m1 := by
  have hsz := B.size_ge
  have hidx : m1.ld16 (hdrIdxAt (B.buffer d)) = m.ld16 (hdrIdxAt (B.buffer d)) :=
    ld16_congr (ha.mono (by simp only [hdrIdxAt]; omega) (by simp only [hdrIdxAt]; omega))
  have hu : Untouched B.vr k m1 m1 := ⟨rfl, fun _ _ => rfl⟩
  cases pc with
  | readIdx => exact ⟨h.1, hu, hidx.trans h.2⟩
  | readLen idx => exact ⟨h.1, hu, hidx.trans h.2.1, h.2.2⟩
  | readIdxAgain len => exact ⟨h.1, hu, hidx.trans h.2.1, h.2.2⟩
  | clear e len i => exact ⟨h.1, hu, h.2⟩
  | failed => cases hpc
  | ring pc =>
    cases pc with
    | put e len => exact ⟨h.1, hu, h.2⟩
    | _ => cases hpc

/-- What the interrupt left: it published `F` and did not touch the task's buffer. -/
structure Interrupted (B : BufferPool) (k : RingKind) (d : UInt16) (F : List UInt16) (m : ByteMem) (rvq : Virtqueue)
    (m' : ByteMem) : Prop where
  view : RxView B k m' rvq []
  grown : FreeRing.Grown B.vr.num (B.vr.slotId m k) (B.vr.slotId m' k) (B.vr.ringIdx m k) (B.vr.ringIdx m' k) F
  buffer : Agree m m' (B.buffer d) (B.buffer d + B.size)

section

variable {F : List UInt16} {m₀ m1 : ByteMem} {vq vq1 : Virtqueue} {n : Nat} {r : Role} {len : UInt32} {s : Nat} {i : UInt16}

theorem RingSince.grown (h : RingSince B.vr k m₀ m (B.vr.ringIdx m₀ k + 1) d) :
    FreeRing.Grown B.vr.num (B.vr.slotId m₀ k) (B.vr.slotId m k) (B.vr.ringIdx m₀ k) (B.vr.ringIdx m k) [d] := by
  have hg := FreeRing.Grown.single B.laid.size h.other
  rw [h.own] at hg
  rw [h.idx]
  exact hg

/-- Before the task reads the index, both sets of entries are published one after the other. -/
theorem Interrupted.early (clear : Bool) {pc : ReleasePc} (h : Interrupted B k d F m vq1 m1) (hok : pc.Ok B k d m₀ m)
    (hpc : pc.early = true) (hF : F.length < B.vr.num) (hk : r.getKind = k.other) (hd : d ∈ B.ids)
    (hn : pc.left B.size ≤ n) :
    ∃ s', Releasing.run clear r (B.buffer d) n (pc, vq1, m1) = s' ∧ s'.1 = .ring (.ret .done) ∧
      B.vr.pendingIds s'.2.2 k (B.vr.ringIdx m₀ k) = F ++ [d] := by
  obtain ⟨hu, hok1⟩ := hok.rebase hpc h.buffer
  have hinv : Releasing.Inv B k d [] m1 (pc, vq1, m1) := ⟨h.view, hok1⟩
  have hdone := hinv.run_done clear hk hd hn
  have hok2 := (hinv.run clear hk hd n).ok
  refine ⟨_, rfl, hdone, ?_⟩
  generalize Releasing.run clear r (B.buffer d) n (pc, vq1, m1) = s' at hdone hok2
  rw [hdone] at hok2
  have hle := B.laid.size.le
  have hcount : FreeRing.count (B.vr.ringIdx m1 k) (B.vr.ringIdx m k) = F.length := by
    rw [h.grown.index, FreeRing.count_add_self (by omega)]
  rw [Vring.pendingIds_eq, ← hu.1, (RingSince.grown hok2).push _ (by rw [hcount, List.length_singleton]; omega),
    h.grown.pending_self hF.le]

/-- After the task has returned, the interrupt's entries follow the task's. -/
theorem Interrupted.late (h : Interrupted B k d F m vq1 m1) (hs : RingSince B.vr k m₀ m (B.vr.ringIdx m₀ k + 1) d)
    (hF : F.length < B.vr.num) : B.vr.pendingIds m1 k (B.vr.ringIdx m₀ k) = d :: F := by
  have hle := B.laid.size.le
  have hcount : FreeRing.count (B.vr.ringIdx m k) (B.vr.ringIdx m₀ k) = 1 := by
    rw [hs.idx]; exact FreeRing.count_add_self (l := 1) (by decide)
  rw [Vring.pendingIds_eq, h.grown.push _ (by rw [hcount]; omega),
    hs.grown.pending_self (by rw [List.length_singleton]; omega), List.singleton_append]

/-- An interrupt that publishes nothing leaves the task where it was. -/
theorem ReleasePc.Ok.transfer {pc : ReleasePc} (h : pc.Ok B k d m₀ m) (hidx : B.vr.ringIdx m1 k = B.vr.ringIdx m k)
    (hslot : ∀ j < B.vr.num, B.vr.slotId m1 k j = B.vr.slotId m k j)
    (ha : Agree m m1 (B.buffer d) (B.buffer d + B.size)) : pc.Ok B k d m₀ m1 := by
  have hsz := B.size_ge
  have hparked : m1.ld16 (hdrIdxAt (B.buffer d)) = m.ld16 (hdrIdxAt (B.buffer d)) :=
    ld16_congr (ha.mono (by simp only [hdrIdxAt]; omega) (by simp only [hdrIdxAt]; omega))
  have hu : Untouched B.vr k m₀ m → Untouched B.vr k m₀ m1 := fun hu =>
    ⟨hidx.trans hu.1, fun j hj => (hslot j hj).trans (hu.2 j hj)⟩
  have hs : ∀ {i a : UInt16}, RingSince B.vr k m₀ m i a → RingSince B.vr k m₀ m1 i a := fun hs =>
    ⟨hidx.trans hs.idx, (hslot _ (Nat.mod_lt _ B.laid.size.pos)).trans hs.own,
      fun j hj hne => (hslot j hj).trans (hs.other j hj hne)⟩
  cases pc with
  | readIdx => exact ⟨hu h.1, hparked.trans h.2⟩
  | readLen idx => exact ⟨hu h.1, hparked.trans h.2.1, h.2.2⟩
  | readIdxAgain len => exact ⟨hu h.1, hparked.trans h.2.1, h.2.2⟩
  | clear e len i => exact ⟨hu h.1, h.2⟩
  | failed => exact h
  | ring pc =>
    cases pc with
    | put e len => exact ⟨hu h.1, h.2⟩
    | putSlot e len j => exact ⟨hu h.1, h.2⟩
    | putLen e len j => exact ⟨hs h.1, h.2⟩
    | putIncRead e len => exact ⟨hs h.1, h.2⟩
    | putIncWrite e len i => exact ⟨hs h.1, h.2⟩
    | ret res =>
      cases res with
      | done => exact hs h
      | _ => exact h
    | _ => exact h

theorem Interrupted.nothing (clear : Bool) {pc : ReleasePc} (h : Interrupted B k d [] m vq1 m1) (hok : pc.Ok B k d m₀ m)
    (hk : r.getKind = k.other) (hd : d ∈ B.ids) (hn : pc.left B.size ≤ n) :
    (Releasing.run clear r (B.buffer d) n (pc, vq1, m1)).1 = .ring (.ret .done) ∧
      B.vr.pendingIds (Releasing.run clear r (B.buffer d) n (pc, vq1, m1)).2.2 k (B.vr.ringIdx m₀ k) = [d] := by
  have hidx : B.vr.ringIdx m1 k = B.vr.ringIdx m k := by simpa using h.grown.index
  have hslot : ∀ j < B.vr.num, B.vr.slotId m1 k j = B.vr.slotId m k j := fun j hj => by
    -- every slot is some number of slots behind the index
    obtain ⟨t, ht, rfl⟩ := FreeRing.exists_slot B.laid.size.pos (B.vr.ringIdx m k) hj
    exact h.grown.beyond t (Nat.zero_le t) ht
  have hinv : Releasing.Inv B k d [] m₀ (pc, vq1, m1) := ⟨h.view, hok.transfer hidx hslot h.buffer⟩
  have hdone := hinv.run_done clear hk hd hn
  have hok2 := (hinv.run clear hk hd n).ok
  rw [hdone] at hok2
  refine ⟨hdone, ?_⟩
  rw [Vring.pendingIds_eq, (RingSince.grown hok2).pending_self]
  exact B.laid.size.pos

/-! ### Inside the window -/

/-- Between the task's read of the index and its store into the slot: it overwrites the interrupt's first
entry and publishes the slot behind the last. -/
theorem Interrupted.putSlot (clear : Bool) (len : UInt32) (vq : Virtqueue) {f : UInt16}
    (h : Interrupted B k d (f :: F) m vq1 m1) (hu : Untouched B.vr k m₀ m)
    (hs : s = (B.vr.ringIdx m₀ k).toNat % B.vr.num) (hF : F.length + 1 < B.vr.num) (hk : r.getKind = k.other) (hn : 4 ≤ n) :
    (Releasing.run clear r (B.buffer d) n (.ring (.putSlot d len s), vq1, m1)).1 = .ring (.ret .done) ∧
      B.vr.pendingIds (Releasing.run clear r (B.buffer d) n (.ring (.putSlot d len s), vq1, m1)).2.2 k
        (B.vr.ringIdx m₀ k) =
        d :: (F ++ [Releasing.stale B.vr k (f :: F) (.ring (.putSlot d len s), vq, m)]) := by
  have hlt : s < B.vr.num := hs ▸ Nat.mod_lt _ B.laid.size.pos
  obtain ⟨vq', m', hrun, hidx, hid, hother⟩ := Releasing.run_putSlot clear (B.buffer d) m1 d len B.laid h.view.ring hk hlt hn
  rw [← hu.1] at hs
  subst hs
  rw [hrun]
  refine ⟨rfl, ?_⟩
  rw [Vring.pendingIds_eq, hidx, ← hu.1, h.grown.overwrite B.laid.size hF hother, hid]
  rfl

/-- After the store into the slot and before the load of the index: the interrupt overwrites the task's
entry, and the task publishes the slot behind the interrupt's last. -/
theorem Interrupted.putLoad (clear : Bool) (vq : Virtqueue) {pc : Pc} (h : Interrupted B k d F m vq1 m1)
    (hs : RingSince B.vr k m₀ m (B.vr.ringIdx m₀ k) d)
    (hpc : pc = .putIncRead d len ∨ k = .used ∧ s < B.vr.num ∧ pc = .putLen d len s) (hF : F.length < B.vr.num)
    (hk : r.getKind = k.other) (hn : 3 ≤ n) :
    (Releasing.run clear r (B.buffer d) n (.ring pc, vq1, m1)).1 = .ring (.ret .done) ∧
      B.vr.pendingIds (Releasing.run clear r (B.buffer d) n (.ring pc, vq1, m1)).2.2 k (B.vr.ringIdx m₀ k) =
        F ++ [Releasing.stale B.vr k F (.ring pc, vq, m)] := by
  have hrun : ∃ vq' m', Releasing.run clear r (B.buffer d) n (.ring pc, vq1, m1) = (.ring (.ret .done), vq', m') ∧
      IdxStore B.vr k (B.vr.ringIdx m1 k + 1) m1 m' := by
    rcases hpc with rfl | ⟨rfl, hlt, rfl⟩
    · exact Releasing.run_putIncRead clear (B.buffer d) m1 d len B.laid h.view.ring hk (by omega)
    · exact Releasing.run_putLen clear (B.buffer d) m1 d len B.laid h.view.ring hk hlt hn
  obtain ⟨vq', m', hrun, hst⟩ := hrun
  rw [hrun]
  refine ⟨rfl, ?_⟩
  rw [Vring.pendingIds_eq, hst.idx, FreeRing.pending_congr B.laid.size.pos hst.slots, ← hs.idx,
    h.grown.republish B.laid.size hF]
  rfl

/-- After the load of the index: the task takes the interrupt's entries back. -/
theorem Interrupted.putStore (clear : Bool) (e : UInt16) (len : UInt32) (h : Interrupted B k d F m vq1 m1)
    (hi : i = B.vr.ringIdx m₀ k) (hk : r.getKind = k.other) (hn : 1 ≤ n) :
    (Releasing.run clear r (B.buffer d) n (.ring (.putIncWrite e len i), vq1, m1)).1 = .ring (.ret .done) ∧
      (B.vr.pendingIds (Releasing.run clear r (B.buffer d) n (.ring (.putIncWrite e len i), vq1, m1)).2.2 k
        (B.vr.ringIdx m₀ k)).length = 1 := by
  obtain ⟨vq', m', hrun, hst⟩ := Releasing.run_putIncWrite clear (B.buffer d) m1 e len B.laid h.view.ring hk hn
  rw [hrun]
  refine ⟨rfl, ?_⟩
  rw [Vring.pendingIds_eq, FreeRing.length_pending, hst.idx, hi]
  exact FreeRing.count_add_self (l := 1) (by decide)

end

/-! ## Every preemption point -/

theorem ReleasePc.left_le (pc : ReleasePc) (size : Nat) : pc.left size ≤ size + 9 := by
  unfold ReleasePc.left
  split <;> omega

theorem ReleasePc.harmless_of_early {pc : ReleasePc} {vr : Vring} {F : List UInt16} {vq : Virtqueue} (h : pc.early = true) :
    Releasing.Harmless vr k F (pc, vq, m) := by
  cases F with
  | nil => trivial
  | cons f F =>
    cases pc with
    | ring pc =>
      cases pc with
      | put e len => trivial
      | _ => cases h
    | failed => cases h
    | _ => trivial

/-- Preempted anywhere, the release returns, and the released descriptors are published exactly once and
no others are if and only if the interrupt is harmless where it fell. -/
theorem Releasable.preempted (h : Releasable B k dev m Q d) (clear : Bool) (hold : UInt16 → Bool) (i : Nat) {fuel n : Nat}
    (hfuel : Q.length < fuel) (hn : B.size + 9 ≤ n) :
    ∃ s', releasePreempted clear hold dev m (msgDataAt (B.buffer d)) i fuel n = some s' ∧ s'.1 = .ring (.ret .done) ∧
      (B.vr.PublishedOnce k m s'.2.2 (d :: Q.filter fun e => !hold e) ↔
        (Releasing.at clear dev m (msgDataAt (B.buffer d)) i).Harmless B.vr k (Q.filter fun e => !hold e)) := by
  have hmsg : msgFromBuf (msgDataAt (B.buffer d)) = B.buffer d := Nat.add_sub_cancel _ _
  have hF := h.length_lt hold
  have hnodup : (d :: Q.filter fun e => !hold e).Nodup :=
    h.nodup.sublist (List.Sublist.cons_cons d List.filter_sublist)
  obtain ⟨hdQ, hQ⟩ := List.nodup_cons.1 h.nodup
  unfold releasePreempted Releasing.at
  rw [hmsg]
  have hinv : Releasing.Inv B k d Q m (Releasing.run clear dev.role (B.buffer d) i (.readIdx, dev.rvq, m)) := by
    refine Releasing.Inv.run clear ⟨h.view, ?_⟩ h.kind h.mem i
    exact ⟨⟨rfl, fun _ _ => rfl⟩, h.parked⟩
  obtain ⟨⟨pc, vq, m1⟩, hat⟩ : ∃ s, s = Releasing.run clear dev.role (B.buffer d) i (.readIdx, dev.rvq, m) := ⟨_, rfl⟩
  rw [← hat] at hinv ⊢
  obtain ⟨hview, hok⟩ := hinv
  dsimp only at hview hok
  obtain ⟨dev', m2, hrun, hview', hgrown, hagree⟩ := RxView.callback { dev with rvq := vq } hview h.kind hQ hfuel clear hold
  have hint : Interrupted B k d (Q.filter fun e => !hold e) m1 dev'.rvq m2 := ⟨hview', hgrown, hagree d h.mem hdQ⟩
  refine ⟨Releasing.run clear dev.role (B.buffer d) n (pc, dev'.rvq, m2),
    by simp only [Releasing.interrupt, hrun, Option.map_some], ?_⟩
  rw [Vring.publishedOnce_iff hnodup]
  have hleft := pc.left_le B.size
  generalize (Q.filter fun e => !hold e) = F at hF hint
  cases F with
  | nil =>
    obtain ⟨hdone, hpub⟩ := hint.nothing clear (n := n) hok h.kind h.mem (by omega)
    rw [hpub]
    exact ⟨hdone, iff_of_true (List.Perm.refl _) trivial⟩
  | cons f F =>
    by_cases hearly : pc.early = true
    · obtain ⟨s', hs', hdone, hpub⟩ := hint.early clear (n := n) hok hearly hF h.kind h.mem (by omega)
      rw [hs', hpub]
      refine ⟨hdone, iff_of_true (List.perm_append_singleton d (f :: F)) ?_⟩
      exact ReleasePc.harmless_of_early hearly
    · cases pc with
      | ring pc =>
        cases pc with
        | putSlot e len s =>
          obtain ⟨hu, rfl, hs⟩ := hok
          rw [List.length_cons] at hF
          obtain ⟨hdone, hpub⟩ := hint.putSlot clear len vq (n := n) hu hs hF h.kind (by omega)
          rw [hpub, List.perm_cons]
          exact ⟨hdone, perm_append_singleton_iff⟩
        | putLen e len s =>
          obtain ⟨hsince, rfl, rfl, hs⟩ := hok
          have hlt : s < B.vr.num := hs ▸ Nat.mod_lt _ B.laid.size.pos
          obtain ⟨hdone, hpub⟩ := hint.putLoad clear vq (n := n) hsince (Or.inr ⟨rfl, hlt, rfl⟩) hF h.kind
            (by omega)
          rw [hpub]
          exact ⟨hdone, perm_append_singleton_iff⟩
        | putIncRead e len =>
          obtain ⟨hsince, rfl⟩ := hok
          obtain ⟨hdone, hpub⟩ := hint.putLoad clear vq (s := 0) (n := n) hsince (Or.inl rfl) hF h.kind
            (by omega)
          rw [hpub]
          exact ⟨hdone, perm_append_singleton_iff⟩
        | putIncWrite e len idx =>
          obtain ⟨hdone, hlen⟩ := hint.putStore clear e len (n := n) hok.2 h.kind (by omega)
          refine ⟨hdone, iff_of_false (fun hp => ?_) fun hharm => hharm⟩
          rw [hp.length_eq, List.length_cons, List.length_cons] at hlen
          omega
        | ret res =>
          cases res with
          | done =>
            rw [Releasing.run_end rfl, hint.late hok hF]
            exact ⟨rfl, iff_of_true (List.Perm.refl _) trivial⟩
          | _ => exact hok.elim
        | put e len => exact absurd rfl hearly
        | _ => exact hok.elim
      | failed => exact hok.elim
      | _ => exact absurd rfl hearly

end

/-! ## Every held buffer of every run -/

section

variable {w : Nat} {p : ShmemParams} {addr : Nat} {env envR : InitEnv} {highestM highestR linkId : UInt32}
  {cfg : ShmemConfig} {length : Nat} {m m' : ByteMem} {dm dr : RpmsgLiteInstance} {c : LinkConfig} {s : Link}

/-- In every state of every run a release of a held buffer that a receive interrupt preempts after any
number `i` of its accesses returns; the descriptors that the two released are published on the rvq exactly
once, and no others are, if and only if the interrupt is harmless where it fell. -/
theorem release_preempted (hm : rpmsgLiteMasterInit w env highestM cfg addr length linkId m = .instance dm m')
    (hr : rpmsgLiteRemoteInit w envR highestR cfg addr linkId = some dr) (hlen : addr + length ≤ 2 ^ 32)
    (hp : masterParams w cfg = some p) (hok : LinkReady w cfg addr p m) (hc : c.payloadSize = cfg.payloadSize)
    (h : Link.Reachable c (Link.start m' dm dr) s) {r : Role} {g : Got} (hg : g ∈ (s.side r).rx.held) (clear : Bool)
    (hold : UInt16 → Bool) (i fuel n : Nat) (hfuel : (s.queueIds r.peer).length < fuel) (hn : p.bufferSize + 9 ≤ n) :
    ∃ s', releasePreempted clear hold (s.side r).dev s.m (msgDataAt g.buffer) i fuel n = some s' ∧
      s'.1 = .ring (.ret .done) ∧
      ((s.side r).dev.rvq.ring.PublishedOnce r.peer.getKind s.m s'.2.2
          (g.idx :: (s.queueIds r.peer).filter fun e => !hold e) ↔
        (Releasing.at clear (s.side r).dev s.m (msgDataAt g.buffer) i).Harmless (s.side r).dev.rvq.ring r.peer.getKind
          ((s.queueIds r.peer).filter fun e => !hold e)) := by
  obtain ⟨P, hinv⟩ := linkInv_reachable hm hr hlen hp hok hc h
  have hflow := hinv.flow r.peer
  rw [Role.peer_peer] at hflow
  have hbuf : g.buffer = (hok.layout.pools.pool r.peer).buffer g.idx :=
    congrArg Got.buffer (hflow.contents.rxGot g (List.mem_append_right _ hg))
  have hrel := hflow.releasable (by rw [hinv.role, Role.getKind_peer, RingKind.other_other]) hg
  rw [hinv.queueIds] at hfuel ⊢
  rw [hbuf, hflow.linked.rvq_ring]
  exact hrel.preempted clear hold i hfuel (by rw [hok.layout.pool_size]; exact hn)

end

/-! ## Two messages, one held -/

/-- The master sends two messages; the remote's application holds the first, the second waits. -/
def holdOne : List (Role × Act) :=
  [(.master, .tx (.send 7 9 [1])), (.master, .tx (.fill 0)), (.master, .tx (.enqueue 0)),
   (.master, .tx (.send 7 9 [2])), (.master, .tx (.fill 0)), (.master, .tx (.enqueue 0)),
   (.remote, .rx .rx), (.remote, .rx .read), (.remote, .rx (.done true))]

instance (vr : Vring) (k : RingKind) (m m' : ByteMem) (ids : List UInt16) : Decidable (vr.PublishedOnce k m m' ids) :=
  inferInstanceAs (Decidable (_ ∧ _))

/-- Preempted before its first access the release loses nothing. -/
theorem release_preempted_first : ∃ dm m' dr s g s',
    rpmsgLiteMasterInit 32 InitEnv.ok 0 (.build (headerTwo 64 (by decide) (by decide))) 4124 512 0 (fun _ => 0) =
      .instance dm m' ∧
    rpmsgLiteRemoteInit 32 InitEnv.ok 0 (.build (headerTwo 64 (by decide) (by decide))) 4124 0 = some dr ∧
    (Link.start m' dm dr).run ⟨false, 16, 16⟩ holdOne = some s ∧ (s.side .remote).rx.held = [g] ∧
    releasePreempted false (fun _ => false) (s.side .remote).dev s.m (msgDataAt g.buffer) 0 3 64 = some s' ∧
    (s.side .remote).dev.rvq.ring.PublishedOnce .used s.m s'.2.2 [0, 1] := by
  obtain ⟨dm, m', dr, hm, hr, ht⟩ := Link.of_check_two 0
    (fun dm m' dr => ((Link.start m' dm dr).run ⟨false, 16, 16⟩ holdOne).any fun s =>
          (s.side .remote).rx.held.map Got.idx == [0] && s.queueIds .master == [1])
    (by decide +kernel)
  obtain ⟨s, hs, hheld⟩ := (Option.any_eq_true _ _).1 ht
  simp only [Bool.and_eq_true, beq_iff_eq] at hheld
  obtain ⟨hheld, hQ⟩ := hheld
  obtain ⟨g, hg, hidx⟩ := List.map_eq_singleton_iff.1 hheld
  obtain ⟨s', hs', -, hiff⟩ := release_preempted hm hr (by decide) rfl
    linkReady_two rfl
    (Link.reachable_of_run .start hs) (r := .remote) (g := g) (hg ▸ List.mem_singleton_self g) false (fun _ => false) 0 3 64
    (hQ ▸ by decide) (by decide)
  refine ⟨dm, m', dr, s, g, s', hm, hr, hs, hg, hs', ?_⟩
  have hpub := hiff.2 (ReleasePc.harmless_of_early rfl)
  rw [hidx, show Role.remote.peer = Role.master from rfl, hQ] at hpub
  exact hpub

/-- Preempted between the load and the store of the index the release takes the interrupt's entry back. -/
theorem release_preempted_lost : ∃ dm m' dr s g s',
    rpmsgLiteMasterInit 32 InitEnv.ok 0 (.build (headerTwo 64 (by decide) (by decide))) 4124 512 0 (fun _ => 0) =
      .instance dm m' ∧
    rpmsgLiteRemoteInit 32 InitEnv.ok 0 (.build (headerTwo 64 (by decide) (by decide))) 4124 0 = some dr ∧
    (Link.start m' dm dr).run ⟨false, 16, 16⟩ holdOne = some s ∧ (s.side .remote).rx.held = [g] ∧
    releasePreempted false (fun _ => false) (s.side .remote).dev s.m (msgDataAt g.buffer) 8 3 64 = some s' ∧
    s'.1 = .ring (.ret .done) ∧
    ¬ (s.side .remote).dev.rvq.ring.PublishedOnce .used s.m s'.2.2 [0, 1] := by
  obtain ⟨dm, m', dr, hm, hr, ht⟩ := Link.of_check_two 0
    (fun dm m' dr => ((Link.start m' dm dr).run ⟨false, 16, 16⟩ holdOne).any fun s => match (s.side .remote).rx.held with
          | [g] => (releasePreempted false (fun _ => false) (s.side .remote).dev s.m (msgDataAt g.buffer) 8 3 64).any fun s' =>
              decide (s'.1 = .ring (.ret .done)) &&
                decide (¬ (s.side .remote).dev.rvq.ring.PublishedOnce .used s.m s'.2.2 [0, 1])
          | _ => false)
    (by decide +kernel)
  obtain ⟨s, hs, hheld⟩ := (Option.any_eq_true _ _).1 ht
  split at hheld
  · rename_i g hg
    obtain ⟨s', hs', hpub⟩ := (Option.any_eq_true _ _).1 hheld
    rw [Bool.and_eq_true, decide_eq_true_iff, decide_eq_true_iff] at hpub
    exact ⟨dm, m', dr, s, g, s', hm, hr, hs, hg, hs', hpub.1, hpub.2⟩
  · cases hheld

end RpmsgLite
