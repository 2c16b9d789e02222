/-
Notification suppression by event index. Under `VIRTQUEUE_FLAG_EVENT_IDX` a kick is to reach the peer when
the entry it asked for is among those added since the last kick. The test compares differences that C has
promoted to `int`, so it only asks whether the event is at or behind the index of the last kick.
-/
import RpmsgLite.Virtio.Virtqueue

namespace RpmsgLite

open ByteMem

/-- `vring_avail_event`, as `vq_ring_must_notify_host` reads it -/
def Vring.availEvent (vr : Vring) (m : ByteMem) : UInt16 := (m.ld32 (vr.usedIdAt vr.num)).toUInt16

/-! ## The test -/

theorem vringNeedEvent_iff (event newIdx old : UInt16) : vringNeedEvent event newIdx old = true ↔ old.toNat ≤ event.toNat := by
  unfold vringNeedEvent
  rw [decide_eq_true_iff]
  omega

/-- The entries that were added from the index `old` on. -/
def entriesFrom (old : UInt16) (n : Nat) : List UInt16 := (List.range n).map fun k => old + UInt16.ofNat k

theorem entriesFrom_succ (old : UInt16) (n : Nat) : entriesFrom old (n + 1) = entriesFrom old n ++ [old + UInt16.ofNat n] := by
  unfold entriesFrom
  rw [List.range_succ, List.map_append, List.map_singleton]

theorem mem_entriesFrom {old event : UInt16} {n : Nat} (hn : n < 65536) :
    event ∈ entriesFrom old n ↔ FreeRing.count event old < n := by
  unfold entriesFrom
  rw [List.mem_map]
  constructor
  · rintro ⟨k, hk, rfl⟩
    have hlt := List.mem_range.1 hk
    rw [FreeRing.count_add_self (by omega)]
    exact hlt
  · intro hlt
    refine ⟨FreeRing.count event old, List.mem_range.2 hlt, UInt16.toNat_inj.1 ?_⟩
    rw [UInt16.toNat_add, UInt16.toNat_ofNat', FreeRing.prod_eq event old]
    omega

/-- The event lies where 16-bit numbers and free-running indices agree: not below `old` and not behind the `n`
entries, or below `old` and not reached by them. -/
def EventInOrder (old : UInt16) (n : Nat) (event : UInt16) : Prop :=
  if old ≤ event then event.toNat < old.toNat + n else old.toNat + n ≤ event.toNat + 65536

instance (old : UInt16) (n : Nat) (event : UInt16) : Decidable (EventInOrder old n event) :=
  inferInstanceAs (Decidable (ite _ _ _))

/-- The test is right about an event exactly when it is in order. -/
theorem needEvent_right_iff {old newIdx event : UInt16} {n : Nat} (hn : n < 65536) :
    (vringNeedEvent event newIdx old = true ↔ event ∈ entriesFrom old n) ↔ EventInOrder old n event := by
  rw [vringNeedEvent_iff, mem_entriesFrom hn, FreeRing.count_eq]
  unfold EventInOrder
  have ho := old.toNat_lt
  have he := event.toNat_lt
  -- the count from `old` up to the event wraps exactly when the event is below
  by_cases hle : old ≤ event
  · rw [if_pos hle]
    have hle := UInt16.le_iff_toNat_le.1 hle
    constructor
    · intro h
      have := h.1 hle
      omega
    · intro h
      constructor
      · intro _
        omega
      · intro _
        exact hle
  · rw [if_neg hle]
    have hlt := UInt16.lt_iff_toNat_lt.1 (UInt16.not_le.1 hle)
    constructor
    · intro h
      by_contra hlate
      have := h.2 (by omega)
      omega
    · intro h
      constructor
      · intro _
        omega
      · intro _
        omega

/-! ## Runs -/

/-- The virtqueue that publishes on an avail ring, and the memory. -/
structure AvailSide where
  vq : Virtqueue
  m : ByteMem

/-- The runs of additions and kicks, with the indices of the entries added since the last kick. The peer may
change the memory outside the avail ring at any time. -/
inductive KickRun (s₀ : AvailSide) : List UInt16 → AvailSide → Prop
  | start : KickRun s₀ [] s₀
  | add {added : List UInt16} {s : AvailSide} (h : KickRun s₀ added s) (headIdx : UInt16) :
      KickRun s₀ (added ++ [s.m.ld16 s.vq.ring.availIdxAt])
        ⟨(virtqueueAddBuffer s.vq s.m headIdx).1, (virtqueueAddBuffer s.vq s.m headIdx).2⟩
  | kick {added : List UInt16} {s : AvailSide} (h : KickRun s₀ added s) : KickRun s₀ [] ⟨(virtqueueKick s.vq s.m).1, s.m⟩
  | peer {added : List UInt16} {s : AvailSide} (h : KickRun s₀ added s) {m : ByteMem}
      (hm : Agree s.m m s.vq.ring.avail s.vq.ring.availEnd) : KickRun s₀ added { s with m }

/-- The avail index at the last kick, from the current one and the number of entries added since. -/
def AvailSide.lastKick (s : AvailSide) (added : List UInt16) : UInt16 :=
  s.m.ld16 s.vq.ring.availIdxAt - UInt16.ofNat added.length

/-- `vq_queued_cnt` counts the additions since the last kick, and the index has grown by them. -/
structure AvailSide.Counts (s : AvailSide) (old : UInt16) (added : List UInt16) : Prop where
  wf : s.vq.Wf
  flags : s.vq.flags &&& VIRTQUEUE_FLAG_EVENT_IDX ≠ 0
  idx : s.m.ld16 s.vq.ring.availIdxAt = old + UInt16.ofNat added.length
  queued : s.vq.queuedCnt = UInt16.ofNat added.length
  entries : added = entriesFrom old added.length

section

variable {s s₀ : AvailSide} {old : UInt16} {added : List UInt16}

theorem AvailSide.Counts.start (hvq : s.vq.Wf) (hflags : s.vq.flags &&& VIRTQUEUE_FLAG_EVENT_IDX ≠ 0) (hq : s.vq.queuedCnt = 0) :
    s.Counts (s.m.ld16 s.vq.ring.availIdxAt) [] :=
  ⟨hvq, hflags, (UInt16.add_zero _).symm, hq, rfl⟩

theorem AvailSide.Counts.add (h : s.Counts old added) (headIdx : UInt16) :
    AvailSide.Counts ⟨(virtqueueAddBuffer s.vq s.m headIdx).1, (virtqueueAddBuffer s.vq s.m headIdx).2⟩ old
      (added ++ [s.m.ld16 s.vq.ring.availIdxAt]) := by
  have hput := vqRingUpdateAvail_spec (m := s.m) h.wf headIdx
  have hsucc : UInt16.ofNat (added.length + 1) = UInt16.ofNat added.length + 1 := UInt16.ofNat_add _ _
  refine ⟨⟨h.wf.laid, h.wf.num_eq⟩, h.flags, ?_, ?_, ?_⟩
  · rw [List.length_append, List.length_singleton, hsucc, ← UInt16.add_assoc, ← h.idx]
    exact hput.idx
  · rw [List.length_append, List.length_singleton, hsucc, ← h.queued]
    rfl
  · rw [List.length_append, List.length_singleton, entriesFrom_succ, ← h.entries, h.idx]

theorem AvailSide.Counts.kick (h : s.Counts old added) :
    AvailSide.Counts ⟨(virtqueueKick s.vq s.m).1, s.m⟩ (s.m.ld16 s.vq.ring.availIdxAt) [] :=
  .start ⟨h.wf.laid, h.wf.num_eq⟩ h.flags rfl

theorem AvailSide.Counts.peer (h : s.Counts old added) {m : ByteMem} (hm : Agree s.m m s.vq.ring.avail s.vq.ring.availEnd) :
    AvailSide.Counts { s with m } old added :=
  ⟨h.wf, h.flags, (Vring.availIdx_congr hm).trans h.idx, h.queued, h.entries⟩

theorem KickRun.counts (h₀ : s₀.Counts (s₀.m.ld16 s₀.vq.ring.availIdxAt) []) (h : KickRun s₀ added s) :
    ∃ old, s.Counts old added := by
  induction h with
  | start => exact ⟨_, h₀⟩
  | add _ headIdx ih =>
    obtain ⟨old, hc⟩ := ih
    exact ⟨old, hc.add headIdx⟩
  | kick _ ih =>
    obtain ⟨old, hc⟩ := ih
    exact ⟨_, hc.kick⟩
  | peer _ hm ih =>
    obtain ⟨old, hc⟩ := ih
    exact ⟨old, hc.peer hm⟩

theorem AvailSide.Counts.lastKick_eq (h : s.Counts old added) : s.lastKick added = old := by
  unfold lastKick
  rw [h.idx, UInt16.add_sub_cancel]

/-- What the kick compares are the event, and the indices now and at the last kick. -/
theorem AvailSide.Counts.kick_eq (h : s.Counts old added) :
    (virtqueueKick s.vq s.m).2 = vringNeedEvent (s.vq.ring.availEvent s.m) (s.m.ld16 s.vq.ring.availIdxAt) old := by
  show vqRingMustNotifyHost s.vq s.m = _
  unfold vqRingMustNotifyHost
  rw [if_pos h.flags]
  dsimp only
  rw [h.queued, h.idx, UInt16.add_sub_cancel]
  rfl

end

/-- In every run and for every event the peer may have written, a kick is right about notifying exactly when the event
is in order. -/
theorem kick_right_iff {s₀ s : AvailSide} {added : List UInt16} (hvq : s₀.vq.Wf)
    (hflags : s₀.vq.flags &&& VIRTQUEUE_FLAG_EVENT_IDX ≠ 0) (hq : s₀.vq.queuedCnt = 0) (h : KickRun s₀ added s)
    (hlen : added.length < 65536) :
    ((virtqueueKick s.vq s.m).2 = true ↔ s.vq.ring.availEvent s.m ∈ added) ↔
      EventInOrder (s.lastKick added) added.length (s.vq.ring.availEvent s.m) := by
  obtain ⟨old, hc⟩ := h.counts (.start hvq hflags hq)
  have hentries := hc.entries
  rw [hc.lastKick_eq, hc.kick_eq]
  -- only the number of the entries matters from here on
  generalize added.length = n at hlen hentries
  rw [hentries]
  exact needEvent_right_iff hlen

/-! ## Two descriptors -/

def availTwo : Virtqueue := ⟨.txCallback, VIRTQUEUE_FLAG_EVENT_IDX, ⟨2, 16, 48, 64⟩, 0, 2, 0, 0, 0, 0⟩

theorem availTwo_wf : availTwo.Wf := ⟨⟨⟨by decide, by decide⟩, by decide, by decide⟩, by decide⟩

/-- The peer waits for entry 0, and it is added. -/
theorem kick_right_iff_first : (virtqueueKick (virtqueueAddBuffer availTwo (fun _ => 0) 1).1
    (virtqueueAddBuffer availTwo (fun _ => 0) 1).2).2 = true := by
  have hrun : KickRun ⟨availTwo, fun _ => 0⟩ _ _ := KickRun.start.add 1
  have h := kick_right_iff availTwo_wf (by decide) rfl hrun (by decide)
  exact (h.2 (by decide)).2 (by decide)

/-- The avail index before it wraps. -/
def wrapMem : ByteMem := fun a => if a = 50 ∨ a = 51 then 0xFF else 0

/-- Two entries are added over the wrap, the second is the one that the peer waits for, and it is not notified. And a
kick without new entries notifies a peer that waits for a later one. -/
theorem kick_wrong :
    (∃ added s, KickRun ⟨availTwo, wrapMem⟩ added s ∧ s.vq.ring.availEvent s.m ∈ added ∧
      (virtqueueKick s.vq s.m).2 = false) ∧
      ∃ s, KickRun ⟨availTwo, fun _ => 0⟩ [] s ∧ (virtqueueKick s.vq s.m).2 = true := by
  constructor
  · exact ⟨_, _, (KickRun.start.add 0).add 1, by decide, by decide⟩
  · exact ⟨_, KickRun.start, by decide⟩

end RpmsgLite
