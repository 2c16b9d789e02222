/-
What a core may put on a used ring. `virtqueue_add_consumed_buffer` refuses the descriptors behind the
table, all but the first of them; while that one is never given to it every pending element names a
descriptor, and the other core, which does not look again, stays inside the descriptor table.
-/
import RpmsgLite.Virtio.Virtqueue

namespace RpmsgLite

open ByteMem

/-! ## One call -/

/-- The call refuses a descriptor behind the table and leaves the memory alone; any other it publishes. -/
def Virtqueue.Guards (vq : Virtqueue) (m : ByteMem) (headIdx : UInt16) (len : UInt32) : Prop :=
  (vq.nentries ≤ headIdx → virtqueueAddConsumedBuffer vq m headIdx len = (ERROR_VRING_NO_BUFF, m)) ∧
    (headIdx < vq.nentries → (virtqueueAddConsumedBuffer vq m headIdx len).1 = VQUEUE_SUCCESS ∧
      UsedPut vq.ring m (virtqueueAddConsumedBuffer vq m headIdx len).2 headIdx len)

variable {vq : Virtqueue} {m : ByteMem} {headIdx : UInt16} {len : UInt32}

theorem virtqueueAddConsumedBuffer_refused (h : vq.nentries < headIdx) :
    virtqueueAddConsumedBuffer vq m headIdx len = (ERROR_VRING_NO_BUFF, m) := if_pos h

theorem Virtqueue.guards_iff (hvq : vq.Wf) : vq.Guards m headIdx len ↔ headIdx ≠ vq.nentries := by
  constructor
  · -- the first descriptor behind the table is published: the source tests with `>`
    rintro ⟨hrefuse, -⟩ rfl
    have hres := hrefuse (UInt16.le_refl _)
    rw [virtqueueAddConsumedBuffer_taken (UInt16.le_refl _)] at hres
    exact absurd (show VQUEUE_SUCCESS = ERROR_VRING_NO_BUFF from congrArg Prod.fst hres) (by decide)
  · intro hne
    constructor
    · intro hle
      exact virtqueueAddConsumedBuffer_refused (UInt16.lt_of_le_of_ne hle hne.symm)
    · intro hlt
      rw [virtqueueAddConsumedBuffer_taken (UInt16.le_of_lt hlt)]
      exact ⟨rfl, vqRingUpdateUsed_spec hvq headIdx len⟩

/-! ## Both sides of the ring -/

/-- The memory and the virtqueue of the core that takes from the used ring. -/
structure UsedSide where
  m : ByteMem
  vq : Virtqueue

/-- Every pending used element names one of the descriptors. -/
structure UsedSide.Valid (vq : Virtqueue) (s : UsedSide) : Prop where
  wf : s.vq.Wf
  ring : s.vq.ring = vq.ring
  ids : ∀ e ∈ s.vq.ring.usedPending s.m s.vq.usedConsIdx, e.1.toNat < s.vq.ring.num

/-- The runs of a core that publishes with `vq` and of one that takes, with the descriptors published. Anything
may happen to the memory outside the used ring. -/
inductive UsedRun (vq : Virtqueue) (s₀ : UsedSide) : List UInt16 → UsedSide → Prop
  | start : UsedRun vq s₀ [] s₀
  | add {heads : List UInt16} {s : UsedSide} (h : UsedRun vq s₀ heads s) (headIdx : UInt16) (len : UInt32) :
      UsedRun vq s₀ (heads ++ [headIdx]) { s with m := (virtqueueAddConsumedBuffer vq s.m headIdx len).2 }
  | get {heads : List UInt16} {s : UsedSide} (h : UsedRun vq s₀ heads s) :
      UsedRun vq s₀ heads { s with vq := (virtqueueGetBuffer s.vq s.m).1 }
  | other {heads : List UInt16} {s : UsedSide} (h : UsedRun vq s₀ heads s) {m : ByteMem}
      (hm : Agree s.m m vq.ring.used vq.ring.usedEnd) : UsedRun vq s₀ heads { s with m }

section

variable {s s₀ : UsedSide} {heads : List UInt16}

theorem UsedSide.Valid.add (h : s.Valid vq) (hvq : vq.Wf) (hne : headIdx ≠ vq.nentries) (len : UInt32) :
    UsedSide.Valid vq { s with m := (virtqueueAddConsumedBuffer vq s.m headIdx len).2 } := by
  rcases UInt16.lt_or_le vq.nentries headIdx with hgt | hle
  · rw [virtqueueAddConsumedBuffer_refused hgt]
    exact h
  · rw [virtqueueAddConsumedBuffer_taken hle]
    have hput := vqRingUpdateUsed_spec (m := s.m) hvq headIdx len
    rw [← h.ring] at hput
    refine ⟨h.wf, h.ring, ?_⟩
    have hlt : headIdx.toNat < s.vq.ring.num := by
      rw [h.ring, ← hvq.num_eq]
      exact UInt16.lt_iff_toNat_lt.1 (UInt16.lt_of_le_of_ne hle hne)
    -- the index grows by one, so what was pending stays and the new slot is pending as well
    show ∀ e ∈ FreeRing.pending _ _ _ _, _
    rw [hput.idx]
    refine FreeRing.forall_pending_succ h.wf.laid.size h.ids hput.other ?_
    rw [hput.slot]
    exact hlt

/-- Taking an element takes one of the pending ones, so the descriptor that is read lies in the table. -/
theorem UsedSide.Valid.get (h : s.Valid vq) : UsedSide.Valid vq { s with vq := (virtqueueGetBuffer s.vq s.m).1 } ∧
    ∀ g, (virtqueueGetBuffer s.vq s.m).2 = some g → g.idx.toNat < s.vq.ring.num ∧
      g.buffer = envMapPatova (s.m.ld64 (s.vq.ring.descAddrAt g.idx.toNat)).toUInt32 := by
  rcases virtqueueGetBuffer_spec (m := s.m) h.wf with ⟨-, hget⟩ | ⟨e, es, hpend, htail, hget⟩
  · rw [hget]
    exact ⟨h, fun g hg => by cases hg⟩
  · have hids := h.ids
    rw [hpend] at hids
    have he := hids e List.mem_cons_self
    have hsize := h.wf.laid.size.le
    -- the reader cuts the id to 16 bits
    have hid : e.1.toUInt16.toNat = e.1.toNat := by
      rw [UInt32.toNat_toUInt16]
      omega
    rw [hget]
    refine ⟨⟨⟨h.wf.laid, h.wf.num_eq⟩, h.ring, fun e' he' => ?_⟩, fun g hg => ?_⟩
    · rw [show s.vq.ring.usedPending s.m (s.vq.usedConsIdx + 1) = es from htail] at he'
      exact hids e' (List.mem_cons_of_mem _ he')
    · obtain rfl := Option.some.inj hg
      exact ⟨by rw [hid]; exact he, rfl⟩

theorem UsedRun.valid (hvq : vq.Wf) (h₀ : s₀.Valid vq) (h : UsedRun vq s₀ heads s)
    (hne : ∀ d ∈ heads, d ≠ vq.nentries) :
    s.Valid vq := by
  induction h with
  | start => exact h₀
  | add _ headIdx len ih =>
    exact (ih fun d hd => hne d (List.mem_append_left _ hd)).add hvq (hne headIdx (List.mem_append_right _ List.mem_cons_self)) len
  | get _ ih => exact (ih hne).get.1
  | other _ hm ih =>
    have hs := ih hne
    refine ⟨hs.wf, hs.ring, ?_⟩
    rw [← hs.ring] at hm
    show ∀ e ∈ Vring.usedPending _ _ _, _
    rw [Vring.usedPending_congr hs.wf.pos hm]
    exact hs.ids

end

/-- A call does what it should exactly when it is not given the descriptor right behind the table; in every run
without such a call all pending elements are valid and a reader stays in the descriptor table. -/
theorem used_ring_guarded (hvq : vq.Wf) :
    (∀ m headIdx len, vq.Guards m headIdx len ↔ headIdx ≠ vq.nentries) ∧
      ∀ s₀ heads s, s₀.Valid vq → UsedRun vq s₀ heads s → (∀ d ∈ heads, d ≠ vq.nentries) →
        s.Valid vq ∧ ∀ g, (virtqueueGetBuffer s.vq s.m).2 = some g → g.idx.toNat < vq.ring.num ∧
          g.buffer = envMapPatova (s.m.ld64 (vq.ring.descAddrAt g.idx.toNat)).toUInt32 := by
  refine ⟨fun m headIdx len => Virtqueue.guards_iff hvq, fun s₀ heads s h₀ h hne => ?_⟩
  have hs := h.valid hvq h₀ hne
  rw [← hs.ring]
  exact ⟨hs, hs.get.2⟩

/-! ## Two descriptors -/

def usedTwo : Virtqueue := ⟨.rxCallback, 0, ⟨2, 16, 48, 64⟩, 0, 2, 0, 0, 0, 0⟩

theorem usedTwo_wf : usedTwo.Wf := ⟨⟨⟨by decide, by decide⟩, by decide, by decide⟩, by decide⟩

/-- Descriptor 1 is published and taken. -/
theorem used_ring_guarded_two : usedTwo.Guards (fun _ => 0) 1 7 ∧
    ∃ g, (virtqueueGetBuffer usedTwo (virtqueueAddConsumedBuffer usedTwo (fun _ => 0) 1 7).2).2 = some g ∧ g.idx.toNat < 2 := by
  obtain ⟨hguards, hrun⟩ := used_ring_guarded usedTwo_wf
  have hvalid : UsedSide.Valid usedTwo ⟨fun _ => 0, usedTwo⟩ := by
    refine ⟨usedTwo_wf, rfl, fun e he => ?_⟩
    rw [show usedTwo.ring.usedPending (fun _ => 0) usedTwo.usedConsIdx = [] by decide] at he
    exact absurd he List.not_mem_nil
  have hne : ∀ d ∈ [(1 : UInt16)], d ≠ usedTwo.nentries := by
    intro d hd
    rw [List.mem_singleton.1 hd]
    decide
  obtain ⟨-, hget⟩ := hrun _ _ _ hvalid (UsedRun.start.add 1 7) hne
  obtain ⟨g, hg⟩ := Option.isSome_iff_exists.1 (show (virtqueueGetBuffer usedTwo
    (virtqueueAddConsumedBuffer usedTwo (fun _ => 0) 1 7).2).2.isSome = true by decide)
  exact ⟨(hguards _ _ _).2 (by decide), g, hg, (hget g hg).1⟩

/-- Descriptor 2 of two is published as well, and the other core reads behind the descriptor table. -/
theorem used_ring_unguarded : ¬ usedTwo.Guards (fun _ => 0) 2 7 ∧
    ∃ g, (virtqueueGetBuffer usedTwo (virtqueueAddConsumedBuffer usedTwo (fun _ => 0) 2 7).2).2 = some g ∧ g.idx = 2 := by
  refine ⟨fun h => (Virtqueue.guards_iff usedTwo_wf).1 h rfl, ?_⟩
  obtain ⟨g, hg⟩ := Option.isSome_iff_exists.1 (show (virtqueueGetBuffer usedTwo
    (virtqueueAddConsumedBuffer usedTwo (fun _ => 0) 2 7).2).2.isSome = true by decide)
  have hidx : (virtqueueGetBuffer usedTwo (virtqueueAddConsumedBuffer usedTwo (fun _ => 0) 2 7).2).2.map Got.idx = some 2 := by
    decide
  rw [hg] at hidx
  exact ⟨g, hg, Option.some.inj hidx⟩

end RpmsgLite
