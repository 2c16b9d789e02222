/-
What a consumer finds in a ring's slots, and what the single stores of a producer do to it. A store
into a slot touches that slot of that ring, a store of the index that index, and nothing else of the
vring.
-/
import RpmsgLite.Conc.Atomic

namespace RpmsgLite

open ByteMem

namespace Vring

variable (vr : Vring) (T : DescTable) (m : ByteMem)

/-- The descriptor table in the memory. -/
def table : DescTable where
  buffer d := envMapPatova (m.ld64 (vr.descAddrAt d.toNat)).toUInt32
  len d := m.ld32 (vr.descLenAt d.toNat)

/-- The memory's descriptors are those of the table. -/
def HasTable : Prop := ∀ d : UInt16, d.toNat < vr.num →
  envMapPatova (m.ld64 (vr.descAddrAt d.toNat)).toUInt32 = T.buffer d ∧ m.ld32 (vr.descLenAt d.toNat) = T.len d

/-- The entry in a slot. -/
def slotEntry (k : RingKind) (slot : Nat) : Entry :=
  match k with
  | .avail => (m.ld16 (vr.availRingAt slot), T.len (m.ld16 (vr.availRingAt slot)))
  | .used => ((m.ld32 (vr.usedIdAt slot)).toUInt16, m.ld32 (vr.usedLenAt slot))

end Vring

section

variable {vr : Vring} {T : DescTable} {m m' : ByteMem} {k : RingKind} {slot : Nat}

theorem Vring.hasTable_self (vr : Vring) (m : ByteMem) : vr.HasTable (vr.table m) m := fun _ _ => ⟨rfl, rfl⟩

theorem Vring.HasTable.congr (h : vr.HasTable T m) (ha : Agree m m' vr.desc vr.descEnd) : vr.HasTable T m' := by
  intro d hd
  obtain ⟨h1, h2⟩ := h d hd
  refine ⟨?_, ?_⟩
  · rw [ld64_congr (ha.mono (by simp only [descAddrAt]; omega) (by simp only [descAddrAt, descEnd]; omega)), h1]
  · rw [ld32_congr (ha.mono (by simp only [descLenAt]; omega) (by simp only [descLenAt, descEnd]; omega)), h2]

theorem Vring.slotEntry_congr (ha : Agree m m' (vr.ringLo k) (vr.ringHi k)) (hs : slot < vr.num) :
    vr.slotEntry T m' k slot = vr.slotEntry T m k slot := by
  cases k with
  | avail =>
    have h := Vring.availSlot_congr ha hs
    simp only [availSlot] at h
    simp only [slotEntry, h]
  | used =>
    have h := Vring.usedSlot_congr ha hs
    simp only [usedSlot, Prod.mk.injEq] at h
    simp only [slotEntry, h.1, h.2]

/-! ## Single stores -/

/-- A store into slot `slot` of ring `k`. -/
structure SlotWrite (vr : Vring) (T : DescTable) (k : RingKind) (slot : Nat) (m m' : ByteMem) : Prop where
  own : ∀ j < vr.num, j ≠ slot → vr.slotEntry T m' k j = vr.slotEntry T m k j
  other : ∀ j < vr.num, vr.slotEntry T m' k.other j = vr.slotEntry T m k.other j
  idx : ∀ k', vr.ringIdx m' k' = vr.ringIdx m k'
  table : Agree m m' vr.desc vr.descEnd

/-- A store of `i` into the index of ring `k`. -/
structure IdxWrite (vr : Vring) (T : DescTable) (k : RingKind) (i : UInt16) (m m' : ByteMem) : Prop where
  slots : ∀ k', ∀ j < vr.num, vr.slotEntry T m' k' j = vr.slotEntry T m k' j
  idx : vr.ringIdx m' k = i
  other : vr.ringIdx m' k.other = vr.ringIdx m k.other
  table : Agree m m' vr.desc vr.descEnd

/-- A store into the slots of a ring leaves the index, the other ring and the table alone. -/
theorem slotWrite_of_frame (hl : vr.Laid) {lo hi : Nat} (hf : Frame m m' lo hi) (hlo : vr.ringLo k + 4 ≤ lo)
    (hhi : hi ≤ vr.ringHi k) (own : ∀ j < vr.num, j ≠ slot → vr.slotEntry T m' k j = vr.slotEntry T m k j) :
    SlotWrite vr T k slot m m' := by
  have hap := hl.rings_apart k
  have hd := hl.descEnd_le_ringLo k
  have hother : Agree m m' (vr.ringLo k.other) (vr.ringHi k.other) := hf.agree (by omega)
  refine ⟨own, fun j hj => Vring.slotEntry_congr hother hj, fun k' => ?_, hf.agree (by omega)⟩
  by_cases hk : k' = k
  · subst hk
    cases k' with
    | avail =>
      simp only [Vring.ringLo] at hlo
      exact ld16_congr (hf.agree (by simp only [Vring.availIdxAt]; omega))
    | used =>
      simp only [Vring.ringLo] at hlo
      exact ld16_congr (hf.agree (by simp only [Vring.usedIdxAt]; omega))
  · obtain rfl : k' = k.other := by cases k <;> cases k' <;> first | rfl | exact absurd rfl hk
    exact Vring.ringIdx_congr hother

theorem availSlot_write (hl : vr.Laid) (hs : slot < vr.num) (m : ByteMem) (d : UInt16) :
    SlotWrite vr T .avail slot m (m.st16 (vr.availRingAt slot) d) ∧
      vr.slotEntry T (m.st16 (vr.availRingAt slot) d) .avail slot = T.entry .avail d 0 := by
  have hf := frame_st16 m (vr.availRingAt slot) d
  refine ⟨slotWrite_of_frame hl hf ?_ ?_ fun j _ hne => ?_, ?_⟩
  · simp only [Vring.availRingAt, Vring.ringLo]; omega
  · simp only [Vring.availRingAt, Vring.ringHi, Vring.availEnd]; omega
  · simp only [Vring.slotEntry]
    rw [ld16_congr (hf.agree (by simp only [Vring.availRingAt]; omega))]
  · simp only [Vring.slotEntry, ld16_st16, DescTable.entry]

theorem usedId_write (hl : vr.Laid) (hs : slot < vr.num) (m : ByteMem) (d : UInt16) :
    SlotWrite vr T .used slot m (m.st32 (vr.usedIdAt slot) d.toUInt32) ∧
      (vr.slotEntry T (m.st32 (vr.usedIdAt slot) d.toUInt32) .used slot).1 = d := by
  have hf := frame_st32 m (vr.usedIdAt slot) d.toUInt32
  refine ⟨slotWrite_of_frame hl hf ?_ ?_ fun j _ hne => ?_, ?_⟩
  · simp only [Vring.usedIdAt, Vring.ringLo]; omega
  · simp only [Vring.usedIdAt, Vring.ringHi, Vring.usedEnd]; omega
  · simp only [Vring.slotEntry]
    rw [ld32_congr (hf.agree (by simp only [Vring.usedIdAt]; omega)),
      ld32_congr (hf.agree (by simp only [Vring.usedIdAt, Vring.usedLenAt]; omega))]
  · simp only [Vring.slotEntry, ld32_st32, toUInt16_toUInt32]

theorem usedLen_write (hl : vr.Laid) (hs : slot < vr.num) (m : ByteMem) (len : UInt32) :
    SlotWrite vr T .used slot m (m.st32 (vr.usedLenAt slot) len) ∧
      vr.slotEntry T (m.st32 (vr.usedLenAt slot) len) .used slot = ((vr.slotEntry T m .used slot).1, len) := by
  have hf := frame_st32 m (vr.usedLenAt slot) len
  refine ⟨slotWrite_of_frame hl hf ?_ ?_ fun j _ hne => ?_, ?_⟩
  · simp only [Vring.usedLenAt, Vring.ringLo]; omega
  · simp only [Vring.usedLenAt, Vring.ringHi, Vring.usedEnd]; omega
  · simp only [Vring.slotEntry]
    rw [ld32_congr (hf.agree (by simp only [Vring.usedIdAt, Vring.usedLenAt]; omega)),
      ld32_congr (hf.agree (by simp only [Vring.usedLenAt]; omega))]
  · simp only [Vring.slotEntry, ld32_st32]
    rw [ld32_congr (hf.agree (by simp only [Vring.usedIdAt, Vring.usedLenAt]; omega))]

/-- The address of a ring's index. -/
def Vring.ringIdxAt (vr : Vring) : RingKind → Nat
  | .avail => vr.availIdxAt
  | .used => vr.usedIdxAt

theorem idx_write (hl : vr.Laid) (k : RingKind) (m : ByteMem) (i : UInt16) :
    IdxWrite vr T k i m (m.st16 (vr.ringIdxAt k) i) := by
  have hf := frame_st16 m (vr.ringIdxAt k) i
  have hap := hl.rings_apart k
  have hd := hl.descEnd_le_ringLo k
  have hat : vr.ringIdxAt k = vr.ringLo k + 2 ∧ vr.ringLo k + 4 ≤ vr.ringHi k := by
    cases k with
    | avail => exact ⟨rfl, Nat.le_add_right _ _⟩
    | used => exact ⟨rfl, Nat.le_add_right _ _⟩
  have hother : Agree m (m.st16 (vr.ringIdxAt k) i) (vr.ringLo k.other) (vr.ringHi k.other) :=
    hf.agree (by omega)
  refine ⟨fun k' j hj => ?_, ?_, Vring.ringIdx_congr hother, hf.agree (by omega)⟩
  · by_cases hk : k' = k
    · subst hk
      cases k' with
      | avail =>
        simp only [Vring.slotEntry]
        rw [ld16_congr (hf.agree (by simp only [Vring.ringIdxAt, Vring.availRingAt, Vring.availIdxAt]; omega))]
      | used =>
        simp only [Vring.slotEntry]
        rw [ld32_congr (hf.agree (by simp only [Vring.ringIdxAt, Vring.usedIdAt, Vring.usedIdxAt]; omega)),
          ld32_congr (hf.agree (by simp only [Vring.ringIdxAt, Vring.usedLenAt, Vring.usedIdxAt]; omega))]
    · obtain rfl : k' = k.other := by cases k <;> cases k' <;> first | rfl | exact absurd rfl hk
      exact Vring.slotEntry_congr hother hj
  · cases k <;> exact ld16_st16 _ _ _

end

end RpmsgLite
