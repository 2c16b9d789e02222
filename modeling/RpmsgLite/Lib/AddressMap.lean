/-
Ranges of 32-bit addresses, and one piece of memory under two addresses: where other cores see it and where
its owner does. Addresses of both ranges belong to the same byte when they lie equally far from the starts;
subtracting the distance of the starts goes from one to the other.
-/
import Mathlib.Tactic

namespace AddressMap

/-- The addresses from `first` to `last`, both inside. -/
structure Range where
  first : UInt32
  last : UInt32
  le : first ≤ last

instance : Membership UInt32 Range := ⟨fun r a => r.first ≤ a ∧ a ≤ r.last⟩

instance (a : UInt32) (r : Range) : Decidable (a ∈ r) := inferInstanceAs (Decidable (_ ∧ _))

variable {r s : Range} {a b d : UInt32}

/-- Ranges one behind the other have no address in common. -/
theorem Range.notMem_of_lt (h : r.last < s.first) (ha : a ∈ r) : a ∉ s :=
  fun hs => UInt32.not_lt.2 (UInt32.le_trans hs.1 ha.2) h

theorem Range.notMem_of_gt (h : s.last < r.first) (ha : a ∈ r) : a ∉ s :=
  fun hs => Range.notMem_of_lt h hs ha

/-- A range inside another one. -/
theorem Range.mem_of_sub (hf : s.first ≤ r.first) (hl : r.last ≤ s.last) (ha : a ∈ r) : a ∈ s :=
  ⟨UInt32.le_trans hf ha.1, UInt32.le_trans ha.2 hl⟩

/-- An address behind a start, from its offset. -/
theorem Range.mem_of_offset (h : a - r.first ≤ r.last - r.first) : a ∈ r := by
  have hle := UInt32.le_iff_toNat_le.1 r.le
  have hoff := UInt32.le_iff_toNat_le.1 h
  rw [UInt32.toNat_sub_of_le _ _ r.le] at hoff
  have hlast := r.last.toNat_lt
  have ha : a.toNat = r.first.toNat + (a - r.first).toNat := by
    have hsum : a = r.first + (a - r.first) := by grind
    have hadd := congrArg UInt32.toNat hsum
    rwa [UInt32.toNat_add, Nat.mod_eq_of_lt (by omega)] at hadd
  exact ⟨UInt32.le_iff_toNat_le.2 (by omega), UInt32.le_iff_toNat_le.2 (by omega)⟩

theorem Range.offset_le (h : a ∈ r) : a - r.first ≤ r.last - r.first := by
  have hf := UInt32.le_iff_toNat_le.1 h.1
  have hl := UInt32.le_iff_toNat_le.1 h.2
  refine UInt32.le_iff_toNat_le.2 ?_
  rw [UInt32.toNat_sub_of_le _ _ h.1, UInt32.toNat_sub_of_le _ _ r.le]
  omega

/-! ## One memory in two views -/

/-- A piece of memory in two views, of the same size. -/
structure Shared where
  far : Range
  near : Range
  size : far.last - far.first = near.last - near.first

/-- Both addresses belong to the same byte. -/
structure Shared.SameByte (s : Shared) (a b : UInt32) : Prop where
  far : a ∈ s.far
  near : b ∈ s.near
  offset : a - s.far.first = b - s.near.first

variable {w : Shared} {a' : UInt32}

/-- Subtracting the distance of the starts finds the byte in the owner's view. -/
theorem Shared.sameByte_sub (ha : a ∈ w.far) (hd : d = w.far.first - w.near.first) : w.SameByte a (a - d) := by
  have hoff : a - w.far.first = a - d - w.near.first := by
    rw [hd]
    grind
  exact ⟨ha, Range.mem_of_offset (by rw [← hoff, ← w.size]; exact Range.offset_le ha), hoff⟩

/-- No two addresses of a view belong to one byte. -/
theorem Shared.SameByte.inj (h : w.SameByte a b) (h' : w.SameByte a' b) : a = a' := by
  have heq := h.offset.trans h'.offset.symm
  grind

end AddressMap
