/-
Two memories side by side: the same stores into both, and one memory under other addresses. Whoever sees a
memory `d` below finds at `a` the byte at `a + d`, and every load and store of that view is the same load or
store of the memory, `d` above.
-/
import RpmsgLite.Lib.ByteMem

namespace ByteMem

/-! ## The same stores into two memories -/

/-- What became of `v` and of `w`: at each address either the same byte was stored, in `R`, or nothing. -/
def SameStores (R : Nat → Prop) (v v' w w' : ByteMem) : Prop := ∀ b, v' b = w' b ∧ R b ∨ v' b = v b ∧ w' b = w b

namespace SameStores

variable {R R' : Nat → Prop} {v v' v'' w w' w'' : ByteMem} {lo hi : Nat}

theorem refl (R : Nat → Prop) (v w : ByteMem) : SameStores R v v w w := fun _ => Or.inr ⟨rfl, rfl⟩

theorem mono (h : SameStores R v v' w w') (hR : ∀ b, R b → R' b) : SameStores R' v v' w w' := fun b =>
  (h b).imp (fun hs => ⟨hs.1, hR b hs.2⟩) id

theorem trans (h : SameStores R v v' w w') (h' : SameStores R v' v'' w' w'') : SameStores R v v'' w w'' := by
  intro b
  rcases h' b with hs | ⟨h1, h2⟩
  · exact Or.inl hs
  · rcases h b with ⟨hb, hR⟩ | ⟨h3, h4⟩
    · exact Or.inl ⟨by rw [h1, h2, hb], hR⟩
    · exact Or.inr ⟨h1.trans h3, h2.trans h4⟩

theorem apply (h : SameStores R v v' w w') {b : Nat} (hb : v b = w b) : v' b = w' b := by
  rcases h b with ⟨hs, -⟩ | ⟨h1, h2⟩
  · exact hs
  · rw [h1, h2, hb]

theorem agree (h : SameStores R v v' w w') (ha : Agree w v lo hi) : Agree w' v' lo hi := fun b h1 h2 => h.apply (ha b h1 h2)

theorem unstored (h : SameStores R v v' w w') {b : Nat} (hb : ¬ R b) : w' b = w b := by
  rcases h b with ⟨-, hR⟩ | ⟨-, h2⟩
  · exact absurd hR hb
  · exact h2

/-- Changes inside a range where the memories agree. -/
theorem of_frames (hv : Frame v v' lo hi) (hw : Frame w w' lo hi) (ha : Agree w' v' lo hi) :
    SameStores (fun b => lo ≤ b ∧ b < hi) v v' w w' := by
  intro b
  by_cases hb : lo ≤ b ∧ b < hi
  · exact Or.inl ⟨ha b hb.1 hb.2, hb⟩
  · exact Or.inr ⟨hv b (by omega), hw b (by omega)⟩

variable (v w)

theorem put (a n x : Nat) : SameStores (fun b => a ≤ b ∧ b < a + n) v (v.put a n x) w (w.put a n x) := by
  refine of_frames (frame_put v a n x) (frame_put w a n x) fun b h1 h2 => ?_
  unfold ByteMem.put
  rw [if_pos ⟨h1, h2⟩, if_pos ⟨h1, h2⟩]

theorem fill (a n : Nat) (x : UInt8) : SameStores (fun b => a ≤ b ∧ b < a + n) v (v.fill a n x) w (w.fill a n x) :=
  of_frames (frame_fill v a n x) (frame_fill w a n x) fun b h1 h2 => by rw [fill_in h1 h2, fill_in h1 h2]

theorem copy (a : Nat) (bs : List UInt8) :
    SameStores (fun b => a ≤ b ∧ b < a + bs.length) v (v.copy a bs) w (w.copy a bs) := by
  refine of_frames (frame_copy v a bs) (frame_copy w a bs) fun b h1 h2 => ?_
  unfold ByteMem.copy
  rw [if_pos ⟨h1, h2⟩, if_pos ⟨h1, h2⟩]

theorem st16 (a : Nat) (x : UInt16) : SameStores (fun b => a ≤ b ∧ b < a + 2) v (v.st16 a x) w (w.st16 a x) := put v w a 2 _

theorem st32 (a : Nat) (x : UInt32) : SameStores (fun b => a ≤ b ∧ b < a + 4) v (v.st32 a x) w (w.st32 a x) := put v w a 4 _

end SameStores

/-- The same stores outside `X`. -/
def SameStoresOff (X R : Nat → Prop) (v v' w w' : ByteMem) : Prop :=
  ∀ b, ¬ X b → v' b = w' b ∧ R b ∨ v' b = v b ∧ w' b = w b

theorem SameStores.off {R : Nat → Prop} {v v' w w' : ByteMem} (h : SameStores R v v' w w') (X : Nat → Prop) :
    SameStoresOff X R v v' w w' := fun b _ => h b

namespace SameStoresOff

variable {X X' R R' : Nat → Prop} {v v' v'' w w' w'' : ByteMem} {lo hi : Nat}

theorem mono (h : SameStoresOff X R v v' w w') (hX : ∀ b, X b → X' b) (hR : ∀ b, R b → R' b) :
    SameStoresOff X' R' v v' w w' :=
  fun b hb => (h b fun hb' => hb (hX b hb')).imp (fun hs => ⟨hs.1, hR b hs.2⟩) id

theorem trans (h : SameStoresOff X R v v' w w') (h' : SameStoresOff X R v' v'' w' w'') : SameStoresOff X R v v'' w w'' := by
  intro b hb
  rcases h' b hb with hs | ⟨h1, h2⟩
  · exact Or.inl hs
  · rcases h b hb with ⟨hs, hR⟩ | ⟨h3, h4⟩
    · exact Or.inl ⟨by rw [h1, h2, hs], hR⟩
    · exact Or.inr ⟨h1.trans h3, h2.trans h4⟩

/-- Changes inside `X`. -/
theorem of_frames (hv : Frame v v' lo hi) (hw : Frame w w' lo hi) (hX : ∀ b, lo ≤ b → b < hi → X b) :
    SameStoresOff X R v v' w w' := by
  intro b hb
  have hout : b < lo ∨ hi ≤ b := by
    by_contra hin
    exact hb (hX b (by omega) (by omega))
  exact Or.inr ⟨hv b hout, hw b hout⟩

theorem apply (h : SameStoresOff X R v v' w w') {b : Nat} (hX : ¬ X b) (hb : v b = w b) : v' b = w' b := by
  rcases h b hX with ⟨hs, -⟩ | ⟨h1, h2⟩
  · exact hs
  · rw [h1, h2, hb]

/-- What is neither in `X` nor stored stays as it was. -/
theorem unstored (h : SameStoresOff X R v v' w w') {b : Nat} (hX : ¬ X b) (hR : ¬ R b) : v' b = v b := by
  rcases h b hX with ⟨-, hs⟩ | ⟨h1, -⟩
  · exact absurd hs hR
  · exact h1

end SameStoresOff

/-! ## Other addresses -/

/-- The memory as seen `d` below. -/
def lower (m : ByteMem) (d : Nat) : ByteMem := fun a => m (a + d)

/-- The memory after what is seen `d` below has become `v`. -/
def raise (m : ByteMem) (d : Nat) (v : ByteMem) : ByteMem := fun a => if d ≤ a then v (a - d) else m a

variable {m v v' : ByteMem} {d : Nat}

@[simp] theorem lower_zero (m : ByteMem) : m.lower 0 = m := rfl

@[simp] theorem raise_zero (m v : ByteMem) : m.raise 0 v = v := by
  funext a
  simp [raise]

@[simp] theorem raise_add (m : ByteMem) (d : Nat) (v : ByteMem) (a : Nat) : m.raise d v (a + d) = v a := by
  simp [raise]

@[simp] theorem lower_raise (m : ByteMem) (d : Nat) (v : ByteMem) : (m.raise d v).lower d = v :=
  funext (raise_add m d v)

@[simp] theorem raise_lower (m : ByteMem) (d : Nat) : m.raise d (m.lower d) = m := by
  funext a
  unfold raise lower
  split
  · rw [Nat.sub_add_cancel ‹_›]
  · rfl

/-- Two memories over one memory are the same if they look the same from below. -/
theorem raise_ext {w : ByteMem} (hv : ∀ a, w (a + d) = v a) (hm : ∀ a < d, w a = m a) : w = m.raise d v := by
  funext a
  by_cases ha : d ≤ a
  · obtain ⟨b, rfl⟩ := Nat.exists_eq_add_of_le' ha
    rw [hv, raise_add]
  · rw [hm a (by omega), raise, if_neg ha]

/-! ### Loads -/

theorem le_raise (m : ByteMem) (d : Nat) (v : ByteMem) (a n : Nat) : (m.raise d v).le (a + d) n = v.le a n := by
  induction n generalizing a with
  | zero => rfl
  | succ n ih =>
    unfold le
    rw [raise_add, Nat.add_right_comm, ih]

@[simp] theorem ld16_raise (m : ByteMem) (d : Nat) (v : ByteMem) (a : Nat) : (m.raise d v).ld16 (a + d) = v.ld16 a := by
  unfold ld16
  rw [le_raise]

@[simp] theorem ld32_raise (m : ByteMem) (d : Nat) (v : ByteMem) (a : Nat) : (m.raise d v).ld32 (a + d) = v.ld32 a := by
  unfold ld32
  rw [le_raise]

@[simp] theorem ld64_raise (m : ByteMem) (d : Nat) (v : ByteMem) (a : Nat) : (m.raise d v).ld64 (a + d) = v.ld64 a := by
  unfold ld64
  rw [le_raise]

@[simp] theorem block_raise (m : ByteMem) (d : Nat) (v : ByteMem) (a n : Nat) : (m.raise d v).block (a + d) n = v.block a n := by
  refine List.map_congr_left fun i _ => ?_
  rw [Nat.add_right_comm, raise_add]

/-! ### Stores -/

theorem put_raise (m : ByteMem) (d : Nat) (v : ByteMem) (a n x : Nat) :
    (m.raise d v).put (a + d) n x = m.raise d (v.put a n x) := by
  refine raise_ext (fun b => ?_) fun b hb => ?_
  · unfold put
    rw [raise_add, show b + d - (a + d) = b - a by omega]
    exact if_congr (by omega) rfl rfl
  · rw [put_out (Or.inl (by omega)), raise, if_neg (by omega)]

@[simp] theorem st16_raise (m : ByteMem) (d : Nat) (v : ByteMem) (a : Nat) (x : UInt16) :
    (m.raise d v).st16 (a + d) x = m.raise d (v.st16 a x) := put_raise m d v a 2 _

@[simp] theorem st32_raise (m : ByteMem) (d : Nat) (v : ByteMem) (a : Nat) (x : UInt32) :
    (m.raise d v).st32 (a + d) x = m.raise d (v.st32 a x) := put_raise m d v a 4 _

@[simp] theorem st64_raise (m : ByteMem) (d : Nat) (v : ByteMem) (a : Nat) (x : UInt64) :
    (m.raise d v).st64 (a + d) x = m.raise d (v.st64 a x) := put_raise m d v a 8 _

@[simp] theorem fill_raise (m : ByteMem) (d : Nat) (v : ByteMem) (a n : Nat) (x : UInt8) :
    (m.raise d v).fill (a + d) n x = m.raise d (v.fill a n x) := by
  refine raise_ext (fun b => ?_) fun b hb => ?_
  · unfold fill
    rw [raise_add]
    exact if_congr (by omega) rfl rfl
  · rw [frame_fill _ _ _ _ _ (Or.inl (by omega)), raise, if_neg (by omega)]

@[simp] theorem copy_raise (m : ByteMem) (d : Nat) (v : ByteMem) (a : Nat) (bs : List UInt8) :
    (m.raise d v).copy (a + d) bs = m.raise d (v.copy a bs) := by
  refine raise_ext (fun b => ?_) fun b hb => ?_
  · unfold copy
    rw [raise_add, show b + d - (a + d) = b - a by omega]
    exact if_congr (by omega) rfl rfl
  · rw [frame_copy _ _ _ _ (Or.inl (by omega)), raise, if_neg (by omega)]

end ByteMem
