/-
A flat byte-addressed memory with little-endian loads and stores, block fills and copies.
Two predicates carry every frame argument: `Agree` (two memories hold the same bytes in a range)
and `Frame` (a memory operation changed bytes only inside a range). Every observer has a
congruence law over `Agree`, and every operation a `Frame`.
-/
import Mathlib.Tactic

/-- A memory: the byte at every address. -/
abbrev ByteMem := Nat → UInt8

namespace ByteMem

/-! ## Operations -/

/-- The little-endian number in the `n` bytes at `a`. -/
def le (m : ByteMem) (a : Nat) : Nat → Nat
  | 0 => 0
  | n + 1 => (m a).toNat + 256 * le m (a + 1) n

/-- Store the `n` low bytes of `v` at `a`, little-endian. -/
def put (m : ByteMem) (a n v : Nat) : ByteMem :=
  fun b => if a ≤ b ∧ b < a + n then UInt8.ofNat (v / 256 ^ (b - a)) else m b

/-- Set the `n` bytes at `a` to `c`. -/
def fill (m : ByteMem) (a n : Nat) (c : UInt8) : ByteMem :=
  fun b => if a ≤ b ∧ b < a + n then c else m b

/-- Copy a block of bytes to `a`. -/
def copy (m : ByteMem) (a : Nat) (bs : List UInt8) : ByteMem :=
  fun b => if a ≤ b ∧ b < a + bs.length then bs.getD (b - a) 0 else m b

/-- The `n` bytes at `a`. -/
def block (m : ByteMem) (a n : Nat) : List UInt8 :=
  (List.range n).map fun i => m (a + i)

def ld16 (m : ByteMem) (a : Nat) : UInt16 := UInt16.ofNat (m.le a 2)
def ld32 (m : ByteMem) (a : Nat) : UInt32 := UInt32.ofNat (m.le a 4)
def ld64 (m : ByteMem) (a : Nat) : UInt64 := UInt64.ofNat (m.le a 8)
def st16 (m : ByteMem) (a : Nat) (v : UInt16) : ByteMem := m.put a 2 v.toNat
def st32 (m : ByteMem) (a : Nat) (v : UInt32) : ByteMem := m.put a 4 v.toNat
def st64 (m : ByteMem) (a : Nat) (v : UInt64) : ByteMem := m.put a 8 v.toNat

/-! ## Frames -/

/-- The two memories hold the same bytes in `[lo, hi)`. -/
def Agree (m m' : ByteMem) (lo hi : Nat) : Prop := ∀ b, lo ≤ b → b < hi → m' b = m b

/-- The second memory differs from the first at most inside `[lo, hi)`. -/
def Frame (m m' : ByteMem) (lo hi : Nat) : Prop := ∀ b, b < lo ∨ hi ≤ b → m' b = m b

variable {m m' m'' : ByteMem} {lo hi : Nat}

theorem Agree.refl (m : ByteMem) (lo hi : Nat) : Agree m m lo hi := fun _ _ _ => rfl

theorem Agree.trans (h : Agree m m' lo hi) (h' : Agree m' m'' lo hi) : Agree m m'' lo hi :=
  fun b hlo hhi => (h' b hlo hhi).trans (h b hlo hhi)

theorem Agree.mono {lo' hi' : Nat} (h : Agree m m' lo hi) (hlo : lo ≤ lo') (hhi : hi' ≤ hi) :
    Agree m m' lo' hi' :=
  fun b h1 h2 => h b (by omega) (by omega)

theorem Frame.refl (m : ByteMem) (lo hi : Nat) : Frame m m lo hi := fun _ _ => rfl

theorem Frame.trans (h : Frame m m' lo hi) (h' : Frame m' m'' lo hi) : Frame m m'' lo hi :=
  fun b hb => (h' b hb).trans (h b hb)

theorem Frame.mono {lo' hi' : Nat} (h : Frame m m' lo hi) (hlo : lo' ≤ lo) (hhi : hi ≤ hi') :
    Frame m m' lo' hi' :=
  fun b hb => h b (by omega)

/-- The frame rule: a range disjoint from the touched range is unchanged. -/
theorem Frame.agree {lo' hi' : Nat} (h : Frame m m' lo hi) (hd : hi' ≤ lo ∨ hi ≤ lo') :
    Agree m m' lo' hi' :=
  fun b h1 h2 => h b (by omega)

/-! ## Bytes -/

theorem put_out {a n v b : Nat} (h : b < a ∨ a + n ≤ b) : m.put a n v b = m b := by
  unfold put; rw [if_neg (by omega)]

theorem frame_put (m : ByteMem) (a n v : Nat) : Frame m (m.put a n v) a (a + n) := fun _ h => put_out h

theorem frame_fill (m : ByteMem) (a n : Nat) (c : UInt8) : Frame m (m.fill a n c) a (a + n) := by
  intro b hb; unfold fill; rw [if_neg (by omega)]

theorem frame_copy (m : ByteMem) (a : Nat) (bs : List UInt8) :
    Frame m (m.copy a bs) a (a + bs.length) := by
  intro b hb; unfold copy; rw [if_neg (by omega)]

theorem frame_st16 (m : ByteMem) (a : Nat) (v : UInt16) : Frame m (m.st16 a v) a (a + 2) :=
  frame_put m a 2 v.toNat
theorem frame_st32 (m : ByteMem) (a : Nat) (v : UInt32) : Frame m (m.st32 a v) a (a + 4) :=
  frame_put m a 4 v.toNat
theorem frame_st64 (m : ByteMem) (a : Nat) (v : UInt64) : Frame m (m.st64 a v) a (a + 8) :=
  frame_put m a 8 v.toNat

theorem fill_in {a n b : Nat} {c : UInt8} (h1 : a ≤ b) (h2 : b < a + n) : m.fill a n c b = c := by
  unfold fill; rw [if_pos ⟨h1, h2⟩]

/-! ## One operation on two memories -/

theorem Frame.put (h : Frame m m' lo hi) (a n v : Nat) : Frame (m.put a n v) (m'.put a n v) lo hi := by
  intro b hb; unfold ByteMem.put; rw [h b hb]

theorem Frame.copy (h : Frame m m' lo hi) (a : Nat) (bs : List UInt8) : Frame (m.copy a bs) (m'.copy a bs) lo hi := by
  intro b hb; unfold ByteMem.copy; rw [h b hb]

theorem Frame.st16 (h : Frame m m' lo hi) (a : Nat) (v : UInt16) : Frame (m.st16 a v) (m'.st16 a v) lo hi :=
  h.put a 2 v.toNat
theorem Frame.st32 (h : Frame m m' lo hi) (a : Nat) (v : UInt32) : Frame (m.st32 a v) (m'.st32 a v) lo hi :=
  h.put a 4 v.toNat

/-- A store and a copy to disjoint ranges commute. -/
theorem copy_put_comm (m : ByteMem) {a n b : Nat} {bs : List UInt8} (v : Nat) (hd : a + n ≤ b ∨ b + bs.length ≤ a) :
    (m.put a n v).copy b bs = (m.copy b bs).put a n v := by
  funext i
  simp only [ByteMem.copy, ByteMem.put]
  by_cases hi : b ≤ i ∧ i < b + bs.length
  · rw [if_pos hi, if_neg (by omega), if_pos hi]
  · simp only [if_neg hi]

/-! ## Congruence of the observers -/

theorem le_congr : ∀ {n a : Nat}, Agree m m' a (a + n) → m'.le a n = m.le a n
  | 0, _, _ => rfl
  | n + 1, a, h => by
    unfold le
    rw [h a (le_refl _) (by omega), le_congr (n := n) (a := a + 1) (h.mono (by omega) (by omega))]

theorem block_congr {a n : Nat} (h : Agree m m' a (a + n)) : m'.block a n = m.block a n := by
  unfold block
  refine List.map_congr_left fun i hi => ?_
  have := List.mem_range.1 hi
  exact h (a + i) (by omega) (by omega)

theorem ld16_congr {a : Nat} (h : Agree m m' a (a + 2)) : m'.ld16 a = m.ld16 a := by
  unfold ld16; rw [le_congr h]

theorem ld32_congr {a : Nat} (h : Agree m m' a (a + 4)) : m'.ld32 a = m.ld32 a := by
  unfold ld32; rw [le_congr h]

theorem ld64_congr {a : Nat} (h : Agree m m' a (a + 8)) : m'.ld64 a = m.ld64 a := by
  unfold ld64; rw [le_congr h]

/-! ## Read after write -/

theorem le_lt (m : ByteMem) : ∀ (a n : Nat), m.le a n < 256 ^ n
  | _, 0 => by simp [le]
  | a, n + 1 => by
    have h1 := le_lt m (a + 1) n
    have h2 := (m a).toNat_lt
    unfold le
    rw [pow_succ]
    omega

theorem le_put_aux (m : ByteMem) (a n v : Nat) :
    ∀ (k i : Nat), i + k = n → (m.put a n v).le (a + i) k = v / 256 ^ i % 256 ^ k
  | 0, i, _ => by simp [le, Nat.mod_one]
  | k + 1, i, h => by
    unfold le
    rw [show a + i + 1 = a + (i + 1) by omega, le_put_aux m a n v k (i + 1) (by omega)]
    have hbyte : (m.put a n v (a + i)).toNat = v / 256 ^ i % 256 := by
      unfold put
      rw [if_pos (by omega), show a + i - a = i by omega]
      simp
    rw [hbyte, pow_succ, pow_succ, ← Nat.div_div_eq_div_mul, Nat.mul_comm (256 ^ k) 256, Nat.mod_mul]

theorem le_put (m : ByteMem) (a n v : Nat) : (m.put a n v).le a n = v % 256 ^ n := by
  simpa using le_put_aux m a n v n 0 (by omega)

@[simp] theorem ld16_st16 (m : ByteMem) (a : Nat) (v : UInt16) : (m.st16 a v).ld16 a = v := by
  unfold ld16 st16
  rw [le_put, Nat.mod_eq_of_lt (by have := v.toNat_lt; omega), UInt16.ofNat_toNat]

@[simp] theorem ld32_st32 (m : ByteMem) (a : Nat) (v : UInt32) : (m.st32 a v).ld32 a = v := by
  unfold ld32 st32
  rw [le_put, Nat.mod_eq_of_lt (by have := v.toNat_lt; omega), UInt32.ofNat_toNat]

@[simp] theorem ld64_st64 (m : ByteMem) (a : Nat) (v : UInt64) : (m.st64 a v).ld64 a = v := by
  unfold ld64 st64
  rw [le_put, Nat.mod_eq_of_lt (by have := v.toNat_lt; omega), UInt64.ofNat_toNat]

@[simp] theorem length_block (m : ByteMem) (a n : Nat) : (m.block a n).length = n := by simp [block]

theorem block_succ (m : ByteMem) (a n : Nat) : m.block a (n + 1) = m a :: m.block (a + 1) n := by
  unfold block
  rw [List.range_succ_eq_map, List.map_cons, List.map_map, Nat.add_zero]
  refine congrArg _ (List.map_congr_left fun i _ => ?_)
  show m (a + (i + 1)) = m (a + 1 + i)
  rw [Nat.add_right_comm, Nat.add_assoc]

theorem block_copy (m : ByteMem) (a : Nat) (bs : List UInt8) : (m.copy a bs).block a bs.length = bs := by
  refine List.ext_getElem (by simp) fun i h1 h2 => ?_
  simp only [block, copy, List.getElem_map, List.getElem_range]
  rw [if_pos (by omega), Nat.add_sub_cancel_left, List.getD_eq_getElem?_getD, List.getElem?_eq_getElem h2,
    Option.getD_some]

/-- What a copied block holds. -/
theorem block_copy_block (m m' : ByteMem) (a b n : Nat) : (m.copy a (m'.block b n)).block a n = m'.block b n := by
  have h := block_copy m a (m'.block b n)
  rwa [length_block] at h

theorem apply_of_block {a b n i : Nat} (h : m'.block b n = m.block a n) (hi : i < n) : m' (b + i) = m (a + i) := by
  have hget := congrArg (fun l => l.getD i 0) h
  simpa [block, List.getD_eq_getElem?_getD, List.getElem?_range, hi] using hget

/-- A part of a moved block. -/
theorem block_sub {a b n i k : Nat} (h : m'.block b n = m.block a n) (hk : i + k ≤ n) :
    m'.block (b + i) k = m.block (a + i) k := by
  refine List.map_congr_left fun j hj => ?_
  have hlt := List.mem_range.1 hj
  rw [Nat.add_assoc, Nat.add_assoc]
  exact apply_of_block h (by omega)

theorem block_mono {a b n k : Nat} (h : m'.block b n = m.block a n) (hk : k ≤ n) : m'.block b k = m.block a k :=
  block_sub (i := 0) h (by omega)

theorem le_of_block : ∀ {n a b : Nat}, m'.block b n = m.block a n → m'.le b n = m.le a n
  | 0, _, _, _ => rfl
  | n + 1, a, b, h => by
    have hhead : m' b = m a := apply_of_block h (Nat.succ_pos n)
    unfold le
    rw [hhead, le_of_block (block_sub h (by omega))]

theorem ld16_of_block {a b : Nat} (h : m'.block b 2 = m.block a 2) : m'.ld16 b = m.ld16 a := by
  unfold ld16; rw [le_of_block h]

theorem ld32_of_block {a b : Nat} (h : m'.block b 4 = m.block a 4) : m'.ld32 b = m.ld32 a := by
  unfold ld32; rw [le_of_block h]

theorem ld16_eq_zero_iff {a : Nat} : m.ld16 a = 0 ↔ ∀ b, a ≤ b → b < a + 2 → m b = 0 := by
  have hlt := le_lt m a 2
  constructor
  · intro h b h1 h2
    have h0 : m.le a 2 = 0 := by
      have := congrArg UInt16.toNat h
      rwa [ld16, UInt16.toNat_ofNat_of_lt' (by simpa [UInt16.size] using hlt)] at this
    simp only [le] at h0
    have hb : (m b).toNat = 0 := by
      obtain rfl | rfl : b = a ∨ b = a + 1 := by omega
      · omega
      · omega
    exact UInt8.toNat_inj.1 hb
  · intro h
    have h0 : m.le a 2 = 0 := by
      simp only [le, h a (le_refl _) (by omega), h (a + 1) (by omega) (by omega)]
      rfl
    rw [ld16, h0]; rfl

theorem le_zero {a n : Nat} (h : ∀ b, a ≤ b → b < a + n → m b = 0) : m.le a n = 0 := by
  induction n generalizing a with
  | zero => rfl
  | succ n ih =>
    unfold le
    rw [h a (le_refl _) (by omega), ih fun b h1 h2 => h b (by omega) (by omega)]
    rfl

end ByteMem
