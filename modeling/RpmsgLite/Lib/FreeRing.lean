/-
A ring of `n` slots addressed by two free-running 16-bit indices, a producer's and a consumer's,
masked to the slot number when a slot is touched. For `n` a power of two (a divisor of `2^16`) the
masked index of consecutive entries walks the slots in order even when the index wraps, so the
entries between the two indices form a FIFO queue as long as at most `n` are pending.
-/
import Mathlib.Tactic

namespace FreeRing

variable {α β : Type}

/-! ## Index arithmetic -/

/-- The number of pending entries: the index difference modulo `2^16`. -/
def count (prod cons : UInt16) : Nat := (prod - cons).toNat

/-- A ring size whose mask `n - 1` selects the slot of a free-running 16-bit index. -/
def IsSize (n : Nat) : Prop := n ∣ 2 ^ 16 ∧ n < 2 ^ 16

theorem count_eq (prod cons : UInt16) :
    count prod cons = (prod.toNat + 65536 - cons.toNat) % 65536 := by
  unfold count
  rw [UInt16.toNat_sub]
  have := cons.toNat_lt
  congr 1; omega

theorem prod_eq (prod cons : UInt16) : prod.toNat = (cons.toNat + count prod cons) % 65536 := by
  rw [count_eq]
  have := prod.toNat_lt; have := cons.toNat_lt
  omega

theorem count_lt (prod cons : UInt16) : count prod cons < 65536 := UInt16.toNat_lt _

@[simp] theorem count_self (i : UInt16) : count i i = 0 := by simp [count]

theorem count_eq_zero_iff {prod cons : UInt16} : count prod cons = 0 ↔ prod = cons := by
  constructor
  · intro h
    rw [count_eq] at h
    have := prod.toNat_lt; have := cons.toNat_lt
    exact UInt16.toNat_inj.1 (by omega)
  · rintro rfl; simp

theorem toNat_succ (i : UInt16) : (i + 1).toNat = (i.toNat + 1) % 65536 := by
  rw [UInt16.toNat_add]; rfl

theorem count_succ_prod {prod cons : UInt16} (h : count prod cons < 65535) :
    count (prod + 1) cons = count prod cons + 1 := by
  rw [count_eq] at h ⊢
  rw [count_eq, toNat_succ]
  have := prod.toNat_lt; have := cons.toNat_lt
  omega

theorem count_succ_cons {prod cons : UInt16} (h : prod ≠ cons) :
    count prod (cons + 1) + 1 = count prod cons := by
  have hne : count prod cons ≠ 0 := fun h0 => h (count_eq_zero_iff.1 h0)
  rw [count_eq] at hne
  rw [count_eq, count_eq, toNat_succ]
  have := prod.toNat_lt; have := cons.toNat_lt
  omega

theorem IsSize.pos {n : Nat} (h : IsSize n) : 0 < n := Nat.pos_of_dvd_of_pos h.1 (by decide)

theorem IsSize.le {n : Nat} (h : IsSize n) : n ≤ 32768 := by
  obtain ⟨⟨c, hc⟩, hlt⟩ := h
  have : 2 ≤ c := by
    rcases c with _ | _ | c
    · omega
    · omega
    · omega
  nlinarith

/-- Every slot is fewer than `n` slots behind a given index. -/
theorem exists_slot {n j : Nat} (hn : 0 < n) (i : UInt16) (hj : j < n) : ∃ t < n, (i.toNat + t) % n = j := by
  have hi := Nat.mod_lt i.toNat hn
  by_cases h : i.toNat % n ≤ j
  · refine ⟨j - i.toNat % n, by omega, ?_⟩
    rw [Nat.add_mod, Nat.mod_eq_of_lt (show j - i.toNat % n < n by omega), Nat.mod_eq_of_lt (by omega)]
    omega
  · refine ⟨j + n - i.toNat % n, by omega, ?_⟩
    rw [Nat.add_mod, Nat.mod_eq_of_lt (show j + n - i.toNat % n < n by omega),
      show i.toNat % n + (j + n - i.toNat % n) = j + n by omega, Nat.add_mod_right, Nat.mod_eq_of_lt hj]

/-- Reducing a 16-bit sum before masking does not change the slot. -/
theorem IsSize.mod {n : Nat} (h : IsSize n) (x : Nat) : x % 65536 % n = x % n :=
  Nat.mod_mod_of_dvd x h.1

theorem isSize_of_and {n : Nat} (h0 : n ≠ 0) (hle : n ≤ 32768) (h : n &&& (n - 1) = 0) : IsSize n := by
  obtain ⟨k, rfl⟩ := (Nat.and_sub_one_eq_zero_iff_isPowerOfTwo h0).1 h
  have hk : k < 16 := by
    by_contra hk
    have := Nat.pow_le_pow_right (n := 2) (by decide) (show 16 ≤ k by omega)
    omega
  exact ⟨Nat.pow_dvd_pow 2 (by omega), Nat.pow_lt_pow_right (by decide) hk⟩

theorem IsSize.two_pow {n : Nat} (h : IsSize n) : ∃ k, n = 2 ^ k :=
  ⟨_, ((Nat.dvd_prime_pow Nat.prime_two).1 h.1).choose_spec.2⟩

/-- Masking with `n - 1` is reduction modulo `n`. -/
theorem toNat_and_mask {n : UInt16} (hn : IsSize n.toNat) (i : UInt16) :
    (i &&& (n - 1)).toNat = i.toNat % n.toNat := by
  obtain ⟨k, hk⟩ := hn.two_pow
  have hpos := hn.pos
  have h1 : (n - 1).toNat = n.toNat - 1 := by
    rw [UInt16.toNat_sub]
    have := n.toNat_lt
    simp only [UInt16.reduceToNat]
    omega
  rw [UInt16.toNat_and, h1, hk, Nat.and_two_pow_sub_one_eq_mod]

/-! ## Pending entries -/

/-- The entries between the consumer's and the producer's index, oldest first. -/
def pending (slot : Nat → α) (n : Nat) (prod cons : UInt16) : List α :=
  (List.range (count prod cons)).map fun k => slot ((cons.toNat + k) % n)

@[simp] theorem length_pending (slot : Nat → α) (n : Nat) (prod cons : UInt16) :
    (pending slot n prod cons).length = count prod cons := by simp [pending]

theorem pending_eq_nil_iff {slot : Nat → α} {n : Nat} {prod cons : UInt16} :
    pending slot n prod cons = [] ↔ prod = cons := by
  rw [← List.length_eq_zero_iff, length_pending, count_eq_zero_iff]

theorem map_pending (f : α → β) (slot : Nat → α) (n : Nat) (prod cons : UInt16) :
    (pending slot n prod cons).map f = pending (f ∘ slot) n prod cons := by
  simp [pending, Function.comp_def]

theorem pending_congr {slot slot' : Nat → α} {n : Nat} (hn : 0 < n) (h : ∀ k < n, slot' k = slot k)
    (prod cons : UInt16) : pending slot' n prod cons = pending slot n prod cons :=
  List.map_congr_left fun _ _ => h _ (Nat.mod_lt _ hn)

/-- For a consumer at zero the slots hold the pending entries in order. -/
theorem slot_of_pending_zero {slot : Nat → α} {n : Nat} {prod : UInt16} {l : List α}
    (h : pending slot n prod 0 = l) {k : Nat} (hk : k < l.length) (hn : k < n) : slot k = l[k] := by
  subst h
  simp [pending, Nat.mod_eq_of_lt hn]

/-- The oldest pending entry is the one in the consumer's slot. -/
theorem pending_pop {slot : Nat → α} {n : Nat} (hn : IsSize n) {prod cons : UInt16} (h : prod ≠ cons) :
    pending slot n prod cons = slot (cons.toNat % n) :: pending slot n prod (cons + 1) := by
  unfold pending
  rw [← count_succ_cons h, List.range_succ_eq_map, List.map_cons, List.map_map]
  congr 1
  refine List.map_congr_left fun k _ => ?_
  rw [Function.comp_apply, toNat_succ, ← hn.mod (_ % 65536 + k), Nat.mod_add_mod, hn.mod]
  congr 2; omega

/-- Entries fewer than `n` apart are in different slots. -/
theorem slot_ne {n a i j : Nat} (hi : i < j) (hj : j < n) : (a + i) % n ≠ (a + j) % n := by
  intro heq
  have := Nat.ModEq.add_left_cancel' a (show a + i ≡ a + j [MOD n] from heq)
  rw [Nat.ModEq, Nat.mod_eq_of_lt (by omega), Nat.mod_eq_of_lt hj] at this
  omega

/-- The producer's slot in terms of the consumer's index. -/
theorem prod_slot {n : Nat} (hn : IsSize n) (prod cons : UInt16) :
    prod.toNat % n = (cons.toNat + count prod cons) % n := by
  rw [prod_eq prod cons, hn.mod]

/-- Storing into the producer's slot leaves the pending entries alone while that slot is free. -/
theorem pending_write {slot slot' : Nat → α} {n : Nat} (hn : IsSize n) {prod cons : UInt16}
    (hlt : count prod cons < n) (hs : ∀ k < n, k ≠ prod.toNat % n → slot' k = slot k) :
    pending slot' n prod cons = pending slot n prod cons := by
  refine List.map_congr_left fun k hk => hs _ (Nat.mod_lt _ hn.pos) ?_
  rw [prod_slot hn prod cons]
  exact slot_ne (List.mem_range.1 hk) hlt

/-- Publishing the entry in the producer's slot appends it, when at most the other slots are pending
and hold what they held. -/
theorem pending_push {slot slot' : Nat → α} {n : Nat} (hn : IsSize n) {prod cons : UInt16}
    (hlt : count prod cons < n) (hs : ∀ k < n, k ≠ prod.toNat % n → slot' k = slot k) :
    pending slot' n (prod + 1) cons = pending slot n prod cons ++ [slot' (prod.toNat % n)] := by
  have hle := hn.le
  rw [← pending_write hn hlt hs]
  unfold pending
  rw [count_succ_prod (by omega), List.range_succ, List.map_append, List.map_singleton, prod_slot hn prod cons]

/-- What holds of the pending entries and of the new one holds after publishing it, however full the ring is. -/
theorem forall_pending_succ {slot slot' : Nat → α} {p : α → Prop} {n : Nat} (hn : IsSize n) {prod cons : UInt16}
    (h : ∀ a ∈ pending slot n prod cons, p a) (hs : ∀ k < n, k ≠ prod.toNat % n → slot' k = slot k)
    (hp : p (slot' (prod.toNat % n))) : ∀ a ∈ pending slot' n (prod + 1) cons, p a := by
  intro a ha
  obtain ⟨k, hk, rfl⟩ := List.mem_map.1 ha
  by_cases hk' : (cons.toNat + k) % n = prod.toNat % n
  · rw [hk']
    exact hp
  · rw [hs _ (Nat.mod_lt _ hn.pos) hk']
    refine h _ (List.mem_map.2 ⟨k, List.mem_range.2 ?_, rfl⟩)
    have hne : k ≠ count prod cons := by
      rintro rfl
      exact hk' (prod_slot hn prod cons).symm
    have hlt := List.mem_range.1 hk
    have hc := count_lt prod cons
    by_cases hmax : count prod cons < 65535
    · rw [count_succ_prod hmax] at hlt
      omega
    · -- the count wraps to zero
      have h0 : count (prod + 1) cons = 0 := by
        rw [count_eq] at hc hmax
        rw [count_eq, toNat_succ]
        have := prod.toNat_lt; have := cons.toNat_lt
        omega
      omega

/-- The slot a consumer has just passed is not the producer's while fewer than `n - 1` entries are pending. -/
theorem passed_slot_ne {n : Nat} (hn : IsSize n) {prod cons : UInt16} (hlt : count prod cons + 1 < n) :
    (cons - 1).toNat % n ≠ prod.toNat % n := by
  have hle := hn.le
  have hc : count prod (cons - 1) = count prod cons + 1 := by
    rw [count_eq] at hlt ⊢
    rw [count_eq, UInt16.toNat_sub]
    have := prod.toNat_lt; have := cons.toNat_lt
    simp only [UInt16.reduceToNat]
    omega
  rw [prod_slot hn prod (cons - 1), hc]
  exact slot_ne (i := 0) (by omega) hlt

/-! ## Several entries -/

/-- `l` was published: the slots behind the index hold it in order, those further behind are untouched. -/
structure Grown (n : Nat) (slot slot' : Nat → α) (prod prod' : UInt16) (l : List α) : Prop where
  index : prod' = prod + UInt16.ofNat l.length
  push : ∀ cons, count prod cons + l.length ≤ n → pending slot' n prod' cons = pending slot n prod cons ++ l
  beyond : ∀ t, l.length ≤ t → t < n → slot' ((prod.toNat + t) % n) = slot ((prod.toNat + t) % n)

section

variable {slot slot' slot'' : Nat → α} {n : Nat} {prod prod' prod'' cons : UInt16} {l l' : List α}

theorem Grown.nil (hn : 0 < n) (h : ∀ j < n, slot' j = slot j) : Grown n slot slot' prod prod [] := by
  refine ⟨?_, fun cons _ => ?_, fun t _ _ => h _ (Nat.mod_lt _ hn)⟩
  · simp
  · rw [pending_congr hn h, List.append_nil]

/-- What the slots held before may be said of any slots with the same content. -/
theorem Grown.congr {slot₀ : Nat → α} (hn : 0 < n) (h : Grown n slot slot' prod prod' l)
    (hs : ∀ j < n, slot j = slot₀ j) : Grown n slot₀ slot' prod prod' l := by
  refine ⟨h.index, fun cons hc => ?_, fun t h1 ht => ?_⟩
  · rw [h.push cons hc, pending_congr hn hs]
  · rw [h.beyond t h1 ht, hs _ (Nat.mod_lt _ hn)]

theorem Grown.single (hn : IsSize n) (h : ∀ j < n, j ≠ prod.toNat % n → slot' j = slot j) :
    Grown n slot slot' prod (prod + 1) [slot' (prod.toNat % n)] := by
  refine ⟨rfl, fun cons hc => ?_, fun t h1 ht => h _ (Nat.mod_lt _ hn.pos) ?_⟩
  · exact pending_push hn (by simpa using hc) h
  · exact (slot_ne (i := 0) (by rw [List.length_singleton] at h1; omega) ht).symm

/-- The slot `t + 1` behind an index is the slot `t` behind the next. -/
theorem slot_succ (hn : IsSize n) (i : UInt16) (t : Nat) : ((i + 1).toNat + t) % n = (i.toNat + (t + 1)) % n := by
  rw [toNat_succ, ← hn.mod (_ % 65536 + t), Nat.mod_add_mod, hn.mod]
  congr 1; omega

/-- One entry and then others. -/
theorem Grown.push_cons {a : α} (hn : IsSize n) (h : Grown n slot slot' prod prod' [a])
    (h' : Grown n slot' slot'' prod' prod'' l) : Grown n slot slot'' prod prod'' (a :: l) := by
  have hle := hn.le
  have hp : prod' = prod + 1 := h.index
  have hp' := h'.index
  subst hp hp'
  refine ⟨?_, fun cons hc => ?_, fun t h1 ht => ?_⟩
  · rw [List.length_cons, Nat.add_comm, UInt16.ofNat_add, ← UInt16.add_assoc]
    rfl
  · rw [List.length_cons] at hc
    have hs : count (prod + 1) cons = count prod cons + 1 := count_succ_prod (by omega)
    rw [h'.push cons (by omega), h.push cons (by simp only [List.length_singleton]; omega), List.append_assoc,
      List.singleton_append]
  · rw [List.length_cons] at h1
    obtain ⟨t, rfl⟩ : ∃ u, t = u + 1 := ⟨t - 1, by omega⟩
    rw [← slot_succ hn, h'.beyond t (by omega) (by omega), slot_succ hn,
      h.beyond (t + 1) (by simp only [List.length_singleton]; omega) ht]

theorem count_add_self {l : Nat} (h : l < 65536) : count (prod + UInt16.ofNat l) prod = l := by
  have hp := prod.toNat_lt
  rw [count_eq, UInt16.toNat_add, UInt16.toNat_ofNat']
  omega

theorem slot_add (hn : IsSize n) (i : UInt16) (l : Nat) : (i + UInt16.ofNat l).toNat % n = (i.toNat + l) % n := by
  rw [UInt16.toNat_add, hn.mod, UInt16.toNat_ofNat', Nat.add_mod, hn.mod, ← Nat.add_mod]

/-- Overwriting the oldest pending entry replaces it. -/
theorem pending_overwrite (hn : IsSize n) (hne : prod ≠ cons) (hle : count prod cons ≤ n)
    (h : ∀ j < n, j ≠ cons.toNat % n → slot' j = slot j) :
    pending slot' n prod cons = slot' (cons.toNat % n) :: (pending slot n prod cons).tail := by
  have hc := count_succ_cons hne
  rw [pending_pop hn hne, pending_pop hn hne, List.tail_cons]
  congr 1
  refine List.map_congr_left fun t ht => h _ (Nat.mod_lt _ hn.pos) ?_
  have ht := List.mem_range.1 ht
  rw [slot_succ hn]
  exact (slot_ne (i := 0) (by omega) (by omega)).symm

/-- One more increment of the index publishes what is in the slot. -/
theorem pending_succ (hn : IsSize n) (h : count prod cons < n) :
    pending slot n (prod + 1) cons = pending slot n prod cons ++ [slot (prod.toNat % n)] :=
  pending_push hn h fun _ _ _ => rfl

theorem Grown.pending_self (h : Grown n slot slot' prod prod' l) (hl : l.length ≤ n) :
    pending slot' n prod' prod = l := by
  rw [h.push prod (by rw [count_self]; omega), pending_eq_nil_iff.2 rfl, List.nil_append]

/-- A second increment after `l` publishes whatever the slot behind `l` held. -/
theorem Grown.republish (hn : IsSize n) (h : Grown n slot slot' prod prod' l) (hl : l.length < n) :
    pending slot' n (prod' + 1) prod = l ++ [slot ((prod.toNat + l.length) % n)] := by
  have hle := hn.le
  have hc : count prod' prod = l.length := by rw [h.index, count_add_self (by omega)]
  rw [pending_succ hn (by omega), h.pending_self hl.le, h.index, slot_add hn, h.beyond _ le_rfl hl]

/-- The same with the first entry overwritten. -/
theorem Grown.overwrite {a : α} (hn : IsSize n) (h : Grown n slot slot' prod prod' (a :: l)) (hl : l.length + 1 < n)
    (hs : ∀ j < n, j ≠ prod.toNat % n → slot'' j = slot' j) :
    pending slot'' n (prod' + 1) prod = slot'' (prod.toNat % n) :: (l ++ [slot ((prod.toNat + (l.length + 1)) % n)]) := by
  have hle := hn.le
  have hc : count prod' prod = l.length + 1 := by rw [h.index, List.length_cons, count_add_self (by omega)]
  have hc' : count (prod' + 1) prod = count prod' prod + 1 := count_succ_prod (by omega)
  have hne : prod' + 1 ≠ prod := fun he => by rw [he, count_self] at hc'; omega
  rw [pending_overwrite hn hne (by omega) hs, h.republish hn (by rw [List.length_cons]; omega)]
  rfl

end

end FreeRing
