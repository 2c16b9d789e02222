/-
Strings in a byte memory that end with a zero byte, and `strncpy`, which writes no such byte when the field is full.
-/
import RpmsgLite.Lib.ByteMem

namespace ByteMem

/-- At `a` there is the string `s`, which ends with a zero byte and has none before. -/
def CString (m : ByteMem) : Nat → List UInt8 → Prop
  | a, [] => m a = 0
  | a, c :: s => m a = c ∧ c ≠ 0 ∧ CString m (a + 1) s

/-- `strncpy`: at the end of the source the rest of the field is filled with zeros. -/
def strncpy (m : ByteMem) (dest src : Nat) : Nat → ByteMem
  | 0 => m
  | n + 1 =>
    if m src = 0 then m.fill dest (n + 1) 0
    else strncpy (m.copy dest [m src]) (dest + 1) (src + 1) n

variable {m m' : ByteMem} {a n : Nat} {s : List UInt8}

theorem CString.ne_zero : ∀ {a : Nat} {s : List UInt8}, CString m a s → ∀ c ∈ s, c ≠ 0
  | _, [], _ => fun _ h => absurd h List.not_mem_nil
  | _, _ :: _, ⟨_, hc, hs⟩ => List.forall_mem_cons.2 ⟨hc, hs.ne_zero⟩

theorem CString.term : ∀ {a : Nat} {s : List UInt8}, CString m a s → m (a + s.length) = 0
  | _, [], h => h
  | a, c :: s, ⟨_, _, hs⟩ => by
    have := hs.term
    rwa [List.length_cons, show a + (s.length + 1) = a + 1 + s.length by omega]

theorem CString.congr : ∀ {a : Nat} {s : List UInt8}, CString m a s → Agree m m' a (a + s.length + 1) → CString m' a s
  | a, [], h, ha => (ha a le_rfl (by simp)).trans h
  | a, c :: s, ⟨h, hc, hs⟩, ha => by
    refine ⟨(ha a le_rfl (by rw [List.length_cons]; omega)).trans h, hc, hs.congr (ha.mono (by omega) ?_)⟩
    rw [List.length_cons]
    omega

/-- The field holds the string as far as it goes, and then zeros. -/
theorem strncpy_apply : ∀ {n : Nat} {m : ByteMem} {dest src : Nat} {s : List UInt8}, CString m src s →
    dest + n ≤ src ∨ src + s.length + 1 ≤ dest → ∀ b,
      strncpy m dest src n b = if dest ≤ b ∧ b < dest + n then s.getD (b - dest) 0 else m b
  | 0, m, dest, src, s, _, _, b => by rw [if_neg (by omega)]; rfl
  | n + 1, m, dest, src, [], h, _, b => by
    unfold strncpy
    rw [if_pos (show m src = 0 from h)]
    rfl
  | n + 1, m, dest, src, c :: s, ⟨hc, hne, hs⟩, hd, b => by
    rw [List.length_cons] at hd
    have hframe := frame_copy m dest [c]
    rw [List.length_singleton] at hframe
    -- the byte just written is outside the rest of the source
    have hs' : CString (m.copy dest [c]) (src + 1) s := hs.congr (hframe.agree (by omega))
    unfold strncpy
    rw [if_neg (hc ▸ hne), hc, strncpy_apply hs' (by omega)]
    by_cases hb : b = dest
    · subst hb
      rw [if_neg (by omega), if_pos (by omega), Nat.sub_self]
      show (if b ≤ b ∧ b < b + 1 then [c].getD (b - b) 0 else m b) = c
      rw [if_pos (by omega), Nat.sub_self]
      rfl
    · by_cases hin : dest + 1 ≤ b ∧ b < dest + 1 + n
      · rw [if_pos hin, if_pos (by omega), show b - dest = b - (dest + 1) + 1 by omega, List.getD_cons_succ]
      · rw [if_neg hin, if_neg (by omega)]
        exact hframe b (by omega)

/-- In a field that a string was copied to there is the string again when it is shorter than the field. -/
theorem cstring_of_short : ∀ {a n : Nat} {s : List UInt8}, (∀ c ∈ s, c ≠ 0) → (∀ i < n, m (a + i) = s.getD i 0) →
    s.length < n → CString m a s
  | a, n, [], _, h, hn => h 0 hn
  | a, n, c :: s, hne, h, hn => by
    rw [List.length_cons] at hn
    refine ⟨h 0 (by omega), hne c List.mem_cons_self,
      cstring_of_short (n := n - 1) (fun d hd => hne d (List.mem_cons_of_mem _ hd)) (fun i hi => ?_) (by omega)⟩
    rw [show a + 1 + i = a + (i + 1) by omega, h (i + 1) (by omega), List.getD_cons_succ]

/-- The field holds the string cut to one less than its size exactly when the string is shorter than the field. -/
theorem cstring_take_iff (hne : ∀ c ∈ s, c ≠ 0) (h : ∀ i < n, m (a + i) = s.getD i 0) (hn : 0 < n) :
    CString m a (s.take (n - 1)) ↔ s.length < n := by
  constructor
  · intro hc
    by_contra hle
    -- the terminator would be a byte of the string
    have hterm := hc.term
    rw [List.length_take, Nat.min_eq_left (by omega), h (n - 1) (by omega), List.getD_eq_getElem?_getD,
      List.getElem?_eq_getElem (by omega), Option.getD_some] at hterm
    exact hne _ (List.getElem_mem _) hterm
  · intro hlt
    rw [List.take_of_length_le (by omega)]
    exact cstring_of_short hne h hlt

end ByteMem
