/-
Tasks in a list, measured by where they stand. A step moves one task; what the others contribute to a sum or a count
over all tasks stays, so a measure changes by what the one task changes.
-/
import Mathlib.Tactic

namespace Tasks

variable {τ : Type} {w : τ → Nat} {p : τ → Bool} {l : List τ} {i : Nat} {x : τ}

theorem sum_set (w : τ → Nat) (h : l[i]? = some x) (y : τ) :
    ((l.set i y).map w).sum + w x = (l.map w).sum + w y := by
  induction l generalizing i with
  | nil => cases h
  | cons a l ih =>
    cases i with
    | zero =>
      obtain rfl : a = x := Option.some.inj h
      simp only [List.set_cons_zero, List.map_cons, List.sum_cons]
      omega
    | succ i =>
      have := ih (i := i) h
      simp only [List.set_cons_succ, List.map_cons, List.sum_cons]
      omega

theorem countP_set (p : τ → Bool) (h : l[i]? = some x) (y : τ) :
    (l.set i y).countP p + (p x).toNat = l.countP p + (p y).toNat := by
  obtain ⟨hi, rfl⟩ := List.getElem?_eq_some_iff.1 h
  have hle : (if p l[i] = true then 1 else 0) ≤ l.countP p := List.boole_getElem_le_countP hi
  have hnat : ∀ t, (p t).toNat = if p t = true then 1 else 0 := fun t => by
    cases p t
    · rfl
    · rfl
  rw [List.countP_set hi, hnat, hnat]
  omega

theorem countP_concat (p : τ → Bool) (l : List τ) (y : τ) : (l ++ [y]).countP p = l.countP p + (p y).toNat := by
  rw [List.countP_append, List.countP_singleton]
  cases p y
  · rfl
  · rfl

/-- A task's own share of a count. -/
theorem countP_pos (h : l[i]? = some x) (hp : p x = true) : 0 < l.countP p :=
  List.countP_pos_iff.2 ⟨x, List.mem_of_getElem? h, hp⟩

/-- A count over no tasks but those that `q` counts. -/
theorem countP_eq_zero_of (q : τ → Bool) (h : l.countP q = 0) (hp : ∀ t, p t = true → q t = true) : l.countP p = 0 := by
  rw [List.countP_eq_zero] at h ⊢
  exact fun t ht hpt => h t ht (hp t hpt)

/-- What holds of all tasks still does when one of them moved to where it does. -/
theorem forall_set {P : τ → Prop} (h : ∀ t ∈ l, P t) {y : τ} (hy : P y) : ∀ t ∈ l.set i y, P t := by
  intro t ht
  rcases List.mem_or_eq_of_mem_set ht with ht | rfl
  · exact h t ht
  · exact hy

end Tasks
