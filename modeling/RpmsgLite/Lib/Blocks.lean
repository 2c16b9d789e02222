/-
Owned blocks: a heap is a partial function from addresses, and an owner knows what some of them hold. What an owner
knows survives allocating, writing and freeing blocks of its own.
-/
import Mathlib.Data.List.Nodup
import Mathlib.Logic.Function.Basic

namespace Blocks

variable {α β : Type}

/-- The blocks are distinct and hold what the list says. -/
structure Holds (heap : α → Option β) (l : List (α × β)) : Prop where
  get : ∀ x ∈ l, heap x.1 = some x.2
  nodup : (l.map Prod.fst).Nodup

variable {heap : α → Option β} {l l' : List (α × β)} {p : α} {b b' : β}

theorem Holds.perm (h : Holds heap l) (hp : l.Perm l') : Holds heap l' := by
  constructor
  · exact fun x hx => h.get x (hp.mem_iff.2 hx)
  · exact (hp.map Prod.fst).nodup_iff.1 h.nodup

variable [DecidableEq α]

/-- A change at an address that is not in the list. -/
theorem Holds.update (h : Holds heap l) (hp : p ∉ l.map Prod.fst) (x : Option β) : Holds (Function.update heap p x) l := by
  refine ⟨fun y hy => ?_, h.nodup⟩
  have hne : y.1 ≠ p := by
    rintro rfl
    exact hp (List.mem_map_of_mem hy)
  rw [Function.update_of_ne hne]
  exact h.get y hy

/-- A new block. -/
theorem Holds.alloc (h : Holds heap l) (hfree : heap p = none) : Holds (Function.update heap p (some b)) ((p, b) :: l) := by
  have hp : p ∉ l.map Prod.fst := by
    intro hm
    obtain ⟨x, hx, rfl⟩ := List.mem_map.1 hm
    rw [h.get x hx] at hfree
    cases hfree
  constructor
  · intro x hx
    rcases List.mem_cons.1 hx with rfl | hx
    · exact Function.update_self ..
    · exact (h.update hp (some b)).get x hx
  · exact List.nodup_cons.2 ⟨hp, h.nodup⟩

/-- A store in one of the blocks. -/
theorem Holds.set (h : Holds heap ((p, b) :: l)) : Holds (Function.update heap p (some b')) ((p, b') :: l) := by
  obtain ⟨hp, hnodup⟩ := List.nodup_cons.1 h.nodup
  constructor
  · intro x hx
    rcases List.mem_cons.1 hx with rfl | hx
    · exact Function.update_self ..
    · have htail : Holds heap l := ⟨fun y hy => h.get y (List.mem_cons_of_mem _ hy), hnodup⟩
      exact (htail.update hp (some b')).get x hx
  · exact List.nodup_cons.2 ⟨hp, hnodup⟩

/-- A block that is given back. -/
theorem Holds.free (h : Holds heap ((p, b) :: l)) : Holds (Function.update heap p none) l := by
  obtain ⟨hp, hnodup⟩ := List.nodup_cons.1 h.nodup
  have htail : Holds heap l := ⟨fun y hy => h.get y (List.mem_cons_of_mem _ hy), hnodup⟩
  exact htail.update hp none

end Blocks
