/-
Boxes that messages are put in at one end and taken from at the other. Both are logged, and for each box the log of
what was taken followed by what is still there is the log of what was given: nothing is lost, doubled, reordered or
moved to another box.
-/
import Mathlib.Tactic

structure Mailboxes (α : Type) where
  boxes : List (List α)
  given : List (Nat × α)
  taken : List (Nat × α)
deriving DecidableEq

namespace Mailboxes

variable {α : Type} {b : Mailboxes α} {k j : Nat} {x : α} {box : List α} {log : List (Nat × α)}

def empty : Mailboxes α := ⟨[], [], []⟩

/-- The entries of a log for box `k`. -/
def only (k : Nat) (log : List (Nat × α)) : List α := log.filterMap fun e => if e.1 = k then some e.2 else none

def create (b : Mailboxes α) : Mailboxes α := { b with boxes := b.boxes ++ [[]] }

def give (b : Mailboxes α) (k : Nat) (x : α) : Mailboxes α :=
  { b with boxes := b.boxes.modify k (· ++ [x]), given := b.given ++ [(k, x)] }

/-- The first entry of box `k`. -/
def first (b : Mailboxes α) (k : Nat) : Option α := b.boxes[k]?.bind List.head?

/-- Taking from an empty box changes nothing. -/
def take (b : Mailboxes α) (k : Nat) : Mailboxes α :=
  match b.first k with
  | none => b
  | some x => { b with boxes := b.boxes.modify k List.tail, taken := b.taken ++ [(k, x)] }

structure Fifo (b : Mailboxes α) : Prop where
  order : ∀ k box, b.boxes[k]? = some box → only k b.taken ++ box = only k b.given
  /-- only boxes that exist are used -/
  known : ∀ e ∈ b.given ++ b.taken, e.1 < b.boxes.length

theorem only_concat_self : only k (log ++ [(k, x)]) = only k log ++ [x] := by
  simp only [only, List.filterMap_append, List.filterMap_cons, List.filterMap_nil, if_true]

theorem only_concat_of_ne (h : j ≠ k) : only k (log ++ [(j, x)]) = only k log := by
  simp only [only, List.filterMap_append, List.filterMap_cons, List.filterMap_nil, if_neg h, List.append_nil]

theorem only_eq_nil (h : ∀ e ∈ log, e.1 ≠ k) : only k log = [] :=
  List.filterMap_eq_nil_iff.2 fun e he => if_neg (h e he)

theorem fifo_empty : (empty : Mailboxes α).Fifo := by
  refine ⟨fun k box h => ?_, fun e he => ?_⟩
  · cases h
  · cases he

/-- A new box starts empty, and no log mentions it. -/
theorem Fifo.create (h : b.Fifo) : b.create.Fifo := by
  unfold Mailboxes.create
  refine ⟨fun k box hk => ?_, fun e he => ?_⟩
  · rcases Nat.lt_or_ge k b.boxes.length with hlt | hge
    · rw [List.getElem?_append_left hlt] at hk
      exact h.order k box hk
    · rw [List.getElem?_append_right hge] at hk
      obtain ⟨_, hbox⟩ := List.getElem?_eq_some_iff.1 hk
      rw [List.getElem_singleton] at hbox
      subst hbox
      have hne : ∀ e ∈ b.given ++ b.taken, e.1 ≠ k := fun e he => by
        have := h.known e he
        omega
      dsimp only
      rw [only_eq_nil fun e he => hne e (List.mem_append_right _ he), only_eq_nil fun e he => hne e (List.mem_append_left _ he)]
      rfl
  · have := h.known e he
    rw [List.length_append]
    omega

theorem Fifo.give (h : b.Fifo) (hk : k < b.boxes.length) : (b.give k x).Fifo := by
  unfold Mailboxes.give
  refine ⟨fun j box hj => ?_, fun e he => ?_⟩
  · dsimp only at hj ⊢
    rw [List.getElem?_modify] at hj
    obtain ⟨old, hold, rfl⟩ := Option.map_eq_some_iff.1 hj
    by_cases hjk : k = j
    · subst hjk
      rw [if_pos rfl, only_concat_self, ← h.order k old hold, List.append_assoc]
    · rw [if_neg hjk, only_concat_of_ne hjk]
      exact h.order j old hold
  · dsimp only at he ⊢
    rw [List.length_modify]
    rcases List.mem_append.1 he with he | he
    · rcases List.mem_append.1 he with he | he
      · exact h.known e (List.mem_append_left _ he)
      · rw [List.mem_singleton.1 he]
        exact hk
    · exact h.known e (List.mem_append_right _ he)

theorem Fifo.take (h : b.Fifo) : (b.take k).Fifo := by
  unfold Mailboxes.take
  split
  · exact h
  rename_i x hx
  obtain ⟨old, hold, hhead⟩ := Option.bind_eq_some_iff.1 hx
  have hlt : k < b.boxes.length := (List.getElem?_eq_some_iff.1 hold).1
  refine ⟨fun j box hj => ?_, fun e he => ?_⟩
  · dsimp only at hj ⊢
    rw [List.getElem?_modify] at hj
    obtain ⟨rest, hrest, rfl⟩ := Option.map_eq_some_iff.1 hj
    by_cases hjk : k = j
    · subst hjk
      obtain rfl : old = rest := Option.some.inj (hold.symm.trans hrest)
      rw [if_pos rfl, only_concat_self, ← h.order k old hold, List.append_assoc, List.singleton_append,
        List.cons_head?_tail hhead]
    · rw [if_neg hjk, only_concat_of_ne hjk]
      exact h.order j rest hrest
  · dsimp only at he ⊢
    rw [List.length_modify]
    rw [← List.append_assoc] at he
    rcases List.mem_append.1 he with he | he
    · exact h.known e he
    · rw [List.mem_singleton.1 he]
      exact hlt

end Mailboxes
