/-
Linked lists in a heap. `next` and `prev` are the links of the allocated nodes and `null` ends a list.
A chain from a pointer is a list of nodes, each reached by the link of the one before; there is at most
one, and it passes no node twice. In a doubly linked list each node but the first also links back; the
first node's back link is never used, so nothing is asked of it.
-/
import Mathlib.Data.List.Chain
import Mathlib.Data.List.Nodup
import Mathlib.Logic.Function.Basic

namespace DList

variable {α : Type} {next prev next' prev' : α → Option α} {null p q x y : α} {l a b : List α}

/-! ## Chains -/

/-- Following the links from `p` passes exactly the nodes `l`. -/
def Chain (next : α → Option α) (null : α) : α → List α → Prop
  | p, [] => p = null
  | p, x :: l => p = x ∧ x ≠ null ∧ ∃ q, next x = some q ∧ Chain next null q l

/-- A chain is determined by where it starts. -/
theorem Chain.unique : ∀ {p : α} {l l' : List α}, Chain next null p l → Chain next null p l' → l = l'
  | p, [], [], _, _ => rfl
  | _, [], _ :: _, h, ⟨hx, hne, _⟩ => absurd (hx.symm.trans h) hne
  | _, _ :: _, [], ⟨hx, hne, _⟩, h => absurd (hx.symm.trans h) hne
  | p, x :: l, y :: l', ⟨hx, _, q, hq, hl⟩, ⟨hy, _, q', hq', hl'⟩ => by
    subst hx
    subst hy
    rw [hq] at hq'
    cases hq'
    rw [hl.unique hl']

theorem Chain.suffix : ∀ {p : α} {a : List α}, Chain next null p (a ++ x :: b) → Chain next null x (x :: b)
  | p, [], h => by obtain rfl := h.1; exact h
  | p, y :: a, ⟨_, _, q, _, hl⟩ => hl.suffix

/-- No node is passed twice: a second visit would start the same chain, one node shorter. -/
theorem Chain.nodup : ∀ {p : α} {l : List α}, Chain next null p l → l.Nodup
  | p, [], _ => List.nodup_nil
  | p, x :: l, h => by
    obtain ⟨rfl, hne, q, hq, hl⟩ := h
    refine List.nodup_cons.2 ⟨fun hx => ?_, hl.nodup⟩
    obtain ⟨a, b, rfl⟩ := List.append_of_mem hx
    have hp : Chain next null p (p :: (a ++ p :: b)) := ⟨rfl, hne, q, hq, hl⟩
    have hlen := congrArg List.length (hl.suffix.unique hp)
    simp only [List.length_cons, List.length_append] at hlen
    omega

theorem Chain.ne_null : ∀ {p : α} {l : List α}, Chain next null p l → ∀ x ∈ l, x ≠ null
  | p, [], _, x, hx => absurd hx List.not_mem_nil
  | p, y :: l, ⟨_, hne, _, _, hl⟩, x, hx => by
    rcases List.mem_cons.1 hx with rfl | hx
    · exact hne
    · exact hl.ne_null x hx

theorem Chain.isSome : ∀ {p : α} {l : List α}, Chain next null p l → ∀ x ∈ l, ∃ q, next x = some q
  | p, [], _, x, hx => absurd hx List.not_mem_nil
  | p, y :: l, ⟨_, _, q, hq, hl⟩, x, hx => by
    rcases List.mem_cons.1 hx with rfl | hx
    · exact ⟨q, hq⟩
    · exact hl.isSome x hx

theorem Chain.head_mem (h : Chain next null p l) (hp : p ≠ null) : p ∈ l := by
  cases l with
  | nil => exact absurd h hp
  | cons x l => exact h.1 ▸ List.mem_cons_self

theorem Chain.head_mem_left (h : Chain next null p (a ++ b)) (ha : a ≠ []) : p ∈ a := by
  cases a with
  | nil => exact absurd rfl ha
  | cons x a => exact h.1 ▸ List.mem_cons_self

theorem Chain.eq_nil (h : Chain next null null l) : l = [] := h.unique rfl

/-- Links of other nodes play no part. -/
theorem Chain.congr : ∀ {p : α} {l : List α}, Chain next null p l → (∀ x ∈ l, next' x = next x) → Chain next' null p l
  | _, [], h, _ => h
  | _, x :: _, ⟨hx, hne, q, hq, hl⟩, hn =>
    ⟨hx, hne, q, (hn x List.mem_cons_self).trans hq, hl.congr fun y hy => hn y (List.mem_cons_of_mem x hy)⟩

/-- The link of a node names the node behind it. -/
theorem Chain.next_eq (h : Chain next null p (a ++ x :: b)) (hx : next x = some q) : Chain next null q b := by
  obtain ⟨-, -, q', hq', hl⟩ := h.suffix
  rw [hx] at hq'
  cases hq'
  exact hl

/-- Relinking the node before `x` to the node behind it takes `x` out. -/
theorem Chain.skip : ∀ {p : α} {a : List α}, Chain next null p (a ++ y :: x :: b) → next x = some q →
    next' y = some q → (∀ z, z ≠ y → next' z = next z) → Chain next' null p (a ++ y :: b)
  | _, [], h, hx, hy, hn => by
    have hnd := h.nodup
    obtain ⟨rfl, hne, q', hq', hl⟩ := h
    refine ⟨rfl, hne, q, hy, ?_⟩
    refine (Chain.next_eq (a := []) hl hx).congr fun z hz => hn z ?_
    rintro rfl
    exact (List.nodup_cons.1 hnd).1 (List.mem_cons_of_mem x hz)
  | _, z :: a, h, hx, hy, hn => by
    have hnd := h.nodup
    obtain ⟨rfl, hne, q', hq', hl⟩ := h
    refine ⟨rfl, hne, q', (hn _ ?_).trans hq', hl.skip hx hy hn⟩
    rintro rfl
    exact (List.nodup_cons.1 hnd).1 (List.mem_append_right _ List.mem_cons_self)

/-! ## Doubly linked lists -/

/-- The nodes `l` are linked forward from `p`, and each but the first back to the one before. -/
structure Linked (next prev : α → Option α) (null p : α) (l : List α) : Prop where
  chain : Chain next null p l
  back : l.IsChain fun x y => prev y = some x

theorem Linked.congr (h : Linked next prev null p l) (hn : ∀ x ∈ l, next' x = next x)
    (hp : ∀ x ∈ l.tail, prev' x = prev x) : Linked next' prev' null p l :=
  ⟨h.chain.congr hn, h.back.imp_of_mem_tail_imp fun _ y _ hy hxy => (hp y hy).trans hxy⟩

/-- A node in front of the first. -/
theorem Linked.push (h : Linked next prev null p l) (hx : x ∉ l) (hne : x ≠ null) (hxp : next' x = some p)
    (hn : ∀ y ∈ l, next' y = next y) (hp : ∀ y ∈ l.tail, prev' y = prev y) (hb : p ≠ null → prev' p = some x) :
    Linked next' prev' null x (x :: l) := by
  refine ⟨⟨rfl, hne, p, hxp, h.chain.congr hn⟩, ?_⟩
  have hback := (h.congr hn hp).back
  cases l with
  | nil => exact .singleton x
  | cons y l =>
    obtain ⟨rfl, hy, -⟩ := h.chain
    exact .cons_cons (hb hy) hback

/-- The first node taken off. -/
theorem Linked.pop (h : Linked next prev null p (x :: l)) (hx : next x = some q) : Linked next prev null q l :=
  ⟨Chain.next_eq (a := []) h.chain hx, h.back.tail⟩

/-- A node further back links to the one before it. -/
theorem Linked.prev_eq (h : Linked next prev null p (a ++ y :: x :: b)) : prev x = some y :=
  (List.isChain_append_cons_cons.1 h.back).2.1

/-- A later node taken out: the node before it gets its forward link, the node behind it, if there is one,
its back link. -/
theorem Linked.remove (h : Linked next prev null p (a ++ y :: x :: b)) (hx : next x = some q) (hy : next' y = some q)
    (hn : ∀ z, z ≠ y → next' z = next z) (hb : q ≠ null → prev' q = some y) (hp : ∀ z, z ≠ q → prev' z = prev z) :
    Linked next' prev' null p (a ++ y :: b) := by
  have hq : Chain next null q b :=
    Chain.next_eq (a := a ++ [y]) (by rw [List.append_assoc]; exact h.chain) hx
  have hnd : (a ++ [y] ++ x :: b).Nodup := by rw [List.append_assoc]; exact h.chain.nodup
  obtain ⟨-, hxb, hdisj⟩ := List.nodup_append.1 hnd
  refine ⟨h.chain.skip hx hy hn, ?_⟩
  obtain ⟨ha, -, hback⟩ := List.isChain_append_cons_cons.1 h.back
  cases b with
  | nil =>
    refine ha.imp_of_mem_tail_imp fun u v _ hv huv => (hp v ?_).trans huv
    rintro rfl
    exact h.chain.ne_null v (by rw [List.append_cons]; exact List.mem_append_left _ (List.mem_of_mem_tail hv)) hq
  | cons z b =>
    obtain ⟨rfl, hne, -⟩ := hq
    refine List.isChain_append_cons_cons.2 ⟨?_, hb hne, ?_⟩
    · refine ha.imp_of_mem_tail_imp fun u v _ hv huv => (hp v ?_).trans huv
      rintro rfl
      exact hdisj v (List.mem_of_mem_tail hv) v (List.mem_cons_of_mem x List.mem_cons_self) rfl
    · refine hback.tail.imp_of_mem_tail_imp fun u v _ hv huv => (hp v ?_).trans huv
      rintro rfl
      exact (List.nodup_cons.1 (List.nodup_cons.1 hxb).2).1 hv

/-- Between two nodes of the list the links are each other's inverse, if the first node does not link back into it. -/
theorem Linked.next_iff_prev (h : Linked next prev null p l) (hp : ∀ a ∈ l, prev p ≠ some a) (hx : x ∈ l) (hy : y ∈ l) :
    next x = some y ↔ prev y = some x := by
  constructor
  · intro hn
    obtain ⟨a, b, rfl⟩ := List.append_of_mem hx
    have hb := h.chain.next_eq hn
    cases b with
    | nil => exact absurd hb (h.chain.ne_null y hy)
    | cons z b =>
      obtain rfl := hb.1
      exact h.prev_eq
  · intro hb
    obtain ⟨a, b, rfl⟩ := List.append_of_mem hy
    rcases List.eq_nil_or_concat a with rfl | ⟨a, z, rfl⟩
    · obtain rfl : p = y := h.chain.1
      exact absurd hb (hp x hx)
    · rw [List.concat_eq_append, List.append_assoc, List.singleton_append] at h
      have hz := h.prev_eq
      rw [hb] at hz
      cases hz
      obtain ⟨-, -, q, hq, hl⟩ := h.chain.suffix
      obtain rfl := hl.1
      exact hq

end DList
