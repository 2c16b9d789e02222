/-
The list over whole runs of `add_to_list` and `remove_from_list`. Forward it always passes the nodes added
and not yet removed, newest first, and between two of them the links agree. What the removal of the first
node leaves out is the back link of the second, which keeps naming the node taken off until another is
added in front.
-/
import RpmsgLite.Ept.ListSteps

namespace RpmsgLite

open EptTable

/-! ## The calls and what they leave -/

/-- A call on the list. -/
inductive ListOp where
  | add (node : Nat)
  | remove (node : Nat)
deriving DecidableEq

/-- The nodes added and not yet removed, newest first, and whether the first of a list has been taken off
since a node was last added. -/
structure ListView where
  nodes : List Nat
  beheaded : Bool
deriving DecidableEq

def ListView.step (v : ListView) : ListOp → ListView
  | .add p => ⟨p :: v.nodes, false⟩
  | .remove p => ⟨v.nodes.erase p, v.beheaded || v.nodes.head? == some p⟩

def viewOf (ops : List ListOp) : ListView :=
  ops.foldl ListView.step ⟨[], false⟩

theorem viewOf_snoc (ops : List ListOp) (op : ListOp) : viewOf (ops ++ [op]) = (viewOf ops).step op := by
  rw [viewOf, List.foldl_append]; rfl

/-- The calls from an empty list: a node is added that is not in the list, and one in the list is removed.
In between memory changes in any way that leaves the head and the nodes of the list alone. -/
inductive ListRun (T₀ : EptTable) : List ListOp → EptTable → Prop
  | start : T₀.rlEndpoints = 0 → ListRun T₀ [] T₀
  | add {ops T T' p} : ListRun T₀ ops T → p ≠ 0 → p ∉ (viewOf ops).nodes → (T.node p).isSome = true →
      Stmt.run (addToList T p) T = some T' → ListRun T₀ (ops ++ [.add p]) T'
  | remove {ops T T' p} : ListRun T₀ ops T → p ∈ (viewOf ops).nodes →
      Stmt.run (removeFromList T p) T = some T' → ListRun T₀ (ops ++ [.remove p]) T'
  | other {ops T T'} : ListRun T₀ ops T → T'.rlEndpoints = T.rlEndpoints →
      (∀ a ∈ (viewOf ops).nodes, T'.node a = T.node a) → ListRun T₀ ops T'

/-- The forward traversal is the list, no node is passed twice, and between two nodes the links agree. -/
structure EptTable.ForwardLinked (T : EptTable) (l : List Nat) : Prop where
  chain : DList.Chain T.nextOf 0 T.rlEndpoints l
  nodup : l.Nodup
  links : ∀ a ∈ l, ∀ b ∈ l, T.nextOf a = some b ↔ T.prevOf b = some a

/-- In addition nothing is before the first node. -/
structure EptTable.DoublyLinked (T : EptTable) (l : List Nat) : Prop extends T.ForwardLinked l where
  first : T.rlEndpoints ≠ 0 → T.prevOf T.rlEndpoints = some 0

/-! ## What every call keeps -/

/-- The first node's back link leaves the list, and is null unless the first of a list was taken off. -/
structure EptTable.Viewed (T : EptTable) (v : ListView) : Prop where
  linked : DList.Linked T.nextOf T.prevOf 0 T.rlEndpoints v.nodes
  first : v.nodes ≠ [] → ∃ q, T.prevOf T.rlEndpoints = some q ∧ q ∉ v.nodes ∧ (q = 0 ↔ v.beheaded = false)

section

variable {T₀ T T' : EptTable} {v : ListView} {ops : List ListOp} {p : Nat}

theorem EptTable.Viewed.isSome (h : T.Viewed v) : ∀ a ∈ v.nodes, (T.node a).isSome = true := by
  intro a ha
  obtain ⟨q, hq⟩ := h.linked.chain.isSome a ha
  obtain ⟨n, hn, -⟩ := Option.map_eq_some_iff.1 hq
  rw [hn, Option.isSome_some]

/-- The new node's back link is null. -/
theorem EptTable.Viewed.add (h : T.Viewed v) (hne : p ≠ 0) (hp : p ∉ v.nodes) (hs : (T.node p).isSome = true) :
    ∃ T', Stmt.run (addToList T p) T = some T' ∧ T'.Viewed (v.step (.add p)) := by
  obtain ⟨T', hrun, hlink, hhead, hprev, -⟩ := addToList_run h.linked h.isSome hne hp hs
  refine ⟨T', hrun, hlink, fun _ => ⟨0, by rw [hhead, hprev], ?_, by simp [ListView.step]⟩⟩
  exact fun h0 => hlink.chain.ne_null 0 h0 rfl

/-- A removed first node is what the next one's back link still names; a later one leaves the first
node's back link as it was. -/
theorem EptTable.Viewed.remove (h : T.Viewed v) (hp : p ∈ v.nodes) :
    ∃ T', Stmt.run (removeFromList T p) T = some T' ∧ T'.Viewed (v.step (.remove p)) := by
  obtain ⟨l, d⟩ := v
  have hl : DList.Linked T.nextOf T.prevOf 0 T.rlEndpoints l := h.linked
  obtain ⟨a, b, hpa, rfl, herase⟩ := List.exists_erase_eq hp
  obtain ⟨T', hrun, hlink, hnil, hcons, -⟩ := removeFromList_run hl h.isSome
  refine ⟨T', hrun, by rw [ListView.step, herase]; exact hlink, fun hrest => ?_⟩
  simp only [ListView.step, herase] at hrest ⊢
  cases a with
  | nil =>
    -- the second node becomes the first, and its back link names the old one
    obtain ⟨y, b, rfl⟩ := List.exists_cons_of_ne_nil hrest
    obtain rfl : T'.rlEndpoints = y := hlink.chain.1
    refine ⟨p, ?_, (List.nodup_cons.1 hl.chain.nodup).1, ?_⟩
    · rw [hnil rfl]
      exact DList.Linked.prev_eq (a := []) hl
    · simp [hl.chain.ne_null p hp]
  | cons y a =>
    obtain ⟨q, hq, hql, hq0⟩ := h.first (List.cons_ne_nil _ _)
    obtain ⟨hhead, hprev⟩ := hcons (List.cons_ne_nil _ _)
    refine ⟨q, by rw [hhead, hprev, hq], fun hmem => hql ?_, ?_⟩
    · exact ((List.sublist_cons_self p b).append_left (y :: a)).subset hmem
    · have hyp : y ≠ p := fun he => hpa (he ▸ List.mem_cons_self)
      simpa [hyp] using hq0

/-- Memory outside the list plays no part. -/
theorem EptTable.Viewed.congr (h : T.Viewed v) (hhead : T'.rlEndpoints = T.rlEndpoints)
    (hn : ∀ a ∈ v.nodes, T'.node a = T.node a) : T'.Viewed v := by
  have hnext : ∀ a ∈ v.nodes, T'.nextOf a = T.nextOf a := fun a ha => congrArg (Option.map LList.next) (hn a ha)
  have hprev : ∀ a ∈ v.nodes, T'.prevOf a = T.prevOf a := fun a ha => congrArg (Option.map LList.prev) (hn a ha)
  refine ⟨?_, fun hne => ?_⟩
  · rw [hhead]
    exact h.linked.congr hnext fun a ha => hprev a (List.mem_of_mem_tail ha)
  · obtain ⟨q, hq, hql⟩ := h.first hne
    have hmem : T.rlEndpoints ∈ v.nodes := DList.Chain.head_mem_left (b := []) (by rw [List.append_nil]; exact h.linked.chain) hne
    exact ⟨q, by rw [hhead, hprev _ hmem, hq], hql⟩

theorem ListRun.viewed (h : ListRun T₀ ops T) : T.Viewed (viewOf ops) := by
  induction h with
  | start h0 => exact ⟨⟨h0, .nil⟩, fun h => absurd rfl h⟩
  | add _ hne hp hs hrun ih =>
    obtain ⟨T', hrun', h⟩ := ih.add hne hp hs
    rw [viewOf_snoc, ← Option.some.inj (hrun'.symm.trans hrun)] at *
    exact h
  | remove _ hp hrun ih =>
    obtain ⟨T', hrun', h⟩ := ih.remove hp
    rw [viewOf_snoc, ← Option.some.inj (hrun'.symm.trans hrun)]
    exact h
  | other _ hhead hn ih => exact ih.congr hhead hn

theorem EptTable.Viewed.forward (h : T.Viewed v) : T.ForwardLinked v.nodes := by
  refine ⟨h.linked.chain, h.linked.chain.nodup, fun a ha b hb => h.linked.next_iff_prev (fun c hc hpc => ?_) ha hb⟩
  obtain ⟨q, hq, hql, -⟩ := h.first (List.ne_nil_of_mem hc)
  rw [hq, Option.some.injEq] at hpc
  exact hql (hpc ▸ hc)

/-- The first node's back link is null exactly when no first node was taken off since the last addition. -/
theorem EptTable.Viewed.doubly_iff (h : T.Viewed v) : T.DoublyLinked v.nodes ↔ v.nodes = [] ∨ v.beheaded = false := by
  have hempty : v.nodes = [] ↔ T.rlEndpoints = 0 :=
    ⟨fun hl => by have := h.linked.chain; rw [hl] at this; exact this,
      fun h0 => (h0 ▸ h.linked.chain : DList.Chain T.nextOf 0 0 v.nodes).eq_nil⟩
  constructor
  · intro hd
    by_cases hl : v.nodes = []
    · exact Or.inl hl
    · obtain ⟨q, hq, -, hq0⟩ := h.first hl
      have hfirst := hd.first (mt hempty.2 hl)
      rw [hq, Option.some.injEq] at hfirst
      exact Or.inr (hq0.1 hfirst)
  · intro hv
    refine ⟨h.forward, fun hne => ?_⟩
    have hl : v.nodes ≠ [] := mt hempty.1 hne
    obtain ⟨q, hq, -, hq0⟩ := h.first hl
    rw [hq, hq0.2 (hv.resolve_left hl)]

/-- In every run the forward traversal is the nodes added and not yet removed, the links between them
agree, and every further call returns; the first node's back link is null exactly when the list is empty
or no first node has been taken off since the last addition. -/
theorem list_doubly_linked_iff (h : ListRun T₀ ops T) :
    (T.DoublyLinked (viewOf ops).nodes ↔ (viewOf ops).nodes = [] ∨ (viewOf ops).beheaded = false) ∧
      T.ForwardLinked (viewOf ops).nodes ∧
      (∀ p, p ≠ 0 → p ∉ (viewOf ops).nodes → (T.node p).isSome = true →
        ∃ T', Stmt.run (addToList T p) T = some T') ∧
      ∀ p ∈ (viewOf ops).nodes, ∃ T', Stmt.run (removeFromList T p) T = some T' := by
  have hv := h.viewed
  refine ⟨hv.doubly_iff, hv.forward, fun p hne hp hs => ?_, fun p hp => ?_⟩
  · obtain ⟨T', hrun, -⟩ := hv.add hne hp hs
    exact ⟨T', hrun⟩
  · obtain ⟨T', hrun, -⟩ := hv.remove hp
    exact ⟨T', hrun⟩

/-- Two allocated nodes and an empty list. -/
def twoNodes : EptTable where
  rlEndpoints := 0
  node p := if p = 1 ∨ p = 2 then some ⟨0, 0, 0⟩ else none
  ept _ := none

/-- The two nodes added. -/
theorem listRun_two : ∃ T, ListRun twoNodes [.add 1, .add 2] T ∧ T.rlEndpoints = 2 ∧
    T.node 1 = some ⟨0, 0, 2⟩ ∧ T.node 2 = some ⟨0, 1, 0⟩ := by
  have h1 : ListRun twoNodes ([] ++ [.add 1]) _ := .add (.start rfl) (by decide) (by decide) (by decide) rfl
  have h2 : ListRun twoNodes ([.add 1] ++ [.add 2]) _ := .add h1 (by decide) (by decide) (by decide) rfl
  exact ⟨_, h2, by decide, by decide, by decide⟩

theorem list_doubly_linked_iff_last : ∃ T, ListRun twoNodes [.add 1, .add 2, .remove 1] T ∧ T.DoublyLinked [2] := by
  obtain ⟨T, h, -⟩ := listRun_two
  obtain ⟨T', hrun⟩ := (list_doubly_linked_iff h).2.2.2 1 (by decide)
  have h' := h.remove (by decide) hrun
  exact ⟨T', h', (list_doubly_linked_iff h').1.2 (Or.inr (by decide))⟩

/-- The first of two nodes removed: the other one's back link names the removed node. -/
theorem list_first_dangling : ∃ T, ListRun twoNodes [.add 1, .add 2, .remove 2] T ∧
    T.rlEndpoints = 1 ∧ T.prevOf T.rlEndpoints = some 2 ∧
    ¬ T.DoublyLinked (viewOf [.add 1, .add 2, .remove 2]).nodes := by
  obtain ⟨T, h, hhead, h1, h2⟩ := listRun_two
  have hrun : Stmt.run (removeFromList T 2) T = some (T.setHead 1) := by
    simp [removeFromList, Stmt.run, hhead, nextOf, h2]
  have hprev : (T.setHead 1).prevOf 1 = some 2 := congrArg (Option.map LList.prev) h1
  refine ⟨T.setHead 1, h.remove (by decide) hrun, rfl, hprev, fun hd => ?_⟩
  have hfirst := hd.first Nat.one_ne_zero
  exact absurd (hprev.symm.trans hfirst) (by decide)

end

end RpmsgLite
