/-
`rpmsg_lite_destroy_ept` where there are several instances. The entry that is taken out is found by its
address in the given instance, not by the endpoint itself: where the endpoint is not registered in that
instance but its address is in use there, another endpoint's entry goes, and the given endpoint is freed.
-/
import RpmsgLite.Ept.Endpoint

namespace RpmsgLite

open EptTable

/-! ## Removing touches its own list only -/

section

variable {T T' T₁ : EptTable} {L : List EptEntry} {x y : EptEntry} {A B : List EptEntry} {p q z : Nat}

theorem EptTable.setNode_node {f : LList → LList} (h : T.setNode p f = some T') (hz : z ≠ p) : T'.node z = T.node z := by
  obtain ⟨n, -, rfl⟩ := Option.map_eq_some_iff.1 h
  exact Function.update_of_ne hz _ _

/-- `remove_from_list` stores to the neighbours of the node in its list. -/
theorem removeFromList_frame (hL : T.Holds (A ++ x :: B)) (hrun : Stmt.run (removeFromList T x.node) T = some T')
    (hz : z ∉ (A ++ x :: B).map EptEntry.node) : T'.node z = T.node z := by
  have hlink := hL.linked
  have hnd := hL.chained.chain.nodup
  rw [List.map_append, List.map_cons] at hlink hnd hz
  obtain ⟨q, hq⟩ := hlink.chain.isSome x.node (List.mem_append_right _ List.mem_cons_self)
  have hB := hlink.chain.next_eq hq
  have hmem : x ∈ A ++ x :: B := List.mem_append_right _ List.mem_cons_self
  obtain ⟨n, hn⟩ := Option.isSome_iff_exists.1 (hL.chained.carries x hmem).isSome
  have hnext : n.next = q := by simpa [nextOf, hn] using hq
  unfold removeFromList at hrun
  split at hrun
  · cases hrun
    rfl
  split at hrun
  · obtain ⟨T₁, h₁, hrun⟩ := Option.bind_eq_some_iff.1 hrun
    cases hrun
    obtain ⟨-, -, rfl⟩ := Option.map_eq_some_iff.1 h₁
    rfl
  rename_i hhead
  -- the node has a predecessor in the list
  rcases List.eq_nil_or_concat A with rfl | ⟨A, y, rfl⟩
  · exact absurd hlink.chain.1.symm hhead
  rw [List.concat_eq_append, List.map_append, List.map_singleton, List.append_assoc, List.singleton_append] at hlink hnd hz
  have hprev : n.prev = y.node := by simpa [prevOf, hn] using hlink.prev_eq
  have hzy : z ≠ y.node := by
    rintro rfl
    exact hz (List.mem_append_right _ List.mem_cons_self)
  have hxy : x.node ≠ y.node := by
    intro he
    have hcons := (List.nodup_append.1 hnd).2.1
    rw [he] at hcons
    exact (List.nodup_cons.1 hcons).1 List.mem_cons_self
  split at hrun
  · obtain ⟨T₁, h₁, hrun⟩ := Option.bind_eq_some_iff.1 hrun
    cases hrun
    simp only [hn, Option.bind_some, hprev] at h₁
    exact setNode_node h₁ hzy
  · rename_i hlast
    have hq0 : q ≠ 0 := fun h0 => hlast (by rw [hq, h0])
    obtain ⟨T₁, h₁, hrun⟩ := Option.bind_eq_some_iff.1 hrun
    obtain ⟨T₂, h₂, hrun⟩ := Option.bind_eq_some_iff.1 hrun
    cases hrun
    simp only [hn, Option.bind_some, hprev] at h₁
    simp only [setNode_node h₁ hxy, hn, Option.bind_some, hnext] at h₂
    have hzq : z ≠ q := by
      rintro rfl
      exact hz (List.mem_append_right _ (List.mem_cons_of_mem _ (List.mem_cons_of_mem _ (hB.head_mem hq0))))
    exact (setNode_node h₂ hzq).trans (setNode_node h₁ hzy)

/-! ## What a lookup by address takes out -/

/-- After `env_free_memory` of a node and an endpoint; the static variant frees nothing. -/
def EptTable.freed (T : EptTable) (static : Bool) (node ept : Nat) : EptTable :=
  if static then T else { T with node := Function.update T.node node none, ept := Function.update T.ept ept none }

/-- A destroy takes out the entry `y` with the endpoint's address and frees its node and the endpoint. -/
theorem rpmsgLiteDestroyEpt_found {e : RpmsgLiteEndpoint} {fuel : Nat} (h : T.Holds (A ++ y :: B))
    (hfuel : (A ++ y :: B).length ≤ fuel) (hp : p ≠ 0) (he : T.ept p = some e) (hy : y.addr = e.addr) (static : Bool) :
    ∃ T₁, Stmt.run (removeFromList T y.node) T = some T₁ ∧ T.Relinked T₁ ∧ T₁.Holds (A ++ B) ∧
      rpmsgLiteDestroyEpt fuel T static p = some (RL_SUCCESS, T₁.freed static y.node p) := by
  have hmem : y ∈ A ++ y :: B := List.mem_append_right _ List.mem_cons_self
  obtain ⟨T₁, hrun, hrel, -, hdone⟩ := removeFromList_steps h (removeFromList T y.node).length
  rw [List.take_length] at hrun
  refine ⟨T₁, hrun, hrel, hdone le_rfl, ?_⟩
  have hget : rpmsgLiteGetEndpointFromAddr fuel T e.addr = some y.node := by
    rw [h.get hfuel, ← hy, h.boundNode_addr hmem]
  unfold rpmsgLiteDestroyEpt destroyEptFind
  rw [if_neg hp, he, Option.bind_some, hget, Option.bind_some, if_neg (h.ne_zero hmem), hrun, Option.bind_some]
  cases static with
  | true => rfl
  | false =>
    have hnode : (T₁.node y.node).isSome = true := by
      rw [hrel.isSome]
      exact (h.chained.carries y hmem).isSome
    have hept : (T₁.ept p).isSome = true := by
      rw [hrel.ept, he]
      rfl
    simp only [freeEpt, hnode, hept, Bool.and_self, if_true, Option.map_some, freed, Bool.false_eq_true, if_false]

/-- A destroy of an endpoint whose address is not in use changes nothing. -/
theorem rpmsgLiteDestroyEpt_absent {e : RpmsgLiteEndpoint} {fuel : Nat} (h : T.Holds L) (hfuel : L.length ≤ fuel) (hp : p ≠ 0)
    (he : T.ept p = some e) (haddr : e.addr ∉ L.map EptEntry.addr) (static : Bool) :
    rpmsgLiteDestroyEpt fuel T static p = some (RL_ERR_PARAM, T) := by
  unfold rpmsgLiteDestroyEpt destroyEptFind
  rw [if_neg hp, he, Option.bind_some, h.get hfuel, Option.bind_some, if_pos (h.boundNode_eq_zero.2 haddr)]

end

/-! ## Several instances -/

/-- The endpoint lists of all instances, over one heap. -/
structure EptHeap (ι : Type) where
  rlEndpoints : ι → Nat
  node : Nat → Option LList
  ept : Nat → Option RpmsgLiteEndpoint

section

variable {ι : Type} [DecidableEq ι]

/-- What the functions see that are called with the instance `i`. -/
def EptHeap.table (W : EptHeap ι) (i : ι) : EptTable := ⟨W.rlEndpoints i, W.node, W.ept⟩

def EptHeap.put (W : EptHeap ι) (i : ι) (T : EptTable) : EptHeap ι :=
  ⟨Function.update W.rlEndpoints i T.rlEndpoints, T.node, T.ept⟩

/-- `rpmsg_lite_destroy_ept` of the instance `i`. -/
def EptHeap.destroyEpt (fuel : Nat) (W : EptHeap ι) (static : Bool) (i : ι) (ept : Nat) : Option (Int × EptHeap ι) :=
  (rpmsgLiteDestroyEpt fuel (W.table i) static ept).map fun r => (r.1, W.put i r.2)

/-- The lists of all instances hold the endpoints `L`, each with a node and memory of its own. -/
structure EptHeap.Live (W : EptHeap ι) (L : ι → List EptEntry) : Prop where
  holds : ∀ i, (W.table i).Holds (L i)
  ptrs : ∀ i, ((L i).map EptEntry.ptr).Nodup
  nodes_apart : ∀ i j, i ≠ j → ∀ x ∈ L i, ∀ y ∈ L j, x.node ≠ y.node
  ptrs_apart : ∀ i j, i ≠ j → ∀ x ∈ L i, ∀ y ∈ L j, x.ptr ≠ y.ptr

/-- `W'` is `W` without the entry `x` of the instance `i`, whose node and endpoint are freed. -/
structure EptHeap.Destroyed (W W' : EptHeap ι) (L : ι → List EptEntry) (static : Bool) (i : ι) (x : EptEntry)
    (A B : List EptEntry) : Prop where
  entry : L i = A ++ x :: B
  live : W'.Live (Function.update L i (A ++ B))
  nodes : ∀ q, (W'.node q).isSome = ((W.node q).isSome && (static || decide (q ≠ x.node)))
  epts : W'.ept = if static then W.ept else Function.update W.ept x.ptr none

/-- A destroy has removed and freed the given endpoint, which was registered in the given instance, or it has failed
and changed nothing. -/
def EptHeap.OwnOrNothing (W : EptHeap ι) (L : ι → List EptEntry) (static : Bool) (i : ι) (ept : Nat) (r : Int)
    (W' : EptHeap ι) : Prop :=
  (r = RL_SUCCESS ∧ ∃ A x B, x.ptr = ept ∧ W.Destroyed W' L static i x A B) ∨ (r = RL_ERR_PARAM ∧ W' = W)

variable {W : EptHeap ι} {L : ι → List EptEntry} {i : ι} {A B : List EptEntry} {x : EptEntry}

@[simp] theorem EptHeap.put_table_self (W : EptHeap ι) (i : ι) : W.put i (W.table i) = W := by
  unfold put table
  rw [Function.update_eq_self]

theorem EptHeap.put_table_same (W : EptHeap ι) (i : ι) (T : EptTable) : (W.put i T).table i = T := by
  show EptTable.mk (Function.update W.rlEndpoints i T.rlEndpoints i) T.node T.ept = T
  rw [Function.update_self]

theorem EptHeap.put_table_of_ne {j : ι} (h : j ≠ i) (T : EptTable) :
    (W.put i T).table j = ⟨W.rlEndpoints j, T.node, T.ept⟩ := by
  show EptTable.mk (Function.update W.rlEndpoints i T.rlEndpoints j) T.node T.ept = _
  rw [Function.update_of_ne h]

/-- Taking out an instance's own entry keeps all lists in order. -/
theorem EptHeap.Live.destroyed (h : W.Live L) (hL : L i = A ++ x :: B) {T₁ : EptTable}
    (hrun : Stmt.run (removeFromList (W.table i) x.node) (W.table i) = some T₁) (hrel : (W.table i).Relinked T₁)
    (hhold : T₁.Holds (A ++ B)) (static : Bool) :
    W.Destroyed (W.put i (T₁.freed static x.node x.ptr)) L static i x A B := by
  have hholds := h.holds i
  rw [hL] at hholds
  have hsub : ∀ y ∈ A ++ B, y ∈ L i := by
    intro y hy
    rw [hL]
    exact ((List.sublist_cons_self x B).append_left A).subset hy
  have hx : x ∈ L i := by
    rw [hL]
    exact List.mem_append_right _ List.mem_cons_self
  -- an entry that stays has another node and other memory
  have hself : ∀ y ∈ A ++ B, y.node ≠ x.node ∧ y.ptr ≠ x.ptr := by
    have hnode := hholds.chained.chain.nodup
    have hptr := h.ptrs i
    rw [hL, List.map_append, List.map_cons, List.nodup_middle, ← List.map_append, List.nodup_cons] at hptr
    rw [List.map_append, List.map_cons, List.nodup_middle, ← List.map_append, List.nodup_cons] at hnode
    intro y hy
    exact ⟨fun he => hnode.1 (he ▸ List.mem_map_of_mem hy), fun he => hptr.1 (he ▸ List.mem_map_of_mem hy)⟩
  have hfreed : ∀ {M : List EptEntry} {T : EptTable}, T.Holds M → (∀ y ∈ M, y.node ≠ x.node ∧ y.ptr ≠ x.ptr) →
      (T.freed static x.node x.ptr).Holds M := by
    intro M T hM hne
    cases static with
    | true => exact hM
    | false =>
      exact hM.congr rfl (fun y hy => Function.update_of_ne (hne y hy).1 _ _) fun y hy => Function.update_of_ne (hne y hy).2 _ _
  have hother : ∀ j, j ≠ i → ∀ y ∈ L j, y.node ≠ x.node ∧ y.ptr ≠ x.ptr := fun j hj y hy =>
    ⟨h.nodes_apart j i hj y hy x hx, h.ptrs_apart j i hj y hy x hx⟩
  -- the lists of the other instances are not touched
  have hframe : ∀ j, j ≠ i → EptTable.Holds ⟨W.rlEndpoints j, T₁.node, T₁.ept⟩ (L j) := by
    intro j hj
    refine (h.holds j).congr rfl (fun y hy => ?_) fun y _ => congrFun hrel.ept _
    have hapart : y.node ∉ (A ++ x :: B).map EptEntry.node := by
      intro hm
      obtain ⟨z, hz, he⟩ := List.mem_map.1 hm
      rw [← hL] at hz
      exact h.nodes_apart j i hj y hy z hz he.symm
    have hnode : T₁.node y.node = (W.table i).node y.node := removeFromList_frame hholds hrun hapart
    exact hnode
  have hfst : ∀ j, ∀ y ∈ Function.update L i (A ++ B) j, y ∈ L j := by
    intro j y hy
    by_cases hj : j = i
    · subst hj
      rw [Function.update_self] at hy
      exact hsub y hy
    · rwa [Function.update_of_ne hj] at hy
  refine ⟨hL, ⟨fun j => ?_, fun j => ?_, fun j k hjk y hy z hz => ?_, fun j k hjk y hy z hz => ?_⟩, fun q => ?_, ?_⟩
  · by_cases hj : j = i
    · subst hj
      rw [Function.update_self, EptHeap.put_table_same]
      exact hfreed hhold hself
    · have hfree : EptTable.freed ⟨W.rlEndpoints j, T₁.node, T₁.ept⟩ static x.node x.ptr =
          ⟨W.rlEndpoints j, (T₁.freed static x.node x.ptr).node, (T₁.freed static x.node x.ptr).ept⟩ := by
        cases static with
        | true => rfl
        | false => rfl
      rw [Function.update_of_ne hj, EptHeap.put_table_of_ne hj, ← hfree]
      exact hfreed (hframe j hj) (hother j hj)
  · by_cases hj : j = i
    · subst hj
      rw [Function.update_self]
      have hptr := h.ptrs j
      rw [hL] at hptr
      exact hptr.sublist (((List.sublist_cons_self x B).append_left A).map _)
    · rw [Function.update_of_ne hj]
      exact h.ptrs j
  · exact h.nodes_apart j k hjk y (hfst j y hy) z (hfst k z hz)
  · exact h.ptrs_apart j k hjk y (hfst j y hy) z (hfst k z hz)
  · have hsome : (T₁.node q).isSome = (W.node q).isSome := hrel.isSome q
    cases static with
    | true =>
      rw [Bool.true_or, Bool.and_true]
      exact hsome
    | false =>
      rw [Bool.false_or, ← hsome]
      show (Function.update T₁.node x.node none q).isSome = _
      by_cases hq : q = x.node
      · subst hq
        rw [Function.update_self]
        simp
      · rw [Function.update_of_ne hq]
        simp [hq]
  · have hept : T₁.ept = W.ept := hrel.ept
    cases static with
    | true => exact hept
    | false =>
      show Function.update T₁.ept x.ptr none = _
      rw [hept]
      rfl

/-- A destroy of an allocated endpoint returns; it does what it should exactly when the endpoint is registered in the
given instance, or its address is not in use there. -/
theorem destroyEpt_own_iff (h : W.Live L) (fuel ept : Nat) {e : RpmsgLiteEndpoint} (hfuel : (L i).length ≤ fuel)
    (hept : ept ≠ 0) (he : W.ept ept = some e) (static : Bool) :
    ∃ r W', W.destroyEpt fuel static i ept = some (r, W') ∧
      (W.OwnOrNothing L static i ept r W' ↔ ept ∈ (L i).map EptEntry.ptr ∨ e.addr ∉ (L i).map EptEntry.addr) := by
  unfold EptHeap.destroyEpt
  by_cases haddr : e.addr ∈ (L i).map EptEntry.addr
  swap
  · rw [rpmsgLiteDestroyEpt_absent (h.holds i) hfuel hept he haddr]
    refine ⟨_, _, rfl, iff_of_true (Or.inr ⟨rfl, ?_⟩) (Or.inr haddr)⟩
    exact W.put_table_self i
  obtain ⟨y, hy, hya⟩ := List.mem_map.1 haddr
  obtain ⟨A, B, hL⟩ := List.append_of_mem hy
  have hholds := h.holds i
  rw [hL] at hholds
  obtain ⟨T₁, hrun, hrel, hhold, hres⟩ :=
    rpmsgLiteDestroyEpt_found hholds (hL ▸ hfuel) hept he hya static
  rw [hres]
  refine ⟨_, _, rfl, ?_⟩
  constructor
  · rintro (⟨-, A', x, B', hx, hd⟩ | ⟨hr, -⟩)
    · refine Or.inl (List.mem_map.2 ⟨x, ?_, hx⟩)
      rw [hd.entry]
      exact List.mem_append_right _ List.mem_cons_self
    · exact absurd (show RL_SUCCESS = RL_ERR_PARAM from hr) (by decide)
  · rintro (hmem | hn)
    · -- the entry found is the endpoint's own
      obtain ⟨x, hx, rfl⟩ := List.mem_map.1 hmem
      have hxe : some x.ept = some e := ((h.holds i).chained.carries x hx).ept.symm.trans he
      have hxy : x = y :=
        List.inj_on_of_nodup_map (h.holds i).addrs hx hy ((congrArg RpmsgLiteEndpoint.addr (Option.some.inj hxe)).trans hya.symm)
      subst hxy
      exact Or.inl ⟨rfl, A, x, B, rfl, h.destroyed hL hrun hrel hhold static⟩
    · exact absurd haddr hn

end

/-! ## Two instances with one endpoint each -/

/-- The endpoint of either instance has the address 30. -/
def twoInstances : EptHeap Bool where
  rlEndpoints b := if b then 0x400 else 0x200
  node p := if p = 0x200 then some ⟨0x100, 0, 0⟩ else if p = 0x400 then some ⟨0x300, 0, 0⟩ else none
  ept p := if p = 0x100 ∨ p = 0x300 then some ⟨30, 1, 0⟩ else none

def twoEntries (b : Bool) : List EptEntry := if b then [⟨0x400, 0x300, 30, 1, 0⟩] else [⟨0x200, 0x100, 30, 1, 0⟩]

theorem twoInstances_live : twoInstances.Live twoEntries := by
  refine ⟨fun i => ?_, fun i => ?_, fun i j hij x hx y hy => ?_, fun i j hij x hx y hy => ?_⟩
  · cases i with
    | false =>
      refine ⟨⟨⟨rfl, by decide, 0, rfl, rfl⟩, fun x hx => ?_⟩, .singleton _, List.nodup_singleton _⟩
      obtain rfl := List.mem_singleton.1 hx
      exact ⟨rfl, rfl⟩
    | true =>
      refine ⟨⟨⟨rfl, by decide, 0, rfl, rfl⟩, fun x hx => ?_⟩, .singleton _, List.nodup_singleton _⟩
      obtain rfl := List.mem_singleton.1 hx
      exact ⟨rfl, rfl⟩
  · cases i with
    | false => exact List.nodup_singleton _
    | true => exact List.nodup_singleton _
  · cases i <;> cases j <;> first | exact absurd rfl hij | skip
    all_goals
      obtain rfl := List.mem_singleton.1 hx
      obtain rfl := List.mem_singleton.1 hy
      decide
  · cases i <;> cases j <;> first | exact absurd rfl hij | skip
    all_goals
      obtain rfl := List.mem_singleton.1 hx
      obtain rfl := List.mem_singleton.1 hy
      decide

/-- An instance's own endpoint is destroyed. -/
theorem destroyEpt_own_iff_first : ∃ W', twoInstances.destroyEpt 1 false false 0x100 = some (RL_SUCCESS, W') ∧
    twoInstances.OwnOrNothing twoEntries false false 0x100 RL_SUCCESS W' := by
  obtain ⟨r, W', hres, hiff⟩ := destroyEpt_own_iff twoInstances_live (i := false) 1 0x100 le_rfl (by decide) rfl false
  have hown := hiff.2 (Or.inl List.mem_cons_self)
  have hr : r = RL_SUCCESS := congrArg (Option.map Prod.fst) hres.symm |> Option.some.inj
  subst hr
  exact ⟨W', hres, hown⟩

/-- The endpoint of the second instance, destroyed in the first: the call succeeds, the first instance has lost its
own endpoint, and the second one lists memory that is freed. -/
theorem destroyEpt_other : ∃ W', twoInstances.destroyEpt 1 false false 0x300 = some (RL_SUCCESS, W') ∧
    ¬ twoInstances.OwnOrNothing twoEntries false false 0x300 RL_SUCCESS W' ∧ W'.rlEndpoints false = 0 ∧
    (W'.node (W'.rlEndpoints true)).map LList.data = some 0x300 ∧ W'.ept 0x300 = none := by
  refine ⟨_, rfl, ?_, rfl, rfl, rfl⟩
  rintro (⟨-, A, x, B, hx, hd⟩ | ⟨hr, -⟩)
  · have hmem : x ∈ twoEntries false := by
      rw [hd.entry]
      exact List.mem_append_right _ List.mem_cons_self
    obtain rfl := List.mem_singleton.1 hmem
    exact absurd hx (by decide)
  · exact absurd hr (by decide)

end RpmsgLite
