/-
A lookup from the receive interrupt while a task is inside `rpmsg_lite_create_ept` or
`rpmsg_lite_destroy_ept`, between two stores to the list. It finds the old table or the new one, and it
reads live nodes only, except where an empty list gets its first node: that is the head one store before
its link is cleared, and what the link held before is followed.
-/
import RpmsgLite.Ept.Endpoint

namespace RpmsgLite

/-! ## The two operations, store by store -/

/-- A call of a task. -/
inductive EptOp
  | create (addr : UInt32) (rxCb rxCbData : Nat) (mem : EptMem)
  | destroy (ept : Nat)

/-- The table before the first store to the list, and the stores. -/
def EptOp.stmts (fuel : Nat) (T : EptTable) : EptOp → Option (EptTable × List Stmt)
  | create addr rxCb rxCbData mem => (createEptPrepare fuel T addr rxCb rxCbData mem).map fun
    | (none, T) => (T, [])
    | (some (_, node), T) => (T, addToList T node)
  | destroy ept =>
    if ept = 0 then some (T, [])
    else (destroyEptFind fuel T ept).map fun node => (T, if node = 0 then [] else removeFromList T node)

/-- The table after `k` of the stores. -/
def EptOp.during (fuel : Nat) (T : EptTable) (op : EptOp) (k : Nat) : Option EptTable :=
  (op.stmts fuel T).bind fun p => Stmt.run (p.2.take k) p.1

/-- The table after the call. -/
def EptOp.exec (static : Bool) (fuel : Nat) (T : EptTable) : EptOp → Option EptTable
  | create addr rxCb rxCbData mem => (rpmsgLiteCreateEpt fuel T addr rxCb rxCbData mem).map Prod.snd
  | destroy ept => (rpmsgLiteDestroyEpt fuel T static ept).map Prod.snd

/-! ## Safe lookups -/

/-- Every lookup in `T` ends, reads nodes of the given entries only, and finds what it finds in the table
before or in the table after. -/
def LookupSafe (T before after : EptTable) (live : List EptEntry) : Prop :=
  ∃ bound, ∀ fuel, bound ≤ fuel → ∀ addr, ∃ r, rpmsgLiteGetEndpointFromAddr fuel T addr = some r ∧
    (∀ v ∈ visitedFrom T addr fuel T.rlEndpoints, ∃ x ∈ live, x.node = v ∧ T.Carries x) ∧
    (rpmsgLiteGetEndpointFromAddr fuel before addr = some r ∨ rpmsgLiteGetEndpointFromAddr fuel after addr = some r)

variable {T T' T₀ T₁ : EptTable} {L L₀ L₁ : List EptEntry} {x : EptEntry} {fuel : Nat}

/-- A list of the old entries or of the new ones is safe. -/
theorem EptTable.Chained.lookupSafe (h : T.Chained T.rlEndpoints L) (h₀ : T₀.Holds L₀) (h₁ : T₁.Holds L₁)
    (hL : L = L₀ ∨ L = L₁) : LookupSafe T T₀ T₁ (L₀ ++ L₁) := by
  refine ⟨max L₀.length L₁.length, fun fuel hfuel addr => ?_⟩
  have hle : L.length ≤ fuel := by rcases hL with rfl | rfl <;> omega
  obtain ⟨hget, hvis⟩ : getEndpointFrom T addr fuel T.rlEndpoints = some (boundNode L addr) ∧ _ := h.lookup hle
  refine ⟨boundNode L addr, hget, fun v hv => ?_, ?_⟩
  · obtain ⟨x, hx, rfl⟩ := List.mem_map.1 (hvis v hv)
    refine ⟨x, ?_, rfl, h.carries x hx⟩
    rcases hL with rfl | rfl
    · exact List.mem_append_left _ hx
    · exact List.mem_append_right _ hx
  · rcases hL with rfl | rfl
    · exact Or.inl (h₀.get hle addr)
    · exact Or.inr (h₁.get hle addr)

/-- A node that links to itself is read for ever. -/
theorem getEndpointFrom_self {p : Nat} {addr : UInt32} {n : LList} {e : RpmsgLiteEndpoint} (hn : T.node p = some n)
    (he : T.ept n.data = some e) (haddr : e.addr ≠ addr) (hp : p ≠ 0) (hself : n.next = p) :
    ∀ fuel, getEndpointFrom T addr fuel p = none := by
  obtain ⟨a, rfl⟩ := Nat.exists_eq_succ_of_ne_zero hp
  intro fuel
  induction fuel with
  | zero => rfl
  | succ fuel ih =>
    simp only [getEndpointFrom, Nat.succ_eq_add_one] at ih hn hself ⊢
    rw [hn, Option.bind_some, he, Option.bind_some, if_neg haddr, hself]
    exact ih

/-- A single head whose link is not null leads a lookup astray. -/
theorem not_lookupSafe {before after : EptTable} {q : Nat} (hx : T.Carries x) (hne : x.node ≠ 0) (hhead : T.rlEndpoints = x.node)
    (hq : T.nextOf x.node = some q) (hq0 : q ≠ 0) : ¬ LookupSafe T before after [x] := by
  rintro ⟨bound, h⟩
  obtain ⟨n, hn, rfl⟩ := Option.map_eq_some_iff.1 hq
  have hdata : n.data = x.ptr := by
    have := hx.node
    rw [hn] at this
    exact Option.some.inj this
  have hept : T.ept n.data = some x.ept := by rw [hdata]; exact hx.ept
  -- an address the new endpoint does not have
  have haddr : x.ept.addr ≠ x.ept.addr + 1 := by simp
  obtain ⟨r, hr, hvis, -⟩ := h (bound + 2) (by omega) (x.ept.addr + 1)
  have hself : n.next = x.node := by
    obtain ⟨a, ha⟩ := Nat.exists_eq_succ_of_ne_zero hne
    obtain ⟨b, hb⟩ := Nat.exists_eq_succ_of_ne_zero hq0
    have hmem : n.next ∈ visitedFrom T (x.ept.addr + 1) (bound + 2) T.rlEndpoints := by
      rw [hhead, ha, Nat.succ_eq_add_one]
      rw [ha, Nat.succ_eq_add_one] at hn
      simp only [visitedFrom, hn, Option.bind_some, hept, Option.map_some, if_neg haddr, hb, Nat.succ_eq_add_one]
      exact List.mem_cons_of_mem _ List.mem_cons_self
    obtain ⟨y, hy, hynode, -⟩ := hvis _ hmem
    rw [← hynode, List.mem_singleton.1 hy]
  rw [rpmsgLiteGetEndpointFromAddr, hhead, getEndpointFrom_self hn hept haddr hne hself] at hr
  cases hr

/-! ## Every table, operation and point -/

/-- A call that the application may make: a create on memory not in use, a destroy of a live endpoint. -/
def EptOp.Legal (T : EptTable) (L : List EptEntry) : EptOp → Prop
  | create _ _ _ mem => mem.Unused T L
  | destroy ept => ∃ A x B, L = A ++ x :: B ∧ x.ptr = ept ∧ x.ptr ≠ 0 ∧ x.ptr ∉ (A ++ B).map EptEntry.ptr

/-- The point behind the first store into an empty list, when the new node's link is not null by chance. -/
def EptOp.Exposed (T : EptTable) : EptOp → Nat → Prop
  | create _ _ _ mem, k => T.rlEndpoints = 0 ∧ k = 1 ∧ mem.ptrs ≠ none ∧ mem.oldNext T ≠ some 0
  | destroy _, _ => False

theorem EptTable.Holds.head_eq_zero (h : T.Holds L) : T.rlEndpoints = 0 ↔ L = [] := by
  constructor
  · intro h0
    have := (h0 ▸ h.chained.chain).eq_nil
    exact List.map_eq_nil_iff.1 this
  · rintro rfl
    exact h.chained.chain

/-- An empty table has an address for everyone. -/
theorem not_chosen_none {addr : UInt32} : ¬ Chosen (Used []) addr none := by
  intro hc
  simp only [Chosen] at hc
  split at hc
  · exact List.not_mem_nil (hc 1 (by decide) (by decide))
  · exact List.not_mem_nil hc

theorem lookup_during_create (h : T.Holds L) (hfuel : L.length ≤ fuel) {mem : EptMem} (hmem : mem.Unused T L) (static : Bool)
    (addr : UInt32) (rxCb rxCbData k : Nat) :
    ∃ T' after L', (EptOp.create addr rxCb rxCbData mem).during fuel T k = some T' ∧
      (EptOp.create addr rxCb rxCbData mem).exec static fuel T = some after ∧ after.Holds L' ∧
      (LookupSafe T' T after (L ++ L') ↔ ¬ (EptOp.create addr rxCb rxCbData mem).Exposed T k) := by
  obtain ⟨a, p, hp, hchosen, hprep⟩ := createEptPrepare_spec h hfuel hmem addr rxCb rxCbData
  simp only [EptOp.during, EptOp.stmts, EptOp.exec, EptOp.Exposed, rpmsgLiteCreateEpt, hp, Option.map_some, Option.bind_some]
  generalize mem.ptrs = ptrs at hprep ⊢
  cases hprep with
  | noAddr ptrs =>
    refine ⟨T, T, L, by rw [List.take_nil]; rfl, rfl, h, iff_of_true (h.chained.lookupSafe h h (Or.inl rfl)) fun he => ?_⟩
    obtain rfl := h.head_eq_zero.1 he.1
    exact not_chosen_none hchosen
  | noMem a =>
    refine ⟨T, T, L, by rw [List.take_nil]; rfl, rfl, h, iff_of_true (h.chained.lookupSafe h h (Or.inl rfl)) fun he => ?_⟩
    exact he.2.2.1 rfl
  | @ready a ept node T1 hold fresh link =>
    obtain ⟨T', hrun, -, hexp, hsafe, -⟩ := addToList_steps hold fresh k
    obtain ⟨T2, hrun2, -, -, -, hdone⟩ := addToList_steps hold fresh (addToList T1 node).length
    rw [List.take_length] at hrun2
    refine ⟨T', T2, _, hrun, ?_, hdone le_rfl, ?_⟩
    · dsimp only at hrun2 ⊢
      rw [hrun2]; rfl
    · by_cases hpoint : L = [] ∧ k = 1
      · obtain ⟨rfl, rfl⟩ := hpoint
        obtain rfl := hexp ⟨rfl, rfl⟩
        have hhead := h.head_eq_zero.2 rfl
        have hcar : (T1.setHead node).Carries ⟨node, ept, a, rxCb, rxCbData⟩ := ⟨fresh.carries.node, fresh.carries.ept⟩
        by_cases hnext : mem.oldNext T = some 0
        · refine iff_of_true ?_ fun he => he.2.2.2 hnext
          have hch : (T1.setHead node).Chained (T1.setHead node).rlEndpoints [⟨node, ept, a, rxCb, rxCbData⟩] :=
            ⟨⟨rfl, fresh.ne, 0, link.trans hnext, rfl⟩, fun y hy => List.mem_singleton.1 hy ▸ hcar⟩
          exact hch.lookupSafe h (hdone le_rfl) (Or.inr rfl)
        · obtain ⟨q, hq⟩ : ∃ q, T1.nextOf node = some q := by
            obtain ⟨n, hn, -⟩ := Option.map_eq_some_iff.1 fresh.carries.node
            exact ⟨n.next, by rw [EptTable.nextOf, hn, Option.map_some]⟩
          have hq0 : q ≠ 0 := by
            rintro rfl
            exact hnext (link.symm.trans hq)
          exact iff_of_false (not_lookupSafe hcar fresh.ne rfl hq hq0)
            fun hne => hne ⟨hhead, rfl, by simp, hnext⟩
      · refine iff_of_true ?_ fun he => hpoint ⟨h.head_eq_zero.1 he.1, he.2.1⟩
        rcases hsafe hpoint with hch | hch
        · exact hch.lookupSafe h (hdone le_rfl) (Or.inl rfl)
        · exact hch.lookupSafe h (hdone le_rfl) (Or.inr rfl)

theorem lookup_during_destroy {A B : List EptEntry} (h : T.Holds (A ++ x :: B)) (hfuel : (A ++ x :: B).length ≤ fuel)
    (hne : x.ptr ≠ 0) (hptr : x.ptr ∉ (A ++ B).map EptEntry.ptr) (static : Bool) (k : Nat) :
    ∃ T' after, (EptOp.destroy x.ptr).during fuel T k = some T' ∧
      (EptOp.destroy x.ptr).exec static fuel T = some after ∧ after.Holds (A ++ B) ∧
      LookupSafe T' T after (A ++ x :: B ++ (A ++ B)) := by
  have hmem : x ∈ A ++ x :: B := List.mem_append_right _ List.mem_cons_self
  obtain ⟨T', hrun, -, hsafe, -⟩ := removeFromList_steps h k
  obtain ⟨after, hafter, hhold⟩ := rpmsgLiteDestroyEpt_spec h hfuel hne hptr static
  have hfind : destroyEptFind fuel T x.ptr = some x.node := by
    unfold destroyEptFind
    rw [(h.chained.carries x hmem).ept, Option.bind_some, h.get hfuel, ← h.boundNode_addr hmem]
    rfl
  refine ⟨T', after, ?_, ?_, hhold, ?_⟩
  · simp only [EptOp.during, EptOp.stmts, if_neg hne, hfind, Option.map_some, Option.bind_some, if_neg (h.ne_zero hmem)]
    exact hrun
  · simp only [EptOp.exec, hafter, Option.map_some]
  · rcases hsafe with hch | hch
    · exact hch.lookupSafe h hhold (Or.inl rfl)
    · exact hch.lookupSafe h hhold (Or.inr rfl)

/-- For every table, call and number of stores done, the interrupt's lookup is safe, except at the point
where a first node is exposed with an old link. -/
theorem lookup_preempted (h : T.Holds L) (hfuel : L.length ≤ fuel) {op : EptOp} (hop : op.Legal T L) (static : Bool) (k : Nat) :
    ∃ T' after L', op.during fuel T k = some T' ∧ op.exec static fuel T = some after ∧ after.Holds L' ∧
      (LookupSafe T' T after (L ++ L') ↔ ¬ op.Exposed T k) := by
  cases op with
  | create addr rxCb rxCbData mem => exact lookup_during_create h hfuel hop static addr rxCb rxCbData k
  | destroy ept =>
    obtain ⟨A, x, B, rfl, rfl, hne, hptr⟩ := hop
    obtain ⟨T', after, hduring, hexec, hhold, hsafe⟩ := lookup_during_destroy h hfuel hne hptr static k
    exact ⟨T', after, A ++ B, hduring, hexec, hhold, iff_of_true hsafe fun he => he⟩

/-! ## The first endpoint -/

/-- An instance without endpoints, before anything is allocated. -/
def EptTable.empty : EptTable := ⟨0, fun _ => none, fun _ => none⟩

theorem EptTable.holds_empty : EptTable.empty.Holds [] :=
  ⟨⟨rfl, fun _ hx => absurd hx List.not_mem_nil⟩, .nil, List.nodup_nil⟩

/-- The create of the first endpoint, in memory that holds `old`. -/
def createFirst (old : LList) : EptOp := .create RL_ADDR_ANY 1 0 (.dynamic 0x100 0x200 old)

theorem createFirst_legal (old : LList) : (createFirst old).Legal EptTable.empty [] := ⟨fun _ => rfl, fun _ => rfl⟩

/-- A cleared node may be seen at any point. -/
theorem lookup_preempted_cleared : ∃ T' after L', (createFirst ⟨0, 0, 0⟩).during 0 .empty 1 = some T' ∧
    (createFirst ⟨0, 0, 0⟩).exec false 0 .empty = some after ∧ after.Holds L' ∧ LookupSafe T' .empty after L' := by
  obtain ⟨T', after, L', hduring, hexec, hhold, hiff⟩ :=
    lookup_preempted EptTable.holds_empty le_rfl (createFirst_legal ⟨0, 0, 0⟩) false 1
  exact ⟨T', after, L', hduring, hexec, hhold, hiff.2 fun he => he.2.2.2 rfl⟩

/-- A node that holds an old link is followed to it. -/
theorem lookup_preempted_stale : ∃ T' after L', (createFirst ⟨0, 8, 0⟩).during 0 .empty 1 = some T' ∧
    (createFirst ⟨0, 8, 0⟩).exec false 0 .empty = some after ∧ after.Holds L' ∧ ¬ LookupSafe T' .empty after L' := by
  obtain ⟨T', after, L', hduring, hexec, hhold, hiff⟩ :=
    lookup_during_create EptTable.holds_empty le_rfl
      (show (EptMem.dynamic 0x100 0x200 ⟨0, 8, 0⟩).Unused EptTable.empty [] from createFirst_legal ⟨0, 8, 0⟩) false
      RL_ADDR_ANY 1 0 1
  refine ⟨T', after, L', hduring, hexec, hhold, fun hsafe => hiff.1 hsafe ?_⟩
  exact ⟨rfl, rfl, by decide, by decide⟩

end RpmsgLite
