/-
`rpmsg_ns_bind` and `rpmsg_ns_unbind` over the endpoint table. A bind allocates two contexts and creates an endpoint,
whose result it stores without looking at it: where the address is in use, or the endpoint gets no memory, the handle
is there and nothing listens, and the unbind of that handle fails.
-/
import RpmsgLite.Ept.Destroy

namespace RpmsgLite

open EptTable

def RL_NS_EPT_ADDR : UInt32 := 0x35

/-! ## The functions -/

/-- `struct rpmsg_ns_callback_data` -/
structure RpmsgNsCallbackData where
  cb : Nat
  userData : Nat
deriving DecidableEq

/-- `struct rpmsg_ns_context` -/
structure RpmsgNsContext where
  ept : Nat
  cbCtxt : Nat
deriving DecidableEq

/-- An instance's endpoints and the contexts of its name services, by address. -/
structure NsState where
  table : EptTable
  cbCtxt : Nat → Option RpmsgNsCallbackData
  nsCtxt : Nat → Option RpmsgNsContext

/-- The memory of a bind: what four calls of `env_allocate_memory` return, or the static context. Null is 0. -/
inductive NsMem
  | dynamic (cbCtxt nsCtxt ept node : Nat) (old : LList)
  | static (context : Nat)
deriving DecidableEq

def NsMem.eptMem : NsMem → EptMem
  | .dynamic _ _ ept node old => .dynamic ept node old
  | .static context => .static context

section

variable (fuel : Nat) (s : NsState)

/-- The allocations of `rpmsg_ns_bind`: the two contexts, or NULL. Their memory is overwritten before it is read. -/
def allocNs : NsMem → Option (Nat × Nat) × NsState
  | .static context => if context = 0 then (none, s) else (some (context, context), s)
  | .dynamic cbCtxt nsCtxt _ _ _ =>
    if cbCtxt = 0 then (none, s)
    else
      let s := { s with cbCtxt := Function.update s.cbCtxt cbCtxt (some ⟨0, 0⟩) }
      if nsCtxt = 0 then (none, { s with cbCtxt := Function.update s.cbCtxt cbCtxt none })
      else (some (cbCtxt, nsCtxt), { s with nsCtxt := Function.update s.nsCtxt nsCtxt (some ⟨0, 0⟩) })

/-- `rpmsg_ns_bind`, with `rpmsg_ns_rx_cb` at the address `nsRxCb`. -/
def rpmsgNsBind (nsRxCb appCb userData : Nat) (mem : NsMem) : Option (Nat × NsState) :=
  if appCb = 0 then some (0, s)
  else
    match allocNs s mem with
    | (none, s) => some (0, s)
    | (some (cbCtxt, nsCtxt), s) =>
      let s := { s with cbCtxt := Function.update s.cbCtxt cbCtxt (some ⟨appCb, userData⟩) }
      -- the endpoint may be null
      (rpmsgLiteCreateEpt fuel s.table RL_NS_EPT_ADDR nsRxCb cbCtxt mem.eptMem).map fun (ept, table) =>
        (nsCtxt, { s with table, nsCtxt := Function.update s.nsCtxt nsCtxt (some ⟨ept, cbCtxt⟩) })

/-- `env_free_memory` of both contexts. -/
def freeNs (cbCtxt nsCtxt : Nat) : Option NsState :=
  if (s.cbCtxt cbCtxt).isSome && (s.nsCtxt nsCtxt).isSome then
    some { s with cbCtxt := Function.update s.cbCtxt cbCtxt none, nsCtxt := Function.update s.nsCtxt nsCtxt none }
  else none

/-- `rpmsg_ns_unbind`; only the dynamic variant frees. -/
def rpmsgNsUnbind (static : Bool) (handle : Nat) : Option (Int × NsState) :=
  (s.nsCtxt handle).bind fun ctxt =>
    (rpmsgLiteDestroyEpt fuel s.table static ctxt.ept).bind fun (retval, table) =>
      let s := { s with table }
      if static then some (retval, s) else (freeNs s ctxt.cbCtxt handle).map fun s => (retval, s)

end

/-! ## Creating at a given address -/

section

variable {T T' : EptTable} {L : List EptEntry} {fuel : Nat} {addr : UInt32} {mem : EptMem} {ept node rxCb rxCbData : Nat}

/-- At an address in use nothing is created, whatever memory there is. -/
theorem rpmsgLiteCreateEpt_used (h : T.Holds L) (hfuel : L.length ≤ fuel) (hany : addr ≠ RL_ADDR_ANY) (hused : Used L addr) :
    rpmsgLiteCreateEpt fuel T addr rxCb rxCbData mem = some (0, T) := by
  obtain ⟨a, ha, hchosen⟩ := chooseAddr_spec h hfuel addr
  cases a with
  | none =>
    unfold rpmsgLiteCreateEpt createEptPrepare
    rw [ha]
    rfl
  | some a =>
    rw [Chosen, if_neg hany] at hchosen
    obtain ⟨hnot, -, rfl⟩ := hchosen
    exact absurd hused hnot

/-- Without memory nothing is created. -/
theorem rpmsgLiteCreateEpt_noMem (h : T.Holds L) (hfuel : L.length ≤ fuel) (hmem : mem.Unused T L) (hp : mem.ptrs = none) :
    rpmsgLiteCreateEpt fuel T addr rxCb rxCbData mem = some (0, T) := by
  obtain ⟨a, r, T', hr, -, ⟨-, rfl, rfl⟩ | ⟨b, node, -, hsome, -⟩⟩ :=
    rpmsgLiteCreateEpt_spec h hfuel hmem addr rxCb rxCbData
  · exact hr
  · rw [hp] at hsome
    cases hsome

/-- Before `add_to_list` the new node and the new endpoint are there, and nothing else has changed. -/
theorem createEptPrepare_heap (h : createEptPrepare fuel T addr rxCb rxCbData mem = some (some (ept, node), T')) :
    ∃ a n, T' = ⟨T.rlEndpoints, Function.update T.node node (some n),
      Function.update T.ept ept (some ⟨a, rxCb, rxCbData⟩)⟩ := by
  unfold createEptPrepare at h
  obtain ⟨a, -, h⟩ := Option.bind_eq_some_iff.1 h
  cases a with
  | none => cases h
  | some a =>
    cases mem with
    | static context =>
      simp only [allocEpt] at h
      split at h
      · cases h
      · rename_i heq
        split at heq
        · cases heq
        · cases heq
          obtain ⟨T₁, hset, hT⟩ := Option.map_eq_some_iff.1 h
          cases hT
          obtain ⟨n, -, rfl⟩ := Option.map_eq_some_iff.1 hset
          exact ⟨a, _, rfl⟩
    | dynamic ept' node' old =>
      simp only [allocEpt] at h
      split at h
      · cases h
      · rename_i heq
        split at heq
        · cases heq
        · split at heq
          · cases heq
          · cases heq
            obtain ⟨T₁, hset, hT⟩ := Option.map_eq_some_iff.1 h
            cases hT
            obtain ⟨n, -, rfl⟩ := Option.map_eq_some_iff.1 hset
            refine ⟨a, { n with data := ept }, ?_⟩
            simp only [Function.update_idem]

theorem EptMem.ptrs_ne_zero (mem : EptMem) : ∀ p ∈ mem.ptrs, p.1 ≠ 0 ∧ p.2 ≠ 0 := by
  intro p hp
  cases mem with
  | static context =>
    simp only [EptMem.ptrs] at hp
    split at hp
    · cases hp
    · rename_i h0
      cases hp
      exact ⟨h0, h0⟩
  | dynamic ept node old =>
    simp only [EptMem.ptrs] at hp
    split at hp
    · cases hp
    · rename_i h0
      cases hp
      exact not_or.1 h0

/-- At a free address, and with memory, the endpoint is created. -/
theorem rpmsgLiteCreateEpt_free (h : T.Holds L) (hfuel : L.length ≤ fuel) (hmem : mem.Unused T L) (hany : addr ≠ RL_ADDR_ANY)
    (hfree : ¬ Used L addr) (hp : mem.ptrs = some (ept, node)) (rxCb rxCbData : Nat) :
    ∃ n T', rpmsgLiteCreateEpt fuel T addr rxCb rxCbData mem = some (ept, T') ∧ ept ∉ L.map EptEntry.ptr ∧
      T'.Holds (⟨node, ept, addr, rxCb, rxCbData⟩ :: L) ∧
      EptTable.Relinked ⟨T.rlEndpoints, Function.update T.node node (some n),
        Function.update T.ept ept (some ⟨addr, rxCb, rxCbData⟩)⟩ T' := by
  obtain ⟨a, p, hprepare, hchosen, hprep⟩ := createEptPrepare_spec h hfuel hmem addr rxCb rxCbData
  rw [hp] at hprep
  cases hprep with
  | noAddr =>
    rw [Chosen, if_neg hany] at hchosen
    exact absurd hchosen hfree
  | @ready a _ _ T₁ hold fresh _ =>
    rw [Chosen, if_neg hany] at hchosen
    obtain ⟨-, -, rfl⟩ := hchosen
    obtain ⟨T₂, hrun, hrel, -, -, hdone⟩ := addToList_steps hold fresh (addToList T₁ node).length
    rw [List.take_length] at hrun
    obtain ⟨a', n, rfl⟩ := createEptPrepare_heap hprepare
    have ha : a' = a := by
      have hept : Function.update T.ept ept (some ⟨a', rxCb, rxCbData⟩) ept = some ⟨a, rxCb, rxCbData⟩ := fresh.carries.ept
      rw [Function.update_self] at hept
      exact congrArg RpmsgLiteEndpoint.addr (Option.some.inj hept)
    subst ha
    refine ⟨n, T₂, ?_, fresh.ptr, hdone le_rfl, hrel⟩
    unfold rpmsgLiteCreateEpt
    rw [hprepare, Option.bind_some]
    exact congrArg (Option.map fun T => (ept, T)) hrun

end

/-! ## Binding -/

/-- The contexts that a bind got; `none` when there was no memory. -/
def NsMem.ctxts : NsMem → Option (Nat × Nat)
  | .static context => if context = 0 then none else some (context, context)
  | .dynamic cbCtxt nsCtxt _ _ _ => if cbCtxt = 0 ∨ nsCtxt = 0 then none else some (cbCtxt, nsCtxt)

/-- New memory was not allocated before; a static context is in no use, unless the address is. -/
def NsMem.Unused (s : NsState) (L : List EptEntry) : NsMem → Prop
  | .dynamic cbCtxt nsCtxt ept node old =>
    (cbCtxt ≠ 0 → s.cbCtxt cbCtxt = none) ∧ (nsCtxt ≠ 0 → s.nsCtxt nsCtxt = none) ∧
      (EptMem.dynamic ept node old).Unused s.table L
  | .static context => ¬ Used L RL_NS_EPT_ADDR → (EptMem.static context).Unused s.table L

/-- The address is free, and the endpoint gets its memory. -/
def NsMem.listens (fuel : Nat) (T : EptTable) (mem : NsMem) : Bool :=
  rpmsgLiteGetEndpointFromAddr fuel T RL_NS_EPT_ADDR == some 0 && mem.eptMem.ptrs.isSome

/-- A new endpoint at the address of the name service, whose callback is to call the application's. -/
def NsState.Listens (s : NsState) (L : List EptEntry) (nsRxCb appCb userData : Nat) : Prop :=
  ∃ x : EptEntry, x.addr = RL_NS_EPT_ADDR ∧ x.ept.rxCb = nsRxCb ∧ s.cbCtxt x.ept.rxCbData = some ⟨appCb, userData⟩ ∧
    x.ptr ∉ L.map EptEntry.ptr ∧ s.table.Holds (x :: L)

/-- After a bind that got its contexts. -/
def NsState.bound (s : NsState) (T : EptTable) (cbCtxt nsCtxt appCb userData ept : Nat) : NsState :=
  ⟨T, Function.update s.cbCtxt cbCtxt (some ⟨appCb, userData⟩), Function.update s.nsCtxt nsCtxt (some ⟨ept, cbCtxt⟩)⟩

section

variable {s : NsState} {L : List EptEntry} {fuel nsRxCb appCb userData : Nat} {mem : NsMem}

/-- What a bind with the contexts `ctxts` leaves. -/
inductive NsState.Bound (s : NsState) (L : List EptEntry) (fuel nsRxCb appCb userData : Nat) (mem : NsMem) :
    Option (Nat × Nat) → Nat → NsState → Prop
  | null : Bound s L fuel nsRxCb appCb userData mem none 0 s
  | deaf {cbCtxt handle} (hl : mem.listens fuel s.table = false) :
      Bound s L fuel nsRxCb appCb userData mem (some (cbCtxt, handle)) handle (s.bound s.table cbCtxt handle appCb userData 0)
  | listening {cbCtxt handle ept node n T} (hl : mem.listens fuel s.table = true) (hp : mem.eptMem.ptrs = some (ept, node))
      (hptr : ept ∉ L.map EptEntry.ptr) (hold : T.Holds (⟨node, ept, RL_NS_EPT_ADDR, nsRxCb, cbCtxt⟩ :: L))
      (heap : EptTable.Relinked ⟨s.table.rlEndpoints, Function.update s.table.node node (some n),
        Function.update s.table.ept ept (some ⟨RL_NS_EPT_ADDR, nsRxCb, cbCtxt⟩)⟩ T) :
      Bound s L fuel nsRxCb appCb userData mem (some (cbCtxt, handle)) handle (s.bound T cbCtxt handle appCb userData ept)

theorem NsMem.listens_iff (h : s.table.Holds L) (hfuel : L.length ≤ fuel) :
    mem.listens fuel s.table = true ↔ ¬ Used L RL_NS_EPT_ADDR ∧ mem.eptMem.ptrs ≠ none := by
  unfold NsMem.listens
  rw [Bool.and_eq_true, beq_iff_eq, h.get hfuel, Option.some_inj, h.boundNode_eq_zero, Option.isSome_iff_ne_none]
  rfl

/-- The part of a bind after its allocations. -/
theorem rpmsgNsBind_create (mem : NsMem) (h : s.table.Holds L) (hfuel : L.length ≤ fuel)
    (hmem : ¬ Used L RL_NS_EPT_ADDR → mem.eptMem.Unused s.table L) (cbCtxt handle : Nat) :
    ∃ ept T, rpmsgLiteCreateEpt fuel s.table RL_NS_EPT_ADDR nsRxCb cbCtxt mem.eptMem = some (ept, T) ∧
      s.Bound L fuel nsRxCb appCb userData mem (some (cbCtxt, handle)) handle (s.bound T cbCtxt handle appCb userData ept) := by
  have hany : RL_NS_EPT_ADDR ≠ RL_ADDR_ANY := by decide
  by_cases hused : Used L RL_NS_EPT_ADDR
  · refine ⟨0, s.table, rpmsgLiteCreateEpt_used h hfuel hany hused, .deaf ?_⟩
    rw [← Bool.not_eq_true, NsMem.listens_iff h hfuel]
    exact fun hl => hl.1 hused
  cases hp : mem.eptMem.ptrs with
  | none =>
    refine ⟨0, s.table, rpmsgLiteCreateEpt_noMem h hfuel (hmem hused) hp, .deaf ?_⟩
    rw [← Bool.not_eq_true, NsMem.listens_iff h hfuel]
    exact fun hl => hl.2 hp
  | some p =>
    obtain ⟨ept, node⟩ := p
    obtain ⟨n, T, hcreate, hptr, hold, heap⟩ := rpmsgLiteCreateEpt_free h hfuel (hmem hused) hany hused hp nsRxCb cbCtxt
    refine ⟨ept, T, hcreate, .listening ?_ hp hptr hold heap⟩
    rw [NsMem.listens_iff h hfuel, hp]
    exact ⟨hused, Option.some_ne_none _⟩

/-- A bind returns, and does so without a handle only where it got no contexts. -/
theorem rpmsgNsBind_spec (h : s.table.Holds L) (hfuel : L.length ≤ fuel) (hmem : mem.Unused s L) (hcb : appCb ≠ 0) :
    ∃ handle s', rpmsgNsBind fuel s nsRxCb appCb userData mem = some (handle, s') ∧
      s.Bound L fuel nsRxCb appCb userData mem mem.ctxts handle s' := by
  unfold rpmsgNsBind
  rw [if_neg hcb]
  cases mem with
  | static context =>
    by_cases h0 : context = 0
    · simp only [allocNs, NsMem.ctxts, if_pos h0]
      exact ⟨0, s, rfl, .null⟩
    · simp only [allocNs, NsMem.ctxts, if_neg h0]
      obtain ⟨ept, T, hcreate, hbound⟩ := rpmsgNsBind_create (.static context) h hfuel hmem context context
      exact ⟨context, _, congrArg (Option.map _) hcreate, hbound⟩
  | dynamic cbCtxt nsCtxt ept node old =>
    obtain ⟨hcbc, hnsc, hept⟩ := hmem
    by_cases hc0 : cbCtxt = 0
    · simp only [allocNs, NsMem.ctxts, if_pos hc0, if_pos (Or.inl hc0)]
      exact ⟨0, s, rfl, .null⟩
    by_cases hn0 : nsCtxt = 0
    · -- the first context is freed again
      have hback : Function.update (Function.update s.cbCtxt cbCtxt (some ⟨0, 0⟩)) cbCtxt none = s.cbCtxt := by
        rw [Function.update_idem, Function.update_eq_self_iff, hcbc hc0]
      simp only [allocNs, NsMem.ctxts, if_neg hc0, if_pos hn0, if_pos (Or.inr hn0), hback]
      exact ⟨0, s, rfl, .null⟩
    · simp only [allocNs, NsMem.ctxts, if_neg hc0, if_neg hn0, if_neg (not_or.2 ⟨hc0, hn0⟩)]
      obtain ⟨p, T, hcreate, hbound⟩ :=
        rpmsgNsBind_create (.dynamic cbCtxt nsCtxt ept node old) h hfuel (fun _ => hept) cbCtxt nsCtxt
      refine ⟨nsCtxt, _, congrArg (Option.map _) hcreate, ?_⟩
      simp only [Function.update_idem]
      exact hbound

/-- A list with a new entry in front is another list. -/
theorem EptTable.Holds.not_cons {T : EptTable} {x : EptEntry} (h : T.Holds L) : ¬ T.Holds (x :: L) := by
  intro hx
  have hhead : T.rlEndpoints = x.node := hx.chained.chain.1
  cases L with
  | nil =>
    have h0 : T.rlEndpoints = 0 := h.chained.chain
    exact hx.ne_zero List.mem_cons_self (hhead.symm.trans h0)
  | cons y L =>
    have hy : T.rlEndpoints = y.node := h.chained.chain.1
    have hnd := hx.chained.chain.nodup
    rw [List.map_cons, List.map_cons, ← hhead, ← hy] at hnd
    exact (List.nodup_cons.1 hnd).1 List.mem_cons_self

/-- A bind is right about its handle exactly where it got no contexts, or could create the endpoint. -/
theorem NsState.Bound.listens_iff {ctxts : Option (Nat × Nat)} {handle : Nat} {s' : NsState} (h : s.table.Holds L)
    (hctxts : ∀ c ∈ ctxts, c.2 ≠ 0) (hb : s.Bound L fuel nsRxCb appCb userData mem ctxts handle s') :
    (handle = 0 → s' = s) ∧
      ((handle ≠ 0 ↔ s'.Listens L nsRxCb appCb userData) ↔ ctxts = none ∨ mem.listens fuel s.table = true) := by
  cases hb with
  | null =>
    refine ⟨fun _ => rfl, iff_of_true (iff_of_false (fun h0 => h0 rfl) ?_) (Or.inl rfl)⟩
    rintro ⟨x, -, -, -, -, hx⟩
    exact h.not_cons hx
  | @deaf cbCtxt handle hl =>
    have hne : handle ≠ 0 := hctxts _ rfl
    refine ⟨fun h0 => absurd h0 hne, iff_of_false (fun hiff => ?_) ?_⟩
    · obtain ⟨x, -, -, -, -, hx⟩ := hiff.1 hne
      exact h.not_cons hx
    · rw [hl]
      rintro (h0 | h0) <;> cases h0
  | @listening cbCtxt handle ept node n T hl hp hptr hold heap =>
    have hne : handle ≠ 0 := hctxts _ rfl
    refine ⟨fun h0 => absurd h0 hne, iff_of_true (iff_of_true hne ?_) (Or.inr hl)⟩
    refine ⟨⟨node, ept, RL_NS_EPT_ADDR, nsRxCb, cbCtxt⟩, rfl, rfl, ?_, hptr, hold⟩
    exact Function.update_self _ _ _

theorem NsMem.ctxts_ne_zero (mem : NsMem) : ∀ c ∈ mem.ctxts, c.1 ≠ 0 ∧ c.2 ≠ 0 := by
  intro c hc
  cases mem with
  | static context =>
    simp only [NsMem.ctxts] at hc
    split at hc
    · cases hc
    · rename_i h0
      cases hc
      exact ⟨h0, h0⟩
  | dynamic cbCtxt nsCtxt ept node old =>
    simp only [NsMem.ctxts] at hc
    split at hc
    · cases hc
    · rename_i h0
      cases hc
      exact not_or.1 h0

end

/-! ## Bindings -/

/-- The kinds of memory that a binding owns. -/
inductive NsObj
  | node
  | ept
  | cbCtxt
  | nsCtxt

/-- What is allocated. -/
def NsState.Live (s : NsState) : NsObj → Nat → Prop
  | .node, p => (s.table.node p).isSome = true
  | .ept, p => (s.table.ept p).isSome = true
  | .cbCtxt, p => (s.cbCtxt p).isSome = true
  | .nsCtxt, p => (s.nsCtxt p).isSome = true

/-- A bind that returned a handle, and the endpoint that it created, if any. -/
structure NsBinding where
  handle : Nat
  cbCtxt : Nat
  entry : Option EptEntry

def NsBinding.owns (b : NsBinding) : NsObj → Option Nat
  | .node => b.entry.map EptEntry.node
  | .ept => b.entry.map EptEntry.ptr
  | .cbCtxt => some b.cbCtxt
  | .nsCtxt => some b.handle

/-- What `ns_ctxt->ept` holds. -/
def NsBinding.ept (b : NsBinding) : Nat := (b.owns .ept).getD 0

/-- The endpoints are those of the bindings before those there were, and so are the allocations; a static binding
allocates nothing. -/
structure NsState.With (s₀ : NsState) (L₀ : List EptEntry) (static : Bool) (Bs : List NsBinding) (s : NsState) : Prop where
  holds : s.table.Holds (Bs.filterMap NsBinding.entry ++ L₀)
  live : ∀ o q, s.Live o q ↔ s₀.Live o q ∨ static = false ∧ q ∈ Bs.filterMap fun b => b.owns o

/-- The bindings have memory of their own, and their contexts say where. -/
structure NsState.Owned (s₀ : NsState) (L₀ : List EptEntry) (static : Bool) (Bs : List NsBinding) (s : NsState) : Prop
    extends s₀.With L₀ static Bs s where
  handles : (Bs.map NsBinding.handle).Nodup
  ctxts : ∀ b ∈ Bs, s.nsCtxt b.handle = some ⟨b.ept, b.cbCtxt⟩ ∧ (s.cbCtxt b.cbCtxt).isSome = true
  entries : ∀ b ∈ Bs, ∀ x ∈ b.entry, x.addr = RL_NS_EPT_ADDR ∧ x.ptr ≠ 0 ∧ x.ptr ∉ L₀.map EptEntry.ptr
  fresh : static = false →
    ∀ o, (Bs.filterMap fun b => b.owns o).Nodup ∧ ∀ q ∈ Bs.filterMap fun b => b.owns o, ¬ s₀.Live o q
  inside : static = true → ∀ b ∈ Bs, ∀ o, ∀ q ∈ b.owns o, q = b.handle

section

variable {s₀ s s' : NsState} {L₀ : List EptEntry} {static : Bool} {Bs A B : List NsBinding} {b : NsBinding} {T : EptTable}

theorem isSome_update_some {α : Type} (f : Nat → Option α) (p q : Nat) (v : α) :
    (Function.update f p (some v) q).isSome = true ↔ (f q).isSome = true ∨ some p = some q := by
  rw [Option.some_inj]
  by_cases hq : q = p
  · subst hq
    rw [Function.update_self]
    exact iff_of_true rfl (Or.inr rfl)
  · rw [Function.update_of_ne hq, or_iff_left (Ne.symm hq)]

theorem isSome_update_none {α : Type} (f : Nat → Option α) (p q : Nat) :
    (Function.update f p none q).isSome = true ↔ (f q).isSome = true ∧ ¬ some p = some q := by
  rw [Option.some_inj]
  by_cases hq : q = p
  · subst hq
    rw [Function.update_self]
    exact iff_of_false Bool.false_ne_true fun h => h.2 rfl
  · rw [Function.update_of_ne hq, and_iff_left (Ne.symm hq)]

theorem filterMap_cons_toList {α β : Type} (f : α → Option β) (a : α) (l : List α) :
    (a :: l).filterMap f = (f a).toList ++ l.filterMap f := by
  rw [List.filterMap_cons]
  cases f a with
  | none => rfl
  | some b => rfl

/-- A bind allocates what its binding owns. -/
theorem NsState.bound_live (appCb userData : Nat)
    (hnode : ∀ q, (T.node q).isSome = true ↔ s.Live .node q ∨ b.owns .node = some q)
    (hept : ∀ q, (T.ept q).isSome = true ↔ s.Live .ept q ∨ b.owns .ept = some q) (o : NsObj) (q : Nat) :
    (s.bound T b.cbCtxt b.handle appCb userData b.ept).Live o q ↔ s.Live o q ∨ b.owns o = some q := by
  cases o with
  | node => exact hnode q
  | ept => exact hept q
  | cbCtxt => exact isSome_update_some _ _ _ _
  | nsCtxt => exact isSome_update_some _ _ _ _

/-- A new binding in front of the others. -/
theorem NsState.Owned.bound (h : s₀.Owned L₀ static Bs s) (appCb userData : Nat)
    (hold : T.Holds (b.entry.toList ++ (Bs.filterMap NsBinding.entry ++ L₀)))
    (hnode : ∀ q, (T.node q).isSome = true ↔ s.Live .node q ∨ b.owns .node = some q)
    (hept : ∀ q, (T.ept q).isSome = true ↔ s.Live .ept q ∨ b.owns .ept = some q)
    (hentry : ∀ x ∈ b.entry, x.addr = RL_NS_EPT_ADDR ∧ x.ptr ≠ 0 ∧ x.ptr ∉ L₀.map EptEntry.ptr)
    (hnew : static = false → ∀ o, ∀ q ∈ b.owns o, ¬ s.Live o q)
    (hstatic : static = true →
      b.handle ∉ Bs.map NsBinding.handle ∧ ∀ o, ∀ q ∈ b.owns o, q = b.handle ∧ s₀.Live o q) :
    s₀.Owned L₀ static (b :: Bs) (s.bound T b.cbCtxt b.handle appCb userData b.ept) := by
  have hlive := NsState.bound_live appCb userData hnode hept
  -- a context that is in use belongs to a binding already
  have hhandle : b.handle ∉ Bs.map NsBinding.handle := by
    cases static with
    | true => exact (hstatic rfl).1
    | false =>
      intro hm
      obtain ⟨b', hb', he⟩ := List.mem_map.1 hm
      refine hnew rfl .nsCtxt b.handle rfl ?_
      show (s.nsCtxt b.handle).isSome = true
      rw [← he, (h.ctxts b' hb').1]
      rfl
  have hobjs : ∀ o, (b :: Bs).filterMap (fun b => b.owns o) = (b.owns o).toList ++ Bs.filterMap fun b => b.owns o :=
    fun o => filterMap_cons_toList _ b Bs
  refine ⟨⟨?_, fun o q => ?_⟩, List.nodup_cons.2 ⟨hhandle, h.handles⟩, fun b' hb' => ?_, fun b' hb' => ?_,
    fun hs o => ?_, fun hs b' hb' => ?_⟩
  · rw [filterMap_cons_toList, List.append_assoc]
    exact hold
  · rw [hlive, h.live, hobjs, List.mem_append, Option.mem_toList]
    cases static with
    | true =>
      have : b.owns o = some q → s₀.Live o q := fun ho => ((hstatic rfl).2 o q ho).2
      simp only [Bool.true_eq_false, false_and, or_false]
      exact or_iff_left_of_imp this
    | false =>
      simp only [true_and]
      rw [or_assoc, or_comm (a := q ∈ _)]
  · rcases List.mem_cons.1 hb' with rfl | hb'
    · exact ⟨Function.update_self _ _ _, (isSome_update_some _ _ _ _).2 (Or.inr rfl)⟩
    · have hne : b'.handle ≠ b.handle := fun he => hhandle (he ▸ List.mem_map_of_mem hb')
      obtain ⟨hctx, hcb⟩ := h.ctxts b' hb'
      exact ⟨(Function.update_of_ne hne _ _).trans hctx, (isSome_update_some _ _ _ _).2 (Or.inl hcb)⟩
  · rcases List.mem_cons.1 hb' with rfl | hb'
    · exact hentry
    · exact h.entries b' hb'
  · obtain ⟨hnd, hfresh⟩ := h.fresh hs o
    rw [hobjs]
    refine ⟨List.nodup_append.2 ⟨?_, hnd, ?_⟩, fun q hq => ?_⟩
    · cases b.owns o with
      | none => exact List.nodup_nil
      | some q => exact List.nodup_singleton q
    · rintro q hq q' hq' rfl
      exact hnew hs o q (Option.mem_toList.1 hq) ((h.live o q).2 (Or.inr ⟨hs, hq'⟩))
    · rcases List.mem_append.1 hq with hq | hq
      · exact fun hl => hnew hs o q (Option.mem_toList.1 hq) ((h.live o q).2 (Or.inl hl))
      · exact hfresh q hq
  · rcases List.mem_cons.1 hb' with rfl | hb'
    · exact fun o q hq => ((hstatic hs).2 o q hq).1
    · exact h.inside hs b' hb'

/-- Without one of the bindings. -/
theorem NsState.Owned.removed (h : s₀.Owned L₀ static (A ++ b :: B) s)
    (hold : s'.table.Holds ((A ++ B).filterMap NsBinding.entry ++ L₀))
    (hlive : ∀ o q, s'.Live o q ↔ s.Live o q ∧ (static = false → ¬ b.owns o = some q))
    (hctxts : ∀ p, p ≠ b.handle → s'.nsCtxt p = s.nsCtxt p) : s₀.Owned L₀ static (A ++ B) s' := by
  have hsub : (A ++ B).Sublist (A ++ b :: B) := (List.sublist_cons_self b B).append_left A
  have hobjs : ∀ o, ((A ++ b :: B).filterMap fun b => b.owns o).Perm
      ((b.owns o).toList ++ (A ++ B).filterMap fun b => b.owns o) := by
    intro o
    rw [← filterMap_cons_toList (fun b : NsBinding => b.owns o) b]
    exact List.perm_middle.filterMap _
  have hhandle : b.handle ∉ (A ++ B).map NsBinding.handle := by
    have hnd := h.handles
    rw [List.map_append, List.map_cons, List.nodup_middle, ← List.map_append] at hnd
    exact (List.nodup_cons.1 hnd).1
  -- what the binding owned no other one does
  have hapart : static = false → ∀ o q, q ∈ (A ++ B).filterMap (fun b => b.owns o) → ¬ b.owns o = some q := by
    intro hs o q hq ho
    have hnd := (hobjs o).nodup_iff.1 (h.fresh hs o).1
    exact (List.nodup_append.1 hnd).2.2 q (Option.mem_toList.2 ho) q hq rfl
  refine ⟨⟨hold, fun o q => ?_⟩, h.handles.sublist (hsub.map _), fun b' hb' => ?_,
    fun b' hb' => h.entries b' (hsub.subset hb'), fun hs o => ?_, fun hs b' hb' => h.inside hs b' (hsub.subset hb')⟩
  · rw [hlive, h.live, (hobjs o).mem_iff, List.mem_append, Option.mem_toList]
    cases static with
    | true => simp only [Bool.true_eq_false, false_and, or_false, false_imp_iff, and_true]
    | false =>
      simp only [true_and, forall_const]
      constructor
      · rintro ⟨hl | ho | hq, hne⟩
        · exact Or.inl hl
        · exact absurd ho hne
        · exact Or.inr hq
      · rintro (hl | hq)
        · refine ⟨Or.inl hl, fun ho => (h.fresh rfl o).2 q ?_ hl⟩
          rw [(hobjs o).mem_iff, ho]
          exact List.mem_append_left _ List.mem_cons_self
        · exact ⟨Or.inr (Or.inr hq), hapart rfl o q hq⟩
  · have hne : b'.handle ≠ b.handle := fun he => hhandle (he ▸ List.mem_map_of_mem hb')
    obtain ⟨hctx, hcb⟩ := h.ctxts b' (hsub.subset hb')
    refine ⟨(hctxts _ hne).trans hctx, (hlive .cbCtxt _).2 ⟨hcb, fun hs => hapart hs .cbCtxt _ ?_⟩⟩
    exact List.mem_filterMap.2 ⟨b', hb', rfl⟩
  · obtain ⟨hnd, hfresh⟩ := h.fresh hs o
    have hnd' := (hobjs o).nodup_iff.1 hnd
    refine ⟨(List.nodup_append.1 hnd').2.1, fun q hq => hfresh q ?_⟩
    rw [(hobjs o).mem_iff]
    exact List.mem_append_right _ hq

end

/-! ## One call -/

/-- A static context is there from the start, and no other binding and no endpoint uses it. -/
def NsMem.Fits (static : Bool) (s₀ s : NsState) (L₀ : List EptEntry) (handles : List Nat) : NsMem → Prop
  | .dynamic cbCtxt nsCtxt ept node _ =>
    static = false ∧ (cbCtxt ≠ 0 → ¬ s.Live .cbCtxt cbCtxt) ∧ (nsCtxt ≠ 0 → ¬ s.Live .nsCtxt nsCtxt) ∧
      (ept ≠ 0 → ¬ s.Live .ept ept) ∧ (node ≠ 0 → ¬ s.Live .node node)
  | .static context =>
    static = true ∧ (context ≠ 0 →
      (∀ o, s₀.Live o context) ∧ context ∉ handles ∧ context ∉ L₀.map EptEntry.node ∧
      context ∉ L₀.map EptEntry.ptr)

section

variable {s₀ s : NsState} {L₀ : List EptEntry} {static : Bool} {Bs A B : List NsBinding} {b : NsBinding} {mem : NsMem}
  {fuel nsRxCb appCb userData : Nat}

/-- Only one binding can listen. -/
theorem NsState.Owned.entry_alone {x : EptEntry} (h : s₀.Owned L₀ static (A ++ b :: B) s) (hx : b.entry = some x) :
    (A ++ B).filterMap NsBinding.entry = [] ∧ s.table.Holds (x :: L₀) := by
  have hperm : ((A ++ b :: B).filterMap NsBinding.entry).Perm (x :: (A ++ B).filterMap NsBinding.entry) := by
    have hcons := filterMap_cons_toList NsBinding.entry b (A ++ B)
    rw [hx] at hcons
    exact (List.perm_middle.filterMap _).trans (List.Perm.of_eq hcons)
  -- a second endpoint would have the same address
  have hnil : (A ++ B).filterMap NsBinding.entry = [] := by
    refine List.eq_nil_iff_forall_not_mem.2 fun y hy => ?_
    have hnd : (((A ++ b :: B).filterMap NsBinding.entry).map EptEntry.addr).Nodup := by
      have haddrs := h.holds.addrs
      rw [List.map_append] at haddrs
      exact (List.nodup_append.1 haddrs).1
    obtain ⟨b', hb', hby⟩ := List.mem_filterMap.1 hy
    have hb'' : b' ∈ A ++ b :: B := ((List.sublist_cons_self b B).append_left A).subset hb'
    have hxa := (h.entries b (List.mem_append_right _ List.mem_cons_self) x hx).1
    have hya := (h.entries b' hb'' y hby).1
    rw [(hperm.map _).nodup_iff, List.map_cons, hxa, ← hya] at hnd
    exact (List.nodup_cons.1 hnd).1 (List.mem_map_of_mem hy)
  have hone : (A ++ b :: B).filterMap NsBinding.entry = [x] := by
    rw [hnil] at hperm
    exact List.perm_singleton.1 hperm
  refine ⟨hnil, ?_⟩
  have hold := h.holds
  rw [hone] at hold
  exact hold

theorem NsState.Owned.length_le (h : s₀.Owned L₀ static Bs s) :
    (Bs.filterMap NsBinding.entry ++ L₀).length ≤ L₀.length + 1 := by
  rw [List.length_append]
  by_cases hnil : Bs.filterMap NsBinding.entry = []
  · rw [hnil, List.length_nil]
    omega
  · obtain ⟨x, hx⟩ := List.exists_mem_of_ne_nil _ hnil
    obtain ⟨b, hb, hbx⟩ := List.mem_filterMap.1 hx
    obtain ⟨A, B, rfl⟩ := List.append_of_mem hb
    have hrest := (h.entry_alone hbx).1
    have hlen := ((@List.perm_middle _ b A B).filterMap NsBinding.entry).length_eq
    rw [filterMap_cons_toList, hrest, hbx] at hlen
    rw [hlen]
    exact Nat.le_of_eq (Nat.add_comm _ _)

/-- `env_free_memory` of the contexts of a binding. -/
theorem freeNs_eq (h : s₀.Owned L₀ static (A ++ b :: B) s) (T : EptTable) :
    freeNs { s with table := T } b.cbCtxt b.handle =
      some ⟨T, Function.update s.cbCtxt b.cbCtxt none, Function.update s.nsCtxt b.handle none⟩ := by
  obtain ⟨hctx, hcb⟩ := h.ctxts b (List.mem_append_right _ List.mem_cons_self)
  unfold freeNs
  rw [if_pos]
  rw [Bool.and_eq_true]
  refine ⟨hcb, ?_⟩
  show (s.nsCtxt b.handle).isSome = true
  rw [hctx]
  rfl

/-- An unbind after its destroy. -/
theorem rpmsgNsUnbind_eq (h : s₀.Owned L₀ static (A ++ b :: B) s) {r : Int} {T : EptTable}
    (hd : rpmsgLiteDestroyEpt fuel s.table static b.ept = some (r, T)) :
    rpmsgNsUnbind fuel s static b.handle = some (r, if static then ⟨T, s.cbCtxt, s.nsCtxt⟩
      else ⟨T, Function.update s.cbCtxt b.cbCtxt none, Function.update s.nsCtxt b.handle none⟩) := by
  obtain ⟨hctx, -⟩ := h.ctxts b (List.mem_append_right _ List.mem_cons_self)
  unfold rpmsgNsUnbind
  rw [hctx, Option.bind_some, hd, Option.bind_some]
  cases static with
  | true => rfl
  | false => exact congrArg (Option.map _) (freeNs_eq h T)

/-- An unbind takes its binding out, and succeeds where the binding listens. -/
theorem NsState.Owned.unbind (h : s₀.Owned L₀ static (A ++ b :: B) s) (hfuel : L₀.length < fuel) :
    ∃ r s', rpmsgNsUnbind fuel s static b.handle = some (r, s') ∧ (r = RL_SUCCESS ↔ b.entry.isSome = true) ∧
      s₀.Owned L₀ static (A ++ B) s' := by
  have hmem : b ∈ A ++ b :: B := List.mem_append_right _ List.mem_cons_self
  -- the endpoint's part, for either result
  obtain ⟨r, T, hd, hr, hold, hnode, hept⟩ : ∃ r T, rpmsgLiteDestroyEpt fuel s.table static b.ept = some (r, T) ∧
      (r = RL_SUCCESS ↔ b.entry.isSome = true) ∧ T.Holds ((A ++ B).filterMap NsBinding.entry ++ L₀) ∧
      (∀ q, (T.node q).isSome = true ↔ s.Live .node q ∧ (static = false → ¬ b.owns .node = some q)) ∧
      ∀ q, (T.ept q).isSome = true ↔ s.Live .ept q ∧ (static = false → ¬ b.owns .ept = some q) := by
    cases he : b.entry with
    | none =>
      -- the context holds no endpoint, and the destroy refuses NULL
      have h0 : b.ept = 0 := by rw [NsBinding.ept, NsBinding.owns, he]; rfl
      refine ⟨RL_ERR_PARAM, s.table, ?_, iff_of_false (by decide) Bool.false_ne_true, ?_, fun q => ?_, fun q => ?_⟩
      · unfold rpmsgLiteDestroyEpt
        rw [if_pos h0]
      · have hold := h.holds
        rw [List.filterMap_append, List.filterMap_cons_none he, ← List.filterMap_append] at hold
        exact hold
      · rw [NsBinding.owns, he]
        exact (and_iff_left fun _ => Option.some_ne_none _ ∘ Eq.symm).symm
      · rw [NsBinding.owns, he]
        exact (and_iff_left fun _ => Option.some_ne_none _ ∘ Eq.symm).symm
    | some x =>
      have hx : b.ept = x.ptr := by rw [NsBinding.ept, NsBinding.owns, he]; rfl
      obtain ⟨hnil, hold⟩ := h.entry_alone he
      obtain ⟨-, hne, hptr⟩ := h.entries b hmem x he
      have hcar := (hold.chained.carries x List.mem_cons_self).ept
      obtain ⟨T₁, -, hrel, -, hd⟩ := rpmsgLiteDestroyEpt_found (A := []) hold hfuel hne hcar rfl static
      obtain ⟨T₂, hd', hhold⟩ := rpmsgLiteDestroyEpt_spec (A := []) hold hfuel hne hptr static
      obtain rfl : T₁.freed static x.node x.ptr = T₂ := congrArg Prod.snd (Option.some.inj (hd.symm.trans hd'))
      rw [hnil, hx]
      refine ⟨RL_SUCCESS, _, hd, iff_of_true rfl rfl, hhold, fun q => ?_, fun q => ?_⟩
      · rw [NsBinding.owns, he]
        have hsome : (T₁.node q).isSome = (s.table.node q).isSome := hrel.isSome q
        cases static with
        | true =>
          show (T₁.node q).isSome = true ↔ _
          rw [hsome]
          exact (and_iff_left fun hs => absurd hs (by decide)).symm
        | false =>
          refine (isSome_update_none _ _ _).trans ?_
          rw [hsome, forall_prop_of_true rfl]
          rfl
      · rw [NsBinding.owns, he]
        have hsome : T₁.ept = s.table.ept := hrel.ept
        cases static with
        | true =>
          show (T₁.ept q).isSome = true ↔ _
          rw [hsome]
          exact (and_iff_left fun hs => absurd hs (by decide)).symm
        | false =>
          refine (isSome_update_none _ _ _).trans ?_
          rw [hsome, forall_prop_of_true rfl]
          rfl
  refine ⟨r, _, rpmsgNsUnbind_eq h hd, hr, h.removed ?_ (fun o q => ?_) fun p hp => ?_⟩
  · cases static with
    | true => exact hold
    | false => exact hold
  · cases static with
    | true =>
      cases o with
      | node => exact hnode q
      | ept => exact hept q
      | cbCtxt => exact (and_iff_left fun hs => absurd hs (by decide)).symm
      | nsCtxt => exact (and_iff_left fun hs => absurd hs (by decide)).symm
    | false =>
      cases o with
      | node => exact hnode q
      | ept => exact hept q
      | cbCtxt =>
        refine (isSome_update_none _ _ _).trans ?_
        rw [forall_prop_of_true rfl]
        rfl
      | nsCtxt =>
        refine (isSome_update_none _ _ _).trans ?_
        rw [forall_prop_of_true rfl]
        rfl
  · cases static with
    | true => rfl
    | false => exact Function.update_of_ne hp _ _

end

/-! ## Runs -/

section

variable {s₀ s s' : NsState} {L₀ : List EptEntry} {static : Bool} {Bs : List NsBinding} {handles : List Nat} {mem : NsMem}
  {fuel nsRxCb appCb userData handle cbCtxt : Nat} {e : Option EptEntry}

/-- What the binding of a call owns is the memory of that call. -/
theorem NsMem.Fits.owns (hmem : mem.Fits static s₀ s L₀ handles) (hc : mem.ctxts = some (cbCtxt, handle))
    (he : ∀ x ∈ e, mem.eptMem.ptrs = some (x.ptr, x.node)) :
    (static = false → ∀ o, ∀ q ∈ (NsBinding.mk handle cbCtxt e).owns o, ¬ s.Live o q) ∧
      (static = true →
        handle ∉ handles ∧ ∀ o, ∀ q ∈ (NsBinding.mk handle cbCtxt e).owns o, q = handle ∧ s₀.Live o q) := by
  cases mem with
  | static context =>
    obtain ⟨rfl, hctx⟩ := hmem
    refine ⟨fun hs => absurd hs (by decide), fun _ => ?_⟩
    simp only [NsMem.ctxts] at hc
    split at hc
    · cases hc
    rename_i h0
    obtain ⟨rfl, rfl⟩ : context = cbCtxt ∧ context = handle := Prod.mk.inj (Option.some.inj hc)
    obtain ⟨hlive, hnot, -⟩ := hctx h0
    have hplace : ∀ x ∈ e, x.ptr = context ∧ x.node = context := by
      intro x hx
      have hp := he x hx
      simp only [NsMem.eptMem, EptMem.ptrs, if_neg h0] at hp
      obtain ⟨hptr, hnode⟩ := Prod.mk.inj (Option.some.inj hp)
      exact ⟨hptr.symm, hnode.symm⟩
    refine ⟨hnot, fun o q hq => ?_⟩
    have hq' : q = context := by
      cases o with
      | node =>
        obtain ⟨x, hx, rfl⟩ := Option.map_eq_some_iff.1 hq
        exact (hplace x hx).2
      | ept =>
        obtain ⟨x, hx, rfl⟩ := Option.map_eq_some_iff.1 hq
        exact (hplace x hx).1
      | cbCtxt => exact (Option.some.inj hq).symm
      | nsCtxt => exact (Option.some.inj hq).symm
    subst hq'
    exact ⟨rfl, hlive o⟩
  | dynamic cbCtxt' nsCtxt ept node old =>
    obtain ⟨rfl, hcb, hns, hept, hnode⟩ := hmem
    refine ⟨fun _ o q hq => ?_, fun hs => absurd hs (by decide)⟩
    simp only [NsMem.ctxts] at hc
    split at hc
    · cases hc
    rename_i h0
    cases hc
    have hplace : ∀ x ∈ e, (x.ptr = ept ∧ ept ≠ 0) ∧ x.node = node ∧ node ≠ 0 := by
      intro x hx
      have hp := he x hx
      obtain ⟨hept0, hnode0⟩ := EptMem.ptrs_ne_zero _ _ hp
      simp only [NsMem.eptMem, EptMem.ptrs] at hp
      split at hp
      · cases hp
      obtain ⟨rfl, rfl⟩ : ept = x.ptr ∧ node = x.node := Prod.mk.inj (Option.some.inj hp)
      exact ⟨⟨rfl, hept0⟩, rfl, hnode0⟩
    cases o with
    | node =>
      obtain ⟨x, hx, rfl⟩ := Option.map_eq_some_iff.1 hq
      obtain ⟨-, rfl, hne⟩ := hplace x hx
      exact hnode hne
    | ept =>
      obtain ⟨x, hx, rfl⟩ := Option.map_eq_some_iff.1 hq
      obtain ⟨⟨rfl, hne⟩, -⟩ := hplace x hx
      exact hept hne
    | cbCtxt =>
      obtain rfl : cbCtxt = q := Option.some.inj hq
      exact hcb fun h => h0 (Or.inl h)
    | nsCtxt =>
      obtain rfl : handle = q := Option.some.inj hq
      exact hns fun h => h0 (Or.inr h)

/-- The memory of a call is in no use. -/
theorem NsState.Owned.unused (h : s₀.Owned L₀ static Bs s) (hmem : mem.Fits static s₀ s L₀ (Bs.map NsBinding.handle)) :
    mem.Unused s (Bs.filterMap NsBinding.entry ++ L₀) := by
  cases mem with
  | static context =>
    obtain ⟨rfl, hctx⟩ := hmem
    intro _ h0
    obtain ⟨hlive, hnot, hnode, hptr⟩ := hctx h0
    -- every endpoint of a static binding lies in its own context
    have hinside : ∀ x ∈ Bs.filterMap NsBinding.entry, x.node ≠ context ∧ x.ptr ≠ context := by
      intro x hx
      obtain ⟨b, hb, hbx⟩ := List.mem_filterMap.1 hx
      have hne : b.handle ≠ context := fun he => hnot (he ▸ List.mem_map_of_mem hb)
      have hn : x.node = b.handle := h.inside rfl b hb .node x.node (by rw [NsBinding.owns, hbx]; rfl)
      have hp : x.ptr = b.handle := h.inside rfl b hb .ept x.ptr (by rw [NsBinding.owns, hbx]; rfl)
      rw [hn, hp]
      exact ⟨hne, hne⟩
    refine ⟨(h.live .node context).2 (Or.inl (hlive .node)), ?_, ?_⟩
    · rw [List.map_append, List.mem_append, not_or]
      refine ⟨fun hm => ?_, hnode⟩
      obtain ⟨x, hx, he⟩ := List.mem_map.1 hm
      exact (hinside x hx).1 he
    · rw [List.map_append, List.mem_append, not_or]
      refine ⟨fun hm => ?_, hptr⟩
      obtain ⟨x, hx, he⟩ := List.mem_map.1 hm
      exact (hinside x hx).2 he
  | dynamic cbCtxt nsCtxt ept node old =>
    obtain ⟨-, hcb, hns, hept, hnode⟩ := hmem
    simp only [Live, Option.isSome_iff_ne_none, ne_eq, not_not] at hcb hns hept hnode
    exact ⟨hcb, hns, hept, hnode⟩

/-- A bind changes nothing, or adds a binding, which listens where it could. -/
theorem NsState.Owned.bind (h : s₀.Owned L₀ static Bs s) (hfuel : L₀.length < fuel)
    (hmem : mem.Fits static s₀ s L₀ (Bs.map NsBinding.handle))
    (hb : rpmsgNsBind fuel s nsRxCb appCb userData mem = some (handle, s')) :
    handle = 0 ∧ s' = s ∨
      handle ≠ 0 ∧ ∃ cbCtxt e, e.isSome = mem.listens fuel s.table ∧
        s₀.Owned L₀ static (⟨handle, cbCtxt, e⟩ :: Bs) s' := by
  by_cases hcb : appCb = 0
  · unfold rpmsgNsBind at hb
    rw [if_pos hcb] at hb
    cases hb
    exact Or.inl ⟨rfl, rfl⟩
  obtain ⟨handle', s'', hb', hbound⟩ := rpmsgNsBind_spec h.holds (h.length_le.trans hfuel) (h.unused hmem) hcb
  obtain ⟨rfl, rfl⟩ : handle' = handle ∧ s'' = s' := Prod.mk.inj (Option.some.inj (hb'.symm.trans hb))
  have hne := mem.ctxts_ne_zero
  generalize hc : mem.ctxts = ctxts at hbound hne
  cases hbound with
  | null => exact Or.inl ⟨rfl, rfl⟩
  | @deaf cbCtxt handle hl =>
    obtain ⟨hnew, hstatic⟩ := hmem.owns (e := none) hc fun _ hx => nomatch hx
    refine Or.inr ⟨(hne _ rfl).2, cbCtxt, none, hl.symm, ?_⟩
    refine h.bound appCb userData h.holds (fun q => ?_) (fun q => ?_) (fun _ hx => nomatch hx) hnew hstatic
    · exact (or_iff_left nofun).symm
    · exact (or_iff_left nofun).symm
  | @listening cbCtxt handle ept node n T hl hp hptr hold heap =>
    -- the endpoint and its node lie in the memory of this call
    have hptrs : ∀ x ∈ some (EptEntry.mk node ept ⟨RL_NS_EPT_ADDR, nsRxCb, cbCtxt⟩),
      mem.eptMem.ptrs = some (x.ptr, x.node) := by
      rintro x ⟨⟩
      exact hp
    obtain ⟨hnew, hstatic⟩ := hmem.owns hc hptrs
    refine Or.inr ⟨(hne _ rfl).2, cbCtxt, some ⟨node, ept, RL_NS_EPT_ADDR, nsRxCb, cbCtxt⟩, hl.symm, ?_⟩
    refine h.bound appCb userData hold (fun q => ?_) (fun q => ?_) ?_ hnew hstatic
    · rw [heap.isSome]
      exact isSome_update_some _ _ _ _
    · rw [show T.ept = _ from heap.ept]
      exact isSome_update_some _ _ _ _
    · rintro x ⟨⟩
      refine ⟨rfl, ?_, fun hm => hptr ?_⟩
      · exact (mem.eptMem.ptrs_ne_zero _ hp).1
      · rw [List.map_append]
        exact List.mem_append_right _ hm

end

/-- Binds and unbinds from `s₀` on, with the endpoints `L₀`. A handle that was returned and not yet given back stands
beside whether its bind could listen. -/
inductive NsRun (fuel nsRxCb : Nat) (static : Bool) (s₀ : NsState) (L₀ : List EptEntry) :
    List (Nat × Bool) → NsState → Prop
  | start : NsRun fuel nsRxCb static s₀ L₀ [] s₀
  | bind {H : List (Nat × Bool)} {s s' : NsState} {appCb userData handle : Nat} {mem : NsMem}
      (h : NsRun fuel nsRxCb static s₀ L₀ H s) (hmem : mem.Fits static s₀ s L₀ (H.map Prod.fst))
      (hb : rpmsgNsBind fuel s nsRxCb appCb userData mem = some (handle, s')) :
      NsRun fuel nsRxCb static s₀ L₀ (if handle = 0 then H else (handle, mem.listens fuel s.table) :: H) s'
  | unbind {A B : List (Nat × Bool)} {s s' : NsState} {handle : Nat} {listens : Bool} {r : Int}
      (h : NsRun fuel nsRxCb static s₀ L₀ (A ++ (handle, listens) :: B) s)
      (hu : rpmsgNsUnbind fuel s static handle = some (r, s')) : NsRun fuel nsRxCb static s₀ L₀ (A ++ B) s'

/-- A binding as the application sees it. -/
def NsBinding.toHandle (b : NsBinding) : Nat × Bool := (b.handle, b.entry.isSome)

section

variable {s₀ s : NsState} {L₀ : List EptEntry} {static : Bool} {fuel nsRxCb : Nat} {H : List (Nat × Bool)}

theorem NsState.Owned.start (h : s₀.table.Holds L₀) (static : Bool) : s₀.Owned L₀ static [] s₀ where
  holds := h
  live _ _ := (or_iff_left fun hq => absurd hq.2 List.not_mem_nil).symm
  handles := List.nodup_nil
  ctxts _ hb := absurd hb List.not_mem_nil
  entries _ hb := absurd hb List.not_mem_nil
  fresh _ _ := ⟨List.nodup_nil, fun _ hq => absurd hq List.not_mem_nil⟩
  inside _ _ hb := absurd hb List.not_mem_nil

/-- Every run leads to the start with the bindings whose handles are out. -/
theorem NsRun.owned (h₀ : s₀.table.Holds L₀) (hfuel : L₀.length < fuel) (h : NsRun fuel nsRxCb static s₀ L₀ H s) :
    ∃ Bs, Bs.map NsBinding.toHandle = H ∧ s₀.Owned L₀ static Bs s := by
  induction h with
  | start => exact ⟨[], rfl, .start h₀ static⟩
  | @bind H s s' appCb userData handle mem _ hmem hb ih =>
    obtain ⟨Bs, rfl, howned⟩ := ih
    rw [List.map_map] at hmem
    rcases howned.bind hfuel hmem hb with ⟨rfl, rfl⟩ | ⟨hne, cbCtxt, e, he, howned'⟩
    · exact ⟨Bs, rfl, howned⟩
    · refine ⟨⟨handle, cbCtxt, e⟩ :: Bs, ?_, howned'⟩
      rw [if_neg hne, ← he]
      rfl
  | @unbind A B s s' handle listens r _ hu ih =>
    obtain ⟨Bs, hBs, howned⟩ := ih
    -- the handles out are those of the bindings, so the one given back splits them at its binding
    obtain ⟨A', C, rfl, rfl, hC⟩ := List.map_eq_append_iff.1 hBs
    obtain ⟨b, B', rfl, hb, rfl⟩ := List.map_eq_cons_iff.1 hC
    obtain ⟨r', s'', hu', -, howned'⟩ := howned.unbind hfuel
    rw [show b.handle = handle from congrArg Prod.fst hb, hu] at hu'
    cases hu'
    exact ⟨A' ++ B', List.map_append, howned'⟩

end

/-- A bind returns, without a handle only where nothing changes; handle and endpoint go together exactly where it got no
contexts or could listen. After every run of binds and unbinds the unbind of a handle returns and takes its binding's
endpoint and memory out, and it succeeds exactly where the bind of that handle could listen. -/
theorem ns_bind_right_iff (fuel nsRxCb : Nat) :
    (∀ (s : NsState) (L : List EptEntry) (mem : NsMem) (appCb userData : Nat), s.table.Holds L → L.length ≤ fuel →
      mem.Unused s L → appCb ≠ 0 → ∃ handle s', rpmsgNsBind fuel s nsRxCb appCb userData mem = some (handle, s') ∧
        (handle = 0 → s' = s) ∧
        ((handle ≠ 0 ↔ s'.Listens L nsRxCb appCb userData) ↔ mem.ctxts = none ∨ mem.listens fuel s.table = true)) ∧
      ∀ (static : Bool) (s₀ s : NsState) (L₀ : List EptEntry) (H : List (Nat × Bool)), s₀.table.Holds L₀ →
        L₀.length < fuel →
        NsRun fuel nsRxCb static s₀ L₀ H s → ∃ Bs, Bs.map NsBinding.toHandle = H ∧ s₀.With L₀ static Bs s ∧
          ∀ A b B, Bs = A ++ b :: B → ∃ r s', rpmsgNsUnbind fuel s static b.handle = some (r, s') ∧
            s₀.With L₀ static (A ++ B) s' ∧ (r = RL_SUCCESS ↔ b.toHandle.2 = true) := by
  constructor
  · intro s L mem appCb userData h hfuel hmem hcb
    obtain ⟨handle, s', hb, hbound⟩ := rpmsgNsBind_spec h hfuel hmem hcb
    exact ⟨handle, s', hb, hbound.listens_iff h fun c hc => (mem.ctxts_ne_zero c hc).2⟩
  · intro static s₀ s L₀ H h₀ hfuel hrun
    obtain ⟨Bs, hBs, howned⟩ := hrun.owned h₀ hfuel
    refine ⟨Bs, hBs, howned.toWith, ?_⟩
    rintro A b B rfl
    obtain ⟨r, s', hu, hr, howned'⟩ := howned.unbind hfuel
    exact ⟨r, s', hu, howned'.toWith, hr⟩

/-! ## An instance without endpoints, and one with an endpoint at the address -/

def nsEmpty : NsState := ⟨⟨0, fun _ => none, fun _ => none⟩, fun _ => none, fun _ => none⟩

theorem nsEmpty_holds : nsEmpty.table.Holds [] := ⟨⟨rfl, fun _ h => absurd h List.not_mem_nil⟩, .nil, List.nodup_nil⟩

/-- Four allocations that succeed. -/
def nsMem : NsMem := .dynamic 0x100 0x200 0x300 0x400 ⟨0, 0, 0⟩

/-- A bind that gets all its memory, and its unbind. -/
theorem ns_bind_right_iff_empty : ∃ s, rpmsgNsBind 1 nsEmpty 9 7 0 nsMem = some (0x200, s) ∧ s.Listens [] 9 7 0 ∧
    ∃ r s', rpmsgNsUnbind 1 s false 0x200 = some (r, s') ∧ nsEmpty.With [] false [] s' ∧ r = RL_SUCCESS := by
  obtain ⟨hbind, hrun⟩ := ns_bind_right_iff 1 9
  obtain ⟨handle, s, hb, -, hiff⟩ := hbind nsEmpty [] nsMem 7 0 nsEmpty_holds (by decide)
    ⟨fun _ => rfl, fun _ => rfl, fun _ => rfl, fun _ => rfl⟩ (by decide)
  obtain rfl : handle = 0x200 := congrArg (Option.map Prod.fst) hb.symm |> Option.some.inj
  have hfits : nsMem.Fits false nsEmpty nsEmpty [] [] := by
    refine ⟨rfl, fun _ => ?_, fun _ => ?_, fun _ => ?_, fun _ => ?_⟩
    all_goals exact Bool.false_ne_true
  have hr : NsRun 1 9 false nsEmpty [] _ s := .bind .start hfits hb
  obtain ⟨Bs, hBs, -, hunbind⟩ := hrun false nsEmpty s [] _ nsEmpty_holds (by decide) hr
  obtain ⟨b, B, rfl, hbh, hB⟩ := List.map_eq_cons_iff.1 hBs
  obtain rfl := List.map_eq_nil_iff.1 hB
  obtain ⟨r, s', hu, hwith, hsucc⟩ := hunbind [] b [] rfl
  rw [show b.handle = 0x200 from congrArg Prod.fst hbh] at hu
  refine ⟨s, hb, (hiff.2 (Or.inr rfl)).1 (by decide), r, s', hu, hwith, hsucc.2 ?_⟩
  rw [hbh]
  rfl

/-- An endpoint of the application has the address of the name service. -/
def nsTaken : NsState where
  table := ⟨0x20, fun p => if p = 0x20 then some ⟨0x10, 0, 0⟩ else none,
    fun p => if p = 0x10 then some ⟨0x35, 1, 0⟩ else none⟩
  cbCtxt _ := none
  nsCtxt _ := none

theorem nsTaken_holds : nsTaken.table.Holds [⟨0x20, 0x10, 0x35, 1, 0⟩] := by
  refine ⟨⟨⟨rfl, by decide, 0, rfl, rfl⟩, fun x hx => ?_⟩, .singleton _, List.nodup_singleton _⟩
  obtain rfl := List.mem_singleton.1 hx
  exact ⟨rfl, rfl⟩

/-- Where the address is taken, or the endpoint gets no memory, there is a handle and no new endpoint, and the unbind
fails. -/
theorem ns_bind_deaf :
    (∃ s, rpmsgNsBind 2 nsTaken 9 7 0 nsMem = some (0x200, s) ∧ ¬ s.Listens [⟨0x20, 0x10, 0x35, 1, 0⟩] 9 7 0 ∧
      (rpmsgNsUnbind 2 s false 0x200).map Prod.fst = some RL_ERR_PARAM) ∧
    ∃ s, rpmsgNsBind 2 nsEmpty 9 7 0 (.dynamic 0x100 0x200 0 0 ⟨0, 0, 0⟩) = some (0x200, s) ∧ ¬ s.Listens [] 9 7 0 ∧
      (rpmsgNsUnbind 2 s false 0x200).map Prod.fst = some RL_ERR_PARAM := by
  constructor
  · refine ⟨_, rfl, ?_, rfl⟩
    rintro ⟨x, -, -, -, -, hx⟩
    exact nsTaken_holds.not_cons hx
  · refine ⟨_, rfl, ?_, rfl⟩
    rintro ⟨x, -, -, -, -, hx⟩
    exact nsEmpty_holds.not_cons hx

end RpmsgLite
