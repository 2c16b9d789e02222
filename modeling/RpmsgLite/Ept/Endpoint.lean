/-
`rpmsg_lite_create_ept` and `rpmsg_lite_destroy_ept` on the endpoint list. What the allocator returns, or
the caller's static context, is an argument. Both functions are shown to return for every list they can
meet, and to add or take out exactly one entry or to leave everything as it was.
-/
import RpmsgLite.Ept.ListSteps
import RpmsgLite.Link.Ops
import Mathlib.Order.Bounds.Basic
import Mathlib.Data.List.Perm.Subperm

namespace RpmsgLite

def RL_ADDR_ANY : UInt32 := 0xFFFFFFFF
def RL_ERR_PARAM : Int := -5003

/-! ## The functions -/

/-- Where the new endpoint and its node lie: what two calls of `env_allocate_memory` return, with what
the node's memory held, or the static context, which both are part of. Null is 0. -/
inductive EptMem
  | dynamic (ept node : Nat) (old : LList)
  | static (context : Nat)
deriving DecidableEq

section

variable (fuel : Nat) (T : EptTable)

/-- The loop over the addresses: the first that is not in use, or `RL_ADDR_ANY`. -/
def findFreeAddr : Nat → UInt32 → Option UInt32
  | 0, _ => some RL_ADDR_ANY
  | n + 1, i => (rpmsgLiteGetEndpointFromAddr fuel T i).bind fun node => if node = 0 then some i else findFreeAddr n (i + 1)

/-- The address of the new endpoint; the inner `none` is the NULL return. -/
def chooseAddr (addr : UInt32) : Option (Option UInt32) :=
  if addr = RL_ADDR_ANY then
    (findFreeAddr fuel T 0xFFFFFFFE 1).map fun a => if a = RL_ADDR_ANY then none else some a
  else
    (rpmsgLiteGetEndpointFromAddr fuel T addr).map fun node => if node ≠ 0 then none else some addr

/-- The allocations of `rpmsg_lite_create_ept`: the endpoint and the node, or NULL. The endpoint's own
memory is overwritten before it is read. -/
def allocEpt : EptMem → Option (Nat × Nat) × EptTable
  | .static context => if context = 0 then (none, T) else (some (context, context), T)
  | .dynamic ept node old =>
    if ept = 0 then (none, T)
    else
      let T := { T with ept := Function.update T.ept ept (some ⟨0, 0, 0⟩) }
      if node = 0 then (none, { T with ept := Function.update T.ept ept none })
      else (some (ept, node), { T with node := Function.update T.node node (some old) })

/-- `rpmsg_lite_create_ept` up to the call of `add_to_list`: the endpoint and the node, or NULL. -/
def createEptPrepare (addr : UInt32) (rxCb rxCbData : Nat) (mem : EptMem) : Option (Option (Nat × Nat) × EptTable) :=
  (chooseAddr fuel T addr).bind fun
    | none => some (none, T)
    | some addr =>
      match allocEpt T mem with
      | (none, T) => some (none, T)
      | (some (ept, node), T) =>
        let T := { T with ept := Function.update T.ept ept (some ⟨addr, rxCb, rxCbData⟩) }
        (T.setNode node fun n => { n with data := ept }).map fun T => (some (ept, node), T)

/-- `rpmsg_lite_create_ept` -/
def rpmsgLiteCreateEpt (addr : UInt32) (rxCb rxCbData : Nat) (mem : EptMem) : Option (Nat × EptTable) :=
  (createEptPrepare fuel T addr rxCb rxCbData mem).bind fun
    | (none, T) => some (0, T)
    | (some (ept, node), T) => (Stmt.run (addToList T node) T).map fun T => (ept, T)

/-- `env_free_memory` of a node and of an endpoint. -/
def freeEpt (node ept : Nat) : Option EptTable :=
  if (T.node node).isSome && (T.ept ept).isSome then
    some { T with node := Function.update T.node node none, ept := Function.update T.ept ept none }
  else none

/-- `rpmsg_lite_destroy_ept` up to the call of `remove_from_list`: the node, or null. -/
def destroyEptFind (ept : Nat) : Option Nat :=
  (T.ept ept).bind fun e => rpmsgLiteGetEndpointFromAddr fuel T e.addr

/-- `rpmsg_lite_destroy_ept`; only the dynamic variant frees. -/
def rpmsgLiteDestroyEpt (static : Bool) (ept : Nat) : Option (Int × EptTable) :=
  if ept = 0 then some (RL_ERR_PARAM, T)
  else
    (destroyEptFind fuel T ept).bind fun node =>
      if node = 0 then some (RL_ERR_PARAM, T)
      else
        (Stmt.run (removeFromList T node) T).bind fun T =>
          if static then some (RL_SUCCESS, T) else (freeEpt T node ept).map fun T => (RL_SUCCESS, T)

end

/-! ## Addresses -/

variable {T T' : EptTable} {L : List EptEntry} {x : EptEntry} {fuel : Nat} {addr : UInt32}

theorem EptTable.Holds.get (h : T.Holds L) (hfuel : L.length ≤ fuel) (addr : UInt32) :
    rpmsgLiteGetEndpointFromAddr fuel T addr = some (boundNode L addr) := (h.chained.lookup hfuel).1

theorem EptTable.Holds.boundNode_eq_zero (h : T.Holds L) : boundNode L addr = 0 ↔ addr ∉ L.map EptEntry.addr := by
  unfold boundNode
  constructor
  · intro h0 hmem
    obtain ⟨x, hx, rfl⟩ := List.mem_map.1 hmem
    split at h0
    · rename_i hnone
      simpa using List.find?_eq_none.1 hnone x hx
    · rename_i y hy
      exact h.ne_zero (List.mem_of_find?_eq_some hy) h0
  · intro hmem
    rw [List.find?_eq_none.2 fun x hx => by
      rw [decide_eq_true_iff]
      rintro rfl
      exact hmem (List.mem_map_of_mem hx)]

/-- The node found for an entry's address is its own. -/
theorem EptTable.Holds.boundNode_addr (h : T.Holds L) (hx : x ∈ L) : boundNode L x.addr = x.node := by
  unfold boundNode
  cases hf : L.find? fun y => y.addr = x.addr with
  | none => simpa using List.find?_eq_none.1 hf x hx
  | some y =>
    have hy := List.find?_some hf
    rw [decide_eq_true_iff] at hy
    rw [List.inj_on_of_nodup_map h.addrs (List.mem_of_find?_eq_some hf) hx hy]

/-- What the address loop finds from `i` on. -/
theorem findFreeAddr_spec (h : T.Holds L) (hfuel : L.length ≤ fuel) : ∀ {n : Nat} {i : UInt32},
    i.toNat + n = RL_ADDR_ANY.toNat → ∃ a, findFreeAddr fuel T n i = some a ∧ i ≤ a ∧
      (∀ b, i ≤ b → b < a → b ∈ L.map EptEntry.addr) ∧ (a ≠ RL_ADDR_ANY → a ∉ L.map EptEntry.addr)
  | 0, i, hi => by
    obtain rfl : i = RL_ADDR_ANY := UInt32.toNat_inj.1 hi
    exact ⟨RL_ADDR_ANY, rfl, UInt32.le_refl _, fun b h1 h2 => absurd h1 (UInt32.not_le.2 h2), fun hne => absurd rfl hne⟩
  | n + 1, i, hi => by
    have hany : RL_ADDR_ANY.toNat = 4294967295 := rfl
    simp only [findFreeAddr, h.get hfuel, Option.bind_some]
    by_cases h0 : boundNode L i = 0
    · rw [if_pos h0]
      exact ⟨i, rfl, UInt32.le_refl _, fun b h1 h2 => absurd h1 (UInt32.not_le.2 h2), fun _ => h.boundNode_eq_zero.1 h0⟩
    · rw [if_neg h0]
      have hsucc : (i + 1).toNat = i.toNat + 1 := by
        rw [UInt32.toNat_add]; exact Nat.mod_eq_of_lt (by simp; omega)
      obtain ⟨a, ha, hle, hused, hfree⟩ := findFreeAddr_spec h hfuel (i := i + 1) (n := n) (by omega)
      refine ⟨a, ha, UInt32.le_iff_toNat_le.2 (by have := UInt32.le_iff_toNat_le.1 hle; omega), fun b h1 h2 => ?_, hfree⟩
      by_cases hb : b = i
      · subst hb
        by_contra hmem
        exact h0 (h.boundNode_eq_zero.2 hmem)
      · refine hused b (UInt32.le_iff_toNat_le.2 ?_) h2
        have h1 := UInt32.le_iff_toNat_le.1 h1
        have hne : b.toNat ≠ i.toNat := fun he => hb (UInt32.toNat_inj.1 he)
        omega

/-! ## Creating -/

/-- The memory that a create got; `none` when an allocation failed. -/
def EptMem.ptrs : EptMem → Option (Nat × Nat)
  | .static context => if context = 0 then none else some (context, context)
  | .dynamic ept node _ => if ept = 0 ∨ node = 0 then none else some (ept, node)

/-- What the memory of the new node holds as its link before `add_to_list`. -/
def EptMem.oldNext (T : EptTable) : EptMem → Option Nat
  | .dynamic _ _ old => some old.next
  | .static context => T.nextOf context

/-- The memory is not in use: new memory was not allocated before, a static context is allocated and not
part of the list. -/
def EptMem.Unused (T : EptTable) (L : List EptEntry) : EptMem → Prop
  | .static context =>
    context ≠ 0 → (T.node context).isSome = true ∧ context ∉ L.map EptEntry.node ∧ context ∉ L.map EptEntry.ptr
  | .dynamic ept node _ => (ept ≠ 0 → T.ept ept = none) ∧ (node ≠ 0 → T.node node = none)

theorem EptTable.Holds.congr (h : T.Holds L) (hhead : T'.rlEndpoints = T.rlEndpoints)
    (hnode : ∀ x ∈ L, T'.node x.node = T.node x.node) (hept : ∀ x ∈ L, T'.ept x.ptr = T.ept x.ptr) : T'.Holds L := by
  have hlinks : ∀ p ∈ L.map EptEntry.node, T'.node p = T.node p := by
    rintro p hp
    obtain ⟨x, hx, rfl⟩ := List.mem_map.1 hp
    exact hnode x hx
  refine ⟨⟨?_, fun x hx => ⟨?_, ?_⟩⟩, ?_, h.addrs⟩
  · rw [hhead]
    exact h.chained.chain.congr fun p hp => by rw [EptTable.nextOf, hlinks p hp]; rfl
  · rw [hnode x hx]; exact (h.chained.carries x hx).node
  · rw [hept x hx]; exact (h.chained.carries x hx).ept
  · exact h.back.imp_of_mem_imp fun p q _ hq hpq => by rw [EptTable.prevOf, hlinks q hq]; exact hpq

/-- The address of a new endpoint: the one asked for, or the smallest one not in use, if there is one. -/
def Chosen (used : UInt32 → Prop) (addr : UInt32) : Option UInt32 → Prop
  | none => if addr = RL_ADDR_ANY then ∀ b, 1 ≤ b → b < RL_ADDR_ANY → used b else used addr
  | some a => ¬ used a ∧ a ≠ RL_ADDR_ANY ∧
    if addr = RL_ADDR_ANY then 1 ≤ a ∧ ∀ b, 1 ≤ b → b < a → used b else a = addr

/-- The addresses of the entries. -/
def Used (L : List EptEntry) (addr : UInt32) : Prop := addr ∈ L.map EptEntry.addr

theorem chooseAddr_spec (h : T.Holds L) (hfuel : L.length ≤ fuel) (addr : UInt32) :
    ∃ a, chooseAddr fuel T addr = some a ∧ Chosen (Used L) addr a := by
  unfold chooseAddr
  by_cases hany : addr = RL_ADDR_ANY
  · rw [if_pos hany]
    obtain ⟨a, ha, hle, hused, hfree⟩ := findFreeAddr_spec h hfuel (i := 1) (n := 0xFFFFFFFE) rfl
    refine ⟨_, by rw [ha, Option.map_some], ?_⟩
    by_cases hfull : a = RL_ADDR_ANY
    · rw [if_pos hfull, Chosen, if_pos hany, ← hfull]
      exact hused
    · rw [if_neg hfull, Chosen, if_pos hany]
      exact ⟨hfree hfull, hfull, hle, hused⟩
  · rw [if_neg hany, h.get hfuel]
    refine ⟨_, rfl, ?_⟩
    dsimp only
    by_cases h0 : boundNode L addr = 0
    · rw [if_neg (not_not.2 h0), Chosen, if_neg hany]
      exact ⟨h.boundNode_eq_zero.1 h0, hany, rfl⟩
    · rw [if_pos h0, Chosen, if_neg hany]
      by_contra hmem
      exact h0 (h.boundNode_eq_zero.2 hmem)

/-- What the preparation of a create leaves: nothing new, or a fresh entry beside the old list. -/
inductive Prepared (T : EptTable) (L : List EptEntry) (rxCb rxCbData : Nat) (mem : EptMem) :
    Option UInt32 → Option (Nat × Nat) → Option (Nat × Nat) × EptTable → Prop
  | noAddr (ptrs) : Prepared T L rxCb rxCbData mem none ptrs (none, T)
  | noMem (a) : Prepared T L rxCb rxCbData mem (some a) none (none, T)
  | ready {a ept node T'} (hold : T'.Holds L) (fresh : T'.Fresh L ⟨node, ept, a, rxCb, rxCbData⟩)
      (link : T'.nextOf node = mem.oldNext T) :
      Prepared T L rxCb rxCbData mem (some a) (some (ept, node)) (some (ept, node), T')

theorem prepared_ready (h : T.Holds L) (node ept : Nat) (e : RpmsgLiteEndpoint) (n : LList) (hdata : n.data = ept)
    (hne : node ≠ 0) (hn : node ∉ L.map EptEntry.node) (he : ept ∉ L.map EptEntry.ptr)
    (haddr : e.addr ∉ L.map EptEntry.addr) :
    EptTable.Holds ⟨T.rlEndpoints, Function.update T.node node (some n), Function.update T.ept ept (some e)⟩ L ∧
      EptTable.Fresh ⟨T.rlEndpoints, Function.update T.node node (some n), Function.update T.ept ept (some e)⟩ L
        ⟨node, ept, e⟩ := by
  refine ⟨h.congr rfl (fun x hx => ?_) fun x hx => ?_, ⟨?_, ?_⟩, hne, hn, he, haddr⟩
  · exact Function.update_of_ne (fun heq => hn (List.mem_map.2 ⟨x, hx, heq⟩)) _ _
  · exact Function.update_of_ne (fun heq => he (List.mem_map.2 ⟨x, hx, heq⟩)) _ _
  · show (Function.update T.node node (some n) node).map LList.data = some ept
    rw [Function.update_self, Option.map_some, hdata]
  · exact Function.update_self _ _ _

/-- The preparation returns, whatever the list holds. -/
theorem createEptPrepare_spec (h : T.Holds L) (hfuel : L.length ≤ fuel) {mem : EptMem} (hmem : mem.Unused T L) (addr : UInt32)
    (rxCb rxCbData : Nat) : ∃ a r, createEptPrepare fuel T addr rxCb rxCbData mem = some r ∧
      Chosen (Used L) addr a ∧ Prepared T L rxCb rxCbData mem a mem.ptrs r := by
  obtain ⟨a, ha, hchosen⟩ := chooseAddr_spec h hfuel addr
  unfold createEptPrepare
  rw [ha, Option.bind_some]
  cases a with
  | none => exact ⟨none, _, rfl, hchosen, .noAddr _⟩
  | some a =>
    cases mem with
    | static context =>
      by_cases h0 : context = 0
      · subst h0
        exact ⟨some a, _, rfl, hchosen, .noMem a⟩
      · obtain ⟨hsome, hn, he⟩ := hmem h0
        obtain ⟨n, hnode⟩ := Option.isSome_iff_exists.1 hsome
        simp only [allocEpt, EptMem.ptrs, if_neg h0, EptTable.setNode, hnode, Option.map_some]
        obtain ⟨h1, h2⟩ := prepared_ready h context context ⟨a, rxCb, rxCbData⟩
          { n with data := context } rfl h0 hn he hchosen.1
        refine ⟨some a, _, rfl, hchosen, .ready h1 h2 ?_⟩
        simp only [EptTable.nextOf, EptMem.oldNext, Function.update_self, hnode, Option.map_some]
    | dynamic ept node old =>
      obtain ⟨he, hn⟩ := hmem
      by_cases he0 : ept = 0
      · simp only [allocEpt, EptMem.ptrs, if_pos he0, if_pos (Or.inl he0)]
        exact ⟨some a, _, rfl, hchosen, .noMem a⟩
      · by_cases hn0 : node = 0
        · -- the endpoint is freed again
          have hback : Function.update (Function.update T.ept ept (some ⟨0, 0, 0⟩)) ept none = T.ept := by
            rw [Function.update_idem, Function.update_eq_self_iff, he he0]
          simp only [allocEpt, EptMem.ptrs, if_neg he0, if_pos hn0, if_pos (Or.inr hn0), hback]
          exact ⟨some a, _, rfl, hchosen, .noMem a⟩
        · have hnode : node ∉ L.map EptEntry.node := by
            intro hm
            obtain ⟨x, hx, rfl⟩ := List.mem_map.1 hm
            have := (h.chained.carries x hx).isSome
            rw [hn hn0] at this
            cases this
          have hptr : ept ∉ L.map EptEntry.ptr := by
            intro hm
            obtain ⟨x, hx, rfl⟩ := List.mem_map.1 hm
            have := (h.chained.carries x hx).ept
            rw [he he0] at this
            cases this
          simp only [allocEpt, EptMem.ptrs, if_neg he0, if_neg hn0, if_neg (not_or.2 ⟨he0, hn0⟩), EptTable.setNode,
            Function.update_self, Option.map_some, Function.update_idem]
          obtain ⟨h1, h2⟩ := prepared_ready h node ept ⟨a, rxCb, rxCbData⟩
            { old with data := ept } rfl hn0 hnode hptr hchosen.1
          refine ⟨some a, _, rfl, hchosen, .ready h1 h2 ?_⟩
          simp only [EptTable.nextOf, EptMem.oldNext, Function.update_self, Option.map_some]

/-- A create leaves the table as it was, or adds one entry in front. -/
theorem rpmsgLiteCreateEpt_spec (h : T.Holds L) (hfuel : L.length ≤ fuel) {mem : EptMem} (hmem : mem.Unused T L)
    (addr : UInt32) (rxCb rxCbData : Nat) : ∃ a r T', rpmsgLiteCreateEpt fuel T addr rxCb rxCbData mem = some (r, T') ∧
      Chosen (Used L) addr a ∧
      ((a = none ∨ mem.ptrs = none) ∧ r = 0 ∧ T' = T ∨
        ∃ b node, a = some b ∧ mem.ptrs = some (r, node) ∧ r ∉ L.map EptEntry.ptr ∧
          T'.Holds (⟨node, r, b, rxCb, rxCbData⟩ :: L)) := by
  obtain ⟨a, p, hp, hchosen, hprep⟩ := createEptPrepare_spec h hfuel hmem addr rxCb rxCbData
  unfold rpmsgLiteCreateEpt
  rw [hp, Option.bind_some]
  generalize mem.ptrs = ptrs at hprep
  cases hprep with
  | noAddr ptrs => exact ⟨none, 0, T, rfl, hchosen, Or.inl ⟨Or.inl rfl, rfl, rfl⟩⟩
  | noMem a => exact ⟨some a, 0, T, rfl, hchosen, Or.inl ⟨Or.inr rfl, rfl, rfl⟩⟩
  | @ready a ept node T' hold fresh _ =>
    obtain ⟨T2, hrun, -, -, -, hdone⟩ := addToList_steps hold fresh (addToList T' node).length
    rw [List.take_length] at hrun
    exact ⟨some a, ept, T2, congrArg (Option.map fun T => (ept, T)) hrun, hchosen,
      Or.inr ⟨a, node, rfl, rfl, fresh.ptr, hdone le_rfl⟩⟩

/-- A destroy of a live endpoint takes its entry out. -/
theorem rpmsgLiteDestroyEpt_spec {A B : List EptEntry} (h : T.Holds (A ++ x :: B)) (hfuel : (A ++ x :: B).length ≤ fuel)
    (hne : x.ptr ≠ 0) (hptr : x.ptr ∉ (A ++ B).map EptEntry.ptr) (static : Bool) :
    ∃ T', rpmsgLiteDestroyEpt fuel T static x.ptr = some (RL_SUCCESS, T') ∧ T'.Holds (A ++ B) := by
  have hmem : x ∈ A ++ x :: B := List.mem_append_right _ List.mem_cons_self
  have hx := h.chained.carries x hmem
  obtain ⟨T1, hrun, hrel, -, hdone⟩ := removeFromList_steps h (removeFromList T x.node).length
  rw [List.take_length] at hrun
  have hhold := hdone le_rfl
  unfold rpmsgLiteDestroyEpt destroyEptFind
  rw [if_neg hne, hx.ept, Option.bind_some]
  have hget : rpmsgLiteGetEndpointFromAddr fuel T x.ept.addr = some x.node := by
    rw [h.get hfuel, ← h.boundNode_addr hmem]; rfl
  rw [hget, Option.bind_some, if_neg (h.ne_zero hmem), hrun, Option.bind_some]
  cases static with
  | true => exact ⟨T1, rfl, hhold⟩
  | false =>
    have hnode : (T1.node x.node).isSome = true := by rw [hrel.isSome]; exact hx.isSome
    have hept : (T1.ept x.ptr).isSome = true := by rw [hrel.ept, hx.ept]; rfl
    have hnd := h.chained.chain.nodup
    rw [List.map_append, List.map_cons, List.nodup_middle, ← List.map_append] at hnd
    simp only [freeEpt, hnode, hept, Bool.and_self, if_true, Option.map_some]
    refine ⟨_, rfl, hhold.congr rfl (fun y hy => ?_) fun y hy => ?_⟩
    · exact Function.update_of_ne (fun heq => (List.nodup_cons.1 hnd).1 (List.mem_map.2 ⟨y, hy, heq⟩)) _ _
    · exact Function.update_of_ne (fun heq => hptr (List.mem_map.2 ⟨y, hy, heq⟩)) _ _

end RpmsgLite
