/-
The endpoint list: `llist.c` over a heap of list nodes and endpoints, and the lookup of
`rpmsg_lite_get_endpoint_from_addr`. The list functions are given as their statements, one store each, so
that an interrupt can fall between any two; a null pointer is 0 and the access to memory that is not
allocated is `none`.
-/
import RpmsgLite.Lib.DList

namespace RpmsgLite

/-! ## The heap -/

/-- `struct llist` -/
structure LList where
  data : Nat
  next : Nat
  prev : Nat
deriving DecidableEq

/-- `struct rpmsg_lite_endpoint` -/
structure RpmsgLiteEndpoint where
  addr : UInt32
  rxCb : Nat
  rxCbData : Nat
deriving DecidableEq

/-- An instance's endpoint list with the objects of both types, by address. -/
structure EptTable where
  rlEndpoints : Nat
  node : Nat → Option LList
  ept : Nat → Option RpmsgLiteEndpoint

namespace EptTable

variable (T : EptTable) (p q : Nat)

def setHead : EptTable := { T with rlEndpoints := p }

def setNode (f : LList → LList) : Option EptTable :=
  (T.node p).map fun n => { T with node := Function.update T.node p (some (f n)) }

/-- `p->next = q` -/
def setNext : Option EptTable := T.setNode p fun n => { n with next := q }

/-- `p->prev = q` -/
def setPrev : Option EptTable := T.setNode p fun n => { n with prev := q }

def nextOf : Option Nat := (T.node p).map LList.next
def prevOf : Option Nat := (T.node p).map LList.prev

end EptTable

/-! ## `llist.c` -/

/-- A statement with one store. -/
abbrev Stmt := EptTable → Option EptTable

/-- One statement after the other. -/
def Stmt.run : List Stmt → EptTable → Option EptTable
  | [], T => some T
  | c :: cs, T => (c T).bind (Stmt.run cs)

/-- The statements of `add_to_list`. -/
def addToList (T : EptTable) (node : Nat) : List Stmt :=
  if node = 0 then []
  else if T.rlEndpoints ≠ 0 then
    [fun T => T.setNext node T.rlEndpoints,
     fun T => T.setPrev node 0,
     fun T => T.setPrev T.rlEndpoints node,
     fun T => some (T.setHead node)]
  else
    [fun T => some (T.setHead node),
     fun T => T.setNext T.rlEndpoints 0,
     fun T => T.setPrev T.rlEndpoints 0]

/-- The statements of `remove_from_list`. -/
def removeFromList (T : EptTable) (node : Nat) : List Stmt :=
  if T.rlEndpoints = 0 ∨ node = 0 then []
  else if node = T.rlEndpoints then
    [fun T => (T.nextOf T.rlEndpoints).map T.setHead]
  else if T.nextOf node = some 0 then
    [fun T => (T.node node).bind fun n => T.setNext n.prev n.next]
  else
    [fun T => (T.node node).bind fun n => T.setNext n.prev n.next,
     fun T => (T.node node).bind fun n => T.setPrev n.next n.prev]

/-! ## The lookup -/

/-- The loop of `rpmsg_lite_get_endpoint_from_addr`, from `p` and for at most `fuel` nodes: the node with
the address, or null. -/
def getEndpointFrom (T : EptTable) (addr : UInt32) : Nat → Nat → Option Nat
  | _, 0 => some 0
  | 0, _ + 1 => none
  | fuel + 1, p + 1 =>
    (T.node (p + 1)).bind fun n => (T.ept n.data).bind fun e =>
      if e.addr = addr then some (p + 1) else getEndpointFrom T addr fuel n.next

/-- The nodes that loop reads. -/
def visitedFrom (T : EptTable) (addr : UInt32) : Nat → Nat → List Nat
  | _, 0 => []
  | 0, _ + 1 => []
  | fuel + 1, p + 1 =>
    (p + 1) :: match (T.node (p + 1)).bind fun n => (T.ept n.data).map fun e => (n, e) with
      | none => []
      | some (n, e) => if e.addr = addr then [] else visitedFrom T addr fuel n.next

/-- `rpmsg_lite_get_endpoint_from_addr` -/
def rpmsgLiteGetEndpointFromAddr (fuel : Nat) (T : EptTable) (addr : UInt32) : Option Nat :=
  getEndpointFrom T addr fuel T.rlEndpoints

/-! ## What a list holds -/

/-- A live endpoint: its node, its address in memory and what it holds. -/
structure EptEntry where
  node : Nat
  ptr : Nat
  ept : RpmsgLiteEndpoint
deriving DecidableEq

def EptEntry.addr (x : EptEntry) : UInt32 := x.ept.addr

/-- The entry's node and its endpoint are there. -/
structure EptTable.Carries (T : EptTable) (x : EptEntry) : Prop where
  node : (T.node x.node).map LList.data = some x.ptr
  ept : T.ept x.ptr = some x.ept

/-- From `p` the forward links pass the nodes of the entries, in their order. -/
structure EptTable.Chained (T : EptTable) (p : Nat) (L : List EptEntry) : Prop where
  chain : DList.Chain T.nextOf 0 p (L.map EptEntry.node)
  carries : ∀ x ∈ L, T.Carries x

/-- The instance's list holds the entries, no two with the same address. -/
structure EptTable.Holds (T : EptTable) (L : List EptEntry) : Prop where
  chained : T.Chained T.rlEndpoints L
  back : (L.map EptEntry.node).IsChain fun x y => T.prevOf y = some x
  addrs : (L.map EptEntry.addr).Nodup

/-- The node bound to an address, or null. -/
def boundNode (L : List EptEntry) (addr : UInt32) : Nat :=
  match L.find? fun x => x.addr = addr with
  | none => 0
  | some x => x.node

section

variable {T T' T'' : EptTable} {p q node : Nat} {L : List EptEntry} {addr : UInt32}

/-- Enough fuel finds the node of the address, and the lookup reads nodes of the list only. -/
theorem EptTable.Chained.lookup : ∀ {p : Nat} {L : List EptEntry} {fuel : Nat}, T.Chained p L → L.length ≤ fuel →
    getEndpointFrom T addr fuel p = some (boundNode L addr) ∧ ∀ v ∈ visitedFrom T addr fuel p, v ∈ L.map EptEntry.node
  | p, [], fuel, h, _ => by
    obtain rfl : p = 0 := h.chain
    cases fuel <;> exact ⟨rfl, fun v hv => absurd hv List.not_mem_nil⟩
  | p, x :: L, 0, _, hfuel => absurd hfuel (Nat.not_succ_le_zero _)
  | p, x :: L, fuel + 1, h, hfuel => by
    obtain ⟨rfl, hne, q, hq, hchain⟩ := h.chain
    have hx := h.carries x List.mem_cons_self
    have hept := hx.ept
    obtain ⟨n, hn, hdata⟩ := Option.map_eq_some_iff.1 hx.node
    have hnext : n.next = q := by
      rw [EptTable.nextOf, hn] at hq
      exact Option.some.inj hq
    have htail : T.Chained q L := ⟨hchain, fun y hy => h.carries y (List.mem_cons_of_mem x hy)⟩
    obtain ⟨hget, hvis⟩ := htail.lookup (Nat.succ_le_succ_iff.1 hfuel)
    obtain ⟨a, ha⟩ := Nat.exists_eq_succ_of_ne_zero hne
    rw [ha, Nat.succ_eq_add_one] at hn ⊢
    simp only [getEndpointFrom, visitedFrom, hn, hdata, hept, Option.bind_some, Option.map_some, hnext]
    by_cases haddr : x.ept.addr = addr
    · have hfind : boundNode (x :: L) addr = a + 1 := by
        rw [boundNode, List.find?_cons_of_pos (by simp [EptEntry.addr, haddr])]; exact ha
      rw [if_pos haddr, if_pos haddr, hfind]
      exact ⟨rfl, fun v hv => by rw [List.mem_singleton.1 hv, ← Nat.succ_eq_add_one, ← ha]; exact List.mem_cons_self⟩
    · have hfind : boundNode (x :: L) addr = boundNode L addr := by
        unfold boundNode
        rw [List.find?_cons_of_neg (by simp [EptEntry.addr, haddr])]
      rw [if_neg haddr, if_neg haddr, hfind]
      refine ⟨hget, fun v hv => ?_⟩
      rcases List.mem_cons.1 hv with rfl | hv
      · rw [← Nat.succ_eq_add_one, ← ha]; exact List.mem_cons_self
      · exact List.mem_cons_of_mem _ (hvis v hv)

/-! ## Relinking -/

/-- The list statements change links and the head, nothing else. -/
structure EptTable.Relinked (T T' : EptTable) : Prop where
  ept : T'.ept = T.ept
  data : ∀ p, (T'.node p).map LList.data = (T.node p).map LList.data

theorem EptTable.Relinked.refl (T : EptTable) : T.Relinked T := ⟨rfl, fun _ => rfl⟩

theorem EptTable.Relinked.trans (h : T.Relinked T') (h' : T'.Relinked T'') : T.Relinked T'' :=
  ⟨h'.ept.trans h.ept, fun p => (h'.data p).trans (h.data p)⟩

/-- Allocated nodes stay allocated. -/
theorem EptTable.Relinked.isSome (h : T.Relinked T') (p : Nat) : (T'.node p).isSome = (T.node p).isSome := by
  have := congrArg Option.isSome (h.data p)
  simpa using this

theorem EptTable.Relinked.carries (h : T.Relinked T') {x : EptEntry} (hx : T.Carries x) : T'.Carries x :=
  ⟨(h.data x.node).trans hx.node, by rw [h.ept]; exact hx.ept⟩

theorem EptTable.Carries.isSome {x : EptEntry} (h : T.Carries x) : (T.node x.node).isSome = true := by
  have := congrArg Option.isSome h.node
  simpa using this

theorem EptTable.nextOf_update (n : LList) :
    nextOf { T with node := Function.update T.node p (some n) } = Function.update T.nextOf p (some n.next) := by
  funext y
  by_cases hy : y = p
  · subst hy; simp [nextOf]
  · simp [nextOf, Function.update_of_ne hy]

theorem EptTable.prevOf_update (n : LList) :
    prevOf { T with node := Function.update T.node p (some n) } = Function.update T.prevOf p (some n.prev) := by
  funext y
  by_cases hy : y = p
  · subst hy; simp [prevOf]
  · simp [prevOf, Function.update_of_ne hy]

theorem EptTable.relinked_update {n n' : LList} (hn : T.node p = some n) (hd : n'.data = n.data) :
    T.Relinked { T with node := Function.update T.node p (some n') } := by
  refine ⟨rfl, fun y => ?_⟩
  by_cases hy : y = p
  · subst hy; simp [hn, hd]
  · simp [Function.update_of_ne hy]

/-- `p->next = q` on an allocated node. -/
theorem EptTable.setNext_ok (h : (T.node p).isSome = true) (q : Nat) : ∃ T', T.setNext p q = some T' ∧
    T'.rlEndpoints = T.rlEndpoints ∧ T'.nextOf = Function.update T.nextOf p (some q) ∧ T'.prevOf = T.prevOf ∧
    T.Relinked T' := by
  obtain ⟨n, hn⟩ := Option.isSome_iff_exists.1 h
  refine ⟨{ T with node := Function.update T.node p (some { n with next := q }) }, ?_, rfl, nextOf_update _, ?_,
    relinked_update hn rfl⟩
  · rw [setNext, setNode, hn, Option.map_some]
  · rw [prevOf_update, Function.update_eq_self_iff, prevOf, hn, Option.map_some]

/-- `p->prev = q` on an allocated node. -/
theorem EptTable.setPrev_ok (h : (T.node p).isSome = true) (q : Nat) : ∃ T', T.setPrev p q = some T' ∧
    T'.rlEndpoints = T.rlEndpoints ∧ T'.nextOf = T.nextOf ∧ T'.prevOf = Function.update T.prevOf p (some q) ∧
    T.Relinked T' := by
  obtain ⟨n, hn⟩ := Option.isSome_iff_exists.1 h
  refine ⟨{ T with node := Function.update T.node p (some { n with prev := q }) }, ?_, rfl, ?_, prevOf_update _,
    relinked_update hn rfl⟩
  · rw [setPrev, setNode, hn, Option.map_some]
  · rw [nextOf_update, Function.update_eq_self_iff, nextOf, hn, Option.map_some]

end

end RpmsgLite
