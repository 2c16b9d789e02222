/-
The two rings of a vring as what they are for: two FIFO queues between two cores, with operations that
take effect at one point between their call and their return. Nothing here knows about slots, indices
or memory.
-/
import RpmsgLite.Link.Ops

namespace RpmsgLite

/-- A published descriptor with its length. -/
abbrev Entry := UInt16 × UInt32

/-- The descriptor table, which no operation changes: buffer address and length of each descriptor. -/
structure DescTable where
  buffer : UInt16 → Nat
  len : UInt16 → UInt32

/-- What publishing makes the consumer find: on the avail ring the length comes from the table. -/
def DescTable.entry (T : DescTable) (k : RingKind) (d : UInt16) (len : UInt32) : Entry :=
  match k with
  | .avail => (d, T.len d)
  | .used => (d, len)

/-- What a consumer operation returns for an entry. -/
def DescTable.got (T : DescTable) (e : Entry) : Got := ⟨T.buffer e.1, e.2, e.1⟩

/-- A producer operation on the core's put ring, or a consumer operation on its get ring. -/
inductive QueueOp
  | put (d : UInt16) (len : UInt32)
  | get
deriving DecidableEq

inductive QueueRes
  | done
  | empty
  | got (g : Got)
deriving DecidableEq

/-- The descriptor a returning operation hands to its caller. -/
def QueueRes.ids : QueueRes → Multiset UInt16
  | .got g => {g.idx}
  | _ => 0

inductive Label
  | call (r : Role) (op : QueueOp)
  | effect (r : Role) (op : QueueOp)
  | ret (r : Role) (res : QueueRes)
deriving DecidableEq

/-- A core outside an operation, before the point of effect, or behind it. -/
inductive Status
  | idle
  | running (op : QueueOp)
  | finished (res : QueueRes)
deriving DecidableEq

def Role.putKind (r : Role) : RingKind := r.getKind.other

@[simp] theorem Role.getKind_peer_eq_putKind (r : Role) : r.peer.getKind = r.putKind := r.getKind_peer

@[simp] theorem Role.putKind_peer (r : Role) : r.peer.putKind = r.getKind := by cases r <;> rfl

@[simp] theorem Role.putKind_ne_getKind (r : Role) : r.putKind ≠ r.getKind := by cases r <;> decide

@[ext] structure Atomic where
  queue : RingKind → List Entry
  status : Role → Status
  owned : Role → Multiset UInt16

/-- A core may publish only a descriptor it owns, and owns what its consumer operation returned. -/
inductive Atomic.Step (T : DescTable) : Atomic → Label → Atomic → Prop
  | callPut (a : Atomic) (r : Role) (d : UInt16) (len : UInt32) (hs : a.status r = .idle) (hd : d ∈ a.owned r) :
      Step T a (.call r (.put d len))
        { a with status := Function.update a.status r (.running (.put d len))
                 owned := Function.update a.owned r ((a.owned r).erase d) }
  | callGet (a : Atomic) (r : Role) (hs : a.status r = .idle) :
      Step T a (.call r .get) { a with status := Function.update a.status r (.running .get) }
  | put (a : Atomic) (r : Role) (d : UInt16) (len : UInt32) (hs : a.status r = .running (.put d len)) :
      Step T a (.effect r (.put d len))
        { a with queue := Function.update a.queue r.putKind (a.queue r.putKind ++ [T.entry r.putKind d len])
                 status := Function.update a.status r (.finished .done) }
  | getEmpty (a : Atomic) (r : Role) (hs : a.status r = .running .get) (hq : a.queue r.getKind = []) :
      Step T a (.effect r .get) { a with status := Function.update a.status r (.finished .empty) }
  | get (a : Atomic) (r : Role) (e : Entry) (q : List Entry) (hs : a.status r = .running .get)
      (hq : a.queue r.getKind = e :: q) :
      Step T a (.effect r .get)
        { a with queue := Function.update a.queue r.getKind q
                 status := Function.update a.status r (.finished (.got (T.got e))) }
  | ret (a : Atomic) (r : Role) (res : QueueRes) (hs : a.status r = .finished res) :
      Step T a (.ret r res)
        { a with status := Function.update a.status r .idle
                 owned := Function.update a.owned r (a.owned r + res.ids) }

/-- The runs from `a₀` with their histories. -/
inductive Atomic.Run (T : DescTable) (a₀ : Atomic) : List Label → Atomic → Prop
  | start : Run T a₀ [] a₀
  | step {ls : List Label} {l : Label} {a a' : Atomic} (h : Run T a₀ ls a) (hs : Step T a l a') : Run T a₀ (ls ++ [l]) a'

/-! ## Conservation -/

/-- The descriptor in the hands of an operation: one to be published, or one just taken. -/
def Status.hand : Status → Multiset UInt16
  | .running (.put d _) => {d}
  | .finished res => res.ids
  | _ => 0

def Atomic.ids (a : Atomic) (k : RingKind) : Multiset UInt16 := ((a.queue k).map Prod.fst : List UInt16)

def Atomic.held (a : Atomic) (r : Role) : Multiset UInt16 := a.owned r + (a.status r).hand

/-- All descriptors, wherever they are. -/
def Atomic.total (a : Atomic) : Multiset UInt16 := a.ids .avail + a.ids .used + (a.held .master + a.held .remote)

/-- The total in the view of one core. -/
theorem Atomic.total_eq (a : Atomic) (r : Role) :
    a.total = a.ids r.putKind + a.ids r.getKind + (a.held r + a.held r.peer) := by
  unfold Atomic.total
  cases r with
  | master => rfl
  | remote =>
    show _ = a.ids .used + a.ids .avail + (a.held .remote + a.held .master)
    rw [add_comm (a.ids .used), add_comm (a.held .remote)]

@[simp] theorem DescTable.entry_fst (T : DescTable) (k : RingKind) (d : UInt16) (len : UInt32) :
    (T.entry k d len).1 = d := by cases k <;> rfl

/-- No step loses or doubles a descriptor. -/
theorem Atomic.Step.total {T : DescTable} {a a' : Atomic} {l : Label} (h : Atomic.Step T a l a') : a'.total = a.total := by
  have hids : ∀ (b : Atomic) (k : RingKind), b.queue k = a.queue k → b.ids k = a.ids k := fun b k hb => by
    unfold Atomic.ids; rw [hb]
  cases h with
  | callPut r d len hs hd =>
    rw [Atomic.total_eq _ r, Atomic.total_eq _ r]
    simp only [Atomic.ids, Atomic.held, Function.update_self, Function.update_of_ne (Role.peer_ne r), hs, Status.hand]
    rw [add_zero, add_comm ((a.owned r).erase d), Multiset.singleton_add, Multiset.cons_erase hd]
  | callGet r hs =>
    rw [Atomic.total_eq _ r, Atomic.total_eq _ r]
    simp only [Atomic.ids, Atomic.held, Function.update_self, Function.update_of_ne (Role.peer_ne r), hs, Status.hand]
  | put r d len hs =>
    rw [Atomic.total_eq _ r, Atomic.total_eq _ r]
    simp only [Atomic.ids, Atomic.held, Function.update_self, Function.update_of_ne (Role.peer_ne r),
      Function.update_of_ne (Role.putKind_ne_getKind r).symm, hs, Status.hand, QueueRes.ids, List.map_append,
      List.map_singleton, DescTable.entry_fst, ← Multiset.coe_add, Multiset.coe_singleton, add_zero]
    ac_rfl
  | getEmpty r hs hq =>
    rw [Atomic.total_eq _ r, Atomic.total_eq _ r]
    simp only [Atomic.ids, Atomic.held, Function.update_self, Function.update_of_ne (Role.peer_ne r), hs, Status.hand,
      QueueRes.ids]
  | get r e q hs hq =>
    rw [Atomic.total_eq _ r, Atomic.total_eq _ r]
    simp only [Atomic.ids, Atomic.held, Function.update_self, Function.update_of_ne (Role.peer_ne r),
      Function.update_of_ne (Role.putKind_ne_getKind r), hs, hq, Status.hand, QueueRes.ids, DescTable.got,
      List.map_cons, ← Multiset.cons_coe, ← Multiset.singleton_add, add_zero]
    ac_rfl
  | ret r res hs =>
    rw [Atomic.total_eq _ r, Atomic.total_eq _ r]
    simp only [Atomic.ids, Atomic.held, Function.update_self, Function.update_of_ne (Role.peer_ne r), hs, Status.hand,
      add_zero]

/-- While a core publishes there is room in its put ring, also for what the peer has in hand. -/
theorem Atomic.room {a : Atomic} {r : Role} {d : UInt16} {len : UInt32} (h : a.status r = .running (.put d len)) :
    (a.queue r.putKind).length + 1 + (a.status r.peer).hand.card ≤ a.total.card := by
  rw [Atomic.total_eq a r]
  simp only [Atomic.held, Atomic.ids, h, Status.hand, Multiset.card_add, Multiset.coe_card, List.length_map,
    Multiset.card_singleton]
  omega

theorem Atomic.mem_hand {a : Atomic} {r : Role} {d : UInt16} (h : d ∈ (a.status r).hand) : d ∈ a.total := by
  rw [Atomic.total_eq a r]
  simp only [Atomic.held, Multiset.mem_add]
  exact Or.inr (Or.inl (Or.inr h))

/-! ## First in, first out -/

/-- What a label publishes on ring `k`. -/
def Label.published (T : DescTable) (k : RingKind) : Label → List Entry
  | .effect r (.put d len) => if r.putKind = k then [T.entry k d len] else []
  | _ => []

/-- What a label returns from ring `k`. -/
def Label.returned (k : RingKind) : Label → List Entry
  | .ret r (.got g) => if r.getKind = k then [(g.idx, g.len)] else []
  | _ => []

/-- What a core has taken and not returned yet. -/
def Status.taken : Status → List Entry
  | .finished (.got g) => [(g.idx, g.len)]
  | _ => []

/-- The consumer of a ring. -/
def RingKind.consumer : RingKind → Role
  | .avail => .remote
  | .used => .master

@[simp] theorem Role.getKind_consumer (k : RingKind) : k.consumer.getKind = k := by cases k <;> rfl

theorem Role.eq_consumer {r : Role} {k : RingKind} (h : r.getKind = k) : r = k.consumer := by
  subst h; cases r <;> rfl

/-- A queue holds what was in it and what was published, without what its consumer took. -/
def Atomic.Fifo (T : DescTable) (a₀ : Atomic) (ls : List Label) (a : Atomic) (k : RingKind) : Prop :=
  a₀.queue k ++ ls.flatMap (Label.published T k) =
    ls.flatMap (Label.returned k) ++ (a.status k.consumer).taken ++ a.queue k

section

variable {T : DescTable} {a₀ a a' : Atomic} {ls : List Label} {l : Label}

theorem Atomic.Fifo.step {k : RingKind} (h : a₀.Fifo T ls a k) (hs : Atomic.Step T a l a') :
    a₀.Fifo T (ls ++ [l]) a' k := by
  unfold Atomic.Fifo at h ⊢
  simp only [List.flatMap_append, List.flatMap_singleton]
  rw [← List.append_assoc, h]
  cases hs with
  | callPut r d len hs hd =>
    by_cases hr : k.consumer = r
    · subst hr
      simp [Label.published, Label.returned, hs, Status.taken]
    · simp [Label.published, Label.returned, Function.update_of_ne hr]
  | callGet r hs =>
    by_cases hr : k.consumer = r
    · subst hr
      simp [Label.published, Label.returned, hs, Status.taken]
    · simp [Label.published, Label.returned, Function.update_of_ne hr]
  | put r d len hs =>
    by_cases hk : r.putKind = k
    · -- the publisher is not the consumer
      have hr : k.consumer ≠ r := by
        rintro rfl
        exact Role.putKind_ne_getKind _ (hk.trans (Role.getKind_consumer k).symm)
      subst hk
      simp [Label.published, Label.returned, Function.update_of_ne hr]
    · have hr : r = k.consumer := by
        refine Role.eq_consumer ?_
        cases r <;> cases k <;> first | rfl | exact absurd rfl hk
      subst hr
      simp [Label.published, Label.returned, Function.update_of_ne (Ne.symm hk), if_neg hk, hs, Status.taken]
  | getEmpty r hs hq =>
    by_cases hr : k.consumer = r
    · subst hr
      simp [Label.published, Label.returned, hs, Status.taken]
    · simp [Label.published, Label.returned, Function.update_of_ne hr]
  | get r e q hs hq =>
    by_cases hr : k.consumer = r
    · subst hr
      rw [Role.getKind_consumer] at hq
      simp [Label.published, Label.returned, hs, Status.taken, hq, DescTable.got]
    · have hk : k ≠ r.getKind := fun hk => hr (Role.eq_consumer hk.symm).symm
      simp [Label.published, Label.returned, Function.update_of_ne hr, Function.update_of_ne hk]
  | ret r res hs =>
    by_cases hr : k.consumer = r
    · subst hr
      cases res <;> simp [Label.published, Label.returned, hs, Status.taken]
    · have hk : r.getKind ≠ k := fun hk => hr (Role.eq_consumer hk).symm
      cases res <;> simp [Label.published, Label.returned, Function.update_of_ne hr, if_neg hk]

/-- In every run a consumer returns entries in the order they were published, none twice and none that
was not published. -/
theorem Atomic.Run.fifo (h₀ : ∀ r, a₀.status r = .idle) (h : Atomic.Run T a₀ ls a) (k : RingKind) :
    a₀.Fifo T ls a k := by
  induction h with
  | start => simp [Atomic.Fifo, h₀, Status.taken]
  | step _ hs ih => exact ih.step hs

end

end RpmsgLite
