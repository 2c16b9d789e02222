/-
The invariant of the whole link: one custody for each direction, over pools that share no byte. A step
of either core moves at most one descriptor of one direction.
-/
import RpmsgLite.Link.RxSteps

namespace RpmsgLite

open ByteMem

theorem BufferPool.Separate.symm {B B' : BufferPool} (h : Separate B B') : Separate B' B := by
  have h1 := h.tables
  have h2 := h.tablesBufs
  have h3 := h.bufsTables
  have h4 := h.bufs
  unfold Apart at h1 h2 h3 h4
  exact ⟨h1.symm, h3.symm, h2.symm, h4.symm⟩

/-- The pool of each direction, named by its sender. -/
structure Pools where
  pool : Role → BufferPool
  separate : BufferPool.Separate (pool .master) (pool .remote)

theorem Pools.peer (W : Pools) (r : Role) : BufferPool.Separate (W.pool r) (W.pool r.peer) := by
  cases r with
  | master => exact W.separate
  | remote => exact W.separate.symm

structure LinkInv (W : Pools) (s : Link) (P : ∀ r, Custody (W.pool r).ids) : Prop where
  role : ∀ r, (s.side r).dev.role = r
  running : ∀ r, (s.side r).halted = false
  flow : ∀ r, Flow (W.pool r) r.getKind s.m (s.side r).dev.tvq (s.side r.peer).dev.rvq (s.side r).tx
    (s.side r.peer).rx (P r)

section

variable {W : Pools} {c : LinkConfig} {s s' : Link} {P : ∀ r, Custody (W.pool r).ids} {r : Role}

theorem Link.step_cases {a : Act} (h : s.step c r a = some s') :
    ∃ x m', (s.side r).step c s.m a = some (x, m') ∧ s' = { m := m', side := Function.update s.side r x } := by
  unfold Link.step at h
  split at h
  · cases h
  · obtain ⟨⟨x, m'⟩, hx, he⟩ := Option.map_eq_some_iff.1 h
    exact ⟨x, m', hx, he.symm⟩

theorem update_role {f : Role → Side} {x : Side} {r : Role} (h : x.dev.role = (f r).dev.role) (q : Role) :
    (Function.update f r x q).dev.role = (f q).dev.role := by
  by_cases hq : q = r
  · subst hq; rw [Function.update_self, h]
  · rw [Function.update_of_ne hq]

theorem update_halted {f : Role → Side} {x : Side} {r : Role} (h : x.halted = (f r).halted) (q : Role) :
    (Function.update f r x q).halted = (f q).halted := by
  by_cases hq : q = r
  · subst hq; rw [Function.update_self, h]
  · rw [Function.update_of_ne hq]

/-- A move in the direction that `p` sends on leaves what the other direction reads as it was. -/
theorem LinkInv.moved (h : LinkInv W s P) (p : Role) {f : Role → Side} {m' : ByteMem} {P1 : Custody (W.pool p).ids}
    (hrole : ∀ q, (f q).dev.role = (s.side q).dev.role) (hhalt : ∀ q, (f q).halted = (s.side q).halted)
    (hmove : (P p).Move P1) (ht : (W.pool p).Touches s.m m')
    (hflow : Flow (W.pool p) p.getKind m' (f p).dev.tvq (f p.peer).dev.rvq (f p).tx (f p.peer).rx P1)
    (htvq : (f p.peer).dev.tvq = (s.side p.peer).dev.tvq) (hrvq : (f p).dev.rvq = (s.side p).dev.rvq)
    (htx : (f p.peer).tx = (s.side p.peer).tx) (hrx : (f p).rx = (s.side p).rx) :
    ∃ P' : ∀ r, Custody (W.pool r).ids, LinkInv W { m := m', side := f } P' ∧ ∀ q, (P q).Move (P' q) := by
  refine ⟨Function.update P p P1, ⟨fun q => (hrole q).trans (h.role q), fun q => (hhalt q).trans (h.running q), ?_⟩, ?_⟩
  · intro q
    rcases p.eq_or_peer q with rfl | rfl
    · rw [Function.update_self]
      exact hflow
    · have hother := h.flow p.peer
      rw [Role.peer_peer] at hother
      simp only [Role.peer_peer, Function.update_of_ne (Role.peer_ne p), htvq, hrvq, htx, hrx]
      exact hother.same (ht.same (W.peer p))
  · intro q
    by_cases hq : q = p
    · subst hq; rw [Function.update_self]; exact hmove
    · rw [Function.update_of_ne hq]; exact .stay

/-- A transmit step moves a descriptor of the core's own direction. -/
theorem LinkInv.tx (h : LinkInv W s P) (hpay : ∀ r, c.payloadSize + 16 ≤ (W.pool r).size) {a : TxAct} {x : Side} {m' : ByteMem}
    (ha : (s.side r).txStep c s.m a = some (x, m')) :
    ∃ P' : ∀ r, Custody (W.pool r).ids, LinkInv W { m := m', side := Function.update s.side r x } P' ∧
      ∀ q, (P q).Move (P' q) := by
  obtain ⟨P1, hmove, ht, hflow, hrvq, hrx, hhalt, hrole⟩ :=
    (h.flow r).txStep (by rw [h.role r]) (hpay r) ha
  have hne := Role.peer_ne r
  refine h.moved r (update_role hrole) (update_halted hhalt) hmove ht ?_ ?_ ?_ ?_ ?_
  · simp only [Function.update_self, Function.update_of_ne hne]
    exact hflow
  · rw [Function.update_of_ne hne]
  · rw [Function.update_self, hrvq]
  · rw [Function.update_of_ne hne]
  · rw [Function.update_self, hrx]

/-- A receive step moves a descriptor of the peer's direction. -/
theorem LinkInv.rx (h : LinkInv W s P) {a : RxAct} {x : Side} {m' : ByteMem}
    (ha : (s.side r).rxStep c s.m a = some (x, m')) :
    ∃ P' : ∀ r, Custody (W.pool r).ids, LinkInv W { m := m', side := Function.update s.side r x } P' ∧
      ∀ q, (P q).Move (P' q) := by
  have hin := h.flow r.peer
  rw [Role.peer_peer] at hin
  obtain ⟨P1, hmove, ht, hflow, htvq, htx, hhalt, hrole⟩ := hin.rxStep (by rw [h.role r]; simp) ha
  have hne := Role.peer_ne r
  refine h.moved r.peer (update_role hrole) (update_halted hhalt) hmove ht ?_ ?_ ?_ ?_ ?_
  · simp only [Role.peer_peer, Function.update_self, Function.update_of_ne hne]
    exact hflow
  · rw [Role.peer_peer, Function.update_self, htvq]
  · rw [Function.update_of_ne hne]
  · rw [Role.peer_peer, Function.update_self, htx]
  · rw [Function.update_of_ne hne]

/-- Two states of a core that differ at most in what the link's invariant does not read. -/
structure Side.Alike (x y : Side) : Prop where
  tvq : y.dev.tvq = x.dev.tvq
  rvq : y.dev.rvq = x.dev.rvq
  tx : y.tx = x.tx
  rx : y.rx = x.rx
  halted : y.halted = x.halted
  role : y.dev.role = x.dev.role

theorem LinkInv.congr (h : LinkInv W s P) {f : Role → Side} (hf : ∀ q, (s.side q).Alike (f q)) :
    LinkInv W { m := s.m, side := f } P := by
  refine ⟨fun q => ?_, fun q => ?_, fun q => ?_⟩
  · rw [(hf q).role]; exact h.role q
  · rw [(hf q).halted]; exact h.running q
  · simp only [(hf q).tvq, (hf q.peer).rvq, (hf q).tx, (hf q.peer).rx]
    exact h.flow q

theorem LinkInv.step (h : LinkInv W s P) (hpay : ∀ r, c.payloadSize + 16 ≤ (W.pool r).size) {a : Act}
    (hs : s.step c r a = some s') :
    ∃ P' : ∀ r, Custody (W.pool r).ids, LinkInv W s' P' ∧ ∀ q, (P q).Move (P' q) := by
  obtain ⟨x, m', ha, rfl⟩ := Link.step_cases hs
  cases a with
  | tx a => exact h.tx hpay ha
  | rx a => exact h.rx ha
  | txCallback =>
    cases ha
    refine ⟨P, h.congr fun q => ?_, fun q => .stay⟩
    by_cases hq : q = r
    · subst hq; rw [Function.update_self]; exact ⟨rfl, rfl, rfl, rfl, rfl, rfl⟩
    · rw [Function.update_of_ne hq]; exact ⟨rfl, rfl, rfl, rfl, rfl, rfl⟩

/-- Every state of every run. -/
theorem LinkInv.reachable {s₀ : Link} {P₀ : ∀ r, Custody (W.pool r).ids} (h₀ : LinkInv W s₀ P₀)
    (hpay : ∀ r, c.payloadSize + 16 ≤ (W.pool r).size) (h : Link.Reachable c s₀ s) : ∃ P, LinkInv W s P := by
  induction h with
  | start => exact ⟨P₀, h₀⟩
  | step _ hs ih =>
    obtain ⟨P, hinv⟩ := ih
    obtain ⟨P', hinv', -⟩ := hinv.step hpay hs
    exact ⟨P', hinv'⟩

end

end RpmsgLite
