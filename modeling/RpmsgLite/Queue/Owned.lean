/-
Who owns the buffers behind the queues. As long as no task gives back the message that the receive callback is still
working on, the messages in the queues and with the tasks are distinct buffers that their core holds, so the bound on
the descriptors of a vring bounds every queue. Each step is shown to keep this, the release because it is the release of
the link.
-/
import RpmsgLite.Link.Parked
import RpmsgLite.Queue.System
import Mathlib.Data.List.Perm.Subperm
import RpmsgLite.Lib.Runs

namespace RpmsgLite

open ByteMem

/-! ## The received buffers of a core -/

section

variable {W : Pools} {c : LinkConfig} {s s' : Link} {P : ∀ r, Custody (W.pool r).ids} {r q : Role} {g : Got}

/-- The received buffers are distinct and no more than there are descriptors. -/
theorem LinkInv.rx_buffers (h : LinkInv W s P) (r : Role) :
    ((s.side r).rx.gots.map Got.buffer).Nodup ∧ (s.side r).rx.gots.length ≤ (W.pool r.peer).vr.num := by
  have hcons := h.conserved (r := r.peer)
  have hplaces := hcons.places.length_eq
  have hbufs := hcons.buffers
  simp only [Link.rxIds, Role.peer_peer, List.length_append, List.length_map, List.length_range] at hplaces
  rw [Role.peer_peer, List.map_append] at hbufs
  exact ⟨(List.nodup_append.1 hbufs).2.1, by omega⟩

theorem LinkInv.rvq_nentries (h : LinkInv W s P) (r : Role) : (s.side r).dev.rvq.nentries.toNat = (W.pool r.peer).vr.num := by
  have hlinked := (h.flow r.peer).linked
  rw [Role.peer_peer] at hlinked
  rw [hlinked.rvq_wf.num_eq, hlinked.rvq_ring]

/-- The descriptor of a received buffer is neither free nor queued nor with the sender. -/
theorem LinkInv.rx_owned (h : LinkInv W s P) (hg : g ∈ (s.side r).rx.gots) :
    g.idx ∉ s.freeIds r.peer ++ s.txIds r.peer ++ s.queueIds r.peer := by
  intro hmem
  have hnodup := (h.conserved (r := r.peer)).places.nodup_iff.2
    (by rw [← Multiset.coe_nodup]; exact (W.pool r.peer).ids_nodup)
  refine (List.nodup_append.1 hnodup).2.2 _ hmem g.idx ?_ rfl
  simp only [Link.rxIds, Role.peer_peer]
  exact List.mem_map_of_mem hg

/-- Giving back a held buffer by its payload pointer is the release of the link. -/
theorem Link.giveBack_eq (hrun : (s.side r).halted = false) (hg : g ∈ (s.side r).rx.held) :
    ∃ i e, (s.side r).rx.held[i]? = some e ∧ msgDataAt e.buffer = msgDataAt g.buffer ∧
      s.step c r (.rx (.releaseRxBuffer i)) = some (s.giveBack c r (msgDataAt g.buffer)) := by
  cases hi : (s.side r).rx.held.findIdx? fun e => msgDataAt e.buffer = msgDataAt g.buffer with
  | none => simpa using List.findIdx?_eq_none_iff.1 hi g hg
  | some i =>
    obtain ⟨hlt, he, -⟩ := List.findIdx?_eq_some_iff_getElem.1 hi
    have hget : (s.side r).rx.held[i]? = some (s.side r).rx.held[i] := List.getElem?_eq_getElem hlt
    rw [decide_eq_true_iff] at he
    refine ⟨i, _, hget, he, ?_⟩
    have herase : ((s.side r).rx.held.eraseP fun e => msgDataAt e.buffer = msgDataAt g.buffer) =
        (s.side r).rx.held.eraseIdx i := by
      rw [List.eraseP_eq_eraseIdx, hi]
    have hhalt : ¬ (s.side r).halted = true := by
      rw [hrun]
      exact Bool.false_ne_true
    unfold Link.step Link.giveBack
    rw [if_neg hhalt, herase]
    simp only [Side.step, Side.rxStep, hget, he]
    cases rpmsgLiteReleaseRxBuffer c.clear (s.side r).dev s.m (msgDataAt g.buffer) with
    | none => rfl
    | some x => rfl

theorem Side.rxStep_keeps {x x' : Side} {m m' : ByteMem} {a : RxAct} (hdone : ∀ hold, a ≠ .done hold)
    (ha : x.rxStep c m a = some (x', m')) :
    (x'.rx.hand = x.rx.hand ∨ ∀ g, x.rx.hand ≠ .seen g) ∧
      ∀ g ∈ x.rx.held, (∀ i, a = .releaseRxBuffer i → x.rx.held[i]? ≠ some g) → g ∈ x'.rx.held := by
  cases Side.rxStep_cases ha with
  | rxNone hidle => exact ⟨Or.inr fun g hg => (by rw [hidle] at hg; cases hg), fun g hg _ => hg⟩
  | rx hidle => exact ⟨Or.inr fun g hg => (by rw [hidle] at hg; cases hg), fun g hg _ => hg⟩
  | read hhand => exact ⟨Or.inr fun g hg => (by rw [hhand] at hg; cases hg), fun g hg _ => hg⟩
  | doneStuck => exact absurd rfl (hdone _)
  | done => exact absurd rfl (hdone _)
  | writeMsg => exact ⟨Or.inl rfl, fun g hg _ => hg⟩
  | writeHeld => exact ⟨Or.inl rfl, fun g hg _ => hg⟩
  | releaseStuck => exact ⟨Or.inl rfl, fun g hg _ => hg⟩
  | release => exact ⟨Or.inl rfl, fun g hg hne => mem_eraseIdx_of_ne hg (hne _ rfl)⟩

end

namespace RxQueues

open MsgQueue (RxCbData)

/-! ## The queues as one list -/

theorem flatMap_set_perm {α β : Type} (f : α → List β) {l : List α} {k : Nat} {a b : α} (h : l[k]? = some a) :
    (f a ++ (l.set k b).flatMap f).Perm (f b ++ l.flatMap f) := by
  induction l generalizing k with
  | nil => cases h
  | cons x l ih =>
    cases k with
    | zero =>
      obtain rfl : x = a := Option.some.inj h
      simp only [List.set_cons_zero, List.flatMap_cons]
      rw [← List.append_assoc, ← List.append_assoc]
      exact List.perm_append_comm.append_right _
    | succ k =>
      simp only [List.set_cons_succ, List.flatMap_cons]
      have hcomm : ∀ u v w : List β, (u ++ (v ++ w)).Perm (v ++ (u ++ w)) := fun u v w => by
        rw [← List.append_assoc, ← List.append_assoc]
        exact List.perm_append_comm.append_right _
      exact (hcomm _ _ _).trans (((ih h).append_left (f x)).trans (hcomm _ _ _))

section

variable {s : State} {k : Nat} {q q' : EnvQueue} {e : RxCbData} {i : Nat}

/-- A message joins a queue. -/
theorem live_put (hk : s.queues[k]? = some q) (hq : q'.items = q.items ++ [e]) :
    ((s.queues.set k q').flatMap EnvQueue.items ++ s.tasks).Perm (e :: s.live) := by
  have hset := flatMap_set_perm EnvQueue.items (b := q') hk
  rw [hq, List.append_assoc, List.perm_append_left_iff] at hset
  exact hset.append_right s.tasks

/-- A message leaves a queue for a task. -/
theorem live_get (hk : s.queues[k]? = some q) (hq : q.items = e :: q'.items) :
    ((s.queues.set k q').flatMap EnvQueue.items ++ (s.tasks ++ [e])).Perm s.live := by
  have hset := flatMap_set_perm EnvQueue.items (b := q') hk
  have hcons : (e :: q'.items).Perm (q'.items ++ [e]) := (List.perm_append_singleton e q'.items).symm
  rw [hq] at hset
  have hone : ([e] ++ (s.queues.set k q').flatMap EnvQueue.items).Perm (s.queues.flatMap EnvQueue.items) := by
    refine (List.perm_append_left_iff q'.items).1 ?_
    rw [← List.append_assoc]
    exact (hcons.symm.append_right _).trans hset
  refine (List.perm_append_comm.trans ?_).trans (hone.append_right s.tasks)
  rw [List.append_assoc, List.append_assoc]
  refine List.perm_append_comm_assoc s.tasks [e] _ |>.trans ?_
  exact (List.perm_append_comm).append_left [e]

/-- A message leaves its task. -/
theorem live_erase (hi : s.tasks[i]? = some e) :
    s.live.Perm (e :: (s.queues.flatMap EnvQueue.items ++ s.tasks.eraseIdx i)) := by
  obtain ⟨hlt, rfl⟩ := List.getElem?_eq_some_iff.1 hi
  exact ((List.getElem_cons_eraseIdx_perm hlt).symm.append_left _).trans List.perm_middle

end

/-! ## The invariant -/

/-- The received buffers that a queue or a task may name: the held ones, and the message of the receive callback once
its endpoint has kept it. -/
def State.mine (r : Role) (s : State) : List Got :=
  (if s.ret = some true then (s.link.side r).rx.hand.got else []) ++ (s.link.side r).rx.held

/-- `n` is the number of descriptors of the vring. -/
structure Inv (r : Role) (n : Nat) (s : State) : Prop where
  hand : s.ret ≠ none → ∃ g, (s.link.side r).rx.hand = .seen g
  nodup : (s.live.map RxCbData.data).Nodup
  mine : ∀ e ∈ s.live, ∃ g ∈ s.mine r, e.data = msgDataAt g.buffer
  capacity : ∀ q ∈ s.queues, q.capacity = 2 * n
  dropped : s.dropped = []
  addressed : s.addressed.Perm (s.live ++ s.freed)

section

variable {W : Pools} {c : LinkConfig} {r : Role} {n : Nat} {s s' : State} {P : ∀ r, Custody (W.pool r).ids} {l' : Link}
  {g : Got}

theorem inv_start {l : Link} : Inv r n (.start l) := by
  refine ⟨fun h => absurd rfl h, List.nodup_nil, ?_, ?_, rfl, List.Perm.refl _⟩
  · rintro e ⟨⟩
  · rintro q ⟨⟩

theorem State.mine_gots (hg : g ∈ s.mine r) : g ∈ (s.link.side r).rx.gots := by
  rcases List.mem_append.1 hg with hg | hg
  · split at hg
    · exact List.mem_append_left _ hg
    · cases hg
  · exact List.mem_append_right _ hg

/-- There are no more messages in the queues and with the tasks than descriptors. -/
theorem Inv.length_le (h : Inv r n s) (hl : LinkInv W s.link P) : s.live.length ≤ (W.pool r.peer).vr.num := by
  have hsub : s.live.map RxCbData.data ⊆ (s.link.side r).rx.gots.map fun g => msgDataAt g.buffer := by
    intro d hd
    obtain ⟨e, he, rfl⟩ := List.mem_map.1 hd
    obtain ⟨g, hg, heq⟩ := h.mine e he
    exact List.mem_map.2 ⟨g, State.mine_gots hg, heq.symm⟩
  have hle := (List.subperm_of_subset h.nodup hsub).length_le
  rw [List.length_map, List.length_map] at hle
  exact hle.trans (hl.rx_buffers r).2

theorem items_le_live {q : EnvQueue} (hq : q ∈ s.queues) : q.items.length ≤ s.live.length := by
  obtain ⟨l₁, l₂, hsplit⟩ := List.append_of_mem hq
  unfold State.live
  rw [hsplit, List.flatMap_append, List.flatMap_cons]
  simp only [List.length_append]
  omega

/-! ## The steps of the link -/

/-- The link moves and no queue does. -/
theorem Inv.congr (h : Inv r n s) (hhand : s.ret ≠ none → (l'.side r).rx.hand = (s.link.side r).rx.hand)
    (hheld : ∀ g ∈ (s.link.side r).rx.held, (∃ e ∈ s.live, e.data = msgDataAt g.buffer) → g ∈ (l'.side r).rx.held) :
    Inv r n { s with link := l' } := by
  refine ⟨fun hret => ?_, h.nodup, fun e he => ?_, h.capacity, h.dropped, h.addressed⟩
  · rw [hhand hret]
    exact h.hand hret
  · obtain ⟨g, hg, heq⟩ := h.mine e he
    refine ⟨g, ?_, heq⟩
    rcases List.mem_append.1 hg with hg | hg
    · split at hg
      · rename_i hret
        refine List.mem_append_left _ ?_
        rw [if_pos hret, hhand (by rw [hret]; exact Option.some_ne_none _)]
        exact hg
      · cases hg
    · exact List.mem_append_right _ (hheld g hg ⟨e, he, heq⟩)

theorem Inv.link (h : Inv r n s) {q : Role} {a : Act} (hother : s.isOther r q a = true)
    (hs : s.link.step c q a = some l') : Inv r n { s with link := l' } := by
  obtain ⟨x, m', ha, rfl⟩ := Link.step_cases hs
  by_cases hq : q = r
  · subst hq
    cases a with
    | tx a =>
      have hrx := Side.txStep_rx ha
      refine h.congr (fun _ => ?_) (fun g hg _ => ?_)
      · simp only [Function.update_self, hrx]
      · simpa only [Function.update_self, hrx] using hg
    | rx a =>
      have hdone : ∀ hold, a ≠ .done hold := by
        rintro hold rfl
        simp [State.isOther] at hother
      obtain ⟨hhand, hheld⟩ := Side.rxStep_keeps hdone ha
      refine h.congr (fun hret => ?_) (fun g hg hlive => ?_)
      · obtain ⟨g, hg⟩ := h.hand hret
        simp only [Function.update_self]
        exact hhand.resolve_right fun hne => hne g hg
      · simp only [Function.update_self]
        refine hheld g hg ?_
        rintro i rfl hi
        obtain ⟨e, he, heq⟩ := hlive
        simp only [State.isOther, ne_eq, not_true_eq_false, if_false, hi, Option.all_some, List.all_eq_true,
          decide_eq_true_iff] at hother
        exact hother e he heq
    | txCallback =>
      cases ha
      refine h.congr (fun _ => ?_) (fun g hg _ => ?_)
      · simp only [Function.update_self]
      · simpa only [Function.update_self] using hg
  · have hside : Function.update s.link.side q x r = s.link.side r := Function.update_of_ne (Ne.symm hq) _ _
    refine h.congr (fun _ => ?_) (fun g hg _ => ?_)
    · simp only [hside]
    · simpa only [hside] using hg

/-! ## The receive callback -/

theorem Side.rxDone_rx {x x' : Side} {m m' : ByteMem} {hold : Bool} (ha : x.rxStep c m (.done hold) = some (x', m'))
    (hrun : x'.halted = false) : ∃ g, x.rx.hand = .seen g ∧ x'.rx.held = if hold then x.rx.held ++ [g] else x.rx.held := by
  cases Side.rxStep_cases ha with
  | doneStuck => cases hrun
  | done hhand => exact ⟨_, hhand, rfl⟩

/-- The receive callback is done with its message, and holds it if the endpoint kept it. -/
theorem Inv.rxDone (h : Inv r n s) {hold : Bool} (hret : s.ret = some hold)
    (hs : s.link.step c r (.rx (.done hold)) = some l') (hrun : (l'.side r).halted = false) :
    Inv r n { s with link := l', ret := none } := by
  obtain ⟨x, m', ha, rfl⟩ := Link.step_cases hs
  simp only [Function.update_self] at hrun
  obtain ⟨g, hhand, hheld⟩ := Side.rxDone_rx ha hrun
  refine ⟨fun hne => absurd rfl hne, h.nodup, fun e he => ?_, h.capacity, h.dropped, h.addressed⟩
  obtain ⟨g', hg, heq⟩ := h.mine e he
  refine ⟨g', List.mem_append_right _ ?_, heq⟩
  simp only [Function.update_self, hheld]
  unfold State.mine at hg
  rw [hret, hhand] at hg
  cases hold with
  | true =>
    rcases List.mem_append.1 hg with hg | hg
    · exact List.mem_append_right _ hg
    · exact List.mem_append_left _ hg
  | false => exact hg

/-- The endpoint's callback returns without having used a queue. -/
theorem Inv.returns (h : Inv r n s) (hret : s.ret = none) (hhand : (s.link.side r).rx.hand = .seen g) (hold : Bool) :
    Inv r n { s with ret := some hold } := by
  refine ⟨fun _ => ⟨g, hhand⟩, h.nodup, fun e he => ?_, h.capacity, h.dropped, h.addressed⟩
  obtain ⟨g', hg, heq⟩ := h.mine e he
  unfold State.mine at hg
  rw [hret, if_neg (by simp)] at hg
  exact ⟨g', List.mem_append_right _ hg, heq⟩

/-- While a message has been received and not put in a queue yet, there is room for it in every queue. -/
theorem Inv.room (h : Inv r (W.pool r.peer).vr.num s) (hl : LinkInv W s.link P)
    (hhand : (s.link.side r).rx.hand = .seen g) {q : EnvQueue} (hq : q ∈ s.queues) : q.items.length < q.capacity := by
  have hlive := h.length_le hl
  have hitems := items_le_live hq
  have hpos : 0 < (s.link.side r).rx.gots.length := by
    unfold RxHalf.gots
    rw [hhand]
    exact Nat.succ_pos _
  have hgots := (hl.rx_buffers r).2
  rw [h.capacity q hq]
  omega

/-- A message that has not been put in a queue yet is new to all of them. -/
theorem Inv.fresh (h : Inv r n s) (hl : LinkInv W s.link P) (hret : s.ret = none)
    (hhand : (s.link.side r).rx.hand = .seen g) : msgDataAt g.buffer ∉ s.live.map RxCbData.data := by
  intro hmem
  obtain ⟨e, he, heq⟩ := List.mem_map.1 hmem
  obtain ⟨g', hg, hdata⟩ := h.mine e he
  unfold State.mine at hg
  rw [hret, if_neg (by simp)] at hg
  have hnodup := (hl.rx_buffers r).1
  unfold RxHalf.gots at hnodup
  rw [hhand, List.map_append] at hnodup
  have hbuf : g.buffer = g'.buffer := Nat.add_right_cancel (heq.symm.trans hdata)
  exact (List.nodup_append.1 hnodup).2.2 g.buffer (List.mem_singleton_self _) g'.buffer (List.mem_map_of_mem hg) hbuf

/-- `rpmsg_queue_rx_cb` finds room and keeps the message. -/
theorem Inv.queueRxCb (h : Inv r (W.pool r.peer).vr.num s) (hl : LinkInv W s.link P) (hret : s.ret = none)
    (hhand : (s.link.side r).rx.hand = .seen g) {k : Nat} {q : EnvQueue} (hk : s.queues[k]? = some q) :
    Inv r (W.pool r.peer).vr.num (s.queueRxCb k q (msgOf s.link.m g)) := by
  have hq : q ∈ s.queues := List.mem_of_getElem? hk
  have hroom := h.room hl hhand hq
  have hput : ∃ q', q.envPutQueue (msgOf s.link.m g) = some q' ∧ q'.items = q.items ++ [msgOf s.link.m g] ∧
      q'.capacity = q.capacity := by
    unfold EnvQueue.envPutQueue
    rw [dif_pos hroom]
    exact ⟨_, rfl, rfl, rfl⟩
  obtain ⟨q', hput, hitems, hcap⟩ := hput
  have hperm := live_put hk hitems
  unfold State.queueRxCb rpmsgQueueRxCb
  simp only [hput]
  refine ⟨fun _ => ⟨g, hhand⟩, ?_, fun e he => ?_, fun p hp => ?_, h.dropped, ?_⟩
  · refine ((hperm.map RxCbData.data).nodup_iff).2 ?_
    exact List.nodup_cons.2 ⟨h.fresh hl hret hhand, h.nodup⟩
  · rcases List.mem_cons.1 (hperm.mem_iff.1 he) with rfl | he
    · refine ⟨g, List.mem_append_left _ ?_, rfl⟩
      rw [if_pos rfl, hhand]
      exact List.mem_singleton_self g
    · obtain ⟨g', hg, heq⟩ := h.mine e he
      unfold State.mine at hg
      rw [hret, if_neg (by simp)] at hg
      exact ⟨g', List.mem_append_right _ hg, heq⟩
  · rcases List.mem_or_eq_of_mem_set hp with hp | rfl
    · exact h.capacity p hp
    · exact hcap.trans (h.capacity q hq)
  · refine (List.perm_append_singleton _ _).trans ?_
    exact (h.addressed.cons _).trans (hperm.symm.append_right s.freed)

/-! ## The receiving tasks -/

theorem Inv.rpmsgQueueCreate (h : Inv r (W.pool r.peer).vr.num s) (hl : LinkInv W s.link P) :
    Inv r (W.pool r.peer).vr.num
      { s with queues := s.queues ++ [RxQueues.rpmsgQueueCreate (s.link.side r).dev] } := by
  have hlive : (s.queues ++ [RxQueues.rpmsgQueueCreate (s.link.side r).dev]).flatMap EnvQueue.items =
      s.queues.flatMap EnvQueue.items := by
    rw [List.flatMap_append, List.flatMap_singleton]
    exact List.append_nil _
  refine ⟨h.hand, ?_, fun e he => ?_, fun q hq => ?_, h.dropped, ?_⟩
  · unfold State.live
    rw [hlive]
    exact h.nodup
  · unfold State.live at he
    rw [hlive] at he
    exact h.mine e he
  · rcases List.mem_append.1 hq with hq | hq
    · exact h.capacity q hq
    · rw [List.mem_singleton.1 hq]
      show 2 * (s.link.side r).dev.rvq.nentries.toNat = _
      rw [hl.rvq_nentries]
  · unfold State.live
    rw [hlive]
    exact h.addressed

/-- A task takes a message. -/
theorem Inv.envGetQueue (h : Inv r n s) {k : Nat} {q q' : EnvQueue} {e : RxCbData} (hk : s.queues[k]? = some q)
    (hget : q.envGetQueue = some (e, q')) : Inv r n { s with queues := s.queues.set k q', tasks := s.tasks ++ [e] } := by
  obtain ⟨hitems, hcap⟩ := EnvQueue.envGetQueue_items hget
  have hperm := live_get hk hitems
  refine ⟨h.hand, ?_, fun e he => ?_, fun p hp => ?_, h.dropped, ?_⟩
  · exact ((hperm.map RxCbData.data).nodup_iff).2 h.nodup
  · exact h.mine e (hperm.mem_iff.1 he)
  · rcases List.mem_or_eq_of_mem_set hp with hp | rfl
    · exact h.capacity p hp
    · exact hcap.trans (h.capacity q (List.mem_of_getElem? hk))
  · exact h.addressed.trans (hperm.symm.append_right s.freed)

/-- The message of a task that does not release it too early is one the core holds. -/
theorem Inv.held (h : Inv r n s) {i : Nat} {e : RxCbData} (hi : s.tasks[i]? = some e)
    (hset : settled r s (.own (.release i)) = true) : ∃ g ∈ (s.link.side r).rx.held, e.data = msgDataAt g.buffer := by
  obtain ⟨g, hg, heq⟩ := h.mine e (List.mem_append_right _ (List.mem_of_getElem? hi))
  simp only [settled, hi, Option.all_some, List.all_eq_true, decide_eq_true_iff] at hset
  rcases List.mem_append.1 hg with hg | hg
  · split at hg
    · exact absurd heq (hset g hg)
    · cases hg
  · exact ⟨g, hg, heq⟩

/-- A release takes the message from its task and from the held buffers. -/
theorem Inv.release (h : Inv r n s) {i j : Nat} {e : RxCbData} (hi : s.tasks[i]? = some e)
    (hj : (s.link.side r).rx.held[j]? = some g) (heq : e.data = msgDataAt g.buffer)
    (hs : s.link.step c r (.rx (.releaseRxBuffer j)) = some l') (hrun : (l'.side r).halted = false) :
    Inv r n { s with link := l', tasks := s.tasks.eraseIdx i, freed := s.freed ++ [e] } := by
  obtain ⟨x, m', ha, rfl⟩ := Link.step_cases hs
  simp only [Function.update_self] at hrun
  obtain ⟨hheld, hhand⟩ := Side.releaseRxBuffer_rx ha hrun
  have hperm := live_erase hi
  have hnodup : ((e :: (s.queues.flatMap EnvQueue.items ++ s.tasks.eraseIdx i)).map RxCbData.data).Nodup :=
    ((hperm.map RxCbData.data).nodup_iff).1 h.nodup
  obtain ⟨hnew, hnodup⟩ := List.nodup_cons.1 hnodup
  refine ⟨fun hret => ?_, hnodup, fun e' he => ?_, h.capacity, h.dropped, ?_⟩
  · simp only [Function.update_self, hhand]
    exact h.hand hret
  · obtain ⟨g', hg, heq'⟩ := h.mine e' (hperm.mem_iff.2 (List.mem_cons_of_mem e he))
    refine ⟨g', ?_, heq'⟩
    simp only [State.mine, Function.update_self, hhand, hheld]
    rcases List.mem_append.1 hg with hg | hg
    · exact List.mem_append_left _ hg
    · refine List.mem_append_right _ (mem_eraseIdx_of_ne hg fun hj' => hnew ?_)
      obtain rfl : g = g' := Option.some.inj (hj.symm.trans hj')
      rw [heq, ← heq']
      exact List.mem_map_of_mem he
  · refine h.addressed.trans ((hperm.append_right s.freed).trans ?_)
    rw [List.cons_append, ← List.append_assoc]
    exact (List.perm_append_singleton e _).symm

/-! ## Every run -/

/-- A release that is not too early is the release of the link. -/
theorem Inv.release_step (h : Inv r n s) (hl : LinkInv W s.link P) {i : Nat} {e : RxCbData} (hi : s.tasks[i]? = some e)
    (hset : settled r s (.own (.release i)) = true) :
    ∃ j g, (s.link.side r).rx.held[j]? = some g ∧ e.data = msgDataAt g.buffer ∧
      s.link.step c r (.rx (.releaseRxBuffer j)) = some (s.link.giveBack c r e.data) := by
  obtain ⟨g, hg, heq⟩ := h.held hi hset
  obtain ⟨j, g', hj, hbuf, hs⟩ := Link.giveBack_eq (c := c) (hl.running r) hg
  exact ⟨j, g', hj, heq.trans hbuf.symm, by rw [heq]; exact hs⟩

/-- A step of the core on its queues. -/
theorem Inv.own (h : Inv r (W.pool r.peer).vr.num s) (hl : LinkInv W s.link P)
    (hpay : ∀ r, c.payloadSize + 16 ≤ (W.pool r).size) {a : OwnAct} (hset : settled r s (.own a) = true)
    (hs : s.own c r a = some s') :
    (∃ P' : ∀ r, Custody (W.pool r).ids, LinkInv W s'.link P') ∧ Inv r (W.pool r.peer).vr.num s' := by
  cases a with
  | rpmsgQueueCreate =>
    cases hs
    exact ⟨⟨P, hl⟩, h.rpmsgQueueCreate hl⟩
  | endpoints epts =>
    simp only [State.own] at hs
    split at hs
    · cases hs
      exact ⟨⟨P, hl⟩, h.hand, h.nodup, h.mine, h.capacity, h.dropped, h.addressed⟩
    · cases hs
  | rxCb hold =>
    simp only [State.own] at hs
    split at hs
    · rename_i g hret hhand
      split at hs
      · cases hs
        exact ⟨⟨P, hl⟩, h.returns hret hhand false⟩
      · cases hs
        exact ⟨⟨P, hl⟩, h.returns hret hhand hold⟩
      · rename_i k _
        obtain ⟨q, hk, rfl⟩ := Option.map_eq_some_iff.1 hs
        refine ⟨⟨P, ?_⟩, h.queueRxCb hl hret hhand hk⟩
        unfold State.queueRxCb
        split
        · exact hl
        · exact hl
    · cases hs
  | rxDone =>
    obtain ⟨hold, hret, hs⟩ := Option.bind_eq_some_iff.1 hs
    obtain ⟨l', hstep, rfl⟩ := Option.map_eq_some_iff.1 hs
    obtain ⟨P', hl', -⟩ := hl.step hpay hstep
    exact ⟨⟨P', hl'⟩, h.rxDone hret hstep (hl'.running r)⟩
  | envGetQueue k =>
    obtain ⟨q, hk, hs⟩ := Option.map_eq_some_iff.1 hs
    split at hs
    · subst hs
      exact ⟨⟨P, hl⟩, h⟩
    · rename_i e q' hget
      subst hs
      exact ⟨⟨P, hl⟩, h.envGetQueue hk hget⟩
  | release i =>
    obtain ⟨e, hi, rfl⟩ := Option.map_eq_some_iff.1 hs
    obtain ⟨j, g, hj, heq, hstep⟩ := h.release_step (c := c) hl hi hset
    obtain ⟨P', hl', -⟩ := hl.step hpay hstep
    exact ⟨⟨P', hl'⟩, h.release hi hj heq hstep (hl'.running r)⟩

theorem Inv.step (h : Inv r (W.pool r.peer).vr.num s) (hl : LinkInv W s.link P)
    (hpay : ∀ r, c.payloadSize + 16 ≤ (W.pool r).size) {mv : Move} (hset : settled r s mv = true)
    (hs : s.step c r mv = some s') :
    (∃ P' : ∀ r, Custody (W.pool r).ids, LinkInv W s'.link P') ∧ Inv r (W.pool r.peer).vr.num s' := by
  cases mv with
  | link q a =>
    simp only [State.step] at hs
    split at hs
    · rename_i hother
      obtain ⟨l', hstep, rfl⟩ := Option.map_eq_some_iff.1 hs
      obtain ⟨P', hl', -⟩ := hl.step hpay hstep
      exact ⟨⟨P', hl'⟩, h.link hother hstep⟩
    · cases hs
  | own a =>
    simp only [State.step] at hs
    split at hs
    · cases hs
    · exact h.own hl hpay hset hs

theorem Reachable.inv {l : Link} (hl : LinkInv W l P) (hpay : ∀ r, c.payloadSize + 16 ≤ (W.pool r).size)
    (h : Reachable c r (settled r) (.start l) s) :
    (∃ P' : ∀ r, Custody (W.pool r).ids, LinkInv W s.link P') ∧ Inv r (W.pool r.peer).vr.num s := by
  induction h with
  | start => exact ⟨⟨P, hl⟩, inv_start⟩
  | step _ hok hs ih =>
    obtain ⟨⟨P', hl'⟩, hinv⟩ := ih
    exact hinv.step hl' hpay hok hs

theorem isRun (c : LinkConfig) (r : Role) (ok : State → Move → Bool) :
    IsRun (IsRun.guarded ok fun s mv => s.step c r mv) (State.run c r ok) :=
  .of_guarded (fun _ => rfl) fun _ _ _ => rfl

theorem reachable_of_run {ok : State → Move → Bool} {s₀ : State} {mvs : List Move} (hs : Reachable c r ok s₀ s)
    (h : s.run c r ok mvs = some s') : Reachable c r ok s₀ s' :=
  (isRun c r ok).keeps_of_check (fun hok hs hstep => hs.step hok hstep) hs h

end

end RxQueues

end RpmsgLite
