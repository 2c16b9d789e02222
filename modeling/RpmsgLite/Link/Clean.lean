/-
A send takes and publishes one descriptor, or leaves everything as it was. In every run of a call, with
any steps of others in between, each step of the call either changes nothing or is the one take, the one
fill or the one publication; whatever the exit, the lock is released as often as it was taken.
-/
import RpmsgLite.Link.Calls

namespace RpmsgLite

open ByteMem

/-! ## What the steps of a call do -/

inductive TxEffect
  | take (d : UInt16)
  | write (d : UInt16)
  | publish (d : UInt16)

/-- Nothing changes and the peer is not notified. -/
def TxOwn.Idle (o : TxOwn) : Prop := o.after = o.before ∧ TxEvent.notify ∉ o.events

/-- The other vring stays as it is. -/
def TxOwn.Local (o : TxOwn) (r : Role) : Prop :=
  o.after.side r.peer = o.before.side r.peer ∧ o.after.freeIds r.peer = o.before.freeIds r.peer ∧
    o.after.queueIds r.peer = o.before.queueIds r.peer

/-- What a step does to the vring that `r` sends on: it takes the oldest free descriptor, which nobody
owns and no message uses; it writes a buffer of `r`; it publishes a descriptor of `r` and notifies once. -/
def TxEffect.Holds (r : Role) (o : TxOwn) : TxEffect → Prop
  | .take d => o.Local r ∧ o.before.freeIds r = d :: o.after.freeIds r ∧ o.after.queueIds r = o.before.queueIds r ∧
      d ∉ o.before.txIds r ++ o.before.queueIds r ++ o.before.rxIds r ∧ TxEvent.notify ∉ o.events
  | .write d => o.Local r ∧ o.after.freeIds r = o.before.freeIds r ∧ o.after.queueIds r = o.before.queueIds r ∧
      d ∈ o.before.txIds r ∧ TxEvent.notify ∉ o.events
  | .publish d => o.Local r ∧ o.after.freeIds r = o.before.freeIds r ∧ o.after.queueIds r = o.before.queueIds r ++ [d] ∧
      d ∈ o.before.txIds r ∧ o.events.count .notify = 1

/-- The steps of a call have these effects, in this order, and no other. -/
inductive Effects (r : Role) : List TxOwn → List TxEffect → Prop
  | nil : Effects r [] []
  | idle {log : List TxOwn} {es : List TxEffect} {o : TxOwn} (h : Effects r log es) (ho : o.Idle) : Effects r (log ++ [o]) es
  | act {log : List TxOwn} {es : List TxEffect} {o : TxOwn} {e : TxEffect} (h : Effects r log es) (ho : e.Holds r o) :
      Effects r (log ++ [o]) (es ++ [e])

/-- What a call has done when it returns. -/
inductive TxCall.Clean (r : Role) (log : List TxOwn) : TxCall → TxRet → Prop
  | failed {call : TxCall} {status : Int} (hst : status ≠ RL_SUCCESS) (h : Effects r log []) : Clean r log call (.status status)
  | noBuffer {size : Bool} {timeout : Nat} (h : Effects r log []) :
      Clean r log (.allocTxBuffer size timeout) (.buffer none)
  | sent {ept : Option UInt32} {dst : UInt32} {data : Option (Nat → UInt8)} {size timeout : Nat} {d : UInt16}
      (h : Effects r log [.take d, .write d, .publish d]) : Clean r log (.send ept dst data size timeout) (.status RL_SUCCESS)
  | allocated {size : Bool} {timeout : Nat} {g : Got} (h : Effects r log [.take g.idx]) :
      Clean r log (.allocTxBuffer size timeout) (.buffer (some g))
  | sentNocopy {ept : Option UInt32} {dst : UInt32} {g : Got} {size : Nat} (h : Effects r log [.publish g.idx]) :
      Clean r log (.sendNocopy ept dst (some g) size) (.status RL_SUCCESS)

/-- How often the call has done something. -/
def times (log : List TxOwn) (e : TxEvent) : Nat := (log.flatMap TxOwn.events).count e

/-! ## What nobody else touches stays -/

section Keeps

variable {c : LinkConfig} {x x' : Side} {m m' : ByteMem}

theorem mem_eraseIdx_of_ne {α : Type} {l : List α} {i : Nat} {a : α} (ha : a ∈ l) (hne : l[i]? ≠ some a) :
    a ∈ l.eraseIdx i := by
  obtain ⟨j, hj⟩ := List.mem_iff_getElem?.1 ha
  refine List.mem_eraseIdx_iff_getElem?.2 ⟨j, ?_, hj⟩
  rintro rfl
  exact hne hj

theorem mem_set_of_ne {α : Type} {l : List α} {i : Nat} {a b : α} (ha : a ∈ l) (hne : l[i]? ≠ some a) : a ∈ l.set i b := by
  obtain ⟨j, hj⟩ := List.mem_iff_getElem?.1 ha
  refine List.mem_iff_getElem?.2 ⟨j, ?_⟩
  rw [List.getElem?_set_ne]
  · exact hj
  · rintro rfl
    exact hne hj

theorem Side.txStep_keeps {a : TxAct} (ha : x.txStep c m a = some (x', m')) :
    (∀ e ∈ x.tx.sending, (Act.tx a).buffer x ≠ some e.got → e ∈ x'.tx.sending) ∧
      ∀ g ∈ x.tx.owned, (Act.tx a).buffer x ≠ some g → g ∈ x'.tx.owned := by
  cases Side.txStep_cases ha with
  | sendRefused => exact ⟨fun e he _ => he, fun g hg _ => hg⟩
  | send => exact ⟨fun e he _ => List.mem_append_left _ he, fun g hg _ => hg⟩
  | fill hi =>
    refine ⟨fun e he hne => mem_set_of_ne he fun h => hne ?_, fun g hg _ => hg⟩
    simp only [Act.buffer, h, Option.map_some]
  | enqueueStuck => exact ⟨fun e he _ => he, fun g hg _ => hg⟩
  | enqueue hi =>
    refine ⟨fun e he hne => mem_eraseIdx_of_ne he fun h => hne ?_, fun g hg _ => hg⟩
    simp only [Act.buffer, h, Option.map_some]
  | allocNone => exact ⟨fun e he _ => he, fun g hg _ => hg⟩
  | allocTxBuffer => exact ⟨fun e he _ => he, fun g hg _ => List.mem_append_left _ hg⟩
  | write => exact ⟨fun e he _ => he, fun g hg _ => hg⟩
  | nocopyStuck => exact ⟨fun e he _ => he, fun g hg _ => hg⟩
  | sendNocopy => exact ⟨fun e he _ => he, fun g hg hne => mem_eraseIdx_of_ne hg hne⟩
  | nocopyRefused => exact ⟨fun e he _ => he, fun g hg _ => hg⟩

/-- The buffers a step does not work on stay where they are. -/
theorem Link.step_keeps {s s' : Link} {q r : Role} {a : Act} (hs : s.step c q a = some s') {own : Option Got}
    (hfree : q = r → ∀ g ∈ own, a.buffer (s.side r) ≠ some g) :
    (∀ e ∈ (s.side r).tx.sending, e.got ∈ own → e ∈ (s'.side r).tx.sending) ∧
      ∀ g ∈ (s.side r).tx.owned, g ∈ own → g ∈ (s'.side r).tx.owned := by
  obtain ⟨x, m', ha, rfl⟩ := Link.step_cases hs
  by_cases hq : r = q
  · subst hq
    simp only [Function.update_self]
    cases a with
    | tx a =>
      obtain ⟨h1, h2⟩ := Side.txStep_keeps ha
      exact ⟨fun e he ho => h1 e he (hfree rfl _ ho), fun g hg ho => h2 g hg (hfree rfl _ ho)⟩
    | rx a =>
      rw [Side.rxStep_tx ha]
      exact ⟨fun e he _ => he, fun g hg _ => hg⟩
    | txCallback =>
      cases ha
      exact ⟨fun e he _ => he, fun g hg _ => hg⟩
  · simp only [Function.update_of_ne hq]
    exact ⟨fun e he _ => he, fun g hg _ => hg⟩

end Keeps

/-! ## The steps of a call are steps of the link -/

/-- The same build with no limit but the payload size. -/
abbrev LinkConfig.unlimited (c : LinkConfig) : LinkConfig := { c with limit := c.payloadSize }

section Steps

variable {c : LinkConfig} {x x' : Side} {m m' : ByteMem} {src dst : UInt32} {data : List UInt8} {g : Got} {b : Bool}

theorem TxJob.alloc_send {timeout : UInt32} {got : Option Got} (hlink : x.dev.linkState = true)
    (hsize : data.length ≤ c.payloadSize) (h : (TxJob.send src dst data timeout).alloc c x m = (got, x', m')) :
    x.txStep c.unlimited m (.send src dst data) = some (x', m') := by
  have hle : ¬ data.length > c.payloadSize := Nat.not_lt.2 hsize
  unfold TxJob.alloc at h
  simp only [Side.txStep, rpmsgLiteSendAlloc, if_neg hle]
  rw [if_neg (by rw [hlink]; decide)]
  rcases hg : (x.dev.role.vqOps c.clear).vqTxAlloc x.dev.tvq m with ⟨tvq, _ | g⟩
  · rw [hg] at h
    cases h
    rfl
  · rw [hg] at h
    cases h
    rfl

theorem TxJob.alloc_allocTxBuffer {timeout : Nat} {got : Option Got} (hlink : x.dev.linkState = true)
    (h : (TxJob.allocTxBuffer timeout).alloc c x m = (got, x', m')) :
    x.txStep c.unlimited m .allocTxBuffer = some (x', m') := by
  unfold TxJob.alloc at h
  simp only [Side.txStep, rpmsgLiteAllocTxBuffer]
  rw [if_neg (by rw [hlink]; decide)]
  rcases hg : (x.dev.role.vqOps c.clear).vqTxAlloc x.dev.tvq m with ⟨tvq, _ | g⟩
  · rw [hg] at h
    cases h
    rfl
  · rw [hg] at h
    cases h
    rfl

theorem TxJob.tx_send {timeout : UInt32} (hi : x.tx.sending[x.tx.sendingAt g]? = some ⟨g, src, dst, data, true⟩)
    (h : (TxJob.send src dst data timeout).tx c x m g = some (x', m', b)) :
    x.txStep c.unlimited m (.enqueue (x.tx.sendingAt g)) = some (x', m') := by
  obtain ⟨y, hy, he⟩ := Option.map_eq_some_iff.1 h
  cases he
  simp only [Side.txStep, hi, rpmsgLiteSendEnqueue, hy]
  rfl

theorem TxJob.tx_sendNocopy {size : Nat} (hi : x.tx.owned[x.tx.ownedAt g]? = some g) (hlink : x.dev.linkState = true)
    (hsize : size ≤ c.payloadSize) (h : (TxJob.sendNocopy src dst size).tx c x m g = some (x', m', b)) :
    x.txStep c.unlimited m (.sendNocopy (x.tx.ownedAt g) src dst size) = some (x', m') := by
  have hle : ¬ size > c.payloadSize := Nat.not_lt.2 hsize
  obtain ⟨y, hy, he⟩ := Option.map_eq_some_iff.1 h
  cases he
  simp only [Side.txStep, hi, if_neg hle]
  rw [rpmsgLiteSendNocopy_eq hsize hlink, hy]
  rfl

end Steps

/-! ## The effect of a step from the hands of the sender -/

section Effects

variable {W : Pools} {c : LinkConfig} {s s' : Link} {P P' : ∀ r, Custody (W.pool r).ids} {r : Role} {d : UInt16}
  {events : List TxEvent}

/-- A step between two states of the link that leaves the other core and the receive side alone. -/
structure Link.Between (W : Pools) (r : Role) (s s' : Link) (P P' : ∀ r, Custody (W.pool r).ids) : Prop where
  before : LinkInv W s P
  after : LinkInv W s' P'
  move : ∀ q, (P q).Move (P' q)
  peer : s'.side r.peer = s.side r.peer
  rx : (s'.side r).rx = (s.side r).rx

theorem LinkInv.between (h : LinkInv W s P) (hpay : ∀ r, c.payloadSize + 16 ≤ (W.pool r).size) {a : TxAct} {x : Side}
    {m' : ByteMem} (ha : (s.side r).txStep c s.m a = some (x, m')) :
    ∃ P', Link.Between W r s { m := m', side := Function.update s.side r x } P P' := by
  obtain ⟨P', h', hmove⟩ := h.tx hpay ha
  refine ⟨P', h, h', hmove, Function.update_of_ne (Role.peer_ne r) x s.side, ?_⟩
  show (Function.update s.side r x r).rx = _
  rw [Function.update_self]
  exact Side.txStep_rx ha

namespace Link.Between

theorem sender (h : Between W r s s' P P') :
    (P r).sender = ((s.side r).tx.gots.map Got.idx : List UInt16) ∧
    (P' r).sender = ((s'.side r).tx.gots.map Got.idx : List UInt16) :=
  ⟨(h.before.flow r).sender, (h.after.flow r).sender⟩

theorem receiver (h : Between W r s s' P P') : (P' r).receiver = (P r).receiver := by
  rw [(h.after.flow r).receiver, (h.before.flow r).receiver, h.peer]

theorem other (h : Between W r s s' P P') : (TxOwn.mk s s' events).Local r := by
  have hsame := (h.move r.peer).same
    (by rw [(h.after.flow r.peer).sender, (h.before.flow r.peer).sender, h.peer])
    (by rw [(h.after.flow r.peer).receiver, (h.before.flow r.peer).receiver, Role.peer_peer, h.rx])
  refine ⟨h.peer, ?_, ?_⟩
  · show s'.freeIds r.peer = s.freeIds r.peer
    rw [h.after.freeIds, h.before.freeIds, hsame.1]
  · show s'.queueIds r.peer = s.queueIds r.peer
    rw [h.after.queueIds, h.before.queueIds, hsame.2]

theorem take (h : Between W r s s' P P')
    (hg : ((s'.side r).tx.gots.map Got.idx : Multiset UInt16) = d ::ₘ ((s.side r).tx.gots.map Got.idx : List UInt16))
    (hev : TxEvent.notify ∉ events) : (TxEffect.take d).Holds r ⟨s, s', events⟩ := by
  have hq := (h.move r).free_of_sender (by rw [h.sender.1, h.sender.2, hg])
  rw [← h.before.freeIds, ← h.after.freeIds, ← h.after.queueIds, ← h.before.queueIds] at hq
  obtain ⟨hfree, hqueue⟩ := hq
  refine ⟨h.other, hfree, hqueue, ?_, hev⟩
  have hperm := (h.before.conserved (r := r)).places
  have hn := hperm.nodup_iff.2 (Multiset.coe_nodup.1 ((W.pool r).ids_nodup))
  rw [hfree] at hn
  simp only [List.cons_append, List.nodup_cons, List.append_assoc, List.mem_append, not_or] at hn ⊢
  exact hn.1.2

theorem write (h : Between W r s s' P P')
    (hg : ((s'.side r).tx.gots.map Got.idx : Multiset UInt16) = ((s.side r).tx.gots.map Got.idx : List UInt16))
    (hd : d ∈ s.txIds r) (hev : TxEvent.notify ∉ events) : (TxEffect.write d).Holds r ⟨s, s', events⟩ := by
  have hq := (h.move r).same (by rw [h.sender.1, h.sender.2, hg]) h.receiver
  rw [← h.before.freeIds, ← h.after.freeIds, ← h.after.queueIds, ← h.before.queueIds] at hq
  exact ⟨h.other, hq.1, hq.2, hd, hev⟩

theorem publish (h : Between W r s s' P P')
    (hg : ((s.side r).tx.gots.map Got.idx : Multiset UInt16) = d ::ₘ ((s'.side r).tx.gots.map Got.idx : List UInt16))
    (hev : events.count .notify = 1) : (TxEffect.publish d).Holds r ⟨s, s', events⟩ := by
  have hq := (h.move r).queue_of_sender (by rw [h.sender.1, h.sender.2, hg])
  rw [← h.before.freeIds, ← h.after.freeIds, ← h.after.queueIds, ← h.before.queueIds] at hq
  refine ⟨h.other, hq.2, hq.1, ?_, hev⟩
  have hmem : d ∈ (((s.side r).tx.gots.map Got.idx : List UInt16) : Multiset UInt16) := hg ▸ Multiset.mem_cons_self d _
  exact Multiset.mem_coe.1 hmem

end Link.Between

/-- A kick asks for no more than a flag, so it would notify again. -/
theorem virtqueueKick_again {vq : Virtqueue} {m : ByteMem} (hf : vq.flags = 0) :
    vqRingMustNotifyHost (virtqueueKick vq m).1 m = (virtqueueKick vq m).2 := by
  unfold virtqueueKick vqRingMustNotifyHost
  dsimp only
  rw [if_neg (by rw [hf]; decide), if_neg (by rw [hf]; decide)]

end Effects

/-! ## Where a call is, and what it has done -/

section At

/-- The job of a call that is past its checks. -/
inductive TxCall.Doing (c : LinkConfig) : TxCall → TxJob → Prop
  | send {ept : Option UInt32} {dst src : UInt32} {p : Option (Nat → UInt8)} {data : List UInt8} {size timeout : Nat}
      {t : UInt32} (h : data.length ≤ c.payloadSize) : Doing c (.send ept dst p size timeout) (.send src dst data t)
  | allocTxBuffer {size : Bool} {timeout : Nat} : Doing c (.allocTxBuffer size timeout) (.allocTxBuffer timeout)
  | sendNocopy {ept : Option UInt32} {dst src : UInt32} {data : Option Got} {size : Nat} (h : size ≤ c.payloadSize) :
      Doing c (.sendNocopy ept dst data size) (.sendNocopy src dst size)

/-- A job that takes a buffer itself. -/
def TxJob.takes : TxJob → Bool
  | .sendNocopy _ _ _ => false
  | _ => true

/-- A job that publishes. -/
def TxJob.publishes : TxJob → Bool
  | .allocTxBuffer _ => false
  | _ => true

/-- The buffer of the job is in the hands of its core. -/
def TxJob.Has (j : TxJob) (x : Side) (filled : Bool) (g : Got) : Prop :=
  match j with
  | .send src dst data _ => ⟨g, src, dst, data, filled⟩ ∈ x.tx.sending
  | _ => g ∈ x.tx.owned

/-- What a job has done when it comes to publish. -/
def TxJob.prior (j : TxJob) (g : Got) : List TxEffect :=
  match j with
  | .send _ _ _ _ => [.take g.idx, .write g.idx]
  | _ => []

/-- A zero-copy send publishes the buffer it was given. -/
def TxCall.Given (call : TxCall) (j : TxJob) (g : Got) : Prop := j.takes = false → call.gives = some g

def TxCall.At (c : LinkConfig) (r : Role) (call : TxCall) (log : List TxOwn) (x : Side) : TxAt → Prop
  | .entry => (∀ g ∈ call.gives, g ∈ x.tx.owned) ∧ Effects r log []
  | .lock j _ | .alloc j _ | .sleep j _ | .unlock j _ none =>
    call.Doing c j ∧ x.dev.linkState = true ∧ j.takes = true ∧ Effects r log []
  | .unlock j _ (some g) =>
    call.Doing c j ∧ x.dev.linkState = true ∧ j.takes = true ∧ j.Has x false g ∧ Effects r log [.take g.idx]
  | .fill j g =>
    call.Doing c j ∧ x.dev.linkState = true ∧ (j.takes = true ∧ j.publishes = true) ∧ j.Has x false g ∧
      Effects r log [.take g.idx]
  | .lockTx j g | .tx j g =>
    call.Doing c j ∧ x.dev.linkState = true ∧ j.publishes = true ∧ call.Given j g ∧ j.Has x true g ∧
      Effects r log (j.prior g)
  | .unlockTx j g =>
    call.Doing c j ∧ j.publishes = true ∧ call.Given j g ∧ Effects r log (j.prior g ++ [.publish g.idx])
  | .ret v => call.Clean r log v

/-- The call holds the lock. -/
def TxAt.locked : TxAt → Nat
  | .alloc _ _ | .unlock _ _ _ | .tx _ _ | .unlockTx _ _ => 1
  | _ => 0

structure TxCall.Inv (W : Pools) (c : LinkConfig) (r : Role) (call : TxCall) (log : List TxOwn) (pc : TxAt) (s : Link) : Prop where
  note : s.Notifying W
  at_ : call.At c r log (s.side r) pc
  balance : times log .lock = times log .unlock + pc.locked

end At

section Run

variable {W : Pools} {c : LinkConfig} {interval : UInt32} {r : Role} {call : TxCall} {log : List TxOwn} {pc pc' : TxAt}
  {s s' : Link} {P : ∀ r, Custody (W.pool r).ids} {x x' : Side} {m m' : ByteMem} {events : List TxEvent} {j : TxJob} {g : Got}

theorem times_append (log : List TxOwn) (o : TxOwn) (e : TxEvent) : times (log ++ [o]) e = times log e + o.events.count e := by
  unfold times
  rw [List.flatMap_append, List.count_append, List.flatMap_singleton]

/-! ### Steps of others -/

theorem TxJob.Has.keep {b : Bool} (h : j.Has x b g)
    (hkeep : (∀ e ∈ x.tx.sending, e.got = g → e ∈ x'.tx.sending) ∧ (g ∈ x.tx.owned → g ∈ x'.tx.owned)) :
    j.Has x' b g := by
  cases j with
  | send src dst data timeout => exact hkeep.1 _ h rfl
  | allocTxBuffer timeout => exact hkeep.2 h
  | sendNocopy src dst size => exact hkeep.2 h

/-- A step of someone else leaves a call where it is. -/
theorem TxCall.At.other {q : Role} {a : Act} (h : call.At c r log (s.side r) pc) (hs : s.step c q a = some s')
    (hfree : q = r → ∀ g ∈ call.claims pc, a.buffer (s.side r) ≠ some g) : call.At c r log (s'.side r) pc := by
  obtain ⟨hsending, howned⟩ := Link.step_keeps hs hfree
  have hlink := Link.step_linkState hs r
  have hkeep : ∀ g ∈ call.claims pc, (∀ e ∈ (s.side r).tx.sending, e.got = g → e ∈ (s'.side r).tx.sending) ∧
      (g ∈ (s.side r).tx.owned → g ∈ (s'.side r).tx.owned) := fun g hg =>
    ⟨fun e he heq => hsending e he (heq ▸ hg), fun ho => howned g ho hg⟩
  cases pc with
  | entry => exact ⟨fun g hg => (hkeep g hg).2 (h.1 g hg), h.2⟩
  | lock j tick => exact ⟨h.1, hlink h.2.1, h.2.2⟩
  | alloc j tick => exact ⟨h.1, hlink h.2.1, h.2.2⟩
  | sleep j tick => exact ⟨h.1, hlink h.2.1, h.2.2⟩
  | unlock j tick got =>
    cases got with
    | none => exact ⟨h.1, hlink h.2.1, h.2.2⟩
    | some g =>
      obtain ⟨h1, h2, h3, h4, h5⟩ := h
      exact ⟨h1, hlink h2, h3, h4.keep (hkeep g rfl), h5⟩
  | fill j g =>
    obtain ⟨h1, h2, h3, h4, h5⟩ := h
    exact ⟨h1, hlink h2, h3, h4.keep (hkeep g rfl), h5⟩
  | lockTx j g =>
    obtain ⟨h1, h2, h3, h4, h5, h6⟩ := h
    exact ⟨h1, hlink h2, h3, h4, h5.keep (hkeep g rfl), h6⟩
  | tx j g =>
    obtain ⟨h1, h2, h3, h4, h5, h6⟩ := h
    exact ⟨h1, hlink h2, h3, h4, h5.keep (hkeep g rfl), h6⟩
  | unlockTx j g => exact h
  | ret v => exact h

/-! ### Steps that change nothing -/

/-- A step of the call that leaves the link as it is. -/
theorem TxCall.Inv.idle (h : call.Inv W c r log pc s) (hat : call.At c r (log ++ [⟨s, s, events⟩]) (s.side r) pc')
    (hbal : events.count .lock + pc.locked = events.count .unlock + pc'.locked) :
    call.Inv W c r (log ++ [⟨s, { m := s.m, side := Function.update s.side r (s.side r) }, events⟩]) pc'
      { m := s.m, side := Function.update s.side r (s.side r) } := by
  have hb := h.balance
  simp only [Function.update_eq_self]
  refine ⟨h.note, hat, ?_⟩
  rw [times_append, times_append]
  dsimp only
  omega

theorem Effects.quiet {es : List TxEffect} (h : Effects r log es) (s : Link) (events : List TxEvent)
    (hev : TxEvent.notify ∉ events) :
    Effects r (log ++ [⟨s, s, events⟩]) es := h.idle ⟨rfl, hev⟩

/-- A refusal by the argument checks. -/
theorem TxCall.checks_error {v : TxRet} (h : call.checks c x = .error v) (he : Effects r log []) : call.Clean r log v := by
  unfold TxCall.checks at h
  split at h
  · cases h
    exact .failed (by decide) he
  · split at h
    · cases h
      exact .failed (by decide) he
    split at h
    · cases h
      exact .failed (by decide) he
    split at h
    · cases h
      exact .failed (by decide) he
    · cases h
  · split at h
    · cases h
      exact .noBuffer he
    split at h
    · cases h
      exact .noBuffer he
    · cases h
  · split at h
    · cases h
      exact .failed (by decide) he
    split at h
    · cases h
      exact .failed (by decide) he
    · cases h
  · cases h
    exact .failed (by decide) he

/-- What a call has to do that passes the argument checks. -/
theorem TxCall.checks_ok (h : call.checks c x = .ok pc) (hg : ∀ g ∈ call.gives, g ∈ x.tx.owned) (he : Effects r log []) :
    call.At c r log x pc ∧ pc.locked = 0 := by
  have hup : ¬ (!x.dev.linkState) = true → x.dev.linkState = true := fun h => by simpa using h
  unfold TxCall.checks at h
  split at h
  · cases h
  · split at h
    · cases h
    rename_i hsize
    split at h
    · cases h
    split at h
    · cases h
    rename_i hlink
    cases h
    refine ⟨⟨.send ?_, hup hlink, rfl, he⟩, rfl⟩
    rw [List.length_map, List.length_range]
    exact Nat.le_of_not_lt hsize
  · split at h
    · cases h
    split at h
    · cases h
    rename_i hlink
    cases h
    exact ⟨⟨.allocTxBuffer, hup hlink, rfl, he⟩, rfl⟩
  · split at h
    · cases h
    rename_i hsize
    split at h
    · cases h
    rename_i hlink
    cases h
    exact ⟨⟨.sendNocopy (Nat.le_of_not_lt hsize), hup hlink, rfl, fun _ => rfl, hg _ rfl, he⟩, rfl⟩
  · cases h

/-- A call without a buffer gives up or sleeps. -/
theorem TxCall.At.attempted_none (interval : UInt32) (tick : Option UInt32) (hd : call.Doing c j) (hlink : x.dev.linkState = true)
    (ht : j.takes = true) (he : Effects r log []) :
    call.At c r log x (j.attempted interval tick none) ∧ (j.attempted interval tick none).locked = 0 := by
  have hret : call.Clean r log j.noBuffer := by
    cases hd with
    | send h => exact .failed (by decide) he
    | allocTxBuffer => exact .noBuffer he
    | sendNocopy h => cases ht
  unfold TxJob.attempted
  cases tick with
  | none =>
    dsimp only
    split
    · exact ⟨hret, rfl⟩
    · exact ⟨⟨hd, hlink, ht, he⟩, rfl⟩
  | some tick =>
    dsimp only
    split
    · exact ⟨hret, rfl⟩
    · exact ⟨⟨hd, hlink, ht, he⟩, rfl⟩

/-- A call with a buffer returns it or fills it. -/
theorem TxCall.At.attempted_some (interval : UInt32) (tick : Option UInt32) (hd : call.Doing c j) (hlink : x.dev.linkState = true)
    (ht : j.takes = true) (hhas : j.Has x false g) (he : Effects r log [.take g.idx]) :
    call.At c r log x (j.attempted interval tick (some g)) ∧ (j.attempted interval tick (some g)).locked = 0 := by
  cases hd with
  | send h => exact ⟨⟨.send h, hlink, ⟨rfl, rfl⟩, hhas, he⟩, rfl⟩
  | allocTxBuffer => exact ⟨.allocated he, rfl⟩
  | sendNocopy h => cases ht

/-! ### Taking a buffer -/

/-- A step of the call that is a transmit step of the link. -/
theorem LinkInv.tx_step (h : LinkInv W s P) {a : TxAct} (ha : (s.side r).txStep c s.m a = some (x, m)) :
    s.step c r (.tx a) = some { m, side := Function.update s.side r x } := by
  unfold Link.step
  rw [if_neg (by rw [h.running]; decide)]
  show ((s.side r).txStep c s.m a).map _ = _
  rw [ha]
  rfl

theorem TxJob.alloc_none (j : TxJob) (h : (x.dev.role.vqOps c.clear).vqTxAlloc x.dev.tvq m = (x.dev.tvq, none)) :
    j.alloc c x m = (none, x, m) := by
  unfold TxJob.alloc
  rw [h]

/-- A taken buffer is in the hands of the job, and its descriptor is the one the core has more. -/
theorem TxJob.alloc_some {tvq : Virtqueue} (ht : j.takes = true)
    (h : (x.dev.role.vqOps c.clear).vqTxAlloc x.dev.tvq m = (tvq, some g)) :
    ∃ x' m', j.alloc c x m = (some g, x', m') ∧ j.Has x' false g ∧ x'.dev.linkState = x.dev.linkState ∧
      ((x'.tx.gots.map Got.idx : List UInt16) : Multiset UInt16) = g.idx ::ₘ (x.tx.gots.map Got.idx : List UInt16) := by
  cases j with
  | send src dst data timeout =>
    refine ⟨{ x with dev := { x.dev with tvq }
                     tx := { x.tx with sending := x.tx.sending ++ [⟨g, src, dst, data, false⟩] } }, m, ?_,
      List.mem_append_right _ List.mem_cons_self, rfl, ?_⟩
    · unfold TxJob.alloc
      rw [h]
    · simp only [TxHalf.gots, List.map_append, List.map_singleton]
      exact coe_snoc _ _ _
  | allocTxBuffer timeout =>
    refine ⟨{ x with dev := { x.dev with tvq }, tx := { x.tx with owned := x.tx.owned ++ [g] } },
      m.st16 (hdrIdxAt g.buffer) g.idx, ?_, List.mem_append_right _ List.mem_cons_self, rfl, ?_⟩
    · unfold TxJob.alloc
      rw [h]
    · simp only [TxHalf.gots, List.map_append, List.map_singleton, ← List.append_assoc]
      have hsnoc := coe_snoc g.idx ((x.tx.sending.map Sending.got).map Got.idx ++ x.tx.owned.map Got.idx) []
      simpa only [List.append_nil] using hsnoc
  | sendNocopy src dst size => cases ht

theorem TxJob.alloc_txStep {got : Option Got} (hd : call.Doing c j) (ht : j.takes = true) (hlink : x.dev.linkState = true)
    (h : j.alloc c x m = (got, x', m')) : ∃ a, x.txStep c.unlimited m a = some (x', m') := by
  cases hd with
  | send hsize => exact ⟨_, TxJob.alloc_send hlink hsize h⟩
  | allocTxBuffer => exact ⟨_, TxJob.alloc_allocTxBuffer hlink h⟩
  | sendNocopy hsize => cases ht

theorem TxCall.Inv.alloc {tick : Option UInt32} {got : Option Got} (h : call.Inv W c r log (.alloc j tick) s)
    (hpay : ∀ r, c.payloadSize + 16 ≤ (W.pool r).size) (hs : j.alloc c (s.side r) s.m = (got, x, m)) :
    call.Inv W c r (log ++ [⟨s, { m, side := Function.update s.side r x }, []⟩]) (.unlock j tick got)
      { m, side := Function.update s.side r x } := by
  obtain ⟨hd, hlink, ht, he⟩ := h.at_
  obtain ⟨P, hinv⟩ := h.note.inv
  rcases (hinv.flow r).linked.txAlloc c.clear (show (s.side r).dev.role.getKind = r.getKind by rw [hinv.role r]) with
    hn | ⟨d, f, hf, hget, -⟩
  · rw [j.alloc_none hn] at hs
    cases hs
    exact h.idle ⟨hd, hlink, ht, he.quiet _ _ List.not_mem_nil⟩ rfl
  · obtain ⟨x', m', ha, hhas, hl, hg⟩ := TxJob.alloc_some ht hget
    rw [ha] at hs
    cases hs
    obtain ⟨a, hstep⟩ := TxJob.alloc_txStep hd ht hlink ha
    obtain ⟨P', hbetween⟩ := hinv.between (c := c.unlimited) hpay hstep
    have hb := h.balance
    refine ⟨h.note.step (c := c.unlimited) hpay (hinv.tx_step hstep), ?_, ?_⟩
    · have hx : ({ m, side := Function.update s.side r x } : Link).side r = x := Function.update_self r x s.side
      have heff := he.act (hbetween.take (by rw [hx]; exact hg) (List.not_mem_nil (a := TxEvent.notify)))
      rw [hx]
      exact ⟨hd, hl.trans hlink, ht, hhas, heff⟩
    · rw [times_append, times_append]
      exact hb

/-! ### Filling and publishing -/

/-- The entry of a send is found by its buffer. -/
theorem Flow.sendingAt_eq {B : BufferPool} {k : RingKind} {tvq rvq : Virtqueue} {t : TxHalf} {y : RxHalf} {Q : Custody B.ids}
    (h : Flow B k m tvq rvq t y Q) {e : Sending} (he : e ∈ t.sending) : t.sending[t.sendingAt e.got]? = some e := by
  have hlt : t.sendingAt e.got < t.sending.length := List.findIdx_lt_length_of_exists ⟨e, he, decide_eq_true rfl⟩
  have hgot : (t.sending[t.sendingAt e.got]).got = e.got := of_decide_eq_true (List.findIdx_getElem (w := hlt))
  rw [List.getElem?_eq_getElem hlt, h.sending_inj (List.getElem_mem hlt) he (congrArg Got.idx hgot)]

theorem TxHalf.ownedAt_eq {t : TxHalf} (hg : g ∈ t.owned) : t.owned[t.ownedAt g]? = some g := by
  have hlt : t.ownedAt g < t.owned.length := List.findIdx_lt_length_of_exists ⟨g, hg, decide_eq_true rfl⟩
  have hgot : t.owned[t.ownedAt g] = g := of_decide_eq_true (List.findIdx_getElem (w := hlt))
  rw [List.getElem?_eq_getElem hlt, hgot]

theorem TxCall.Inv.fill (h : call.Inv W c r log (.fill j g) s) (hpay : ∀ r, c.payloadSize + 16 ≤ (W.pool r).size)
    (hs : call.step c interval (s.side r) s.m (.fill j g) = some (pc', x, m, events)) :
    call.Inv W c r (log ++ [⟨s, { m, side := Function.update s.side r x }, events⟩]) pc'
      { m, side := Function.update s.side r x } := by
  obtain ⟨hd, hlink, ⟨ht, hp⟩, hhas, he⟩ := h.at_
  obtain ⟨P, hinv⟩ := h.note.inv
  have hb := h.balance
  cases j with
  | allocTxBuffer timeout => cases hp
  | sendNocopy src dst size => cases ht
  | send src dst data timeout =>
    have hi := (hinv.flow r).sendingAt_eq hhas
    simp only [TxCall.step, hi] at hs
    have hstep : (s.side r).txStep c.unlimited s.m (.fill ((s.side r).tx.sendingAt g)) = some (x, m) := by
      simp only [Side.txStep, hi]
      cases hs
      rfl
    obtain ⟨P', hbetween⟩ := hinv.between (c := c.unlimited) hpay hstep
    have hx : ({ m, side := Function.update s.side r x } : Link).side r = x := Function.update_self r x s.side
    have hlt : (s.side r).tx.sendingAt g < (s.side r).tx.sending.length := (List.getElem?_eq_some_iff.1 hi).1
    have hgots := TxHalf.gots_fill hi
    have hmem : g.idx ∈ s.txIds r := List.mem_map_of_mem (List.mem_append_left _ (List.mem_map_of_mem hhas))
    cases hs
    have heff := he.act (hbetween.write (d := g.idx) (by rw [hx, hgots]) hmem (List.not_mem_nil (a := TxEvent.notify)))
    refine ⟨h.note.step (c := c.unlimited) hpay (hinv.tx_step hstep), ?_, ?_⟩
    · rw [hx]
      exact ⟨hd, hlink, rfl, fun h => (by cases h), List.mem_set hlt _, heff⟩
    · rw [times_append, times_append]
      exact hb

/-- `vq_tx` and the kick are a transmit step that takes the descriptor from the hands of the core. -/
theorem TxJob.tx_txStep {B : BufferPool} {k : RingKind} {rvq : Virtqueue} {y : RxHalf} {Q : Custody B.ids} {b : Bool}
    (hflow : Flow B k m x.dev.tvq rvq x.tx y Q) (hd : call.Doing c j) (hp : j.publishes = true) (hlink : x.dev.linkState = true)
    (hhas : j.Has x true g) (h : j.tx c x m g = some (x', m', b)) :
    (∃ a, x.txStep c.unlimited m a = some (x', m')) ∧
      ((x.tx.gots.map Got.idx : List UInt16) : Multiset UInt16) = g.idx ::ₘ (x'.tx.gots.map Got.idx : List UInt16) ∧
      ∃ vq, x'.dev.tvq = (virtqueueKick vq m').1 ∧ b = (virtqueueKick vq m').2 := by
  cases hd with
  | allocTxBuffer => cases hp
  | send hsize =>
    have hi := hflow.sendingAt_eq hhas
    refine ⟨⟨_, TxJob.tx_send hi h⟩, ?_⟩
    obtain ⟨z, -, he⟩ := Option.map_eq_some_iff.1 h
    cases he
    refine ⟨?_, z.1, rfl, rfl⟩
    simp only [TxHalf.gots, List.map_append, List.map_map, ← Multiset.coe_add]
    rw [coe_eraseIdx (Got.idx ∘ Sending.got) hi, Multiset.cons_add]
    rfl
  | sendNocopy hsize =>
    have hi := TxHalf.ownedAt_eq hhas
    refine ⟨⟨_, TxJob.tx_sendNocopy hi hlink hsize h⟩, ?_⟩
    obtain ⟨z, -, he⟩ := Option.map_eq_some_iff.1 h
    cases he
    refine ⟨?_, z.1, rfl, rfl⟩
    simp only [TxHalf.gots, List.map_append, ← Multiset.coe_add]
    rw [coe_eraseIdx Got.idx hi, Multiset.add_cons]

/-- No assertion of `vq_tx` fails. -/
theorem TxJob.tx_isSome {B : BufferPool} {k : RingKind} {rvq : Virtqueue} {y : RxHalf} {Q : Custody B.ids}
    (hflow : Flow B k m x.dev.tvq rvq x.tx y Q) (hp : j.publishes = true) (hhas : j.Has x true g) :
    (j.tx c x m g).isSome = true := by
  cases j with
  | allocTxBuffer timeout => cases hp
  | send src dst data timeout =>
    have hgot : g ∈ x.tx.gots := List.mem_append_left _ (List.mem_map_of_mem hhas)
    unfold TxJob.tx
    rw [Option.isSome_map, vqTx_eq _ (hflow.linked.le_nentries (hflow.tx_ids hgot))]
    rfl
  | sendNocopy src dst size =>
    have hgot : g ∈ x.tx.gots := List.mem_append_right _ hhas
    have hidx : (writeHdr m g.buffer src dst size).ld16 (hdrIdxAt g.buffer) = g.idx := by
      rw [(writeHdr_spec m g.buffer src dst size).2.1, congrArg Got.buffer (hflow.contents.txGot g hgot)]
      exact hflow.contents.txKept g hhas
    simp only [TxJob.tx, hidx]
    rw [Option.isSome_map, vqTx_eq _ (hflow.linked.le_nentries (hflow.tx_ids hgot))]
    rfl

theorem TxCall.Inv.tx {b : Bool} (h : call.Inv W c r log (.tx j g) s) (hpay : ∀ r, c.payloadSize + 16 ≤ (W.pool r).size)
    (hs : j.tx c (s.side r) s.m g = some (x, m, b)) :
    call.Inv W c r (log ++ [⟨s, { m, side := Function.update s.side r x }, if b then [.notify] else []⟩]) (.unlockTx j g)
      { m, side := Function.update s.side r x } := by
  obtain ⟨hd, hlink, hp, hgiven, hhas, he⟩ := h.at_
  obtain ⟨P, hinv⟩ := h.note.inv
  obtain ⟨⟨a, hstep⟩, hg, vq, htvq, hb⟩ := TxJob.tx_txStep (hinv.flow r) hd hp hlink hhas hs
  obtain ⟨P', hbetween⟩ := hinv.between (c := c.unlimited) hpay hstep
  have hnote := h.note.step (c := c.unlimited) hpay (hinv.tx_step hstep)
  have hx : ({ m, side := Function.update s.side r x } : Link).side r = x := Function.update_self r x s.side
  -- the kick found the flag clear
  have hnotified : b = true := by
    have hflags : vq.flags = 0 := by
      have := hnote.wired.flags r .tvq
      rw [hx] at this
      exact (congrArg Virtqueue.flags htvq).symm.trans this
    have hmust := hnote.must r .tvq
    rw [hx] at hmust
    rw [hb, ← virtqueueKick_again hflags, ← htvq]
    exact hmust
  subst hnotified
  refine ⟨hnote, ?_, ?_⟩
  · rw [hx]
    exact ⟨hd, hp, hgiven, he.act (hbetween.publish (by rw [hx]; exact hg) rfl)⟩
  · have hbal := h.balance
    rw [times_append, times_append]
    exact hbal

/-- Every step of the call. -/
theorem TxCall.Inv.own (h : call.Inv W c r log pc s) (hpay : ∀ r, c.payloadSize + 16 ≤ (W.pool r).size)
    (hs : call.step c interval (s.side r) s.m pc = some (pc', x, m, events)) :
    call.Inv W c r (log ++ [⟨s, { m, side := Function.update s.side r x }, events⟩]) pc'
      { m, side := Function.update s.side r x } := by
  have hat := h.at_
  cases pc with
  | entry =>
    obtain ⟨hg, he⟩ := hat
    simp only [TxCall.step] at hs
    have he' : Effects r (log ++ [⟨s, s, []⟩]) [] := he.quiet _ _ List.not_mem_nil
    rcases hc : call.checks c (s.side r) with v | pc
    · rw [hc] at hs
      cases hs
      exact h.idle (TxCall.checks_error hc he') rfl
    · rw [hc] at hs
      cases hs
      obtain ⟨hat', hlock⟩ := TxCall.checks_ok hc hg he'
      exact h.idle hat' (by rw [hlock]; rfl)
  | lock j tick =>
    cases hs
    exact h.idle ⟨hat.1, hat.2.1, hat.2.2.1, hat.2.2.2.quiet _ _ (by decide)⟩ rfl
  | alloc j tick =>
    simp only [TxCall.step] at hs
    rcases ha : j.alloc c (s.side r) s.m with ⟨got, y, n⟩
    rw [ha] at hs
    cases hs
    exact h.alloc hpay ha
  | unlock j tick got =>
    cases hs
    cases got with
    | none =>
      obtain ⟨hd, hlink, ht, he⟩ := hat
      obtain ⟨hat', hlock⟩ := TxCall.At.attempted_none interval tick hd hlink ht
        (he.quiet s [.unlock] (by decide))
      exact h.idle hat' (by rw [hlock]; rfl)
    | some g =>
      obtain ⟨hd, hlink, ht, hhas, he⟩ := hat
      obtain ⟨hat', hlock⟩ := TxCall.At.attempted_some interval tick hd hlink ht hhas
        (he.quiet s [.unlock] (by decide))
      exact h.idle hat' (by rw [hlock]; rfl)
  | sleep j tick =>
    cases hs
    exact h.idle ⟨hat.1, hat.2.1, hat.2.2.1, hat.2.2.2.quiet _ _ (by decide)⟩ rfl
  | fill j g => exact h.fill hpay hs
  | lockTx j g =>
    cases hs
    obtain ⟨hd, hlink, hp, hgiven, hhas, he⟩ := hat
    exact h.idle ⟨hd, hlink, hp, hgiven, hhas, he.quiet _ _ (by decide)⟩ rfl
  | tx j g =>
    simp only [TxCall.step] at hs
    rcases ha : j.tx c (s.side r) s.m g with _ | ⟨y, n, b⟩
    · rw [ha] at hs
      cases hs
    · rw [ha] at hs
      cases hs
      exact h.tx hpay ha
  | unlockTx j g =>
    cases hs
    obtain ⟨hd, hp, hgiven, he⟩ := hat
    refine h.idle ?_ rfl
    cases hd with
    | allocTxBuffer => cases hp
    | send hsize => exact .sent (he.quiet _ _ (by decide))
    | sendNocopy hsize =>
      cases hgiven rfl
      exact .sentNocopy (he.quiet _ _ (by decide))
  | ret v => cases hs

/-- In every run of the call. -/
theorem TxCall.Run.inv {s₀ : Link} (h : call.Run c interval r s₀ log pc s) (h₀ : s₀.Notifying W)
    (hpay : ∀ r, c.payloadSize + 16 ≤ (W.pool r).size) (hgives : ∀ g ∈ call.gives, g ∈ (s₀.side r).tx.owned) :
    call.Inv W c r log pc s := by
  induction h with
  | start => exact ⟨h₀, ⟨hgives, .nil⟩, rfl⟩
  | other _ hfree hs ih => exact ⟨ih.note.step hpay hs, ih.at_.other hs hfree, ih.balance⟩
  | own _ hs ih => exact ih.own hpay hs

/-- A call that has not returned has a next step. -/
theorem TxCall.Inv.progress (h : call.Inv W c r log pc s) (hpc : ∀ v, pc ≠ .ret v) :
    (call.step c interval (s.side r) s.m pc).isSome = true := by
  have hat := h.at_
  obtain ⟨P, hinv⟩ := h.note.inv
  cases pc with
  | ret v => exact absurd rfl (hpc v)
  | entry =>
    simp only [TxCall.step]
    split <;> rfl
  | fill j g =>
    obtain ⟨-, -, ⟨ht, hp⟩, hhas, -⟩ := hat
    cases j with
    | allocTxBuffer timeout => cases hp
    | sendNocopy src dst size => cases ht
    | send src dst data timeout =>
      simp only [TxCall.step, (hinv.flow r).sendingAt_eq hhas]
      rfl
  | tx j g =>
    obtain ⟨-, -, hp, -, hhas, -⟩ := hat
    obtain ⟨z, hz⟩ := Option.isSome_iff_exists.1 (TxJob.tx_isSome (c := c) (m := s.m) (hinv.flow r) hp hhas)
    simp only [TxCall.step, hz]
    rfl
  | lock j tick => rfl
  | alloc j tick => rfl
  | unlock j tick got => rfl
  | sleep j tick => rfl
  | lockTx j g => rfl
  | unlockTx j g => rfl

end Run

theorem Link.Notifying.reachable {W : Pools} {c : LinkConfig} {s₀ s : Link} (h₀ : s₀.Notifying W)
    (hpay : ∀ r, c.payloadSize + 16 ≤ (W.pool r).size) (h : Link.Reachable c s₀ s) : s.Notifying W := by
  induction h with
  | start => exact h₀
  | step _ hs ih => exact ih.step hpay hs

/-! ## Every call -/

section

variable {w : Nat} {p : ShmemParams} {addr : Nat} {env envR : InitEnv} {highestM highestR linkId : UInt32}
  {cfg : ShmemConfig} {length : Nat} {m m' : ByteMem} {dm dr : RpmsgLiteInstance} {c : LinkConfig} {s₀ s : Link}

/-- From a ready start with clear notification flags, in every state of every run and for every call:
while the call has not returned it can go on, and when it returns, with any number of failed polls and
any steps of others in between, its steps had exactly the effects that its result says, and it has
released the lock as often as it has taken it. -/
theorem calls_clean (hm : rpmsgLiteMasterInit w env highestM cfg addr length linkId m = .instance dm m')
    (hr : rpmsgLiteRemoteInit w envR highestR cfg addr linkId = some dr) (hlen : addr + length ≤ 2 ^ 32)
    (hp : masterParams w cfg = some p) (hok : LinkReady w cfg addr p m)
    (hn : ∀ idx < 2, NotifyCleared m (vringOf w p addr idx) (zeroedSize w p)) (hc : c.payloadSize = cfg.payloadSize)
    (h : Link.Reachable c (Link.start m' dm dr) s₀) (interval : UInt32) (r : Role) (call : TxCall)
    (hgives : ∀ g ∈ call.gives, g ∈ (s₀.side r).tx.owned) {log : List TxOwn} {pc : TxAt}
    (hrun : call.Run c interval r s₀ log pc s) :
    ((∀ v, pc ≠ .ret v) → (call.step c interval (s.side r) s.m pc).isSome = true) ∧
      ∀ v, pc = .ret v → call.Clean r log v ∧ times log .lock = times log .unlock := by
  have hpay := hok.pool_payload hc
  have hnote := (notifying_start hm hr hlen hp hok hn).reachable hpay h
  have hinv := hrun.inv hnote hpay hgives
  refine ⟨hinv.progress, fun v hv => ?_⟩
  subst hv
  exact ⟨hinv.at_, hinv.balance⟩

end

/-! ## Alone -/

/-- At most `n` steps of a call, with nobody else running. -/
def TxCall.alone (call : TxCall) (c : LinkConfig) (interval : UInt32) (r : Role) :
    Nat → List TxOwn → TxAt → Link → List TxOwn × TxAt × Link
  | 0, log, pc, s => (log, pc, s)
  | n + 1, log, pc, s =>
    match call.step c interval (s.side r) s.m pc with
    | none => (log, pc, s)
    | some (pc, x, m, events) =>
      let s' := { m, side := Function.update s.side r x }
      call.alone c interval r n (log ++ [⟨s, s', events⟩]) pc s'

theorem TxCall.Run.alone {c : LinkConfig} {interval : UInt32} {r : Role} {call : TxCall} {s₀ : Link} (n : Nat) :
    ∀ {log : List TxOwn} {pc : TxAt} {s : Link}, call.Run c interval r s₀ log pc s →
      call.Run c interval r s₀ (call.alone c interval r n log pc s).1 (call.alone c interval r n log pc s).2.1
        (call.alone c interval r n log pc s).2.2 := by
  induction n with
  | zero => exact fun h => h
  | succ n ih =>
    intro log pc s h
    unfold TxCall.alone
    split
    · exact h
    · rename_i hs
      exact ih (h.own hs)

/-- Three bytes, without waiting. -/
def sendBytes : TxCall := .send (some 7) 9 (some fun i => UInt8.ofNat i) 3 0

/-- Alone, a send of the master takes, fills and publishes one descriptor. -/
theorem calls_clean_two : ∃ dm m' dr log s,
    rpmsgLiteMasterInit 32 InitEnv.ok 0 (.build (headerTwo 64 (by decide) (by decide))) 4124 512 0 (fun _ => 0) =
      .instance dm m' ∧
    rpmsgLiteRemoteInit 32 InitEnv.ok 0 (.build (headerTwo 64 (by decide) (by decide))) 4124 0 = some dr ∧
    sendBytes.Run ⟨false, 16, 16⟩ 1 .master (Link.start m' dm dr) log (.ret (.status RL_SUCCESS)) s ∧
    ∃ d, Effects .master log [.take d, .write d, .publish d] := by
  obtain ⟨dm, m', dr, hm, hr, ht⟩ := Link.of_check_two 0
    (fun dm m' dr => decide ((sendBytes.alone ⟨false, 16, 16⟩ 1 .master 8 [] .entry (Link.start m' dm dr)).2.1 =
      .ret (.status RL_SUCCESS)))
    (by decide +kernel)
  have hrun : sendBytes.Run ⟨false, 16, 16⟩ 1 .master (Link.start m' dm dr) _ _ _ := TxCall.Run.start.alone 8
  rw [of_decide_eq_true ht] at hrun
  refine ⟨dm, m', dr, _, _, hm, hr, hrun, ?_⟩
  have hclean := ((calls_clean hm hr (by decide) rfl linkReady_two
    (fun _ _ => Or.inr (show (0 : UInt8) &&& 1 = 0 by decide)) rfl .start 1 .master sendBytes
    (fun g hg => by cases hg) hrun).2 _ rfl).1
  cases hclean with
  | failed hst _ => exact absurd rfl hst
  | sent h => exact ⟨_, h⟩

theorem Effects.exists_holds {r : Role} {log : List TxOwn} {es : List TxEffect} {e : TxEffect} (h : Effects r log es)
    (he : e ∈ es) : ∃ o ∈ log, e.Holds r o := by
  induction h with
  | nil => cases he
  | idle _ _ ih =>
    obtain ⟨o, ho, hh⟩ := ih he
    exact ⟨o, List.mem_append_left _ ho, hh⟩
  | act _ hh ih =>
    rcases List.mem_append.1 he with he | he
    · obtain ⟨o, ho, hh⟩ := ih he
      exact ⟨o, List.mem_append_left _ ho, hh⟩
    · rw [List.mem_singleton.1 he]
      exact ⟨_, List.mem_append_right _ List.mem_cons_self, hh⟩

/-- The master has sent both its buffers. -/
def bothSent : List (Role × Act) :=
  [(.master, .tx (.send 7 9 [1])), (.master, .tx (.fill 0)), (.master, .tx (.enqueue 0)),
   (.master, .tx (.send 7 9 [2])), (.master, .tx (.fill 0)), (.master, .tx (.enqueue 0))]

/-- Over memory that was not cleared a third send succeeds with a buffer that the remote has not returned. -/
theorem calls_clean_garbage : ∃ dm m' dr s₀ log s,
    rpmsgLiteMasterInit 32 InitEnv.ok 0 (.build (headerTwo 64 (by decide) (by decide))) 4124 512 0 (fun _ => 4) =
      .instance dm m' ∧
    rpmsgLiteRemoteInit 32 InitEnv.ok 0 (.build (headerTwo 64 (by decide) (by decide))) 4124 0 = some dr ∧
    (Link.start m' dm dr).run ⟨false, 16, 16⟩ bothSent = some s₀ ∧
    sendBytes.Run ⟨false, 16, 16⟩ 1 .master s₀ log (.ret (.status RL_SUCCESS)) s ∧
    ¬ sendBytes.Clean .master log (.status RL_SUCCESS) := by
  obtain ⟨dm, m', dr, hm, hr, ht⟩ := Link.of_check_two 4
    (fun dm m' dr => ((Link.start m' dm dr).run ⟨false, 16, 16⟩ bothSent).any fun s₀ =>
      decide ((sendBytes.alone ⟨false, 16, 16⟩ 1 .master 8 [] .entry s₀).2.1 = .ret (.status RL_SUCCESS)) &&
      (sendBytes.alone ⟨false, 16, 16⟩ 1 .master 8 [] .entry s₀).1.all fun o =>
        (o.before.freeIds .master).head?.all fun d => decide (d ∈ o.before.queueIds .master))
    (by decide +kernel)
  obtain ⟨s₀, hs₀, hboth⟩ := (Option.any_eq_true _ _).1 ht
  obtain ⟨hret, hall⟩ := (Bool.and_eq_true _ _).mp hboth
  have hrun : sendBytes.Run ⟨false, 16, 16⟩ 1 .master s₀ _ _ _ := TxCall.Run.start.alone 8
  rw [of_decide_eq_true hret] at hrun
  refine ⟨dm, m', dr, s₀, _, _, hm, hr, hs₀, hrun, fun hclean => ?_⟩
  obtain ⟨d, es, heff⟩ : ∃ d es, Effects .master (sendBytes.alone ⟨false, 16, 16⟩ 1 .master 8 [] .entry s₀).1
      (TxEffect.take d :: es) := by
    cases hclean with
    | failed hst _ => exact absurd rfl hst
    | sent h => exact ⟨_, _, h⟩
  obtain ⟨o, ho, -, hfree, -, hnot, -⟩ := heff.exists_holds List.mem_cons_self
  have hq := List.all_eq_true.1 hall o ho
  rw [hfree] at hq
  replace hq : d ∈ o.before.queueIds .master := of_decide_eq_true hq
  exact hnot (List.mem_append_left _ (List.mem_append_right _ hq))

end RpmsgLite
