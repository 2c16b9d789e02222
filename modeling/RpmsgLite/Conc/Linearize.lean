/-
Every interleaving of single accesses is a run of the atomic queues: a producer takes effect when it
stores the index, a consumer when it loads it, and every other access is invisible. So what a consumer
returns was published completely, in order and once.
-/
import RpmsgLite.Conc.Accesses

namespace RpmsgLite

open ByteMem

section

variable {vr : Vring} {T : DescTable} {s s' : Micro}

theorem Micro.Inv.step (h : s.Inv vr T) {l : Option Label} (hs : Micro.Step s l s') :
    s'.Inv vr T ∧ Atomic.StepOr T (s.abs vr T) l (s'.abs vr T) := by
  cases hs with
  | callPut r d len hs hd =>
    refine h.quiet (x := ⟨(s.core r).vq, .put d len, (s.core r).owned.erase d⟩) (h.wf r) (h.ring r) trivial
      (Core.cons_congr rfl (by rw [hs]; rfl)) ?_
    exact .callPut (s.abs vr T) r d len (by simp only [Micro.abs, hs, Pc.status]) hd
  | callGet r hs =>
    refine h.quiet (x := ⟨(s.core r).vq, .get, (s.core r).owned⟩) (h.wf r) (h.ring r) trivial
      (Core.cons_congr rfl (by rw [hs]; rfl)) ?_
    rw [show (s.core r).owned = (s.abs vr T).owned r from rfl, Function.update_eq_self]
    exact .callGet (s.abs vr T) r (by simp only [Micro.abs, hs, Pc.status])
  | access r pc vq m hs => exact h.access hs
  | ret r res hs =>
    refine h.quiet (x := ⟨(s.core r).vq, .idle, (s.core r).owned + res.ids⟩) (h.wf r) (h.ring r) trivial
      (Core.cons_congr rfl (by rw [hs]; rfl)) ?_
    exact .ret (s.abs vr T) r res (by simp only [Micro.abs, hs, Pc.status])

theorem Micro.Inv.run {s₀ : Micro} {ls : List Label} (h₀ : s₀.Inv vr T) (h : Micro.Run s₀ ls s) :
    s.Inv vr T ∧ Atomic.Run T (s₀.abs vr T) ls (s.abs vr T) := by
  induction h with
  | start => exact ⟨h₀, .start⟩
  | @step ls l s s' _ hs ih =>
    obtain ⟨hinv, hrun⟩ := ih
    obtain ⟨hinv', hstep⟩ := hinv.step hs
    refine ⟨hinv', ?_⟩
    cases l with
    | none =>
      rw [show s'.abs vr T = s.abs vr T from hstep, Option.toList, List.append_nil]
      exact hrun
    | some l => exact hrun.step hstep

end

/-! ## Histories -/

/-- Two cores between operations on one vring: every descriptor is at most once on a ring or with a core. -/
structure Micro.Start (vr : Vring) (s : Micro) : Prop where
  wf : ∀ r, (s.core r).vq.Wf
  ring : ∀ r, (s.core r).vq.ring = vr
  idle : ∀ r, (s.core r).pc = .idle
  total : ∀ d ∈ (s.abs vr (vr.table s.m)).total, d.toNat < vr.num
  room : (s.abs vr (vr.table s.m)).total.card ≤ vr.num

/-- The history `ls` from `s₀` to `s` is one of the atomic queues, and on each ring what has been returned
is, in order, what was pending at the start and then what was published. -/
structure Micro.Linearized (vr : Vring) (s₀ : Micro) (ls : List Label) (s : Micro) : Prop where
  atomic : Atomic.Run (vr.table s₀.m) (s₀.abs vr (vr.table s₀.m)) ls (s.abs vr (vr.table s₀.m))
  written : ∀ k, ls.flatMap (Label.returned k) <+:
    s₀.queue vr (vr.table s₀.m) k ++ ls.flatMap (Label.published (vr.table s₀.m) k)

/-- What a core finds between the entries of a ring and the descriptors pending on it. -/
theorem Vring.PendingIs.entries {vr : Vring} {m : ByteMem} {k : RingKind} {cons : UInt16} {ids : List UInt16} {len : UInt32}
    (h : vr.PendingIs m k cons ids len) (T : DescTable) :
    (FreeRing.pending (vr.slotEntry T m k) vr.num (vr.ringIdx m k) cons).map Prod.fst = ids := by
  rw [FreeRing.map_pending]
  cases k with
  | avail => exact h
  | used =>
    have hids := congrArg (List.map fun e : UInt32 × UInt32 => e.1.toUInt16) h
    rw [Vring.usedPending, FreeRing.map_pending, List.map_map] at hids
    refine hids.trans ?_
    simp [Function.comp_def]

/-- Two cores of a vring that represent a custody of its descriptors. -/
def Micro.ofLinked {B : BufferPool} (r : Role) (m : ByteMem) (tvq rvq : Virtqueue) (P : Custody B.ids) : Micro where
  m := m
  core q := if q = r then ⟨tvq, .idle, P.sender⟩ else ⟨rvq, .idle, P.receiver⟩

/-- Between operations every state of the link is a start: the custody says where each descriptor is. -/
theorem Linked.start {B : BufferPool} {r : Role} {m : ByteMem} {tvq rvq : Virtqueue} {P : Custody B.ids}
    (h : Linked B r.getKind m tvq rvq P) : (Micro.ofLinked r m tvq rvq P).Start B.vr := by
  have hself : (Micro.ofLinked r m tvq rvq P).core r = ⟨tvq, .idle, P.sender⟩ := if_pos rfl
  have hpeer : (Micro.ofLinked r m tvq rvq P).core r.peer = ⟨rvq, .idle, P.receiver⟩ := if_neg (Role.peer_ne r)
  have hfree : ((Micro.ofLinked r m tvq rvq P).abs B.vr (B.vr.table m)).ids r.getKind = P.free := by
    show ((((Micro.ofLinked r m tvq rvq P).queue B.vr (B.vr.table m) r.getKind).map Prod.fst : List UInt16) : Multiset UInt16) = _
    rw [Micro.queue_get, hself]
    exact congrArg _ (h.free.entries _)
  have hqueue : ((Micro.ofLinked r m tvq rvq P).abs B.vr (B.vr.table m)).ids r.putKind = P.queue := by
    show ((((Micro.ofLinked r m tvq rvq P).queue B.vr (B.vr.table m) r.putKind).map Prod.fst : List UInt16) : Multiset UInt16) = _
    rw [Micro.queue_putKind, hpeer]
    exact congrArg _ (h.queue.entries _)
  have htotal : ((Micro.ofLinked r m tvq rvq P).abs B.vr (B.vr.table m)).total = B.ids := by
    rw [Atomic.total_eq _ r, hfree, hqueue]
    refine Eq.trans ?_ P.spread
    simp only [Atomic.held, Micro.abs, hself, hpeer, Pc.status, Status.hand, add_zero]
    ac_rfl
  refine ⟨fun q => ?_, fun q => ?_, fun q => ?_, ?_, ?_⟩
  · rcases r.eq_or_peer q with rfl | rfl
    · rw [hself]; exact h.tvq_wf
    · rw [hpeer]; exact h.rvq_wf
  · rcases r.eq_or_peer q with rfl | rfl
    · rw [hself]; exact h.tvq_ring
    · rw [hpeer]; exact h.rvq_ring
  · rcases r.eq_or_peer q with rfl | rfl
    · rw [hself]
    · rw [hpeer]
  · intro d hd
    exact B.mem_ids.1 (htotal ▸ hd)
  · exact (congrArg Multiset.card htotal).trans_le B.card_ids.le

section

variable {vr : Vring} {s₀ s : Micro} {ls : List Label}

theorem Micro.Start.inv (h : s.Start vr) : s.Inv vr (vr.table s.m) := by
  refine ⟨?_, h.wf, h.ring, vr.hasTable_self s.m, fun r => ?_, h.total, h.room⟩
  · rw [← h.ring .master]
    exact (h.wf .master).laid
  · unfold Pc.Ok
    rw [h.idle r]
    trivial

/-- Whatever the interleaving, the history of the single accesses is one of the atomic operations. -/
theorem micro_linearized (h₀ : s₀.Start vr) (h : Micro.Run s₀ ls s) : s₀.Linearized vr ls s := by
  obtain ⟨-, hrun⟩ := h₀.inv.run h
  refine ⟨hrun, fun k => ?_⟩
  have hfifo := hrun.fifo (fun r => by simp only [Micro.abs, h₀.idle r, Pc.status]) k
  unfold Atomic.Fifo at hfifo
  rw [show s₀.queue vr (vr.table s₀.m) = (s₀.abs vr (vr.table s₀.m)).queue from rfl, hfifo, List.append_assoc]
  exact List.prefix_append _ _

end

/-! ## Running an interleaving -/

/-- The next step of core `r`; between operations it is the call of `op`. -/
def Micro.step (s : Micro) (r : Role) (op : QueueOp) : Option (Option Label × Micro) :=
  match (s.core r).pc with
  | .idle =>
    match op with
    | .put d len =>
      if d ∈ (s.core r).owned then
        some (some (.call r (.put d len)),
          s.put r { s.core r with pc := (QueueOp.put d len).entry, owned := (s.core r).owned.erase d } s.m)
      else none
    | .get => some (some (.call r .get), s.put r { s.core r with pc := QueueOp.get.entry } s.m)
  | .ret res =>
    some (some (.ret r res), s.put r { s.core r with pc := .idle, owned := (s.core r).owned + res.ids } s.m)
  | pc => (pc.next r.getKind (s.core r).vq s.m).map fun x =>
    (pc.effect.map (Label.effect r), s.put r { s.core r with pc := x.1, vq := x.2.1 } x.2.2)

theorem Micro.step_sound {s s' : Micro} {r : Role} {op : QueueOp} {l : Option Label} (h : s.step r op = some (l, s')) :
    Micro.Step s l s' := by
  have access : ∀ pc, (s.core r).pc = pc → (pc.next r.getKind (s.core r).vq s.m).map (fun x =>
      (pc.effect.map (Label.effect r), s.put r { s.core r with pc := x.1, vq := x.2.1 } x.2.2)) = some (l, s') →
      Micro.Step s l s' := by
    rintro pc rfl h
    obtain ⟨⟨pc', vq', m'⟩, hn, he⟩ := Option.map_eq_some_iff.1 h
    cases he
    exact .access s r pc' vq' m' hn
  unfold Micro.step at h
  cases hp : (s.core r).pc with
  | idle =>
    rw [hp] at h
    cases op with
    | put d len =>
      by_cases hd : d ∈ (s.core r).owned
      · simp only [if_pos hd] at h
        cases h
        exact .callPut s r d len hp hd
      · simp only [if_neg hd] at h
        cases h
    | get =>
      cases h
      exact .callGet s r hp
  | ret res =>
    rw [hp] at h
    cases h
    exact .ret s r res hp
  | _ =>
    rw [hp] at h
    exact access _ hp h

/-- The interleaving that lets the cores step in the given order. -/
def Micro.run : Micro → List (Role × QueueOp) → Option (List Label × Micro)
  | s, [] => some ([], s)
  | s, (r, op) :: ops => (s.step r op).bind fun x => (Micro.run x.2 ops).map fun y => (x.1.toList ++ y.1, y.2)

theorem Micro.run_sound {s₀ : Micro} : ∀ {ops : List (Role × QueueOp)} {ls ls' : List Label} {s s' : Micro},
    Micro.Run s₀ ls s → s.run ops = some (ls', s') → Micro.Run s₀ (ls ++ ls') s'
  | [], ls, ls', s, s', h, hr => by
    cases hr
    rw [List.append_nil]
    exact h
  | (r, op) :: ops, ls, ls', s, s', h, hr => by
    obtain ⟨⟨l, s1⟩, h1, h2⟩ := Option.bind_eq_some_iff.1 hr
    obtain ⟨⟨ls2, s2⟩, h3, h4⟩ := Option.map_eq_some_iff.1 h2
    cases h4
    rw [← List.append_assoc]
    exact Micro.run_sound (h.step (Micro.step_sound h1)) h3

/-- A vring of two descriptors with its avail index about to wrap; both descriptors are the master's. -/
def wrapStart : Micro where
  m a := if a = 50 ∨ a = 51 then 0xFF else 0
  core
    | .master => ⟨⟨.txCallback, 0, ⟨2, 16, 48, 64⟩, 0, 2, 0, 0, 0, 0⟩, .idle, {0, 1}⟩
    | .remote => ⟨⟨.rxCallback, 0, ⟨2, 16, 48, 64⟩, 0, 2, 0, 0, 0, 0xFFFF⟩, .idle, 0⟩

/-- The remote polls while the master publishes descriptor 1, and again when it has. -/
def wrapOverlap : List (Role × QueueOp) :=
  [(.master, .put 1 5), (.master, .get), (.remote, .get), (.remote, .get), (.master, .get), (.master, .get),
   (.master, .get), (.remote, .get), (.remote, .get), (.remote, .get), (.remote, .get), (.master, .get),
   (.remote, .get), (.remote, .get), (.remote, .get), (.remote, .get)]

/-- The first poll finds nothing, the second the descriptor. -/
theorem micro_linearized_wrap : ∃ ls s, Micro.Run wrapStart ls s ∧
    (Label.ret .remote .empty ∈ ls ∧ Label.ret .remote (.got ⟨0, 0, 1⟩) ∈ ls) ∧
    wrapStart.Linearized ⟨2, 16, 48, 64⟩ ls s := by
  have hrun : (wrapStart.run wrapOverlap).any fun x =>
      decide (Label.ret .remote .empty ∈ x.1) && decide (Label.ret .remote (.got ⟨0, 0, 1⟩) ∈ x.1) := by
    decide +kernel
  obtain ⟨⟨ls, s⟩, hs, hret⟩ := (Option.any_eq_true _ _).1 hrun
  rw [Bool.and_eq_true, decide_eq_true_iff, decide_eq_true_iff] at hret
  have hmicro : Micro.Run wrapStart ls s := Micro.run_sound .start hs
  refine ⟨ls, s, hmicro, hret, micro_linearized ⟨?_, ?_, ?_, ?_, ?_⟩ hmicro⟩
  · intro r
    cases r <;> exact ⟨⟨⟨by decide, by decide⟩, by decide, by decide⟩, by decide⟩
  · intro r; cases r <;> rfl
  · intro r; cases r <;> rfl
  · have htotal : (wrapStart.abs ⟨2, 16, 48, 64⟩ ((⟨2, 16, 48, 64⟩ : Vring).table wrapStart.m)).total = {0, 1} := by
      decide +kernel
    rw [htotal]
    intro d hd
    rcases Multiset.mem_cons.1 hd with rfl | hd
    · decide
    · rw [Multiset.mem_singleton.1 hd]
      decide
  · decide +kernel

end RpmsgLite
