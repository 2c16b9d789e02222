/-
The link on platforms that translate addresses. The master writes `platform_vatopa` of its buffers into the
descriptors, each core passes what it reads there through its own `platform_patova`, and either core may find the
shared memory below where the other one does. Where the translations name the same bytes, the cores go through
the runs of the link on one address space.
-/
import RpmsgLite.Link.Handover
import RpmsgLite.Link.Lift

namespace RpmsgLite

open ByteMem

/-! ## The cores -/

/-- `platform_vatopa` and `platform_patova` of a core; `none` is a failed assertion. -/
structure Translation where
  platformVatopa : Nat → UInt32
  platformPatova : UInt32 → Option Nat

/-- How the cores address the shared memory: their translations, and how far below its address in the common address
space each core finds a byte. -/
structure Mapping where
  port : Role → Translation
  off : Role → Nat

/-- What the master writes into a descriptor for the buffer at `a`. -/
def Mapping.described (M : Mapping) (a : Nat) : UInt32 := (M.port .master).platformVatopa (a - M.off .master)

/-- The return value of a get operation: what the descriptor says, its address through `env_map_patova`. -/
def Translation.got (T : Translation) : Virtqueue × Option Got → Option (Virtqueue × Option Got)
  | (vq, none) => some (vq, none)
  | (vq, some g) => (T.platformPatova (UInt32.ofNat g.buffer)).map fun b => (vq, some { g with buffer := b })

section Step

variable (T : Translation) (c : LinkConfig) (s : Side) (m : ByteMem)

/-- `vq_tx_alloc` and `vq_rx` -/
def Translation.take (r : Role) (vq : Virtqueue) : Option (Virtqueue × Option Got) := (T.got (vqGet r.getKind vq m)).map nonNull

/-- `rpmsg_lite_send` up to `vq_tx_alloc` -/
def Translation.rpmsgLiteSendAlloc (payloadSize : Nat) (dev : RpmsgLiteInstance) (size : Nat) :
    Option (RpmsgLiteInstance × Except Int Got) :=
  if size > payloadSize then some (dev, .error RL_ERR_BUFF_SIZE)
  else if !dev.linkState then some (dev, .error RL_NOT_READY)
  else
    match T.take m dev.role dev.tvq with
    | none => none
    | some (tvq, none) => some ({ dev with tvq }, .error RL_ERR_NO_MEM)
    | some (tvq, some g) => some ({ dev with tvq }, .ok g)

/-- `rpmsg_lite_alloc_tx_buffer`, one attempt -/
def Translation.rpmsgLiteAllocTxBuffer (dev : RpmsgLiteInstance) : Option (RpmsgLiteInstance × ByteMem × Option Got) :=
  if !dev.linkState then some (dev, m, none)
  else
    match T.take m dev.role dev.tvq with
    | none => none
    | some (tvq, none) => some ({ dev with tvq }, m, none)
    | some (tvq, some g) => some ({ dev with tvq }, m.st16 (hdrIdxAt g.buffer) g.idx, some g)

/-- The `vq_rx` of `rpmsg_lite_rx_callback` -/
def Translation.rpmsgLiteRx (dev : RpmsgLiteInstance) : Option (RpmsgLiteInstance × Option Got) :=
  (T.take m dev.role dev.rvq).map fun y => ({ dev with rvq := y.1 }, y.2)

/-- The steps of a core; those that take no descriptor translate nothing. -/
def Side.stepOn : Act → Option (Side × ByteMem)
  | .tx (.send src dst data) =>
    if data.length > c.limit then none
    else
      match T.rpmsgLiteSendAlloc m c.payloadSize s.dev data.length with
      | none => some ({ s with halted := true }, m)
      | some (dev, .error _) => some ({ s with dev }, m)
      | some (dev, .ok got) =>
        some ({ s with dev, tx := { s.tx with sending := s.tx.sending ++ [⟨got, src, dst, data, false⟩] } }, m)
  | .tx .allocTxBuffer =>
    match T.rpmsgLiteAllocTxBuffer m s.dev with
    | none => some ({ s with halted := true }, m)
    | some (dev, m, none) => some ({ s with dev }, m)
    | some (dev, m, some g) => some ({ s with dev, tx := { s.tx with owned := s.tx.owned ++ [g] } }, m)
  | .rx .rx =>
    if s.rx.hand ≠ .idle then none
    else
      match T.rpmsgLiteRx m s.dev with
      | none => some ({ s with halted := true }, m)
      | some (dev, none) => some ({ s with dev }, m)
      | some (dev, some g) => some ({ s with dev, rx := { s.rx with hand := .taken g } }, m)
  | .tx (.fill i) => s.txStep c m (.fill i)
  | .tx (.enqueue i) => s.txStep c m (.enqueue i)
  | .tx (.write i off bytes) => s.txStep c m (.write i off bytes)
  | .tx (.sendNocopy i src dst size) => s.txStep c m (.sendNocopy i src dst size)
  | .rx .read => s.rxStep c m .read
  | .rx (.done hold) => s.rxStep c m (.done hold)
  | .rx (.writeMsg off bytes) => s.rxStep c m (.writeMsg off bytes)
  | .rx (.writeHeld i off bytes) => s.rxStep c m (.writeHeld i off bytes)
  | .rx (.releaseRxBuffer i) => s.rxStep c m (.releaseRxBuffer i)
  | .txCallback => s.step c m .txCallback

end Step

/-- A step of either core, on the memory as it sees it. The memory stands under the common addresses, the state of
a core under its own. -/
def Link.stepOn (M : Mapping) (c : LinkConfig) (t : Link) (r : Role) (a : Act) : Option Link :=
  if (t.side r).halted then none
  else ((t.side r).stepOn (M.port r) c (t.m.lower (M.off r)) a).map fun y =>
    { m := t.m.raise (M.off r) y.2, side := Function.update t.side r y.1 }

inductive Link.ReachableOn (M : Mapping) (c : LinkConfig) (t₀ : Link) : Link → Prop
  | start : ReachableOn M c t₀ t₀
  | step {t t' : Link} {r : Role} {a : Act} (h : ReachableOn M c t₀ t) (hs : t.stepOn M c r a = some t') : ReachableOn M c t₀ t'

/-! ## The same link on one address space -/

/-- The byte at `b` is part of a descriptor's buffer address. -/
def Vring.Addr (vr : Vring) (b : Nat) : Prop := ∃ d < vr.num, vr.descAddrAt d ≤ b ∧ b < vr.descAddrAt d + 8

def Pools.Addr (W : Pools) (b : Nat) : Prop := ∃ q, (W.pool q).vr.Addr b

/-- Both cores find the master's buffers in the descriptors, each under its own address of it. -/
def Mapping.Fits (M : Mapping) (W : Pools) : Prop :=
  ∀ r q, ∀ d ∈ (W.pool q).ids, ∃ b, (M.port r).platformPatova (M.described ((W.pool q).buffer d)) = some b ∧ b ≠ 0 ∧
    b + M.off r = (W.pool q).buffer d

/-- `t` is `s` under other addresses. -/
structure Mapping.Rel (M : Mapping) (W : Pools) (t s : Link) : Prop where
  side : ∀ r, s.side r = (t.side r).lift (M.off r)
  memory : ∀ b, ¬ W.Addr b → t.m b = s.m b
  desc : ∀ q, ∀ d ∈ (W.pool q).ids, (t.m.ld64 ((W.pool q).vr.descAddrAt d.toNat)).toUInt32 = M.described ((W.pool q).buffer d)

section

variable {M : Mapping} {W : Pools} {t t' s s' : Link} {P : ∀ r, Custody (W.pool r).ids} {c : LinkConfig} {r q : Role} {b : Nat}

/-! ## The bytes of the buffer addresses -/

theorem Vring.Addr.table {vr : Vring} (h : vr.Addr b) : vr.desc ≤ b ∧ b < vr.descEnd := by
  obtain ⟨d, hd, h1, h2⟩ := h
  simp only [Vring.descAddrAt, Vring.descEnd] at h1 h2 ⊢
  omega

theorem Pools.Addr.desc (h : W.Addr b) : W.Desc b := h.imp fun _ hq => hq.table

theorem Pools.ring_not_addr (h : (W.pool q).vr.Ring b) : ¬ W.Addr b := fun ha => Pools.ring_not_desc h ha.desc

theorem Pools.len_not_addr {d : Nat} (hd : d < (W.pool q).vr.num) (h1 : (W.pool q).vr.descLenAt d ≤ b)
    (h2 : b < (W.pool q).vr.descLenAt d + 4) : ¬ W.Addr b := by
  rintro ⟨p, e, he, h3, h4⟩
  have hend := (W.pool q).laid.descEnd_le_usedEnd
  have hend' := (W.pool p).laid.descEnd_le_usedEnd
  simp only [Vring.descLenAt, Vring.descAddrAt, Vring.descEnd] at h1 h2 h3 h4 hend hend'
  rcases q.eq_or_peer p with rfl | rfl
  · omega
  · have hap := W.tables_apart q
    unfold Apart at hap
    omega

theorem Pools.buffer_not_addr {d : UInt16} (hd : d ∈ (W.pool q).ids) (h1 : (W.pool q).buffer d ≤ b)
    (h2 : b < (W.pool q).buffer d + (W.pool q).size) : ¬ W.Addr b := by
  intro ha
  obtain ⟨p, h3, h4⟩ := ha.desc
  obtain ⟨-, h5, h6⟩ := BufferPool.buffer_bounds hd
  have hend := (W.pool p).laid.descEnd_le_usedEnd
  rcases q.eq_or_peer p with rfl | rfl
  · have hap := (W.pool p).apart
    simp only [Apart, BufferPool.bufLo, BufferPool.bufHi] at hap h5 h6
    omega
  · have hap := (W.peer q).bufsTables
    unfold Apart at hap
    omega

/-! ## Taking a descriptor -/

/-- A descriptor from memory that differs in the buffer addresses. -/
theorem Linked.take_raw {B : BufferPool} {k : RingKind} {w u : ByteMem} {tvq rvq : Virtqueue} {P : Custody B.ids}
    (h : Linked B k w tvq rvq P) (ha : B.Reads w u) :
    vqGet k tvq w = (tvq, none) ∧ vqGet k tvq u = (tvq, none) ∨
      ∃ d ∈ B.ids, vqGet k tvq w = (tvq.setCursor k (tvq.cursor k + 1), some (B.got d)) ∧
        vqGet k tvq u = (tvq.setCursor k (tvq.cursor k + 1),
          some ⟨(u.ld64 (B.vr.descAddrAt d.toNat)).toUInt32.toNat, UInt32.ofNat B.size, d⟩) := by
  have hfree := h.free.congr B.laid.size.pos (ha.rings k)
  rw [← h.tvq_ring] at hfree
  rcases h.take with ⟨hf, hw⟩ | ⟨d, f, hf, hw, -⟩
  · rw [hf] at hfree
    exact Or.inl ⟨hw, vqGet_nil h.tvq_wf hfree⟩
  · have hd : d ∈ B.ids := P.mem_free (hf ▸ List.mem_cons_self)
    refine Or.inr ⟨d, hd, hw, ?_⟩
    rw [hf] at hfree
    cases k with
    | avail =>
      have hlen := h.reads_length ha hd
      unfold virtqueueGetBufferLength at hlen
      simp only [Vring.PendingIs] at hfree
      rcases virtqueueGetAvailableBuffer_spec h.tvq_wf (m := u) with ⟨hn, -⟩ | ⟨e, es, hc, -, he⟩
      · rw [show tvq.availableIdx = tvq.cursor .avail from rfl, hfree] at hn
        cases hn
      · rw [show tvq.availableIdx = tvq.cursor .avail from rfl, hfree] at hc
        cases hc
        rw [hlen] at he
        rw [← h.tvq_ring]
        exact he
    | used =>
      simp only [Vring.PendingIs, List.map_cons] at hfree
      rcases virtqueueGetBuffer_spec h.tvq_wf (m := u) with ⟨hn, -⟩ | ⟨e, es, hc, -, he⟩
      · rw [show tvq.usedConsIdx = tvq.cursor .used from rfl, hfree] at hn
        cases hn
      · rw [show tvq.usedConsIdx = tvq.cursor .used from rfl, hfree] at hc
        cases hc
        rw [toUInt16_toUInt32] at he
        rw [← h.tvq_ring]
        exact he

namespace Mapping.Rel

theorem reads (h : M.Rel W t s) (hinv : LinkInv W s P) (r : Role) : W.Reads (s.side r).gots s.m t.m := by
  refine ⟨fun q => ⟨fun k b h1 h2 => ?_, fun d hd b h1 h2 => ?_⟩, fun g hg => ?_⟩
  · exact h.memory b (Pools.ring_not_addr ⟨k, h1, h2⟩)
  · exact h.memory b (Pools.len_not_addr hd h1 h2)
  · obtain ⟨q, hd, heq, -⟩ := hinv.key hg
    have hspan := (W.pool q).got_span g.idx
    rw [← heq] at hspan
    rw [show g.buffer = _ from congrArg Prod.fst hspan, show g.len.toNat = _ from congrArg Prod.snd hspan]
    exact fun b h1 h2 => h.memory b (Pools.buffer_not_addr hd h1 h2)

/-- A core takes the descriptor that it takes on one address space, and finds the buffer under its own address. -/
theorem take (h : M.Rel W t s) (hf : M.Fits W) (clear : Bool) {k : RingKind} {vq rvq : Virtqueue} {Q : Custody (W.pool q).ids}
    (hl : Linked (W.pool q) k s.m (vq.lift (M.off r)) rvq Q) (hk : r.getKind = k) (hreads : (W.pool q).Reads s.m t.m) :
    ∃ vq' g, (M.port r).take (t.m.lower (M.off r)) r vq = some (vq', g) ∧
      (r.vqOps clear).vqTxAlloc (vq.lift (M.off r)) s.m = (vq'.lift (M.off r), g.map (Got.lift (M.off r))) ∧
      ∀ e, g = some e → ∃ d ∈ (W.pool q).ids, e.lift (M.off r) = (W.pool q).got d := by
  have hlift := vqGet_lift (M.off r) t.m (t.m.lower (M.off r)) vq k
  rw [raise_lower] at hlift
  rw [vqTxAlloc_eq, hk]
  unfold Translation.take
  rw [hk]
  rcases hl.take_raw hreads with ⟨hw, hu⟩ | ⟨d, hd, hw, hu⟩
  · rw [hlift, Prod.mk.injEq] at hu
    have hget : vqGet k vq (t.m.lower (M.off r)) = (vq, none) := Prod.ext (Virtqueue.lift_inj _ _ hu.1) hu.2
    refine ⟨vq, none, ?_, ?_, fun e he => by cases he⟩
    · rw [hget]
      rfl
    · rw [hw]
      rfl
  · rw [hlift, Prod.mk.injEq, Virtqueue.lift_setCursor] at hu
    have hget : vqGet k vq (t.m.lower (M.off r)) = (vq.setCursor k ((vq.lift (M.off r)).cursor k + 1), some _) :=
      Prod.ext (Virtqueue.lift_inj _ _ hu.1) hu.2
    obtain ⟨b, hb, hne, hoff⟩ := hf r q d hd
    have hgot : Got.lift (M.off r) ⟨b, UInt32.ofNat (W.pool q).size, d⟩ = (W.pool q).got d := by
      simp only [Got.lift, BufferPool.got, hoff]
    refine ⟨vq.setCursor k ((vq.lift (M.off r)).cursor k + 1), some ⟨b, UInt32.ofNat (W.pool q).size, d⟩, ?_, ?_,
      fun e he => ?_⟩
    · rw [hget, Translation.got, UInt32.ofNat_toNat, h.desc q d hd, hb]
      simp only [Option.map_some, nonNull_some (show (Got.mk b (UInt32.ofNat (W.pool q).size) d).buffer ≠ 0 from hne)]
    · rw [hw, nonNull_some (show ((W.pool q).got d).buffer ≠ 0 by simp only [BufferPool.got]; omega), Option.map_some, hgot,
        Virtqueue.lift_setCursor]
    · cases he
      exact ⟨d, hd, hgot⟩

/-! ## The steps -/

/-- A core's step on the translated memory and on the plain one: neither is possible, or both store the same, outside the
buffer addresses. -/
def Same (M : Mapping) (W : Pools) (c : LinkConfig) (t s : Link) (r : Role) (a : Act) : Prop :=
  (t.side r).stepOn (M.port r) c (t.m.lower (M.off r)) a = none ∧ (s.side r).step c s.m a = none ∨
    ∃ x v w, (t.side r).stepOn (M.port r) c (t.m.lower (M.off r)) a = some (x, v) ∧
      (s.side r).step c s.m a = some (x.lift (M.off r), w) ∧
      SameStores (fun b => ¬ W.Addr b) t.m (t.m.raise (M.off r) v) s.m w

/-- Stores into buffers and rings leave the buffer addresses alone. -/
theorem not_addr (hinv : LinkInv W s P) {a : Act} {x : Side} {w : ByteMem} (hs : (s.side r).step c s.m a = some (x, w))
    (hb : Covers ((s.side r).stores c s.m a) b ∨ ∃ q, (W.pool q).vr.Ring b) : ¬ W.Addr b := by
  rcases hb with ⟨y, hy, h1, h2⟩ | ⟨q, hq⟩
  · obtain ⟨g, hg, h3, h4⟩ := (hinv.handover hs).stored y hy
    obtain ⟨q, hd, heq⟩ : ∃ q, g.idx ∈ (W.pool q).ids ∧ g = (W.pool q).got g.idx := by
      rcases hg with hg | hg
      · obtain ⟨q, hd, heq, -⟩ := hinv.key (Side.hands_sub hg)
        exact ⟨q, hd, heq⟩
      · obtain ⟨q, hd, heq, -⟩ := hinv.taken_key hg
        exact ⟨q, hd, heq⟩
    have hspan := (W.pool q).got_span g.idx
    rw [← heq] at hspan
    have hbuf : g.buffer = (W.pool q).buffer g.idx := congrArg Prod.fst hspan
    have hlen : g.len.toNat = (W.pool q).size := congrArg Prod.snd hspan
    exact Pools.buffer_not_addr hd (by omega) (by omega)
  · exact Pools.ring_not_addr hq

/-- A step that takes no descriptor. -/
theorem same_step (h : M.Rel W t s) (hinv : LinkInv W s P) (hpay : ∀ r, c.payloadSize + 16 ≤ (W.pool r).size) {a : Act}
    (ha : a.takes = false) (hon : (t.side r).stepOn (M.port r) c (t.m.lower (M.off r)) a =
      (t.side r).step c (t.m.lower (M.off r)) a) : Same M W c t s r a := by
  have hlift := Side.step_lift (d := M.off r) (m := t.m) (v := t.m.lower (M.off r)) (c := c) (s := t.side r) ha
  rw [raise_lower, ← h.side r] at hlift
  unfold Same
  rw [hon]
  cases hx : (t.side r).step c (t.m.lower (M.off r)) a with
  | none =>
    rw [hx] at hlift
    have hnone := (s.side r).step_isNone (c := c) t.m s.m a
    rw [hlift] at hnone
    exact Or.inl ⟨rfl, Option.isNone_iff_eq_none.1 hnone.symm⟩
  | some y =>
    rw [hx] at hlift
    obtain ⟨w, hw, hsame⟩ := hinv.reads_step hpay (h.reads hinv r)
      (fun b hb ht => by subst hb; exact absurd ht (by rw [show b.takes = false from ha]; exact Bool.false_ne_true))
      (fun b hb ht => by subst hb; exact absurd ht (by rw [show b.takes = false from ha]; exact Bool.false_ne_true)) hlift
    exact Or.inr ⟨y.1, y.2, w, rfl, hw, hsame.mono fun b => not_addr hinv hw⟩

theorem role_eq (h : M.Rel W t s) (hinv : LinkInv W s P) (r : Role) : (t.side r).dev.role = r := by
  have hr := hinv.role r
  rwa [h.side r] at hr

/-- What a core takes from the ring it sends on. -/
theorem take_tx (h : M.Rel W t s) (hinv : LinkInv W s P) (hf : M.Fits W) (clear : Bool) (r : Role) :
    ∃ vq g, (M.port r).take (t.m.lower (M.off r)) r (t.side r).dev.tvq = some (vq, g) ∧
      (r.vqOps clear).vqTxAlloc (s.side r).dev.tvq s.m = (vq.lift (M.off r), g.map (Got.lift (M.off r))) ∧
      ∀ e, g = some e → ∃ d ∈ (W.pool r).ids, e.lift (M.off r) = (W.pool r).got d := by
  have hl := (hinv.flow r).linked
  have htvq : (s.side r).dev.tvq = (t.side r).dev.tvq.lift (M.off r) := by
    rw [h.side r]
    rfl
  rw [htvq] at hl ⊢
  exact h.take hf clear hl rfl ((h.reads hinv r).tables r)

/-- What it takes from the ring it receives on. -/
theorem take_rx (h : M.Rel W t s) (hinv : LinkInv W s P) (hf : M.Fits W) (clear : Bool) (r : Role) :
    ∃ vq g, (M.port r).take (t.m.lower (M.off r)) r (t.side r).dev.rvq = some (vq, g) ∧
      (r.vqOps clear).vqRx (s.side r).dev.rvq s.m = (vq.lift (M.off r), g.map (Got.lift (M.off r))) := by
  have hl := (hinv.flow r.peer).linked.swap
  rw [Role.peer_peer, Role.getKind_peer, RingKind.other_other] at hl
  have hrvq : (s.side r).dev.rvq = (t.side r).dev.rvq.lift (M.off r) := by
    rw [h.side r]
    rfl
  rw [hrvq] at hl ⊢
  obtain ⟨vq, g, h1, h2, -⟩ := h.take hf clear hl rfl ((h.reads hinv r).tables r.peer)
  refine ⟨vq, g, h1, ?_⟩
  rwa [vqRx_eq, ← vqTxAlloc_eq]

theorem same_send (h : M.Rel W t s) (hinv : LinkInv W s P) (hf : M.Fits W) (src dst : UInt32) (data : List UInt8) :
    Same M W c t s r (.tx (.send src dst data)) := by
  obtain ⟨vq, g, h1, h2, -⟩ := h.take_tx hinv hf c.clear r
  have hrole := h.role_eq hinv r
  unfold Same
  rw [h.side r] at h2 ⊢
  simp only [Side.stepOn, Side.step, Side.txStep, Translation.rpmsgLiteSendAlloc, rpmsgLiteSendAlloc, Side.lift_dev,
    RpmsgLiteInstance.lift_role, RpmsgLiteInstance.lift_linkState, hrole] at h2 ⊢
  by_cases hlen : data.length > c.limit
  · exact Or.inl ⟨if_pos hlen, if_pos hlen⟩
  rw [if_neg hlen, if_neg hlen]
  refine Or.inr ?_
  by_cases hsize : data.length > c.payloadSize
  · rw [if_pos hsize, if_pos hsize]
    exact ⟨_, _, _, rfl, rfl, by rw [raise_lower]; exact .refl _ _ _⟩
  rw [if_neg hsize, if_neg hsize]
  by_cases hup : (!(t.side r).dev.linkState) = true
  · rw [if_pos hup, if_pos hup]
    exact ⟨_, _, _, rfl, rfl, by rw [raise_lower]; exact .refl _ _ _⟩
  rw [if_neg hup, if_neg hup, h1, h2]
  cases g with
  | none => exact ⟨_, _, _, rfl, rfl, by rw [raise_lower]; exact .refl _ _ _⟩
  | some g =>
    refine ⟨_, _, _, rfl, ?_, by rw [raise_lower]; exact .refl _ _ _⟩
    simp only [Option.map_some, Side.lift, TxHalf.lift, List.map_append]
    rfl

theorem same_alloc (h : M.Rel W t s) (hinv : LinkInv W s P) (hf : M.Fits W) : Same M W c t s r (.tx .allocTxBuffer) := by
  obtain ⟨vq, g, h1, h2, hpool⟩ := h.take_tx hinv hf c.clear r
  have hrole := h.role_eq hinv r
  unfold Same
  rw [h.side r] at h2 ⊢
  simp only [Side.stepOn, Side.step, Side.txStep, Translation.rpmsgLiteAllocTxBuffer, rpmsgLiteAllocTxBuffer, Side.lift_dev,
    RpmsgLiteInstance.lift_role, RpmsgLiteInstance.lift_linkState, hrole] at h2 ⊢
  refine Or.inr ?_
  by_cases hup : (!(t.side r).dev.linkState) = true
  · rw [if_pos hup, if_pos hup]
    exact ⟨_, _, _, rfl, rfl, by rw [raise_lower]; exact .refl _ _ _⟩
  rw [if_neg hup, if_neg hup, h1, h2]
  cases g with
  | none => exact ⟨_, _, _, rfl, rfl, by rw [raise_lower]; exact .refl _ _ _⟩
  | some g =>
    obtain ⟨d, hd, hgot⟩ := hpool g rfl
    refine ⟨_, _, s.m.st16 (hdrIdxAt (g.buffer + M.off r)) g.idx, rfl, ?_, ?_⟩
    · simp only [Option.map_some, Side.lift, TxHalf.lift, List.map_append]
      rfl
    · rw [← st16_raise, raise_lower, ← hdrIdxAt_add]
      refine (SameStores.st16 _ _ _ _).mono fun b hb => ?_
      have hbuf : g.buffer + M.off r = (W.pool r).buffer d := congrArg Got.buffer hgot
      have hsz := (W.pool r).size_ge
      rw [hbuf] at hb
      simp only [hdrIdxAt] at hb
      exact Pools.buffer_not_addr hd (by omega) (by omega)

theorem same_rx (h : M.Rel W t s) (hinv : LinkInv W s P) (hf : M.Fits W) : Same M W c t s r (.rx .rx) := by
  obtain ⟨vq, g, h1, h2⟩ := h.take_rx hinv hf c.clear r
  have hrole := h.role_eq hinv r
  have hops : ((s.side r).dev.role.vqOps c.clear).vqRx (s.side r).dev.rvq s.m =
      (vq.lift (M.off r), g.map (Got.lift (M.off r))) := by
    rw [hinv.role r]
    exact h2
  have hplain : rpmsgLiteRx c.clear (s.side r).dev s.m =
      ({ (s.side r).dev with rvq := vq.lift (M.off r) }, g.map (Got.lift (M.off r))) := by
    unfold rpmsgLiteRx
    rw [hops]
  unfold Same
  rw [h.side r] at hplain ⊢
  simp only [Side.stepOn, Side.step, Side.rxStep, Translation.rpmsgLiteRx, hrole, h1, Side.lift_rx, Side.lift_dev,
    RxHalf.lift_hand, RpmsgLiteInstance.lift_role] at hplain ⊢
  rw [hplain]
  by_cases hidle : (t.side r).rx.hand = .idle
  swap
  · exact Or.inl ⟨if_pos hidle, if_pos fun h => hidle (RxHand.lift_eq_idle.1 h)⟩
  simp only [RxHand.lift_eq_idle, hidle, ne_eq, not_true_eq_false, if_false]
  refine Or.inr ?_
  cases g with
  | none => exact ⟨_, _, _, rfl, rfl, by rw [raise_lower]; exact .refl _ _ _⟩
  | some g => exact ⟨_, _, _, rfl, rfl, by rw [raise_lower]; exact .refl _ _ _⟩

theorem same (h : M.Rel W t s) (hinv : LinkInv W s P) (hpay : ∀ r, c.payloadSize + 16 ≤ (W.pool r).size) (hf : M.Fits W)
    (r : Role) (a : Act) : Same M W c t s r a := by
  cases a with
  | tx a =>
    cases a with
    | send src dst data => exact h.same_send hinv hf src dst data
    | allocTxBuffer => exact h.same_alloc hinv hf
    | fill => exact h.same_step hinv hpay rfl rfl
    | enqueue => exact h.same_step hinv hpay rfl rfl
    | write => exact h.same_step hinv hpay rfl rfl
    | sendNocopy => exact h.same_step hinv hpay rfl rfl
  | rx a =>
    cases a with
    | rx => exact h.same_rx hinv hf
    | read => exact h.same_step hinv hpay rfl rfl
    | done => exact h.same_step hinv hpay rfl rfl
    | writeMsg => exact h.same_step hinv hpay rfl rfl
    | writeHeld => exact h.same_step hinv hpay rfl rfl
    | releaseRxBuffer => exact h.same_step hinv hpay rfl rfl
  | txCallback => exact h.same_step hinv hpay rfl rfl

/-- Both links take the step, or neither, and they stay the same. -/
theorem step (h : M.Rel W t s) (hinv : LinkInv W s P) (hpay : ∀ r, c.payloadSize + 16 ≤ (W.pool r).size) (hf : M.Fits W)
    (r : Role) (a : Act) :
    t.stepOn M c r a = none ∧ s.step c r a = none ∨
      ∃ t' s', t.stepOn M c r a = some t' ∧ s.step c r a = some s' ∧ M.Rel W t' s' := by
  have hrun := hinv.running r
  have hrun' : (t.side r).halted = false := by rwa [h.side r] at hrun
  unfold Link.stepOn Link.step
  rw [if_neg (by simp [hrun']), if_neg (by simp [hrun])]
  rcases h.same hinv hpay hf r a with ⟨h1, h2⟩ | ⟨x, v, w, h1, h2, hsame⟩
  · exact Or.inl ⟨by rw [h1]; rfl, by rw [h2]; rfl⟩
  · refine Or.inr ⟨_, _, by rw [h1]; rfl, by rw [h2]; rfl, fun q => ?_, fun b hb => hsame.apply (h.memory b hb),
      fun q d hd => ?_⟩
    · by_cases hq : q = r
      · subst hq
        simp only [Function.update_self]
      · simp only [Function.update_of_ne hq]
        exact h.side q
    · rw [← h.desc q d hd]
      refine congrArg UInt64.toUInt32 (ld64_congr fun b h1 h2 => ?_)
      have haddr : W.Addr b := ⟨q, d.toNat, (W.pool q).mem_ids.1 hd, h1, h2⟩
      rcases hsame b with ⟨-, hno⟩ | ⟨hb, -⟩
      · exact absurd haddr hno
      · exact hb

/-- Through every run both links stay the same. -/
theorem reachable {t₀ s₀ : Link} {P₀ : ∀ r, Custody (W.pool r).ids} (h₀ : M.Rel W t₀ s₀)
    (hinv₀ : LinkInv W s₀ P₀) (hpay : ∀ r, c.payloadSize + 16 ≤ (W.pool r).size) (hf : M.Fits W)
    (h : Link.ReachableOn M c t₀ t) :
    ∃ s P, Link.Reachable c s₀ s ∧ LinkInv W s P ∧ M.Rel W t s := by
  induction h with
  | start => exact ⟨s₀, P₀, .start, hinv₀, h₀⟩
  | @step t t' r a _ hs ih =>
    obtain ⟨s, P, hr, hinv, hrel⟩ := ih
    rcases hrel.step hinv hpay hf r a with ⟨hno, -⟩ | ⟨u, s', hu, hs', hrel'⟩
    · rw [hno] at hs
      cases hs
    · obtain rfl := Option.some.inj (hu.symm.trans hs)
      obtain ⟨P', hinv', -⟩ := hinv.step hpay hs'
      exact ⟨s', P', .step hr hs', hinv', hrel'⟩

end Mapping.Rel

end

end RpmsgLite
