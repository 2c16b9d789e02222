/-
`RL_DEBUG_CHECK_BUFFERS`: a zero-copy send and a release first look for a descriptor with the buffer's address. The
descriptors hold what the master's `platform_vatopa` returned and are compared with the core's own pointer, so the check
passes on the cores that see the memory where the descriptors say, and fails on the others.
-/
import RpmsgLite.Link.StartTranslated

namespace RpmsgLite

open ByteMem

/-! ## The check -/

/-- The loop over the descriptors below `idx`, from the last one down, until one has the address `msg`; the conversion of a
pointer to 64 bits extends it with zeros. -/
def checkBuffers (vq : Virtqueue) (m : ByteMem) (msg : Nat) : Nat → Bool
  | 0 => false
  | idx + 1 => if m.ld64 (vq.ring.descAddrAt idx) ≠ UInt64.ofNat msg then checkBuffers vq m msg idx else true

section Step

variable (T : Translation) (c : LinkConfig) (s : Side) (m : ByteMem)

/-- The buffer that a call looks for: a zero-copy send that is not refused, and a release. -/
def Side.checks : Act → Option (Virtqueue × Got)
  | .tx (.sendNocopy i _ _ size) =>
    if size ≤ c.limit ∧ s.sendsNocopy c size then (s.tx.owned[i]?).map fun g => (s.dev.tvq, g) else none
  | .rx (.releaseRxBuffer i) => (s.rx.held[i]?).map fun g => (s.dev.rvq, g)
  | .tx (.send _ _ _) | .tx (.fill _) | .tx (.enqueue _) | .tx .allocTxBuffer | .tx (.write _ _ _) => none
  | .rx .rx | .rx .read | .rx (.done _) | .rx (.writeMsg _ _) | .rx (.writeHeld _ _ _) => none
  | .txCallback => none

/-- The assertion behind the loop stops the core before anything is written. -/
def Side.checkedOn (a : Act) : Option (Side × ByteMem) :=
  match s.checks c a with
  | none => s.stepOn T c m a
  | some (vq, g) =>
    if !checkBuffers vq m (msgFromBuf (msgDataAt g.buffer)) vq.nentries.toNat then some ({ s with halted := true }, m)
    else s.stepOn T c m a

end Step

def Link.checkedOn (M : Mapping) (c : LinkConfig) (t : Link) (r : Role) (a : Act) : Option Link :=
  if (t.side r).halted then none
  else ((t.side r).checkedOn (M.port r) c (t.m.lower (M.off r)) a).map fun y =>
    { m := t.m.raise (M.off r) y.2, side := Function.update t.side r y.1 }

inductive Link.ReachableChecked (M : Mapping) (c : LinkConfig) (t₀ : Link) : Link → Prop
  | start : ReachableChecked M c t₀ t₀
  | step {t t' : Link} {r : Role} {a : Act} (h : ReachableChecked M c t₀ t) (hs : t.checkedOn M c r a = some t') :
      ReachableChecked M c t₀ t'

/-- A run of several steps. -/
def Link.runChecked (M : Mapping) (c : LinkConfig) : Link → List (Role × Act) → Option Link
  | t, [] => some t
  | t, (r, a) :: as => (t.checkedOn M c r a).bind fun t => t.runChecked M c as

theorem Link.reachableChecked_of_run {M : Mapping} {c : LinkConfig} {t₀ t t' : Link} {as : List (Role × Act)}
    (h : Link.ReachableChecked M c t₀ t) (hr : t.runChecked M c as = some t') : Link.ReachableChecked M c t₀ t' := by
  have hrun : IsRun (fun (t : Link) (a : Role × Act) => t.checkedOn M c a.1 a.2) (Link.runChecked M c) :=
    ⟨fun _ => rfl, fun _ _ _ => rfl⟩
  exact hrun.keeps (fun h hs => h.step hs) h hr

/-- The core `r` has stopped. -/
def Link.stop (t : Link) (r : Role) : Link := { t with side := Function.update t.side r { t.side r with halted := true } }

/-- Between `lo` and `hi` the descriptors hold the common addresses less `x`, and no core sees two buffers `x` and its own
distance apart, unless the two are the same. -/
structure Mapping.Describes (M : Mapping) (lo hi x : Nat) : Prop where
  vatopa : ∀ a, lo ≤ a → a < hi → (M.described a).toNat + x = a
  apart : ∀ r, M.off r ≠ x → ∀ a b, lo ≤ a → a < hi → lo ≤ b → b < hi → a + M.off r ≠ b + x

section

variable {M : Mapping} {W : Pools} {t t' s : Link} {P : ∀ r, Custody (W.pool r).ids} {c : LinkConfig} {r q : Role}

theorem Link.stop_halted : ((t.stop r).side r).halted = true := by
  show (Function.update t.side r { t.side r with halted := true } r).halted = true
  rw [Function.update_self]

theorem checkBuffers_iff {vq : Virtqueue} {m : ByteMem} {msg n : Nat} :
    checkBuffers vq m msg n = true ↔ ∃ idx < n, m.ld64 (vq.ring.descAddrAt idx) = UInt64.ofNat msg := by
  induction n with
  | zero =>
    constructor
    · intro h
      cases h
    · rintro ⟨idx, hidx, -⟩
      exact absurd hidx (Nat.not_lt_zero _)
  | succ n ih =>
    unfold checkBuffers
    by_cases hn : m.ld64 (vq.ring.descAddrAt n) = UInt64.ofNat msg
    · rw [if_neg (not_not.2 hn)]
      exact ⟨fun _ => ⟨n, Nat.lt_succ_self n, hn⟩, fun _ => rfl⟩
    · rw [if_pos hn, ih]
      constructor
      · rintro ⟨idx, hidx, h⟩
        exact ⟨idx, hidx.trans (Nat.lt_succ_self n), h⟩
      · rintro ⟨idx, hidx, h⟩
        rcases Nat.lt_succ_iff_lt_or_eq.1 hidx with hlt | rfl
        · exact ⟨idx, hlt, h⟩
        · exact absurd h hn

/-! ## What the descriptors hold -/

/-- No step stores into the addresses. -/
theorem Mapping.Rel.written_step (h : M.Rel W t s) (hinv : LinkInv W s P) (hpay : ∀ r, c.payloadSize + 16 ≤ (W.pool r).size)
    (hf : M.Fits W) (hw : M.Written W t) {a : Act} (hs : t.stepOn M c r a = some t') : M.Written W t' := by
  unfold Link.stepOn at hs
  split at hs
  · cases hs
  rcases h.same hinv hpay hf r a with ⟨h1, -⟩ | ⟨x, v, w, h1, -, hsame⟩
  · rw [h1] at hs
    cases hs
  · rw [h1] at hs
    cases hs
    intro q d hd
    rw [← hw q d hd]
    refine ld64_congr fun b hlo hhi => ?_
    have haddr : W.Addr b := ⟨q, d.toNat, (W.pool q).mem_ids.1 hd, hlo, hhi⟩
    rcases hsame b with ⟨-, hno⟩ | ⟨hb, -⟩
    · exact absurd haddr hno
    · exact hb

/-- A buffer that is looked for belongs to the pool of the virtqueue. -/
theorem Mapping.Rel.checks_pool (h : M.Rel W t s) (hinv : LinkInv W s P) {a : Act} {vq : Virtqueue} {g : Got}
    (hc : (t.side r).checks c a = some (vq, g)) : ∃ q, vq.ring.lift (M.off r) = (W.pool q).vr ∧
      vq.nentries.toNat = (W.pool q).vr.num ∧ g.idx ∈ (W.pool q).ids ∧ g.buffer + M.off r = (W.pool q).buffer g.idx := by
  have hside := h.side r
  cases a with
  | tx a =>
    cases a with
    | sendNocopy i src dst size =>
      simp only [Side.checks] at hc
      split at hc
      swap
      · cases hc
      obtain ⟨e, he, heq⟩ := Option.map_eq_some_iff.1 hc
      obtain ⟨rfl, rfl⟩ := Prod.mk.inj heq
      have hflow := hinv.flow r
      have hring := hflow.linked.tvq_ring
      have hnum := hflow.linked.tvq_wf.num_eq
      have hmem : e.lift (M.off r) ∈ (s.side r).tx.gots := by
        rw [hside]
        exact List.mem_append_right _ (List.mem_map_of_mem (List.mem_of_getElem? he))
      have hbuf := congrArg Got.buffer (hflow.contents.txGot _ hmem)
      rw [hring] at hnum
      rw [hside] at hring hnum
      have hid : e.idx ∈ (W.pool r).ids := hflow.tx_ids (g := e.lift (M.off r)) hmem
      exact ⟨r, hring, hnum, hid, hbuf⟩
    | send => cases hc
    | fill => cases hc
    | enqueue => cases hc
    | allocTxBuffer => cases hc
    | write => cases hc
  | rx a =>
    cases a with
    | releaseRxBuffer i =>
      obtain ⟨e, he, heq⟩ := Option.map_eq_some_iff.1 hc
      obtain ⟨rfl, rfl⟩ := Prod.mk.inj heq
      have hflow := hinv.flow r.peer
      rw [Role.peer_peer] at hflow
      have hring := hflow.linked.rvq_ring
      have hnum := hflow.linked.rvq_wf.num_eq
      have hmem : e.lift (M.off r) ∈ (s.side r).rx.gots := by
        rw [hside]
        exact List.mem_append_right _ (List.mem_map_of_mem (List.mem_of_getElem? he))
      have hbuf := congrArg Got.buffer (hflow.contents.rxGot _ hmem)
      rw [hring] at hnum
      rw [hside] at hring hnum
      have hid : e.idx ∈ (W.pool r.peer).ids := hflow.rx_ids (g := e.lift (M.off r)) hmem
      exact ⟨r.peer, hring, hnum, hid, hbuf⟩
    | rx => cases hc
    | read => cases hc
    | done => cases hc
    | writeMsg => cases hc
    | writeHeld => cases hc
  | txCallback => cases hc

section

variable {lo hi x : Nat}

/-- The check passes on the cores that see the memory where the descriptors say. -/
theorem Mapping.Describes.check_iff (hd : M.Describes lo hi x)
    (hW : ∀ q, ∀ d ∈ (W.pool q).ids, lo ≤ (W.pool q).buffer d ∧ (W.pool q).buffer d < hi) (h : M.Rel W t s)
    (hinv : LinkInv W s P) (hw : M.Written W t) {a : Act} {vq : Virtqueue} {g : Got} (hc : (t.side r).checks c a = some (vq, g)) :
    checkBuffers vq (t.m.lower (M.off r)) (msgFromBuf (msgDataAt g.buffer)) vq.nentries.toNat = true ↔ M.off r = x := by
  obtain ⟨q, hring, hnum, hg, hbuf⟩ := h.checks_pool hinv hc
  have hread : ∀ j, (t.m.lower (M.off r)).ld64 (vq.ring.descAddrAt j) = t.m.ld64 ((W.pool q).vr.descAddrAt j) := fun j => by
    have hraise := ld64_raise t.m (M.off r) (t.m.lower (M.off r)) (vq.ring.descAddrAt j)
    rw [raise_lower, ← Vring.lift_descAddrAt, hring] at hraise
    exact hraise.symm
  -- what a descriptor holds, as a number
  have hnamed : ∀ d ∈ (W.pool q).ids, t.m.ld64 ((W.pool q).vr.descAddrAt d.toNat) = UInt64.ofNat g.buffer ↔
      (W.pool q).buffer d = g.buffer + x := fun d hmem => by
    obtain ⟨-, -, htop⟩ := BufferPool.buffer_bounds hg
    have hhi := (W.pool q).bufHi_le
    have hva := hd.vatopa _ (hW q d hmem).1 (hW q d hmem).2
    rw [hw q d hmem, ← UInt64.toNat_inj, UInt32.toNat_toUInt64,
      UInt64.toNat_ofNat_of_lt' (by simp only [UInt64.size]; omega)]
    omega
  rw [checkBuffers_iff, msgFromBuf_msgDataAt, hnum]
  constructor
  · rintro ⟨idx, hidx, hld⟩
    have hle := (W.pool q).num_le
    have hidxd : (UInt16.ofNat idx).toNat = idx := UInt16.toNat_ofNat_of_lt' (by simp only [UInt16.size]; omega)
    have hmem : UInt16.ofNat idx ∈ (W.pool q).ids := (W.pool q).mem_ids.2 (by rw [hidxd]; exact hidx)
    rw [hread, ← hidxd, hnamed _ hmem] at hld
    by_contra hne
    exact hd.apart r hne _ _ (hW q _ hmem).1 (hW q _ hmem).2 (hW q _ hg).1 (hW q _ hg).2 (by omega)
  · intro hx
    refine ⟨g.idx.toNat, (W.pool q).mem_ids.1 hg, ?_⟩
    rw [hread, hnamed _ hg]
    omega

/-- A step with the check: on a core whose addresses the descriptors do not hold, a call that looks for its buffer stops. -/
theorem Mapping.Describes.checked_step (hd : M.Describes lo hi x)
    (hW : ∀ q, ∀ d ∈ (W.pool q).ids, lo ≤ (W.pool q).buffer d ∧ (W.pool q).buffer d < hi) (h : M.Rel W t s)
    (hinv : LinkInv W s P) (hw : M.Written W t) (r : Role) (a : Act) :
    t.checkedOn M c r a =
      if M.off r ≠ x ∧ ((t.side r).checks c a).isSome then some (t.stop r) else t.stepOn M c r a := by
  have hrun : (t.side r).halted = false := by
    have hs := hinv.running r
    rwa [h.side r] at hs
  unfold Link.checkedOn Link.stepOn Side.checkedOn
  simp only [hrun, Bool.false_eq_true, if_false]
  cases hc : (t.side r).checks c a with
  | none =>
    simp only [Option.isSome_none, Bool.false_eq_true, and_false, if_false]
  | some y =>
    obtain ⟨vq, g⟩ := y
    have hiff := hd.check_iff hW h hinv hw hc
    by_cases hx : M.off r = x
    · rw [if_neg fun hno => hno.1 hx]
      simp only [hiff.2 hx, Bool.not_true, Bool.false_eq_true, if_false]
    · have hno : checkBuffers vq (t.m.lower (M.off r)) (msgFromBuf (msgDataAt g.buffer)) vq.nentries.toNat = false :=
        Bool.eq_false_iff.2 fun hyes => hx (hiff.1 hyes)
      rw [if_pos ⟨hx, rfl⟩]
      simp only [hno, Bool.not_false, if_true, Option.map_some, raise_lower]
      rfl

/-- Until a core stops, a run with the check is a run without. -/
theorem Mapping.Describes.reachable (hd : M.Describes lo hi x)
    (hW : ∀ q, ∀ d ∈ (W.pool q).ids, lo ≤ (W.pool q).buffer d ∧ (W.pool q).buffer d < hi) {t₀ s₀ : Link}
    {P₀ : ∀ r, Custody (W.pool r).ids} (h₀ : M.Rel W t₀ s₀) (hinv₀ : LinkInv W s₀ P₀) (hw₀ : M.Written W t₀)
    (hpay : ∀ r, c.payloadSize + 16 ≤ (W.pool r).size) (hf : M.Fits W) (h : Link.ReachableChecked M c t₀ t)
    (hrun : ∀ r, (t.side r).halted = false) :
    ∃ s P, Link.ReachableOn M c t₀ t ∧ LinkInv W s P ∧ M.Rel W t s ∧ M.Written W t := by
  induction h with
  | start => exact ⟨s₀, P₀, .start, hinv₀, h₀, hw₀⟩
  | @step t t' r a _ hs ih =>
    have hrun' : ∀ q, (t.side q).halted = false := by
      intro q
      unfold Link.checkedOn at hs
      split at hs
      · cases hs
      rename_i hup
      obtain ⟨y, -, rfl⟩ := Option.map_eq_some_iff.1 hs
      by_cases hq : q = r
      · subst hq
        exact Bool.eq_false_iff.2 hup
      · have hsame : (Function.update t.side r y.1 q).halted = false := hrun q
        rwa [Function.update_of_ne hq] at hsame
    obtain ⟨s, P, hreach, hinv, hrel, hw⟩ := ih hrun'
    rw [hd.checked_step hW hrel hinv hw] at hs
    split at hs
    · cases hs
      have hstop := hrun r
      rw [Link.stop_halted] at hstop
      cases hstop
    · rcases hrel.step hinv hpay hf r a with ⟨hno, -⟩ | ⟨u, s', hu, hs', hrel'⟩
      · rw [hno] at hs
        cases hs
      · obtain rfl := Option.some.inj (hu.symm.trans hs)
        obtain ⟨P', hinv', -⟩ := hinv.step hpay hs'
        exact ⟨s', P', .step hreach hs, hinv', hrel', hrel.written_step hinv hpay hf hw hs⟩

end

end

end RpmsgLite
