/-
The descriptor index in the message header. A buffer that an application owns, from
`rpmsg_lite_alloc_tx_buffer` or held after its callback, carries the index of the one descriptor that
has its address, so that `rpmsg_lite_send_nocopy` and `rpmsg_lite_release_rx_buffer` give back the
descriptor that was taken, in whatever order and however often the buffer was used before.
-/
import RpmsgLite.Link.Delivery

namespace RpmsgLite

open ByteMem

/-- The buffer that descriptor `j` of a vring names. -/
def Vring.bufferOf (vr : Vring) (m : ByteMem) (j : Nat) : Nat := envMapPatova (m.ld64 (vr.descAddrAt j)).toUInt32

/-- The header of the buffer holds the index it was taken under, and that is the one descriptor of the
vring with the buffer's address. -/
structure Vring.Parked (vr : Vring) (m : ByteMem) (g : Got) : Prop where
  idx : m.ld16 (hdrIdxAt g.buffer) = g.idx
  desc : g.idx.toNat < vr.num ∧ vr.bufferOf m g.idx.toNat = g.buffer
  unique : ∀ j < vr.num, vr.bufferOf m j = g.buffer → j = g.idx.toNat

section

variable {W : Pools} {c : LinkConfig} {s s' : Link} {P : ∀ r, Custody (W.pool r).ids} {r : Role} {g : Got} {i : Nat}

theorem Linked.parked {B : BufferPool} {k : RingKind} {m : ByteMem} {tvq rvq vq : Virtqueue} {P : Custody B.ids}
    (h : Linked B k m tvq rvq P) (hvq : vq.ring = B.vr) (hg : g.idx ∈ B.ids) (hgot : g = B.got g.idx)
    (hidx : m.ld16 (hdrIdxAt (B.buffer g.idx)) = g.idx) : vq.ring.Parked m g := by
  have hbuf : g.buffer = B.buffer g.idx := congrArg Got.buffer hgot
  have hdesc : ∀ {d : UInt16}, d ∈ B.ids → vq.ring.bufferOf m d.toNat = B.buffer d := by
    intro d hd
    rw [hvq, ← h.rvq_ring]
    exact h.descAddr hd
  rw [← hbuf] at hidx
  refine ⟨hidx, ⟨by rw [hvq]; exact B.mem_ids.1 hg, by rw [hbuf]; exact hdesc hg⟩, fun j hj hjb => ?_⟩
  rw [hvq] at hj
  have hle := B.num_le
  have hjd : (UInt16.ofNat j).toNat = j := UInt16.toNat_ofNat_of_lt' (by simp only [UInt16.size]; omega)
  have hmem : UInt16.ofNat j ∈ B.ids := B.mem_ids.2 (by rw [hjd]; exact hj)
  rw [← hjd, hdesc hmem, hbuf] at hjb
  rw [← hjd, B.buffer_injective hjb]

/-- The zero-copy buffers of a core are parked. -/
theorem LinkInv.owned_parked (h : LinkInv W s P) (hg : g ∈ (s.side r).tx.owned) : (s.side r).dev.tvq.ring.Parked s.m g := by
  have hflow := h.flow r
  have hgot : g ∈ (s.side r).tx.gots := List.mem_append_right _ hg
  exact hflow.linked.parked hflow.linked.tvq_ring (hflow.tx_ids hgot) (hflow.contents.txGot g hgot)
    (hflow.contents.txKept g hg)

/-- The held buffers of a core are parked. -/
theorem LinkInv.held_parked (h : LinkInv W s P) (hg : g ∈ (s.side r).rx.held) : (s.side r).dev.rvq.ring.Parked s.m g := by
  have hflow := h.flow r.peer
  rw [Role.peer_peer] at hflow
  have hgot : g ∈ (s.side r).rx.gots := List.mem_append_right _ hg
  exact hflow.linked.parked hflow.linked.rvq_ring (hflow.rx_ids hgot) (hflow.contents.rxGot g hgot)
    (hflow.contents.rxKept g hg)

/-! ## Giving buffers back -/

theorem Side.sendNocopy_tx {x x' : Side} {m m' : ByteMem} {src dst : UInt32} {size : Nat}
    (ha : x.txStep c m (.sendNocopy i src dst size) = some (x', m')) (hrun : x'.halted = false) :
    x'.tx = x.tx ∨ x'.tx.owned = x.tx.owned.eraseIdx i ∧ x'.tx.sending = x.tx.sending := by
  cases Side.txStep_cases ha with
  | nocopyStuck => cases hrun
  | sendNocopy => exact Or.inr ⟨rfl, rfl⟩
  | nocopyRefused => exact Or.inl rfl

theorem Side.releaseRxBuffer_rx {x x' : Side} {m m' : ByteMem} (ha : x.rxStep c m (.releaseRxBuffer i) = some (x', m'))
    (hrun : x'.halted = false) : x'.rx.held = x.rx.held.eraseIdx i ∧ x'.rx.hand = x.rx.hand := by
  cases Side.rxStep_cases ha with
  | releaseStuck => cases hrun
  | release => exact ⟨rfl, rfl⟩

/-- A zero-copy send is refused, or enqueues the descriptor that was taken with the buffer. -/
theorem LinkInv.sendNocopy_returns (h : LinkInv W s P) (hpay : ∀ r, c.payloadSize + 16 ≤ (W.pool r).size)
    (hi : (s.side r).tx.owned[i]? = some g) {src dst : UInt32} {size : Nat}
    (hs : s.step c r (.tx (.sendNocopy i src dst size)) = some s') :
    (s'.side r).tx = (s.side r).tx ∨
      (s'.side r).tx.owned = (s.side r).tx.owned.eraseIdx i ∧ s'.queueIds r = s.queueIds r ++ [g.idx] := by
  obtain ⟨P', hinv', hmove⟩ := h.step hpay hs
  obtain ⟨x, m', ha, rfl⟩ := Link.step_cases hs
  have hx : ∀ f : Role → Side, Function.update f r x r = x := fun f => Function.update_self r x f
  have hrun := hinv'.running r
  have hsender := (hinv'.flow r).sender
  simp only [hx] at hrun hsender ⊢
  refine (Side.sendNocopy_tx ha hrun).imp_right fun ⟨howned, hsending⟩ => ⟨howned, ?_⟩
  rw [hinv'.queueIds, h.queueIds]
  refine ((hmove r).queue_of_sender ?_).1
  rw [(h.flow r).sender, hsender, TxHalf.gots, TxHalf.gots, howned, hsending]
  simp only [List.map_append, ← Multiset.coe_add]
  rw [coe_eraseIdx Got.idx hi, Multiset.add_cons]

/-- A release publishes the descriptor that was taken with the buffer. -/
theorem LinkInv.release_returns (h : LinkInv W s P) (hpay : ∀ r, c.payloadSize + 16 ≤ (W.pool r).size)
    (hi : (s.side r).rx.held[i]? = some g) (hs : s.step c r (.rx (.releaseRxBuffer i)) = some s') :
    (s'.side r).rx.held = (s.side r).rx.held.eraseIdx i ∧ s'.freeIds r.peer = s.freeIds r.peer ++ [g.idx] := by
  obtain ⟨P', hinv', hmove⟩ := h.step hpay hs
  obtain ⟨x, m', ha, rfl⟩ := Link.step_cases hs
  have hx : ∀ f : Role → Side, Function.update f r x r = x := fun f => Function.update_self r x f
  have hrun := hinv'.running r
  have hrecv := (hinv'.flow r.peer).receiver
  simp only [Role.peer_peer, hx] at hrun hrecv ⊢
  obtain ⟨hheld, hhand⟩ := Side.releaseRxBuffer_rx ha hrun
  refine ⟨hheld, ?_⟩
  rw [hinv'.freeIds, h.freeIds]
  refine ((hmove r.peer).free_of_receiver ?_).1
  rw [(h.flow r.peer).receiver, hrecv, Role.peer_peer, RxHalf.gots, RxHalf.gots, hheld, hhand]
  simp only [List.map_append, ← Multiset.coe_add]
  rw [coe_eraseIdx Got.idx hi, Multiset.add_cons]

end

/-- From a ready start, in every state of every run: the buffers that applications own are parked, a
zero-copy send enqueues and a release frees exactly the descriptor that was taken with the buffer. -/
theorem link_parked {w : Nat} {p : ShmemParams} {addr : Nat} {env envR : InitEnv} {highestM highestR linkId : UInt32}
    {cfg : ShmemConfig} {length : Nat} {m m' : ByteMem} {dm dr : RpmsgLiteInstance} {c : LinkConfig} {s : Link}
    (hm : rpmsgLiteMasterInit w env highestM cfg addr length linkId m = .instance dm m')
    (hr : rpmsgLiteRemoteInit w envR highestR cfg addr linkId = some dr) (hlen : addr + length ≤ 2 ^ 32)
    (hp : masterParams w cfg = some p) (hok : LinkReady w cfg addr p m) (hc : c.payloadSize = cfg.payloadSize)
    (h : Link.Reachable c (Link.start m' dm dr) s) (r : Role) :
    (∀ g ∈ (s.side r).tx.owned, (s.side r).dev.tvq.ring.Parked s.m g) ∧
    (∀ g ∈ (s.side r).rx.held, (s.side r).dev.rvq.ring.Parked s.m g) ∧
    (∀ i g src dst size s', (s.side r).tx.owned[i]? = some g → s.step c r (.tx (.sendNocopy i src dst size)) = some s' →
      (s'.side r).tx = (s.side r).tx ∨
        (s'.side r).tx.owned = (s.side r).tx.owned.eraseIdx i ∧ s'.queueIds r = s.queueIds r ++ [g.idx]) ∧
    (∀ i g s', (s.side r).rx.held[i]? = some g → s.step c r (.rx (.releaseRxBuffer i)) = some s' →
      (s'.side r).rx.held = (s.side r).rx.held.eraseIdx i ∧ s'.freeIds r.peer = s.freeIds r.peer ++ [g.idx]) := by
  have hpay := hok.pool_payload hc
  obtain ⟨P, hinv⟩ := linkInv_reachable hm hr hlen hp hok hc h
  refine ⟨fun g => hinv.owned_parked, fun g => hinv.held_parked, ?_, ?_⟩
  · intro i g src dst size s' hi hs
    exact hinv.sendNocopy_returns hpay hi hs
  · intro i g s' hi hs
    exact hinv.release_returns hpay hi hs

/-- The master takes a buffer, sends it, and the remote holds it. -/
def parkOne : List (Role × Act) :=
  [(.master, .tx .allocTxBuffer), (.master, .tx (.sendNocopy 0 7 9 3)), (.remote, .rx .rx), (.remote, .rx .read),
   (.remote, .rx (.done true))]

theorem link_parked_one : ∃ dm m' dr s,
    rpmsgLiteMasterInit 32 InitEnv.ok 0 (.build (headerTwo 64 (by decide) (by decide))) 4124 512 0 (fun _ => 0) =
      .instance dm m' ∧
    rpmsgLiteRemoteInit 32 InitEnv.ok 0 (.build (headerTwo 64 (by decide) (by decide))) 4124 0 = some dr ∧
    (Link.start m' dm dr).run ⟨false, 16, 16⟩ parkOne = some s ∧
    ((s.side .remote).rx.held.map Got.idx) = [0] ∧
    ∀ g ∈ (s.side .remote).rx.held, (s.side .remote).dev.rvq.ring.Parked s.m g := by
  obtain ⟨dm, m', dr, hm, hr, ht⟩ := Link.of_check_two 0
    (fun dm m' dr => ((Link.start m' dm dr).run ⟨false, 16, 16⟩ parkOne).any
          fun s => ((s.side .remote).rx.held.map Got.idx) == [0])
    (by decide +kernel)
  obtain ⟨s, hs, hheld⟩ := (Option.any_eq_true _ _).1 ht
  refine ⟨dm, m', dr, s, hm, hr, hs, eq_of_beq hheld, ?_⟩
  exact (link_parked hm hr (by decide) rfl
    linkReady_two rfl
    (Link.reachable_of_run .start hs) .remote).2.1

/-- Over memory that was not cleared the master's callback holds a buffer no descriptor names. -/
theorem link_parked_garbage : ∃ dm m' dr s g,
    rpmsgLiteMasterInit 32 InitEnv.ok 0 (.build (headerTwo 64 (by decide) (by decide))) 4124 512 0 (fun _ => 0xFF) =
      .instance dm m' ∧
    rpmsgLiteRemoteInit 32 InitEnv.ok 0 (.build (headerTwo 64 (by decide) (by decide))) 4124 0 = some dr ∧
    (Link.start m' dm dr).run ⟨false, 16, 16⟩ [(.master, .rx .rx), (.master, .rx .read), (.master, .rx (.done true))] =
      some s ∧
    g ∈ (s.side .master).rx.held ∧
    ∀ j < (s.side .master).dev.rvq.ring.num, (s.side .master).dev.rvq.ring.bufferOf s.m j ≠ g.buffer := by
  obtain ⟨dm, m', dr, hm, hr, ht⟩ := Link.of_check_two 0xFF
    (fun dm m' dr => ((Link.start m' dm dr).run ⟨false, 16, 16⟩
            [(.master, .rx .rx), (.master, .rx .read), (.master, .rx (.done true))]).any
          fun s => (s.side .master).rx.held.any fun g =>
            decide (∀ j < (s.side .master).dev.rvq.ring.num, (s.side .master).dev.rvq.ring.bufferOf s.m j ≠ g.buffer))
    (by decide +kernel)
  obtain ⟨s, hs, hheld⟩ := (Option.any_eq_true _ _).1 ht
  obtain ⟨g, hg, hne⟩ := List.any_eq_true.1 hheld
  exact ⟨dm, m', dr, s, g, hm, hr, hs, hg, of_decide_eq_true hne⟩

end RpmsgLite
