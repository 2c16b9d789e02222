/-
No descriptor is lost, doubled or owned twice. From a ready start, in every state of every run each
vring's descriptors are spread over its four places, whatever the cores do and however often the
16-bit indices wrap. Without clearing the used index the very first state already breaks this.
-/
import RpmsgLite.Init.HeaderVring
import RpmsgLite.Link.Start

namespace RpmsgLite

open ByteMem

namespace Link

variable (s : Link) (r : Role)

/-! ## The four places of the vring that `r` sends on -/

/-- Pending in the ring `r` takes free buffers from. -/
def freeIds : List UInt16 :=
  (s.side r).dev.tvq.ring.pendingIds s.m r.getKind ((s.side r).dev.tvq.cursor r.getKind)

/-- Owned by `r`. -/
def txIds : List UInt16 := (s.side r).tx.gots.map Got.idx

/-- Pending in the ring `r` publishes on, in the peer's view. -/
def queueIds : List UInt16 :=
  (s.side r.peer).dev.rvq.ring.pendingIds s.m r.peer.getKind ((s.side r.peer).dev.rvq.cursor r.peer.getKind)

/-- Owned by the peer. -/
def rxIds : List UInt16 := (s.side r.peer).rx.gots.map Got.idx

/-- Each of the `n` descriptors is in exactly one place and nothing else is in any, neither index
difference exceeds `n`, and no two hands hold the same buffer. -/
structure Conserved (n : Nat) : Prop where
  places : (s.freeIds r ++ s.txIds r ++ s.queueIds r ++ s.rxIds r).Perm ((List.range n).map UInt16.ofNat)
  freeCount : FreeRing.count ((s.side r).dev.tvq.ring.ringIdx s.m r.getKind)
    ((s.side r).dev.tvq.cursor r.getKind) ≤ n
  queueCount : FreeRing.count ((s.side r.peer).dev.rvq.ring.ringIdx s.m r.peer.getKind)
    ((s.side r.peer).dev.rvq.cursor r.peer.getKind) ≤ n
  buffers : (((s.side r).tx.gots ++ (s.side r.peer).rx.gots).map Got.buffer).Nodup

end Link

section

variable {W : Pools} {s : Link} {P : ∀ r, Custody (W.pool r).ids} {r : Role}

theorem BufferPool.buffer_injective (B : BufferPool) : Function.Injective B.buffer := by
  intro d e h
  by_contra hne
  have hap := buffer_apart (B := B) hne
  have hsz := B.size_ge
  unfold Apart at hap
  omega

theorem LinkInv.freeIds (h : LinkInv W s P) : s.freeIds r = (P r).free := by
  unfold Link.freeIds
  rw [(h.flow r).linked.tvq_ring]
  exact (h.flow r).linked.free.pendingIds

theorem LinkInv.queueIds (h : LinkInv W s P) : s.queueIds r = (P r).queue := by
  unfold Link.queueIds
  rw [(h.flow r).linked.rvq_ring, Role.getKind_peer]
  exact (h.flow r).linked.queue.pendingIds

theorem LinkInv.conserved (h : LinkInv W s P) : s.Conserved r (W.pool r).vr.num := by
  have hflow := h.flow r
  have hcard := (P r).card
  rw [BufferPool.card_ids] at hcard
  refine ⟨?_, ?_, ?_, ?_⟩
  · have hspread := (P r).spread
    rw [hflow.sender, hflow.receiver, Multiset.coe_add, Multiset.coe_add, Multiset.coe_add] at hspread
    rw [h.freeIds, h.queueIds]
    exact Multiset.coe_eq_coe.1 hspread
  · rw [hflow.linked.tvq_ring, ← hflow.linked.free.length]; omega
  · rw [hflow.linked.rvq_ring, Role.getKind_peer, ← hflow.linked.queue.length]; omega
  · have hgot : ((s.side r).tx.gots ++ (s.side r.peer).rx.gots).map Got.buffer =
        (((s.side r).tx.gots ++ (s.side r.peer).rx.gots).map Got.idx).map (W.pool r).buffer := by
      rw [List.map_map]
      refine List.map_congr_left fun g hg => ?_
      rcases List.mem_append.1 hg with hg | hg
      · exact congrArg Got.buffer (hflow.contents.txGot g hg)
      · exact congrArg Got.buffer (hflow.contents.rxGot g hg)
    rw [hgot, List.map_append]
    refine List.Nodup.map (W.pool r).buffer_injective ?_
    have hn := List.nodup_append.1 hflow.nodup
    have hq := List.nodup_append.1 hn.2.1
    exact List.nodup_append.2 ⟨hn.1, hq.2.1, fun a ha b hb => hn.2.2 a ha b (List.mem_append_right _ hb)⟩

end

/-! ## Every run -/

section

variable {w : Nat} {p : ShmemParams} {addr : Nat} {env envR : InitEnv} {highestM highestR linkId : UInt32}
  {cfg : ShmemConfig} {length : Nat} {m m' : ByteMem} {dm dr : RpmsgLiteInstance} {c : LinkConfig} {s : Link}

/-- From a ready start every state of every run conserves the descriptors of both vrings, no assertion
has failed, and no step disturbs an entry that stays pending: entries leave a ring at its old end and
join it at its new end. -/
theorem link_conserves (hm : rpmsgLiteMasterInit w env highestM cfg addr length linkId m = .instance dm m')
    (hr : rpmsgLiteRemoteInit w envR highestR cfg addr linkId = some dr) (hlen : addr + length ≤ 2 ^ 32)
    (hp : masterParams w cfg = some p) (hok : LinkReady w cfg addr p m) (hc : c.payloadSize = cfg.payloadSize)
    (h : Link.Reachable c (Link.start m' dm dr) s) :
    (∀ r, s.Conserved r p.count.toNat ∧ (s.side r).halted = false) ∧
    ∀ r a s', s.step c r a = some s' → ∀ q,
      Custody.Advances (s.freeIds q) (s'.freeIds q) ∧ Custody.Advances (s.queueIds q) (s'.queueIds q) := by
  have hpay := hok.pool_payload hc
  obtain ⟨P, hinv⟩ := linkInv_reachable hm hr hlen hp hok hc h
  refine ⟨fun r => ⟨?_, hinv.running r⟩, ?_⟩
  · rw [← hok.layout.pool_vr_num r]; exact hinv.conserved
  · intro r a s' hs q
    obtain ⟨P', hinv', hmove⟩ := hinv.step hpay hs
    rw [hinv.freeIds, hinv.queueIds, hinv'.freeIds, hinv'.queueIds]
    exact (hmove q).advances

end

/-! ## With a computed vring size -/

/-- A compile-time configuration with a computed vring size and a power-of-two alignment is ready when
the two used indices were cleared. -/
theorem header_linkReady {c : BuildConfig} {addr k : Nat} {m : ByteMem}
    (hv : c.vringSize = headerVringSize c.bufferCount c.vringAlign) (hk : c.vringAlign = 2 ^ k)
    (hpay : c.payloadSize + 19 < 2 ^ 32) (htop : wordUp addr + c.span ≤ 2 ^ 32)
    (hz : ∀ idx < 2, UsedCleared m (vringOf 32 (c.params 32) addr idx) (zeroedSize 32 (c.params 32))) :
    LinkReady 32 (.build c) addr (c.params 32) m :=
  ⟨header_layoutOk hv hk hpay htop, (rlBufferSize_holds_iff c.payload_lt).2 hpay, trivial, hz⟩

/-- Two buffers of 16 bytes at alignment 64, over memory that holds `v` everywhere: both initialisations
succeed and what they return passes `t`. -/
theorem Link.of_check_link (v : UInt8) (highest linkId : UInt32)
    (t : RpmsgLiteInstance → ByteMem → RpmsgLiteInstance → Bool)
    (h : (rpmsgLiteRemoteInit 32 InitEnv.ok highest (.build (headerTwo 64 (by decide) (by decide))) 4124 linkId).any
      (fun dr => (rpmsgLiteMasterInit 32 InitEnv.ok highest (.build (headerTwo 64 (by decide) (by decide))) 4124 512 linkId
        (fun _ => v)).check fun dm m' => t dm m' dr) = true) :
    ∃ dm m' dr,
      rpmsgLiteMasterInit 32 InitEnv.ok highest (.build (headerTwo 64 (by decide) (by decide))) 4124 512 linkId (fun _ => v) =
        .instance dm m' ∧
      rpmsgLiteRemoteInit 32 InitEnv.ok highest (.build (headerTwo 64 (by decide) (by decide))) 4124 linkId = some dr ∧
      t dm m' dr = true := by
  obtain ⟨dr, hr, hcheck⟩ := (Option.any_eq_true _ _).1 h
  obtain ⟨dm, m', hm, ht⟩ := InitResult.of_check hcheck
  exact ⟨dm, m', dr, hm, hr, ht⟩

/-- On a platform with one link. -/
theorem Link.of_check_two (v : UInt8) (t : RpmsgLiteInstance → ByteMem → RpmsgLiteInstance → Bool)
    (h : (rpmsgLiteRemoteInit 32 InitEnv.ok 0 (.build (headerTwo 64 (by decide) (by decide))) 4124 0).any (fun dr =>
      (rpmsgLiteMasterInit 32 InitEnv.ok 0 (.build (headerTwo 64 (by decide) (by decide))) 4124 512 0 (fun _ => v)).check
        fun dm m' => t dm m' dr) = true) :
    ∃ dm m' dr,
      rpmsgLiteMasterInit 32 InitEnv.ok 0 (.build (headerTwo 64 (by decide) (by decide))) 4124 512 0 (fun _ => v) =
        .instance dm m' ∧
      rpmsgLiteRemoteInit 32 InitEnv.ok 0 (.build (headerTwo 64 (by decide) (by decide))) 4124 0 = some dr ∧
      t dm m' dr = true :=
  Link.of_check_link v 0 0 t h

/-- Over cleared memory the two buffers are ready. -/
theorem linkReady_two : LinkReady 32 (.build (headerTwo 64 (by decide) (by decide))) 4124
    ((headerTwo 64 (by decide) (by decide)).params 32) (fun _ => 0) :=
  header_linkReady (k := 6) rfl rfl (by decide) (by decide) fun _ _ _ _ _ => Or.inr rfl

/-- Over cleared memory, after the master has taken a buffer to send. -/
theorem link_conserves_two : ∃ dm m' dr s,
    rpmsgLiteMasterInit 32 InitEnv.ok 0 (.build (headerTwo 64 (by decide) (by decide))) 4124 512 0 (fun _ => 0) =
      .instance dm m' ∧
    rpmsgLiteRemoteInit 32 InitEnv.ok 0 (.build (headerTwo 64 (by decide) (by decide))) 4124 0 = some dr ∧
    (Link.start m' dm dr).step ⟨false, 16, 16⟩ .master (.tx .allocTxBuffer) = some s ∧
    s.txIds .master = [0] ∧ ∀ r, s.Conserved r 2 ∧ (s.side r).halted = false := by
  obtain ⟨dm, m', dr, hm, hr, ht⟩ := Link.of_check_two 0
    (fun dm m' dr => ((Link.start m' dm dr).step ⟨false, 16, 16⟩ .master (.tx .allocTxBuffer)).any
          fun s => s.txIds .master == [0])
    (by decide +kernel)
  obtain ⟨s, hs, hids⟩ := (Option.any_eq_true _ _).1 ht
  refine ⟨dm, m', dr, s, hm, hr, hs, eq_of_beq hids, ?_⟩
  exact (link_conserves hm hr (by decide) rfl
    linkReady_two rfl (.step .start hs)).1

/-- Over memory that was not cleared the master's used ring starts with 65535 pending entries. -/
theorem link_conserves_garbage : ∃ dm m' dr,
    rpmsgLiteMasterInit 32 InitEnv.ok 0 (.build (headerTwo 64 (by decide) (by decide))) 4124 512 0 (fun _ => 0xFF) =
      .instance dm m' ∧
    rpmsgLiteRemoteInit 32 InitEnv.ok 0 (.build (headerTwo 64 (by decide) (by decide))) 4124 0 = some dr ∧
    ¬ (Link.start m' dm dr).Conserved .remote 2 := by
  obtain ⟨dm, m', hm, ht⟩ := InitResult.of_check
    (t := fun dm m' => FreeRing.count (dm.rvq.ring.ringIdx m' .used) (dm.rvq.cursor .used) == 65535)
    (r := rpmsgLiteMasterInit 32 InitEnv.ok 0 (.build (headerTwo 64 (by decide) (by decide))) 4124 512 0 (fun _ => 0xFF))
    (by decide +kernel)
  obtain ⟨dr, hr⟩ := Option.isSome_iff_exists.1
    (show (rpmsgLiteRemoteInit 32 InitEnv.ok 0 (.build (headerTwo 64 (by decide) (by decide))) 4124 0).isSome = true by
      decide +kernel)
  refine ⟨dm, m', dr, hm, hr, fun hcons => ?_⟩
  have hq : FreeRing.count (dm.rvq.ring.ringIdx m' .used) (dm.rvq.cursor .used) ≤ 2 := hcons.queueCount
  rw [eq_of_beq ht] at hq
  exact absurd hq (by decide)

end RpmsgLite
