/-
What the receive queues guarantee. From a ready start, in every run of any number of queues, endpoints and receiving
tasks in which no message is given back while the receive callback still works on it: no queue overflows, and a release
returns the descriptor the message came with. Over memory that was not cleared the first fails, and a release between
the endpoint's callback and the store of `reserved.idx` returns another descriptor.
-/
import RpmsgLite.Queue.Owned

namespace RpmsgLite

open ByteMem

namespace RxQueues

open MsgQueue (RxCbData)

/-- The messages in the queues and with the tasks are distinct buffers that core `r` owns: their descriptors are neither
free nor queued nor with the sender. -/
structure State.Owned (r : Role) (s : State) : Prop where
  distinct : (s.live.map RxCbData.data).Nodup
  owned : ∀ e ∈ s.live, ∃ g ∈ (s.link.side r).rx.gots, e.data = msgDataAt g.buffer ∧
    g.idx ∉ s.link.freeIds r.peer ++ s.link.txIds r.peer ++ s.link.queueIds r.peer

/-- Nothing is dropped: whatever was passed to `rpmsg_queue_rx_cb` is in a queue, with a task or given back, and the next
message will find room in any queue. -/
structure State.Lossless (r : Role) (n : Nat) (s : State) : Prop where
  bounded : ∀ q ∈ s.queues, q.items.length ≤ n
  dropped : s.dropped = []
  addressed : s.addressed.Perm (s.live ++ s.freed)
  room : ∀ g, (s.link.side r).rx.hand = .seen g → ∀ q ∈ s.queues, (rpmsgQueueRxCb q (msgOf s.link.m g)).1 = true

section

variable {W : Pools} {r : Role} {n : Nat} {s : State} {P : ∀ r, Custody (W.pool r).ids}

theorem Inv.isOwned (h : Inv r n s) (hl : LinkInv W s.link P) : s.Owned r := by
  refine ⟨h.nodup, fun e he => ?_⟩
  obtain ⟨g, hg, heq⟩ := h.mine e he
  have hgot := State.mine_gots hg
  exact ⟨g, hgot, heq, hl.rx_owned hgot⟩

theorem Inv.lossless (h : Inv r (W.pool r.peer).vr.num s) (hl : LinkInv W s.link P) :
    s.Lossless r (W.pool r.peer).vr.num := by
  refine ⟨fun q hq => ?_, h.dropped, h.addressed, fun g hhand q hq => ?_⟩
  · exact (items_le_live hq).trans (h.length_le hl)
  · unfold rpmsgQueueRxCb EnvQueue.envPutQueue
    rw [dif_pos (h.room hl hhand hq)]

end

section

variable {w : Nat} {p : ShmemParams} {addr : Nat} {env envR : InitEnv} {highestM highestR linkId : UInt32}
  {cfg : ShmemConfig} {length : Nat} {m m' : ByteMem} {dm dr : RpmsgLiteInstance} {c : LinkConfig} {r : Role} {s : State}

/-- From a ready start, in every run without a release that is too early: every message in a queue is a distinct buffer
that its core owns, so no queue has more entries than the vring has descriptors and none drops a message. -/
theorem queue_never_overflows (hm : rpmsgLiteMasterInit w env highestM cfg addr length linkId m = .instance dm m')
    (hr : rpmsgLiteRemoteInit w envR highestR cfg addr linkId = some dr) (hlen : addr + length ≤ 2 ^ 32)
    (hp : masterParams w cfg = some p) (hok : LinkReady w cfg addr p m) (hc : c.payloadSize = cfg.payloadSize)
    (h : Reachable c r (settled r) (.start (Link.start m' dm dr)) s) : s.Owned r ∧ s.Lossless r p.count.toNat := by
  obtain ⟨P₀, h₀⟩ := linkInv_start hm hr hlen hp hok
  have hpay := hok.pool_payload hc
  obtain ⟨⟨P, hl⟩, hinv⟩ := h.inv h₀ hpay
  rw [← hok.layout.pool_vr_num r.peer]
  exact ⟨hinv.isOwned hl, hinv.lossless hl⟩

/-- From a ready start, in every run without a release that is too early, at every release that is not: the header holds
the index of the one descriptor with that buffer, and the release frees exactly that descriptor. -/
theorem release_returns_own (hm : rpmsgLiteMasterInit w env highestM cfg addr length linkId m = .instance dm m')
    (hr : rpmsgLiteRemoteInit w envR highestR cfg addr linkId = some dr) (hlen : addr + length ≤ 2 ^ 32)
    (hp : masterParams w cfg = some p) (hok : LinkReady w cfg addr p m) (hc : c.payloadSize = cfg.payloadSize)
    (h : Reachable c r (settled r) (.start (Link.start m' dm dr)) s) {i : Nat} {e : RxCbData} (hi : s.tasks[i]? = some e)
    (hset : settled r s (.own (.release i)) = true) :
    ∃ g, msgFromBuf e.data = g.buffer ∧ (s.link.side r).dev.rvq.ring.Parked s.link.m g ∧
      ∃ s', s.step c r (.own (.release i)) = some s' ∧ (s'.link.side r).halted = false ∧
        s'.link.freeIds r.peer = s.link.freeIds r.peer ++ [g.idx] := by
  obtain ⟨P₀, h₀⟩ := linkInv_start hm hr hlen hp hok
  have hpay := hok.pool_payload hc
  obtain ⟨⟨P, hl⟩, hinv⟩ := h.inv h₀ hpay
  obtain ⟨j, g, hj, heq, hstep⟩ := hinv.release_step (c := c) hl hi hset
  obtain ⟨P', hl', -⟩ := hl.step hpay hstep
  have hrun : ¬ (s.link.side r).halted = true := by
    rw [hl.running]
    exact Bool.false_ne_true
  have hrel : s.step c r (.own (.release i)) =
      some { s with link := s.link.giveBack c r e.data, tasks := s.tasks.eraseIdx i, freed := s.freed ++ [e] } := by
    simp only [State.step, State.own, if_neg hrun, hi, Option.map_some]
  refine ⟨g, ?_, hl.held_parked (List.mem_of_getElem? hj), _, hrel, hl'.running r, (hl.release_returns hpay hj hstep).2⟩
  rw [heq]
  exact Nat.add_sub_cancel _ _

end

/-! ## Two buffers -/

/-- A message arrives at core `r`, up to the return of its endpoint's callback. -/
def arrive (r : Role) : List Move := [.link r (.rx .rx), .link r (.rx .read), .own (.rxCb false)]

/-- The master sends the byte `b` from address 7 to address 9. -/
def masterSends (b : UInt8) : List Move :=
  [.link .master (.tx (.send 7 9 [b])), .link .master (.tx (.fill 0)), .link .master (.tx (.enqueue 0))]

/-- The remote has a queue for address 9. Both messages of the master are put in, and one is taken. -/
def twoQueued : List Move :=
  [.link .remote .txCallback, .own .rpmsgQueueCreate, .own (.endpoints [⟨9, .queue 0⟩])] ++ masterSends 1 ++ masterSends 2 ++
    arrive .remote ++ [.own .rxDone] ++ arrive .remote ++ [.own (.envGetQueue 0)]

/-- The second message is in the queue while the receive callback still works on it. -/
theorem queue_never_overflows_two : ∃ dm m' dr s,
    rpmsgLiteMasterInit 32 InitEnv.ok 0 (.build (headerTwo 64 (by decide) (by decide))) 4124 512 0 (fun _ => 0) =
      .instance dm m' ∧
    rpmsgLiteRemoteInit 32 InitEnv.ok 0 (.build (headerTwo 64 (by decide) (by decide))) 4124 0 = some dr ∧
    (State.start (Link.start m' dm dr)).run ⟨false, 16, 16⟩ .remote (settled .remote) twoQueued = some s ∧
    s.queues.map (List.length ∘ EnvQueue.items) = [1] ∧ s.Owned .remote ∧ s.Lossless .remote 2 := by
  obtain ⟨dm, m', dr, hm, hr, ht⟩ := Link.of_check_two 0
    (fun dm m' dr => ((State.start (Link.start m' dm dr)).run ⟨false, 16, 16⟩ .remote (settled .remote) twoQueued).any
      fun s => s.queues.map (List.length ∘ EnvQueue.items) == [1])
    (by decide +kernel)
  obtain ⟨s, hs, hitems⟩ := (Option.any_eq_true _ _).1 ht
  refine ⟨dm, m', dr, s, hm, hr, hs, eq_of_beq hitems, ?_⟩
  exact queue_never_overflows hm hr (by decide) rfl linkReady_two rfl (reachable_of_run .start hs)

theorem release_returns_own_two : ∃ dm m' dr s g,
    rpmsgLiteMasterInit 32 InitEnv.ok 0 (.build (headerTwo 64 (by decide) (by decide))) 4124 512 0 (fun _ => 0) =
      .instance dm m' ∧
    rpmsgLiteRemoteInit 32 InitEnv.ok 0 (.build (headerTwo 64 (by decide) (by decide))) 4124 0 = some dr ∧
    (State.start (Link.start m' dm dr)).run ⟨false, 16, 16⟩ .remote (settled .remote) twoQueued = some s ∧
    (s.link.side .remote).dev.rvq.ring.Parked s.link.m g ∧
    ∃ s', s.step ⟨false, 16, 16⟩ .remote (.own (.release 0)) = some s' ∧ (s'.link.side .remote).halted = false ∧
      s'.link.freeIds .master = s.link.freeIds .master ++ [g.idx] := by
  obtain ⟨dm, m', dr, hm, hr, ht⟩ := Link.of_check_two 0
    (fun dm m' dr => ((State.start (Link.start m' dm dr)).run ⟨false, 16, 16⟩ .remote (settled .remote) twoQueued).any
      fun s => s.tasks[0]?.isSome && settled .remote s (.own (.release 0)))
    (by decide +kernel)
  obtain ⟨s, hs, hq⟩ := (Option.any_eq_true _ _).1 ht
  obtain ⟨htask, hset⟩ := Bool.and_eq_true_iff.1 hq
  obtain ⟨e, hi⟩ := Option.isSome_iff_exists.1 htask
  obtain ⟨g, -, hparked, hstep⟩ :=
    release_returns_own hm hr (by decide) rfl linkReady_two rfl (reachable_of_run .start hs) hi hset
  exact ⟨dm, m', dr, s, g, hm, hr, hs, hparked, hstep⟩

/-- The master has a queue for one address, and five messages arrive. -/
def fiveQueued : List Move :=
  [.own .rpmsgQueueCreate, .own (.endpoints [⟨0x04040404, .queue 0⟩])] ++
    (List.replicate 5 (arrive .master ++ [.own .rxDone])).flatten

/-- Over memory that was not cleared the master finds entries of the used ring that nobody wrote, takes the same buffer
again and again, and drops the fifth message. -/
theorem queue_overflows_garbage : ∃ dm m' dr s,
    rpmsgLiteMasterInit 32 InitEnv.ok 0 (.build (headerTwo 64 (by decide) (by decide))) 4124 512 0 (fun _ => 4) =
      .instance dm m' ∧
    rpmsgLiteRemoteInit 32 InitEnv.ok 0 (.build (headerTwo 64 (by decide) (by decide))) 4124 0 = some dr ∧
    Reachable ⟨false, 16, 16⟩ .master (fun _ _ => true) (.start (Link.start m' dm dr)) s ∧
    ¬ (s.live.map RxCbData.data).Nodup ∧ (∃ q ∈ s.queues, 2 < q.items.length) ∧ s.dropped ≠ [] := by
  obtain ⟨dm, m', dr, hm, hr, ht⟩ := Link.of_check_two 4
    (fun dm m' dr => ((State.start (Link.start m' dm dr)).run ⟨false, 16, 16⟩ .master (fun _ _ => true) fiveQueued).any fun s =>
      s.queues.any fun q => decide (¬ (s.live.map RxCbData.data).Nodup ∧ 2 < q.items.length ∧ s.dropped ≠ []))
    (by decide +kernel)
  obtain ⟨s, hs, hq⟩ := (Option.any_eq_true _ _).1 ht
  obtain ⟨q, hmem, hq⟩ := List.any_eq_true.1 hq
  obtain ⟨hdup, hlen, hdropped⟩ := of_decide_eq_true hq
  exact ⟨dm, m', dr, s, hm, hr, reachable_of_run .start hs, hdup, ⟨q, hmem, hlen⟩, hdropped⟩

/-- The task gives back the first message and takes the second. -/
def oneFreed : List Move := twoQueued ++ [.own (.release 0), .own (.envGetQueue 0)]

/-- Over cleared memory: both messages are visible, the task has given back the first one and releases the second one
before the receive callback has stored its index. The header still says 0, and descriptor 0 is freed a second time
instead of descriptor 1. -/
theorem release_too_early : ∃ dm m' dr s s' g e,
    rpmsgLiteMasterInit 32 InitEnv.ok 0 (.build (headerTwo 64 (by decide) (by decide))) 4124 512 0 (fun _ => 0) =
      .instance dm m' ∧
    rpmsgLiteRemoteInit 32 InitEnv.ok 0 (.build (headerTwo 64 (by decide) (by decide))) 4124 0 = some dr ∧
    Reachable ⟨false, 16, 16⟩ .remote (fun _ _ => true) (.start (Link.start m' dm dr)) s ∧
    (s.link.side .remote).rx.gots = [g] ∧ s.tasks = [e] ∧ msgFromBuf e.data = g.buffer ∧ g.idx = 1 ∧
    s.link.m.ld16 (hdrIdxAt (msgFromBuf e.data)) = 0 ∧ s.step ⟨false, 16, 16⟩ .remote (.own (.release 0)) = some s' ∧
    s.link.freeIds .master = [0] ∧ s'.link.freeIds .master = [0, 0] := by
  obtain ⟨dm, m', dr, hm, hr, ht⟩ := Link.of_check_two 0
    (fun dm m' dr => ((State.start (Link.start m' dm dr)).run ⟨false, 16, 16⟩ .remote (fun _ _ => true) oneFreed).any fun s =>
      (s.step ⟨false, 16, 16⟩ .remote (.own (.release 0))).any fun s' =>
        (s.link.side .remote).rx.gots.any fun g => s.tasks.any fun e =>
          decide ((s.link.side .remote).rx.gots = [g] ∧ s.tasks = [e] ∧ msgFromBuf e.data = g.buffer ∧ g.idx = 1 ∧
            s.link.m.ld16 (hdrIdxAt (msgFromBuf e.data)) = 0 ∧ s.link.freeIds .master = [0] ∧
            s'.link.freeIds .master = [0, 0]))
    (by decide +kernel)
  obtain ⟨s, hs, hq⟩ := (Option.any_eq_true _ _).1 ht
  obtain ⟨s', hstep, hq⟩ := (Option.any_eq_true _ _).1 hq
  obtain ⟨g, -, hq⟩ := List.any_eq_true.1 hq
  obtain ⟨e, -, hq⟩ := List.any_eq_true.1 hq
  obtain ⟨hgots, htasks, hbuf, hidx, hheader, hfree, hfree'⟩ := of_decide_eq_true hq
  exact ⟨dm, m', dr, s, s', g, e, hm, hr, reachable_of_run .start hs, hgots, htasks, hbuf, hidx, hheader, hstep, hfree, hfree'⟩

end RxQueues

end RpmsgLite
