/-
Messages arrive once, whole and in order. From a ready start, what a core's receive callback has read
is a prefix of what the other core enqueued, and the rest is in the ring, byte for byte, however the
buffers were recycled in between.
-/
import RpmsgLite.Link.Conservation
import RpmsgLite.Lib.Runs

namespace RpmsgLite

open ByteMem

/-! ## The length field -/

/-- The sends under way and the logged messages are at most `limit` long. -/
structure TxHalf.Short (limit : Nat) (t : TxHalf) : Prop where
  sending : ∀ e ∈ t.sending, e.data.length ≤ limit
  sent : ∀ msg ∈ t.sent, msg.data.length ≤ limit ∧ msg.len = UInt16.ofNat msg.data.length

/-- A message of at most 65535 bytes is covered by its length field. -/
theorem Msg.seen_eq {msg : Msg} {limit : Nat} (hlimit : limit ≤ 65535)
    (h : msg.data.length ≤ limit ∧ msg.len = UInt16.ofNat msg.data.length) : msg.seen = msg := by
  obtain ⟨hle, hlen⟩ := h
  unfold Msg.seen
  rw [hlen, UInt16.toNat_ofNat_of_lt' (by simp only [UInt16.size]; omega), List.take_length, ← hlen]

section

variable {c : LinkConfig} {x x' : Side} {m m' : ByteMem}

theorem TxHalf.Short.append {limit : Nat} {t t' : TxHalf} (h : t.Short limit) (hs : ∀ e ∈ t'.sending, e ∈ t.sending)
    {src dst : UInt32} {data : List UInt8} (hd : data.length ≤ limit) (hsent : t'.sent = t.sent ++ [Msg.of src dst data]) :
    t'.Short limit := by
  refine ⟨fun e he => h.sending e (hs e he), fun msg hmsg => ?_⟩
  rw [hsent] at hmsg
  rcases List.mem_append.1 hmsg with hmsg | hmsg
  · exact h.sent msg hmsg
  · rw [List.mem_singleton.1 hmsg]; exact ⟨hd, rfl⟩

/-- The applications never exceed their limit. -/
theorem Side.txStep_short (h : x.tx.Short c.limit) {a : TxAct} (ha : x.txStep c m a = some (x', m')) :
    x'.tx.Short c.limit := by
  cases Side.txStep_cases ha with
  | sendRefused => exact h
  | send hle =>
    refine ⟨fun e he => ?_, h.sent⟩
    rcases List.mem_append.1 he with he | he
    · exact h.sending e he
    · rw [List.mem_singleton.1 he]
      exact hle
  | @fill i e hi =>
    refine ⟨fun e' he' => ?_, h.sent⟩
    rcases List.mem_or_eq_of_mem_set he' with he' | rfl
    · exact h.sending e' he'
    · exact h.sending e (List.mem_of_getElem? hi)
  | enqueueStuck => exact h
  | enqueue hi => exact h.append (fun _ he => List.mem_of_mem_eraseIdx he) (h.sending _ (List.mem_of_getElem? hi)) rfl
  | allocNone => exact h
  | allocTxBuffer => exact ⟨h.sending, h.sent⟩
  | write => exact h
  | nocopyStuck => exact h
  | sendNocopy hle => exact h.append (fun _ he => he) (by rw [length_block]; exact hle) rfl
  | nocopyRefused => exact h

end

theorem Link.reachable_short {c : LinkConfig} {m : ByteMem} {dm dr : RpmsgLiteInstance} {s : Link}
    (h : Link.Reachable c (Link.start m dm dr) s) : ∀ r, (s.side r).tx.Short c.limit := by
  induction h with
  | start =>
    intro r
    cases r <;> exact ⟨fun e he => absurd he List.not_mem_nil, fun e he => absurd he List.not_mem_nil⟩
  | step _ hs ih =>
    rename_i s s' r a _
    obtain ⟨x, m', ha, rfl⟩ := Link.step_cases hs
    have hx : x.tx.Short c.limit := by
      cases a with
      | tx a => exact Side.txStep_short (ih r) ha
      | rx a => rw [Side.rxStep_tx ha]; exact ih r
      | txCallback => cases ha; exact ih r
    intro q
    by_cases hq : q = r
    · subst hq; simp only [Function.update_self]; exact hx
    · simp only [Function.update_of_ne hq]; exact ih q

/-! ## Delivery -/

namespace Link

variable (s : Link) (r : Role)

/-- The buffers of the pending messages of `r`, as the descriptor table names them, oldest first. -/
def queueBufs : List Nat :=
  (s.queueIds r).map fun d =>
    envMapPatova (s.m.ld64 ((s.side r.peer).dev.rvq.ring.descAddrAt d.toNat)).toUInt32

/-- The buffers whose messages are enqueued and not read: the one the peer's callback has just taken, if
it has not read it yet, and the pending ones. -/
def inflightBufs : List Nat := (s.side r.peer).rx.hand.unread.map Got.buffer ++ s.queueBufs r

/-- What the peer has read of `r`'s messages, and where the rest is. -/
structure Delivered : Prop where
  read : (s.side r.peer).rx.recv <+: (s.side r).tx.sent
  rest : (s.side r).tx.sent.drop (s.side r.peer).rx.recv.length = (s.inflightBufs r).map (msgAt s.m)

end Link

section

variable {W : Pools} {s : Link} {P : ∀ r, Custody (W.pool r).ids} {r : Role}

theorem Linked.descAddr {B : BufferPool} {k : RingKind} {m : ByteMem} {tvq rvq : Virtqueue} {P : Custody B.ids}
    (h : Linked B k m tvq rvq P) {d : UInt16} (hd : d ∈ B.ids) :
    envMapPatova (m.ld64 (rvq.ring.descAddrAt d.toNat)).toUInt32 = B.buffer d := by
  obtain ⟨-, -, htop⟩ := BufferPool.buffer_bounds hd
  have hsz := B.size_ge
  have hhi := B.bufHi_le
  rw [h.rvq_ring, (h.desc d.toNat (B.mem_ids.1 hd)).1]
  exact toNat_low_ofNat (by unfold BufferPool.buffer bufferAt at htop; omega)

theorem LinkInv.inflightBufs (h : LinkInv W s P) :
    s.inflightBufs r = ((s.side r.peer).rx.inflight (P r).queue).map (W.pool r).buffer := by
  have hflow := h.flow r
  unfold Link.inflightBufs Link.queueBufs RxHalf.inflight
  rw [h.queueIds, List.map_append, List.map_map]
  refine congrArg₂ (· ++ ·) ?_ ?_
  · refine List.map_congr_left fun g hg => ?_
    exact congrArg Got.buffer (hflow.contents.rxGot g (List.mem_append_left _ (RxHand.unread_sub hg)))
  · exact List.map_congr_left fun d hd => hflow.linked.descAddr ((P r).mem_queue hd)

theorem LinkInv.delivered {c : LinkConfig} (h : LinkInv W s P) (hs : (s.side r).tx.Short c.limit) (hlimit : c.limit ≤ 65535) :
    s.Delivered r := by
  have hfifo := (h.flow r).contents.fifo
  have hseen : (s.side r).tx.sent.map Msg.seen = (s.side r).tx.sent :=
    (List.map_congr_left fun msg hmsg => Msg.seen_eq hlimit (hs.sent msg hmsg)).trans (List.map_id _)
  rw [hseen] at hfifo
  refine ⟨hfifo ▸ List.prefix_append _ _, ?_⟩
  rw [hfifo, List.drop_left, h.inflightBufs, List.map_map]
  rfl

end

section

variable {w : Nat} {p : ShmemParams} {addr : Nat} {env envR : InitEnv} {highestM highestR linkId : UInt32}
  {cfg : ShmemConfig} {length : Nat} {m m' : ByteMem} {dm dr : RpmsgLiteInstance} {c : LinkConfig} {s : Link}

/-- From a ready start, with messages of at most 65535 bytes, both directions deliver in every state of
every run. -/
theorem link_delivers (hm : rpmsgLiteMasterInit w env highestM cfg addr length linkId m = .instance dm m')
    (hr : rpmsgLiteRemoteInit w envR highestR cfg addr linkId = some dr) (hlen : addr + length ≤ 2 ^ 32)
    (hp : masterParams w cfg = some p) (hok : LinkReady w cfg addr p m) (hc : c.payloadSize = cfg.payloadSize)
    (hlimit : c.limit ≤ 65535) (h : Link.Reachable c (Link.start m' dm dr) s) (r : Role) : s.Delivered r := by
  obtain ⟨P, hinv⟩ := linkInv_reachable hm hr hlen hp hok hc h
  exact hinv.delivered (Link.reachable_short h r) hlimit

end

/-- A run of several steps. -/
def Link.run (c : LinkConfig) : Link → List (Role × Act) → Option Link
  | s, [] => some s
  | s, (r, a) :: as => (s.step c r a).bind fun s' => Link.run c s' as

theorem Link.isRun (c : LinkConfig) : IsRun (fun s a => s.step c a.1 a.2) (Link.run c) := ⟨fun _ => rfl, fun _ _ _ => rfl⟩

theorem Link.reachable_of_run {c : LinkConfig} {s₀ : Link} {as : List (Role × Act)} {s s' : Link}
    (h : Link.Reachable c s₀ s) (hr : s.run c as = some s') : Link.Reachable c s₀ s' :=
  (Link.isRun c).keeps (fun h hstep => h.step hstep) h hr

/-- The master sends three bytes and the remote's callback reads them. -/
def sendThree : List (Role × Act) :=
  [(.master, .tx (.send 7 9 [1, 2, 3])), (.master, .tx (.fill 0)), (.master, .tx (.enqueue 0)), (.remote, .rx .rx),
   (.remote, .rx .read)]

/-- Over cleared memory the three bytes arrive. -/
theorem link_delivers_three : ∃ dm m' dr s,
    rpmsgLiteMasterInit 32 InitEnv.ok 0 (.build (headerTwo 64 (by decide) (by decide))) 4124 512 0 (fun _ => 0) =
      .instance dm m' ∧
    rpmsgLiteRemoteInit 32 InitEnv.ok 0 (.build (headerTwo 64 (by decide) (by decide))) 4124 0 = some dr ∧
    (Link.start m' dm dr).run ⟨false, 16, 16⟩ sendThree = some s ∧
    (s.side .remote).rx.recv = [⟨7, 9, 3, [1, 2, 3]⟩] ∧ s.Delivered .master := by
  obtain ⟨dm, m', dr, hm, hr, ht⟩ := Link.of_check_two 0
    (fun dm m' dr => ((Link.start m' dm dr).run ⟨false, 16, 16⟩ sendThree).any
          fun s => (s.side .remote).rx.recv == [⟨7, 9, 3, [1, 2, 3]⟩])
    (by decide +kernel)
  obtain ⟨s, hs, hrecv⟩ := (Option.any_eq_true _ _).1 ht
  refine ⟨dm, m', dr, s, hm, hr, hs, eq_of_beq hrecv, ?_⟩
  exact link_delivers hm hr (by decide) rfl
    linkReady_two rfl (by decide)
    (Link.reachable_of_run .start hs) .master

/-- Over memory that was not cleared the master reads a message nobody sent. -/
theorem link_delivers_garbage : ∃ dm m' dr s,
    rpmsgLiteMasterInit 32 InitEnv.ok 0 (.build (headerTwo 64 (by decide) (by decide))) 4124 512 0 (fun _ => 0xFF) =
      .instance dm m' ∧
    rpmsgLiteRemoteInit 32 InitEnv.ok 0 (.build (headerTwo 64 (by decide) (by decide))) 4124 0 = some dr ∧
    (Link.start m' dm dr).run ⟨false, 16, 16⟩ [(.master, .rx .rx), (.master, .rx .read)] = some s ∧
    (s.side .remote).tx.sent = [] ∧ ¬ s.Delivered .remote := by
  obtain ⟨dm, m', dr, hm, hr, ht⟩ := Link.of_check_two 0xFF
    (fun dm m' dr => ((Link.start m' dm dr).run ⟨false, 16, 16⟩ [(.master, .rx .rx), (.master, .rx .read)]).any
          fun s => (s.side .remote).tx.sent.isEmpty && !(s.side .master).rx.recv.isEmpty)
    (by decide +kernel)
  obtain ⟨s, hs, hrecv⟩ := (Option.any_eq_true _ _).1 ht
  simp only [Bool.and_eq_true, Bool.not_eq_true', List.isEmpty_iff, List.isEmpty_eq_false_iff] at hrecv
  refine ⟨dm, m', dr, s, hm, hr, hs, hrecv.1, fun hd => hrecv.2 ?_⟩
  have hread := hd.read
  rw [hrecv.1] at hread
  exact List.prefix_nil.1 hread

end RpmsgLite
