/-
The length of a message on its way. `rpmsg_lite_send` checks a 32-bit size against the payload limit and
stores it in the 16-bit field `hdr.len`, from which the receive callback takes `payload_len`: a message
arrives with its size and its bytes exactly when its size is at most 65535.
-/
import RpmsgLite.Link.Delivery

namespace RpmsgLite

open ByteMem

/-- The peer reads the message with the size and the bytes it was sent with. -/
def Msg.Intact (msg got : Msg) : Prop :=
  got.src = msg.src ∧ got.dst = msg.dst ∧ got.len.toNat = msg.data.length ∧ got.data = msg.data

/-- A message that the length field covers arrives intact, and no other does. -/
theorem Msg.seen_intact_iff {msg : Msg} (h : msg.len = UInt16.ofNat msg.data.length) :
    msg.Intact msg.seen ↔ msg.data.length ≤ 65535 := by
  have hlen : msg.seen.len.toNat = msg.data.length % 2 ^ 16 := by
    show msg.len.toNat = _
    rw [h, UInt16.toNat_ofNat']
  constructor
  · rintro ⟨-, -, hl, -⟩
    rw [hlen] at hl
    omega
  · intro hle
    refine ⟨rfl, rfl, by rw [hlen]; omega, ?_⟩
    show msg.data.take msg.len.toNat = msg.data
    rw [show msg.len.toNat = msg.data.length by rw [← hlen.trans (Nat.mod_eq_of_lt (by omega))]; rfl]
    exact List.take_length

section

variable {W : Pools} {c : LinkConfig} {s s' : Link} {P : ∀ r, Custody (W.pool r).ids} {r : Role}

/-! ## The receive callback reads what was sent -/

/-- A receive step that is enabled keeps the invariant and leaves the sender alone. -/
theorem LinkInv.rx_step (h : LinkInv W s P) (hpay : ∀ r, c.payloadSize + 16 ≤ (W.pool r).size) {a : RxAct} {x : Side}
    {m' : ByteMem} (ha : (s.side r.peer).rxStep c s.m a = some (x, m')) :
    ∃ s' P', s.step c r.peer (.rx a) = some s' ∧ LinkInv W s' P' ∧ (s'.side r.peer) = x ∧ s'.side r = s.side r ∧
      x.halted = false := by
  have hs : s.step c r.peer (.rx a) = some { m := m', side := Function.update s.side r.peer x } := by
    unfold Link.step
    rw [if_neg (by rw [h.running]; decide)]
    show ((s.side r.peer).rxStep c s.m a).map _ = _
    rw [ha]
    rfl
  obtain ⟨P', hinv', -⟩ := h.step hpay hs
  have hrun := hinv'.running r.peer
  simp only [Function.update_self] at hrun
  exact ⟨_, P', hs, hinv', Function.update_self r.peer x s.side, Function.update_of_ne (Role.peer_ne r).symm _ _, hrun⟩

/-- Only the peer's receive callback runs from `s` to `s'`. -/
def Link.RxRun (c : LinkConfig) (r : Role) (s s' : Link) : Prop :=
  ∃ as : List RxAct, s.run c (as.map fun a => (r.peer, .rx a)) = some s'

theorem Link.RxRun.refl (s : Link) : Link.RxRun c r s s := ⟨[], rfl⟩

theorem Link.RxRun.head {s₁ : Link} {a : RxAct} (ha : s.step c r.peer (.rx a) = some s₁) (h : Link.RxRun c r s₁ s') :
    Link.RxRun c r s s' := by
  obtain ⟨as, has⟩ := h
  exact ⟨a :: as, by rw [List.map_cons, Link.run, ha, Option.bind_some]; exact has⟩

theorem Link.RxRun.trans {s₁ : Link} :
    ∀ {s : Link}, Link.RxRun c r s s₁ → Link.RxRun c r s₁ s' → Link.RxRun c r s s' := by
  rintro s ⟨as, has⟩ h
  induction as generalizing s with
  | nil =>
    cases has
    exact h
  | cons a as ih =>
    obtain ⟨s₂, h₂, has⟩ := Option.bind_eq_some_iff.1 has
    exact .head h₂ (ih has)

/-- How many of `r`'s messages have not been read. -/
theorem LinkInv.unread (h : LinkInv W s P) :
    (s.side r).tx.sent.length = (s.side r.peer).rx.recv.length + ((s.side r.peer).rx.inflight (P r).queue).length := by
  have hfifo := congrArg List.length (h.flow r).contents.fifo
  rwa [List.length_map, List.length_append, List.length_map] at hfifo

/-- The state after a receive run that read one message more. -/
def Link.ReadOne (c : LinkConfig) (r : Role) (W : Pools) (s : Link) : Prop :=
  ∃ s' P', Link.RxRun c r s s' ∧ LinkInv W s' P' ∧ s'.side r = s.side r ∧
    (s'.side r.peer).rx.recv.length = (s.side r.peer).rx.recv.length + 1

theorem LinkInv.read_taken (h : LinkInv W s P) (hpay : ∀ r, c.payloadSize + 16 ≤ (W.pool r).size) {g : Got}
    (hhand : (s.side r.peer).rx.hand = .taken g) : Link.ReadOne c r W s := by
  obtain ⟨s', P', hs, hinv, hx, hr, -⟩ := h.rx_step (r := r) hpay (a := .read) (by simp only [Side.rxStep, hhand]; rfl)
  refine ⟨s', P', .head hs (.refl _), hinv, hr, ?_⟩
  rw [hx]
  exact List.length_append

/-- With the callback between messages, `vq_rx` finds the oldest pending message. -/
theorem LinkInv.read_idle (h : LinkInv W s P) (hpay : ∀ r, c.payloadSize + 16 ≤ (W.pool r).size)
    (hhand : (s.side r.peer).rx.hand = .idle) (hlt : (s.side r.peer).rx.recv.length < (s.side r).tx.sent.length) :
    Link.ReadOne c r W s := by
  have hrole : (s.side r.peer).dev.role.getKind = r.getKind.other := by rw [h.role, Role.getKind_peer]
  have hrx : ∃ dev g, rpmsgLiteRx c.clear (s.side r.peer).dev s.m = (dev, some g) := by
    rcases (h.flow r).linked.rxTake c.clear hrole with ⟨hnil, -⟩ | ⟨d, q, -, hget, -⟩
    · have hcount := h.unread (r := r)
      rw [RxHalf.inflight, hhand, hnil] at hcount
      simp only [RxHand.unread, List.map_nil, List.append_nil, List.length_nil] at hcount
      omega
    · unfold rpmsgLiteRx
      rw [hget]
      exact ⟨_, _, rfl⟩
  obtain ⟨dev, g, hrx⟩ := hrx
  obtain ⟨s₁, P₁, hs₁, hinv₁, hx₁, hr₁, -⟩ := h.rx_step (r := r) hpay (a := .rx)
    (by simp only [Side.rxStep, hhand, ne_eq, not_true_eq_false, if_false, hrx]; rfl)
  obtain ⟨s', P', hrun, hinv, hr, hlen⟩ := hinv₁.read_taken (r := r) hpay (g := g) (by rw [hx₁])
  refine ⟨s', P', .head hs₁ hrun, hinv, hr.trans hr₁, ?_⟩
  rw [hlen, hx₁]

/-- As long as a message is unread, the receive callback goes on to read one. -/
theorem LinkInv.read_one (h : LinkInv W s P) (hpay : ∀ r, c.payloadSize + 16 ≤ (W.pool r).size)
    (hlt : (s.side r.peer).rx.recv.length < (s.side r).tx.sent.length) : Link.ReadOne c r W s := by
  cases hhand : (s.side r.peer).rx.hand with
  | idle => exact h.read_idle hpay hhand hlt
  | taken g => exact h.read_taken hpay hhand
  | seen g =>
    -- the callback of the message before returns first
    have hdone : ∃ x m', (s.side r.peer).rxStep c s.m (.done true) = some (x, m') ∧ x.rx.hand = .idle ∧
        x.rx.recv = (s.side r.peer).rx.recv := by
      simp only [Side.rxStep, hhand, rpmsgLiteRxDone, if_true]
      exact ⟨_, _, rfl, rfl, rfl⟩
    obtain ⟨x, m', ha, hidle, hrecv⟩ := hdone
    obtain ⟨s₁, P₁, hs₁, hinv₁, hx₁, hr₁, -⟩ := h.rx_step (r := r) hpay ha
    obtain ⟨s', P', hrun, hinv, hr, hlen⟩ :=
      hinv₁.read_idle (r := r) hpay (by rw [hx₁, hidle]) (by rw [hx₁, hr₁, hrecv]; exact hlt)
    refine ⟨s', P', .head hs₁ hrun, hinv, hr.trans hr₁, ?_⟩
    rw [hlen, hx₁, hrecv]

/-- The receive callback alone reads everything that was sent. -/
theorem LinkInv.drains (hpay : ∀ r, c.payloadSize + 16 ≤ (W.pool r).size) :
    ∀ (n : Nat) {s : Link} {P : ∀ r, Custody (W.pool r).ids}, LinkInv W s P →
      (s.side r).tx.sent.length = (s.side r.peer).rx.recv.length + n →
      ∃ s' P', Link.RxRun c r s s' ∧ LinkInv W s' P' ∧ s'.side r = s.side r ∧
        (s'.side r.peer).rx.recv.length = (s.side r).tx.sent.length
  | 0, s, P, h, hn => ⟨s, P, .refl _, h, rfl, hn.symm⟩
  | n + 1, s, P, h, hn => by
    obtain ⟨s₁, P₁, hrun₁, hinv₁, hr₁, hlen₁⟩ := h.read_one (c := c) (r := r) hpay (by omega)
    obtain ⟨s', P', hrun, hinv, hr, hlen⟩ := LinkInv.drains hpay n hinv₁ (by rw [hr₁, hlen₁]; omega)
    exact ⟨s', P', hrun₁.trans hrun, hinv, hr.trans hr₁, by rw [hlen, hr₁]⟩

/-- In every state a message that has been read was read as its length field allows. -/
theorem LinkInv.recv_seen (h : LinkInv W s P) {i : Nat} {got : Msg} (hgot : (s.side r.peer).rx.recv[i]? = some got) :
    ∃ msg, (s.side r).tx.sent[i]? = some msg ∧ got = msg.seen := by
  have hfifo := (h.flow r).contents.fifo
  have hi := (List.getElem?_eq_some_iff.1 hgot).1
  have hmap : ((s.side r).tx.sent.map Msg.seen)[i]? = some got := by
    rw [hfifo, List.getElem?_append_left hi]
    exact hgot
  rw [List.getElem?_map] at hmap
  obtain ⟨msg, hmsg, rfl⟩ := Option.map_eq_some_iff.1 hmap
  exact ⟨msg, hmsg, rfl⟩

end

/-! ## From the initialisations -/

theorem Link.RxRun.reachable {c : LinkConfig} {r : Role} {s₀ s s' : Link} (h : Link.Reachable c s₀ s)
    (hr : Link.RxRun c r s s') :
    Link.Reachable c s₀ s' := by
  obtain ⟨as, has⟩ := hr
  exact Link.reachable_of_run h has

/-- From a ready start, in every state of every run: what the peer's callback has read is what was sent,
each message intact if and only if its size is at most 65535, and the receive callback, left to run, reads
every message that was sent. -/
theorem link_intact {w : Nat} {p : ShmemParams} {addr : Nat} {env envR : InitEnv} {highestM highestR linkId : UInt32}
    {cfg : ShmemConfig} {length : Nat} {m m' : ByteMem} {dm dr : RpmsgLiteInstance} {c : LinkConfig} {s : Link}
    (hm : rpmsgLiteMasterInit w env highestM cfg addr length linkId m = .instance dm m')
    (hr : rpmsgLiteRemoteInit w envR highestR cfg addr linkId = some dr) (hlen : addr + length ≤ 2 ^ 32)
    (hp : masterParams w cfg = some p) (hok : LinkReady w cfg addr p m) (hc : c.payloadSize = cfg.payloadSize)
    (h : Link.Reachable c (Link.start m' dm dr) s) (r : Role) :
    (∀ (i : Nat) (got : Msg), (s.side r.peer).rx.recv[i]? = some got →
      ∃ msg : Msg, (s.side r).tx.sent[i]? = some msg ∧ (msg.Intact got ↔ msg.data.length ≤ 65535)) ∧
    ∃ s', Link.RxRun c r s s' ∧ ∀ (i : Nat) (msg : Msg), (s.side r).tx.sent[i]? = some msg →
      ∃ got, (s'.side r.peer).rx.recv[i]? = some got ∧ (msg.Intact got ↔ msg.data.length ≤ 65535) := by
  have hpay := hok.pool_payload hc
  have hread : ∀ {s : Link}, Link.Reachable c (Link.start m' dm dr) s →
    ∀ (i : Nat) (got : Msg), (s.side r.peer).rx.recv[i]? = some got →
      ∃ msg : Msg, (s.side r).tx.sent[i]? = some msg ∧ (msg.Intact got ↔ msg.data.length ≤ 65535) := by
    intro s h i got hgot
    obtain ⟨P, hinv⟩ := linkInv_reachable hm hr hlen hp hok hc h
    obtain ⟨msg, hmsg, rfl⟩ := hinv.recv_seen hgot
    exact ⟨msg, hmsg, Msg.seen_intact_iff ((Link.reachable_short h r).sent msg (List.mem_of_getElem? hmsg)).2⟩
  refine ⟨hread h, ?_⟩
  obtain ⟨P, hinv⟩ := linkInv_reachable hm hr hlen hp hok hc h
  obtain ⟨s', P', hrun, -, hside, hall⟩ := LinkInv.drains hpay _ hinv (hinv.unread (r := r))
  refine ⟨s', hrun, fun i msg hmsg => ?_⟩
  have hi : i < (s'.side r.peer).rx.recv.length := by
    rw [hall]
    exact (List.getElem?_eq_some_iff.1 hmsg).1
  obtain ⟨msg', hmsg', hiff⟩ := hread (hrun.reachable h) i _ (List.getElem?_eq_getElem hi)
  rw [hside, hmsg] at hmsg'
  cases hmsg'
  exact ⟨_, List.getElem?_eq_getElem hi, hiff⟩

/-- Over cleared memory the three bytes of the master arrive intact. -/
theorem link_intact_three : ∃ dm m' dr s, ∃ msg got : Msg,
    rpmsgLiteMasterInit 32 InitEnv.ok 0 (.build (headerTwo 64 (by decide) (by decide))) 4124 512 0 (fun _ => 0) =
      .instance dm m' ∧
    rpmsgLiteRemoteInit 32 InitEnv.ok 0 (.build (headerTwo 64 (by decide) (by decide))) 4124 0 = some dr ∧
    (Link.start m' dm dr).run ⟨false, 16, 16⟩ sendThree = some s ∧
    (s.side .remote).rx.recv[0]? = some got ∧ (s.side .master).tx.sent[0]? = some msg ∧
    (msg.Intact got ↔ msg.data.length ≤ 65535) := by
  obtain ⟨dm, m', dr, hm, hr, ht⟩ := Link.of_check_two 0
    (fun dm m' dr => ((Link.start m' dm dr).run ⟨false, 16, 16⟩ sendThree).any
          fun s => (s.side .remote).rx.recv[0]?.isSome)
    (by decide +kernel)
  obtain ⟨s, hs, hrecv⟩ := (Option.any_eq_true _ _).1 ht
  obtain ⟨got, hgot⟩ := Option.isSome_iff_exists.1 hrecv
  obtain ⟨msg, hmsg, hiff⟩ := (link_intact hm hr (by decide) rfl
    linkReady_two rfl
    (Link.reachable_of_run .start hs) .master).1 0 got hgot
  exact ⟨dm, m', dr, s, msg, got, hm, hr, hs, hgot, hmsg, hiff⟩

/-- Two buffers with a payload of 65536 bytes. -/
def wideTwo : BuildConfig where
  bufferCount := 2
  payloadSize := 65536
  vringAlign := 64
  vringSize := headerVringSize 2 64
  count_ne := count_two_ne
  count_and := count_two_and
  count_le := count_two_le
  align_le := align_64_le
  payload_pos := by decide
  payload_lt := by decide
  vringSize_lt := headerVringSize_two_lt

/-- The master sends a zero-copy buffer of 65536 bytes and the remote's callback reads it. -/
def sendWide : List (Role × Act) :=
  [(.master, .tx .allocTxBuffer), (.master, .tx (.sendNocopy 0 7 9 65536)), (.remote, .rx .rx), (.remote, .rx .read)]

/-- The send of 65536 bytes succeeds, and the remote's callback is called with no payload. -/
theorem link_intact_truncated : ∃ dm m' dr s,
    rpmsgLiteMasterInit 32 InitEnv.ok 0 (.build wideTwo) 4096 300000 0 (fun _ => 0) = .instance dm m' ∧
    rpmsgLiteRemoteInit 32 InitEnv.ok 0 (.build wideTwo) 4096 0 = some dr ∧
    (Link.start m' dm dr).run ⟨false, 65536, 65536⟩ sendWide = some s ∧
    (s.side .master).tx.sent.length = 1 ∧ (s.side .remote).rx.recv = [⟨7, 9, 0, []⟩] := by
  obtain ⟨dr, hr⟩ := Option.isSome_iff_exists.1
    (show (rpmsgLiteRemoteInit 32 InitEnv.ok 0 (.build wideTwo) 4096 0).isSome = true by decide +kernel)
  have hrun : (rpmsgLiteRemoteInit 32 InitEnv.ok 0 (.build wideTwo) 4096 0).all fun dr =>
      (rpmsgLiteMasterInit 32 InitEnv.ok 0 (.build wideTwo) 4096 300000 0 (fun _ => 0)).check
        fun dm m' => ((Link.start m' dm dr).run ⟨false, 65536, 65536⟩ sendWide).any
          fun s => (s.side .master).tx.sent.length == 1 && (s.side .remote).rx.recv == [⟨7, 9, 0, []⟩] := by
    decide +kernel
  rw [hr] at hrun
  simp only [Option.all_some] at hrun
  obtain ⟨dm, m', hm, ht⟩ := InitResult.of_check hrun
  obtain ⟨s, hs, hrecv⟩ := (Option.any_eq_true _ _).1 ht
  obtain ⟨hsent, hrecv⟩ := Bool.and_eq_true_iff.1 hrecv
  exact ⟨dm, m', dr, s, hm, hr, hs, eq_of_beq hsent, eq_of_beq hrecv⟩

end RpmsgLite
