/-
What the receive queues deliver. Beside the queues of a core runs the machine they are meant to be: boxes of texts, one
a queue. A text goes to the box of the endpoint bound to the destination its sender wrote, at the time its callback
runs, and leaves the box when a task takes it. In every run the queues and the shared memory read as the boxes say, so
a task gets what the peer has sent to its queue, in order, and it stays what it was until the task gives it back.
-/
import RpmsgLite.Lib.Mailbox
import RpmsgLite.Link.Channels
import RpmsgLite.Queue.Bounded

namespace RpmsgLite

open ByteMem

/-! ## Received buffers under a step -/

section

variable {W : Pools} {c : LinkConfig} {s s' : Link} {P : ∀ r, Custody (W.pool r).ids} {r q : Role} {g : Got}

theorem LinkInv.rx_flow (h : LinkInv W s P) (r : Role) :
    Flow (W.pool r.peer) r.peer.getKind s.m (s.side r.peer).dev.tvq (s.side r).dev.rvq (s.side r.peer).tx (s.side r).rx
      (P r.peer) := by
  have hflow := h.flow r.peer
  rwa [Role.peer_peer] at hflow

theorem LinkInv.rx_got (h : LinkInv W s P) (hg : g ∈ (s.side r).rx.gots) :
    g = (W.pool r.peer).got g.idx ∧ g.idx ∈ (W.pool r.peer).ids :=
  ⟨(h.rx_flow r).contents.rxGot g hg, (h.rx_flow r).rx_ids hg⟩

/-- Received buffers with the same payload pointer have the same descriptor. -/
theorem LinkInv.idx_of_data (h : LinkInv W s P) {e : Got} (hg : g ∈ (s.side r).rx.gots) (he : e ∈ (s.side r).rx.gots)
    (hidx : g.idx = e.idx) : msgDataAt g.buffer = msgDataAt e.buffer := by
  rw [(h.rx_got hg).1, (h.rx_got he).1, hidx]

/-- A step stores into a received buffer only as a step of its receiver on this buffer. -/
theorem LinkInv.buffer_same (h : LinkInv W s P) (hpay : ∀ r, c.payloadSize + 16 ≤ (W.pool r).size) {a : Act}
    (hs : s.step c q a = some s') (hg : g ∈ (s.side r).rx.gots)
    (hne : ∀ b, q = r → a = .rx b → b.target (s.side r).rx ≠ some g.idx) :
    Agree s.m s'.m g.buffer (g.buffer + (W.pool r.peer).size) := by
  obtain ⟨hgot, hid⟩ := h.rx_got hg
  have hbuf : g.buffer = (W.pool r.peer).buffer g.idx := congrArg Got.buffer hgot
  obtain ⟨x, m', ha, rfl⟩ := Link.step_cases hs
  rw [hbuf]
  have hin := h.rx_flow q
  have hkin : (s.side q).dev.role.getKind = q.peer.getKind.other := by
    rw [h.role q, Role.getKind_peer, RingKind.other_other]
  rcases r.eq_or_peer q with rfl | rfl
  · cases a with
    | tx a =>
      obtain ⟨-, -, ht, -⟩ := (h.flow q).txStep (by rw [h.role q]) (hpay q) ha
      exact W.agreeBut ht _ hid fun hnone => by cases hnone
    | rx a => exact hin.rx_agree hkin ha _ hid (hne a rfl rfl)
    | txCallback =>
      cases ha
      exact .refl _ _ _
  · cases a with
    | tx a =>
      have hout := h.rx_flow r
      exact hout.tx_agree (by rw [h.role]) (hpay _) ha _ hid (hout.tx_target a g hg)
    | rx a =>
      obtain ⟨-, -, ht, -⟩ := hin.rxStep hkin ha
      rw [Role.peer_peer] at ht
      exact W.agreeBut ht _ hid fun hnone => by cases hnone
    | txCallback =>
      cases ha
      exact .refl _ _ _

/-- Holding a message stores into its header only. -/
theorem Link.hold_payload (hs : s.step c r (.rx (.done true)) = some s')
    (hhand : (s.side r).rx.hand = .seen g) (n : Nat) : Agree s.m s'.m (msgDataAt g.buffer) n := by
  obtain ⟨x, m', ha, rfl⟩ := Link.step_cases hs
  replace ha : (s.side r).rxStep c s.m (.done true) = some (x, m') := ha
  cases Side.rxStep_cases ha with
  | doneStuck => exact .refl _ _ _
  | done hhand' hdone =>
    obtain rfl := RxHand.seen.inj (hhand.symm.trans hhand')
    unfold rpmsgLiteRxDone at hdone
    rw [if_pos rfl] at hdone
    cases hdone
    exact (frame_st16 _ _ _).agree (Or.inr (by simp only [hdrIdxAt, msgDataAt]; omega))

/-- A write of the application into the message in hand leaves its header alone. -/
theorem writePayload_header {m m' : ByteMem} {off : Nat} {bytes : List UInt8} (h : writePayload m g off bytes = some m') :
    (msgAt m' g.buffer).src = (msgAt m g.buffer).src ∧ (msgAt m' g.buffer).dst = (msgAt m g.buffer).dst ∧
      (msgAt m' g.buffer).len = (msgAt m g.buffer).len := by
  unfold writePayload at h
  split at h
  · cases h
    have hf := frame_copy m (msgDataAt g.buffer + off) bytes
    simp only [msgDataAt] at hf
    refine ⟨ld32_congr (hf.agree (Or.inl ?_)), ld32_congr (hf.agree (Or.inl ?_)), ld16_congr (hf.agree (Or.inl ?_))⟩
    · simp only [hdrSrcAt]; omega
    · simp only [hdrDstAt]; omega
    · simp only [hdrLenAt]; omega
  · cases h

end

namespace RxQueues

open MsgQueue (RxCbData)

/-! ## The boxes -/

/-- What a receiver gets of a message: the address it comes from and its bytes. -/
abbrev Text := UInt32 × List UInt8

def text (msg : Msg) : Text := (msg.src, msg.data)

/-- What a task reads of an entry. -/
def readText (m : ByteMem) (e : RxCbData) : Text := (e.src, m.block e.data e.len.toNat)

/-- The queue of an endpoint. -/
def RxCb.queueOf : RxCb → Option Nat
  | .queue k => some k
  | .app => none

/-- A run of the queues with the boxes beside it. `routed` says for each message that was read to which queue it went,
if to one; `took` are the entries with the tasks and their texts, until the application writes into them; `written` is
set once it has written into the message in hand. -/
structure Mail where
  s : State
  boxes : Mailboxes Text
  routed : List (Option Nat)
  took : List (RxCbData × Option Text)
  written : Bool

namespace Mail

variable (c : LinkConfig) (r : Role) (t : Mail)

def start (link : Link) : Mail := ⟨.start link, .empty, [], [], false⟩

/-- The last message that was read. -/
def last : Option Msg := (t.s.link.side r).rx.recv.getLast?

/-- The queue of the endpoint at its destination. -/
def target : Option Nat :=
  (t.last r).bind fun msg => (t.s.epts.find? fun x => x.addr = msg.dst).bind fun x => x.rxCb.queueOf

/-- The texts of the entries in `g` are not known any more. -/
def spoil (g : Option Got) : List (RxCbData × Option Text) :=
  t.took.map fun x => if g.any fun g => x.1.data = msgDataAt g.buffer then (x.1, none) else x

/-- The texts after a move that leads the queues to `s'`. -/
def log (s' : State) : Move → Mail
  | .link q (.rx .read) => { t with s := s', written := t.written && q ≠ r }
  | .link q (.rx (.writeMsg _ _)) => { t with s := s', written := t.written || q = r }
  | .link q (.rx (.writeHeld i _ _)) => { t with s := s', took := t.spoil (if q = r then (t.s.link.side r).rx.held[i]? else none) }
  | .own .rpmsgQueueCreate => { t with s := s', boxes := t.boxes.create }
  | .own (.rxCb _) =>
    { t with
      s := s'
      boxes := (t.target r).elim t.boxes fun k => (t.last r).elim t.boxes fun msg => t.boxes.give k (text msg)
      routed := t.routed ++ [t.target r] }
  | .own (.envGetQueue k) =>
    { t with
      s := s'
      boxes := t.boxes.take k
      took := t.took ++ (t.s.queues[k]?.bind fun q => q.items.head?).toList.map fun e => (e, t.boxes.first k) }
  | .own (.release i) => { t with s := s', took := t.took.eraseIdx i }
  | _ => { t with s := s' }

/-- The applications of core `r` write into the message in hand before its endpoint's callback has returned, and then it
does not go to a queue; they write into held buffers, but not into those in a queue. -/
def allows : Move → Bool
  | .link q (.rx (.writeMsg _ _)) => q ≠ r || t.s.ret.isNone
  | .link q (.rx (.writeHeld i _ _)) =>
    q ≠ r || (t.s.link.side r).rx.held[i]?.all fun g => t.s.queues.all fun q => q.items.all fun e => e.data ≠ msgDataAt g.buffer
  | .own (.rxCb _) => !t.written || (t.target r).isNone
  | mv => settled r t.s mv

def step (mv : Move) : Option Mail := if t.allows r mv then (t.s.step c r mv).map fun s' => t.log r s' mv else none

def run : Mail → List Move → Option Mail
  | t, [] => some t
  | t, mv :: mvs => (t.step c r mv).bind fun t => t.run mvs

end Mail

/-- The states of all runs that `allows` allows. -/
inductive Mail.Reachable (c : LinkConfig) (r : Role) (t₀ : Mail) : Mail → Prop
  | start : Reachable c r t₀ t₀
  | step {t t' : Mail} {mv : Move} (h : Reachable c r t₀ t) (hs : t.step c r mv = some t') : Reachable c r t₀ t'

/-- What was passed to the queues, by what was read and where it went. -/
def deliveries (recv : List Msg) (routed : List (Option Nat)) : List (Nat × Text) :=
  (recv.zip routed).filterMap fun x => x.2.map fun k => (k, text x.1)

theorem deliveries_concat {recv : List Msg} {routed : List (Option Nat)} (h : recv.length = routed.length) (msg : Msg)
    (k : Option Nat) :
    deliveries (recv ++ [msg]) (routed ++ [k]) = deliveries recv routed ++ (k.map fun k => (k, text msg)).toList := by
  unfold deliveries
  rw [List.zip_append h, List.filterMap_append]
  cases k with
  | none => rfl
  | some k => rfl

/-- A message that has not been passed on yet is not among the deliveries. -/
theorem deliveries_pending {recv : List Msg} {routed : List (Option Nat)} (h : recv.length = routed.length) (msg : Msg) :
    deliveries (recv ++ [msg]) routed = deliveries recv routed := by
  have hzip : (recv ++ [msg]).zip (routed ++ []) = recv.zip routed ++ [msg].zip [] := List.zip_append h
  rw [List.append_nil, List.zip_nil_right, List.append_nil] at hzip
  unfold deliveries
  rw [hzip]

/-! ## The invariant -/

/-- The message in `g` is `msg`, apart from what the application has written into it. -/
structure Says (m : ByteMem) (g : Got) (msg : Msg) (written : Bool) : Prop where
  src : (msgAt m g.buffer).src = msg.src
  dst : (msgAt m g.buffer).dst = msg.dst
  len : (msgAt m g.buffer).len = msg.len
  data : written = false → (msgAt m g.buffer).data = msg.data

/-- The boxes and the queues agree. A message that was read and not passed on yet is the last one of the log. -/
structure Told (B : BufferPool) (r : Role) (t : Mail) : Prop where
  tasks : t.took.map Prod.fst = t.s.tasks
  kept : ∀ x ∈ t.took, ∀ y, x.2 = some y → readText t.s.link.m x.1 = y
  boxes : t.boxes.boxes = t.s.queues.map fun q => q.items.map (readText t.s.link.m)
  fifo : t.boxes.Fifo
  given : t.boxes.given = deliveries (t.s.link.side r).rx.recv t.routed
  fits : ∀ e ∈ t.s.live, e.len.toNat + 16 ≤ B.size
  pending : ∀ g, t.s.ret = none → (t.s.link.side r).rx.hand = .seen g → ∃ recv msg,
    (t.s.link.side r).rx.recv = recv ++ [msg] ∧ recv.length = t.routed.length ∧ Says t.s.link.m g msg t.written
  passed : (t.s.ret ≠ none ∨ ∀ g, (t.s.link.side r).rx.hand ≠ .seen g) →
    (t.s.link.side r).rx.recv.length = t.routed.length

section

variable {W : Pools} {c : LinkConfig} {r q : Role} {n : Nat} {P : ∀ r, Custody (W.pool r).ids} {B : BufferPool} {t t' : Mail}
  {s s' : State} {l' : Link} {g : Got} {e : RxCbData} {m m' : ByteMem} {msg : Msg} {written : Bool} {i k : Nat}

theorem Says.congr (h : Says m g msg written) {size : Nat} (ha : Agree m m' g.buffer (g.buffer + size))
    (hfit : msg.len.toNat + 16 ≤ size) : Says m' g msg written := by
  have hmsg : msgAt m' g.buffer = msgAt m g.buffer := msgAt_congr ha (by rw [h.len]; exact hfit)
  exact ⟨by rw [hmsg, h.src], by rw [hmsg, h.dst], by rw [hmsg, h.len], fun hw => by rw [hmsg, h.data hw]⟩

/-- The messages that were read fit their buffers. -/
theorem recv_fits {l : Link} (hl : LinkInv W l P) (hmsg : msg ∈ (l.side r).rx.recv) :
    msg.len.toNat + 16 ≤ (W.pool r.peer).size := by
  have hc := (hl.rx_flow r).contents
  have hmem : msg ∈ (l.side r.peer).tx.sent.map Msg.seen := by
    rw [hc.fifo]
    exact List.mem_append_left _ hmsg
  obtain ⟨sent, hsent, rfl⟩ := List.mem_map.1 hmem
  exact hc.small sent hsent

theorem live_queue {x : EnvQueue} (hx : x ∈ s.queues) (he : e ∈ x.items) : e ∈ s.live :=
  List.mem_append_left _ (List.mem_flatMap.2 ⟨x, hx, he⟩)

theorem Told.mem_tasks (h : Told B r t) {x : RxCbData × Option Text} (hx : x ∈ t.took) : x.1 ∈ t.s.tasks := by
  rw [← h.tasks]
  exact List.mem_map_of_mem hx

/-- An entry reads the same as long as the payload of its buffer does. -/
theorem readText_congr {size : Nat} (heq : e.data = msgDataAt g.buffer) (hfit : e.len.toNat + 16 ≤ size)
    (ha : Agree m m' (msgDataAt g.buffer) (g.buffer + size)) : readText m' e = readText m e := by
  unfold readText
  rw [heq, block_congr (ha.mono le_rfl (by simp only [msgDataAt]; omega))]

/-- A step that does not store into the buffer of an entry leaves the entry's text. -/
theorem Inv.read_same (hi : Inv r n s) (hl : LinkInv W s.link P) (hpay : ∀ r, c.payloadSize + 16 ≤ (W.pool r).size) {a : Act}
    (hs : s.link.step c q a = some l') (he : e ∈ s.live) (hfit : e.len.toNat + 16 ≤ (W.pool r.peer).size)
    (hne : ∀ b, q = r → a = .rx b → ∀ g ∈ s.mine r, e.data = msgDataAt g.buffer →
      b.target (s.link.side r).rx ≠ some g.idx) :
    readText l'.m e = readText s.link.m e := by
  obtain ⟨g, hg, heq⟩ := hi.mine e he
  have ha := hl.buffer_same hpay hs (State.mine_gots hg) fun b hq hb => hne b hq hb g hg heq
  exact readText_congr heq hfit (ha.mono (Nat.le_add_right _ _) le_rfl)

/-- The buffer of an entry is not a held buffer with another payload pointer. -/
theorem target_ne (hl : LinkInv W s.link P) (hi : (s.link.side r).rx.held[i]? = some g) (hdata : e.data ≠ msgDataAt g.buffer)
    {g' : Got} (hg' : g' ∈ s.mine r) (heq : e.data = msgDataAt g'.buffer) : some g.idx ≠ some g'.idx := fun hidx =>
  hdata (heq.trans (hl.idx_of_data (State.mine_gots hg') (List.mem_append_right _ (List.mem_of_getElem? hi))
    (Option.some.inj hidx).symm))

/-- The queues stay, and so do the texts in them. -/
theorem Told.moved (h : Told B r t) {took' : List (RxCbData × Option Text)} {written' : Bool} (hqueues : s'.queues = t.s.queues)
    (hread : ∀ x ∈ t.s.queues, ∀ e ∈ x.items, readText s'.link.m e = readText t.s.link.m e)
    (htasks : took'.map Prod.fst = s'.tasks) (hsub : ∀ e ∈ s'.tasks, e ∈ t.s.tasks)
    (hkept : ∀ x ∈ took', ∀ y, x.2 = some y → readText s'.link.m x.1 = y)
    (hrecv : (s'.link.side r).rx.recv = (t.s.link.side r).rx.recv)
    (hpend : ∀ g, s'.ret = none → (s'.link.side r).rx.hand = .seen g →
      t.s.ret = none ∧ (t.s.link.side r).rx.hand = .seen g ∧
      ∀ msg ∈ (t.s.link.side r).rx.recv, Says t.s.link.m g msg t.written → Says s'.link.m g msg written')
    (hpass : (s'.ret ≠ none ∨ ∀ g, (s'.link.side r).rx.hand ≠ .seen g) →
      t.s.ret ≠ none ∨ ∀ g, (t.s.link.side r).rx.hand ≠ .seen g) :
    Told B r { t with s := s', took := took', written := written' } := by
  refine ⟨htasks, hkept, ?_, h.fifo, by rw [hrecv]; exact h.given, fun e he => ?_, fun g hret hhand => ?_, fun hp => ?_⟩
  · dsimp only
    rw [h.boxes, hqueues]
    exact List.map_congr_left fun x hx => List.map_congr_left fun e he => (hread x hx e he).symm
  · refine h.fits e ?_
    unfold State.live at he ⊢
    rw [hqueues] at he
    exact (List.mem_append.1 he).elim (List.mem_append_left _) fun he => List.mem_append_right _ (hsub e he)
  · obtain ⟨hret', hhand', hsays⟩ := hpend g hret hhand
    obtain ⟨recv, msg, hr, hlen, hmsg⟩ := h.pending g hret' hhand'
    refine ⟨recv, msg, hrecv.trans hr, hlen, hsays msg ?_ hmsg⟩
    rw [hr]
    exact List.mem_append_right _ (List.mem_singleton_self msg)
  · dsimp only
    rw [hrecv]
    exact h.passed (hpass hp)

/-! ## The steps of the link -/

/-- The other core does not move the boxes. -/
theorem Mail.log_peer (hq : q ≠ r) (a : Act) : t.log r s' (.link q a) = { t with s := s' } := by
  have hspoil : t.spoil none = t.took := (List.map_congr_left fun _ _ => rfl).trans (List.map_id _)
  cases a with
  | tx a => rfl
  | rx a => cases a <;> simp [Mail.log, hq, hspoil]
  | txCallback => rfl

/-- Every entry with a task is one of the queues' entries. -/
theorem Told.took_live (h : Told B r t) {x : RxCbData × Option Text} (hx : x ∈ t.took) : x.1 ∈ t.s.live :=
  List.mem_append_right _ (h.mem_tasks hx)

/-- A step of the link that reads nothing and stores into no received buffer that counts. -/
theorem Told.link_still (h : Told (W.pool r.peer) r t) (hi : Inv r n t.s) (hl : LinkInv W t.s.link P)
    (hpay : ∀ r, c.payloadSize + 16 ≤ (W.pool r).size) {a : Act} (hs : t.s.link.step c q a = some l')
    (hrecv : (l'.side r).rx.recv = (t.s.link.side r).rx.recv)
    (hhand : ∀ g, (l'.side r).rx.hand = .seen g ↔ (t.s.link.side r).rx.hand = .seen g)
    (hne : ∀ b, q = r → a = .rx b → (∀ e ∈ t.s.live, ∀ g ∈ t.s.mine r, e.data = msgDataAt g.buffer →
      b.target (t.s.link.side r).rx ≠ some g.idx) ∧
      ∀ g, (t.s.link.side r).rx.hand = .seen g → b.target (t.s.link.side r).rx ≠ some g.idx) :
    Told (W.pool r.peer) r { t with s := { t.s with link := l' } } := by
  have hread : ∀ e ∈ t.s.live, readText l'.m e = readText t.s.link.m e := fun e he =>
    hi.read_same hl hpay hs he (h.fits e he) fun b hq hb => (hne b hq hb).1 e he
  refine h.moved rfl (fun x hx e he => hread e (live_queue hx he)) h.tasks (fun _ he => he) (fun x hx y hy => ?_) hrecv
    (fun g hret hg => ?_) fun hp => ?_
  · rw [hread x.1 (h.took_live hx)]
    exact h.kept x hx y hy
  · have hg' := (hhand g).1 hg
    have hgot : g ∈ (t.s.link.side r).rx.gots := by
      unfold RxHalf.gots
      rw [hg']
      exact List.mem_cons_self
    exact ⟨hret, hg', fun msg hmsg hsays =>
      hsays.congr (hl.buffer_same hpay hs hgot fun b hq hb => (hne b hq hb).2 g hg') (recv_fits hl hmsg)⟩
  · exact hp.imp id fun hn g hg => hn g ((hhand g).2 hg)

/-- The receive callback reads its message. -/
theorem Told.read (h : Told (W.pool r.peer) r t) (hi : Inv r n t.s) (hs : t.s.link.step c r (.rx .read) = some l') :
    Told (W.pool r.peer) r { t with s := { t.s with link := l' }, written := false } := by
  obtain ⟨x, m', ha, rfl⟩ := Link.step_cases hs
  replace ha : (t.s.link.side r).rxStep c t.s.link.m .read = some (x, m') := ha
  cases Side.rxStep_cases ha with
  | read htaken =>
    rename_i g
    have hlen : (t.s.link.side r).rx.recv.length = t.routed.length := h.passed (Or.inr fun g hg => by
      rw [htaken] at hg
      cases hg)
    refine ⟨h.tasks, h.kept, h.boxes, h.fifo, ?_, h.fits, fun g' _ hhand => ?_, fun hp => ?_⟩
    · dsimp only
      rw [Function.update_self, deliveries_pending hlen]
      exact h.given
    · simp only [Function.update_self] at hhand
      obtain rfl := RxHand.seen.inj hhand
      refine ⟨(t.s.link.side r).rx.recv, msgAt t.s.link.m g.buffer, by simp only [Function.update_self], hlen, ?_⟩
      exact ⟨rfl, rfl, rfl, fun _ => rfl⟩
    · rcases hp with hret | hn
      · obtain ⟨g', hg'⟩ := hi.hand hret
        rw [htaken] at hg'
        cases hg'
      · exact absurd (by simp only [Function.update_self]) (hn g)

/-- The application writes into the message in hand before its endpoint's callback has returned. -/
theorem Told.writeMsg (h : Told (W.pool r.peer) r t) (hi : Inv r n t.s) (hl : LinkInv W t.s.link P)
    (hpay : ∀ r, c.payloadSize + 16 ≤ (W.pool r).size) {off : Nat} {bytes : List UInt8} (hret : t.s.ret = none)
    (hs : t.s.link.step c r (.rx (.writeMsg off bytes)) = some l') :
    Told (W.pool r.peer) r { t with s := { t.s with link := l' }, written := true } := by
  have hread : ∀ e ∈ t.s.live, readText l'.m e = readText t.s.link.m e := fun e he =>
    hi.read_same hl hpay hs he (h.fits e he) fun b _ hb g hg _ => by
      cases hb
      unfold State.mine at hg
      rw [hret, if_neg (by simp)] at hg
      intro htarget
      obtain ⟨g', hg', hidx⟩ := Option.map_eq_some_iff.1 htarget
      exact (hl.rx_flow r).held_ne_hand (List.mem_of_mem_head? hg') hg hidx
  obtain ⟨x, m', ha, rfl⟩ := Link.step_cases hs
  replace ha : (t.s.link.side r).rxStep c t.s.link.m (.writeMsg off bytes) = some (x, m') := ha
  cases Side.rxStep_cases ha with
  | writeMsg hhand hw =>
    rename_i g
    obtain ⟨hsrc, hdst, hlen⟩ := writePayload_header hw
    refine h.moved rfl (fun x hx e he => hread e (live_queue hx he)) h.tasks (fun _ he => he) (fun x hx y hy => ?_) ?_
      (fun g' _ hg' => ?_) fun hp => ?_
    · rw [hread x.1 (h.took_live hx)]
      exact h.kept x hx y hy
    · simp only [Function.update_self]
    · simp only [Function.update_self, hhand] at hg'
      obtain rfl := RxHand.seen.inj hg'
      refine ⟨hret, hhand, fun msg _ hsays => ⟨hsrc.trans hsays.src, hdst.trans hsays.dst, hlen.trans hsays.len, ?_⟩⟩
      intro hw
      cases hw
    · simpa only [Function.update_self] using hp

/-- The application writes into a held buffer that is in no queue. -/
theorem Told.writeHeld (h : Told (W.pool r.peer) r t) (hi : Inv r n t.s) (hl : LinkInv W t.s.link P)
    (hpay : ∀ r, c.payloadSize + 16 ≤ (W.pool r).size) {off : Nat} {bytes : List UInt8}
    (hq : ∀ g, (t.s.link.side r).rx.held[i]? = some g → ∀ x ∈ t.s.queues, ∀ e ∈ x.items, e.data ≠ msgDataAt g.buffer)
    (hs : t.s.link.step c r (.rx (.writeHeld i off bytes)) = some l') :
    Told (W.pool r.peer) r { t with s := { t.s with link := l' }, took := t.spoil (t.s.link.side r).rx.held[i]? } := by
  obtain ⟨x, m', ha, rfl⟩ := Link.step_cases hs
  replace ha : (t.s.link.side r).rxStep c t.s.link.m (.writeHeld i off bytes) = some (x, m') := ha
  cases Side.rxStep_cases ha with
  | @writeHeld _ _ _ g _ hheld =>
    have hread : ∀ e ∈ t.s.live, e.data ≠ msgDataAt g.buffer → readText m' e = readText t.s.link.m e := fun e he hdata =>
      hi.read_same hl hpay hs he (h.fits e he) fun b _ hb g' hg' heq => by
        cases hb
        simp only [RxAct.target, hheld, Option.map_some]
        exact target_ne hl hheld hdata hg' heq
    have hfst : ∀ x : RxCbData × Option Text,
        (if (some g).any fun g => decide (x.1.data = msgDataAt g.buffer) then (x.1, none) else x).1 = x.1 := fun x => by
      split <;> rfl
    rw [hheld]
    refine h.moved rfl (fun x hx e he => hread e (live_queue hx he) (hq g hheld x hx e he)) ?_ (fun _ he => he)
      (fun x hx y hy => ?_) ?_ (fun g' hret hg' => ?_) fun hp => ?_
    · rw [← h.tasks]
      unfold Mail.spoil
      rw [List.map_map]
      exact List.map_congr_left fun x _ => hfst x
    · obtain ⟨x₀, hx₀, rfl⟩ := List.mem_map.1 hx
      split at hy
      · cases hy
      · rename_i hne
        rw [if_neg hne]
        simp only [Option.any_some, decide_eq_true_iff] at hne
        rw [hread x₀.1 (h.took_live hx₀) hne]
        exact h.kept x₀ hx₀ y hy
    · simp only [Function.update_self]
    · simp only [Function.update_self] at hg'
      have hgot : g' ∈ (t.s.link.side r).rx.hand.got := by
        rw [hg']
        exact List.mem_cons_self
      refine ⟨hret, hg', fun msg hmsg hsays => hsays.congr
        (hl.buffer_same hpay hs (List.mem_append_left _ hgot) fun b _ hb => ?_) (recv_fits hl hmsg)⟩
      cases hb
      simp only [RxAct.target, hheld, Option.map_some]
      exact fun hidx => (hl.rx_flow r).held_ne_hand hgot (List.mem_of_getElem? hheld) (Option.some.inj hidx).symm
    · simpa only [Function.update_self] using hp

/-- A release by the application of a buffer that is neither in a queue nor with a task. -/
theorem Told.releaseOther (h : Told (W.pool r.peer) r t) (hi : Inv r n t.s) (hl : LinkInv W t.s.link P)
    (hpay : ∀ r, c.payloadSize + 16 ≤ (W.pool r).size)
    (hq : ∀ g, (t.s.link.side r).rx.held[i]? = some g → ∀ e ∈ t.s.live, e.data ≠ msgDataAt g.buffer)
    (hs : t.s.link.step c r (.rx (.releaseRxBuffer i)) = some l') :
    Told (W.pool r.peer) r { t with s := { t.s with link := l' } } := by
  obtain ⟨hrecv, hhand⟩ : (l'.side r).rx.recv = (t.s.link.side r).rx.recv ∧
      (l'.side r).rx.hand = (t.s.link.side r).rx.hand := by
    obtain ⟨x, m', ha, rfl⟩ := Link.step_cases hs
    replace ha : (t.s.link.side r).rxStep c t.s.link.m (.releaseRxBuffer i) = some (x, m') := ha
    cases Side.rxStep_cases ha with
    | releaseStuck => exact ⟨by simp only [Function.update_self], by simp only [Function.update_self]⟩
    | release => exact ⟨by simp only [Function.update_self], by simp only [Function.update_self]⟩
  refine h.link_still hi hl hpay hs hrecv (fun g => by rw [hhand]) fun b _ hb => ?_
  cases hb
  refine ⟨fun e he g hg heq htarget => ?_, fun g hg htarget => ?_⟩
  · obtain ⟨g', hi', hidx⟩ := Option.map_eq_some_iff.1 htarget
    exact target_ne hl hi' (hq g' hi' e he) hg heq (congrArg some hidx)
  · obtain ⟨g', hi', hidx⟩ := Option.map_eq_some_iff.1 htarget
    refine (hl.rx_flow r).held_ne_hand (g := g) ?_ (List.mem_of_getElem? hi') hidx.symm
    rw [hg]
    exact List.mem_cons_self

/-- Taking a message from the ring. -/
theorem Told.rx (h : Told (W.pool r.peer) r t) (hi : Inv r n t.s) (hl : LinkInv W t.s.link P)
    (hpay : ∀ r, c.payloadSize + 16 ≤ (W.pool r).size) (hs : t.s.link.step c r (.rx .rx) = some l') :
    Told (W.pool r.peer) r { t with s := { t.s with link := l' } } := by
  obtain ⟨hrecv, hhand⟩ : (l'.side r).rx.recv = (t.s.link.side r).rx.recv ∧
      ∀ g, (l'.side r).rx.hand = .seen g ↔ (t.s.link.side r).rx.hand = .seen g := by
    obtain ⟨x, m', ha, rfl⟩ := Link.step_cases hs
    replace ha : (t.s.link.side r).rxStep c t.s.link.m .rx = some (x, m') := ha
    cases Side.rxStep_cases ha with
    | rxNone => exact ⟨by simp only [Function.update_self], fun g => by simp only [Function.update_self]⟩
    | rx hidle =>
      refine ⟨by simp only [Function.update_self], fun g => ?_⟩
      simp only [Function.update_self, hidle]
      exact ⟨nofun, nofun⟩
  refine h.link_still hi hl hpay hs hrecv hhand fun b _ hb => ?_
  cases hb
  exact ⟨fun _ _ _ _ _ => nofun, fun _ _ => nofun⟩

theorem Told.link (h : Told (W.pool r.peer) r t) (hi : Inv r n t.s) (hl : LinkInv W t.s.link P)
    (hpay : ∀ r, c.payloadSize + 16 ≤ (W.pool r).size) {a : Act} (hall : t.allows r (.link q a) = true)
    (hother : t.s.isOther r q a = true) (hs : t.s.link.step c q a = some l') :
    Told (W.pool r.peer) r (t.log r { t.s with link := l' } (.link q a)) := by
  by_cases hq : q = r
  · subst hq
    have hsame : ∀ {x : Side} {m' : ByteMem}, l' = { m := m', side := Function.update t.s.link.side q x } →
        x.rx = (t.s.link.side q).rx → (l'.side q).rx = (t.s.link.side q).rx := by
      rintro x m' rfl hx
      simp only [Function.update_self, hx]
    cases a with
    | tx a =>
      obtain ⟨x, m', ha, hl'⟩ := Link.step_cases hs
      have hrx := hsame hl' (Side.txStep_rx ha)
      exact h.link_still hi hl hpay hs (by rw [hrx]) (fun g => by rw [hrx]) fun b _ hb => by cases hb
    | txCallback =>
      obtain ⟨x, m', ha, hl'⟩ := Link.step_cases hs
      have hrx : (l'.side q).rx = (t.s.link.side q).rx := by
        cases ha
        exact hsame hl' rfl
      exact h.link_still hi hl hpay hs (by rw [hrx]) (fun g => by rw [hrx]) fun b _ hb => by cases hb
    | rx b =>
      cases b with
      | rx => exact h.rx hi hl hpay hs
      | read =>
        have hread := h.read hi hs
        simpa only [Mail.log, ne_eq, not_true_eq_false, decide_false, Bool.and_false] using hread
      | done hold => simp [State.isOther] at hother
      | writeMsg off bytes =>
        have hret : t.s.ret = none := by simpa [Mail.allows] using hall
        have hwrite := h.writeMsg hi hl hpay hret hs
        simpa only [Mail.log, decide_true, Bool.or_true] using hwrite
      | writeHeld i off bytes =>
        have hq : ∀ g, (t.s.link.side q).rx.held[i]? = some g → ∀ x ∈ t.s.queues, ∀ e ∈ x.items,
            e.data ≠ msgDataAt g.buffer := fun g hg => by
          simpa [Mail.allows, hg] using hall
        have hwrite := h.writeHeld hi hl hpay hq hs
        simpa only [Mail.log, if_true] using hwrite
      | releaseRxBuffer i =>
        have hq : ∀ g, (t.s.link.side q).rx.held[i]? = some g → ∀ e ∈ t.s.live, e.data ≠ msgDataAt g.buffer :=
          fun g hg => by
          simpa [State.isOther, hg] using hother
        exact h.releaseOther hi hl hpay hq hs
  · rw [Mail.log_peer hq]
    obtain ⟨x, m', ha, hl'⟩ := Link.step_cases hs
    have hside : l'.side r = t.s.link.side r := by
      rw [hl']
      exact Function.update_of_ne (Ne.symm hq) _ _
    exact h.link_still hi hl hpay hs (by rw [hside]) (fun g => by rw [hside]) fun b hqr => absurd hqr hq

/-! ## The steps of the queues -/

/-- Changing one queue changes one box. -/
theorem boxes_set {f : EnvQueue → List Text} {h : List Text → List Text} {queues : List EnvQueue} {x x' : EnvQueue}
    (hk : queues[k]? = some x) (hx : f x' = h (f x)) : (queues.map f).modify k h = (queues.set k x').map f := by
  refine List.ext_getElem? fun j => ?_
  rw [List.getElem?_modify, List.getElem?_map, List.getElem?_map, List.getElem?_set]
  by_cases hj : k = j
  · subst hj
    have hlt : k < queues.length := (List.getElem?_eq_some_iff.1 hk).1
    rw [if_pos rfl, if_pos hlt, hk]
    simp only [if_true, Option.map_eq_map, Option.map_some, hx]
  · rw [if_neg hj]
    simp only [if_neg hj, Option.map_eq_map, Option.map_id_fun', id_eq]

theorem Told.rpmsgQueueCreate (h : Told B r t) (dev : RpmsgLiteInstance) :
    Told B r { t with s := { t.s with queues := t.s.queues ++ [RxQueues.rpmsgQueueCreate dev] }, boxes := t.boxes.create } := by
  refine ⟨h.tasks, h.kept, ?_, h.fifo.create, h.given, fun e he => h.fits e ?_, h.pending, h.passed⟩
  · dsimp only [Mailboxes.create]
    rw [h.boxes, List.map_append]
    rfl
  · unfold State.live at he ⊢
    rw [List.flatMap_append, List.flatMap_singleton] at he
    simpa [RxQueues.rpmsgQueueCreate, envCreateQueue] using he

/-- A message leaves its queue for a task. -/
theorem Told.envGetQueue (h : Told B r t) {x x' : EnvQueue} (hk : t.s.queues[k]? = some x)
    (hget : x.envGetQueue = some (e, x')) :
    Told B r { t with
      s := { t.s with queues := t.s.queues.set k x', tasks := t.s.tasks ++ [e] }
      boxes := t.boxes.take k
      took := t.took ++ [(e, t.boxes.first k)] } := by
  obtain ⟨hitems, -⟩ := EnvQueue.envGetQueue_items hget
  have hfirst : t.boxes.first k = some (readText t.s.link.m e) := by
    unfold Mailboxes.first
    rw [h.boxes, List.getElem?_map, hk, Option.map_some, Option.bind_some, hitems]
    rfl
  have hperm := live_get (k := k) hk hitems
  refine ⟨by simp only [List.map_append, h.tasks, List.map_singleton], fun y hy z hz => ?_, ?_, h.fifo.take, ?_,
    fun e' he => h.fits e' (hperm.mem_iff.1 he), h.pending, h.passed⟩
  · rcases List.mem_append.1 hy with hy | hy
    · exact h.kept y hy z hz
    · obtain rfl := List.mem_singleton.1 hy
      rw [hfirst] at hz
      exact Option.some.inj hz
  · unfold Mailboxes.take
    rw [hfirst]
    dsimp only
    rw [h.boxes]
    exact boxes_set hk (by rw [hitems]; rfl)
  · unfold Mailboxes.take
    rw [hfirst]
    exact h.given

/-- On an empty queue nothing happens. -/
theorem Told.envGetNone (h : Told B r t) {x : EnvQueue} (hk : t.s.queues[k]? = some x) (hget : x.envGetQueue = none) :
    x.items.head? = none ∧ t.boxes.take k = t.boxes := by
  have hhead : x.items.head? = none := Option.map_eq_none_iff.1 hget
  have hfirst : t.boxes.first k = none := by
    unfold Mailboxes.first
    rw [h.boxes, List.getElem?_map, hk, Option.map_some, Option.bind_some, List.head?_map, hhead]
    rfl
  refine ⟨hhead, ?_⟩
  unfold Mailboxes.take
  rw [hfirst]

/-- The endpoint's callback returns, without a queue. -/
theorem Told.returns (h : Told B r t) (hret : t.s.ret = none) (hhand : (t.s.link.side r).rx.hand = .seen g) (hold : Bool) :
    Told B r { t with s := { t.s with ret := some hold }, routed := t.routed ++ [none] } := by
  obtain ⟨recv, msg, hr, hlen, -⟩ := h.pending g hret hhand
  refine ⟨h.tasks, h.kept, h.boxes, h.fifo, ?_, h.fits, fun _ hnone => ?_, fun _ => ?_⟩
  · have hgiven := h.given
    dsimp only
    rw [hr] at hgiven ⊢
    rw [hgiven, deliveries_pending hlen, deliveries_concat hlen]
    exact (List.append_nil _).symm
  · cases hnone
  · dsimp only
    rw [hr, List.length_append, List.length_append, hlen]
    rfl

/-- `rpmsg_queue_rx_cb` puts the message into its queue. -/
theorem Told.queueRxCb (h : Told (W.pool r.peer) r t) (hi : Inv r (W.pool r.peer).vr.num t.s) (hl : LinkInv W t.s.link P)
    (hret : t.s.ret = none) (hhand : (t.s.link.side r).rx.hand = .seen g) (hlast : t.last r = some msg)
    (hw : t.written = false) {x : EnvQueue} (hk : t.s.queues[k]? = some x) :
    Told (W.pool r.peer) r { t with
      s := t.s.queueRxCb k x (msgOf t.s.link.m g)
      boxes := t.boxes.give k (text msg)
      routed := t.routed ++ [some k] } := by
  obtain ⟨recv, msg', hr, hlen, hsays⟩ := h.pending g hret hhand
  obtain rfl : msg' = msg := by
    unfold Mail.last at hlast
    rw [hr, List.getLast?_concat] at hlast
    exact Option.some.inj hlast
  have hroom := hi.room hl hhand (List.mem_of_getElem? hk)
  have hput : ∃ x', x.envPutQueue (msgOf t.s.link.m g) = some x' ∧ x'.items = x.items ++ [msgOf t.s.link.m g] := by
    unfold EnvQueue.envPutQueue
    rw [dif_pos hroom]
    exact ⟨_, rfl, rfl⟩
  obtain ⟨x', hput, hitems⟩ := hput
  have htext : readText t.s.link.m (msgOf t.s.link.m g) = text msg' := Prod.ext hsays.src (by
    have hdata := hsays.data hw
    simpa only [readText, msgOf, text, msgAt, UInt16.toNat_toUInt32] using hdata)
  have hmem : msg' ∈ (t.s.link.side r).rx.recv := by
    rw [hr]
    exact List.mem_append_right _ (List.mem_singleton_self _)
  have hlt : k < t.boxes.boxes.length := by
    rw [h.boxes, List.length_map]
    exact (List.getElem?_eq_some_iff.1 hk).1
  unfold State.queueRxCb rpmsgQueueRxCb
  rw [hput]
  refine ⟨h.tasks, h.kept, ?_, h.fifo.give hlt, ?_, fun e he => ?_, fun _ hnone => ?_, fun _ => ?_⟩
  · dsimp only [Mailboxes.give]
    rw [h.boxes]
    exact boxes_set hk (by rw [hitems, List.map_append, List.map_singleton, htext])
  · have hgiven := h.given
    dsimp only [Mailboxes.give]
    rw [hr] at hgiven ⊢
    rw [hgiven, deliveries_pending hlen, deliveries_concat hlen]
    rfl
  · rcases List.mem_cons.1 ((live_put hk hitems).mem_iff.1 he) with rfl | he
    · have hfit := recv_fits hl hmem
      have hlen := congrArg UInt16.toNat hsays.len
      simp only [msgAt] at hlen
      simp only [msgOf, UInt16.toNat_toUInt32]
      omega
    · exact h.fits e he
  · cases hnone
  · dsimp only
    rw [hr, List.length_append, List.length_append, hlen]
    rfl

/-- The receive callback is done with its message. -/
theorem Told.rxDone (h : Told (W.pool r.peer) r t) (hi : Inv r n t.s) (hl : LinkInv W t.s.link P)
    (hpay : ∀ r, c.payloadSize + 16 ≤ (W.pool r).size) {hold : Bool} (hret : t.s.ret = some hold)
    (hs : t.s.link.step c r (.rx (.done hold)) = some l') (hrun : (l'.side r).halted = false) :
    Told (W.pool r.peer) r { t with s := { t.s with link := l', ret := none } } := by
  have hread : ∀ e ∈ t.s.live, readText l'.m e = readText t.s.link.m e := by
    intro e he
    obtain ⟨g, hg, heq⟩ := hi.mine e he
    rcases List.mem_append.1 hg with hg | hg
    · split at hg
      · rename_i hhold
        obtain rfl : hold = true := Option.some.inj (hret.symm.trans hhold)
        obtain ⟨g', hhand⟩ := hi.hand (by rw [hret]; exact Option.some_ne_none _)
        rw [hhand] at hg
        obtain rfl := List.mem_singleton.1 hg
        exact readText_congr heq (h.fits e he) (Link.hold_payload hs hhand _)
      · cases hg
    · have hgot : g ∈ (t.s.link.side r).rx.gots := List.mem_append_right _ hg
      have ha := hl.buffer_same hpay hs hgot fun b _ hb htarget => by
        cases hb
        obtain ⟨g', hg', hidx⟩ := Option.map_eq_some_iff.1 htarget
        exact (hl.rx_flow r).held_ne_hand (List.mem_of_mem_head? hg') hg hidx
      exact readText_congr heq (h.fits e he) (ha.mono (Nat.le_add_right _ _) le_rfl)
  obtain ⟨hrecv, hhand⟩ : (l'.side r).rx.recv = (t.s.link.side r).rx.recv ∧ (l'.side r).rx.hand = .idle := by
    obtain ⟨x, m', ha, rfl⟩ := Link.step_cases hs
    replace ha : (t.s.link.side r).rxStep c t.s.link.m (.done hold) = some (x, m') := ha
    simp only [Function.update_self] at hrun ⊢
    cases Side.rxStep_cases ha with
    | doneStuck => cases hrun
    | done => exact ⟨rfl, rfl⟩
  refine h.moved rfl (fun x hx e he => hread e (live_queue hx he)) h.tasks (fun _ he => he) (fun x hx y hy => ?_) hrecv
    (fun g _ hg => ?_) fun _ => Or.inl (by rw [hret]; exact Option.some_ne_none _)
  · rw [hread x.1 (h.took_live hx)]
    exact h.kept x hx y hy
  · rw [hhand] at hg
    cases hg

/-- A task gives its message back. -/
theorem Told.release (h : Told (W.pool r.peer) r t) (hi : Inv r n t.s) (hl : LinkInv W t.s.link P)
    (hpay : ∀ r, c.payloadSize + 16 ≤ (W.pool r).size) {j : Nat} (hi' : t.s.tasks[i]? = some e)
    (hj : (t.s.link.side r).rx.held[j]? = some g) (heq : e.data = msgDataAt g.buffer)
    (hs : t.s.link.step c r (.rx (.releaseRxBuffer j)) = some l') (hrun : (l'.side r).halted = false) (freed : List RxCbData) :
    Told (W.pool r.peer) r { t with
      s := { t.s with link := l', tasks := t.s.tasks.eraseIdx i, freed := freed }
      took := t.took.eraseIdx i } := by
  have hperm := live_erase hi'
  have hnodup := ((hperm.map RxCbData.data).nodup_iff).1 hi.nodup
  obtain ⟨hnew, -⟩ := List.nodup_cons.1 hnodup
  have htarget : ∀ b, r = r → Act.rx (.releaseRxBuffer j) = .rx b → b.target (t.s.link.side r).rx = some g.idx := by
    rintro b - hb
    cases hb
    simp only [RxAct.target, hj, Option.map_some]
  have hread : ∀ e' ∈ t.s.queues.flatMap EnvQueue.items ++ t.s.tasks.eraseIdx i,
      readText l'.m e' = readText t.s.link.m e' := fun e' he => by
    have hlive : e' ∈ t.s.live := hperm.mem_iff.2 (List.mem_cons_of_mem e he)
    have hdata : e'.data ≠ msgDataAt g.buffer := fun hdata => hnew (by
      rw [heq, ← hdata]
      exact List.mem_map_of_mem he)
    exact hi.read_same hl hpay hs hlive (h.fits e' hlive) fun b hq hb g' hg' heq' => by
      rw [htarget b hq hb]
      exact target_ne hl hj hdata hg' heq'
  obtain ⟨hrecv, hhand⟩ : (l'.side r).rx.recv = (t.s.link.side r).rx.recv ∧
      (l'.side r).rx.hand = (t.s.link.side r).rx.hand := by
    obtain ⟨x, m', ha, rfl⟩ := Link.step_cases hs
    replace ha : (t.s.link.side r).rxStep c t.s.link.m (.releaseRxBuffer j) = some (x, m') := ha
    simp only [Function.update_self] at hrun ⊢
    cases Side.rxStep_cases ha with
    | releaseStuck => cases hrun
    | release => exact ⟨rfl, rfl⟩
  have htasks : (t.took.eraseIdx i).map Prod.fst = t.s.tasks.eraseIdx i := by
    rw [← h.tasks, List.eraseIdx_map]
  refine h.moved rfl (fun x hx e he => hread e (List.mem_append_left _ (List.mem_flatMap.2 ⟨x, hx, he⟩))) htasks
    (fun e he => List.mem_of_mem_eraseIdx he) (fun x hx y hy => ?_) hrecv (fun g' hret hg' => ?_) fun hp => ?_
  · rw [hread x.1 (List.mem_append_right _ (by rw [← htasks]; exact List.mem_map_of_mem hx))]
    exact h.kept x (List.mem_of_mem_eraseIdx hx) y hy
  · rw [hhand] at hg'
    have hgot : g' ∈ (t.s.link.side r).rx.hand.got := by
      rw [hg']
      exact List.mem_cons_self
    refine ⟨hret, hg', fun msg hmsg hsays => hsays.congr
      (hl.buffer_same hpay hs (List.mem_append_left _ hgot) fun b hq hb => ?_) (recv_fits hl hmsg)⟩
    rw [htarget b hq hb]
    exact fun hidx => (hl.rx_flow r).held_ne_hand hgot (List.mem_of_getElem? hj) (Option.some.inj hidx).symm
  · rwa [hhand] at hp

/-- The endpoint at the destination that the memory holds is the one at the destination that was read. -/
theorem Told.target_eq (h : Told B r t) (hret : t.s.ret = none) (hhand : (t.s.link.side r).rx.hand = .seen g) :
    t.target r = (t.s.epts.find? fun x => x.addr = t.s.link.m.ld32 (hdrDstAt g.buffer)).bind fun x => x.rxCb.queueOf := by
  obtain ⟨recv, msg, hr, -, hsays⟩ := h.pending g hret hhand
  have hdst : t.s.link.m.ld32 (hdrDstAt g.buffer) = msg.dst := hsays.dst
  unfold Mail.target Mail.last
  rw [hr, List.getLast?_concat, Option.bind_some, hdst]

theorem Told.rxCb (h : Told (W.pool r.peer) r t) (hi : Inv r (W.pool r.peer).vr.num t.s) (hl : LinkInv W t.s.link P)
    {hold : Bool} (hall : t.allows r (.own (.rxCb hold)) = true) (hs : t.s.own c r (.rxCb hold) = some s') :
    Told (W.pool r.peer) r (t.log r s' (.own (.rxCb hold))) := by
  simp only [State.own] at hs
  split at hs
  · rename_i g hret hhand
    have htarget := h.target_eq hret hhand
    split at hs
    · rename_i hfind
      cases hs
      rw [hfind, Option.bind_none] at htarget
      simpa only [Mail.log, htarget, Option.elim_none] using h.returns hret hhand false
    · rename_i hfind
      cases hs
      rw [hfind] at htarget
      replace htarget : t.target r = none := htarget
      simpa only [Mail.log, htarget, Option.elim_none] using h.returns hret hhand hold
    · rename_i k hfind
      rw [hfind] at htarget
      replace htarget : t.target r = some k := htarget
      obtain ⟨x, hk, rfl⟩ := Option.map_eq_some_iff.1 hs
      have hw : t.written = false := by simpa [Mail.allows, htarget] using hall
      obtain ⟨msg, hlast, -⟩ := Option.bind_eq_some_iff.1 htarget
      simpa only [Mail.log, htarget, hlast, Option.elim_some] using h.queueRxCb hi hl hret hhand hlast hw hk
  · cases hs

theorem Told.own (h : Told (W.pool r.peer) r t) (hi : Inv r (W.pool r.peer).vr.num t.s) (hl : LinkInv W t.s.link P)
    (hpay : ∀ r, c.payloadSize + 16 ≤ (W.pool r).size) {a : OwnAct} (hall : t.allows r (.own a) = true)
    (hs : t.s.own c r a = some s') : Told (W.pool r.peer) r (t.log r s' (.own a)) := by
  cases a with
  | rpmsgQueueCreate =>
    cases hs
    exact h.rpmsgQueueCreate _
  | endpoints epts =>
    simp only [State.own] at hs
    split at hs
    · cases hs
      exact ⟨h.tasks, h.kept, h.boxes, h.fifo, h.given, h.fits, h.pending, h.passed⟩
    · cases hs
  | rxCb hold => exact h.rxCb hi hl hall hs
  | rxDone =>
    obtain ⟨hold, hret, hs⟩ := Option.bind_eq_some_iff.1 hs
    obtain ⟨l', hstep, rfl⟩ := Option.map_eq_some_iff.1 hs
    obtain ⟨P', hl', -⟩ := hl.step hpay hstep
    exact h.rxDone hi hl hpay hret hstep (hl'.running r)
  | envGetQueue k =>
    obtain ⟨x, hk, hs⟩ := Option.map_eq_some_iff.1 hs
    split at hs
    · rename_i hget
      subst hs
      obtain ⟨hhead, htake⟩ := h.envGetNone hk hget
      simp only [Mail.log, hk, Option.bind_some, hhead, Option.toList_none, List.map_nil, List.append_nil, htake]
      exact h
    · rename_i e x' hget
      subst hs
      have hhead : x.items.head? = some e := by
        rw [(EnvQueue.envGetQueue_items hget).1]
        rfl
      simpa only [Mail.log, hk, Option.bind_some, hhead, Option.toList_some, List.map_singleton] using h.envGetQueue hk hget
  | release i =>
    obtain ⟨e, hi', rfl⟩ := Option.map_eq_some_iff.1 hs
    obtain ⟨j, g, hj, heq, hstep⟩ := hi.release_step (c := c) hl hi' hall
    obtain ⟨P', hl', -⟩ := hl.step hpay hstep
    exact h.release hi hl hpay hi' hj heq hstep (hl'.running r) _

/-! ## Every run -/

/-- What `allows` allows, no release is too early. -/
theorem Mail.settled_of_allows {mv : Move} (h : t.allows r mv = true) : settled r t.s mv = true := by
  cases mv with
  | link q a => rfl
  | own a =>
    cases a with
    | release i => exact h
    | _ => rfl

theorem Mail.step_cases {mv : Move} (h : t.step c r mv = some t') :
    ∃ s', t.allows r mv = true ∧ t.s.step c r mv = some s' ∧ t' = t.log r s' mv := by
  unfold Mail.step at h
  split at h
  · rename_i hall
    obtain ⟨s', hs, rfl⟩ := Option.map_eq_some_iff.1 h
    exact ⟨s', hall, hs, rfl⟩
  · cases h

theorem Mail.log_s (mv : Move) : (t.log r s' mv).s = s' := by
  cases mv with
  | link q a =>
    cases a with
    | rx a => cases a <;> rfl
    | _ => rfl
  | own a => cases a <;> rfl

theorem Told.step (h : Told (W.pool r.peer) r t) (hi : Inv r (W.pool r.peer).vr.num t.s) (hl : LinkInv W t.s.link P)
    (hpay : ∀ r, c.payloadSize + 16 ≤ (W.pool r).size) {mv : Move} (hall : t.allows r mv = true)
    (hs : t.s.step c r mv = some s') : Told (W.pool r.peer) r (t.log r s' mv) := by
  cases mv with
  | link q a =>
    simp only [State.step] at hs
    split at hs
    · rename_i hother
      obtain ⟨l', hstep, rfl⟩ := Option.map_eq_some_iff.1 hs
      exact h.link hi hl hpay hall hother hstep
    · cases hs
  | own a =>
    simp only [State.step] at hs
    split at hs
    · cases hs
    · exact h.own hi hl hpay hall hs

theorem told_start {l : Link} (hrx : (l.side r).rx = ⟨.idle, [], []⟩) : Told B r (.start l) := by
  refine ⟨rfl, fun _ => nofun, rfl, Mailboxes.fifo_empty, ?_, fun _ => nofun, fun g _ hhand => ?_, fun _ => ?_⟩
  · simp only [Mail.start, State.start, hrx]
    rfl
  · simp only [Mail.start, State.start, hrx] at hhand
    cases hhand
  · simp only [Mail.start, State.start, hrx]
    rfl

theorem Mail.Reachable.told {l : Link} (hl : LinkInv W l P) (hrx : (l.side r).rx = ⟨.idle, [], []⟩)
    (hpay : ∀ r, c.payloadSize + 16 ≤ (W.pool r).size) (h : Mail.Reachable c r (.start l) t) :
    (∃ P' : ∀ r, Custody (W.pool r).ids, LinkInv W t.s.link P') ∧ Inv r (W.pool r.peer).vr.num t.s ∧
      Told (W.pool r.peer) r t := by
  induction h with
  | start => exact ⟨⟨P, hl⟩, inv_start, told_start hrx⟩
  | step _ hs ih =>
    obtain ⟨⟨P', hl'⟩, hinv, htold⟩ := ih
    obtain ⟨s', hall, hstep, rfl⟩ := Mail.step_cases hs
    obtain ⟨hlink, hinv'⟩ := hinv.step hl' hpay (Mail.settled_of_allows hall) hstep
    refine ⟨?_, ?_, htold.step hinv hl' hpay hall hstep⟩
    · rwa [Mail.log_s]
    · rwa [Mail.log_s]

/-- What core `r` has read is what its peer has sent, as far as it got. What was put into the queues is what was read,
each message into the queue of its endpoint; for each queue the texts taken from it and those that are still in it are
the texts put into it, in order; and the entries with the tasks read as they did in the queue. -/
structure Mail.Delivers (r : Role) (t : Mail) : Prop where
  sent : (t.s.link.side r).rx.recv <+: (t.s.link.side r.peer).tx.sent.map Msg.seen
  given : t.boxes.given = deliveries (t.s.link.side r).rx.recv t.routed
  order : ∀ k x, t.s.queues[k]? = some x →
    Mailboxes.only k t.boxes.taken ++ x.items.map (readText t.s.link.m) = Mailboxes.only k t.boxes.given
  tasks : t.took.map Prod.fst = t.s.tasks
  kept : ∀ x ∈ t.took, ∀ y, x.2 = some y → readText t.s.link.m x.1 = y

theorem Told.delivers (h : Told B r t) (hl : LinkInv W t.s.link P) : t.Delivers r := by
  refine ⟨?_, h.given, fun k x hk => ?_, h.tasks, h.kept⟩
  · rw [(hl.rx_flow r).contents.fifo]
    exact List.prefix_append _ _
  · refine h.fifo.order k _ ?_
    rw [h.boxes, List.getElem?_map, hk, Option.map_some]

end

section

variable {w : Nat} {p : ShmemParams} {addr : Nat} {env envR : InitEnv} {highestM highestR linkId : UInt32}
  {cfg : ShmemConfig} {length : Nat} {m m' : ByteMem} {dm dr : RpmsgLiteInstance} {c : LinkConfig} {r : Role} {t : Mail}

/-- From a ready start, in every run of the link, the queues and the tasks that `allows` allows, the queues of each core
deliver what its peer sends. -/
theorem queues_deliver (hm : rpmsgLiteMasterInit w env highestM cfg addr length linkId m = .instance dm m')
    (hr : rpmsgLiteRemoteInit w envR highestR cfg addr linkId = some dr) (hlen : addr + length ≤ 2 ^ 32)
    (hp : masterParams w cfg = some p) (hok : LinkReady w cfg addr p m) (hc : c.payloadSize = cfg.payloadSize)
    (h : Mail.Reachable c r (.start (Link.start m' dm dr)) t) : t.Delivers r := by
  obtain ⟨P₀, h₀⟩ := linkInv_start hm hr hlen hp hok
  obtain ⟨⟨P, hl⟩, -, htold⟩ := h.told h₀ (by cases r <;> rfl) (hok.pool_payload hc)
  exact htold.delivers hl

end

theorem Mail.isRun (c : LinkConfig) (r : Role) : IsRun (fun t mv => t.step c r mv) (Mail.run c r) :=
  ⟨fun _ => rfl, fun _ _ _ => rfl⟩

theorem Mail.reachable_of_run {c : LinkConfig} {r : Role} {t₀ t t' : Mail} {mvs : List Move} (h : Mail.Reachable c r t₀ t)
    (hr : t.run c r mvs = some t') : Mail.Reachable c r t₀ t' :=
  (Mail.isRun c r).keeps (fun h hs => h.step hs) h hr

/-- One of two messages has been taken, the other is in the queue. -/
theorem queues_deliver_two : ∃ dm m' dr t,
    rpmsgLiteMasterInit 32 InitEnv.ok 0 (.build (headerTwo 64 (by decide) (by decide))) 4124 512 0 (fun _ => 0) =
      .instance dm m' ∧
    rpmsgLiteRemoteInit 32 InitEnv.ok 0 (.build (headerTwo 64 (by decide) (by decide))) 4124 0 = some dr ∧
    (Mail.start (Link.start m' dm dr)).run ⟨false, 16, 16⟩ .remote twoQueued = some t ∧
    t.boxes = ⟨[[(7, [2])]], [(0, 7, [1]), (0, 7, [2])], [(0, 7, [1])]⟩ ∧ t.Delivers .remote := by
  obtain ⟨dm, m', dr, hm, hr, ht⟩ := Link.of_check_two 0
    (fun dm m' dr => ((Mail.start (Link.start m' dm dr)).run ⟨false, 16, 16⟩ .remote twoQueued).any
      fun t => t.boxes == ⟨[[(7, [2])]], [(0, 7, [1]), (0, 7, [2])], [(0, 7, [1])]⟩)
    (by decide +kernel)
  obtain ⟨t, ht, hboxes⟩ := (Option.any_eq_true _ _).1 ht
  refine ⟨dm, m', dr, t, hm, hr, ht, eq_of_beq hboxes, ?_⟩
  exact queues_deliver hm hr (by decide) rfl linkReady_two rfl (Mail.reachable_of_run .start ht)

end RxQueues

end RpmsgLite
