/-
The link as two channels. What the two cores can observe of each other is a pair of bounded channels, one for each
direction: how many buffers are free, the sends under way, the messages queued, and the contents of the buffers in
somebody's hands. Descriptors, indices, rings and the shared memory are not part of that picture. Every step of a core is a
step of the channels, and the channels say when a step is possible and when a call is refused.
-/
import RpmsgLite.Lib.Channel
import RpmsgLite.Link.Delivery
import RpmsgLite.Link.LinkState

namespace RpmsgLite

open ByteMem

/-! ## The channels -/

/-- The arguments of a `rpmsg_lite_send`. -/
structure SendArgs where
  src : UInt32
  dst : UInt32
  data : List UInt8

/-- The message the receiver sees of them. -/
def SendArgs.message (a : SendArgs) : Msg := (Msg.of a.src a.dst a.data).seen

abbrev Chan := BufferChannel SendArgs (List UInt8) Msg

/-- `bytes` in place of as many bytes from `off` on. -/
def splice (area : List UInt8) (off : Nat) (bytes : List UInt8) : List UInt8 :=
  area.take off ++ bytes ++ area.drop (off + bytes.length)

/-- The steps of a sender whose link is `up` or not. -/
inductive Chan.Sends (c : LinkConfig) (up : Bool) (ch : Chan) : TxAct → Chan → Prop
  | sendRefused {src dst : UInt32} {data : List UInt8} (hle : data.length ≤ c.limit)
      (h : c.payloadSize < data.length ∨ up = false ∨ ch.free = 0) : Sends c up ch (.send src dst data) ch
  | send {src dst : UInt32} {data : List UInt8} {ch' : Chan} (hle : data.length ≤ c.limit) (hsize : data.length ≤ c.payloadSize)
      (hup : up = true) (h : ch.step SendArgs.message (.send ⟨src, dst, data⟩) = some ch') :
      Sends c up ch (.send src dst data) ch'
  | fill {i : Nat} {ch' : Chan} (h : ch.step SendArgs.message (.fill i) = some ch') : Sends c up ch (.fill i) ch'
  | enqueue {i : Nat} {ch' : Chan} (h : ch.step SendArgs.message (.enqueue i) = some ch') : Sends c up ch (.enqueue i) ch'
  | allocRefused (h : up = false ∨ ch.free = 0) : Sends c up ch .allocTxBuffer ch
  /-- a buffer comes with whatever bytes were left in it -/
  | allocTxBuffer {area : List UInt8} {ch' : Chan} (hup : up = true) (h : ch.step SendArgs.message (.draft area) = some ch') :
      Sends c up ch .allocTxBuffer ch'
  | write {i off : Nat} {bytes area : List UInt8} {ch' : Chan} (hi : ch.drafts[i]? = some area)
      (hle : off + bytes.length ≤ area.length)
      (h : ch.step SendArgs.message (.edit i fun area => splice area off bytes) = some ch') :
      Sends c up ch (.write i off bytes) ch'
  | nocopyRefused {i size : Nat} {src dst : UInt32} {area : List UInt8} (hle : size ≤ c.limit) (hi : ch.drafts[i]? = some area)
      (h : c.payloadSize < size ∨ up = false) : Sends c up ch (.sendNocopy i src dst size) ch
  | sendNocopy {i size : Nat} {src dst : UInt32} {ch' : Chan} (hle : size ≤ c.limit) (hsize : size ≤ c.payloadSize)
      (hup : up = true)
      (h : ch.step SendArgs.message (.publish i fun area => SendArgs.message ⟨src, dst, area.take size⟩) = some ch') :
      Sends c up ch (.sendNocopy i src dst size) ch'

/-- The steps of a receiver. -/
inductive Chan.Receives (ch : Chan) : RxAct → Chan → Prop
  | rxNone (hhand : ch.hand = .idle) (hqueue : ch.queue = []) : Receives ch .rx ch
  | rx {ch' : Chan} (h : ch.step SendArgs.message .take = some ch') : Receives ch .rx ch'
  /-- the payload is where the callback looks for it -/
  | read {msg : Msg} {area : List UInt8} {ch' : Chan} (hhand : ch.hand = .taken msg)
      (harea : area.take msg.data.length = msg.data) (h : ch.step SendArgs.message (.read area) = some ch') : Receives ch .read ch'
  | done {hold : Bool} {ch' : Chan} (h : ch.step SendArgs.message (.done hold) = some ch') : Receives ch (.done hold) ch'
  | writeMsg {off : Nat} {bytes area : List UInt8} {ch' : Chan} (hhand : ch.hand = .seen area)
      (hle : off + bytes.length ≤ area.length)
      (h : ch.step SendArgs.message (.editSeen fun area => splice area off bytes) = some ch') :
      Receives ch (.writeMsg off bytes) ch'
  | writeHeld {i off : Nat} {bytes area : List UInt8} {ch' : Chan} (hi : ch.held[i]? = some area)
      (hle : off + bytes.length ≤ area.length)
      (h : ch.step SendArgs.message (.editHeld i fun area => splice area off bytes) = some ch') :
      Receives ch (.writeHeld i off bytes) ch'
  | releaseRxBuffer {i : Nat} {ch' : Chan} (h : ch.step SendArgs.message (.release i) = some ch') :
      Receives ch (.releaseRxBuffer i) ch'

/-- Both directions, each named by its sender, and whether the senders may send. -/
structure Duplex where
  chan : Role → Chan
  up : Role → Bool

def Duplex.start (n : Nat) (up : Role → Bool) : Duplex := ⟨fun _ => .empty n, up⟩

inductive Duplex.Step (c : LinkConfig) (d : Duplex) (r : Role) : Act → Duplex → Prop
  | tx {a : TxAct} {ch : Chan} (h : (d.chan r).Sends c (d.up r) a ch) :
      Step c d r (.tx a) { d with chan := Function.update d.chan r ch }
  | rx {a : RxAct} {ch : Chan} (h : (d.chan r.peer).Receives a ch) :
      Step c d r (.rx a) { d with chan := Function.update d.chan r.peer ch }
  | txCallback : Step c d r .txCallback { d with up := Function.update d.up r true }

/-! ## What the cores see of the link -/

/-- The payload area behind a buffer that was handed out. -/
def Got.area (m : ByteMem) (g : Got) : List UInt8 := m.block (msgDataAt g.buffer) (g.len.toNat - 16)

def RxHand.view (m : ByteMem) : RxHand → ChannelHand (List UInt8) Msg
  | .idle => .idle
  | .taken g => .taken (msgAt m g.buffer)
  | .seen g => .seen (g.area m)

namespace Link

variable (s : Link) (r : Role)

/-- The channel that `r` sends on. -/
def channel : Chan where
  free := (s.freeIds r).length
  sending := (s.side r).tx.sending.map fun e => (⟨e.src, e.dst, e.data⟩, e.filled)
  drafts := (s.side r).tx.owned.map (Got.area s.m)
  queue := (s.queueBufs r).map (msgAt s.m)
  hand := (s.side r.peer).rx.hand.view s.m
  held := (s.side r.peer).rx.held.map (Got.area s.m)

def duplex : Duplex := ⟨s.channel, fun r => (s.side r).dev.linkState⟩

end Link

/-! ## Bytes of a buffer -/

section Areas

variable {m m' : ByteMem}

theorem block_append (m : ByteMem) (a n k : Nat) : m.block a (n + k) = m.block a n ++ m.block (a + n) k := by
  unfold block
  rw [List.range_add, List.map_append, List.map_map]
  refine congrArg _ (List.map_congr_left fun i _ => ?_)
  show m (a + (n + i)) = m (a + n + i)
  rw [Nat.add_assoc]

theorem block_drop (m : ByteMem) (a : Nat) {k n : Nat} (h : k ≤ n) : (m.block a n).drop k = m.block (a + k) (n - k) := by
  obtain ⟨j, rfl⟩ := Nat.exists_eq_add_of_le h
  rw [block_append, List.drop_left' (length_block _ _ _), Nat.add_sub_cancel_left]

/-- A copy into a block is seen as such. -/
theorem block_copy_splice (m : ByteMem) (a : Nat) {off n : Nat} {bytes : List UInt8} (h : off + bytes.length ≤ n) :
    (m.copy (a + off) bytes).block a n = splice (m.block a n) off bytes := by
  obtain ⟨j, rfl⟩ := Nat.exists_eq_add_of_le h
  have hf := frame_copy m (a + off) bytes
  unfold splice
  rw [block_append, block_append, block_copy, block_take m a (by omega), block_drop m a (by omega), Nat.add_sub_cancel_left,
    block_congr (hf.agree (Or.inl le_rfl)), block_congr (hf.agree (Or.inr (by omega)))]

end Areas

/-! ## What a step leaves alone -/

section Agree

variable {B : BufferPool} {k : RingKind} {m m' : ByteMem} {tvq rvq : Virtqueue} {t : TxHalf} {x : RxHalf} {P : Custody B.ids}
  {c : LinkConfig} {s s' : Side}

/-- The descriptor whose buffer a step of the sender may store into. -/
def TxAct.target (P : Custody B.ids) (t : TxHalf) : TxAct → Option UInt16
  | .fill i => t.sending[i]?.map Sending.id
  | .write i _ _ | .sendNocopy i _ _ _ => t.owned[i]?.map Got.idx
  | .allocTxBuffer => P.free.head?
  | _ => none

/-- The same for the receiver. -/
def RxAct.target (x : RxHalf) : RxAct → Option UInt16
  | .done _ | .writeMsg _ _ => x.hand.got.head?.map Got.idx
  | .writeHeld i _ _ | .releaseRxBuffer i => x.held[i]?.map Got.idx
  | _ => none

/-- The buffers of all descriptors but `d` are as they were. -/
def BufferPool.AgreeBut (B : BufferPool) (d : Option UInt16) (m m' : ByteMem) : Prop :=
  ∀ e ∈ B.ids, d ≠ some e → Agree m m' (B.buffer e) (B.buffer e + B.size)

theorem BufferPool.AgreeBut.refl (B : BufferPool) (d : Option UInt16) (m : ByteMem) : B.AgreeBut d m m :=
  fun _ _ _ => .refl _ _ _

theorem BufferPool.AgreeBut.of_store {d : UInt16} (hf : Frame m m' (B.buffer d) (B.buffer d + B.size)) :
    B.AgreeBut (some d) m m' :=
  fun _ _ hne => hf.agree (BufferPool.buffer_apart fun h => hne (congrArg some h.symm))

theorem BufferPool.AgreeBut.put {d : Option UInt16} {m'' : ByteMem} {kk : RingKind} (h : B.AgreeBut d m m')
    (hf : Frame m' m'' (B.vr.ringLo kk) (B.vr.ringHi kk)) : B.AgreeBut d m m'' :=
  fun e he hne => (h e he hne).trans (Flow.bufs_of_ring hf he)

/-- A put of one of the pool's virtqueues stays in its ring. -/
theorem frame_vqPut {vq : Virtqueue} {r : RingKind} (hwf : vq.Wf) (hring : vq.ring = B.vr) {d : UInt16}
    (hd : d ≤ vq.nentries) (len : UInt32) : Frame m (vqPut r vq m d len).2 (B.vr.ringLo r) (B.vr.ringHi r) := by
  rw [← hring]
  exact (vqPut_spec hwf len hd).frame

/-- A zero-copy send is refused for its size or because the link is down. -/
theorem sendNocopy_refused {clear : Bool} {payloadSize size data : Nat} {dev dev' : RpmsgLiteInstance} {src dst : UInt32}
    {status : Int} (h : rpmsgLiteSendNocopy clear payloadSize dev m src dst data size = some (dev', m', status))
    (hst : status ≠ RL_SUCCESS) :
    dev' = dev ∧ m' = m ∧ (payloadSize < size ∨ dev.linkState = false) := by
  unfold rpmsgLiteSendNocopy at h
  split at h
  · rename_i hsize
    cases h
    exact ⟨rfl, rfl, Or.inl hsize⟩
  split at h
  · rename_i hlink
    cases h
    exact ⟨rfl, rfl, Or.inr (by simpa using hlink)⟩
  dsimp only at h
  split at h
  · cases h
  · cases h
    exact absurd rfl hst

theorem Flow.tx_agree (h : Flow B k m s.dev.tvq rvq s.tx x P) (hk : s.dev.role.getKind = k)
    (hpay : c.payloadSize + 16 ≤ B.size) {a : TxAct} (ha : s.txStep c m a = some (s', m')) :
    B.AgreeBut (a.target P s.tx) m m' := by
  have hsz := B.size_ge
  cases Side.txStep_cases ha with
  | sendRefused => exact .refl _ _ _
  | send => exact .refl _ _ _
  | @fill i e hi =>
    have he : e ∈ s.tx.sending := List.mem_of_getElem? hi
    have hgot : e.got ∈ s.tx.gots := List.mem_append_left _ (List.mem_map_of_mem he)
    have hbuf : e.got.buffer = B.buffer e.id := congrArg Got.buffer (h.contents.txGot _ hgot)
    have hfits := h.contents.fits e he
    obtain ⟨hf, -⟩ := rpmsgLiteFormatMessage_spec m e.got e.src e.dst e.data
    rw [hbuf] at hf
    simp only [TxAct.target, hi, Option.map_some]
    exact .of_store (hf.mono le_rfl (by omega))
  | enqueueStuck => exact .refl _ _ _
  | @enqueue i e dev m' hi hf he =>
    have hgot : e.got ∈ s.tx.gots := List.mem_append_left _ (List.mem_map_of_mem (List.mem_of_getElem? hi))
    unfold rpmsgLiteSendEnqueue at he
    rw [h.linked.vqTx hk (h.tx_ids hgot)] at he
    cases he
    exact (BufferPool.AgreeBut.refl B _ m).put
      (frame_vqPut h.linked.tvq_wf h.linked.tvq_ring (h.linked.le_nentries (h.tx_ids hgot)) _)
  | allocNone he =>
    unfold rpmsgLiteAllocTxBuffer at he
    split at he
    · cases he
      exact .refl _ _ _
    · split at he
      · cases he
        exact .refl _ _ _
      · cases he
  | @allocTxBuffer dev m' g he =>
    unfold rpmsgLiteAllocTxBuffer at he
    split at he
    · cases he
    · rcases h.linked.txAlloc c.clear hk with hn | ⟨d, f, hf, hget, -⟩
      · rw [hn] at he
        cases he
      · rw [hget] at he
        cases he
        simp only [TxAct.target, hf, List.head?_cons]
        exact .of_store ((frame_st16 m _ d).mono (by simp only [BufferPool.got, hdrIdxAt]; omega)
          (by simp only [BufferPool.got, hdrIdxAt]; omega))
  | @write i off bytes g m' hi hw =>
    have hgot : g ∈ s.tx.gots := List.mem_append_right _ (List.mem_of_getElem? hi)
    simp only [TxAct.target, hi, Option.map_some]
    exact .of_store (writePayload_spec (h.contents.txGot g hgot) hw).1
  | nocopyStuck => exact .refl _ _ _
  | @sendNocopy i size src dst g dev m' hle hi he =>
    have hg : g ∈ s.tx.owned := List.mem_of_getElem? hi
    have hgot : g ∈ s.tx.gots := List.mem_append_right _ hg
    have hbuf : g.buffer = B.buffer g.idx := congrArg Got.buffer (h.contents.txGot _ hgot)
    have hd := h.tx_ids hgot
    unfold rpmsgLiteSendNocopy at he
    split at he
    · cases he
    split at he
    · cases he
    obtain ⟨hf, hidx, -⟩ := writeHdr_spec m (B.buffer g.idx) src dst size
    have hkept := h.contents.txKept g hg
    simp only [show msgFromBuf (msgDataAt g.buffer) = B.buffer g.idx by rw [hbuf]; exact Nat.add_sub_cancel _ _, hidx, hkept,
      vqTx_eq s.dev.role (h.linked.le_nentries hd)] at he
    cases he
    simp only [TxAct.target, hi, Option.map_some]
    exact (BufferPool.AgreeBut.of_store (hf.mono le_rfl (by omega))).put
      (frame_vqPut h.linked.tvq_wf h.linked.tvq_ring (h.linked.le_nentries hd) _)
  | nocopyRefused hle hi he hst =>
    obtain ⟨-, rfl, -⟩ := sendNocopy_refused he hst
    exact .refl _ _ _

/-- What `vq_rx_free` stores. -/
theorem Linked.rxFree_agree {tvq : Virtqueue} (h : Linked B k m tvq rvq P) {clear : Bool} {r : Role} (hk : r.getKind = k.other)
    {d : UInt16} (hd : d ∈ B.ids) {vq : Virtqueue}
    (he : (r.vqOps clear).vqRxFree rvq m (B.buffer d) (UInt32.ofNat B.size) d = some (vq, m')) :
    B.AgreeBut (some d) m m' := by
  have hle := h.swap.le_nentries hd
  rw [vqRxFree_eq r clear m _ _ hle, hk, RingKind.other_other, B.toNat_size] at he
  have hst : Frame m (if clear then m.fill (B.buffer d) B.size 0 else m) (B.buffer d) (B.buffer d + B.size) := by
    split
    · exact frame_fill _ _ _ _
    · exact .refl _ _ _
  have hput := (BufferPool.AgreeBut.of_store hst).put
    (frame_vqPut (r := k) h.rvq_wf h.rvq_ring hle (UInt32.ofNat B.size))
  generalize vqPut k rvq _ d (UInt32.ofNat B.size) = y at he hput
  cases he
  exact hput

theorem Flow.rx_agree (h : Flow B k m tvq s.dev.rvq t s.rx P) (hk : s.dev.role.getKind = k.other) {a : RxAct}
    (ha : s.rxStep c m a = some (s', m')) : B.AgreeBut (a.target s.rx) m m' := by
  have hsz := B.size_ge
  cases Side.rxStep_cases ha with
  | rxNone => exact .refl _ _ _
  | rx => exact .refl _ _ _
  | read => exact .refl _ _ _
  | doneStuck => exact .refl _ _ _
  | @done hold g dev m' hhand he =>
    have hgot : g ∈ s.rx.gots := List.mem_append_left _ (by rw [hhand]; exact List.mem_cons_self)
    have heq := h.contents.rxGot g hgot
    have hbuf : g.buffer = B.buffer g.idx := congrArg Got.buffer heq
    have hlen : g.len = UInt32.ofNat B.size := congrArg Got.len heq
    have htarget : (RxAct.done hold).target s.rx = some g.idx := by
      simp only [RxAct.target, hhand, RxHand.got, List.head?_cons, Option.map_some]
    rw [htarget]
    unfold rpmsgLiteRxDone at he
    split at he
    · cases he
      rw [hbuf]
      exact .of_store ((frame_st16 m _ _).mono (by simp only [hdrIdxAt]; omega) (by simp only [hdrIdxAt]; omega))
    · rw [hbuf, hlen] at he
      split at he
      · cases he
      · rename_i hfree
        cases he
        exact h.linked.rxFree_agree hk (h.rx_ids hgot) hfree
  | @writeMsg off bytes g m' hhand hw =>
    have hgot : g ∈ s.rx.gots := List.mem_append_left _ (by rw [hhand]; exact List.mem_cons_self)
    simp only [RxAct.target, hhand, RxHand.got, List.head?_cons, Option.map_some]
    exact .of_store (writePayload_spec (h.contents.rxGot g hgot) hw).1
  | @writeHeld i off bytes g m' hi hw =>
    have hgot : g ∈ s.rx.gots := List.mem_append_right _ (List.mem_of_getElem? hi)
    simp only [RxAct.target, hi, Option.map_some]
    exact .of_store (writePayload_spec (h.contents.rxGot g hgot) hw).1
  | releaseStuck => exact .refl _ _ _
  | @release i g dev m' hi he =>
    have hg : g ∈ s.rx.held := List.mem_of_getElem? hi
    have hgot : g ∈ s.rx.gots := List.mem_append_right _ hg
    have hbuf : g.buffer = B.buffer g.idx := congrArg Got.buffer (h.contents.rxGot g hgot)
    unfold rpmsgLiteReleaseRxBuffer at he
    simp only [show msgFromBuf (msgDataAt g.buffer) = B.buffer g.idx by rw [hbuf]; exact Nat.add_sub_cancel _ _,
      h.contents.rxKept g hg, h.linked.swap.bufferLength (h.rx_ids hgot)] at he
    simp only [RxAct.target, hi, Option.map_some]
    split at he
    · cases he
    · rename_i hfree
      cases he
      exact h.linked.rxFree_agree hk (h.rx_ids hgot) hfree

end Agree

/-! ## One direction -/

section Lists

variable {α β : Type} {l : List α} {i : Nat} {a : α} {f g : α → β}

theorem map_eraseIdx_of_agree (h : ∀ b ∈ l.eraseIdx i, g b = f b) : (l.eraseIdx i).map g = (l.map f).eraseIdx i := by
  rw [List.map_congr_left h, List.eraseIdx_map]

/-- Entries with distinct keys that are told apart from the one at `i`. -/
theorem map_set_of_agree {γ : Type} {key : α → γ} (hi : l[i]? = some a) (hn : (l.map key).Nodup)
    (h : ∀ b ∈ l, key b ≠ key a → g b = f b) : l.map g = (l.map f).set i (g a) := by
  refine List.ext_getElem? fun j => ?_
  rw [List.getElem?_map, List.getElem?_set, List.getElem?_map]
  by_cases hj : i = j
  · subst hj
    have hlt : i < (l.map f).length := by
      rw [List.length_map]
      exact (List.getElem?_eq_some_iff.1 hi).1
    rw [if_pos rfl, if_pos hlt, hi]
    rfl
  · rw [if_neg hj]
    cases hb : l[j]? with
    | none => rfl
    | some b =>
      refine congrArg some (h b (List.mem_of_getElem? hb) fun hkey => hj ?_)
      have hlt : i < (l.map key).length := by
        rw [List.length_map]
        exact (List.getElem?_eq_some_iff.1 hi).1
      refine (List.getElem?_inj hlt hn).1 ?_
      rw [List.getElem?_map, List.getElem?_map, hi, hb, Option.map_some, Option.map_some, hkey]

theorem ne_of_mem_eraseIdx {γ : Type} {key : α → γ} (hi : l[i]? = some a) (hn : (l.map key).Nodup) {b : α}
    (hb : b ∈ l.eraseIdx i) : key b ≠ key a := by
  obtain ⟨j, hj, hb⟩ := List.mem_eraseIdx_iff_getElem?.1 hb
  intro hkey
  have hlt : j < (l.map key).length := by
    rw [List.length_map]
    exact (List.getElem?_eq_some_iff.1 hb).1
  refine hj ((List.getElem?_inj hlt hn).1 ?_)
  rw [List.getElem?_map, List.getElem?_map, hi, hb, Option.map_some, Option.map_some, hkey]

end Lists

section View

variable {B : BufferPool} {k : RingKind} {m m' : ByteMem} {tvq rvq tvq' rvq' : Virtqueue} {t t' : TxHalf} {x x' : RxHalf}
  {P P' : Custody B.ids} {c : LinkConfig} {s s' : Side} {d : Option UInt16}

/-- The channel that a custody and the hands of the two cores show. -/
def Flow.view (B : BufferPool) (m : ByteMem) (t : TxHalf) (x : RxHalf) (P : Custody B.ids) : Chan where
  free := P.free.length
  sending := t.sending.map fun e => (⟨e.src, e.dst, e.data⟩, e.filled)
  drafts := t.owned.map (Got.area m)
  queue := P.queue.map fun d => msgAt m (B.buffer d)
  hand := x.hand.view m
  held := x.held.map (Got.area m)

theorem Flow.count (h : Flow B k m tvq rvq t x P) :
    P.free.length + t.gots.length + P.queue.length + x.gots.length = B.vr.num := by
  have hcard := P.card
  rw [h.sender, h.receiver, Multiset.coe_card, Multiset.coe_card, List.length_map, List.length_map, B.card_ids] at hcard
  exact hcard

theorem Got.area_congr {g : Got} (hg : g = B.got g.idx) (hd : g.idx ∈ B.ids) (h : B.AgreeBut d m m') (hne : d ≠ some g.idx) :
    g.area m' = g.area m := by
  have hbuf : g.buffer = B.buffer g.idx := congrArg Got.buffer hg
  have hlen : g.len.toNat = B.size := by
    rw [show g.len = UInt32.ofNat B.size from congrArg Got.len hg, B.toNat_size]
  have hsz := B.size_ge
  unfold Got.area
  rw [hbuf, hlen]
  exact block_congr ((h _ hd hne).mono (by simp only [msgDataAt]; omega) (by simp only [msgDataAt]; omega))

/-- The message in hand, and the queued ones, as the receiver will read them. -/
theorem Flow.fifo (h : Flow B k m tvq rvq t x P) :
    t.sent.map Msg.seen = x.recv ++ x.hand.unread.map (fun g => msgAt m g.buffer) ++ P.queue.map fun d => msgAt m (B.buffer d) := by
  have hun : x.hand.unread.map (fun g => msgAt m g.buffer) = (x.hand.unread.map Got.idx).map fun d => msgAt m (B.buffer d) := by
    rw [List.map_map]
    refine List.map_congr_left fun g hg => ?_
    exact congrArg (msgAt m) (congrArg Got.buffer (h.contents.rxGot g (List.mem_append_left _ (RxHand.unread_sub hg))))
  rw [h.contents.fifo, hun]
  unfold RxHalf.inflight
  rw [List.map_append, List.append_assoc]

theorem Flow.held_same (h : Flow B k m tvq rvq t x P) (ha : B.AgreeBut d m m') {g : Got} (hg : g ∈ x.held)
    (hd : d ≠ some g.idx) : g.area m' = g.area m :=
  Got.area_congr (h.contents.rxGot g (List.mem_append_right _ hg)) (h.rx_ids (List.mem_append_right _ hg)) ha hd

/-- The drafts that a step does not store into. -/
theorem Flow.draft_same (h : Flow B k m tvq rvq t x P) (ha : B.AgreeBut d m m') {g : Got} (hg : g ∈ t.owned)
    (hd : d ≠ some g.idx) : g.area m' = g.area m :=
  Got.area_congr (h.contents.txGot g (List.mem_append_right _ hg)) (h.tx_ids (List.mem_append_right _ hg)) ha hd

/-- A step that does not store into the buffer in hand. -/
theorem Flow.hand_same (h : Flow B k m tvq rvq t x P) (ha : B.AgreeBut d m m') (hd : ∀ g ∈ x.hand.got, d ≠ some g.idx) :
    x.hand.view m' = x.hand.view m ∧
      x.hand.unread.map (fun g => msgAt m' g.buffer) = x.hand.unread.map fun g => msgAt m g.buffer := by
  have hmsg : ∀ g ∈ x.hand.unread, msgAt m' g.buffer = msgAt m g.buffer := by
    intro g hg
    have hgot : g ∈ x.gots := List.mem_append_left _ (RxHand.unread_sub hg)
    rw [congrArg Got.buffer (h.contents.rxGot g hgot)]
    exact msgAt_congr (ha _ (h.rx_ids hgot) (hd g (RxHand.unread_sub hg)))
      (h.contents.inflight_fits (List.mem_append_left _ (List.mem_map_of_mem hg)))
  refine ⟨?_, List.map_congr_left hmsg⟩
  cases hhand : x.hand with
  | idle => rfl
  | taken g => exact congrArg ChannelHand.taken (hmsg g (by rw [hhand]; exact List.mem_singleton_self g))
  | seen g =>
    have hg : g ∈ x.hand.got := by
      rw [hhand]
      exact List.mem_singleton_self g
    have hgot : g ∈ x.gots := List.mem_append_left _ hg
    exact congrArg ChannelHand.seen (Got.area_congr (h.contents.rxGot g hgot) (h.rx_ids hgot) ha (hd g hg))

/-- A step that stores into no buffer of the receiver leaves what the receiver sees. -/
theorem Flow.rx_same (h : Flow B k m tvq rvq t x P) (ha : B.AgreeBut d m m') (hd : ∀ g ∈ x.gots, d ≠ some g.idx) :
    x.hand.view m' = x.hand.view m ∧ x.held.map (Got.area m') = x.held.map (Got.area m) ∧
      x.hand.unread.map (fun g => msgAt m' g.buffer) = x.hand.unread.map fun g => msgAt m g.buffer := by
  obtain ⟨hhand, hun⟩ := h.hand_same ha fun g hg => hd g (List.mem_append_left _ hg)
  refine ⟨hhand, List.map_congr_left fun g hg => ?_, hun⟩
  exact h.held_same ha hg (hd g (List.mem_append_right _ hg))

/-- What is queued follows from what was sent, what was read and what is in between. -/
theorem Flow.queue_view (h : Flow B k m tvq rvq t x P) (h' : Flow B k m' tvq' rvq' t' x' P') {l : List Msg}
    (hsent : t'.sent.map Msg.seen = t.sent.map Msg.seen ++ l) (hrecv : x'.recv = x.recv)
    (hun : x'.hand.unread.map (fun g => msgAt m' g.buffer) = x.hand.unread.map fun g => msgAt m g.buffer) :
    P'.queue.map (fun d => msgAt m' (B.buffer d)) = P.queue.map (fun d => msgAt m (B.buffer d)) ++ l ∧
      P'.queue.length = P.queue.length + l.length := by
  have hfifo := h'.fifo
  rw [hsent, h.fifo, hrecv, hun, List.append_assoc (_ ++ _)] at hfifo
  have hq := (List.append_cancel_left hfifo).symm
  have hlen := congrArg List.length hq
  rw [List.length_append, List.length_map, List.length_map] at hlen
  exact ⟨hq, hlen⟩

/-! ## The sender -/

/-- Free descriptors are in nobody's hands. -/
theorem Flow.free_apart (h : Flow B k m tvq rvq t x P) {e : UInt16} (he : e ∈ P.free) :
    (∀ g ∈ t.gots, g.idx ≠ e) ∧ ∀ g ∈ x.gots, g.idx ≠ e := by
  have hn : ((P.free : Multiset UInt16) + P.sender + P.queue + P.receiver).Nodup := by
    rw [P.spread]
    exact B.ids_nodup
  obtain ⟨hn', -, hrx⟩ := Multiset.nodup_add.1 hn
  obtain ⟨hn'', -, -⟩ := Multiset.nodup_add.1 hn'
  have hmem : e ∈ (P.free : Multiset UInt16) := Multiset.mem_coe.2 he
  refine ⟨fun g hg hid => ?_, fun g hg hid => ?_⟩
  · exact Multiset.disjoint_left.1 (Multiset.nodup_add.1 hn'').2.2 hmem (hid ▸ h.mem_tx hg)
  · exact Multiset.disjoint_left.1 hrx (Multiset.mem_add.2 (Or.inl (Multiset.mem_add.2 (Or.inl hmem)))) (hid ▸ h.mem_rx hg)

/-- The buffer a sender's step stores into is not one of the receiver's. -/
theorem Flow.tx_target (h : Flow B k m tvq rvq t x P) (a : TxAct) : ∀ g ∈ x.gots, a.target P t ≠ some g.idx := by
  intro g hg ha
  have hmem := h.mem_rx hg
  have hsender : ∀ e ∈ t.gots, e.idx ≠ g.idx := fun e he hid => h.tx_not_rx he (hid ▸ hmem)
  cases a with
  | send => cases ha
  | fill i =>
    obtain ⟨e, hi, hid⟩ := Option.map_eq_some_iff.1 ha
    exact hsender e.got (List.mem_append_left _ (List.mem_map_of_mem (List.mem_of_getElem? hi))) hid
  | enqueue => cases ha
  | allocTxBuffer => exact (h.free_apart (List.mem_of_mem_head? ha)).2 g hg rfl
  | write i =>
    obtain ⟨e, hi, hid⟩ := Option.map_eq_some_iff.1 ha
    exact hsender e (List.mem_append_right _ (List.mem_of_getElem? hi)) hid
  | sendNocopy i =>
    obtain ⟨e, hi, hid⟩ := Option.map_eq_some_iff.1 ha
    exact hsender e (List.mem_append_right _ (List.mem_of_getElem? hi)) hid

theorem Flow.owned_nodup (h : Flow B k m tvq rvq t x P) : (t.owned.map Got.idx).Nodup := (List.nodup_append.1 h.tx_nodup).2.1

theorem Flow.held_nodup (h : Flow B k m tvq rvq t x P) : (x.held.map Got.idx).Nodup := (List.nodup_append.1 h.rx_nodup).2.1

/-- An application's write is one to the payload area. -/
theorem writePayload_area {g : Got} {off : Nat} {bytes : List UInt8} (h : writePayload m g off bytes = some m') :
    off + bytes.length ≤ (g.area m).length ∧ g.area m' = splice (g.area m) off bytes := by
  unfold writePayload at h
  split at h
  · rename_i hle
    cases h
    exact ⟨by rwa [Got.area, length_block], block_copy_splice m _ hle⟩
  · cases h

/-- A refused send is refused for its size, because the link is down, or because no buffer is free. -/
theorem Flow.sendAlloc_refused {dev : RpmsgLiteInstance} (h : Flow B k m dev.tvq rvq t x P) {clear : Bool} {payloadSize size : Nat}
    {dev' : RpmsgLiteInstance} {status : Int} (hk : dev.role.getKind = k)
    (he : rpmsgLiteSendAlloc clear payloadSize dev m size = (dev', .error status)) :
    payloadSize < size ∨ dev.linkState = false ∨ P.free.length = 0 := by
  unfold rpmsgLiteSendAlloc at he
  split at he
  · rename_i hsize
    exact Or.inl hsize
  split at he
  · rename_i hlink
    exact Or.inr (Or.inl (by simpa using hlink))
  rw [vqTxAlloc_eq, hk] at he
  rcases h.linked.take with ⟨hf, -⟩ | ⟨d, f, hf, hget, -⟩
  · rw [hf]
    exact Or.inr (Or.inr rfl)
  · have hpos := (BufferPool.buffer_bounds (P.mem_free (hf ▸ List.mem_cons_self))).1
    have hne : (B.got d).buffer ≠ 0 := Nat.pos_iff_ne_zero.1 hpos
    rw [hget, nonNull_some hne] at he
    cases he

theorem sendAlloc_ok {dev dev' : RpmsgLiteInstance} {clear : Bool} {payloadSize size : Nat} {g : Got}
    (he : rpmsgLiteSendAlloc clear payloadSize dev m size = (dev', .ok g)) : size ≤ payloadSize ∧ dev.linkState = true := by
  unfold rpmsgLiteSendAlloc at he
  split at he
  · cases he
  rename_i hsize
  split at he
  · cases he
  rename_i hlink
  exact ⟨Nat.le_of_not_lt hsize, by simpa using hlink⟩

theorem Flow.alloc_refused {dev : RpmsgLiteInstance} (h : Flow B k m dev.tvq rvq t x P) {clear : Bool}
    {dev' : RpmsgLiteInstance} (hk : dev.role.getKind = k) (he : rpmsgLiteAllocTxBuffer clear dev m = (dev', m', none)) :
    m' = m ∧ (dev.linkState = false ∨ P.free.length = 0) := by
  unfold rpmsgLiteAllocTxBuffer at he
  split at he
  · rename_i hlink
    cases he
    exact ⟨rfl, Or.inl (by simpa using hlink)⟩
  rw [vqTxAlloc_eq, hk] at he
  rcases h.linked.take with ⟨hf, hget⟩ | ⟨d, f, hf, hget, -⟩
  · rw [hget, nonNull_none] at he
    cases he
    rw [hf]
    exact ⟨rfl, Or.inr rfl⟩
  · have hpos := (BufferPool.buffer_bounds (P.mem_free (hf ▸ List.mem_cons_self))).1
    have hne : (B.got d).buffer ≠ 0 := Nat.pos_iff_ne_zero.1 hpos
    rw [hget, nonNull_some hne] at he
    cases he

theorem alloc_ok {dev dev' : RpmsgLiteInstance} {clear : Bool} {g : Got}
    (he : rpmsgLiteAllocTxBuffer clear dev m = (dev', m', some g)) : dev.linkState = true := by
  unfold rpmsgLiteAllocTxBuffer at he
  split at he
  · cases he
  · rename_i hlink
    simpa using hlink

theorem sendNocopy_ok {dev dev' : RpmsgLiteInstance} {clear : Bool} {payloadSize size data : Nat} {src dst : UInt32}
    (he : rpmsgLiteSendNocopy clear payloadSize dev m src dst data size = some (dev', m', RL_SUCCESS)) :
    size ≤ payloadSize ∧ dev.linkState = true := by
  unfold rpmsgLiteSendNocopy at he
  split at he
  · cases he
  rename_i hsize
  split at he
  · cases he
  rename_i hlink
  exact ⟨Nat.le_of_not_lt hsize, by simpa using hlink⟩

/-- A step that leaves the hands and their buffers alone leaves the channel alone. -/
theorem Flow.view_same (h : Flow B k m tvq rvq t x P) (h' : Flow B k m' tvq' rvq' t x P') (ha : B.AgreeBut none m m') :
    Flow.view B m' t x P' = Flow.view B m t x P := by
  obtain ⟨hhand, hheld, hun⟩ := h.rx_same ha fun g _ hid => by cases hid
  have hdrafts : t.owned.map (Got.area m') = t.owned.map (Got.area m) :=
    List.map_congr_left fun g hg => h.draft_same ha hg fun hid => by cases hid
  obtain ⟨hqueue, hlen⟩ := h.queue_view (l := []) h' (List.append_nil _).symm rfl hun
  rw [List.append_nil] at hqueue
  rw [List.length_nil] at hlen
  have hcount := h.count
  have hcount' := h'.count
  have hfree : P'.free.length = P.free.length := by omega
  unfold Flow.view
  rw [hqueue, hfree, hhand, hheld, hdrafts]

/-- A step of the sender is a step of the channel. -/
theorem Flow.sends (h : Flow B k m s.dev.tvq rvq s.tx x P) (h' : Flow B k m' s'.dev.tvq rvq' s'.tx x P')
    (hk : s.dev.role.getKind = k) (hpay : c.payloadSize + 16 ≤ B.size) {a : TxAct} (ha : s.txStep c m a = some (s', m'))
    (hrun : s'.halted = false) : Chan.Sends c s.dev.linkState (Flow.view B m s.tx x P) a (Flow.view B m' s'.tx x P') := by
  have hagree := h.tx_agree hk hpay ha
  obtain ⟨hhand, hheld, hun⟩ := h.rx_same hagree (h.tx_target a)
  have hcount := h.count
  have hcount' := h'.count
  have hqueue := fun l hsent => h.queue_view (l := l) h' hsent rfl hun
  have hgots : ∀ t : TxHalf, t.gots.length = t.sending.length + t.owned.length := fun t => by
    rw [TxHalf.gots, List.length_append, List.length_map]
  rw [hgots] at hcount hcount'
  cases Side.txStep_cases ha with
  | sendRefused hle he =>
    rw [h.view_same h' (.refl _ _ _)]
    exact .sendRefused hle (h.sendAlloc_refused hk he)
  | @send src dst data dev got hle he =>
    obtain ⟨hsize, hup⟩ := sendAlloc_ok he
    obtain ⟨hq, hlen⟩ := hqueue [] (List.append_nil _).symm
    rw [List.append_nil] at hq
    simp only [List.length_append, List.length_singleton, List.length_nil] at hcount' hlen
    have hfree : P.free.length = P'.free.length + 1 := by omega
    refine .send hle hsize hup ?_
    simp only [BufferChannel.step, Flow.view, hfree, Nat.add_one_ne_zero, if_false, Nat.add_sub_cancel, Option.some.injEq,
      BufferChannel.mk.injEq, List.map_append, hq, true_and, and_true]
    rfl
  | @fill i e hi =>
    obtain ⟨hq, hlen⟩ := hqueue [] (List.append_nil _).symm
    rw [List.append_nil] at hq
    simp only [List.length_set, List.length_nil] at hcount' hlen
    have hfree : P'.free.length = P.free.length := by omega
    have htarget : (TxAct.fill i).target P s.tx = some e.id := by simp only [TxAct.target, hi, Option.map_some]
    have hdrafts : s.tx.owned.map (Got.area (rpmsgLiteFormatMessage m e.got e.src e.dst e.data)) = s.tx.owned.map (Got.area m) := by
      refine List.map_congr_left fun g hg => h.draft_same hagree hg fun hid => ?_
      rw [htarget] at hid
      exact h.sending_ne_owned (List.mem_of_getElem? hi) hg (Option.some.inj hid)
    refine .fill ?_
    simp only [BufferChannel.step, Flow.view, List.getElem?_map, hi, Option.map_some, hfree, hq, hdrafts, hhand, hheld,
      List.map_set]
  | enqueueStuck => cases hrun
  | @enqueue i e dev m' hi hf he =>
    have hset := List.length_eraseIdx_add_one (List.getElem?_eq_some_iff.1 hi).1
    obtain ⟨hq, hlen⟩ := hqueue [(Msg.of e.src e.dst e.data).seen] (by rw [List.map_append, List.map_singleton])
    simp only [List.length_singleton] at hcount' hlen
    have hfree : P'.free.length = P.free.length := by omega
    have hdrafts : s.tx.owned.map (Got.area m') = s.tx.owned.map (Got.area m) :=
      List.map_congr_left fun g hg => h.draft_same hagree hg fun hid => by cases hid
    refine .enqueue ?_
    simp only [BufferChannel.step, Flow.view, List.getElem?_map, hi, Option.map_some, hf, hfree, hq, hdrafts, hhand, hheld,
      List.eraseIdx_map, SendArgs.message]
  | allocNone he =>
    obtain ⟨rfl, hrefused⟩ := h.alloc_refused hk he
    rw [h.view_same h' (.refl _ _ _)]
    exact .allocRefused hrefused
  | @allocTxBuffer dev m' g he =>
    obtain ⟨hq, hlen⟩ := hqueue [] (List.append_nil _).symm
    rw [List.append_nil] at hq
    simp only [List.length_append, List.length_singleton, List.length_nil] at hcount' hlen
    have hfree : P.free.length = P'.free.length + 1 := by omega
    have hdrafts : s.tx.owned.map (Got.area m') = s.tx.owned.map (Got.area m) :=
      List.map_congr_left fun e he => h.draft_same hagree he fun hid =>
        (h.free_apart (List.mem_of_mem_head? hid)).1 e (List.mem_append_right _ he) rfl
    refine .allocTxBuffer (alloc_ok he) (?_ : BufferChannel.step _ _ (.draft (g.area m')) = _)
    simp only [BufferChannel.step, Flow.view, hfree, Nat.add_one_ne_zero, if_false, Nat.add_sub_cancel, List.map_append,
      List.map_singleton, hq, hdrafts, hhand, hheld]
  | @write i off bytes g m' hi hw =>
    obtain ⟨hq, hlen⟩ := hqueue [] (List.append_nil _).symm
    rw [List.append_nil] at hq
    simp only [List.length_nil] at hcount' hlen
    have hfree : P'.free.length = P.free.length := by omega
    obtain ⟨hle, harea⟩ := writePayload_area hw
    have htarget : (TxAct.write i off bytes).target P s.tx = some g.idx := by simp only [TxAct.target, hi, Option.map_some]
    have hdrafts := map_set_of_agree (f := Got.area m) (g := Got.area m') hi h.owned_nodup fun e he hne =>
      h.draft_same hagree he fun hid => hne (Option.some.inj (htarget.symm.trans hid)).symm
    have hget : (Flow.view B m s.tx x P).drafts[i]? = some (g.area m) := by
      simp only [Flow.view, List.getElem?_map, hi, Option.map_some]
    refine .write hget hle ?_
    simp only [BufferChannel.step, hget, Option.map_some]
    simp only [Flow.view, hfree, hq, hdrafts, harea, hhand, hheld]
  | nocopyStuck => cases hrun
  | @sendNocopy i size src dst g dev m' hle hi he =>
    obtain ⟨hsize, hup⟩ := sendNocopy_ok he
    have hset := List.length_eraseIdx_add_one (List.getElem?_eq_some_iff.1 hi).1
    obtain ⟨hq, hlen⟩ := hqueue [(Msg.of src dst (m.block (msgDataAt g.buffer) size)).seen]
      (by rw [List.map_append, List.map_singleton])
    simp only [List.length_singleton] at hcount' hlen
    have hfree : P'.free.length = P.free.length := by omega
    have htarget : (TxAct.sendNocopy i src dst size).target P s.tx = some g.idx := by
      simp only [TxAct.target, hi, Option.map_some]
    have hdrafts := map_eraseIdx_of_agree (f := Got.area m) (g := Got.area m') (l := s.tx.owned) (i := i) fun e he =>
      h.draft_same hagree (List.mem_of_mem_eraseIdx he) fun hid =>
        ne_of_mem_eraseIdx hi h.owned_nodup he (Option.some.inj (htarget.symm.trans hid)).symm
    have hlen : g.len.toNat = B.size := by
      rw [congrArg Got.len (h.contents.txGot g (List.mem_append_right _ (List.mem_of_getElem? hi)))]
      exact B.toNat_size
    have htake : (g.area m).take size = m.block (msgDataAt g.buffer) size := block_take m _ (by omega)
    refine .sendNocopy hle hsize hup ?_
    simp only [BufferChannel.step, Flow.view, List.getElem?_map, hi, Option.map_some, hfree, hq, hdrafts, hhand, hheld,
      SendArgs.message, htake]
  | @nocopyRefused i size src dst g dev m' status hle hi he hst =>
    obtain ⟨-, rfl, hrefused⟩ := sendNocopy_refused he hst
    rw [h.view_same h' (.refl _ _ _)]
    have hget : (Flow.view B m' s.tx x P).drafts[i]? = some (g.area m') := by
      simp only [Flow.view, List.getElem?_map, hi, Option.map_some]
    exact .nocopyRefused hle hget hrefused

/-! ## The receiver -/

/-- The buffer a receiver's step stores into is not one of the sender's. -/
theorem Flow.rx_target (h : Flow B k m tvq rvq t x P) (a : RxAct) : ∀ g ∈ t.gots, a.target x ≠ some g.idx := by
  intro g hg ha
  have hreceiver : ∀ e ∈ x.gots, e.idx ≠ g.idx := fun e he hid => h.tx_not_rx hg (hid ▸ h.mem_rx he)
  have hhand : x.hand.got.head?.map Got.idx ≠ some g.idx := fun ha => by
    obtain ⟨e, he, hid⟩ := Option.map_eq_some_iff.1 ha
    exact hreceiver e (List.mem_append_left _ (List.mem_of_mem_head? he)) hid
  have hheld : ∀ i, x.held[i]?.map Got.idx ≠ some g.idx := fun i ha => by
    obtain ⟨e, he, hid⟩ := Option.map_eq_some_iff.1 ha
    exact hreceiver e (List.mem_append_right _ (List.mem_of_getElem? he)) hid
  cases a with
  | rx => cases ha
  | read => cases ha
  | done => exact hhand ha
  | writeMsg => exact hhand ha
  | writeHeld i => exact hheld i ha
  | releaseRxBuffer i => exact hheld i ha

/-- A step of the receiver is a step of the channel. -/
theorem Flow.receives (h : Flow B k m tvq s.dev.rvq t s.rx P) (h' : Flow B k m' tvq' s'.dev.rvq t s'.rx P')
    (hk : s.dev.role.getKind = k.other) {a : RxAct} (ha : s.rxStep c m a = some (s', m')) (hrun : s'.halted = false) :
    Chan.Receives (Flow.view B m t s.rx P) a (Flow.view B m' t s'.rx P') := by
  have hagree := h.rx_agree hk ha
  have hdrafts : t.owned.map (Got.area m') = t.owned.map (Got.area m) :=
    List.map_congr_left fun g hg => h.draft_same hagree hg (h.rx_target a g (List.mem_append_right _ hg))
  have hcount := h.count
  have hcount' := h'.count
  have hgots : ∀ x : RxHalf, x.gots.length = x.hand.got.length + x.held.length := fun x => by
    rw [RxHalf.gots, List.length_append]
  rw [hgots] at hcount hcount'
  have hqueue := fun hrecv hun => h.queue_view (l := []) h' (List.append_nil _).symm hrecv hun
  simp only [List.append_nil, List.length_nil, Nat.add_zero] at hqueue
  cases Side.rxStep_cases ha with
  | rxNone hidle he =>
    have hq : P.queue = [] := by
      rcases h.linked.rxTake c.clear hk with ⟨hq, -⟩ | ⟨d, q, hq, hget, -⟩
      · exact hq
      · unfold rpmsgLiteRx at he
        rw [hget] at he
        cases he
    rw [h.view_same h' (.refl _ _ _)]
    refine .rxNone ?_ ?_
    · simp only [Flow.view, hidle, RxHand.view]
    · simp only [Flow.view, hq, List.map_nil]
  | @rx dev g hidle he =>
    have hfifo := h.fifo
    rw [h'.fifo, hidle] at hfifo
    simp only [RxHand.unread, List.map_nil, List.append_nil, List.append_assoc] at hfifo
    have hq := List.append_cancel_left hfifo
    have hlen := congrArg List.length hq
    simp only [List.map_cons, List.map_nil, List.singleton_append, List.length_cons, List.length_map] at hq hlen
    simp only [hidle, RxHand.got, List.length_nil, List.length_singleton] at hcount hcount'
    have hfree : P'.free.length = P.free.length := by omega
    refine .rx ?_
    simp only [BufferChannel.step, Flow.view, hidle, RxHand.view, ← hq, hfree]
  | @read g hhand =>
    have hfifo := h.fifo
    rw [h'.fifo, hhand] at hfifo
    simp only [RxHand.unread, List.map_nil, List.map_cons, List.append_nil] at hfifo
    have hq := List.append_cancel_left hfifo
    have hlen := congrArg List.length hq
    simp only [List.length_map] at hlen
    simp only [hhand, RxHand.got, List.length_singleton] at hcount hcount'
    have hfree : P'.free.length = P.free.length := by omega
    have hgot : g ∈ s.rx.gots := List.mem_append_left _ (by rw [hhand]; exact List.mem_cons_self)
    have heq := h.contents.rxGot g hgot
    have hsize : g.len.toNat = B.size := by
      rw [congrArg Got.len heq]
      exact B.toNat_size
    have hfits : (msgAt m g.buffer).len.toNat + 16 ≤ B.size := by
      rw [congrArg Got.buffer heq]
      refine h.contents.inflight_fits (List.mem_append_left _ (List.mem_map_of_mem ?_))
      rw [hhand]
      exact List.mem_singleton_self g
    have harea : (g.area m).take (msgAt m g.buffer).data.length = (msgAt m g.buffer).data := by
      simp only [msgAt, length_block] at hfits ⊢
      exact block_take m _ (by omega)
    have hview : (Flow.view B m t s.rx P).hand = .taken (msgAt m g.buffer) := by simp only [Flow.view, hhand, RxHand.view]
    refine .read hview harea ?_
    simp only [BufferChannel.step, hview]
    simp only [Flow.view, RxHand.view, hq, hfree]
  | doneStuck => cases hrun
  | @done hold g dev m' hhand he =>
    obtain ⟨hq, hlen⟩ := hqueue rfl (by rw [hhand]; rfl)
    have hg : g ∈ s.rx.hand.got := by
      rw [hhand]
      exact List.mem_singleton_self g
    have htarget : (RxAct.done hold).target s.rx = some g.idx := by
      simp only [RxAct.target, hhand, RxHand.got, List.head?_cons, Option.map_some]
    have hheld : s.rx.held.map (Got.area m') = s.rx.held.map (Got.area m) :=
      List.map_congr_left fun e he => h.held_same hagree he fun hid =>
        h.held_ne_hand hg he (Option.some.inj (htarget.symm.trans hid))
    have hview : (Flow.view B m t s.rx P).hand = .seen (g.area m) := by simp only [Flow.view, hhand, RxHand.view]
    simp only [hhand, RxHand.got, List.length_singleton, List.length_nil] at hcount hcount'
    refine .done ?_
    simp only [BufferChannel.step, hview]
    cases hold with
    | true =>
      simp only [if_true, List.length_append, List.length_singleton] at hcount'
      have hfree : P'.free.length = P.free.length := by omega
      unfold rpmsgLiteRxDone at he
      rw [if_pos rfl] at he
      cases he
      have harea : g.area (m.st16 (hdrIdxAt g.buffer) g.idx) = g.area m :=
        block_congr ((frame_st16 m _ _).agree (Or.inr (by simp only [hdrIdxAt, msgDataAt]; omega)))
      simp only [Flow.view, if_true, RxHand.view, List.map_append, List.map_singleton, hheld, harea, hq, hdrafts, hfree]
    | false =>
      simp only [Bool.false_eq_true, if_false] at hcount'
      have hfree : P'.free.length = P.free.length + 1 := by omega
      simp only [Flow.view, Bool.false_eq_true, if_false, RxHand.view, hheld, hq, hdrafts, hfree]
  | @writeMsg off bytes g m' hhand hw =>
    obtain ⟨hq, hlen⟩ := hqueue rfl (by rw [hhand]; rfl)
    have hfree : P'.free.length = P.free.length := by omega
    have hg : g ∈ s.rx.hand.got := by
      rw [hhand]
      exact List.mem_singleton_self g
    have htarget : (RxAct.writeMsg off bytes).target s.rx = some g.idx := by
      simp only [RxAct.target, hhand, RxHand.got, List.head?_cons, Option.map_some]
    have hheld : s.rx.held.map (Got.area m') = s.rx.held.map (Got.area m) :=
      List.map_congr_left fun e he => h.held_same hagree he fun hid =>
        h.held_ne_hand hg he (Option.some.inj (htarget.symm.trans hid))
    obtain ⟨hle, harea⟩ := writePayload_area hw
    have hview : (Flow.view B m t s.rx P).hand = .seen (g.area m) := by simp only [Flow.view, hhand, RxHand.view]
    refine .writeMsg hview hle ?_
    simp only [BufferChannel.step, hview]
    simp only [Flow.view, hhand, RxHand.view, harea, hheld, hq, hdrafts, hfree]
  | @writeHeld i off bytes g m' hi hw =>
    have htarget : (RxAct.writeHeld i off bytes).target s.rx = some g.idx := by
      simp only [RxAct.target, hi, Option.map_some]
    have hg : g ∈ s.rx.held := List.mem_of_getElem? hi
    obtain ⟨hhand, hun⟩ := h.hand_same hagree fun e he hid =>
      h.held_ne_hand he hg (Option.some.inj (htarget.symm.trans hid)).symm
    obtain ⟨hq, hlen⟩ := hqueue rfl hun
    have hfree : P'.free.length = P.free.length := by omega
    obtain ⟨hle, harea⟩ := writePayload_area hw
    have hheld := map_set_of_agree (f := Got.area m) (g := Got.area m') hi h.held_nodup fun e he hne =>
      h.held_same hagree he fun hid => hne (Option.some.inj (htarget.symm.trans hid)).symm
    have hget : (Flow.view B m t s.rx P).held[i]? = some (g.area m) := by
      simp only [Flow.view, List.getElem?_map, hi, Option.map_some]
    refine .writeHeld hget hle ?_
    simp only [BufferChannel.step, hget, Option.map_some]
    simp only [Flow.view, hhand, harea, hheld, hq, hdrafts, hfree]
  | releaseStuck => cases hrun
  | @release i g dev m' hi he =>
    have htarget : (RxAct.releaseRxBuffer i).target s.rx = some g.idx := by
      simp only [RxAct.target, hi, Option.map_some]
    have hg : g ∈ s.rx.held := List.mem_of_getElem? hi
    obtain ⟨hhand, hun⟩ := h.hand_same hagree fun e he hid =>
      h.held_ne_hand he hg (Option.some.inj (htarget.symm.trans hid)).symm
    obtain ⟨hq, hlen⟩ := hqueue rfl hun
    have hset := List.length_eraseIdx_add_one (List.getElem?_eq_some_iff.1 hi).1
    dsimp only at hcount'
    have hfree : P'.free.length = P.free.length + 1 := by omega
    have hheld := map_eraseIdx_of_agree (f := Got.area m) (g := Got.area m') (l := s.rx.held) (i := i) fun e he =>
      h.held_same hagree (List.mem_of_mem_eraseIdx he) fun hid =>
        ne_of_mem_eraseIdx hi h.held_nodup he (Option.some.inj (htarget.symm.trans hid)).symm
    refine .releaseRxBuffer ?_
    simp only [BufferChannel.step, Flow.view, List.getElem?_map, hi, Option.map_some, hhand, hheld, hq, hdrafts, hfree,
      List.eraseIdx_map]

end View

/-! ## The whole link -/

section

variable {W : Pools} {c : LinkConfig} {s s' : Link} {P : ∀ r, Custody (W.pool r).ids} {r : Role}

theorem LinkInv.queueBufs (h : LinkInv W s P) (r : Role) : s.queueBufs r = (P r).queue.map (W.pool r).buffer := by
  unfold Link.queueBufs
  rw [h.queueIds]
  exact List.map_congr_left fun d hd => (h.flow r).linked.descAddr ((P r).mem_queue hd)

theorem LinkInv.channel (h : LinkInv W s P) (r : Role) :
    s.channel r = Flow.view (W.pool r) s.m (s.side r).tx (s.side r.peer).rx (P r) := by
  unfold Link.channel Flow.view
  rw [h.freeIds, h.queueBufs, List.map_map]
  rfl

/-- The buffers of the other direction are left alone. -/
theorem Pools.agreeBut (W : Pools) {m m' : ByteMem} (h : (W.pool r).Touches m m') : (W.pool r.peer).AgreeBut none m m' := by
  intro e he _
  obtain ⟨-, h1, h2⟩ := BufferPool.buffer_bounds he
  exact (h.same (W.peer r)).bufs.mono h1 h2

/-- One channel changes, the other does not. -/
theorem LinkInv.channel_update {f : Role → Side} {m' : ByteMem} {P' : ∀ r, Custody (W.pool r).ids} {p : Role} {ch : Chan}
    (h : LinkInv W s P) (h' : LinkInv W { m := m', side := f } P') (ht : (W.pool p).Touches s.m m')
    (hch : ({ m := m', side := f } : Link).channel p = ch) (htx : (f p.peer).tx = (s.side p.peer).tx)
    (hrx : (f p).rx = (s.side p).rx) : ({ m := m', side := f } : Link).channel = Function.update s.channel p ch := by
  funext q
  rcases p.eq_or_peer q with rfl | rfl
  · rw [Function.update_self, hch]
  · rw [Function.update_of_ne (Role.peer_ne p), h.channel, h'.channel]
    have hflow := h'.flow p.peer
    simp only [Role.peer_peer, htx, hrx] at hflow ⊢
    have hflow₀ := h.flow p.peer
    rw [Role.peer_peer] at hflow₀
    exact hflow₀.view_same hflow (W.agreeBut ht)

theorem update_linkState {f : Role → Side} {x : Side} (h : x.dev.linkState = (f r).dev.linkState) :
    (fun q => (Function.update f r x q).dev.linkState) = fun q => (f q).dev.linkState := by
  funext q
  by_cases hq : q = r
  · subst hq
    rw [Function.update_self, h]
  · rw [Function.update_of_ne hq]

/-- Every step of the link is a step of the channels. -/
theorem LinkInv.simulates (h : LinkInv W s P) (hpay : ∀ r, c.payloadSize + 16 ≤ (W.pool r).size) {a : Act}
    (hs : s.step c r a = some s') : s.duplex.Step c r a s'.duplex := by
  obtain ⟨P', h', -⟩ := h.step hpay hs
  obtain ⟨x, m', ha, rfl⟩ := Link.step_cases hs
  have hne := Role.peer_ne r
  have hrun := h'.running r
  cases a with
  | tx a =>
    obtain ⟨-, -, ht, -, hrvq, hrx, -, -⟩ := (h.flow r).txStep (by rw [h.role r]) (hpay r) ha
    have hflow := h'.flow r
    simp only [Function.update_self, Function.update_of_ne hne] at hflow hrun
    have hsends := (h.flow r).sends hflow (by rw [h.role r]) (hpay r) ha hrun
    have hch := h'.channel r
    simp only [Function.update_self, Function.update_of_ne hne] at hch
    have hchan := h.channel_update h' ht hch (by simp only [Function.update_of_ne hne])
      (by simp only [Function.update_self, hrx])
    have hup := update_linkState (f := s.side) (Side.txStep_linkState ha)
    rw [← h.channel] at hsends
    unfold Link.duplex
    rw [hchan, hup]
    exact .tx hsends
  | rx a =>
    have hin := h.flow r.peer
    rw [Role.peer_peer] at hin
    obtain ⟨-, -, ht, -, htvq, htx, -, -⟩ := hin.rxStep (by rw [h.role r, Role.getKind_peer, RingKind.other_other]) ha
    have hflow := h'.flow r.peer
    simp only [Role.peer_peer, Function.update_self, Function.update_of_ne hne] at hflow hrun
    have hreceives := hin.receives hflow (by rw [h.role r, Role.getKind_peer, RingKind.other_other]) ha hrun
    have hch := h'.channel r.peer
    simp only [Role.peer_peer, Function.update_self, Function.update_of_ne hne] at hch
    have hchan := h.channel_update h' ht hch (by simp only [Role.peer_peer, Function.update_self, htx])
      (by simp only [Function.update_of_ne hne])
    have hup := update_linkState (f := s.side) (Side.rxStep_linkState ha)
    have hview := h.channel r.peer
    rw [Role.peer_peer] at hview
    rw [← hview] at hreceives
    unfold Link.duplex
    rw [hchan, hup]
    exact .rx hreceives
  | txCallback =>
    cases ha
    have htx : ∀ q, (Function.update s.side r { s.side r with dev := rpmsgLiteTxCallback (s.side r).dev } q).tx = (s.side q).tx :=
      fun q => by
        by_cases hq : q = r
        · subst hq
          rw [Function.update_self]
        · rw [Function.update_of_ne hq]
    have hrx : ∀ q, (Function.update s.side r { s.side r with dev := rpmsgLiteTxCallback (s.side r).dev } q).rx = (s.side q).rx :=
      fun q => by
        by_cases hq : q = r
        · subst hq
          rw [Function.update_self]
        · rw [Function.update_of_ne hq]
    have hchan : ({ m := s.m, side := Function.update s.side r { s.side r with dev := rpmsgLiteTxCallback (s.side r).dev } } :
        Link).channel = s.channel := by
      funext q
      rw [h.channel, h'.channel]
      have hflow := h'.flow q
      simp only [htx, hrx] at hflow ⊢
      exact (h.flow q).view_same hflow (.refl _ _ _)
    have hup : (fun q => (Function.update s.side r { s.side r with dev := rpmsgLiteTxCallback (s.side r).dev } q).dev.linkState) =
        Function.update (fun q => (s.side q).dev.linkState) r true := by
      funext q
      by_cases hq : q = r
      · subst hq
        rw [Function.update_self, Function.update_self]
        rfl
      · rw [Function.update_of_ne hq, Function.update_of_ne hq]
    unfold Link.duplex
    rw [hchan, hup]
    exact .txCallback

/-- A sender's step of the channel is possible on the link. -/
theorem Side.txStep_of_sends {a : TxAct} {ch : Chan} (h : (s.channel r).Sends c (s.side r).dev.linkState a ch) :
    ∃ y, (s.side r).txStep c s.m a = some y := by
  have howned : ∀ {i : Nat} {area : List UInt8}, (s.channel r).drafts[i]? = some area →
      ∃ g, (s.side r).tx.owned[i]? = some g ∧ area = g.area s.m := fun hi => by
    simp only [Link.channel, List.getElem?_map] at hi
    obtain ⟨g, hg, rfl⟩ := Option.map_eq_some_iff.1 hi
    exact ⟨g, hg, rfl⟩
  have hsend : ∀ (src dst : UInt32) {data : List UInt8}, data.length ≤ c.limit →
      ∃ y, (s.side r).txStep c s.m (.send src dst data) = some y := fun src dst data hle => by
    simp only [Side.txStep, gt_iff_lt, if_neg (Nat.not_lt.2 hle)]
    split
    · exact ⟨_, rfl⟩
    · exact ⟨_, rfl⟩
  have halloc : ∃ y, (s.side r).txStep c s.m .allocTxBuffer = some y := by
    simp only [Side.txStep]
    split
    · exact ⟨_, rfl⟩
    · exact ⟨_, rfl⟩
  have hnocopy : ∀ {i size : Nat} {g : Got} (src dst : UInt32), (s.side r).tx.owned[i]? = some g → size ≤ c.limit →
      ∃ y, (s.side r).txStep c s.m (.sendNocopy i src dst size) = some y := fun src dst hi hle => by
    simp only [Side.txStep, if_neg (Nat.not_lt.2 hle), hi]
    split
    · exact ⟨_, rfl⟩
    · split
      · exact ⟨_, rfl⟩
      · exact ⟨_, rfl⟩
  cases h with
  | sendRefused hle => exact hsend _ _ hle
  | send hle => exact hsend _ _ hle
  | fill h =>
    cases BufferChannel.step_cases h with
    | fill hi =>
      simp only [Link.channel, List.getElem?_map] at hi
      obtain ⟨e, hi, -⟩ := Option.map_eq_some_iff.1 hi
      simp only [Side.txStep, hi]
      exact ⟨_, rfl⟩
  | enqueue h =>
    cases BufferChannel.step_cases h with
    | enqueue hi =>
      simp only [Link.channel, List.getElem?_map] at hi
      obtain ⟨e, hi, he⟩ := Option.map_eq_some_iff.1 hi
      have hf : e.filled = true := (Prod.mk.inj he).2
      simp only [Side.txStep, hi, hf, Bool.not_true, Bool.false_eq_true, if_false]
      split
      · exact ⟨_, rfl⟩
      · exact ⟨_, rfl⟩
  | allocRefused => exact halloc
  | allocTxBuffer => exact halloc
  | @write i off bytes area ch hi hle =>
    obtain ⟨g, hg, rfl⟩ := howned hi
    rw [Got.area, length_block] at hle
    simp only [Side.txStep, writePayload, hg, if_pos hle]
    exact ⟨_, rfl⟩
  | nocopyRefused hle hi =>
    obtain ⟨g, hi, -⟩ := howned hi
    exact hnocopy _ _ hi hle
  | sendNocopy hle _ _ h =>
    cases BufferChannel.step_cases h with
    | publish hi =>
      obtain ⟨g, hi, -⟩ := howned hi
      exact hnocopy _ _ hi hle

/-- A receiver's step of the channel is possible on the link. -/
theorem Side.rxStep_of_receives {a : RxAct} {ch : Chan} (h : (s.channel r.peer).Receives a ch) :
    ∃ y, (s.side r).rxStep c s.m a = some y := by
  have hheld : ∀ {i : Nat} {area : List UInt8}, (s.channel r.peer).held[i]? = some area →
      ∃ g, (s.side r).rx.held[i]? = some g ∧ area = g.area s.m := fun hi => by
    simp only [Link.channel, Role.peer_peer, List.getElem?_map] at hi
    obtain ⟨g, hg, rfl⟩ := Option.map_eq_some_iff.1 hi
    exact ⟨g, hg, rfl⟩
  have hhand : (s.channel r.peer).hand = (s.side r).rx.hand.view s.m := by
    simp only [Link.channel, Role.peer_peer]
  have hidle : (s.channel r.peer).hand = .idle → (s.side r).rx.hand = .idle := fun hh => by
    rw [hhand] at hh
    cases hx : (s.side r).rx.hand with
    | idle => rfl
    | taken => rw [hx] at hh; cases hh
    | seen => rw [hx] at hh; cases hh
  have hseen : ∀ {area}, (s.channel r.peer).hand = .seen area → ∃ g, (s.side r).rx.hand = .seen g ∧ area = g.area s.m :=
    fun hh => by
      rw [hhand] at hh
      cases hx : (s.side r).rx.hand with
      | idle => rw [hx] at hh; cases hh
      | taken => rw [hx] at hh; cases hh
      | seen g => rw [hx] at hh; cases hh; exact ⟨g, rfl, rfl⟩
  have hrx : (s.side r).rx.hand = .idle → ∃ y, (s.side r).rxStep c s.m .rx = some y := fun hi => by
    simp only [Side.rxStep, hi, ne_eq, not_true_eq_false, if_false]
    split
    · exact ⟨_, rfl⟩
    · exact ⟨_, rfl⟩
  cases h with
  | rxNone hh => exact hrx (hidle hh)
  | rx h =>
    cases BufferChannel.step_cases h with
    | take hh => exact hrx (hidle hh)
  | read hh =>
    rw [hhand] at hh
    cases hx : (s.side r).rx.hand with
    | idle => rw [hx] at hh; cases hh
    | seen => rw [hx] at hh; cases hh
    | taken g =>
      simp only [Side.rxStep, hx]
      exact ⟨_, rfl⟩
  | done h =>
    cases BufferChannel.step_cases h with
    | done hh =>
      obtain ⟨g, hx, -⟩ := hseen hh
      simp only [Side.rxStep, hx]
      split
      · exact ⟨_, rfl⟩
      · exact ⟨_, rfl⟩
  | writeMsg hh hle =>
    obtain ⟨g, hx, rfl⟩ := hseen hh
    rw [Got.area, length_block] at hle
    simp only [Side.rxStep, writePayload, hx, if_pos hle]
    exact ⟨_, rfl⟩
  | writeHeld hi hle =>
    obtain ⟨g, hg, rfl⟩ := hheld hi
    rw [Got.area, length_block] at hle
    simp only [Side.rxStep, writePayload, hg, if_pos hle]
    exact ⟨_, rfl⟩
  | releaseRxBuffer h =>
    cases BufferChannel.step_cases h with
    | release hi =>
      obtain ⟨g, hi, -⟩ := hheld hi
      simp only [Side.rxStep, hi]
      split
      · exact ⟨_, rfl⟩
      · exact ⟨_, rfl⟩

/-- What the channels allow the link can do. -/
theorem LinkInv.enabled (h : LinkInv W s P) {a : Act} {d : Duplex} (hd : s.duplex.Step c r a d) :
    ∃ s', s.step c r a = some s' := by
  have hrun := h.running r
  obtain ⟨y, hy⟩ : ∃ y, (s.side r).step c s.m a = some y := by
    cases hd with
    | tx hd => exact Side.txStep_of_sends hd
    | rx hd => exact Side.rxStep_of_receives hd
    | txCallback => exact ⟨_, rfl⟩
  refine ⟨{ m := y.2, side := Function.update s.side r y.1 }, ?_⟩
  unfold Link.step
  rw [if_neg (by rw [hrun]; exact Bool.false_ne_true), hy]
  rfl

/-- The states of the runs of the channels. -/
inductive Duplex.Reachable (c : LinkConfig) (d₀ : Duplex) : Duplex → Prop
  | start : Reachable c d₀ d₀
  | step {d d' : Duplex} {r : Role} {a : Act} (h : Reachable c d₀ d) (hd : d.Step c r a d') : Reachable c d₀ d'

/-- Every run of the link is a run of the channels. -/
theorem LinkInv.duplex_reachable (h : LinkInv W s P) (hpay : ∀ r, c.payloadSize + 16 ≤ (W.pool r).size)
    (hs : Link.Reachable c s s') : Duplex.Reachable c s.duplex s'.duplex := by
  induction hs with
  | start => exact .start
  | step hs hstep ih =>
    obtain ⟨P', h'⟩ := h.reachable hpay hs
    exact ih.step (h'.simulates hpay hstep)

/-- Cores with empty hands see empty channels. -/
theorem LinkInv.channel_start (h : LinkInv W s P) (htx : (s.side r).tx = ⟨[], [], []⟩)
    (hrx : (s.side r.peer).rx = ⟨.idle, [], []⟩) :
    s.channel r = .empty (W.pool r).vr.num := by
  have hflow := h.flow r
  have hfifo := hflow.fifo
  have hcount := hflow.count
  rw [htx, hrx] at hfifo hcount
  simp only [List.map_nil, RxHand.unread, List.nil_append] at hfifo
  have hq : (P r).queue = [] := List.map_eq_nil_iff.1 hfifo.symm
  simp only [TxHalf.gots, RxHalf.gots, RxHand.got, List.map_nil, List.append_nil, List.length_nil, hq] at hcount
  rw [h.channel, htx, hrx]
  unfold Flow.view BufferChannel.empty
  rw [hq, ← hcount]
  rfl

end

/-! ## Every run -/

section

variable {w : Nat} {p : ShmemParams} {addr : Nat} {env envR : InitEnv} {highestM highestR linkId : UInt32}
  {cfg : ShmemConfig} {length : Nat} {m m' : ByteMem} {dm dr : RpmsgLiteInstance} {c : LinkConfig} {s : Link}

/-- After both initialisations every buffer is free, and only the master may send. -/
theorem duplex_start (hm : rpmsgLiteMasterInit w env highestM cfg addr length linkId m = .instance dm m')
    (hr : rpmsgLiteRemoteInit w envR highestR cfg addr linkId = some dr) (hlen : addr + length ≤ 2 ^ 32)
    (hp : masterParams w cfg = some p) (hok : LinkReady w cfg addr p m) :
    (Link.start m' dm dr).duplex = .start p.count.toNat fun r => r = .master := by
  obtain ⟨P, hinv⟩ := linkInv_start hm hr hlen hp hok
  obtain ⟨pm, count, hrun⟩ := masterInit_run hm
  obtain ⟨pr, -, -, -, -, -, hdown, -⟩ := remoteInit_shape hr
  have hchan : (Link.start m' dm dr).channel = fun _ => .empty p.count.toNat := by
    funext r
    rw [hinv.channel_start (by cases r <;> rfl) (by cases r <;> rfl), hok.layout.pool_vr_num]
  have hup : (fun r => ((Link.start m' dm dr).side r).dev.linkState) = fun r : Role => decide (r = .master) := by
    funext r
    cases r with
    | master => exact hrun.shape.up
    | remote => exact hdown
  unfold Link.duplex
  rw [hchan, hup]
  rfl

/-- From a ready start the two cores cannot tell the shared memory from two bounded channels: every run of the link is a
run of the channels, in every state of it a step of a core is a step of the channels, and each step of the channels is
possible on the link. -/
theorem link_refines_channels (hm : rpmsgLiteMasterInit w env highestM cfg addr length linkId m = .instance dm m')
    (hr : rpmsgLiteRemoteInit w envR highestR cfg addr linkId = some dr) (hlen : addr + length ≤ 2 ^ 32)
    (hp : masterParams w cfg = some p) (hok : LinkReady w cfg addr p m) (hc : c.payloadSize = cfg.payloadSize)
    (h : Link.Reachable c (Link.start m' dm dr) s) :
    Duplex.Reachable c (.start p.count.toNat fun r => r = .master) s.duplex ∧
      ∀ r a, (∀ s', s.step c r a = some s' → s.duplex.Step c r a s'.duplex) ∧
        ((∃ s', s.step c r a = some s') ↔ ∃ d, s.duplex.Step c r a d) := by
  have hpay := hok.pool_payload hc
  obtain ⟨P₀, h₀⟩ := linkInv_start hm hr hlen hp hok
  obtain ⟨P, hinv⟩ := h₀.reachable hpay h
  have hreach := h₀.duplex_reachable hpay h
  rw [duplex_start hm hr hlen hp hok] at hreach
  refine ⟨hreach, fun r a => ⟨fun s' hs => hinv.simulates hpay hs, ?_, ?_⟩⟩
  · rintro ⟨s', hs⟩
    exact ⟨_, hinv.simulates hpay hs⟩
  · rintro ⟨d, hd⟩
    exact hinv.enabled hd

/-- Over cleared memory, after three bytes have arrived. -/
theorem link_refines_channels_three : ∃ dm m' dr s,
    rpmsgLiteMasterInit 32 InitEnv.ok 0 (.build (headerTwo 64 (by decide) (by decide))) 4124 512 0 (fun _ => 0) =
      .instance dm m' ∧
    rpmsgLiteRemoteInit 32 InitEnv.ok 0 (.build (headerTwo 64 (by decide) (by decide))) 4124 0 = some dr ∧
    (Link.start m' dm dr).run ⟨false, 16, 16⟩ sendThree = some s ∧
    Duplex.Reachable ⟨false, 16, 16⟩ (.start 2 fun r => r = .master) s.duplex := by
  obtain ⟨dm, m', dr, hm, hr, ht⟩ := Link.of_check_two 0
    (fun dm m' dr => ((Link.start m' dm dr).run ⟨false, 16, 16⟩ sendThree).isSome) (by decide +kernel)
  obtain ⟨s, hs⟩ := Option.isSome_iff_exists.1 ht
  refine ⟨dm, m', dr, s, hm, hr, hs, ?_⟩
  exact (link_refines_channels hm hr (by decide) rfl linkReady_two rfl (Link.reachable_of_run .start hs)).1

end

end RpmsgLite
