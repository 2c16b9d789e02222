/-
What the buffers hold. `Contents` is the part of the link's invariant that speaks about the bytes of
the buffers: every buffer in somebody's hands keeps its descriptor index or its message, and the
messages enqueued and not yet read are in the inflight buffers, in order. A store into one buffer
leaves all others alone.
-/
import RpmsgLite.Link.Pool
import RpmsgLite.Link.System

namespace RpmsgLite

open ByteMem

/-! ## Messages in memory -/

section Messages

variable {m m' : ByteMem} {b size : Nat}

theorem block_take (m : ByteMem) (a : Nat) {k n : Nat} (h : k ≤ n) : (m.block a n).take k = m.block a k := by
  unfold block
  rw [← List.map_take, List.take_range, Nat.min_eq_left h]

/-- A message that fits its buffer depends only on the buffer. -/
theorem msgAt_congr (h : Agree m m' b (b + size)) (hl : (msgAt m b).len.toNat + 16 ≤ size) : msgAt m' b = msgAt m b := by
  simp only [msgAt] at hl
  have hlen : m'.ld16 (hdrLenAt b) = m.ld16 (hdrLenAt b) :=
    ld16_congr (h.mono (by simp only [hdrLenAt]; omega) (by simp only [hdrLenAt]; omega))
  unfold msgAt
  rw [hlen, ld32_congr (h.mono (by simp only [hdrSrcAt]; omega) (by simp only [hdrSrcAt]; omega)),
    ld32_congr (h.mono (by simp only [hdrDstAt]; omega) (by simp only [hdrDstAt]; omega)),
    block_congr (h.mono (by simp only [msgDataAt]; omega) (by simp only [msgDataAt]; omega))]

theorem Msg.of_len_le (src dst : UInt32) (data : List UInt8) : (Msg.of src dst data).len.toNat ≤ data.length := by
  simp only [Msg.of, UInt16.toNat_ofNat']; exact Nat.mod_le _ _

/-- The header stores touch neither the descriptor index nor the payload. -/
theorem writeHdr_spec (m : ByteMem) (b : Nat) (src dst : UInt32) (n : Nat) :
    Frame m (writeHdr m b src dst n) b (b + 16) ∧
    (writeHdr m b src dst n).ld16 (hdrIdxAt b) = m.ld16 (hdrIdxAt b) ∧
    (writeHdr m b src dst n).ld32 (hdrSrcAt b) = src ∧
    (writeHdr m b src dst n).ld32 (hdrDstAt b) = dst ∧
    (writeHdr m b src dst n).ld16 (hdrLenAt b) = UInt16.ofNat n := by
  unfold writeHdr
  simp only
  have f1 := frame_st32 m (hdrDstAt b) dst
  generalize hm1 : m.st32 (hdrDstAt b) dst = m1 at f1
  have f2 := frame_st32 m1 (hdrSrcAt b) src
  generalize hm2 : m1.st32 (hdrSrcAt b) src = m2 at f2
  have f3 := frame_st16 m2 (hdrLenAt b) (UInt16.ofNat n)
  generalize hm3 : m2.st16 (hdrLenAt b) (UInt16.ofNat n) = m3 at f3
  have f4 := frame_st16 m3 (hdrFlagsAt b) RL_NO_FLAGS
  simp only [hdrIdxAt, hdrSrcAt, hdrDstAt, hdrLenAt, hdrFlagsAt] at *
  refine ⟨?_, ?_, ?_, ?_, ?_⟩
  · exact (((f1.mono (by omega) (by omega)).trans (f2.mono (by omega) (by omega))).trans
      (f3.mono (by omega) (by omega))).trans (f4.mono (by omega) (by omega))
  · rw [ld16_congr (f4.agree (by omega)), ld16_congr (f3.agree (by omega)), ld16_congr (f2.agree (by omega)),
      ld16_congr (f1.agree (by omega))]
  · rw [ld32_congr (f4.agree (by omega)), ld32_congr (f3.agree (by omega)), ← hm2, ld32_st32]
  · rw [ld32_congr (f4.agree (by omega)), ld32_congr (f3.agree (by omega)), ld32_congr (f2.agree (by omega)), ← hm1,
      ld32_st32]
  · rw [ld16_congr (f4.agree (by omega)), ← hm3, ld16_st16]

/-- After the header stores the buffer holds the message with the payload that was in it. -/
theorem msgAt_writeHdr (m : ByteMem) (b : Nat) (src dst : UInt32) (n : Nat) :
    msgAt (writeHdr m b src dst n) b = (Msg.of src dst (m.block (msgDataAt b) n)).seen := by
  obtain ⟨hf, -, hsrc, hdst, hlen⟩ := writeHdr_spec m b src dst n
  unfold msgAt Msg.of Msg.seen
  simp only [hsrc, hdst, hlen, length_block]
  rw [block_take _ _ (by rw [UInt16.toNat_ofNat']; exact Nat.mod_le _ _)]
  rw [block_congr (hf.agree (by simp only [msgDataAt]; omega))]

/-- What a send stores reads back as its message. -/
theorem rpmsgLiteFormatMessage_spec (m : ByteMem) (g : Got) (src dst : UInt32) (data : List UInt8) :
    Frame m (rpmsgLiteFormatMessage m g src dst data) g.buffer (g.buffer + 16 + data.length) ∧
    msgAt (rpmsgLiteFormatMessage m g src dst data) g.buffer = (Msg.of src dst data).seen := by
  obtain ⟨hf, -, hsrc, hdst, hlen⟩ := writeHdr_spec m g.buffer src dst data.length
  unfold rpmsgLiteFormatMessage
  have fc := frame_copy (writeHdr m g.buffer src dst data.length) (msgDataAt g.buffer) data
  have hdata := block_copy (writeHdr m g.buffer src dst data.length) (msgDataAt g.buffer) data
  generalize (writeHdr m g.buffer src dst data.length).copy (msgDataAt g.buffer) data = m' at fc hdata
  simp only [msgDataAt] at fc
  refine ⟨(hf.mono le_rfl (by omega)).trans (fc.mono (by omega) (by omega)), ?_⟩
  have hlen' : m'.ld16 (hdrLenAt g.buffer) = UInt16.ofNat data.length := by
    rw [ld16_congr (fc.agree (by simp only [hdrLenAt]; omega)), hlen]
  unfold msgAt Msg.of Msg.seen
  simp only [hlen']
  rw [ld32_congr (fc.agree (by simp only [hdrSrcAt]; omega)), ld32_congr (fc.agree (by simp only [hdrDstAt]; omega)),
    hsrc, hdst, ← block_take m' (msgDataAt g.buffer) (n := data.length)
      (by rw [UInt16.toNat_ofNat']; exact Nat.mod_le _ _), hdata]

end Messages

/-! ## The invariant of the buffers -/

/-- The descriptors whose messages are enqueued and not read. -/
def RxHalf.inflight (x : RxHalf) (queue : List UInt16) : List UInt16 := x.hand.unread.map Got.idx ++ queue

theorem RxHand.unread_sub {hand : RxHand} {g : Got} (h : g ∈ hand.unread) : g ∈ hand.got := by
  cases hand with
  | idle => exact h
  | taken e => exact h
  | seen e => cases h

structure Contents (B : BufferPool) (m : ByteMem) (t : TxHalf) (x : RxHalf) (queue : List UInt16) : Prop where
  txGot : ∀ g ∈ t.gots, g = B.got g.idx
  rxGot : ∀ g ∈ x.gots, g = B.got g.idx
  txKept : ∀ g ∈ t.owned, m.ld16 (hdrIdxAt (B.buffer g.idx)) = g.idx
  rxKept : ∀ g ∈ x.held, m.ld16 (hdrIdxAt (B.buffer g.idx)) = g.idx
  filled : ∀ e ∈ t.sending, e.filled = true → msgAt m (B.buffer e.id) = (Msg.of e.src e.dst e.data).seen
  fits : ∀ e ∈ t.sending, e.data.length + 16 ≤ B.size
  small : ∀ msg ∈ t.sent, msg.len.toNat + 16 ≤ B.size
  fifo : t.sent.map Msg.seen = x.recv ++ (x.inflight queue).map fun d => msgAt m (B.buffer d)

namespace Contents

variable {B : BufferPool} {m m' : ByteMem} {t t' : TxHalf} {x x' : RxHalf} {queue : List UInt16}

/-- An inflight message fits its buffer. -/
theorem inflight_fits (h : Contents B m t x queue) {d : UInt16} (hd : d ∈ x.inflight queue) :
    (msgAt m (B.buffer d)).len.toNat + 16 ≤ B.size := by
  have hmem : msgAt m (B.buffer d) ∈ t.sent.map Msg.seen := by
    rw [h.fifo]
    exact List.mem_append_right _ (List.mem_map_of_mem hd)
  obtain ⟨msg, hmsg, he⟩ := List.mem_map.1 hmem
  rw [← he]
  exact h.small msg hmsg

/-- A change that reaches the buffer of `d` at most; `d` is not inflight. -/
theorem store (h : Contents B m t x queue) {d : UInt16} (hf : Frame m m' (B.buffer d) (B.buffer d + B.size))
    (hq : d ∉ x.inflight queue)
    (htx : ∀ g ∈ t.owned, g.idx = d → m'.ld16 (hdrIdxAt (B.buffer d)) = d)
    (hrx : ∀ g ∈ x.held, g.idx = d → m'.ld16 (hdrIdxAt (B.buffer d)) = d)
    (hfill : ∀ e ∈ t.sending, e.id = d → e.filled = true → msgAt m' (B.buffer d) = (Msg.of e.src e.dst e.data).seen) :
    Contents B m' t x queue := by
  have hsz := B.size_ge
  have hother : ∀ e, e ≠ d → Agree m m' (B.buffer e) (B.buffer e + B.size) := fun e he =>
    hf.agree (BufferPool.buffer_apart he)
  have hidx : ∀ e, e ≠ d → m'.ld16 (hdrIdxAt (B.buffer e)) = m.ld16 (hdrIdxAt (B.buffer e)) := fun e he =>
    ld16_congr ((hother e he).mono (by simp only [hdrIdxAt]; omega) (by simp only [hdrIdxAt]; omega))
  refine ⟨h.txGot, h.rxGot, ?_, ?_, ?_, h.fits, h.small, ?_⟩
  · intro g hg
    by_cases he : g.idx = d
    · rw [he]; exact htx g hg he
    · rw [hidx _ he]; exact h.txKept g hg
  · intro g hg
    by_cases he : g.idx = d
    · rw [he]; exact hrx g hg he
    · rw [hidx _ he]; exact h.rxKept g hg
  · intro e he hfl
    by_cases hd : e.id = d
    · rw [hd]; exact hfill e he hd hfl
    · have hmsg := h.filled e he hfl
      rw [← hmsg]
      refine msgAt_congr (hother _ hd) ?_
      rw [hmsg]
      have h1 := Msg.of_len_le e.src e.dst e.data
      have h2 := h.fits e he
      simp only [Msg.seen]; omega
  · rw [h.fifo]
    congr 1
    refine List.map_congr_left fun e he => ?_
    have hne : e ≠ d := fun hd => hq (hd ▸ he)
    exact (msgAt_congr (hother e hne) (h.inflight_fits he)).symm

/-- A change outside every buffer. -/
theorem congr (h : Contents B m t x queue) (ha : ∀ d, d ∈ B.ids → Agree m m' (B.buffer d) (B.buffer d + B.size))
    (htx : ∀ g ∈ t.gots, g.idx ∈ B.ids) (hrx : ∀ g ∈ x.gots, g.idx ∈ B.ids) (hq : ∀ d ∈ queue, d ∈ B.ids) :
    Contents B m' t x queue := by
  have hsz := B.size_ge
  have hidx : ∀ d ∈ B.ids, m'.ld16 (hdrIdxAt (B.buffer d)) = m.ld16 (hdrIdxAt (B.buffer d)) := fun d hd =>
    ld16_congr ((ha d hd).mono (by simp only [hdrIdxAt]; omega) (by simp only [hdrIdxAt]; omega))
  refine ⟨h.txGot, h.rxGot, ?_, ?_, ?_, h.fits, h.small, ?_⟩
  · intro g hg
    rw [hidx _ (htx g (List.mem_append_right _ hg))]; exact h.txKept g hg
  · intro g hg
    rw [hidx _ (hrx g (List.mem_append_right _ hg))]; exact h.rxKept g hg
  · intro e he hfl
    have hmsg := h.filled e he hfl
    rw [← hmsg]
    refine msgAt_congr (ha _ (htx e.got (List.mem_append_left _ (List.mem_map_of_mem he)))) ?_
    rw [hmsg]
    have h1 := Msg.of_len_le e.src e.dst e.data
    have h2 := h.fits e he
    simp only [Msg.seen]; omega
  · rw [h.fifo]
    congr 1
    refine List.map_congr_left fun d hd => (msgAt_congr (ha d ?_) (h.inflight_fits hd)).symm
    rcases List.mem_append.1 hd with hu | hd
    · obtain ⟨g, hg, rfl⟩ := List.mem_map.1 hu
      exact hrx g (List.mem_append_left _ (RxHand.unread_sub hg))
    · exact hq d hd

/-- Fewer buffers in the hands, the same messages. -/
theorem mono (h : Contents B m t x queue) (hs : ∀ e ∈ t'.sending, e ∈ t.sending) (ho : ∀ g ∈ t'.owned, g ∈ t.owned)
    (hsent : t'.sent = t.sent) (hhand : ∀ g ∈ x'.hand.got, g ∈ x.hand.got) (hheld : ∀ g ∈ x'.held, g ∈ x.held)
    (hun : x'.hand.unread = x.hand.unread) (hrecv : x'.recv = x.recv) : Contents B m t' x' queue := by
  refine ⟨?_, ?_, fun g hg => h.txKept g (ho g hg), fun g hg => h.rxKept g (hheld g hg),
    fun e he => h.filled e (hs e he), fun e he => h.fits e (hs e he), ?_, ?_⟩
  · intro g hg
    rcases List.mem_append.1 hg with hg | hg
    · obtain ⟨e, he, rfl⟩ := List.mem_map.1 hg
      exact h.txGot _ (List.mem_append_left _ (List.mem_map_of_mem (hs e he)))
    · exact h.txGot _ (List.mem_append_right _ (ho g hg))
  · intro g hg
    rcases List.mem_append.1 hg with hg | hg
    · exact h.rxGot _ (List.mem_append_left _ (hhand g hg))
    · exact h.rxGot _ (List.mem_append_right _ (hheld g hg))
  · rw [hsent]; exact h.small
  · rw [hsent, h.fifo, hrecv]
    unfold RxHalf.inflight
    rw [hun]

end Contents

end RpmsgLite
