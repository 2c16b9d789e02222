/-
One vring with its buffers, between a sender and a receiver. The sender's virtqueue takes free
descriptors from one of the two rings and publishes messages on the other; the receiver's does the
reverse. `Linked` says that the two virtqueues and the shared memory represent a custody of the
descriptors, and each operation of a virtqueue is one move of that custody.
-/
import RpmsgLite.Init.Layout
import RpmsgLite.Lib.Custody
import RpmsgLite.Link.Ops

namespace RpmsgLite

open ByteMem

/-! ## Pools -/

/-- A vring and the buffers its descriptors name: the `lo`th of the shared memory and the following,
which lie apart from the tables. -/
structure BufferPool where
  vr : Vring
  base : Nat
  size : Nat
  lo : Nat
  laid : vr.Laid
  base_pos : 0 < base
  size_ge : 16 ≤ size
  top : base + size * (lo + vr.num) ≤ 2 ^ 32
  apart : Apart vr.desc vr.usedEnd (base + size * lo) (base + size * (lo + vr.num))

namespace BufferPool

variable (B : BufferPool)

/-- The buffer of a descriptor. -/
def buffer (d : UInt16) : Nat := bufferAt B.base B.size (B.lo + d.toNat)

/-- What the virtqueue operations hand out for a descriptor. -/
def got (d : UInt16) : Got := ⟨B.buffer d, UInt32.ofNat B.size, d⟩

/-- All descriptors. -/
def ids : Multiset UInt16 := ((List.range B.vr.num).map UInt16.ofNat : List UInt16)

/-- Where the buffers start and end. -/
def bufLo : Nat := B.base + B.size * B.lo
def bufHi : Nat := B.base + B.size * (B.lo + B.vr.num)

/-- The bytes of the pool: its tables and its buffers. -/
def Touches (m m' : ByteMem) : Prop :=
  ∀ a, a < B.vr.desc ∨ B.vr.usedEnd ≤ a → a < B.bufLo ∨ B.bufHi ≤ a → m' a = m a

/-- Two memories hold the same bytes in the pool. -/
structure Same (m m' : ByteMem) : Prop where
  tables : Agree m m' B.vr.desc B.vr.usedEnd
  bufs : Agree m m' B.bufLo B.bufHi

theorem num_le : B.vr.num ≤ 32768 := B.laid.size.le

theorem mem_ids {d : UInt16} : d ∈ B.ids ↔ d.toNat < B.vr.num := by
  unfold ids
  rw [Multiset.mem_coe, List.mem_map]
  have hle := B.num_le
  constructor
  · rintro ⟨i, hi, rfl⟩
    have hi := List.mem_range.1 hi
    rw [UInt16.toNat_ofNat_of_lt' (by simp only [UInt16.size]; omega)]
    exact hi
  · exact fun h => ⟨d.toNat, List.mem_range.2 h, UInt16.ofNat_toNat⟩

theorem ids_nodup : B.ids.Nodup := by
  unfold ids
  rw [Multiset.coe_nodup]
  refine List.Nodup.map_on ?_ List.nodup_range
  intro i hi j hj h
  have hle := B.num_le
  have hi := List.mem_range.1 hi
  have hj := List.mem_range.1 hj
  have := congrArg UInt16.toNat h
  rwa [UInt16.toNat_ofNat_of_lt' (by simp only [UInt16.size]; omega),
    UInt16.toNat_ofNat_of_lt' (by simp only [UInt16.size]; omega)] at this

@[simp] theorem card_ids : B.ids.card = B.vr.num := by simp [ids]

variable {B}

/-- The buffer of a descriptor lies inside the pool. -/
theorem buffer_bounds {d : UInt16} (hd : d ∈ B.ids) :
    0 < B.buffer d ∧ B.bufLo ≤ B.buffer d ∧ B.buffer d + B.size ≤ B.bufHi := by
  have hd := B.mem_ids.1 hd
  have hpos := B.base_pos
  have hle := bufferAt_le B.base B.size (show B.lo + d.toNat < B.lo + B.vr.num by omega)
  have hge : B.size * B.lo ≤ B.size * (B.lo + d.toNat) := Nat.mul_le_mul_left _ (by omega)
  unfold buffer
  unfold bufferAt at hle ⊢
  unfold bufLo bufHi
  omega

theorem bufHi_le (B : BufferPool) : B.bufHi ≤ 2 ^ 32 := B.top

theorem buffer_apart {d e : UInt16} (h : d ≠ e) :
    Apart (B.buffer d) (B.buffer d + B.size) (B.buffer e) (B.buffer e + B.size) :=
  bufferAt_apart B.base B.size fun he => h (UInt16.toNat_inj.1 (by omega))

theorem size_lt (B : BufferPool) : B.size < 2 ^ 32 := by
  have h1 := B.base_pos
  have h2 := B.top
  have h3 := B.laid.size.pos
  have : B.size * 1 ≤ B.size * (B.lo + B.vr.num) := Nat.mul_le_mul_left _ (by omega)
  omega

@[simp] theorem toNat_size (B : BufferPool) : (UInt32.ofNat B.size).toNat = B.size :=
  UInt32.toNat_ofNat_of_lt' (by simpa [UInt32.size] using B.size_lt)

variable {m m' m'' : ByteMem}

theorem Touches.refl (B : BufferPool) (m : ByteMem) : B.Touches m m := fun _ _ _ => rfl

theorem Touches.trans (h : B.Touches m m') (h' : B.Touches m' m'') : B.Touches m m'' :=
  fun a h1 h2 => (h' a h1 h2).trans (h a h1 h2)

theorem touches_tables {lo hi : Nat} (h : Frame m m' lo hi) (hlo : B.vr.desc ≤ lo) (hhi : hi ≤ B.vr.usedEnd) :
    B.Touches m m' := fun a h1 _ => h a (by omega)

/-- Stores into a buffer stay in the pool. -/
theorem touches_buffer {d : UInt16} (hd : d ∈ B.ids) {lo hi : Nat} (h : Frame m m' lo hi) (hlo : B.buffer d ≤ lo)
    (hhi : hi ≤ B.buffer d + B.size) : B.Touches m m' := by
  obtain ⟨-, h1, h2⟩ := buffer_bounds hd
  exact fun a _ h3 => h a (by omega)

/-- Two pools without a common byte. -/
structure Separate (B B' : BufferPool) : Prop where
  tables : Apart B.vr.desc B.vr.usedEnd B'.vr.desc B'.vr.usedEnd
  tablesBufs : Apart B.vr.desc B.vr.usedEnd B'.bufLo B'.bufHi
  bufsTables : Apart B.bufLo B.bufHi B'.vr.desc B'.vr.usedEnd
  bufs : Apart B.bufLo B.bufHi B'.bufLo B'.bufHi

theorem Touches.same {B' : BufferPool} (h : B.Touches m m') (hs : Separate B B') : B'.Same m m' := by
  have h1 := hs.tables
  have h2 := hs.tablesBufs
  have h3 := hs.bufsTables
  have h4 := hs.bufs
  unfold Apart at h1 h2 h3 h4
  exact ⟨fun a _ _ => h a (by omega) (by omega), fun a _ _ => h a (by omega) (by omega)⟩

end BufferPool

/-! ## The representation -/

/-- The virtqueues of the sender and of the receiver and the shared memory represent a custody of the
pool's descriptors; `k` is the ring of the free ones. -/
structure Linked (B : BufferPool) (k : RingKind) (m : ByteMem) (tvq rvq : Virtqueue) (P : Custody B.ids) : Prop where
  tvq_wf : tvq.Wf
  tvq_ring : tvq.ring = B.vr
  rvq_wf : rvq.Wf
  rvq_ring : rvq.ring = B.vr
  desc : B.vr.DescIs m B.vr.num B.base B.size B.lo
  free : B.vr.PendingIs m k (tvq.cursor k) P.free (UInt32.ofNat B.size)
  queue : B.vr.PendingIs m k.other (rvq.cursor k.other) P.queue (UInt32.ofNat B.size)

namespace Linked

variable {B : BufferPool} {k : RingKind} {m m' : ByteMem} {tvq rvq : Virtqueue} {P : Custody B.ids}

/-- The receiver is a sender of free descriptors. -/
theorem swap (h : Linked B k m tvq rvq P) : Linked B k.other m rvq tvq P.swap :=
  ⟨h.rvq_wf, h.rvq_ring, h.tvq_wf, h.tvq_ring, h.desc, h.queue, by rw [RingKind.other_other]; exact h.free⟩

theorem unswap (h : Linked B k.other m rvq tvq P) : Linked B k m tvq rvq P.swap := by
  have := h.swap
  rwa [RingKind.other_other] at this

theorem congr (h : Linked B k m tvq rvq P) (ha : Agree m m' B.vr.desc B.vr.usedEnd) : Linked B k m' tvq rvq P := by
  have hring : ∀ k, Agree m m' (B.vr.ringLo k) (B.vr.ringHi k) := fun k =>
    ha.mono (B.laid.desc_le_ringLo k) (B.laid.ringHi_le k)
  exact ⟨h.tvq_wf, h.tvq_ring, h.rvq_wf, h.rvq_ring, h.desc.congr le_rfl (ha.mono le_rfl B.laid.descEnd_le_usedEnd),
    h.free.congr B.laid.size.pos (hring _), h.queue.congr B.laid.size.pos (hring _)⟩

/-- The kick's count of queued entries plays no part. -/
theorem kick (h : Linked B k m tvq rvq P) (c : UInt16) : Linked B k m { tvq with queuedCnt := c } rvq P :=
  ⟨⟨h.tvq_wf.laid, h.tvq_wf.num_eq⟩, h.tvq_ring, h.rvq_wf, h.rvq_ring, h.desc, by cases k <;> exact h.free, h.queue⟩

theorem le_nentries (h : Linked B k m tvq rvq P) {d : UInt16} (hd : d ∈ B.ids) : d ≤ tvq.nentries := by
  have hd := B.mem_ids.1 hd
  have hn := h.tvq_wf.num_eq
  rw [h.tvq_ring] at hn
  exact UInt16.le_iff_toNat_le.2 (by omega)

/-- The length `virtqueue_get_buffer_length` reads. -/
theorem bufferLength (h : Linked B k m tvq rvq P) {d : UInt16} (hd : d ∈ B.ids) :
    virtqueueGetBufferLength tvq m d = UInt32.ofNat B.size := by
  unfold virtqueueGetBufferLength
  rw [h.tvq_ring]
  exact (h.desc d.toNat (B.mem_ids.1 hd)).2

/-- Taking a free descriptor: none is left, or the oldest one moves to the sender. -/
theorem take (h : Linked B k m tvq rvq P) :
    P.free = [] ∧ vqGet k tvq m = (tvq, none) ∨
      ∃ d f, ∃ hf : P.free = d :: f, vqGet k tvq m = (tvq.setCursor k (tvq.cursor k + 1), some (B.got d)) ∧
        Linked B k m (tvq.setCursor k (tvq.cursor k + 1)) rvq (P.take hf) := by
  have hfree := h.free
  obtain hf | ⟨d, f, hf⟩ : P.free = [] ∨ ∃ d f, P.free = d :: f := by
    cases P.free with
    | nil => exact Or.inl rfl
    | cons d f => exact Or.inr ⟨d, f, rfl⟩
  · rw [hf, ← h.tvq_ring] at hfree
    exact Or.inl ⟨hf, vqGet_nil h.tvq_wf hfree⟩
  · have hd : d ∈ B.ids := P.mem_free (hf ▸ List.mem_cons_self)
    obtain ⟨-, -, htop⟩ := BufferPool.buffer_bounds hd
    have hsz := B.size_ge
    have hhi := B.bufHi_le
    rw [hf, ← h.tvq_ring] at hfree
    have hdesc := h.desc
    rw [← h.tvq_ring] at hdesc
    obtain ⟨hget, hpend⟩ := vqGet_cons h.tvq_wf hfree hdesc (by rw [h.tvq_ring]; exact B.mem_ids.1 hd)
      (by unfold BufferPool.buffer bufferAt at htop; omega)
    rw [h.tvq_ring] at hpend
    refine Or.inr ⟨d, f, hf, hget, ?_⟩
    refine ⟨⟨by simpa using h.tvq_wf.laid, by simpa using h.tvq_wf.num_eq⟩, by simpa using h.tvq_ring, h.rvq_wf, h.rvq_ring,
      h.desc, ?_, h.queue⟩
    rw [Virtqueue.cursor_setCursor]
    exact hpend

/-- Publishing a message: a descriptor of the sender goes to the end of the message queue. -/
theorem send (h : Linked B k m tvq rvq P) {d : UInt16} {s : Multiset UInt16} (hs : P.sender = d ::ₘ s) :
    Frame m (vqPut k.other tvq m d (UInt32.ofNat B.size)).2 (B.vr.ringLo k.other) (B.vr.ringHi k.other) ∧
      ∀ c, Linked B k (vqPut k.other tvq m d (UInt32.ofNat B.size)).2 { tvq with queuedCnt := c } rvq (P.send hs) := by
  have hd : d ∈ B.ids := P.mem_sender (hs ▸ Multiset.mem_cons_self d s)
  have hput := vqPut_spec (k := k.other) (m := m) h.tvq_wf (UInt32.ofNat B.size) (h.le_nentries hd)
  rw [h.tvq_ring] at hput
  refine ⟨hput.frame, fun c => ?_⟩
  have hlt := P.queue_length_lt hs
  rw [B.card_ids] at hlt
  have hdesc : Agree m _ B.vr.desc B.vr.descEnd := hput.frame.agree (Or.inl (B.laid.descEnd_le_ringLo _))
  have hown : Agree m _ (B.vr.ringLo k) (B.vr.ringHi k) := hput.frame.agree (B.laid.rings_apart k)
  refine ⟨⟨h.tvq_wf.laid, h.tvq_wf.num_eq⟩, h.tvq_ring, h.rvq_wf, h.rvq_ring, h.desc.congr le_rfl hdesc, ?_, ?_⟩
  · have hf := h.free.congr B.laid.size.pos hown
    cases k <;> exact hf
  · exact hput.push _ _ h.queue hlt

/-- Taking a message, on the receiver's side. -/
theorem receive (h : Linked B k m tvq rvq P) :
    P.queue = [] ∧ vqGet k.other rvq m = (rvq, none) ∨
      ∃ d q, ∃ hq : P.queue = d :: q,
        vqGet k.other rvq m = (rvq.setCursor k.other (rvq.cursor k.other + 1), some (B.got d)) ∧
        Linked B k m tvq (rvq.setCursor k.other (rvq.cursor k.other + 1)) (P.receive hq) := by
  rcases h.swap.take with ⟨hq, hn⟩ | ⟨d, q, hq, hget, hl⟩
  · exact Or.inl ⟨hq, hn⟩
  · exact Or.inr ⟨d, q, hq, hget, hl.unswap⟩

/-- Returning a descriptor, on the receiver's side. -/
theorem release (h : Linked B k m tvq rvq P) {d : UInt16} {r : Multiset UInt16} (hr : P.receiver = d ::ₘ r) :
    Frame m (vqPut k rvq m d (UInt32.ofNat B.size)).2 (B.vr.ringLo k) (B.vr.ringHi k) ∧
      ∀ c, Linked B k (vqPut k rvq m d (UInt32.ofNat B.size)).2 tvq { rvq with queuedCnt := c } (P.release hr) := by
  have := h.swap.send hr
  rw [RingKind.other_other] at this
  exact ⟨this.1, fun c => (this.2 c).unswap⟩

end Linked

end RpmsgLite
