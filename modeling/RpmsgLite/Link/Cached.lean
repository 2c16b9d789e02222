/-
The link with a data cache on each core, `RL_USE_DCACHE`. `vq_tx_alloc` and `vq_rx` invalidate the buffer that they return,
`vq_tx` flushes it, and `vq_rx_free` flushes it only after it has cleared it, with `RL_CLEAR_USED_BUFFERS`. Lines come into the
caches and leave them at any time.

The buffers are reached through the caches, and so are the descriptors: `virtqueue_get_buffer` and
`virtqueue_get_available_buffer` read `desc[].addr` and `desc[].len` without a `VQUEUE_INVALIDATE`, so they find a copy that is
in the cache. The other accesses of `virtqueue.c`, to the avail and the used rings, come after a `VQUEUE_INVALIDATE` or before a
`VQUEUE_FLUSH` and go to the memory.
-/
import RpmsgLite.Lib.Cache
import RpmsgLite.Lib.Runs
import RpmsgLite.Link.Conservation
import RpmsgLite.Link.Handover

namespace RpmsgLite

open ByteMem

/-! ## The caches -/

/-- Both cores' line size in bytes, where the buffers lie, and where the tables of descriptors. -/
structure CacheConfig where
  link : LinkConfig
  lineSize : Nat
  lo : Nat
  hi : Nat
  descs : List Span

namespace CacheConfig

variable (cc : CacheConfig)

def line (a : Nat) : Nat := a / cc.lineSize

/-- The lines of some bytes. -/
def lines (x : Span) : List Nat := (List.range x.2).map fun i => cc.line (x.1 + i)

def linesOf (spans : List Span) : List Nat := spans.flatMap cc.lines

/-- A byte of a buffer. -/
def Buf (a : Nat) : Prop := cc.lo ≤ a ∧ a < cc.hi

/-- A byte of a descriptor. -/
def Desc (a : Nat) : Prop := Covers cc.descs a

instance (a : Nat) : Decidable (cc.Buf a) := inferInstanceAs (Decidable (cc.lo ≤ a ∧ a < cc.hi))

instance (a : Nat) : Decidable (cc.Desc a) := inferInstanceAs (Decidable (∃ x ∈ cc.descs, x.1 ≤ a ∧ a < x.1 + x.2))

/-- What the cores read through their caches. -/
def Cached (a : Nat) : Prop := cc.Buf a ∨ cc.Desc a

instance (a : Nat) : Decidable (cc.Cached a) := inferInstanceAs (Decidable (cc.Buf a ∨ cc.Desc a))

end CacheConfig

/-! ## The cached link -/

structure CachedLink where
  m : ByteMem
  side : Role → Side
  cache : Role → Cache Nat UInt8 Nat

inductive CacheEvent
  | act (r : Role) (a : Act)
  /-- a line comes into a cache -/
  | fill (r : Role) (L : Nat)
  /-- a line leaves a cache -/
  | evict (r : Role) (L : Nat)

namespace CachedLink

section

variable (cc : CacheConfig) (t : CachedLink)

/-- What core `r` sees with a cache `C`. -/
def see (C : Cache Nat UInt8 Nat) : ByteMem := fun a => if cc.Cached a then C.view cc.line t.m a else t.m a

/-- A step of core `r`. -/
def act (r : Role) (a : Act) : Option CachedLink :=
  if (t.side r).halted then none
  else
    let v := t.see cc (t.cache r)
    let C := (t.cache r).invalidate (((t.side r).taken cc.link v a).elim [] fun g => cc.lines g.span)
    ((t.side r).step cc.link (t.see cc C) a).map fun (x, v') =>
      let C := C.store (cc.linesOf ((t.side r).stores cc.link v a)) v'
      let m := fun b => if cc.Cached b then t.m b else v' b
      let flushed := cc.linesOf ((t.side r).flushed cc.link v a)
      { m := C.writeBack cc.line m flushed
        side := Function.update t.side r x
        cache := Function.update t.cache r (C.settle flushed) }

def step : CacheEvent → Option CachedLink
  | .act r a => t.act cc r a
  | .fill r L => some { t with cache := Function.update t.cache r ((t.cache r).fill cc.line t.m L) }
  | .evict r L => some
      { t with
        m := (t.cache r).writeBack cc.line t.m [L]
        cache := Function.update t.cache r (((t.cache r).settle [L]).invalidate [L]) }

/-- The buffer that the step gives back is cleared and flushed, or has no dirty line. -/
def careful : CacheEvent → Prop
  | .act r a => cc.link.clear = false → ∀ g ∈ (t.side r).freed a, ∀ L ∈ cc.lines g.span, (t.cache r).state L ≠ .dirty
  | .fill _ _ => True
  | .evict _ _ => True

end

def start (m : ByteMem) (master remote : RpmsgLiteInstance) (cache : Role → Cache Nat UInt8 Nat) : CachedLink where
  m := m
  side
    | .master => Side.start master
    | .remote => Side.start remote
  cache := cache

/-- The states of all runs whose steps are `ok` where they are taken. -/
inductive Reachable (cc : CacheConfig) (ok : CachedLink → CacheEvent → Prop) (t₀ : CachedLink) : CachedLink → Prop
  | start : Reachable cc ok t₀ t₀
  | step {t t' : CachedLink} {ev : CacheEvent} (h : Reachable cc ok t₀ t) (hok : ok t ev) (hs : t.step cc ev = some t') :
      Reachable cc ok t₀ t'

end CachedLink

/-! ## Lines and buffers -/

namespace CacheConfig

variable {cc : CacheConfig} {W : Pools} {q q' : Role} {d e : UInt16} {L a : Nat} {x : Span}

theorem mem_lines : L ∈ cc.lines x ↔ ∃ a, (x.1 ≤ a ∧ a < x.1 + x.2) ∧ cc.line a = L := by
  simp only [lines, List.mem_map, List.mem_range]
  constructor
  · rintro ⟨i, hi, rfl⟩
    exact ⟨x.1 + i, ⟨Nat.le_add_right _ _, Nat.add_lt_add_left hi _⟩, rfl⟩
  · rintro ⟨a, ⟨h1, h2⟩, rfl⟩
    exact ⟨a - x.1, by omega, by rw [Nat.add_sub_cancel' h1]⟩

theorem mem_linesOf {spans : List Span} : L ∈ cc.linesOf spans ↔ ∃ a, Covers spans a ∧ cc.line a = L := by
  simp only [linesOf, List.mem_flatMap, mem_lines]
  constructor
  · rintro ⟨x, hx, a, ha, rfl⟩
    exact ⟨a, ⟨x, hx, ha⟩, rfl⟩
  · rintro ⟨a, ⟨x, hx, ha⟩, rfl⟩
    exact ⟨x, hx, a, ha, rfl⟩

/-- Every buffer is made of whole lines, and the tables lie outside the buffers. -/
structure Fits (cc : CacheConfig) (W : Pools) : Prop where
  pos : 0 < cc.lineSize
  buffer : ∀ q, ∀ d ∈ (W.pool q).ids, cc.lineSize ∣ (W.pool q).buffer d
  size : ∀ q, cc.lineSize ∣ (W.pool q).size
  inside : ∀ q, cc.lo ≤ (W.pool q).bufLo ∧ (W.pool q).bufHi ≤ cc.hi
  tables : ∀ q, (W.pool q).vr.usedEnd ≤ cc.lo ∨ cc.hi ≤ (W.pool q).vr.desc
  descs : ∀ a, cc.Desc a → W.Desc a

theorem line_mem {ls b n a a' : Nat} (hpos : 0 < ls) (hb : ls ∣ b) (hn : ls ∣ n) (hl : a / ls = a' / ls) (h1 : b ≤ a)
    (h2 : a < b + n) : b ≤ a' ∧ a' < b + n := by
  obtain ⟨x, rfl⟩ := hb
  obtain ⟨y, rfl⟩ := hn
  rw [Nat.mul_comm, ← Nat.le_div_iff_mul_le hpos, hl] at h1
  rw [← Nat.mul_add, Nat.mul_comm, ← Nat.div_lt_iff_lt_mul hpos, hl] at h2
  exact ⟨by rw [Nat.mul_comm]; exact (Nat.le_div_iff_mul_le hpos).1 h1,
    by rw [← Nat.mul_add, Nat.mul_comm]; exact (Nat.div_lt_iff_lt_mul hpos).1 h2⟩

/-- The lines of a buffer hold its bytes only. -/
theorem Fits.line_buffer (hf : cc.Fits W) (hd : d ∈ (W.pool q).ids) :
    cc.line a ∈ cc.lines ((W.pool q).got d).span ↔ (W.pool q).buffer d ≤ a ∧ a < (W.pool q).buffer d + (W.pool q).size := by
  rw [BufferPool.got_span, mem_lines]
  constructor
  · rintro ⟨b, ⟨h1, h2⟩, hl⟩
    exact line_mem hf.pos (hf.buffer q d hd) (hf.size q) hl h1 h2
  · exact fun ha => ⟨a, ha, rfl⟩

/-- No line belongs to two buffers. -/
theorem Fits.line_inj (hf : cc.Fits W) (hd : d ∈ (W.pool q).ids) (he : e ∈ (W.pool q').ids)
    (h1 : L ∈ cc.lines ((W.pool q).got d).span) (h2 : L ∈ cc.lines ((W.pool q').got e).span) : q = q' ∧ d = e := by
  obtain ⟨a, -, rfl⟩ := mem_lines.1 h1
  rw [hf.line_buffer hd] at h1
  rw [hf.line_buffer he] at h2
  rcases q.eq_or_peer q' with rfl | rfl
  · refine ⟨rfl, not_not.1 fun hne => ?_⟩
    have hap := (W.pool q').buffer_apart hne
    unfold Apart at hap
    omega
  · obtain ⟨-, h3, h4⟩ := BufferPool.buffer_bounds hd
    obtain ⟨-, h5, h6⟩ := BufferPool.buffer_bounds he
    have hap := (W.peer q).bufs
    unfold Apart at hap
    omega

theorem Fits.buffer_inside (hf : cc.Fits W) (hd : d ∈ (W.pool q).ids) (h : cc.line a ∈ cc.lines ((W.pool q).got d).span) :
    cc.Buf a := by
  rw [hf.line_buffer hd] at h
  obtain ⟨-, h1, h2⟩ := BufferPool.buffer_bounds hd
  obtain ⟨h3, h4⟩ := hf.inside q
  unfold Buf
  omega

theorem Fits.table_outside (hf : cc.Fits W) (h : W.Table a) : ¬ cc.Buf a := by
  obtain ⟨q, h1, h2⟩ := h
  have := hf.tables q
  unfold Buf
  omega

theorem Fits.desc_outside (hf : cc.Fits W) (h : cc.Desc a) : ¬ cc.Buf a := hf.table_outside (hf.descs a h).table

/-- What a step of the code stores into is a buffer's or a ring's, and no descriptor's. -/
theorem Fits.ring_uncached (hf : cc.Fits W) (h : (W.pool q).vr.Ring a) : ¬ cc.Cached a := fun hc =>
  hc.elim (hf.table_outside ⟨q, BufferPool.ring_table h⟩) fun hd => Pools.ring_not_desc h (hf.descs a hd)

/-- A line of a buffer in a core's hands. -/
def Holds (cc : CacheConfig) (s : Side) (L : Nat) : Prop := ∃ g ∈ s.gots, L ∈ cc.lines g.span

end CacheConfig

/-! ## Whose line it is -/

section

variable {W : Pools} {cc : CacheConfig} {s : Link} {P : ∀ r, Custody (W.pool r).ids} {c : LinkConfig} {r q : Role} {g e : Got}
  {L : Nat} {a : Act}

/-- A line is in the hands of one core at most. -/
theorem LinkInv.holds_unique (h : LinkInv W s P) (hf : cc.Fits W) (h1 : cc.Holds (s.side r) L) (h2 : cc.Holds (s.side q) L) :
    r = q := by
  obtain ⟨g, hg, hL⟩ := h1
  obtain ⟨e, he, hL'⟩ := h2
  obtain ⟨p, hd, heq, hp⟩ := h.key hg
  obtain ⟨p', hd', heq', hp'⟩ := h.key he
  rw [heq] at hL
  rw [heq'] at hL'
  obtain ⟨rfl, hid⟩ := hf.line_inj hd hd' hL hL'
  have hno : ∀ {i : UInt16}, i ∈ (P p).sender → i ∉ (P p).receiver := fun hs => (P p).apart (W.pool p).ids_nodup hs
  rcases hp with ⟨rfl, hs⟩ | ⟨rfl, hs⟩ <;> rcases hp' with ⟨hq, hs'⟩ | ⟨hq, hs'⟩
  · exact hq
  · exact absurd (hid ▸ hs') (hno hs)
  · exact absurd (hid ▸ hs) (hno hs')
  · rw [← Role.peer_peer r, hq, Role.peer_peer]

/-- What a step takes has lines of nobody. -/
theorem LinkInv.taken_idle (h : LinkInv W s P) (hf : cc.Fits W) (ht : (s.side r).taken c s.m a = some g)
    (hL : L ∈ cc.lines g.span) (q : Role) : ¬ cc.Holds (s.side q) L := by
  rintro ⟨e, he, hL'⟩
  obtain ⟨p, hd, heq, h1, h2⟩ := h.taken_key ht
  obtain ⟨p', hd', heq', hp'⟩ := h.key he
  rw [heq] at hL
  rw [heq'] at hL'
  obtain ⟨rfl, hid⟩ := hf.line_inj hd hd' hL hL'
  rcases hp' with ⟨-, hs⟩ | ⟨-, hs⟩
  · exact h1 (hid ▸ hs)
  · exact h2 (hid ▸ hs)

theorem LinkInv.holds_inside (h : LinkInv W s P) (hf : cc.Fits W) {b : Nat} (hL : cc.Holds (s.side r) (cc.line b)) :
    cc.Buf b := by
  obtain ⟨g, hg, hL⟩ := hL
  obtain ⟨q, hd, heq, -⟩ := h.key hg
  rw [heq] at hL
  exact hf.buffer_inside hd hL

/-- The two directions of a core share no line. -/
theorem LinkInv.tx_rx_lines (h : LinkInv W s P) (hf : cc.Fits W) (he : e ∈ (s.side r).tx.gots) (hg : g ∈ (s.side r).rx.gots)
    (hL : L ∈ cc.lines e.span) : L ∉ cc.lines g.span := by
  intro hL'
  have hin := h.flow r.peer
  rw [Role.peer_peer] at hin
  rw [(h.flow r).contents.txGot e he] at hL
  rw [hin.contents.rxGot g hg] at hL'
  exact absurd (hf.line_inj ((h.flow r).tx_ids he) (hin.rx_ids hg) hL hL').1.symm (Role.peer_ne r)

end

/-! ## The cached link stands for the link -/

section

variable {W : Pools} {cc : CacheConfig} {t t' : CachedLink} {s : Link} {P : ∀ r, Custody (W.pool r).ids} {c : LinkConfig}
  {r : Role} {a : Act} {v : ByteMem}

theorem CachedLink.act_eq (hs : t.act cc r a = some t') :
    ∃ x v', (t.side r).step cc.link (t.see cc ((t.cache r).invalidate
        (((t.side r).taken cc.link (t.see cc (t.cache r)) a).elim [] fun g => cc.lines g.span))) a = some (x, v') ∧
      t'.side = Function.update t.side r x ∧
      t'.cache = Function.update t.cache r ((((t.cache r).invalidate
          (((t.side r).taken cc.link (t.see cc (t.cache r)) a).elim [] fun g => cc.lines g.span)).store
            (cc.linesOf ((t.side r).stores cc.link (t.see cc (t.cache r)) a)) v').settle
              (cc.linesOf ((t.side r).flushed cc.link (t.see cc (t.cache r)) a))) := by
  unfold CachedLink.act at hs
  split at hs
  · cases hs
  · obtain ⟨⟨x, v'⟩, hx, rfl⟩ := Option.map_eq_some_iff.1 hs
    exact ⟨x, v', hx, rfl, rfl⟩

/-- What a core sees with a cache that is coherent. -/
theorem CachedLink.see_eq {own : Role → Nat → Prop} {cache : Role → Cache Nat UInt8 Nat} {w : ByteMem}
    (h : Cache.Coherent cc.line own cache t.m w) (hd : Cache.Copies cc.line cc.Desc cache w)
    (hin : ∀ q b, own q (cc.line b) → cc.Buf b) (hout : ∀ b, cc.Desc b → ¬ cc.Buf b) {b : Nat}
    (hb : cc.Buf b → own r (cc.line b)) : t.see cc (cache r) b = w b := by
  have hmem : ¬ cc.Buf b → t.m b = w b := fun hi => h.idle fun q ho => hi (hin q b ho)
  unfold CachedLink.see
  split
  · rename_i hi
    rcases hi with hi | hi
    · exact h.view (hb hi)
    · exact hd.view hi (hmem (hout b hi))
  · rename_i hi
    exact hmem fun hb => hi (Or.inl hb)

/-- Both cores are where they are in `s`, and the caches and the memory stand for its memory. -/
structure CachedLink.Stands (cc : CacheConfig) (t : CachedLink) (s : Link) : Prop where
  side : t.side = s.side
  coherent : Cache.Coherent cc.line (fun r L => cc.Holds (s.side r) L) t.cache t.m s.m
  descs : Cache.Copies cc.line cc.Desc t.cache s.m

theorem CachedLink.sees {own : Role → Nat → Prop} {cache : Role → Cache Nat UInt8 Nat} {w : ByteMem} {gots : List Got}
    (hf : cc.Fits W) (h : Cache.Coherent cc.line own cache t.m w) (hd : Cache.Copies cc.line cc.Desc cache w)
    (hin : ∀ q b, own q (cc.line b) → cc.Buf b) (hown : ∀ g ∈ gots, ∀ L ∈ cc.lines g.span, own r L) :
    Sees W gots w (t.see cc (cache r)) := by
  refine ⟨fun q b h1 h2 => ?_, fun g hg b h1 h2 => ?_⟩
  · exact CachedLink.see_eq h hd hin (fun _ => hf.desc_outside) fun hi => absurd hi (hf.table_outside ⟨q, h1, h2⟩)
  · exact CachedLink.see_eq h hd hin (fun _ => hf.desc_outside) fun _ =>
      hown g hg _ (CacheConfig.mem_lines.2 ⟨b, ⟨h1, h2⟩, rfl⟩)

/-- What a core sees of the link that the caches stand for. -/
theorem CachedLink.Stands.sees (hst : t.Stands cc s) (h : LinkInv W s P) (hf : cc.Fits W) (r : Role) :
    Sees W (s.side r).gots s.m (t.see cc (t.cache r)) :=
  CachedLink.sees hf hst.coherent hst.descs (fun _ _ hL => h.holds_inside hf hL) fun g hg _ hL => ⟨g, hg, hL⟩

/-- A careful step of a core with its cache is its step on the memory that the caches stand for. -/
theorem CachedLink.Stands.act (hst : t.Stands cc s) (h : LinkInv W s P) (hf : cc.Fits W)
    (hpay : ∀ r, cc.link.payloadSize + 16 ≤ (W.pool r).size) (hcare : t.careful cc (.act r a)) (hs : t.act cc r a = some t') :
    ∃ s', s.step cc.link r a = some s' ∧ t'.Stands cc s' := by
  have hco := hst.coherent
  unfold CachedLink.act at hs
  rw [hst.side] at hs
  split at hs
  · cases hs
  rename_i hrun
  obtain ⟨⟨x, v'⟩, hx, rfl⟩ := Option.map_eq_some_iff.1 hs
  obtain ⟨ht, hstores, hflushed⟩ := h.seen_ops (c := cc.link) (hst.sees h hf r) a
  rw [ht] at hx
  rw [ht, hstores, hflushed]
  -- the buffer that the step takes is nobody's, and the core's from here on
  set got := ((s.side r).taken cc.link s.m a).elim [] fun g => cc.lines g.span with hgot
  have htaken : ∀ L, L ∈ got ↔ ∃ g, (s.side r).taken cc.link s.m a = some g ∧ L ∈ cc.lines g.span := by
    intro L
    rw [hgot]
    cases (s.side r).taken cc.link s.m a with
    | none => simp
    | some g => simp
  have hidle : ∀ L ∈ got, ∀ q, ¬ cc.Holds (s.side q) L := by
    intro L hL
    obtain ⟨g, hg, hL⟩ := (htaken L).1 hL
    exact h.taken_idle hf hg hL
  have hin : ∀ q b, cc.Holds (s.side q) (cc.line b) → cc.Buf b := fun q b hL => h.holds_inside hf hL
  have hgotin : ∀ b, cc.line b ∈ got → cc.Buf b := by
    intro b hL
    obtain ⟨g, hg, hL⟩ := (htaken _).1 hL
    obtain ⟨q, hd, heq, -⟩ := h.taken_key hg
    rw [heq] at hL
    exact hf.buffer_inside hd hL
  have hco₁ := hco.invalidate r got fun L hL hd => hidle L hL r (hco.dirty r L hd)
  have hde₁ : Cache.Copies cc.line cc.Desc (Function.update t.cache r ((t.cache r).invalidate got)) s.m :=
    hst.descs.update _ (fun b hb hs => hst.descs r b hb (Cache.invalidate_present hs).2) fun _ _ => rfl
  have hview : ∀ b, (cc.Buf b → cc.Holds (s.side r) (cc.line b) ∨ cc.line b ∈ got) →
      t.see cc ((t.cache r).invalidate got) b = s.m b := by
    intro b hb
    by_cases hL : cc.line b ∈ got
    · rw [CachedLink.see, if_pos (show cc.Cached b from Or.inl (hgotin b hL)), Cache.view_absent (if_pos hL)]
      exact hco.idle (hidle _ hL)
    · have he := CachedLink.see_eq (t := t) (r := r) hco₁ hde₁ hin (fun _ => hf.desc_outside) fun hi =>
        (hb hi).resolve_right hL
      rwa [Function.update_self] at he
  have hsees₁ : Sees W (s.side r).gots s.m (t.see cc ((t.cache r).invalidate got)) := by
    have he := CachedLink.sees (t := t) (r := r) hf hco₁ hde₁ hin fun g hg L hL => ⟨g, hg, hL⟩
    rwa [Function.update_self] at he
  -- the step on the memory, and what it does with the buffers
  obtain ⟨w', hw, hsame⟩ := h.seen_step hpay hsees₁ hx
  have hstep : s.step cc.link r a = some { m := w', side := Function.update s.side r x } := by
    unfold Link.step
    rw [h.running r, if_neg Bool.false_ne_true, hw, Option.map_some]
  obtain ⟨P', hinv', -⟩ := h.step hpay hstep
  have hand := h.handover hw
  have hspan : ∀ g, g ∈ (s.side r).gots ∨ (s.side r).taken cc.link s.m a = some g → ∀ L ∈ cc.lines g.span,
      cc.Holds (s.side r) L ∨ L ∈ got := fun g hg L hL =>
    hg.imp (fun hg => ⟨g, hg, hL⟩) fun hg => (htaken L).2 ⟨g, hg, hL⟩
  have hstored : ∀ b, Covers ((s.side r).stores cc.link s.m a) b → cc.Holds (s.side r) (cc.line b) ∨ cc.line b ∈ got := by
    rintro b ⟨y, hy, hb⟩
    obtain ⟨g, hg, hle⟩ := hand.stored y hy
    exact hspan g (hg.imp Side.hands_sub id) _
      (CacheConfig.mem_lines.2 ⟨b, ⟨by simp only [Got.span]; omega, by simp only [Got.span]; omega⟩, rfl⟩)
  have hring : ∀ b, (∃ q, (W.pool q).vr.Ring b) → ¬ cc.Cached b := by
    rintro b ⟨q, hq⟩
    exact hf.ring_uncached hq
  -- no step stores into a descriptor
  have hdesc : ∀ b, cc.Desc b → w' b = s.m b := by
    intro b hb
    refine hsame.unstored fun hR => ?_
    rcases hR with hc | hq
    · exact hf.desc_outside hb ((hstored b hc).elim (hin r b) (hgotin b))
    · exact hring b hq (Or.inr hb)
  refine ⟨_, hstep, rfl, ?_, hst.descs.turn (fun b hb => hsame.apply (hview b fun hi => absurd hi (hf.desc_outside hb))) hdesc⟩
  refine hco.turn (fun b => if cc.Cached b then w' b else s.m b) hidle ?_ ?_ ?_ ?_ ?_ ?_ ?_ ?_
  · intro L hL
    obtain ⟨b, hb, rfl⟩ := CacheConfig.mem_linesOf.1 hL
    exact hstored b hb
  · intro b hb
    rw [if_pos (show cc.Cached b from Or.inl (hb.elim (hin r b) (hgotin b)))]
    exact hsame.apply (hview b fun _ => hb)
  · intro b hb
    split
    · rename_i hi
      refine hsame.unstored fun hR => ?_
      rcases hR with hc | hq
      · exact hb (CacheConfig.mem_linesOf.2 ⟨b, hc, rfl⟩)
      · exact hring b hq hi
    · rfl
  · intro b
    by_cases hi : cc.Cached b
    · exact Or.inl ⟨if_pos hi, by rw [if_pos hi]⟩
    · have hbuf : ¬ cc.Buf b := fun hb => hi (Or.inl hb)
      refine Or.inr ⟨?_, fun hL => hbuf (hgotin b hL), fun q hL => hbuf (hin q b hL)⟩
      rw [if_neg hi]
      exact hsame.apply (hview b fun hi' => absurd hi' hbuf)
  · exact fun p q L hp hq => hinv'.holds_unique hf hp hq
  · intro q hq L
    simp only [Function.update_of_ne hq]
  · rintro L ⟨g, hg, hL⟩
    simp only [Function.update_self] at hg
    exact hspan g (hand.got g hg) L hL
  · intro L hL
    obtain ⟨g, hg, hL⟩ : ∃ g, (g ∈ (s.side r).gots ∨ (s.side r).taken cc.link s.m a = some g) ∧
      L ∈ cc.lines g.span := by
      rcases hL with ⟨g, hg, hL⟩ | hL
      · exact ⟨g, Or.inl hg, hL⟩
      · obtain ⟨g, hg, hL⟩ := (htaken L).1 hL
        exact ⟨g, Or.inr hg, hL⟩
    rcases hand.kept g hg with hk | hk | ⟨hclear, hfreed⟩
    · exact Or.inl ⟨g, by simpa only [Function.update_self] using hk, hL⟩
    · refine Or.inr (Or.inl ?_)
      obtain ⟨b, hb, rfl⟩ := CacheConfig.mem_lines.1 hL
      exact CacheConfig.mem_linesOf.2 ⟨b, ⟨_, hk, hb⟩, rfl⟩
    · refine Or.inr (Or.inr ⟨?_, ?_⟩)
      · rw [Side.freed_stores hclear hfreed]
        exact fun hL => by cases hL
      · refine hcare hclear g ?_ L hL
        rw [hst.side, hfreed]
        rfl

/-- Every state of every careful run stands for a state of the link. -/
theorem CachedLink.Reachable.stands {t₀ : CachedLink} {s₀ : Link} {P₀ : ∀ r, Custody (W.pool r).ids}
    (h : CachedLink.Reachable cc (CachedLink.careful cc) t₀ t) (h₀ : LinkInv W s₀ P₀) (hf : cc.Fits W)
    (hpay : ∀ r, cc.link.payloadSize + 16 ≤ (W.pool r).size) (hst : t₀.Stands cc s₀) :
    ∃ s, Link.Reachable cc.link s₀ s ∧ t.Stands cc s := by
  induction h with
  | start => exact ⟨s₀, .start, hst⟩
  | @step t t' ev _ hcare hs ih =>
    obtain ⟨s, hreach, hst⟩ := ih
    obtain ⟨P, hinv⟩ := h₀.reachable hpay hreach
    cases ev with
    | act r a =>
      obtain ⟨s', hs', hst'⟩ := hst.act hinv hf hpay hcare hs
      exact ⟨s', .step hreach hs', hst'⟩
    | fill r L =>
      cases hs
      have hmem : ∀ b, cc.Desc b → t.m b = s.m b := fun b hb =>
        hst.coherent.idle fun q hL => hf.desc_outside hb (hinv.holds_inside hf hL)
      exact ⟨s, hreach, hst.side, hst.coherent.fill r L, hst.descs.fill hmem r L⟩
    | evict r L =>
      cases hs
      exact ⟨s, hreach, hst.side, hst.coherent.evict r [L], hst.descs.evict r [L]⟩

end

/-! ## Runs that are careful -/

/-- The callbacks release their messages at once, and write nothing into them. -/
def Act.plain : Act → Bool
  | .tx _ => true
  | .rx .rx => true
  | .rx .read => true
  | .rx (.done hold) => !hold
  | .rx (.writeMsg _ _) => false
  | .rx (.writeHeld _ _ _) => true
  | .rx (.releaseRxBuffer _) => true
  | .txCallback => true

/-- With `RL_CLEAR_USED_BUFFERS` a core may do what it likes with its messages. -/
def CacheEvent.plain (c : LinkConfig) : CacheEvent → Bool
  | .act _ a => c.clear || a.plain
  | .fill _ _ => true
  | .evict _ _ => true

section

variable {W : Pools} {cc : CacheConfig} {t t' : CachedLink} {s : Link} {P : ∀ r, Custody (W.pool r).ids} {c : LinkConfig}
  {r : Role} {a : Act} {L : Nat} {g e : Got}

/-- Nothing is held, and no message in a callback's hands has a dirty line. -/
structure CachedLink.Plain (cc : CacheConfig) (t : CachedLink) : Prop where
  held : ∀ r, (t.side r).rx.held = []
  clean : ∀ r, ∀ g ∈ (t.side r).rx.gots, ∀ L ∈ cc.lines g.span, (t.cache r).state L ≠ .dirty

theorem CachedLink.Plain.careful (hp : t.Plain cc) (ev : CacheEvent) : t.careful cc ev := by
  cases ev with
  | act r a =>
    intro _ g hg L hL
    refine hp.clean r g ?_ L hL
    cases a with
    | tx => cases hg
    | rx a =>
      cases a with
      | rx => cases hg
      | read => cases hg
      | done hold =>
        cases hold with
        | true => cases hg
        | false => exact List.mem_append_left _ (List.mem_of_head? hg)
      | writeMsg => cases hg
      | writeHeld => cases hg
      | releaseRxBuffer i => exact List.mem_append_right _ (List.mem_of_getElem? hg)
    | txCallback => cases hg
  | fill => exact trivial
  | evict => exact trivial

/-- The lines that a plain step of a core stores into are no lines of its messages. -/
theorem LinkInv.plain_stores (h : LinkInv W s P) (hf : cc.Fits W) (hclear : c.clear = false) (hplain : a.plain = true)
    (hheld : (s.side r).rx.held = []) {x : Side} {w : ByteMem} (hs : (s.side r).step c s.m a = some (x, w))
    (hg : g ∈ (s.side r).rx.gots) (hL : L ∈ cc.lines g.span) : L ∉ cc.linesOf ((s.side r).stores c s.m a) := by
  intro hst
  obtain ⟨b, ⟨y, hy, hb⟩, rfl⟩ := CacheConfig.mem_linesOf.1 hst
  obtain ⟨e, he, hle⟩ := (h.handover hs).stored y hy
  have hLe : cc.line b ∈ cc.lines e.span :=
    CacheConfig.mem_lines.2 ⟨b, ⟨by simp only [Got.span]; omega, by simp only [Got.span]; omega⟩, rfl⟩
  cases a with
  | tx a =>
    rcases he with he | he
    · exact h.tx_rx_lines hf he hg hLe hL
    · exact h.taken_idle hf he hLe r ⟨g, List.mem_append_right _ hg, hL⟩
  | rx a =>
    cases a with
    | rx => cases hy
    | read => cases hy
    | done hold =>
      cases hold with
      | true => cases hplain
      | false => simp [Side.stores, Side.rxStores, hclear] at hy
    | writeMsg => cases hplain
    | writeHeld => simp [Side.stores, Side.rxStores, hheld] at hy
    | releaseRxBuffer => simp [Side.stores, Side.rxStores, hclear] at hy
  | txCallback => cases hy

/-- A message that a core has after a plain step it had before, or takes now. -/
theorem Side.plain_gots {s x : Side} {m w : ByteMem} (hplain : a.plain = true) (hheld : s.rx.held = [])
    (hs : s.step c m a = some (x, w)) :
    x.rx.held = [] ∧ ∀ g ∈ x.rx.gots, g ∈ s.rx.gots ∨ s.taken c m a = some g ∧ s.stores c m a = [] := by
  cases a with
  | tx a =>
    rw [Side.txStep_rx hs]
    exact ⟨hheld, fun g hg => Or.inl hg⟩
  | rx a =>
    cases Side.rxStep_cases hs with
    | rxNone hidle hr => exact ⟨hheld, fun g hg => Or.inl hg⟩
    | @rx dev g hidle hr =>
      refine ⟨hheld, fun e he => Or.inr ?_⟩
      rcases List.mem_append.1 he with he | he
      · obtain rfl := List.mem_singleton.1 he
        exact ⟨by simp only [Side.taken, hr], rfl⟩
      · rw [hheld] at he
        cases he
    | read hhand =>
      refine ⟨hheld, fun e he => Or.inl ?_⟩
      rw [RxHalf.gots, hhand]
      exact he
    | doneStuck => exact ⟨hheld, fun g hg => Or.inl hg⟩
    | @done hold g dev m' hhand hr =>
      cases hold with
      | true => cases hplain
      | false =>
        refine ⟨hheld, fun e he => ?_⟩
        rcases List.mem_append.1 he with he | he
        · cases he
        · exact Or.inl (List.mem_append_right _ he)
    | writeMsg => cases hplain
    | writeHeld hi hr =>
      rw [hheld] at hi
      cases hi
    | releaseStuck hi hr =>
      rw [hheld] at hi
      cases hi
    | release hi hr =>
      rw [hheld] at hi
      cases hi
  | txCallback =>
    cases hs
    exact ⟨hheld, fun g hg => Or.inl hg⟩

/-- A plain step leaves the core's messages clean. -/
theorem CachedLink.Plain.act (hp : t.Plain cc) (hst : t.Stands cc s) (h : LinkInv W s P) (hf : cc.Fits W)
    (hpay : ∀ r, cc.link.payloadSize + 16 ≤ (W.pool r).size) (hclear : cc.link.clear = false) (hplain : a.plain = true)
    (hs : t.act cc r a = some t') : t'.Plain cc := by
  obtain ⟨x, v', -, hside, hcache⟩ := CachedLink.act_eq hs
  obtain ⟨ht, hstores, -⟩ := h.seen_ops (c := cc.link) (hst.sees h hf r) a
  obtain ⟨s', hs', hst'⟩ := hst.act h hf hpay (hp.careful (.act r a)) hs
  obtain ⟨x', w', hx', rfl⟩ := Link.step_cases hs'
  rw [hst.side] at hside hcache
  obtain rfl : x = x' := by
    have heq := congrFun (hside.symm.trans hst'.side) r
    simpa only [Function.update_self] using heq
  have hheld := hp.held
  have hclean := hp.clean
  rw [hst.side] at hheld hclean
  obtain ⟨hheld', hgots⟩ := Side.plain_gots hplain (hheld r) hx'
  rw [ht, hstores] at hcache
  refine ⟨fun q => ?_, fun q g hg L hL => ?_⟩
  · rw [hside]
    by_cases hq : q = r
    · subst hq
      rw [Function.update_self]
      exact hheld'
    · rw [Function.update_of_ne hq]
      exact hheld q
  · rw [hside] at hg
    rw [hcache]
    by_cases hq : q = r
    swap
    · rw [Function.update_of_ne hq] at hg ⊢
      exact hclean q g hg L hL
    subst hq
    rw [Function.update_self] at hg ⊢
    intro hd
    rcases Cache.store_dirty.1 (Cache.settle_dirty.1 hd).2 with hd | hd
    · rcases hgots g hg with hg | ⟨-, hnone⟩
      · exact h.plain_stores hf hclear hplain (hheld q) hx' hg hL hd
      · rw [hnone] at hd
        cases hd
    · obtain ⟨hnot, hd⟩ := Cache.invalidate_dirty.1 hd
      rcases hgots g hg with hg | ⟨hg, -⟩
      · exact hclean q g hg L hL hd
      · rw [hg] at hnot
        exact hnot hL

/-- Every plain run is careful. -/
theorem CachedLink.Reachable.careful_of_plain {t₀ : CachedLink} {s₀ : Link} {P₀ : ∀ r, Custody (W.pool r).ids}
    (h : CachedLink.Reachable cc (fun _ ev => ev.plain cc.link = true) t₀ t) (h₀ : LinkInv W s₀ P₀) (hf : cc.Fits W)
    (hpay : ∀ r, cc.link.payloadSize + 16 ≤ (W.pool r).size) (hst : t₀.Stands cc s₀) (hp : t₀.Plain cc) :
    CachedLink.Reachable cc (CachedLink.careful cc) t₀ t := by
  by_cases hclear : cc.link.clear = false
  swap
  · induction h with
    | start => exact .start
    | @step t t' ev _ hplain hs ih =>
      refine .step ih ?_ hs
      cases ev with
      | act => exact fun hc => absurd hc hclear
      | fill => exact trivial
      | evict => exact trivial
  suffices hall : CachedLink.Reachable cc (CachedLink.careful cc) t₀ t ∧ t.Plain cc from hall.1
  induction h with
  | start => exact ⟨.start, hp⟩
  | @step t t' ev _ hplain hs ih =>
    obtain ⟨hreach, hp⟩ := ih
    refine ⟨.step hreach (hp.careful ev) hs, ?_⟩
    obtain ⟨s, hlink, hst⟩ := hreach.stands h₀ hf hpay hst
    obtain ⟨P, hinv⟩ := h₀.reachable hpay hlink
    cases ev with
    | act r a =>
      refine hp.act hst hinv hf hpay hclear ?_ hs
      simpa [CacheEvent.plain, hclear] using hplain
    | fill r L =>
      cases hs
      refine ⟨hp.held, fun q g hg L' hL hd => hp.clean q g hg L' hL ?_⟩
      by_cases hq : q = r
      · subst hq
        simp only [Function.update_self] at hd
        exact Cache.fill_dirty.1 hd
      · simpa only [Function.update_of_ne hq] using hd
    | evict r L =>
      cases hs
      refine ⟨hp.held, fun q g hg L' hL hd => hp.clean q g hg L' hL ?_⟩
      by_cases hq : q = r
      · subst hq
        simp only [Function.update_self] at hd
        exact (Cache.settle_dirty.1 (Cache.invalidate_dirty.1 hd).2).2
      · simpa only [Function.update_of_ne hq] using hd

end

/-! ## From a ready start -/

section

variable {w : Nat} {p : ShmemParams} {addr : Nat} {env envR : InitEnv} {highestM highestR linkId : UInt32}
  {cfg : ShmemConfig} {length : Nat} {m m' : ByteMem} {dm dr : RpmsgLiteInstance} {cc : CacheConfig} {t : CachedLink}
  {cache : Role → Cache Nat UInt8 Nat}

/-- The caches know where the buffers and the descriptors are, and the buffers are made of whole lines. -/
structure CacheConfig.Placed (cc : CacheConfig) (w : Nat) (p : ShmemParams) (addr : Nat) : Prop where
  lo : cc.lo = shMemBase w p addr
  hi : cc.hi = shMemBase w p addr + p.bufferSize * (p.count.toNat + p.count.toNat)
  descs : cc.descs = [0, 1].map fun i => ((vringOf w p addr i).desc, 16 * p.count.toNat)
  base : cc.lineSize ∣ shMemBase w p addr
  size : cc.lineSize ∣ p.bufferSize

theorem CacheConfig.Placed.fits (h : cc.Placed w p addr) (hl : LayoutOk w p addr) : cc.Fits hl.pools := by
  have hpos : 0 < cc.lineSize := Nat.pos_of_dvd_of_pos h.size (by have := hl.size_ge; omega)
  have hsize : ∀ q, (hl.pools.pool q).size = p.bufferSize := hl.pool_size
  have hnum : ∀ q, (hl.pools.pool q).vr.num = p.count.toNat := hl.pool_vr_num
  have hbase : ∀ q, (hl.pools.pool q).base = shMemBase w p addr := fun q => by cases q <;> rfl
  have hlo : ∀ q, (hl.pools.pool q).lo + p.count.toNat ≤ p.count.toNat + p.count.toNat := fun q => by
    cases q with
    | master => exact Nat.le_refl _
    | remote => exact Nat.add_le_add_right (Nat.zero_le _) _
  refine ⟨hpos, fun q d _ => ?_, fun q => ?_, fun q => ⟨?_, ?_⟩, fun q => ?_, fun a ha => ?_⟩
  · unfold BufferPool.buffer bufferAt
    rw [hbase, hsize]
    exact Nat.dvd_add h.base (Dvd.dvd.mul_right h.size _)
  · rw [hsize]
    exact h.size
  · rw [h.lo, BufferPool.bufLo, hbase]
    exact Nat.le_add_right _ _
  · rw [h.hi, BufferPool.bufHi, hbase, hsize, hnum]
    exact Nat.add_le_add_left (Nat.mul_le_mul_left _ (hlo q)) _
  · rw [h.lo, h.hi]
    cases q with
    | master => exact hl.bufs1
    | remote => exact Or.inl hl.bufs0
  · obtain ⟨x, hx, ha⟩ := ha
    rw [h.descs] at hx
    simp only [List.map_cons, List.map_nil, List.mem_cons, List.not_mem_nil, or_false] at hx
    rcases hx with rfl | rfl
    · exact ⟨.remote, ha⟩
    · exact ⟨.master, ha⟩

/-- A state of the cached link that the cores cannot tell from the state `s` of the link without caches. -/
structure CachedLink.Coherent (cc : CacheConfig) (W : Pools) (t : CachedLink) (s : Link) : Prop where
  side : t.side = s.side
  sees : ∀ r, Sees W (s.side r).gots s.m (t.see cc (t.cache r))
  delivered : ∀ r, (t.side r.peer).rx.recv <+: (t.side r).tx.sent.map Msg.seen

theorem CachedLink.Reachable.coherent {W : Pools} {t₀ : CachedLink} {s₀ : Link} {P₀ : ∀ r, Custody (W.pool r).ids}
    (h : CachedLink.Reachable cc (CachedLink.careful cc) t₀ t) (h₀ : LinkInv W s₀ P₀) (hf : cc.Fits W)
    (hpay : ∀ r, cc.link.payloadSize + 16 ≤ (W.pool r).size) (hst : t₀.Stands cc s₀) :
    ∃ s, Link.Reachable cc.link s₀ s ∧ t.Coherent cc W s := by
  obtain ⟨s, hreach, hst⟩ := h.stands h₀ hf hpay hst
  obtain ⟨P, hinv⟩ := h₀.reachable hpay hreach
  refine ⟨s, hreach, hst.side, fun r => ?_, fun r => ?_⟩
  · exact hst.sees hinv hf r
  · have hfifo := (hinv.flow r).contents.fifo
    rw [hst.side, hfifo]
    exact List.prefix_append _ _

theorem CachedLink.stands_start (hcache : ∀ r L, (cache r).state L ≠ .dirty) (hdesc : Cache.Copies cc.line cc.Desc cache m') :
    (CachedLink.start m' dm dr cache).Stands cc (Link.start m' dm dr) := by
  refine ⟨by funext r; cases r <;> rfl,
    (Cache.Coherent.start hcache).rehand ?_ (fun r L hd => absurd hd (hcache r L)) ?_, hdesc⟩
  · rintro r q L ⟨g, hg, -⟩
    cases r <;> cases hg
  · rintro r L ⟨g, hg, -⟩
    cases r <;> cases hg

theorem CachedLink.plain_start (hcache : ∀ r L, (cache r).state L ≠ .dirty) : (CachedLink.start m' dm dr cache).Plain cc :=
  ⟨fun r => by cases r <;> rfl, fun r _ _ L _ => hcache r L⟩

end

/-! ## Two buffers of one line each -/

namespace CachedLink

instance (cc : CacheConfig) (t : CachedLink) (ev : CacheEvent) : Decidable (t.careful cc ev) :=
  match ev with
  | .act r a => inferInstanceAs (Decidable
      (cc.link.clear = false → ∀ g ∈ (t.side r).freed a, ∀ L ∈ cc.lines g.span, (t.cache r).state L ≠ .dirty))
  | .fill _ _ => inferInstanceAs (Decidable True)
  | .evict _ _ => inferInstanceAs (Decidable True)

/-- A run whose steps pass a test. -/
def run (cc : CacheConfig) (ok : CachedLink → CacheEvent → Bool) (t : CachedLink) : List CacheEvent → Option CachedLink
  | [] => some t
  | ev :: evs => if ok t ev then (t.step cc ev).bind fun t => t.run cc ok evs else none

theorem reachable_of_run {cc : CacheConfig} {ok : CachedLink → CacheEvent → Bool} {good : CachedLink → CacheEvent → Prop}
    {t₀ t t' : CachedLink} {evs : List CacheEvent} (hok : ∀ t ev, ok t ev = true → good t ev) (h : Reachable cc good t₀ t)
    (hr : t.run cc ok evs = some t') : Reachable cc good t₀ t' := by
  have hrun : IsRun (IsRun.guarded ok (CachedLink.step cc)) (run cc ok) := .of_guarded (fun _ => rfl) fun _ _ _ => rfl
  exact hrun.keeps_of_check (fun hc h hs => h.step (hok _ _ hc) hs) h hr

/-- Caches with nothing in them. -/
def empty : Role → Cache Nat UInt8 Nat := fun _ => ⟨fun _ => .absent, fun _ => 0⟩

theorem empty_copies (cc : CacheConfig) (m : ByteMem) : Cache.Copies cc.line cc.Desc empty m := fun _ _ _ hs => absurd rfl hs

/-- Buffers of 32 bytes from address 4512 on. -/
def oneLine : CacheConfig where
  link := ⟨false, 16, 16⟩
  lineSize := 32
  lo := 4512
  hi := 4640
  descs := [(4128, 32), (4320, 32)]

/-- The master sends, and the remote holds the message and returns its buffer. -/
def holds : List CacheEvent :=
  [.act .master (.tx .allocTxBuffer), .act .master (.tx (.sendNocopy 0 7 9 0)), .act .remote (.rx .rx), .act .remote (.rx .read),
   .act .remote (.rx (.done true))]

/-- The master has taken the other buffer and sends another message in the returned one; then the line of that buffer that is
still dirty in the remote's cache leaves it. -/
def overwrites : List CacheEvent :=
  [.act .remote (.rx (.releaseRxBuffer 0)), .act .master (.tx .allocTxBuffer), .act .master (.tx .allocTxBuffer),
   .act .master (.tx (.sendNocopy 1 5 6 0)), .evict .remote 143, .act .remote (.rx .rx), .act .remote (.rx .read)]

theorem of_check (ok : CachedLink → CacheEvent → Bool) (evs : List CacheEvent) (test : CachedLink → Bool)
    (h : (rpmsgLiteRemoteInit 32 InitEnv.ok 0 (.build (headerTwo 64 align_64_le headerVringSize_two_lt)) 4128 0).any (fun dr =>
      (rpmsgLiteMasterInit 32 InitEnv.ok 0 (.build (headerTwo 64 align_64_le headerVringSize_two_lt)) 4128 512 0 (fun _ => 0)).check
        fun dm m' => ((start m' dm dr empty).run oneLine ok evs).any test) = true) :
    ∃ dm m' dr t,
      rpmsgLiteMasterInit 32 InitEnv.ok 0 (.build (headerTwo 64 align_64_le headerVringSize_two_lt)) 4128 512 0 (fun _ => 0) =
        .instance dm m' ∧
      rpmsgLiteRemoteInit 32 InitEnv.ok 0 (.build (headerTwo 64 align_64_le headerVringSize_two_lt)) 4128 0 = some dr ∧
      (start m' dm dr empty).run oneLine ok evs = some t ∧ test t = true := by
  obtain ⟨dr, hr, hcheck⟩ := (Option.any_eq_true _ _).1 h
  obtain ⟨dm, m', hm, ht⟩ := InitResult.of_check hcheck
  obtain ⟨t, hrun, ht⟩ := (Option.any_eq_true _ _).1 ht
  exact ⟨dm, m', dr, t, hm, hr, hrun, ht⟩

theorem linkReady_oneLine : LinkReady 32 (.build (headerTwo 64 align_64_le headerVringSize_two_lt)) 4128
    ((headerTwo 64 align_64_le headerVringSize_two_lt).params 32) (fun _ => 0) :=
  header_linkReady (k := 6) rfl rfl (by decide) (by decide) fun _ _ _ _ _ => Or.inr rfl

theorem oneLine_placed : oneLine.Placed 32 ((headerTwo 64 align_64_le headerVringSize_two_lt).params 32) 4128 :=
  ⟨by decide, by decide, by decide, by decide, by decide⟩

end CachedLink

/-- Without the write-back the buffer takes its old header along: the second message arrives as the first. -/
theorem cached_link_overwritten : ∃ dm m' dr t,
    rpmsgLiteMasterInit 32 InitEnv.ok 0 (.build (headerTwo 64 align_64_le headerVringSize_two_lt)) 4128 512 0 (fun _ => 0) =
      .instance dm m' ∧
    rpmsgLiteRemoteInit 32 InitEnv.ok 0 (.build (headerTwo 64 align_64_le headerVringSize_two_lt)) 4128 0 = some dr ∧
    (CachedLink.start m' dm dr CachedLink.empty).run CachedLink.oneLine (fun _ _ => true)
      (CachedLink.holds ++ CachedLink.overwrites) = some t ∧
    (t.side .master).tx.sent = [⟨7, 9, 0, []⟩, ⟨5, 6, 0, []⟩] ∧
    (t.side .remote).rx.recv = [⟨7, 9, 0, []⟩, ⟨7, 9, 0, []⟩] := by
  obtain ⟨dm, m', dr, t, hm, hr, hrun, ht⟩ := CachedLink.of_check (fun _ _ => true) (CachedLink.holds ++ CachedLink.overwrites)
    (fun t => (t.side .master).tx.sent == [⟨7, 9, 0, []⟩, ⟨5, 6, 0, []⟩] &&
      (t.side .remote).rx.recv == [⟨7, 9, 0, []⟩, ⟨7, 9, 0, []⟩]) (by decide +kernel)
  obtain ⟨hsent, hrecv⟩ := Bool.and_eq_true_iff.1 ht
  exact ⟨dm, m', dr, t, hm, hr, hrun, eq_of_beq hsent, eq_of_beq hrecv⟩

end RpmsgLite
