/-
Many links on one shared memory. Every link has a window of its own, in which its two initialisations lay out its vrings
and buffers; links come up one after the other while others already run. No step of a link, its initialisation included,
reaches a byte of another window, so each link behaves as if it were alone.
-/
import RpmsgLite.Link.Channels

namespace RpmsgLite

open ByteMem MaskArith

/-- What both sides of a link are given, and the window that is meant for it. -/
structure LinkSpec where
  cfg : ShmemConfig
  addr : Nat
  length : Nat
  linkId : UInt32
  highestM : UInt32
  highestR : UInt32
  env : InitEnv
  envR : InitEnv
  build : LinkConfig
  lo : Nat
  hi : Nat

/-- The two sides agree on a layout without overlap, and all of it lies in the window. -/
structure LinkSpec.Placed (w : Nat) (L : LinkSpec) (p : ShmemParams) : Prop where
  params : masterParams w L.cfg = some p
  fits : L.addr + L.length ≤ 2 ^ 32
  layout : LayoutOk w p L.addr
  payload : L.cfg.payloadSize + 16 ≤ p.bufferSize
  build : L.build.payloadSize = L.cfg.payloadSize
  cap : CapAgrees w L.addr L.cfg
  vring : ∀ idx < 2, L.lo ≤ (vringOf w p L.addr idx).desc ∧ (vringOf w p L.addr idx).touchedEnd (zeroedSize w p) ≤ L.hi
  bufs : L.lo ≤ shMemBase w p L.addr ∧ shMemBase w p L.addr + p.bufferSize * (p.count.toNat + p.count.toNat) ≤ L.hi

/-! ## An initialisation stays in its window -/

section Init

variable {w : Nat} {p : ShmemParams} {L : LinkSpec} {m m' : ByteMem} {dev : RpmsgLiteInstance} {count : Nat}

theorem LinkSpec.Placed.vringLoop_frame (h : L.Placed w p) : Frame m (vringLoopMem w p L.addr L.linkId m) L.lo L.hi := by
  have hl := h.layout
  obtain ⟨hlo0, hhi0⟩ := h.vring 0 (by decide)
  obtain ⟨hlo1, hhi1⟩ := h.vring 1 (by decide)
  have hend : ∀ vr : Vring, vr.desc + zeroedSize w p ≤ vr.touchedEnd (zeroedSize w p) := fun vr => le_max_right _ _
  have hwf0 : (initVq w p L.addr L.linkId .rxCallback 0).Wf := initVq_wf hl.laid0
  have hwf1 : (initVq w p L.addr L.linkId .txCallback 1).Wf := initVq_wf hl.laid1
  have f0 := (vringMem_spec (m := m) hwf0 rfl hl.zeroed).1
  have f1 := fun m => (vringMem_spec (m := m) hwf1 rfl hl.zeroed).1
  unfold vringLoopMem
  exact (f0.mono hlo0 ((hend _).trans hhi0)).trans ((f1 _).mono hlo1 ((hend _).trans hhi1))

theorem FillInv.window {total lo i : Nat} {isRvq : Bool} {vq : Virtqueue} {st : FillState} {a b : Nat}
    (hinv : FillInv w p L.addr total lo isRvq vq m i st) (hlaid : vq.ring.Laid) (hdesc : a ≤ vq.ring.desc)
    (hend : vq.ring.usedEnd ≤ b) (hlo : a ≤ shMemBase w p L.addr + p.bufferSize * lo)
    (hhi : shMemBase w p L.addr + p.bufferSize * (lo + i) ≤ b) :
    Frame m st.m a b := by
  have h1 := hlaid.desc_le_ringLo (fillKind isRvq)
  have h2 := hlaid.ringHi_le (fillKind isRvq)
  have h3 := hlaid.descEnd_le_usedEnd
  exact fun x hx => hinv.frame x (by omega) (by omega) (by omega)

/-- A successful initialisation of the master stores inside the window only. -/
theorem LinkSpec.Placed.init_frame (h : L.Placed w p) (hrun : MasterRun w L.env L.cfg L.addr L.length L.linkId m p count dev m')
    (ht : p.count.toNat + p.count.toNat ≤ wrap 32 count) : Frame m m' L.lo L.hi := by
  have hl := h.layout
  obtain ⟨st0, st1, hf, rfl⟩ := hrun.filled hl ht
  obtain ⟨hlo0, hhi0⟩ := h.vring 0 (by decide)
  obtain ⟨hlo1, hhi1⟩ := h.vring 1 (by decide)
  have hend : ∀ vr : Vring, vr.usedEnd ≤ vr.touchedEnd (zeroedSize w p) := fun vr => le_max_left _ _
  obtain ⟨hb0, hb1⟩ := h.bufs
  have hmul : p.bufferSize * (p.count.toNat + p.count.toNat) = p.bufferSize * p.count.toNat + p.bufferSize * p.count.toNat :=
    Nat.mul_add _ _ _
  have f0 := hf.first.window hl.laid0 hlo0 ((hend _).trans hhi0) (by omega) (by rw [Nat.zero_add]; omega)
  have f1 := hf.second.window hl.laid1 hlo1 ((hend _).trans hhi1) (by omega) hb1
  exact (h.vringLoop_frame.trans f0).trans f1

end Init

/-- With a computed vring size the window is the memory that the configuration asks for. -/
theorem header_placed {L : LinkSpec} {c : BuildConfig} {k : Nat} (hcfg : L.cfg = .build c)
    (hv : c.vringSize = headerVringSize c.bufferCount c.vringAlign) (hk : c.vringAlign = 2 ^ k)
    (hpay : c.payloadSize + 19 < 2 ^ 32) (hfits : L.addr + L.length ≤ 2 ^ 32) (hbuild : L.build.payloadSize = c.payloadSize)
    (hlo : L.lo ≤ wordUp L.addr) (hhi : wordUp L.addr + c.span ≤ L.hi) (htop : wordUp L.addr + c.span ≤ 2 ^ 32) :
    L.Placed 32 (c.params 32) := by
  have hl := header_layoutOk hv hk hpay htop
  have ha : 0 < c.vringAlign := hk ▸ Nat.two_pow_pos k
  have hcnt := c.params_count 32
  have hz := headerVring_zeroed (n := c.bufferCount) (k := k)
  rw [← hk, ← headerVringSize_eq ha c.align_le c.count_le, ← hv] at hz
  have hzs := zeroedSize_eq (w := 32) (p := c.params 32) (by decide) ha c.align_le
  rw [hcnt, show (c.params 32).align = c.vringAlign from rfl] at hzs
  have hpos := c.isSize.pos
  have hprod : 16 * (2 * c.bufferCount) ≤ (c.params 32).bufferSize * (2 * c.bufferCount) := Nat.mul_le_mul_right _ hl.size_ge
  have hspan : c.span = 2 * c.vringSize + (c.params 32).bufferSize * (2 * c.bufferCount) := rfl
  obtain ⟨hb0, hb1, hbase⟩ := header_bases L.addr hv ha (by omega)
  have hord := hl.order
  have hb := hl.bufs1.resolve_right (by rw [vringOf_desc, hb1, hbase, hcnt]; omega)
  rw [vringOf_desc, hb1] at hord
  rw [hbase] at hb
  refine ⟨by rw [hcfg]; rfl, hfits, hl, ?_, ?_, ?_, ?_, ?_⟩
  · rw [hcfg]
    exact (rlBufferSize_holds_iff c.payload_lt).2 hpay
  · rw [hcfg]
    exact hbuild
  · rw [hcfg]
    trivial
  · intro idx hidx
    have hdesc : ∀ idx, (vringOf 32 (c.params 32) L.addr idx).desc = vringBase 32 (c.params 32) L.addr idx := fun _ => rfl
    unfold Vring.touchedEnd
    rw [hdesc]
    obtain rfl | rfl : idx = 0 ∨ idx = 1 := by omega
    · rw [hb0]
      exact ⟨hlo, max_le (by omega) (by omega)⟩
    · rw [hb1]
      exact ⟨by omega, max_le (by omega) (by omega)⟩
  · rw [hbase, hcnt, ← Nat.two_mul]
    omega

/-! ## The network -/

/-- The memory, and the two sides of the links that are up. -/
structure Network (ι : Type) where
  m : ByteMem
  side : ι → Option (Role → Side)

namespace Network

inductive Move (ι : Type)
  /-- both initialisations of a link -/
  | init (i : ι)
  | step (i : ι) (r : Role) (a : Act)

def Move.link {ι : Type} : Move ι → ι
  | .init i => i
  | .step i _ _ => i

variable {ι : Type} [DecidableEq ι]

def step (w : Nat) (L : ι → LinkSpec) (N : Network ι) : Move ι → Option (Network ι)
  | .init i =>
    match N.side i with
    | some _ => none
    | none =>
      match rpmsgLiteMasterInit w (L i).env (L i).highestM (L i).cfg (L i).addr (L i).length (L i).linkId N.m with
      | .instance dm m =>
        (rpmsgLiteRemoteInit w (L i).envR (L i).highestR (L i).cfg (L i).addr (L i).linkId).map fun dr =>
          { m := m, side := Function.update N.side i (some (Link.start m dm dr).side) }
      | _ => none
  | .step i r a =>
    (N.side i).bind fun side => (Link.step (L i).build { m := N.m, side := side } r a).map fun l =>
      { m := l.m, side := Function.update N.side i (some l.side) }

/-- No link is up. -/
def start (m : ByteMem) : Network ι := ⟨m, fun _ => none⟩

inductive Reachable (w : Nat) (L : ι → LinkSpec) (N₀ : Network ι) : Network ι → Prop
  | start : Reachable w L N₀ N₀
  | step {N N' : Network ι} {mv : Move ι} (h : Reachable w L N₀ N) (hs : N.step w L mv = some N') : Reachable w L N₀ N'

/-- A run of several steps. -/
def run (w : Nat) (L : ι → LinkSpec) : Network ι → List (Move ι) → Option (Network ι)
  | N, [] => some N
  | N, mv :: mvs => (N.step w L mv).bind fun N => N.run w L mvs

theorem isRun (w : Nat) (L : ι → LinkSpec) : IsRun (step w L) (run w L) := ⟨fun _ => rfl, fun _ _ _ => rfl⟩

theorem reachable_of_run {w : Nat} {L : ι → LinkSpec} {N₀ N N' : Network ι} {mvs : List (Move ι)} (h : Reachable w L N₀ N)
    (hr : N.run w L mvs = some N') : Reachable w L N₀ N' :=
  (isRun w L).keeps (fun h hs => h.step hs) h hr

/-- What a step can do. -/
inductive Stepped (w : Nat) (L : ι → LinkSpec) (N : Network ι) : Move ι → Network ι → Prop
  | init {i : ι} {m : ByteMem} {dm dr : RpmsgLiteInstance} (hi : N.side i = none)
      (hm : rpmsgLiteMasterInit w (L i).env (L i).highestM (L i).cfg (L i).addr (L i).length (L i).linkId N.m = .instance dm m)
      (hr : rpmsgLiteRemoteInit w (L i).envR (L i).highestR (L i).cfg (L i).addr (L i).linkId = some dr) :
      Stepped w L N (.init i) { m := m, side := Function.update N.side i (some (Link.start m dm dr).side) }
  | step {i : ι} {r : Role} {a : Act} {side : Role → Side} {l : Link} (hi : N.side i = some side)
      (hs : Link.step (L i).build { m := N.m, side := side } r a = some l) :
      Stepped w L N (.step i r a) { m := l.m, side := Function.update N.side i (some l.side) }

theorem step_cases {w : Nat} {L : ι → LinkSpec} {N N' : Network ι} {mv : Move ι} (h : N.step w L mv = some N') :
    N.Stepped w L mv N' := by
  cases mv with
  | init i =>
    simp only [step] at h
    split at h
    · cases h
    · rename_i hi
      split at h
      · rename_i hm
        obtain ⟨dr, hr, rfl⟩ := Option.map_eq_some_iff.1 h
        exact .init hi hm hr
      · cases h
  | step i r a =>
    obtain ⟨side, hi, h⟩ := Option.bind_eq_some_iff.1 h
    obtain ⟨l, hs, rfl⟩ := Option.map_eq_some_iff.1 h
    exact .step hi hs

end Network

/-! ## A step of a link stays in its pools -/

section

variable {W : Pools} {c : LinkConfig} {s s' : Link} {P : ∀ r, Custody (W.pool r).ids} {r : Role} {m' : ByteMem}

theorem LinkInv.step_touches (h : LinkInv W s P) (hpay : ∀ r, c.payloadSize + 16 ≤ (W.pool r).size) {a : Act}
    (hs : s.step c r a = some s') : ∃ q, (W.pool q).Touches s.m s'.m := by
  obtain ⟨x, m', ha, rfl⟩ := Link.step_cases hs
  cases a with
  | tx a =>
    obtain ⟨-, -, ht, -⟩ := (h.flow r).txStep (by rw [h.role r]) (hpay r) ha
    exact ⟨r, ht⟩
  | rx a =>
    have hin := h.flow r.peer
    rw [Role.peer_peer] at hin
    obtain ⟨-, -, ht, -⟩ := hin.rxStep (by rw [h.role r, Role.getKind_peer, RingKind.other_other]) ha
    exact ⟨r.peer, ht⟩
  | txCallback =>
    cases ha
    exact ⟨r, .refl _ _⟩

/-- Stores elsewhere leave the invariant and the channels alone. -/
theorem LinkInv.same (h : LinkInv W s P) (hm : ∀ r, (W.pool r).Same s.m m') :
    LinkInv W { m := m', side := s.side } P ∧ ({ m := m', side := s.side } : Link).duplex = s.duplex := by
  have h' : LinkInv W { m := m', side := s.side } P := ⟨h.role, h.running, fun r => (h.flow r).same (hm r)⟩
  refine ⟨h', ?_⟩
  have hchan : ({ m := m', side := s.side } : Link).channel = s.channel := by
    funext r
    rw [h.channel, h'.channel]
    refine (h.flow r).view_same (h'.flow r) fun e he _ => ?_
    obtain ⟨-, h1, h2⟩ := BufferPool.buffer_bounds he
    exact (hm r).bufs.mono h1 h2
  unfold Link.duplex
  rw [hchan]

end

/-! ## Every run -/

namespace Network

variable {ι : Type}

/-- Every link has a window of its own, in which the used indices that its initialisation does not clear are zero. -/
structure Placed (w : Nat) (L : ι → LinkSpec) (p : ι → ShmemParams) (m : ByteMem) : Prop where
  link : ∀ i, (L i).Placed w (p i)
  apart : ∀ i j, i ≠ j → Apart (L i).lo (L i).hi (L j).lo (L j).hi
  cleared : ∀ i, ∀ idx < 2, UsedCleared m (vringOf w (p i) (L i).addr idx) (zeroedSize w (p i))

variable {w : Nat} {L : ι → LinkSpec} {p : ι → ShmemParams} {m₀ : ByteMem} {N N' : Network ι} {mv : Move ι}

/-- A link that is down finds its window as it was at the start; one that is up has reached its state as channels of its
own. -/
def LinkAt (hpl : Placed w L p m₀) (m : ByteMem) (i : ι) : Option (Role → Side) → Prop
  | none => Agree m₀ m (L i).lo (L i).hi
  | some side =>
    (∃ P, LinkInv (hpl.link i).layout.pools { m := m, side := side } P) ∧
      Duplex.Reachable (L i).build (.start (p i).count.toNat fun r => r = .master) ({ m := m, side := side } : Link).duplex

def Inv (hpl : Placed w L p m₀) (N : Network ι) : Prop := ∀ i, LinkAt hpl N.m i (N.side i)

/-- The pools of a link lie in its window. -/
theorem Placed.pool_inside (hpl : Placed w L p m₀) (i : ι) (r : Role) :
    (L i).lo ≤ ((hpl.link i).layout.pools.pool r).vr.desc ∧ ((hpl.link i).layout.pools.pool r).vr.usedEnd ≤ (L i).hi ∧
      (L i).lo ≤ ((hpl.link i).layout.pools.pool r).bufLo ∧ ((hpl.link i).layout.pools.pool r).bufHi ≤ (L i).hi := by
  have h := hpl.link i
  obtain ⟨hlo0, hhi0⟩ := h.vring 0 (by decide)
  obtain ⟨hlo1, hhi1⟩ := h.vring 1 (by decide)
  have hend : ∀ vr : Vring, vr.usedEnd ≤ vr.touchedEnd (zeroedSize w (p i)) := fun vr => le_max_left _ _
  obtain ⟨hb0, hb1⟩ := h.bufs
  have hmul : (p i).bufferSize * ((p i).count.toNat + (p i).count.toNat) =
      (p i).bufferSize * (p i).count.toNat + (p i).bufferSize * (p i).count.toNat := Nat.mul_add _ _ _
  cases r with
  | master =>
    refine ⟨hlo1, (hend _).trans hhi1, ?_, hb1⟩
    show (L i).lo ≤ shMemBase w (p i) (L i).addr + (p i).bufferSize * (p i).count.toNat
    omega
  | remote =>
    refine ⟨hlo0, (hend _).trans hhi0, ?_, ?_⟩
    · show (L i).lo ≤ shMemBase w (p i) (L i).addr + (p i).bufferSize * 0
      omega
    · show shMemBase w (p i) (L i).addr + (p i).bufferSize * (0 + (p i).count.toNat) ≤ (L i).hi
      rw [Nat.zero_add]
      omega

theorem Placed.frame_of_touches (hpl : Placed w L p m₀) {i : ι} {r : Role} {m m' : ByteMem}
    (h : ((hpl.link i).layout.pools.pool r).Touches m m') : Frame m m' (L i).lo (L i).hi := by
  obtain ⟨h1, h2, h3, h4⟩ := hpl.pool_inside i r
  exact fun a ha => h a (by omega) (by omega)

theorem Placed.same (hpl : Placed w L p m₀) {i : ι} {m m' : ByteMem} (h : Agree m m' (L i).lo (L i).hi) (r : Role) :
    ((hpl.link i).layout.pools.pool r).Same m m' := by
  obtain ⟨h1, h2, h3, h4⟩ := hpl.pool_inside i r
  exact ⟨h.mono h1 h2, h.mono h3 h4⟩

/-- In an untouched window the link is ready to come up. -/
theorem Placed.ready (hpl : Placed w L p m₀) {i : ι} {m : ByteMem} (h : Agree m₀ m (L i).lo (L i).hi) :
    LinkReady w (L i).cfg (L i).addr (p i) m := by
  have hl := hpl.link i
  refine ⟨hl.layout, hl.payload, hl.cap, fun idx hidx b h1 h2 => ?_⟩
  obtain ⟨hlo, hhi⟩ := hl.vring idx hidx
  have hend : (vringOf w (p i) (L i).addr idx).usedEnd ≤ (vringOf w (p i) (L i).addr idx).touchedEnd (zeroedSize w (p i)) :=
    le_max_left _ _
  have hlaid : (vringOf w (p i) (L i).addr idx).Laid := by
    obtain rfl | rfl : idx = 0 ∨ idx = 1 := by omega
    · exact hl.layout.laid0
    · exact hl.layout.laid1
  have hdesc := hlaid.desc_le_ringLo .used
  simp only [Vring.ringLo] at hdesc
  simp only [Vring.usedIdxAt] at h1 h2
  simp only [Vring.usedEnd] at hend
  refine (hpl.cleared i idx hidx b h1 h2).imp id fun hz => ?_
  rw [h b (by omega) (by omega), hz]

/-- What a step of another link leaves of this one. -/
theorem LinkAt.other {hpl : Placed w L p m₀} {m m' : ByteMem} {i : ι} {x : Option (Role → Side)} (h : LinkAt hpl m i x)
    (ha : Agree m m' (L i).lo (L i).hi) : LinkAt hpl m' i x := by
  cases x with
  | none => exact Agree.trans h ha
  | some side =>
    obtain ⟨⟨P, hinv⟩, hd⟩ := h
    obtain ⟨hinv', hsame⟩ := hinv.same (hpl.same ha)
    exact ⟨⟨P, hinv'⟩, hsame ▸ hd⟩

variable [DecidableEq ι]

/-- A step stays in the window of its link, and keeps what is known of that link. -/
theorem Inv.own {hpl : Placed w L p m₀} (h : Inv hpl N) (hs : N.step w L mv = some N') :
    Frame N.m N'.m (L mv.link).lo (L mv.link).hi ∧ LinkAt hpl N'.m mv.link (N'.side mv.link) ∧
      ∀ j, j ≠ mv.link → N'.side j = N.side j := by
  cases step_cases hs with
  | @init i m dm dr hi hm hr =>
    have hdown := h i
    rw [hi] at hdown
    have hready := hpl.ready hdown
    have hl := hpl.link i
    obtain ⟨P, hinv⟩ := linkInv_start hm hr hl.fits hl.params hready
    have hpay := hready.pool_payload hl.build
    obtain ⟨pm, count, hrun⟩ := masterInit_run hm
    obtain rfl : pm = p i := Option.some.inj (hrun.params.symm.trans hl.params)
    have hwrap : MaskArith.wrap 32 count = count :=
      MaskArith.wrap_of_lt (by have := calc_le hrun.calc_eq; have := hrun.addr_ne; have := hl.fits; omega)
    refine ⟨hl.init_frame hrun (by rw [hwrap]; have := hrun.enough; omega), ?_, fun j hj => Function.update_of_ne hj _ _⟩
    simp only [Move.link, Function.update_self]
    refine ⟨⟨P, hinv⟩, ?_⟩
    rw [show ({ m := m, side := (Link.start m dm dr).side } : Link) = Link.start m dm dr from rfl,
      duplex_start hm hr hl.fits hl.params hready]
    exact .start
  | @step i r a side l hi hstep =>
    have hup := h i
    rw [hi] at hup
    obtain ⟨⟨P, hinv⟩, hd⟩ := hup
    have hl := hpl.link i
    have hpay : ∀ r, (L i).build.payloadSize + 16 ≤ (hl.layout.pools.pool r).size := fun r => by
      rw [hl.layout.pool_size, hl.build]
      exact hl.payload
    obtain ⟨q, ht⟩ := hinv.step_touches hpay hstep
    obtain ⟨P', hinv', -⟩ := hinv.step hpay hstep
    refine ⟨hpl.frame_of_touches ht, ?_, fun j hj => Function.update_of_ne hj _ _⟩
    simp only [Move.link, Function.update_self]
    exact ⟨⟨P', hinv'⟩, hd.step (hinv.simulates hpay hstep)⟩

theorem Inv.step {hpl : Placed w L p m₀} (h : Inv hpl N) (hs : N.step w L mv = some N') : Inv hpl N' := by
  obtain ⟨hf, hown, hside⟩ := h.own hs
  intro j
  by_cases hj : j = mv.link
  · subst hj
    exact hown
  · rw [hside j hj]
    exact (h j).other (hf.agree (hpl.apart j mv.link hj))

theorem Reachable.inv (hpl : Placed w L p m₀) (h : Reachable w L (.start m₀) N) : Inv hpl N := by
  induction h with
  | start => exact fun i => .refl _ _ _
  | step _ hs ih => exact ih.step hs

/-- A link of `n` buffers each way that behaves as if there were no other. -/
structure Alone (c : LinkConfig) (n : Nat) (m : ByteMem) (side : Role → Side) : Prop where
  channels : Duplex.Reachable c (.start n fun r => r = .master) ({ m := m, side := side } : Link).duplex
  conserved : ∀ r, ({ m := m, side := side } : Link).Conserved r n
  delivered : ∀ r, (side r.peer).rx.recv <+: (side r).tx.sent.map Msg.seen
  running : ∀ r, (side r).halted = false

/-- Links in windows of their own, over memory whose used indices are clear there, do not notice each other: in every run
in which links come up in any order and step in any order, each link that is up is alone, and a step of one link, also its
initialisation, changes neither a byte of the others' windows nor what is seen of them. -/
theorem network_isolates (hpl : Placed w L p m₀) (h : Reachable w L (.start m₀) N) :
    (∀ i side, N.side i = some side → Alone (L i).build (p i).count.toNat N.m side) ∧
      ∀ mv N', N.step w L mv = some N' → ∀ j, j ≠ mv.link → N'.side j = N.side j ∧ Agree N.m N'.m (L j).lo (L j).hi ∧
        ∀ side, N.side j = some side →
          ({ m := N'.m, side := side } : Link).duplex = ({ m := N.m, side := side } : Link).duplex := by
  have hinv := h.inv hpl
  refine ⟨fun i side hi => ?_, fun mv N' hs j hj => ?_⟩
  · have hat := hinv i
    rw [hi] at hat
    obtain ⟨⟨P, hl⟩, hd⟩ := hat
    refine ⟨hd, fun r => ?_, fun r => ?_, hl.running⟩
    · rw [← (hpl.link i).layout.pool_vr_num r]
      exact hl.conserved
    · have hfifo := (hl.flow r).fifo
      rw [List.append_assoc] at hfifo
      rw [hfifo]
      exact List.prefix_append _ _
  · obtain ⟨hf, -, hside⟩ := hinv.own hs
    have hag := hf.agree (hpl.apart j mv.link hj)
    refine ⟨hside j hj, hag, fun side hj' => ?_⟩
    have hat := hinv j
    rw [hj'] at hat
    obtain ⟨⟨P, hl⟩, -⟩ := hat
    exact (hl.same (hpl.same hag)).2

/-- Two links of two buffers, one behind the other. -/
def twoLinks (second : Bool) : LinkSpec where
  cfg := .build (headerTwo 64 align_64_le headerVringSize_two_lt)
  addr := if second then 4636 else 4124
  length := 512
  linkId := if second then 1 else 0
  highestM := 1
  highestR := 1
  env := InitEnv.ok
  envR := InitEnv.ok
  build := ⟨false, 16, 16⟩
  lo := if second then 4636 else 4124
  hi := if second then 5148 else 4636

theorem twoLinks_placed :
    Placed 32 twoLinks (fun _ => (headerTwo 64 align_64_le headerVringSize_two_lt).params 32) fun _ => 0 := by
  refine ⟨fun i => ?_, fun i j hij => ?_, fun _ _ _ _ _ _ => Or.inr rfl⟩
  · cases i with
    | false => exact header_placed (k := 6) rfl rfl rfl (by decide) (by decide) rfl (by decide) (by decide) (by decide)
    | true => exact header_placed (k := 6) rfl rfl rfl (by decide) (by decide) rfl (by decide) (by decide) (by decide)
  · cases i with
    | false =>
      cases j with
      | false => exact absurd rfl hij
      | true => exact Or.inl (Nat.le_refl 4636)
    | true =>
      cases j with
      | false => exact Or.inr (Nat.le_refl 4636)
      | true => exact absurd rfl hij

/-- The second link comes up while the first one sends. -/
def bothUp : List (Move Bool) :=
  [.init false, .step false .master (.tx (.send 7 9 [1, 2, 3])), .init true, .step false .master (.tx (.fill 0)),
   .step true .master (.tx .allocTxBuffer), .step false .master (.tx (.enqueue 0)), .step false .remote (.rx .rx),
   .step false .remote (.rx .read)]

theorem network_isolates_two :
    ∃ N side, (Network.start fun _ => 0).run 32 twoLinks bothUp = some N ∧ N.side false = some side ∧
    (side .remote).rx.recv = [⟨7, 9, 3, [1, 2, 3]⟩] ∧ Alone ⟨false, 16, 16⟩ 2 N.m side := by
  have ht : ((Network.start fun _ => 0).run 32 twoLinks bothUp).any (fun N =>
      (N.side false).any fun side => (side .remote).rx.recv == [⟨7, 9, 3, [1, 2, 3]⟩]) = true := by decide +kernel
  obtain ⟨N, hN, ht⟩ := (Option.any_eq_true _ _).1 ht
  obtain ⟨side, hside, hrecv⟩ := (Option.any_eq_true _ _).1 ht
  refine ⟨N, side, hN, hside, eq_of_beq hrecv, ?_⟩
  exact (network_isolates twoLinks_placed (reachable_of_run .start hN)).1 false side hside

end Network

end RpmsgLite
