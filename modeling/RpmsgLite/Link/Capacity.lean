/-
The payload size that `rpmsg_lite_alloc_tx_buffer` reports, and what `rpmsg_lite_send_nocopy` accepts. The first is the
descriptor's length less the header, and that length was rounded up to a word; the second is the configured payload
size, which was not.
-/
import RpmsgLite.Link.LinkState
import RpmsgLite.Link.ZeroCopy

namespace RpmsgLite

open ByteMem MaskArith

/-! ## The buffer size -/

theorem rlBufferSize_eq {w payload : Nat} (hw : 32 ≤ w) (h : payload ≤ 65532) :
    rlBufferSize w payload = wordUp (payload + 16) := by
  have hlt : 2 ^ 32 ≤ 2 ^ w := Nat.pow_le_pow_right (by decide) hw
  have hup : rlWordAlignUp w (wrap w (payload + 16)) = wordUp (payload + 16) := by
    rw [wrap_of_lt (by omega), rlWordAlignUp_of_lt (by omega) (by omega)]
  unfold rlBufferSize
  rw [hup]
  exact wrap_of_lt (by unfold wordUp; omega)

theorem masterParams_bufferSize {w : Nat} {cfg : ShmemConfig} {p : ShmemParams} (h : masterParams w cfg = some p) :
    p.bufferSize = rlBufferSize w cfg.payloadSize := by
  cases cfg with
  | build c =>
    cases h
    rfl
  | custom o =>
    cases o with
    | none => cases h
    | some c =>
      simp only [masterParams] at h
      split at h
      · cases h
      split at h
      · cases h
      split at h
      · cases h
      · cases h
        show rlBufferSize w c.capAlign.bufferPayloadSize.toNat = _
        rw [RpmsgPlatformShmemConfig.capAlign_payload]
        rfl

/-- A word-aligned buffer has no room beyond the payload exactly when the payload is a number of words. -/
theorem wordUp_sub_le_iff (payload : Nat) : wordUp (payload + 16) - 16 ≤ payload ↔ RL_WORD_SIZE ∣ payload := by
  unfold wordUp RL_WORD_SIZE
  omega

/-! ## Zero-copy buffers -/

/-- Who has a zero-copy buffer has its link up. -/
def Side.UpIfOwned (x : Side) : Prop := x.tx.owned ≠ [] → x.dev.linkState = true

section

variable {c : LinkConfig} {x x' : Side} {m m' : ByteMem}

theorem Side.txStep_owned {a : TxAct} (ha : x.txStep c m a = some (x', m')) :
    x'.tx.owned ⊆ x.tx.owned ∨ x.dev.linkState = true := by
  cases Side.txStep_cases ha with
  | sendRefused => exact Or.inl fun _ hg => hg
  | send => exact Or.inl fun _ hg => hg
  | fill => exact Or.inl fun _ hg => hg
  | enqueueStuck => exact Or.inl fun _ hg => hg
  | enqueue => exact Or.inl fun _ hg => hg
  | allocNone => exact Or.inl fun _ hg => hg
  | allocTxBuffer h =>
    -- a buffer is handed out only where the link is up
    right
    by_contra hlink
    rw [rpmsgLiteAllocTxBuffer, if_pos (by simpa using hlink)] at h
    cases h
  | write => exact Or.inl fun _ hg => hg
  | nocopyStuck => exact Or.inl fun _ hg => hg
  | sendNocopy => exact Or.inl fun _ hg => List.mem_of_mem_eraseIdx hg
  | nocopyRefused => exact Or.inl fun _ hg => hg

theorem Side.UpIfOwned.step (h : x.UpIfOwned) {a : Act} (ha : x.step c m a = some (x', m')) : x'.UpIfOwned := by
  intro hne
  cases a with
  | tx a =>
    rw [Side.txStep_linkState ha]
    rcases Side.txStep_owned ha with hsub | hup
    · refine h fun hnil => hne (List.eq_nil_iff_forall_not_mem.2 fun g hg => ?_)
      have hmem := hsub hg
      rw [hnil] at hmem
      cases hmem
    · exact hup
  | rx a =>
    rw [Side.rxStep_linkState ha]
    exact h (by rwa [← Side.rxStep_tx ha])
  | txCallback =>
    cases ha
    rfl

/-- In every run. -/
theorem Link.reachable_upIfOwned {m : ByteMem} {dm dr : RpmsgLiteInstance} {s : Link}
    (h : Link.Reachable c (Link.start m dm dr) s) : ∀ r, (s.side r).UpIfOwned := by
  induction h with
  | start =>
    intro r
    cases r <;> exact fun hne => absurd rfl hne
  | @step s s' r a _ hs ih =>
    obtain ⟨x, m', ha, rfl⟩ := Link.step_cases hs
    intro q
    by_cases hq : q = r
    · subst hq
      simp only [Function.update_self]
      exact (ih q).step ha
    · simp only [Function.update_of_ne hq]
      exact ih q

end

section

variable {B : BufferPool} {k : RingKind} {m : ByteMem} {rvq : Virtqueue} {t : TxHalf} {x : RxHalf} {P : Custody B.ids}
  {dev : RpmsgLiteInstance} {g : Got}

/-- Past its size check a zero-copy send of an owned buffer succeeds. -/
theorem Flow.sendNocopy_iff (h : Flow B k m dev.tvq rvq t x P) (hlink : dev.linkState = true) (hg : g ∈ t.owned)
    (clear : Bool) (payloadSize : Nat) (src dst : UInt32) (size : Nat) :
    (∃ dev' m', rpmsgLiteSendNocopy clear payloadSize dev m src dst (msgDataAt g.buffer) size = some (dev', m', RL_SUCCESS)) ↔
      size ≤ payloadSize := by
  constructor
  · rintro ⟨dev', m', hsend⟩
    by_contra hle
    unfold rpmsgLiteSendNocopy at hsend
    rw [if_pos (Nat.lt_of_not_le hle)] at hsend
    have hcode : RL_ERR_BUFF_SIZE = RL_SUCCESS := congrArg (fun y => y.2.2) (Option.some.inj hsend)
    exact absurd hcode (by decide)
  · intro hle
    have hgot : g ∈ t.gots := List.mem_append_right _ hg
    have hidx : (writeHdr m g.buffer src dst size).ld16 (hdrIdxAt g.buffer) = g.idx := by
      rw [(writeHdr_spec m g.buffer src dst size).2.1, congrArg Got.buffer (h.contents.txGot g hgot)]
      exact h.contents.txKept g hg
    rw [rpmsgLiteSendNocopy_eq hle hlink, hidx, vqTx_eq _ (h.linked.le_nentries (h.tx_ids hgot))]
    exact ⟨_, _, rfl⟩

end

/-- A zero-copy send of this many payload bytes stays in the buffer, which is one of the `n` of `size` bytes each from
`base` on. -/
def Got.HasRoom (g : Got) (base size n payload : Nat) : Prop :=
  ∃ i < n, g.buffer = bufferAt base size i ∧ msgDataAt g.buffer + payload ≤ bufferAt base size (i + 1)

/-- What a core can do with a zero-copy buffer. -/
def Link.Usable (c : LinkConfig) (s : Link) (r : Role) (g : Got) (base size n : Nat) : Prop :=
  ∀ src dst payload, payload ≤ g.capacity.toNat →
    (∃ dev m, rpmsgLiteSendNocopy c.clear c.payloadSize (s.side r).dev s.m src dst (msgDataAt g.buffer) payload =
      some (dev, m, RL_SUCCESS)) ∧ g.HasRoom base size n payload

section

variable {w : Nat} {p : ShmemParams} {addr : Nat} {env envR : InitEnv} {highestM highestR linkId : UInt32}
  {cfg : ShmemConfig} {length : Nat} {m m' : ByteMem} {dm dr : RpmsgLiteInstance} {c : LinkConfig} {s : Link} {r : Role} {g : Got}

theorem LayoutOk.pool_buffer (hl : LayoutOk w p addr) (r : Role) {d : UInt16} (hd : d ∈ (hl.pools.pool r).ids) :
    ∃ i < 2 * p.count.toNat, (hl.pools.pool r).buffer d = bufferAt (shMemBase w p addr) p.bufferSize i := by
  have hnum := hl.pool_vr_num r
  have hlt := ((hl.pools.pool r).mem_ids.1 hd).trans_eq hnum
  cases r with
  | master => exact ⟨p.count.toNat + d.toNat, by omega, rfl⟩
  | remote => exact ⟨0 + d.toNat, by omega, rfl⟩

/-- A buffer has room for a payload that fits its size. -/
theorem LayoutOk.hasRoom (hl : LayoutOk w p addr) (r : Role) (hd : g.idx ∈ (hl.pools.pool r).ids)
    (hg : g = (hl.pools.pool r).got g.idx) {payload : Nat} (hsize : payload + 16 ≤ p.bufferSize) :
    g.HasRoom (shMemBase w p addr) p.bufferSize (2 * p.count.toNat) payload := by
  obtain ⟨i, hi, hb⟩ := hl.pool_buffer r hd
  have hbuf : g.buffer = bufferAt (shMemBase w p addr) p.bufferSize i := (congrArg Got.buffer hg).trans hb
  refine ⟨i, hi, hbuf, ?_⟩
  rw [hbuf]
  unfold msgDataAt bufferAt
  rw [Nat.mul_succ]
  omega

/-- From a ready start, in every state of every run: a buffer that `rpmsg_lite_alloc_tx_buffer` has handed out and that
was not sent yet can be sent with every size up to the reported one exactly when the payload size of the configuration
is a number of words. -/
theorem capacity_usable_iff (hm : rpmsgLiteMasterInit w env highestM cfg addr length linkId m = .instance dm m')
    (hr : rpmsgLiteRemoteInit w envR highestR cfg addr linkId = some dr) (hlen : addr + length ≤ 2 ^ 32)
    (hp : masterParams w cfg = some p) (hok : LinkReady w cfg addr p m) (hc : c.payloadSize = cfg.payloadSize) (hw : 32 ≤ w)
    (hpay : cfg.payloadSize ≤ 65532) (h : Link.Reachable c (Link.start m' dm dr) s) (r : Role) (hg : g ∈ (s.side r).tx.owned) :
    s.Usable c r g (shMemBase w p addr) p.bufferSize (2 * p.count.toNat) ↔ RL_WORD_SIZE ∣ cfg.payloadSize := by
  obtain ⟨P, hinv⟩ := linkInv_reachable hm hr hlen hp hok hc h
  have hflow := hinv.flow r
  have hgot : g ∈ (s.side r).tx.gots := List.mem_append_right _ hg
  have hgeq := hflow.contents.txGot g hgot
  have hlink := Link.reachable_upIfOwned h r (List.ne_nil_of_mem hg)
  have hsend := hflow.sendNocopy_iff hlink hg c.clear c.payloadSize
  have hsize : p.bufferSize = wordUp (cfg.payloadSize + 16) := (masterParams_bufferSize hp).trans (rlBufferSize_eq hw hpay)
  have hcap : g.capacity.toNat = p.bufferSize - 16 := by
    rw [Got.capacity_eq (congrArg Got.len hgeq), hok.layout.pool_size]
  have hge := hok.payload
  rw [← wordUp_sub_le_iff, ← hsize, ← hc]
  constructor
  · intro husable
    -- the reported size itself must pass the check
    have hlast := (hsend 0 0 g.capacity.toNat).1 (husable 0 0 _ le_rfl).1
    rw [hcap] at hlast
    exact hlast
  · intro hle src dst payload hpayload
    rw [hcap] at hpayload
    refine ⟨(hsend src dst payload).2 (by omega), ?_⟩
    exact hok.layout.hasRoom r (hflow.tx_ids hgot) hgeq (by omega)

end

/-- A buffer of 16 payload bytes reports 16. -/
theorem capacity_usable_iff_two : ∃ dm m' dr s g,
    rpmsgLiteMasterInit 32 InitEnv.ok 0 (.build (headerTwo 64 (by decide) (by decide))) 4124 512 0 (fun _ => 0) =
      .instance dm m' ∧
    rpmsgLiteRemoteInit 32 InitEnv.ok 0 (.build (headerTwo 64 (by decide) (by decide))) 4124 0 = some dr ∧
    (Link.start m' dm dr).step ⟨false, 16, 16⟩ .master (.tx .allocTxBuffer) = some s ∧
    g ∈ (s.side .master).tx.owned ∧ g.capacity = 16 ∧
    s.Usable ⟨false, 16, 16⟩ .master g (shMemBase 32 ((headerTwo 64 (by decide) (by decide)).params 32) 4124) 32 4 := by
  obtain ⟨dm, m', dr, hm, hr, ht⟩ := Link.of_check_two 0
    (fun dm m' dr => ((Link.start m' dm dr).step ⟨false, 16, 16⟩ .master (.tx .allocTxBuffer)).any
      fun s => (s.side .master).tx.owned.any fun g => g.capacity == 16)
    (by decide +kernel)
  obtain ⟨s, hs, howned⟩ := (Option.any_eq_true _ _).1 ht
  obtain ⟨g, hg, hcap⟩ := List.any_eq_true.1 howned
  refine ⟨dm, m', dr, s, g, hm, hr, hs, hg, eq_of_beq hcap, ?_⟩
  exact (capacity_usable_iff hm hr (by decide) rfl linkReady_two rfl (by decide) (by decide) (.step .start hs) .master
    hg).2 (by decide)

/-- Two buffers whose payload is not a number of words. -/
def seventeenTwo : BuildConfig where
  bufferCount := 2
  payloadSize := 17
  vringAlign := 64
  vringSize := headerVringSize 2 64
  count_ne := count_two_ne
  count_and := count_two_and
  count_le := count_two_le
  align_le := align_64_le
  payload_pos := by decide
  payload_lt := by decide
  vringSize_lt := headerVringSize_two_lt

/-- 20 bytes are reported and 20 bytes are refused. -/
theorem capacity_unusable : ∃ dm m' dr s g,
    rpmsgLiteMasterInit 32 InitEnv.ok 0 (.build seventeenTwo) 4124 600 0 (fun _ => 0) = .instance dm m' ∧
    rpmsgLiteRemoteInit 32 InitEnv.ok 0 (.build seventeenTwo) 4124 0 = some dr ∧
    (Link.start m' dm dr).step ⟨false, 17, 17⟩ .master (.tx .allocTxBuffer) = some s ∧
    g ∈ (s.side .master).tx.owned ∧ g.capacity = 20 ∧
    (rpmsgLiteSendNocopy false 17 (s.side .master).dev s.m 7 9 (msgDataAt g.buffer) 20).map (fun y => y.2.2) =
      some RL_ERR_BUFF_SIZE ∧
    ¬ s.Usable ⟨false, 17, 17⟩ .master g (shMemBase 32 (seventeenTwo.params 32) 4124) 36 4 := by
  have hrun : (rpmsgLiteRemoteInit 32 InitEnv.ok 0 (.build seventeenTwo) 4124 0).any (fun dr =>
      (rpmsgLiteMasterInit 32 InitEnv.ok 0 (.build seventeenTwo) 4124 600 0 (fun _ => 0)).check fun dm m' =>
        ((Link.start m' dm dr).step ⟨false, 17, 17⟩ .master (.tx .allocTxBuffer)).any
          fun s => (s.side .master).tx.owned.any fun g => g.capacity == 20) = true := by
    decide +kernel
  obtain ⟨dr, hr, hcheck⟩ := (Option.any_eq_true _ _).1 hrun
  obtain ⟨dm, m', hm, ht⟩ := InitResult.of_check hcheck
  obtain ⟨s, hs, howned⟩ := (Option.any_eq_true _ _).1 ht
  obtain ⟨g, hg, hcap⟩ := List.any_eq_true.1 howned
  refine ⟨dm, m', dr, s, g, hm, hr, hs, hg, eq_of_beq hcap, ?_, fun husable => ?_⟩
  · unfold rpmsgLiteSendNocopy
    rw [if_pos (by decide)]
    rfl
  · obtain ⟨⟨dev, m1, hsend⟩, -⟩ := husable 7 9 20 (by rw [eq_of_beq hcap]; decide)
    unfold rpmsgLiteSendNocopy at hsend
    rw [if_pos (show 20 > 17 by decide)] at hsend
    have hcode : RL_ERR_BUFF_SIZE = RL_SUCCESS := congrArg (fun y => y.2.2) (Option.some.inj hsend)
    exact absurd hcode (by decide)

end RpmsgLite
