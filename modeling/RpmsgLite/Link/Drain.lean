/-
The link drains. From every state of every run the buffers in use can be brought back: some core has a step to take as long
as one is in use, each such step brings one closer to the free ones whichever core takes it, and when none is left every
message has been read and every buffer is free.
-/
import RpmsgLite.Link.Channels

namespace RpmsgLite

/-- The steps that finish a send, a receive or a release; not those that begin one, are refused or find nothing. -/
def Duplex.advances (c : LinkConfig) (d : Duplex) (r : Role) : Act → Bool
  | .tx (.fill i) => (d.chan r).sending[i]?.any fun e => !e.2
  | .tx (.enqueue _) => true
  | .tx (.sendNocopy _ _ _ size) => size ≤ c.payloadSize && d.up r
  | .rx .rx => !(d.chan r.peer).queue.isEmpty
  | .rx .read | .rx (.done _) | .rx (.releaseRxBuffer _) => true
  | _ => false

/-- How many steps the buffers of both directions are from the free ones, at most. -/
def Duplex.work (d : Duplex) : Nat := (d.chan .master).work + (d.chan .remote).work

theorem Duplex.work_eq (d : Duplex) (r : Role) : d.work = (d.chan r).work + (d.chan r.peer).work := by
  cases r with
  | master => rfl
  | remote => exact Nat.add_comm _ _

/-- A run of such steps. -/
def Link.drain (c : LinkConfig) : Link → List (Role × Act) → Option Link
  | s, [] => some s
  | s, (r, a) :: as => if s.duplex.advances c r a then (s.step c r a).bind fun s' => Link.drain c s' as else none

/-! ## The senders' links are up -/

section

variable {c : LinkConfig} {up : Bool} {ch ch' : Chan}

/-- Drafts come with `draft` only. -/
theorem step_drafts {op : BufferChannel.Op SendArgs (List UInt8) Msg} (h : ch.step SendArgs.message op = some ch')
    (hop : ∀ area, op ≠ .draft area) (hne : ch'.drafts ≠ []) : ch.drafts ≠ [] := by
  cases BufferChannel.step_cases h with
  | send => exact hne
  | fill => exact hne
  | enqueue => exact hne
  | draft => exact absurd rfl (hop _)
  | edit hi => exact fun hnil => hne (by rw [hnil]; rfl)
  | publish hi => exact fun hnil => hne (by rw [hnil]; rfl)
  | take => exact hne
  | read => exact hne
  | done => exact hne
  | editSeen => exact hne
  | editHeld => exact hne
  | release => exact hne

theorem Chan.Sends.drafts {a : TxAct} (h : ch.Sends c up a ch') (hne : ch'.drafts ≠ []) : up = true ∨ ch.drafts ≠ [] := by
  cases h with
  | sendRefused => exact Or.inr hne
  | send _ _ hup => exact Or.inl hup
  | fill h => exact Or.inr (step_drafts h (by rintro area ⟨⟩) hne)
  | enqueue h => exact Or.inr (step_drafts h (by rintro area ⟨⟩) hne)
  | allocRefused => exact Or.inr hne
  | allocTxBuffer hup => exact Or.inl hup
  | write _ _ h => exact Or.inr (step_drafts h (by rintro area ⟨⟩) hne)
  | nocopyRefused => exact Or.inr hne
  | sendNocopy _ _ hup => exact Or.inl hup

theorem Chan.Receives.drafts {a : RxAct} (h : ch.Receives a ch') (hne : ch'.drafts ≠ []) : ch.drafts ≠ [] := by
  cases h with
  | rxNone => exact hne
  | rx h => exact step_drafts h (by rintro area ⟨⟩) hne
  | read _ _ h => exact step_drafts h (by rintro area ⟨⟩) hne
  | done h => exact step_drafts h (by rintro area ⟨⟩) hne
  | writeMsg _ _ h => exact step_drafts h (by rintro area ⟨⟩) hne
  | writeHeld _ _ h => exact step_drafts h (by rintro area ⟨⟩) hne
  | releaseRxBuffer h => exact step_drafts h (by rintro area ⟨⟩) hne

end

/-- A core that has a draft may send. -/
theorem Duplex.Reachable.up {c : LinkConfig} {n : Nat} {up : Role → Bool} {d : Duplex}
    (h : Reachable c (.start n up) d) (r : Role) :
    (d.chan r).drafts ≠ [] → d.up r = true := by
  induction h with
  | start => exact fun hne => absurd rfl hne
  | @step d d' q a _ hd ih =>
    cases hd with
    | @tx a ch h =>
      intro hne
      by_cases hq : r = q
      · subst hq
        simp only [Function.update_self] at hne
        exact (h.drafts hne).elim id ih
      · simp only [Function.update_of_ne hq] at hne
        exact ih hne
    | @rx a ch h =>
      intro hne
      by_cases hq : r = q.peer
      · subst hq
        simp only [Function.update_self] at hne
        exact ih (h.drafts hne)
      · simp only [Function.update_of_ne hq] at hne
        exact ih hne
    | txCallback =>
      intro hne
      by_cases hq : r = q
      · subst hq
        exact Function.update_self _ _ _
      · exact (Function.update_of_ne hq _ _).trans (ih hne)

/-! ## Every such step brings a buffer closer -/

section

variable {c : LinkConfig} {d d' : Duplex} {r : Role} {a : Act}

theorem Duplex.Step.work (h : d.Step c r a d') (ha : d.advances c r a = true) : d'.work < d.work := by
  have hne := Role.peer_ne r
  cases h with
  | @tx a ch h =>
    have hlt : ch.work < (d.chan r).work := by
      cases h with
      | sendRefused => cases ha
      | send => cases ha
      | @fill i ch h =>
        have ha : (d.chan r).advances (.fill i : BufferChannel.Op SendArgs (List UInt8) Msg) = true := ha
        exact BufferChannel.step_work ha h
      | enqueue h => exact BufferChannel.step_work rfl h
      | allocRefused => cases ha
      | allocTxBuffer => cases ha
      | write => cases ha
      | nocopyRefused _ _ h =>
        simp only [advances, Bool.and_eq_true, decide_eq_true_iff] at ha
        rcases h with h | h
        · omega
        · rw [ha.2] at h
          cases h
      | sendNocopy _ _ _ h => exact BufferChannel.step_work rfl h
    rw [work_eq _ r, d.work_eq r]
    simp only [Function.update_self, Function.update_of_ne hne]
    omega
  | @rx a ch h =>
    have hlt : ch.work < (d.chan r.peer).work := by
      cases h with
      | rxNone _ hq =>
        simp only [advances, hq] at ha
        cases ha
      | rx h => exact BufferChannel.step_work rfl h
      | read _ _ h => exact BufferChannel.step_work rfl h
      | done h => exact BufferChannel.step_work rfl h
      | writeMsg => cases ha
      | writeHeld => cases ha
      | releaseRxBuffer h => exact BufferChannel.step_work rfl h
    rw [work_eq _ r, d.work_eq r]
    simp only [Function.update_self, Function.update_of_ne hne.symm]
    omega
  | txCallback => cases ha

/-- While a buffer is in use some core can bring one closer. -/
theorem Duplex.canAdvance (hup : ∀ r, (d.chan r).drafts ≠ [] → d.up r = true) (hw : d.work ≠ 0) :
    ∃ r a d', d.advances c r a = true ∧ d.Step c r a d' := by
  obtain ⟨r, hr⟩ : ∃ r, (d.chan r).work ≠ 0 := by
    by_contra hno
    push Not at hno
    exact hw (by rw [d.work_eq .master, hno, hno])
  have htx : ∀ {a : TxAct} {ch : Chan}, d.advances c r (.tx a) = true → (d.chan r).Sends c (d.up r) a ch →
      ∃ r a d', d.advances c r a = true ∧ d.Step c r a d' := fun ha h => ⟨r, _, _, ha, .tx h⟩
  have hrx : ∀ {a : RxAct} {ch : Chan}, d.advances c r.peer (.rx a) = true → (d.chan r).Receives a ch →
      ∃ r a d', d.advances c r a = true ∧ d.Step c r a d' := fun {a ch} ha h => by
    have h : (d.chan r.peer.peer).Receives a ch := by
      rw [Role.peer_peer]
      exact h
    exact ⟨r.peer, _, _, ha, .rx h⟩
  cases BufferChannel.canAdvance hr with
  | @fill i x hi =>
    obtain ⟨ch, h⟩ : ∃ ch, (d.chan r).step SendArgs.message (.fill i) = some ch :=
      ⟨_, by simp only [BufferChannel.step, hi, Option.map_some]; rfl⟩
    refine htx ?_ (.fill h)
    simp only [advances, hi, Option.any_some, Bool.not_false]
  | @enqueue i x hi =>
    obtain ⟨ch, h⟩ : ∃ ch, (d.chan r).step SendArgs.message (.enqueue i) = some ch :=
      ⟨_, by simp only [BufferChannel.step, hi]; rfl⟩
    exact htx rfl (.enqueue h)
  | @publish i area hi =>
    have hlink : d.up r = true := hup r fun hnil => by
      rw [hnil] at hi
      cases hi
    obtain ⟨ch, h⟩ : ∃ ch,
      (d.chan r).step SendArgs.message (.publish i fun area => SendArgs.message ⟨0, 0, area.take 0⟩) = some ch :=
      ⟨_, by simp only [BufferChannel.step, hi, Option.map_some]; rfl⟩
    refine htx ?_ (.sendNocopy (Nat.zero_le _) (Nat.zero_le _) hlink h)
    simp only [advances, hlink, Nat.zero_le, decide_true, Bool.and_self]
  | take hhand hq =>
    obtain ⟨msg, queue, hqueue⟩ := List.exists_cons_of_ne_nil hq
    obtain ⟨ch, h⟩ : ∃ ch, (d.chan r).step SendArgs.message .take = some ch :=
      ⟨_, by simp only [BufferChannel.step, hhand, hqueue]; rfl⟩
    refine hrx ?_ (.rx h)
    simp only [advances, Role.peer_peer, hqueue, List.isEmpty_cons, Bool.not_false]
  | @read msg hhand =>
    obtain ⟨ch, h⟩ : ∃ ch, (d.chan r).step SendArgs.message (.read msg.data) = some ch :=
      ⟨_, by simp only [BufferChannel.step, hhand]; rfl⟩
    exact hrx rfl (.read hhand List.take_length h)
  | done hhand =>
    obtain ⟨ch, h⟩ : ∃ ch, (d.chan r).step SendArgs.message (.done false) = some ch :=
      ⟨_, by simp only [BufferChannel.step, hhand]; rfl⟩
    exact hrx rfl (.done h)
  | @release i area hi =>
    obtain ⟨ch, h⟩ : ∃ ch, (d.chan r).step SendArgs.message (.release i) = some ch :=
      ⟨_, by simp only [BufferChannel.step, hi, Option.map_some]; rfl⟩
    exact hrx rfl (.releaseRxBuffer h)

end

/-! ## Every run -/

theorem Duplex.Step.size {c : LinkConfig} {d d' : Duplex} {r : Role} {a : Act} (h : d.Step c r a d') (q : Role) :
    (d'.chan q).size = (d.chan q).size := by
  have hupdate : ∀ {p : Role} {ch : Chan}, ch.size = (d.chan p).size →
      (Function.update d.chan p ch q).size = (d.chan q).size := fun {p ch} hch => by
    by_cases hp : q = p
    · subst hp
      rw [Function.update_self, hch]
    · rw [Function.update_of_ne hp]
  cases h with
  | tx h =>
    refine hupdate ?_
    cases h with
    | sendRefused => rfl
    | send _ _ _ h => exact BufferChannel.step_size h
    | fill h => exact BufferChannel.step_size h
    | enqueue h => exact BufferChannel.step_size h
    | allocRefused => rfl
    | allocTxBuffer _ h => exact BufferChannel.step_size h
    | write _ _ h => exact BufferChannel.step_size h
    | nocopyRefused => rfl
    | sendNocopy _ _ _ h => exact BufferChannel.step_size h
  | rx h =>
    refine hupdate ?_
    cases h with
    | rxNone => rfl
    | rx h => exact BufferChannel.step_size h
    | read _ _ h => exact BufferChannel.step_size h
    | done h => exact BufferChannel.step_size h
    | writeMsg _ _ h => exact BufferChannel.step_size h
    | writeHeld _ _ h => exact BufferChannel.step_size h
    | releaseRxBuffer h => exact BufferChannel.step_size h
  | txCallback => rfl

theorem Duplex.Reachable.size {c : LinkConfig} {n : Nat} {up : Role → Bool} {d : Duplex} (h : Reachable c (.start n up) d)
    (q : Role) : (d.chan q).size = n := by
  induction h with
  | start => rfl
  | step _ hd ih => exact (hd.size q).trans ih

/-- With an empty channel everything sent has been read. -/
theorem LinkInv.recv_of_empty {W : Pools} {s : Link} {P : ∀ r, Custody (W.pool r).ids} {r : Role} {n : Nat} (h : LinkInv W s P)
    (hch : s.channel r = .empty n) : (s.side r.peer).rx.recv = (s.side r).tx.sent.map Msg.seen := by
  rw [h.channel] at hch
  have hqueue : (P r).queue.map (fun d => msgAt s.m ((W.pool r).buffer d)) = [] := congrArg BufferChannel.queue hch
  have hhand : (s.side r.peer).rx.hand.view s.m = .idle := congrArg BufferChannel.hand hch
  have hun : (s.side r.peer).rx.hand.unread = [] := by
    cases hx : (s.side r.peer).rx.hand with
    | idle => rfl
    | taken g => rw [hx] at hhand; cases hhand
    | seen g => rfl
  have hfifo := (h.flow r).fifo
  rw [hqueue, hun, List.map_nil, List.append_nil, List.append_nil] at hfifo
  exact hfifo.symm

/-- What draining means in a state of the link with `n` buffers each way. -/
structure Link.Drains (c : LinkConfig) (s : Link) (n : Nat) : Prop where
  bounded : ∀ as s', s.drain c as = some s' → as.length + s'.duplex.work ≤ 12 * n
  goesOn : s.duplex.work ≠ 0 → ∃ r a s', s.drain c [(r, a)] = some s'
  drained : s.duplex.work = 0 → ∀ r, s.channel r = .empty n ∧ (s.side r.peer).rx.recv = (s.side r).tx.sent.map Msg.seen

section

variable {w : Nat} {p : ShmemParams} {addr : Nat} {env envR : InitEnv} {highestM highestR linkId : UInt32}
  {cfg : ShmemConfig} {length : Nat} {m m' : ByteMem} {dm dr : RpmsgLiteInstance} {c : LinkConfig} {s : Link}

/-- From a ready start, in every state of every run: the steps that finish what is under way are possible as long as a
buffer is in use, no more of them can follow each other than twelve times the number of buffers, whichever core takes them,
and after the last one all buffers are free and everything sent has been read. -/
theorem link_drains (hm : rpmsgLiteMasterInit w env highestM cfg addr length linkId m = .instance dm m')
    (hr : rpmsgLiteRemoteInit w envR highestR cfg addr linkId = some dr) (hlen : addr + length ≤ 2 ^ 32)
    (hp : masterParams w cfg = some p) (hok : LinkReady w cfg addr p m) (hc : c.payloadSize = cfg.payloadSize)
    (h : Link.Reachable c (Link.start m' dm dr) s) : s.Drains c p.count.toNat := by
  have hpay := hok.pool_payload hc
  obtain ⟨P₀, h₀⟩ := linkInv_start hm hr hlen hp hok
  have hreach : ∀ {s : Link}, Link.Reachable c (Link.start m' dm dr) s →
      Duplex.Reachable c (.start p.count.toNat fun r => r = .master) s.duplex := fun h => by
    have hd := h₀.duplex_reachable hpay h
    rwa [duplex_start hm hr hlen hp hok] at hd
  refine ⟨fun as s' hs' => ?_, fun hw => ?_, fun hw r => ?_⟩
  · have hle : as.length + s'.duplex.work ≤ s.duplex.work := by
      induction as generalizing s with
      | nil =>
        cases hs'
        exact Nat.le_of_eq (Nat.zero_add _)
      | cons a as ih =>
        obtain ⟨r, a⟩ := a
        simp only [Link.drain] at hs'
        split at hs'
        · rename_i ha
          obtain ⟨s₁, hs₁, hs'⟩ := Option.bind_eq_some_iff.1 hs'
          obtain ⟨P, hinv⟩ := h₀.reachable hpay h
          have hlt := (hinv.simulates hpay hs₁).work ha
          have hih := ih (.step h hs₁) hs'
          rw [List.length_cons]
          omega
        · cases hs'
    have h1 := BufferChannel.work_le (s.duplex.chan .master)
    have h2 := BufferChannel.work_le (s.duplex.chan .remote)
    rw [(hreach h).size] at h1 h2
    have hwork : s.duplex.work = (s.duplex.chan .master).work + (s.duplex.chan .remote).work := rfl
    omega
  · obtain ⟨r, a, d', ha, hd⟩ := Duplex.canAdvance (c := c) (hreach h).up hw
    obtain ⟨P, hinv⟩ := h₀.reachable hpay h
    obtain ⟨s', hs'⟩ := hinv.enabled hd
    refine ⟨r, a, s', ?_⟩
    simp only [Link.drain, ha, if_true, hs', Option.bind_some]
  · obtain ⟨P, hinv⟩ := h₀.reachable hpay h
    have hchan : (s.channel r).work = 0 := by
      have hsum := s.duplex.work_eq r
      exact Nat.eq_zero_of_add_eq_zero_right (hsum.symm.trans hw)
    have hempty : s.channel r = .empty p.count.toNat := by
      have hsize : (s.channel r).size = p.count.toNat := (hreach h).size r
      rw [BufferChannel.work_eq_zero hchan, hsize]
    exact ⟨hempty, hinv.recv_of_empty hempty⟩

/-- Over cleared memory, from the state after three bytes have been read: the callback returns and all is back. -/
theorem link_drains_three : ∃ dm m' dr s s',
    rpmsgLiteMasterInit 32 InitEnv.ok 0 (.build (headerTwo 64 (by decide) (by decide))) 4124 512 0 (fun _ => 0) =
      .instance dm m' ∧
    rpmsgLiteRemoteInit 32 InitEnv.ok 0 (.build (headerTwo 64 (by decide) (by decide))) 4124 0 = some dr ∧
    (Link.start m' dm dr).run ⟨false, 16, 16⟩ sendThree = some s ∧
    s.drain ⟨false, 16, 16⟩ [(.remote, .rx (.done false))] = some s' ∧
    s'.duplex.work = 0 ∧ s.Drains ⟨false, 16, 16⟩ 2 := by
  obtain ⟨dm, m', dr, hm, hr, ht⟩ := Link.of_check_two 0
    (fun dm m' dr => ((Link.start m' dm dr).run ⟨false, 16, 16⟩ sendThree).any fun s =>
      (s.drain ⟨false, 16, 16⟩ [(.remote, .rx (.done false))]).any fun s' => s'.duplex.work == 0)
    (by decide +kernel)
  obtain ⟨s, hs, ht⟩ := (Option.any_eq_true _ _).1 ht
  obtain ⟨s', hs', hw⟩ := (Option.any_eq_true _ _).1 ht
  exact ⟨dm, m', dr, s, s', hm, hr, hs, hs', eq_of_beq hw,
    link_drains hm hr (by decide) rfl linkReady_two rfl (Link.reachable_of_run .start hs)⟩

end

end RpmsgLite
