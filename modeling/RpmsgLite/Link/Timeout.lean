/-
The timeouts of the three polling loops: `rpmsg_lite_send`, `rpmsg_lite_alloc_tx_buffer` and the bare-metal
`env_wait_for_link_up`. Each adds `RL_MS_PER_INTERVAL` to a 32-bit tick count per sleep. Only the last looks
whether the count wraps; the first cuts the timeout to 32 bits, and the first two compare `RL_BLOCK` as well.
-/
import RpmsgLite.Lib.Ticks
import RpmsgLite.Link.Calls

namespace RpmsgLite

def RL_DONT_BLOCK : Nat := 0

/-- `RL_BLOCK`, which is `~0UL` -/
def rlBlock (w : Nat) : Nat := 2 ^ w - 1

/-- What a timeout promises: failure after as many sleeps as it takes, and none for `RL_BLOCK`. -/
def Honoured (block timeout interval : Nat) (failsAfter : Nat → Prop) (never : Prop) : Prop :=
  (timeout ≠ RL_DONT_BLOCK → timeout ≠ block → failsAfter (timeout ⌈/⌉ interval)) ∧ (timeout = block → never)

/-! ## Calls that find no buffer -/

section

variable (c : LinkConfig) (interval : UInt32) (r : Role) (call : TxCall)

/-- The runs of a call of core `r` that has passed its checks and finds no buffer at any attempt, with the number of
its sleeps. The core and the memory may have changed between two steps. -/
inductive TxCall.Starving : Nat → TxAt → Prop
  | start {x : Side} {pc : TxAt} (hr : x.dev.role = r) (h : call.checks c x = .ok pc) : Starving 0 pc
  | step {n : Nat} {pc pc' : TxAt} {x x' : Side} {m m' : ByteMem} {events : List TxEvent} (h : Starving n pc)
      (hr : x.dev.role = r) (hs : call.step c interval x m pc = some (pc', x', m', events))
      (hnone : ∀ j tick got, pc' = .unlock j tick got → got = none) : Starving (n + events.count .sleep) pc'

/-- The call returns `v` after exactly `n` sleeps: it gets there, and no run sleeps longer or returns otherwise. -/
structure TxCall.FailsAfter (v : TxRet) (n : Nat) : Prop where
  returns : call.Starving c interval r n (.ret v)
  only : ∀ k pc, call.Starving c interval r k pc → k ≤ n ∧ ∀ v', pc = .ret v' → k = n ∧ v' = v

/-- The call never returns. -/
def TxCall.NeverReturns : Prop := ∀ k v, ¬ call.Starving c interval r k (.ret v)

end

/-! ## Where a starving call is -/

/-- The ticks at the attempt after `n` sleeps. -/
def tickAt (interval : UInt32) : Nat → Option UInt32
  | 0 => none
  | n + 1 => some (UInt32.ofNat (n * interval.toNat))

/-- After each of the first `n` attempts the time was not over. -/
def TxJob.Waiting (j : TxJob) (interval : UInt32) (n : Nat) : Prop := ∀ k < n, k * interval.toNat % 2 ^ 32 < j.timeout

def TxJob.PollAt (j : TxJob) (interval : UInt32) (n : Nat) : TxAt → Prop
  | .lock j' tick | .alloc j' tick => j' = j ∧ tick = tickAt interval n ∧ j.Waiting interval n
  | .unlock j' tick got => j' = j ∧ tick = tickAt interval n ∧ got = none ∧ j.Waiting interval n
  | .sleep j' tick => j' = j ∧ tick = UInt32.ofNat (n * interval.toNat) ∧ j.Waiting interval (n + 1)
  | .ret v => v = j.noBuffer ∧ j.Waiting interval n ∧ j.timeout ≤ n * interval.toNat % 2 ^ 32
  | _ => False

section

variable {c : LinkConfig} {interval : UInt32} {r : Role} {call : TxCall} {j : TxJob} {n : Nat} {pc : TxAt}

theorem TxJob.Waiting.succ (h : j.Waiting interval n) (hn : n * interval.toNat % 2 ^ 32 < j.timeout) :
    j.Waiting interval (n + 1) := by
  intro k hk
  rcases Nat.lt_succ_iff_lt_or_eq.1 hk with hk | rfl
  · exact h k hk
  · exact hn

theorem TxJob.PollAt.waiting (h : j.PollAt interval n pc) : j.Waiting interval n := by
  cases pc with
  | lock j' tick => exact h.2.2
  | alloc j' tick => exact h.2.2
  | unlock j' tick got => exact h.2.2.2
  | sleep j' tick => exact fun k hk => h.2.2 k (by omega)
  | ret v => exact h.2.1
  | entry => exact h.elim
  | fill j' g => exact h.elim
  | lockTx j' g => exact h.elim
  | tx j' g => exact h.elim
  | unlockTx j' g => exact h.elim

/-- An attempt without a buffer: the ticks are the sleeps times the interval, in 32 bits. -/
theorem TxJob.attempted_none (h : j.Waiting interval n) : j.attempted interval (tickAt interval n) none =
    if j.timeout ≤ n * interval.toNat % 2 ^ 32 then .ret j.noBuffer else .sleep j (UInt32.ofNat (n * interval.toNat)) := by
  cases n with
  | zero =>
    show (if j.timeout = 0 then TxAt.ret j.noBuffer else TxAt.sleep j 0) = _
    simp only [Nat.zero_mul, Nat.zero_mod, Nat.le_zero]
    rfl
  | succ n =>
    have htick : UInt32.ofNat (n * interval.toNat) + interval = UInt32.ofNat ((n + 1) * interval.toNat) := by
      rw [Nat.succ_mul, UInt32.ofNat_add, UInt32.ofNat_toNat]
    show (if j.timeout ≤ (UInt32.ofNat (n * interval.toNat) + interval).toNat then TxAt.ret j.noBuffer
      else TxAt.sleep j (UInt32.ofNat (n * interval.toNat) + interval)) = _
    rw [htick, UInt32.toNat_ofNat']

theorem TxCall.Starving.pollAt (hstart : ∀ x pc, call.checks c x = .ok pc → pc = .lock j none)
    (h : call.Starving c interval r n pc) : j.PollAt interval n pc := by
  induction h with
  | start _ hc =>
    rw [hstart _ _ hc]
    exact ⟨rfl, rfl, fun k hk => absurd hk (Nat.not_lt_zero k)⟩
  | @step n pc pc' x x' m m' events _ _ hs hnone ih =>
    cases pc with
    | lock j' tick =>
      cases hs
      exact ih
    | alloc j' tick =>
      obtain ⟨rfl, htick, hw⟩ := ih
      simp only [TxCall.step] at hs
      cases hs
      exact ⟨rfl, htick, hnone _ _ _ rfl, hw⟩
    | unlock j' tick got =>
      obtain ⟨rfl, rfl, rfl, hw⟩ := ih
      cases hs
      rw [TxJob.attempted_none hw]
      split
      · rename_i hle
        exact ⟨rfl, hw, hle⟩
      · rename_i hlt
        exact ⟨rfl, rfl, hw.succ (Nat.lt_of_not_le hlt)⟩
    | sleep j' tick =>
      obtain ⟨rfl, rfl, hw⟩ := ih
      cases hs
      exact ⟨rfl, rfl, hw⟩
    | ret v => cases hs
    | entry => exact ih.elim
    | fill j' g => exact ih.elim
    | lockTx j' g => exact ih.elim
    | tx j' g => exact ih.elim
    | unlockTx j' g => exact ih.elim

/-! ## Such calls exist -/

/-- A virtqueue on which nothing is pending in cleared memory. -/
def emptyVq : Virtqueue := ⟨.txCallback, 0, ⟨2, 16, 48, 64⟩, 0, 2, 0, 0, 0, 0⟩

/-- A core with its link up and nothing to take. -/
def starvedSide (r : Role) : Side where
  dev := ⟨r, emptyVq, emptyVq, 0, true, 0, 0, 0⟩
  tx := ⟨[], [], []⟩
  rx := ⟨.idle, [], []⟩
  halted := false

theorem TxJob.alloc_starved (j : TxJob) (c : LinkConfig) (r : Role) : j.alloc c (starvedSide r) (fun _ => 0) =
    (none, starvedSide r, fun _ => 0) := by
  cases r with
  | master => rfl
  | remote => rfl

/-- An attempt that finds nothing. -/
theorem TxCall.Starving.attempt (h : call.Starving c interval r n (.lock j (tickAt interval n))) (hw : j.Waiting interval n) :
    call.Starving c interval r n
      (if j.timeout ≤ n * interval.toNat % 2 ^ 32 then .ret j.noBuffer else .sleep j (UInt32.ofNat (n * interval.toNat))) := by
  have halloc : call.Starving c interval r n (.alloc j (tickAt interval n)) :=
    h.step (x := starvedSide r) (m := fun _ => 0) rfl rfl (by rintro _ _ _ ⟨⟩)
  have hunlock : call.Starving c interval r n (.unlock j (tickAt interval n) none) := by
    have hstep : call.step c interval (starvedSide r) (fun _ => 0) (.alloc j (tickAt interval n)) =
        some (.unlock j (tickAt interval n) none, starvedSide r, fun _ => 0, []) := by
      simp only [TxCall.step, TxJob.alloc_starved]
    refine halloc.step rfl hstep ?_
    rintro _ _ _ ⟨⟩
    rfl
  rw [← TxJob.attempted_none hw]
  refine hunlock.step (x := starvedSide r) (m := fun _ => 0) rfl rfl fun j' tick got heq => ?_
  rw [TxJob.attempted_none hw] at heq
  split at heq
  · cases heq
  · cases heq

/-- After any number of sleeps within the time the next attempt begins. -/
theorem TxCall.Starving.lock (hstart : ∀ r, call.checks c (starvedSide r) = .ok (.lock j none)) :
    ∀ {n : Nat}, j.Waiting interval n → call.Starving c interval r n (.lock j (tickAt interval n))
  | 0, _ => .start (x := starvedSide r) rfl (hstart r)
  | n + 1, hw => by
    have hprev : j.Waiting interval n := fun k hk => hw k (by omega)
    have hattempt := (TxCall.Starving.lock hstart hprev).attempt hprev
    rw [if_neg (Nat.not_le.2 (hw n (Nat.lt_succ_self n)))] at hattempt
    exact hattempt.step (x := starvedSide r) (m := fun _ => 0) rfl rfl (by rintro _ _ _ ⟨⟩)

/-! ## When a starving call returns -/

/-- A call that polls: once it has passed its checks it waits for a buffer. -/
structure TxCall.Polls (c : LinkConfig) (call : TxCall) (j : TxJob) : Prop where
  start : ∀ x pc, call.checks c x = .ok pc → pc = .lock j none
  passes : ∀ r, call.checks c (starvedSide r) = .ok (.lock j none)

theorem TxCall.Polls.failsAfter_iff (h : call.Polls c j) :
    call.FailsAfter c interval r j.noBuffer n ↔ j.Waiting interval n ∧ j.timeout ≤ n * interval.toNat % 2 ^ 32 := by
  constructor
  · intro hf
    exact (hf.returns.pollAt h.start).2
  · rintro ⟨hw, hover⟩
    have hret := (TxCall.Starving.lock (r := r) h.passes hw).attempt hw
    rw [if_pos hover] at hret
    refine ⟨hret, fun k pc hk => ?_⟩
    have hpoll := hk.pollAt h.start
    -- a later poll would have seen the time over
    have hle : k ≤ n := by
      by_contra hlt
      exact absurd hover (Nat.not_le.2 (hpoll.waiting n (Nat.lt_of_not_le hlt)))
    refine ⟨hle, ?_⟩
    rintro v rfl
    obtain ⟨hv, -, hover'⟩ := hpoll
    refine ⟨?_, hv⟩
    by_contra hne
    exact absurd hover' (Nat.not_le.2 (hw k (by omega)))

theorem TxCall.Polls.neverReturns_iff (h : call.Polls c j) :
    call.NeverReturns c interval r ↔ ∀ k, k * interval.toNat % 2 ^ 32 < j.timeout := by
  constructor
  · intro hnever k
    induction k using Nat.strong_induction_on with
    | _ k ih =>
      by_contra hover
      have hret := (TxCall.Starving.lock (r := r) h.passes ih).attempt ih
      rw [if_pos (Nat.le_of_not_lt hover)] at hret
      exact hnever k _ hret
  · intro hall k v hret
    exact absurd (hret.pollAt h.start).2.2 (Nat.not_le.2 (hall k))

/-- With a timeout that is not 0 a starving call is a counter that is to reach the timeout. -/
theorem TxCall.Polls.first_iff (h : call.Polls c j) (h0 : j.timeout ≠ 0) (hn : 0 < n) :
    call.FailsAfter c interval r j.noBuffer n ↔ Ticks.First (2 ^ 32) j.timeout interval.toNat n := by
  rw [h.failsAfter_iff]
  constructor
  · rintro ⟨hw, hover⟩
    exact ⟨hn, hover, fun k _ hk => hw k hk⟩
  · rintro ⟨-, hover, hbefore⟩
    refine ⟨fun k hk => ?_, hover⟩
    rcases Nat.eq_zero_or_pos k with rfl | hk0
    · rw [Nat.zero_mul, Nat.zero_mod]
      exact Nat.pos_of_ne_zero h0
    · exact hbefore k hk0 hk

theorem TxCall.Polls.never_iff (h : call.Polls c j) (h0 : j.timeout ≠ 0) :
    call.NeverReturns c interval r ↔ Ticks.Never (2 ^ 32) j.timeout interval.toNat := by
  rw [h.neverReturns_iff]
  constructor
  · intro hall k _
    exact hall k
  · intro hnever k
    rcases Nat.eq_zero_or_pos k with rfl | hk0
    · rw [Nat.zero_mul, Nat.zero_mod]
      exact Nat.pos_of_ne_zero h0
    · exact hnever k hk0

theorem polls_send {src dst : UInt32} {data : Nat → UInt8} {size : Nat} (hsize : size ≤ c.payloadSize) (timeout : Nat) :
    (TxCall.send (some src) dst (some data) size timeout).Polls c
      (.send src dst ((List.range size).map data) (UInt32.ofNat timeout)) := by
  constructor
  · intro x pc h
    simp only [TxCall.checks] at h
    rw [if_neg (Nat.not_lt.2 hsize)] at h
    split at h
    · cases h
    · cases h
      rfl
  · intro r
    simp only [TxCall.checks]
    rw [if_neg (Nat.not_lt.2 hsize)]
    rfl

theorem polls_allocTxBuffer (c : LinkConfig) (timeout : Nat) :
    (TxCall.allocTxBuffer true timeout).Polls c (.allocTxBuffer timeout) := by
  constructor
  · intro x pc h
    simp only [TxCall.checks] at h
    rw [if_neg (by decide)] at h
    split at h
    · cases h
    · cases h
      rfl
  · intro r
    rfl

end

/-! ## Waiting for the link -/

section

variable (w : Nat) (interval timeoutMs : UInt32) (linkState : Nat → UInt32)

/-- The loop of `env_wait_for_link_up` after `n` sleeps: its result and the number of all sleeps. `linkState` is what
each look at the link state finds; `none` is out of fuel. -/
def envWaitForLinkUpLoop : Nat → Nat → UInt32 → Option (UInt32 × Nat)
  | 0, _, _ => none
  | fuel + 1, n, tickCount =>
    if linkState n = 1 then some (1, n)
    else if rlBlock w ≠ timeoutMs.toNat then
      let tickTemp := tickCount + interval
      if tickTemp < tickCount ∨ tickTemp ≥ timeoutMs then some (0, n + 1)
      else envWaitForLinkUpLoop fuel (n + 1) tickTemp
    else envWaitForLinkUpLoop fuel (n + 1) tickCount

/-- `env_wait_for_link_up` -/
def envWaitForLinkUp (fuel : Nat) : Option (UInt32 × Nat) := envWaitForLinkUpLoop w interval timeoutMs linkState fuel 0 0

end

section

variable {w : Nat} {interval timeoutMs : UInt32}

/-- A wait that is to block looks at the link state for ever. -/
theorem envWaitForLinkUpLoop_block (h : rlBlock w = timeoutMs.toNat) : ∀ (fuel n : Nat) (tickCount : UInt32),
    envWaitForLinkUpLoop w interval timeoutMs (fun _ => 0) fuel n tickCount = none
  | 0, _, _ => rfl
  | fuel + 1, n, tickCount => by
    unfold envWaitForLinkUpLoop
    rw [if_neg (by decide), if_neg (not_not.2 h)]
    exact envWaitForLinkUpLoop_block h fuel (n + 1) tickCount

/-- Before the last sleep the ticks are the sleeps times the interval; a wrap comes at the last sleep only. -/
theorem envWaitForLinkUpLoop_fails (h : rlBlock w ≠ timeoutMs.toNat) (hi : 0 < interval.toNat) :
    ∀ {fuel n : Nat} {tickCount : UInt32}, tickCount.toNat = n * interval.toNat → n * interval.toNat < timeoutMs.toNat →
      timeoutMs.toNat ⌈/⌉ interval.toNat ≤ n + fuel →
      envWaitForLinkUpLoop w interval timeoutMs (fun _ => 0) fuel n tickCount = some (0, timeoutMs.toNat ⌈/⌉ interval.toNat)
  | 0, n, tickCount, _, hlt, hfuel => by
    have := (Ticks.lt_ceilDiv_iff hi).2 hlt
    omega
  | fuel + 1, n, tickCount, htick, hlt, hfuel => by
    have hint := interval.toNat_lt
    have htime := timeoutMs.toNat_lt
    have hn := (Ticks.lt_ceilDiv_iff hi).2 hlt
    have hsum : (tickCount + interval).toNat = (tickCount.toNat + interval.toNat) % 2 ^ 32 := UInt32.toNat_add _ _
    have hmul : (n + 1) * interval.toNat = n * interval.toNat + interval.toNat := Nat.succ_mul _ _
    unfold envWaitForLinkUpLoop
    rw [if_neg (by decide), if_pos h]
    dsimp only
    by_cases hover : timeoutMs.toNat ≤ (n + 1) * interval.toNat
    · have hlast : timeoutMs.toNat ⌈/⌉ interval.toNat = n + 1 := by
        have hle : ¬ n + 1 < timeoutMs.toNat ⌈/⌉ interval.toNat := (Ticks.lt_ceilDiv_iff hi).not.2 (Nat.not_lt.2 hover)
        omega
      rw [if_pos, hlast]
      -- at the end, or wrapped
      rw [UInt32.lt_iff_toNat_lt, ge_iff_le, UInt32.le_iff_toNat_le]
      by_cases hwrap : tickCount.toNat + interval.toNat < 2 ^ 32
      · right
        rw [hsum, Nat.mod_eq_of_lt hwrap]
        omega
      · left
        rw [hsum, Nat.mod_eq_sub_mod (by omega), Nat.mod_eq_of_lt (by omega)]
        omega
    · have hwrap : tickCount.toNat + interval.toNat < 2 ^ 32 := by omega
      rw [Nat.mod_eq_of_lt hwrap] at hsum
      rw [if_neg]
      · exact envWaitForLinkUpLoop_fails h hi (by omega) (by omega) (by omega)
      · rw [UInt32.lt_iff_toNat_lt, ge_iff_le, UInt32.le_iff_toNat_le]
        omega

/-- The wait returns 0 after exactly `n` sleeps while the link stays down. -/
def WaitFailsAfter (w : Nat) (interval timeoutMs : UInt32) (n : Nat) : Prop :=
  ∃ fuel₀, ∀ fuel, fuel₀ ≤ fuel → envWaitForLinkUp w interval timeoutMs (fun _ => 0) fuel = some (0, n)

theorem waitFailsAfter (h : rlBlock w ≠ timeoutMs.toNat) (hi : 0 < interval.toNat) (h0 : timeoutMs.toNat ≠ 0) :
    WaitFailsAfter w interval timeoutMs (timeoutMs.toNat ⌈/⌉ interval.toNat) := by
  refine ⟨timeoutMs.toNat ⌈/⌉ interval.toNat, fun fuel hfuel => ?_⟩
  unfold envWaitForLinkUp
  exact envWaitForLinkUpLoop_fails h hi (by rw [Nat.zero_mul]; rfl) (by omega) (by omega)

end

/-! ## When the timeouts are honoured -/

section

variable {c : LinkConfig} {interval : UInt32} {w timeout : Nat}

theorem rlBlock_mod (hw : w = 32 ∨ w = 64) : rlBlock w % 2 ^ 32 = 2 ^ 32 - 1 ∧ rlBlock w ≠ 0 := by
  rcases hw with rfl | rfl
  · decide
  · decide

/-- `rpmsg_lite_send` with a timeout of the size of a pointer, which it cuts to 32 bits. -/
theorem send_honoured_iff (hw : w = 32 ∨ w = 64) (hi : 0 < interval.toNat) (r : Role) (src dst : UInt32) (data : Nat → UInt8)
    {size : Nat} (hsize : size ≤ c.payloadSize) (timeout : Nat) :
    Honoured (rlBlock w) timeout interval.toNat
        ((TxCall.send (some src) dst (some data) size timeout).FailsAfter c interval r (.status RL_ERR_NO_MEM))
        ((TxCall.send (some src) dst (some data) size timeout).NeverReturns c interval r) ↔
      timeout = 0 ∨ if timeout = rlBlock w then 2 ∣ interval.toNat else Ticks.Uncut (2 ^ 32) timeout interval.toNat := by
  have hpolls : (TxCall.send (some src) dst (some data) size timeout).Polls c _ := polls_send hsize timeout
  obtain ⟨hmod, hblock0⟩ := rlBlock_mod hw
  have htime : (TxJob.send src dst ((List.range size).map data) (UInt32.ofNat timeout)).timeout = timeout % 2 ^ 32 :=
    UInt32.toNat_ofNat'
  unfold Honoured RL_DONT_BLOCK
  by_cases h0 : timeout = 0
  · subst h0
    exact iff_of_true ⟨fun h => absurd rfl h, fun h => absurd h.symm hblock0⟩ (Or.inl rfl)
  by_cases hb : timeout = rlBlock w
  · rw [if_pos hb, or_iff_right h0]
    have hnever : _ ↔ Ticks.Never (2 ^ 32) _ interval.toNat := hpolls.never_iff (r := r) (by rw [htime, hb, hmod]; decide)
    rw [htime, hb, hmod, Ticks.never_max_iff (by decide)] at hnever
    rw [← hnever]
    constructor
    · intro h
      exact hb ▸ h.2 hb
    · intro h
      exact ⟨fun _ hne => absurd hb hne, fun _ => hb ▸ h⟩
  · rw [if_neg hb, or_iff_right h0]
    have hpos := Ticks.ceilDiv_pos hi (Nat.pos_of_ne_zero h0)
    have hfails : (TxCall.send (some src) dst (some data) size timeout).FailsAfter c interval r (.status RL_ERR_NO_MEM)
        (timeout ⌈/⌉ interval.toNat) ↔ Ticks.Uncut (2 ^ 32) timeout interval.toNat := by
      by_cases hcut : timeout % 2 ^ 32 = 0
      · -- the call does not even sleep
        constructor
        · intro hf
          have hwait := (hpolls.failsAfter_iff.1 hf).1 0 hpos
          rw [htime, hcut] at hwait
          exact absurd hwait (Nat.not_lt_zero _)
        · intro huncut
          exact absurd hcut huncut.pos
      · rw [← Ticks.first_mod_iff hcut hi interval.toNat_lt, ← htime]
        exact hpolls.first_iff (by rw [htime]; exact hcut) hpos
    rw [← hfails]
    constructor
    · intro h
      exact h.1 h0 hb
    · intro h
      exact ⟨fun _ _ => h, fun heq => absurd heq hb⟩

/-- `rpmsg_lite_alloc_tx_buffer`, which compares its whole timeout with the 32-bit ticks. -/
theorem allocTxBuffer_honoured_iff (hw : w = 32 ∨ w = 64) (hi : 0 < interval.toNat) (c : LinkConfig) (r : Role) (timeout : Nat) :
    Honoured (rlBlock w) timeout interval.toNat
        ((TxCall.allocTxBuffer true timeout).FailsAfter c interval r (.buffer none))
        ((TxCall.allocTxBuffer true timeout).NeverReturns c interval r) ↔
      timeout = 0 ∨ if timeout = rlBlock w then w = 64 ∨ 2 ∣ interval.toNat
        else timeout ⌈/⌉ interval.toNat * interval.toNat < 2 ^ 32 := by
  have hpolls := polls_allocTxBuffer c timeout
  obtain ⟨-, hblock0⟩ := rlBlock_mod hw
  have htime : (TxJob.allocTxBuffer timeout).timeout = timeout := rfl
  unfold Honoured RL_DONT_BLOCK
  by_cases h0 : timeout = 0
  · subst h0
    exact iff_of_true ⟨fun h => absurd rfl h, fun h => absurd h.symm hblock0⟩ (Or.inl rfl)
  by_cases hb : timeout = rlBlock w
  · rw [if_pos hb, or_iff_right h0]
    have hnever : (TxCall.allocTxBuffer true timeout).NeverReturns c interval r ↔ w = 64 ∨ 2 ∣ interval.toNat := by
      rw [hpolls.never_iff (by rw [htime]; exact h0), htime, hb]
      rcases hw with rfl | rfl
      · rw [rlBlock, Ticks.never_max_iff (by decide), or_iff_right (by decide)]
      · exact iff_of_true (Ticks.never_of_le (by decide) (by decide)) (Or.inl rfl)
    rw [← hnever]
    constructor
    · intro h
      exact h.2 hb
    · intro h
      exact ⟨fun _ hne => absurd hb hne, fun _ => h⟩
  · rw [if_neg hb, or_iff_right h0]
    have hl := Nat.pos_of_ne_zero h0
    have hpos := Ticks.ceilDiv_pos hi hl
    have hfails : (TxCall.allocTxBuffer true timeout).FailsAfter c interval r (.buffer none) (timeout ⌈/⌉ interval.toNat) ↔
        timeout ⌈/⌉ interval.toNat * interval.toNat < 2 ^ 32 := by
      have hfirst : _ ↔ Ticks.First (2 ^ 32) _ interval.toNat _ := hpolls.first_iff (r := r) (by rw [htime]; exact h0) hpos
      rw [htime] at hfirst
      refine hfirst.trans ?_
      by_cases hlt : timeout < 2 ^ 32
      · rw [← Ticks.uncut_iff_of_lt hl hlt,
          ← Ticks.first_mod_iff (by rw [Nat.mod_eq_of_lt hlt]; exact h0) hi interval.toNat_lt, Nat.mod_eq_of_lt hlt]
      · -- a timeout of more than 32 bits is never reached by the ticks
        have hge := (Ticks.ceilDiv_mul_bounds hi hl).1
        refine iff_of_false (fun hf => ?_) (by omega)
        exact absurd hf.reached (Nat.not_le.2 ((Nat.mod_lt _ (by decide)).trans_le (Nat.le_of_not_lt hlt)))
    rw [← hfails]
    constructor
    · intro h
      exact h.1 h0 hb
    · intro h
      exact ⟨fun _ _ => h, fun heq => absurd heq hb⟩

/-- `env_wait_for_link_up`; its parameter has 32 bits, which is all that arrives of `RL_BLOCK`. -/
theorem wait_honoured_iff (hw : w = 32 ∨ w = 64) (hi : 0 < interval.toNat) (timeoutMs : UInt32) :
    Honoured (UInt32.ofNat (rlBlock w)).toNat timeoutMs.toNat interval.toNat (WaitFailsAfter w interval timeoutMs)
        (∀ fuel n, envWaitForLinkUp w interval timeoutMs (fun _ => 0) fuel ≠ some (0, n)) ↔
      w = 32 ∨ timeoutMs ≠ 0xFFFFFFFF := by
  have hnarrow : (UInt32.ofNat (rlBlock w)).toNat = 2 ^ 32 - 1 := by
    rw [UInt32.toNat_ofNat']
    exact (rlBlock_mod hw).1
  have hmax : timeoutMs ≠ 0xFFFFFFFF ↔ timeoutMs.toNat ≠ 2 ^ 32 - 1 := by
    rw [ne_eq, ← UInt32.toNat_inj]
    rfl
  unfold Honoured RL_DONT_BLOCK
  rw [hnarrow, hmax]
  by_cases hb : timeoutMs.toNat = 2 ^ 32 - 1
  · rw [or_iff_left (not_not.2 hb)]
    rcases hw with rfl | rfl
    · refine iff_of_true ⟨fun _ hne => absurd hb hne, fun _ fuel n => ?_⟩ rfl
      unfold envWaitForLinkUp
      rw [envWaitForLinkUpLoop_block hb.symm]
      exact (Option.some_ne_none _).symm
    · -- the comparison with all 64 bits fails
      refine iff_of_false (fun h => ?_) (by decide)
      have hwait : WaitFailsAfter 64 interval timeoutMs _ := waitFailsAfter (by rw [hb]; decide) hi (by omega)
      obtain ⟨fuel₀, hfails⟩ := hwait
      exact h.2 hb fuel₀ _ (hfails fuel₀ le_rfl)
  · refine iff_of_true ⟨fun h0 _ => waitFailsAfter ?_ hi h0, fun h => absurd h hb⟩ (Or.inr hb)
    have hlt := timeoutMs.toNat_lt
    rcases hw with rfl | rfl
    · exact Ne.symm hb
    · have hbig : rlBlock 64 = 2 ^ 64 - 1 := rfl
      omega

end

/-- On 32 and 64 bits, for every interval and every timeout: when each of the three functions honours its timeout. -/
theorem timeouts_honoured_iff {w : Nat} (hw : w = 32 ∨ w = 64) {interval : UInt32} (hi : 0 < interval.toNat) (c : LinkConfig)
    (r : Role) :
    (∀ src dst data size timeout, size ≤ c.payloadSize → timeout < 2 ^ w →
      (Honoured (rlBlock w) timeout interval.toNat
          ((TxCall.send (some src) dst (some data) size timeout).FailsAfter c interval r (.status RL_ERR_NO_MEM))
          ((TxCall.send (some src) dst (some data) size timeout).NeverReturns c interval r) ↔
        timeout = 0 ∨ if timeout = rlBlock w then 2 ∣ interval.toNat else Ticks.Uncut (2 ^ 32) timeout interval.toNat)) ∧
    (∀ timeout, timeout < 2 ^ w →
      (Honoured (rlBlock w) timeout interval.toNat
          ((TxCall.allocTxBuffer true timeout).FailsAfter c interval r (.buffer none))
          ((TxCall.allocTxBuffer true timeout).NeverReturns c interval r) ↔
        timeout = 0 ∨ if timeout = rlBlock w then w = 64 ∨ 2 ∣ interval.toNat
          else timeout ⌈/⌉ interval.toNat * interval.toNat < 2 ^ 32)) ∧
    ∀ timeoutMs : UInt32,
      Honoured (UInt32.ofNat (rlBlock w)).toNat timeoutMs.toNat interval.toNat (WaitFailsAfter w interval timeoutMs)
          (∀ fuel n, envWaitForLinkUp w interval timeoutMs (fun _ => 0) fuel ≠ some (0, n)) ↔
        w = 32 ∨ timeoutMs ≠ 0xFFFFFFFF :=
  ⟨fun src dst data _ timeout hsize _ => send_honoured_iff hw hi r src dst data hsize timeout,
    fun timeout _ => allocTxBuffer_honoured_iff hw hi c r timeout, wait_honoured_iff hw hi⟩

/-- Ten milliseconds in steps of three: four sleeps. -/
theorem timeouts_honoured_ten :
    (TxCall.allocTxBuffer true 10).FailsAfter ⟨false, 16, 16⟩ 3 .master (.buffer none) 4 ∧ WaitFailsAfter 32 3 10 4 := by
  obtain ⟨-, halloc, hwait⟩ := @timeouts_honoured_iff 32 (Or.inl rfl) 3 (by decide) ⟨false, 16, 16⟩ .master
  exact ⟨((halloc 10 (by decide)).2 (by decide)).1 (by decide) (by decide),
    ((hwait 10).2 (Or.inl rfl)).1 (by decide) (by decide)⟩

/-- With an interval of one a send that is to block fails on 32 bits when the ticks are all ones; on 64 bits a send with
a timeout of `2 ^ 32` does not sleep, such an allocation never returns, and a wait for the link that is to block fails. -/
theorem timeouts_broken :
    (TxCall.send (some 7) 9 (some fun _ => 0) 3 (rlBlock 32)).FailsAfter ⟨false, 16, 16⟩ 1 .master (.status RL_ERR_NO_MEM)
        (2 ^ 32 - 1) ∧
      (TxCall.send (some 7) 9 (some fun _ => 0) 3 (2 ^ 32)).FailsAfter ⟨false, 16, 16⟩ 1 .master (.status RL_ERR_NO_MEM) 0 ∧
      (TxCall.allocTxBuffer true (2 ^ 32)).NeverReturns ⟨false, 16, 16⟩ 1 .master ∧
      WaitFailsAfter 64 1 (UInt32.ofNat (rlBlock 64)) (2 ^ 32 - 1) := by
  have hsend : ∀ timeout, (TxCall.send (some 7) 9 (some fun _ => 0) 3 timeout).Polls ⟨false, 16, 16⟩ _ := fun timeout =>
    polls_send (c := ⟨false, 16, 16⟩) (by decide) timeout
  refine ⟨?_, ?_, ?_, ?_⟩
  · refine (hsend _).failsAfter_iff.2 ⟨fun k hk => ?_, ?_⟩
    · show k * 1 % 2 ^ 32 < 2 ^ 32 - 1
      omega
    · show 2 ^ 32 - 1 ≤ (2 ^ 32 - 1) * 1 % 2 ^ 32
      decide
  · refine (hsend _).failsAfter_iff.2 ⟨fun k hk => absurd hk (Nat.not_lt_zero k), ?_⟩
    show 0 ≤ _
    exact Nat.zero_le _
  · refine (polls_allocTxBuffer _ _).neverReturns_iff.2 fun k => ?_
    show _ < 2 ^ 32
    exact Nat.mod_lt _ (by decide)
  · have hwait : WaitFailsAfter 64 1 (UInt32.ofNat (rlBlock 64)) _ := waitFailsAfter (by decide) (by decide) (by decide)
    exact hwait

end RpmsgLite
