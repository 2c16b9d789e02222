/-
`env_init` and `env_deinit` of the RTOS environments, called by any number of tasks. The first caller runs
`platform_init` with the scheduler on again and then gives `env_sema`; every later caller takes the semaphore and gives
it back, so that none returns before the platform is up. That works when the semaphore is created, and created empty; the
port that creates it with one token lets a caller pass.
-/
import RpmsgLite.Lib.Tasks

namespace RpmsgLite

namespace EnvInit

/-! ## The ports -/

/-- How a port creates `env_sema`: the tokens in it, and the largest number of tokens where it has one. `createChecked`
says that `env_init` returns when the create fails, `takeChecked` that it gives only what it has taken. -/
structure Port where
  count : Nat
  max : Option Nat
  createChecked : Bool
  takeChecked : Bool
  fits : ∀ m ∈ max, count + 1 ≤ m

/-- `xSemaphoreCreateBinary` -/
def Port.freertos : Port := ⟨0, some 1, false, false, by simp⟩

/-- `k_sem_init(&env_sema, 0, 1)` -/
def Port.zephyr : Port := ⟨0, some 1, false, false, by simp⟩

/-- `tx_semaphore_create(&env_sema, NULL, 0)` -/
def Port.threadx : Port := ⟨0, none, true, true, by simp⟩

/-- `xos_sem_create(&env_sema, XOS_SEM_WAIT_PRIORITY, 1)` -/
def Port.xos : Port := ⟨1, none, false, true, by simp⟩

/-- One more token, up to the largest number. -/
def Port.give (P : Port) (n : Nat) : Nat :=
  match P.max with
  | none => n + 1
  | some m => min m (n + 1)

/-! ## The tasks -/

/-- Where a task is in the two functions. -/
inductive Task
  | out
  /-- the first caller, in `platform_init` -/
  | platformInit
  /-- the first caller, before it gives the semaphore -/
  | gives (retval : Int)
  /-- a later caller, before it takes the semaphore -/
  | takes
  /-- a later caller that has taken it -/
  | passes
  /-- `env_init` has returned -/
  | inside (retval : Int)
deriving DecidableEq

inductive PlatformCall
  | init
  | deinit
deriving DecidableEq

/-- `envSema` is `none` before the first `env_init` and after the last `env_deinit`; `platform` is what `platform_init`
has returned. The calls of the platform are logged, and whether a semaphore was used that is not there. -/
structure State where
  envInitCounter : Int
  envSema : Option Nat
  platform : Option Int
  calls : List PlatformCall
  misused : Bool
  task : List Task

def State.start : State := ⟨0, none, none, [], false, []⟩

inductive Move
  /-- one more task -/
  | spawn
  /-- a task calls `env_init`, up to where the scheduler is on again; `created` says whether a create of the semaphore
  succeeds -/
  | envInit (i : Nat) (created : Bool)
  /-- `platform_init` returns -/
  | platformInit (i : Nat) (retval : Int)
  | semTake (i : Nat)
  | semGive (i : Nat)
  /-- a task that is inside calls `env_deinit` -/
  | envDeinit (i : Nat)
deriving DecidableEq

section

variable (P : Port) (s : State)

def State.set (i : Nat) (t : Task) : State := { s with task := s.task.set i t }

def State.semGive : State :=
  match s.envSema with
  | none => { s with misused := true }
  | some n => { s with envSema := some (P.give n) }

/-- `none` is a step that cannot be taken: a task that is elsewhere, an empty semaphore, or a failed `RL_ASSERT`. -/
def State.step : Move → Option State
  | .spawn => some { s with task := s.task ++ [.out] }
  | .envInit i created =>
    match s.task[i]? with
    | some .out =>
      if s.envInitCounter < 0 then none
      else if s.envInitCounter + 1 = 1 then
        -- the counter stays at 1
        if !created && P.createChecked then some { s with envInitCounter := s.envInitCounter + 1 }
        else some
          { envInitCounter := s.envInitCounter + 1
            envSema := if created then some P.count else none
            platform := none
            calls := s.calls ++ [.init]
            misused := s.misused
            task := s.task.set i .platformInit }
      else some { s with envInitCounter := s.envInitCounter + 1, task := s.task.set i .takes }
    | _ => none
  | .platformInit i retval =>
    match s.task[i]? with
    | some .platformInit => some { s with platform := some retval, task := s.task.set i (.gives retval) }
    | _ => none
  | .semTake i =>
    match s.task[i]?, s.envSema with
    | some .takes, none =>
      some { s with misused := true, task := s.task.set i (if P.takeChecked then .inside 0 else .passes) }
    | some .takes, some (n + 1) => some { s with envSema := some n, task := s.task.set i .passes }
    | _, _ => none
  | .semGive i =>
    match s.task[i]? with
    | some (.gives retval) => some ((s.semGive P).set i (.inside retval))
    | some .passes => some ((s.semGive P).set i (.inside 0))
    | _ => none
  | .envDeinit i =>
    match s.task[i]? with
    | some (.inside _) =>
      if s.envInitCounter ≤ 0 then none
      else if s.envInitCounter - 1 ≤ 0 then
        some
          { envInitCounter := s.envInitCounter - 1
            envSema := none
            platform := none
            calls := s.calls ++ [.deinit]
            misused := s.misused
            task := s.task.set i .out }
      else some { s with envInitCounter := s.envInitCounter - 1, task := s.task.set i .out }
    | _ => none

end

/-- The create in the step succeeds. -/
def Move.creates : Move → Bool
  | .envInit _ created => created
  | .spawn | .platformInit _ _ | .semTake _ | .semGive _ | .envDeinit _ => true

/-- The states of all runs; `mayFail` says whether a create can fail. -/
inductive Reachable (P : Port) (mayFail : Bool) : State → Prop
  | start : Reachable P mayFail .start
  | step {s s' : State} {mv : Move} (h : Reachable P mayFail s) (hmv : (mv.creates || mayFail) = true)
      (hs : s.step P mv = some s') : Reachable P mayFail s'

def State.run (P : Port) : State → List Move → Option State
  | s, [] => some s
  | s, mv :: mvs => (s.step P mv).bind fun s => s.run P mvs

/-- What a step can do when the create in it succeeds. -/
inductive State.Stepped (P : Port) (s : State) : Move → State → Prop
  | spawn : Stepped P s .spawn { s with task := s.task ++ [.out] }
  | first {i : Nat} (hi : s.task[i]? = some .out) (h0 : s.envInitCounter = 0) :
    Stepped P s (.envInit i true) ⟨1, some P.count, none, s.calls ++ [.init], s.misused, s.task.set i .platformInit⟩
  | later {i : Nat} (hi : s.task[i]? = some .out) (hpos : 0 < s.envInitCounter) :
    Stepped P s (.envInit i true) { s with envInitCounter := s.envInitCounter + 1, task := s.task.set i .takes }
  | platformInit {i : Nat} {retval : Int} (hi : s.task[i]? = some .platformInit) :
    Stepped P s (.platformInit i retval) { s with platform := some retval, task := s.task.set i (.gives retval) }
  | takeNone {i : Nat} (hi : s.task[i]? = some .takes) (hn : s.envSema = none) :
    Stepped P s (.semTake i)
      { s with misused := true, task := s.task.set i (if P.takeChecked then .inside 0 else .passes) }
  | take {i n : Nat} (hi : s.task[i]? = some .takes) (hn : s.envSema = some (n + 1)) :
    Stepped P s (.semTake i) { s with envSema := some n, task := s.task.set i .passes }
  | give {i : Nat} {t : Task} {retval : Int} (hi : s.task[i]? = some t) (ht : t = .gives retval ∨ t = .passes ∧ retval = 0) :
    Stepped P s (.semGive i) ((s.semGive P).set i (.inside retval))
  | last {i : Nat} {retval : Int} (hi : s.task[i]? = some (.inside retval)) (h1 : s.envInitCounter = 1) :
    Stepped P s (.envDeinit i) ⟨0, none, none, s.calls ++ [.deinit], s.misused, s.task.set i .out⟩
  | deinit {i : Nat} {retval : Int} (hi : s.task[i]? = some (.inside retval)) (h1 : 1 < s.envInitCounter) :
    Stepped P s (.envDeinit i) { s with envInitCounter := s.envInitCounter - 1, task := s.task.set i .out }

section

variable {P : Port} {s s' : State} {mv : Move} {i : Nat} {t x : Task}

theorem State.step_cases (hmv : mv.creates = true) (hs : s.step P mv = some s') : s.Stepped P mv s' := by
  cases mv with
  | spawn =>
    cases hs
    exact .spawn
  | envInit i created =>
    obtain rfl : created = true := hmv
    simp only [State.step, Bool.not_true, Bool.false_and, Bool.false_eq_true, if_false, if_true] at hs
    split at hs
    · rename_i hi
      split at hs
      · cases hs
      split at hs
      · rename_i h1
        have h0 : s.envInitCounter = 0 := by omega
        cases hs
        rw [h0]
        exact .first hi h0
      · cases hs
        exact .later hi (by omega)
    · cases hs
  | platformInit i retval =>
    simp only [State.step] at hs
    split at hs
    · rename_i hi
      cases hs
      exact .platformInit hi
    · cases hs
  | semTake i =>
    simp only [State.step] at hs
    split at hs
    · rename_i hi hn
      cases hs
      exact .takeNone hi hn
    · rename_i hi hn
      cases hs
      exact .take hi hn
    · cases hs
  | semGive i =>
    simp only [State.step] at hs
    split at hs
    · rename_i hi
      cases hs
      exact .give hi (Or.inl rfl)
    · rename_i hi
      cases hs
      exact .give hi (Or.inr ⟨rfl, rfl⟩)
    · cases hs
  | envDeinit i =>
    simp only [State.step] at hs
    split at hs
    · rename_i hi
      split at hs
      · cases hs
      split at hs
      · rename_i h1
        have h1 : s.envInitCounter = 1 := by omega
        cases hs
        rw [h1]
        exact .last hi h1
      · cases hs
        exact .deinit hi (by omega)
    · cases hs

/-! ## The tokens -/

/-- Counted by `env_init_counter`. -/
def Task.counted : Task → Bool
  | .out => false
  | _ => true

/-- Stands for a token: the first caller until it gives it, a later one between its two calls. -/
def Task.holds : Task → Bool
  | .platformInit | .gives _ | .passes => true
  | _ => false

def Task.isInit : Task → Bool
  | .platformInit => true
  | _ => false

/-- The counter counts the tasks between the two functions, the semaphore is there as long as there are any, and with
the tasks that hold one its tokens are always as many; the platform is brought up and shut down in turns. -/
structure Sound (P : Port) (s : State) : Prop where
  counter : s.envInitCounter = s.task.countP Task.counted
  sema : s.envSema = none ↔ s.task.countP Task.counted = 0
  tokens : ∀ n, s.envSema = some n → n + s.task.countP Task.holds = P.count + 1
  first : s.task.countP Task.isInit = if s.envSema ≠ none ∧ s.platform = none then 1 else 0
  calls : ∃ k, s.calls = (List.replicate k [PlatformCall.init, .deinit]).flatten ++ if s.envSema = none then [] else [.init]
  misused : s.misused = false

theorem Task.holds_counted {t : Task} (h : t.holds = true) : t.counted = true := by
  cases t with
  | out => cases h
  | _ => rfl

theorem Task.isInit_holds {t : Task} (h : t.isInit = true) : t.holds = true := by
  cases t with
  | platformInit => rfl
  | _ => cases h

theorem sound_start : Sound P .start := by
  refine ⟨rfl, ⟨fun _ => rfl, fun _ => rfl⟩, fun n hn => ?_, rfl, ⟨0, rfl⟩, rfl⟩
  cases hn

theorem Sound.sema_some (h : Sound P s) (hi : s.task[i]? = some t) (ht : t.counted = true) : ∃ n, s.envSema = some n := by
  have hpos := Tasks.countP_pos hi ht
  refine Option.ne_none_iff_exists'.1 fun hn => ?_
  have := h.sema.1 hn
  omega

/-- There is room for one more token as long as a task holds one. -/
theorem Sound.give (h : Sound P s) {n : Nat} (hn : s.envSema = some n) (hi : s.task[i]? = some t) (ht : t.holds = true) :
    P.give n = n + 1 := by
  have htok := h.tokens n hn
  have hpos := Tasks.countP_pos hi ht
  have hfits := P.fits
  unfold Port.give
  split
  · rfl
  · rename_i m hm
    have := hfits m hm
    omega

theorem none_counted (h0 : s.task.countP Task.counted = 0) :
    s.task.countP Task.holds = 0 ∧ s.task.countP Task.isInit = 0 := by
  have hh := Tasks.countP_eq_zero_of (p := Task.holds) _ h0 fun _ => Task.holds_counted
  exact ⟨hh, Tasks.countP_eq_zero_of _ hh fun _ => Task.isInit_holds⟩

/-- One task moves without the semaphore being created or deleted: what is left to check is what the move changes. -/
theorem Sound.moved (h : Sound P s) {c : Int} {n n' : Nat} {platform : Option Int} {task : List Task}
    (hn : s.envSema = some n) (hcount : c = task.countP Task.counted) (hpos : task.countP Task.counted ≠ 0)
    (htok : n' + task.countP Task.holds = n + s.task.countP Task.holds)
    (hfirst : task.countP Task.isInit = if platform = none then 1 else 0) :
    Sound P { s with envInitCounter := c, envSema := some n', platform, task } := by
  have hcalls := h.calls
  rw [hn, if_neg (by simp)] at hcalls
  refine ⟨hcount, ?_, fun k hk => ?_, ?_, ?_, h.misused⟩
  · show some n' = none ↔ task.countP Task.counted = 0
    simp [hpos]
  · obtain rfl := Option.some.inj hk
    exact htok.trans (h.tokens n hn)
  · show task.countP Task.isInit = _
    rw [hfirst]
    simp
  · show ∃ k, s.calls = _
    simpa using hcalls

theorem Sound.step (h : Sound P s) (hmv : mv.creates = true) (hs : s.step P mv = some s') : Sound P s' := by
  have hcount := h.counter
  have hfirst := h.first
  cases State.step_cases hmv hs with
  | spawn =>
    have hcp : ∀ p : Task → Bool, p Task.out = false → (s.task ++ [Task.out]).countP p = s.task.countP p := fun p hp => by
      rw [Tasks.countP_concat, hp]
      rfl
    refine ⟨?_, ?_, fun n hn => ?_, ?_, h.calls, h.misused⟩
    · rw [hcp Task.counted rfl]
      exact hcount
    · rw [hcp Task.counted rfl]
      exact h.sema
    · rw [hcp Task.holds rfl]
      exact h.tokens n hn
    · rw [hcp Task.isInit rfl]
      exact hfirst
  | @first i hi h0 =>
    -- nobody is inside, so nobody stands for a token either
    have hc : s.task.countP Task.counted = 0 := by omega
    obtain ⟨hh, hz⟩ := none_counted hc
    have h1 : (s.task.set i .platformInit).countP Task.counted = s.task.countP Task.counted + 1 :=
      Tasks.countP_set Task.counted hi .platformInit
    have h2 : (s.task.set i .platformInit).countP Task.holds = s.task.countP Task.holds + 1 :=
      Tasks.countP_set Task.holds hi .platformInit
    have h3 : (s.task.set i .platformInit).countP Task.isInit = s.task.countP Task.isInit + 1 :=
      Tasks.countP_set Task.isInit hi .platformInit
    obtain ⟨k, hk⟩ := h.calls
    refine ⟨?_, ?_, fun n hn => ?_, ?_, ⟨k, ?_⟩, h.misused⟩
    · show (1 : Int) = ((s.task.set i .platformInit).countP Task.counted : Nat)
      omega
    · show some P.count = none ↔ (s.task.set i .platformInit).countP Task.counted = 0
      simp [h1]
    · obtain rfl := Option.some.inj hn
      show P.count + (s.task.set i .platformInit).countP Task.holds = _
      omega
    · show (s.task.set i .platformInit).countP Task.isInit = _
      simp [h3, hz]
    · show s.calls ++ [.init] = _
      rw [hk, if_pos (h.sema.2 hc), List.append_nil]
      rfl
  | @later i hi hpos =>
    have h1 : (s.task.set i .takes).countP Task.counted = s.task.countP Task.counted + 1 := Tasks.countP_set Task.counted hi .takes
    have h2 : (s.task.set i .takes).countP Task.holds = s.task.countP Task.holds := Tasks.countP_set Task.holds hi .takes
    have h3 : (s.task.set i .takes).countP Task.isInit = s.task.countP Task.isInit := Tasks.countP_set Task.isInit hi .takes
    obtain ⟨n, hn⟩ : ∃ n, s.envSema = some n :=
      Option.ne_none_iff_exists'.1 fun hn => absurd (h.sema.1 hn) (by omega)
    rw [hn] at hfirst
    have hm : Sound P { s with envInitCounter := s.envInitCounter + 1, envSema := some n, task := s.task.set i .takes } :=
      h.moved hn (by omega) (by omega) (by omega) (h3.trans (by simpa using hfirst))
    rwa [← hn] at hm
  | @platformInit i retval hi =>
    have h1 : (s.task.set i (.gives retval)).countP Task.counted + 1 = s.task.countP Task.counted + 1 :=
      Tasks.countP_set Task.counted hi (.gives retval)
    have h2 : (s.task.set i (.gives retval)).countP Task.holds + 1 = s.task.countP Task.holds + 1 :=
      Tasks.countP_set Task.holds hi (.gives retval)
    have h3 : (s.task.set i (.gives retval)).countP Task.isInit + 1 = s.task.countP Task.isInit :=
      Tasks.countP_set Task.isInit hi (.gives retval)
    obtain ⟨n, hn⟩ := h.sema_some hi rfl
    have hpos := Tasks.countP_pos (p := Task.counted) hi rfl
    have hle : s.task.countP Task.isInit ≤ 1 := by
      rw [hfirst]
      split
      · exact le_rfl
      · exact Nat.zero_le _
    have hm : Sound P { s with envSema := some n, platform := some retval, task := s.task.set i (.gives retval) } :=
      h.moved hn (by omega) (by omega) (by omega) (by simp only [reduceCtorEq, if_false]; omega)
    rwa [← hn] at hm
  | @takeNone i hi hn =>
    obtain ⟨n, hn'⟩ := h.sema_some hi rfl
    rw [hn] at hn'
    cases hn'
  | @take i n hi hn =>
    have h1 : (s.task.set i .passes).countP Task.counted + 1 = s.task.countP Task.counted + 1 :=
      Tasks.countP_set Task.counted hi .passes
    have h2 : (s.task.set i .passes).countP Task.holds = s.task.countP Task.holds + 1 := Tasks.countP_set Task.holds hi .passes
    have h3 : (s.task.set i .passes).countP Task.isInit = s.task.countP Task.isInit := Tasks.countP_set Task.isInit hi .passes
    have hpos := Tasks.countP_pos (p := Task.counted) hi rfl
    rw [hn] at hfirst
    exact h.moved hn (by omega) (by omega) (by omega) (h3.trans (by simpa using hfirst))
  | @give i t retval hi ht =>
    obtain ⟨hth, hti, htc⟩ : t.holds = true ∧ t.isInit = false ∧ t.counted = true := by
      rcases ht with rfl | ⟨rfl, -⟩
      · exact ⟨rfl, rfl, rfl⟩
      · exact ⟨rfl, rfl, rfl⟩
    obtain ⟨n, hn⟩ := h.sema_some hi htc
    have h1 := Tasks.countP_set Task.counted hi (.inside retval)
    have h2 := Tasks.countP_set Task.holds hi (.inside retval)
    have h3 := Tasks.countP_set Task.isInit hi (.inside retval)
    rw [htc] at h1
    rw [hth] at h2
    rw [hti] at h3
    simp only [Task.counted, Task.holds, Task.isInit, Bool.toNat_true, Bool.toNat_false, Nat.add_zero] at h1 h2 h3
    have hpos := Tasks.countP_pos hi htc
    rw [hn] at hfirst
    have hgive : (s.semGive P).set i (.inside retval) =
        { s with envSema := some (n + 1), task := s.task.set i (.inside retval) } := by
      simp only [State.semGive, hn, State.set, h.give hn hi hth]
    rw [hgive]
    exact h.moved hn (by omega) (by omega) (by omega) (h3.trans (by simpa using hfirst))
  | @last i retval hi h1 =>
    obtain ⟨n, hn⟩ := h.sema_some hi rfl
    have hset : (s.task.set i .out).countP Task.counted + 1 = s.task.countP Task.counted := Tasks.countP_set Task.counted hi .out
    have hc : (s.task.set i .out).countP Task.counted = 0 := by omega
    have hh := Tasks.countP_eq_zero_of (p := Task.holds) _ hc fun _ => Task.holds_counted
    have hz := Tasks.countP_eq_zero_of (p := Task.isInit) _ hh fun _ => Task.isInit_holds
    obtain ⟨k, hk⟩ := h.calls
    refine ⟨?_, ?_, fun n hn => ?_, ?_, ⟨k + 1, ?_⟩, h.misused⟩
    · show (0 : Int) = ((s.task.set i .out).countP Task.counted : Nat)
      omega
    · show none = none ↔ (s.task.set i .out).countP Task.counted = 0
      simp [hc]
    · cases hn
    · show (s.task.set i .out).countP Task.isInit = _
      simpa using hz
    · show s.calls ++ [.deinit] = _
      rw [hk, hn, if_neg (by simp), if_pos rfl, List.append_nil, List.replicate_succ', List.flatten_append, List.append_assoc]
      rfl
  | @deinit i retval hi h1 =>
    have h1 : (s.task.set i .out).countP Task.counted + 1 = s.task.countP Task.counted := Tasks.countP_set Task.counted hi .out
    have h2 : (s.task.set i .out).countP Task.holds = s.task.countP Task.holds := Tasks.countP_set Task.holds hi .out
    have h3 : (s.task.set i .out).countP Task.isInit = s.task.countP Task.isInit := Tasks.countP_set Task.isInit hi .out
    obtain ⟨n, hn⟩ := h.sema_some hi rfl
    rw [hn] at hfirst
    have hm : Sound P { s with envInitCounter := s.envInitCounter - 1, envSema := some n, task := s.task.set i .out } :=
      h.moved hn (by omega) (by omega) (by omega) (h3.trans (by simpa using hfirst))
    rwa [← hn] at hm

theorem Reachable.sound (h : Reachable P false s) : Sound P s := by
  induction h with
  | start => exact sound_start
  | step _ hmv hs ih => exact ih.step (by simpa using hmv) hs

/-! ## Nobody returns before the platform is up -/

/-- Past the semaphore, or before giving it. -/
def Task.past : Task → Bool
  | .gives _ | .passes | .inside _ => true
  | _ => false

/-- `platform_init` has returned before anybody's `env_init` has. -/
def State.Up (s : State) : Prop := ∀ retval, Task.inside retval ∈ s.task → s.platform ≠ none

/-- Where no task is counted, none is past anything. -/
theorem not_past {l : List Task} (h0 : l.countP Task.counted = 0) : ∀ t ∈ l, t.past = false := by
  intro t ht
  have := List.countP_eq_zero.1 h0 t ht
  cases t with
  | out => rfl
  | _ => exact absurd rfl this

/-- With a semaphore that starts empty, a token in it means that nobody is in `platform_init`. -/
theorem Sound.take_up (h : Sound P s) (h0 : P.count = 0) {n : Nat} (hn : s.envSema = some (n + 1)) : s.platform ≠ none := by
  intro hplat
  have htok := h.tokens _ hn
  have hfirst := h.first
  rw [hn, hplat] at hfirst
  have hz := Tasks.countP_eq_zero_of (p := Task.isInit) (l := s.task) Task.holds (by omega) fun _ => Task.isInit_holds
  simp [hz] at hfirst

theorem past_step (h : Sound P s) (h0 : P.count = 0) (hp : ∀ t ∈ s.task, t.past = true → s.platform ≠ none)
    (hmv : mv.creates = true) (hs : s.step P mv = some s') : ∀ t ∈ s'.task, t.past = true → s'.platform ≠ none := by
  have hcount := h.counter
  cases State.step_cases hmv hs with
  | spawn =>
    intro t ht hpast
    rcases List.mem_append.1 ht with ht | ht
    · exact hp t ht hpast
    · rw [List.mem_singleton.1 ht] at hpast
      cases hpast
  | @first i hi hz =>
    have hnone := not_past (show s.task.countP Task.counted = 0 by omega)
    refine Tasks.forall_set (fun t ht hpast => ?_) fun hpast => by cases hpast
    rw [hnone t ht] at hpast
    cases hpast
  | later => exact Tasks.forall_set hp fun hpast => by cases hpast
  | platformInit => exact fun _ _ _ => Option.some_ne_none _
  | takeNone hi hn =>
    obtain ⟨n, hn'⟩ := h.sema_some hi rfl
    rw [hn] at hn'
    cases hn'
  | take hi hn => exact Tasks.forall_set hp fun _ => h.take_up h0 hn
  | @give i t retval hi ht =>
    have hup : s.platform ≠ none := by
      refine hp t (List.mem_of_getElem? hi) ?_
      rcases ht with rfl | ⟨rfl, -⟩
      · rfl
      · rfl
    have hplat : ((s.semGive P).set i (.inside retval)).platform = s.platform := by
      unfold State.semGive
      split
      · rfl
      · rfl
    exact fun _ _ _ => hplat ▸ hup
  | @last i retval hi h1 =>
    have hset : (s.task.set i .out).countP Task.counted + 1 = s.task.countP Task.counted := Tasks.countP_set Task.counted hi .out
    have hnone := not_past (show (s.task.set i .out).countP Task.counted = 0 by omega)
    intro t ht hpast
    rw [hnone t ht] at hpast
    cases hpast
  | deinit => exact Tasks.forall_set hp fun hpast => by cases hpast

/-- Two tasks: the second one returns while the first one is still in `platform_init`. -/
def overtakes : List Move := [.spawn, .spawn, .envInit 0 true, .envInit 1 true, .semTake 1, .semGive 1]

/-- The first create fails; where `env_init` checks it, the first task calls `env_init` again. -/
def withoutSema (P : Port) : List Move :=
  [.spawn, .spawn, .envInit 0 false, .envInit 1 true, .semTake 1] ++ if P.takeChecked then [] else [.semGive 1]

theorem reachable_of_run {mayFail : Bool} {mvs : List Move} (h : Reachable P mayFail s)
    (hmvs : ∀ mv ∈ mvs, (mv.creates || mayFail) = true) (hr : s.run P mvs = some s') : Reachable P mayFail s' := by
  induction mvs generalizing s with
  | nil =>
    cases hr
    exact h
  | cons mv mvs ih =>
    obtain ⟨s₁, hs, hr⟩ := Option.bind_eq_some_iff.1 hr
    exact ih (.step h (hmvs mv List.mem_cons_self) hs) (fun m hm => hmvs m (List.mem_cons_of_mem _ hm)) hr

/-- Without a semaphore the second caller returns, on every port. -/
theorem withoutSema_run (P : Port) : ∃ s, State.start.run P (withoutSema P) = some s ∧ ¬ s.Up := by
  obtain ⟨count, max, createChecked, takeChecked, fits⟩ := P
  have hnot : ∀ {s : State}, s.platform = none → Task.inside 0 ∈ s.task → ¬ s.Up := fun hplat hmem hup => hup 0 hmem hplat
  cases createChecked with
  | true =>
    cases takeChecked with
    | true => exact ⟨_, rfl, hnot rfl (List.mem_cons_of_mem _ List.mem_cons_self)⟩
    | false => exact ⟨_, rfl, hnot rfl (List.mem_cons_of_mem _ List.mem_cons_self)⟩
  | false =>
    cases takeChecked with
    | true => exact ⟨_, rfl, hnot rfl (List.mem_cons_of_mem _ List.mem_cons_self)⟩
    | false => exact ⟨_, rfl, hnot rfl (List.mem_cons_of_mem _ List.mem_cons_self)⟩

/-- How many steps a task has to go until `env_init` returns. -/
def Task.pending : Task → Nat
  | .platformInit | .takes => 2
  | .gives _ | .passes => 1
  | _ => 0

def State.pending (s : State) : Nat := (s.task.map Task.pending).sum

/-- The steps of a task inside `env_init`. -/
def Move.goesOn : Move → Bool
  | .platformInit _ _ | .semTake _ | .semGive _ => true
  | _ => false

/-- The steps of a task inside `env_init` create nothing. -/
theorem Move.creates_goesOn (h : mv.goesOn = true) : mv.creates = true := by
  cases mv with
  | envInit => cases h
  | _ => rfl

/-- Every port's functions work on a semaphore that is there, their assertions hold, and the calls under way return. -/
structure State.Live (P : Port) (s : State) : Prop where
  used : s.misused = false
  initAsserts : 0 ≤ s.envInitCounter
  deinitAsserts : ∀ retval, .inside retval ∈ s.task → 0 < s.envInitCounter
  turns : ∃ k, s.calls = (List.replicate k [PlatformCall.init, .deinit]).flatten ++
    if s.envInitCounter = 0 then [] else [.init]
  goesOn : s.pending ≠ 0 → ∃ mv s', mv.goesOn = true ∧ s.step P mv = some s'
  bounded : ∀ mvs s', (∀ mv ∈ mvs, mv.goesOn = true) → s.run P mvs = some s' → mvs.length + s'.pending = s.pending

theorem pending_step (h : Sound P s) (hmv : mv.goesOn = true) (hs : s.step P mv = some s') : s'.pending + 1 = s.pending := by
  cases State.step_cases (Move.creates_goesOn hmv) hs with
  | spawn => cases hmv
  | first => cases hmv
  | later => cases hmv
  | platformInit hi => exact Nat.succ.inj (Tasks.sum_set Task.pending hi _)
  | takeNone hi hn =>
    obtain ⟨n, hn'⟩ := h.sema_some hi rfl
    rw [hn] at hn'
    cases hn'
  | take hi => exact Nat.succ.inj (Tasks.sum_set Task.pending hi _)
  | @give i t retval hi ht =>
    have hsum := Tasks.sum_set Task.pending hi (.inside retval)
    have hone : t.pending = 1 := by
      rcases ht with rfl | ⟨rfl, -⟩
      · rfl
      · rfl
    have htask : ((s.semGive P).set i (.inside retval)).task = s.task.set i (.inside retval) := by
      unfold State.semGive
      split
      · rfl
      · rfl
    rw [State.pending, htask, ← hone]
    exact hsum
  | last => cases hmv
  | deinit => cases hmv

/-- Some call under way can go on: when nobody stands for a token, the tokens are in the semaphore. -/
theorem Sound.goesOn (h : Sound P s) (hp : s.pending ≠ 0) : ∃ mv s', Move.goesOn mv = true ∧ s.step P mv = some s' := by
  by_cases hh : s.task.countP Task.holds = 0
  · have hsome : ∃ i : Nat, s.task[i]? = some Task.takes := by
      by_contra hno
      refine hp (List.sum_eq_zero fun k hk => ?_)
      obtain ⟨t, ht, rfl⟩ := List.mem_map.1 hk
      obtain ⟨i, hi⟩ := List.mem_iff_getElem?.1 ht
      have hnh := List.countP_eq_zero.1 hh t ht
      cases t with
      | out => rfl
      | platformInit => exact absurd rfl hnh
      | gives => exact absurd rfl hnh
      | takes => exact absurd ⟨i, hi⟩ hno
      | passes => exact absurd rfl hnh
      | inside => rfl
    obtain ⟨i, hi⟩ := hsome
    obtain ⟨n, hn⟩ := h.sema_some hi rfl
    have htok := h.tokens n hn
    obtain ⟨k, rfl⟩ : ∃ k, n = k + 1 := ⟨P.count, by omega⟩
    exact ⟨.semTake i, _, rfl, by simp only [State.step, hi, hn]; rfl⟩
  · obtain ⟨t, ht, hholds⟩ := List.countP_pos_iff.1 (Nat.pos_of_ne_zero hh)
    obtain ⟨i, hi⟩ := List.mem_iff_getElem?.1 ht
    cases t with
    | out => cases hholds
    | platformInit => exact ⟨.platformInit i 0, _, rfl, by simp only [State.step, hi]; rfl⟩
    | gives retval => exact ⟨.semGive i, _, rfl, by simp only [State.step, hi]; rfl⟩
    | takes => cases hholds
    | passes => exact ⟨.semGive i, _, rfl, by simp only [State.step, hi]; rfl⟩
    | inside => cases hholds

/-- In every run of any number of tasks in which no create fails, on every port: the calls under way can go on until all of
them have returned, within the steps that are counted, whichever of them goes next, and the platform is brought up and shut
down in turns. -/
theorem env_init_returns (h : Reachable P false s) : s.Live P := by
  have hs := h.sound
  have hcount := hs.counter
  refine ⟨hs.misused, by omega, fun retval hmem => ?_, ?_, hs.goesOn, ?_⟩
  · have hpos : 0 < s.task.countP Task.counted := List.countP_pos_iff.2 ⟨_, hmem, rfl⟩
    omega
  · have hiff : s.envSema = none ↔ s.envInitCounter = 0 := hs.sema.trans (by omega)
    simpa only [hiff] using hs.calls
  · intro mvs
    induction mvs generalizing s with
    | nil =>
      rintro s' - hr
      cases hr
      exact Nat.zero_add _
    | cons mv mvs ih =>
      intro s' hmvs hr
      obtain ⟨s₁, h₁, hr⟩ := Option.bind_eq_some_iff.1 hr
      have hgo := hmvs mv List.mem_cons_self
      have hr₁ : Reachable P false s₁ := .step h (by rw [Move.creates_goesOn hgo]; rfl) h₁
      have hlen := ih hr₁ hr₁.sound hr₁.sound.counter s' (fun m hm => hmvs m (List.mem_cons_of_mem _ hm)) hr
      have hone := pending_step hs hgo h₁
      rw [List.length_cons]
      omega

/-- Three tasks on the FreeRTOS port: one is inside, one has the semaphore and one waits for it. -/
def threeTasks : List Move :=
  [.spawn, .spawn, .spawn, .envInit 0 true, .envInit 1 true, .platformInit 0 0, .semGive 0, .envInit 2 true, .semTake 1]

theorem env_init_returns_three : ∃ s, State.start.run .freertos threeTasks = some s ∧ s.pending = 3 ∧ s.Live .freertos := by
  have hrun : State.start.run .freertos threeTasks =
      some ⟨3, some 0, some 0, [.init], false, [.inside 0, .passes, .takes]⟩ := rfl
  exact ⟨_, hrun, rfl, env_init_returns (reachable_of_run .start (by decide) hrun)⟩

end

end EnvInit

end RpmsgLite
