/-
Waiting for the link in the FreeRTOS environment. All links share one event group; a task clears the bit of its link,
reads `link_state` and waits for the bit, and takes the whole group for the result. The result is right in every
interleaving in which the value a wait gets holds no other link's bit, no task clears the bit another task is about
to wait for, and no wait times out while its link's `env_tx_callback` is under way.
-/
import RpmsgLite.Lib.EventBits
import Mathlib.Logic.Function.Basic
import RpmsgLite.Lib.Runs

namespace RpmsgLite

namespace EventGroup

open EventBits

/-! ## Tasks -/

/-- A task in `env_wait_for_link_up`. -/
inductive Task
  | idle
  /-- `xEventGroupClearBits` is done -/
  | cleared (linkId : UInt32)
  /-- `*link_state` was read as 0 -/
  | tested (linkId : UInt32)
  /-- in `xEventGroupWaitBits` -/
  | blocked (linkId : UInt32)
  /-- `*link_state` was read as 1 -/
  | linkUp (linkId : UInt32)
  /-- `xEventGroupWaitBits` has returned `uxBits`; `up` is the link's `link_state` at that time -/
  | returned (linkId uxBits : UInt32) (up : Bool)

/-- What the call returns. -/
def Task.result : Task → Option UInt32
  | .linkUp _ => some 1
  | .returned linkId uxBits _ => some (if uxBits = bit linkId then 1 else 0)
  | _ => none

/-- The link of a wait that has ended was up by its end. -/
def Task.UpAtEnd : Task → Prop
  | .linkUp _ => True
  | .returned _ _ up => up = true
  | _ => False

/-- `ringing` counts, for each link, the calls of `rpmsg_lite_tx_callback` that have set `link_state` and not yet the
bit. -/
structure State where
  group : UInt32
  linkState : UInt32 → Bool
  ringing : UInt32 → Nat
  task : Nat → Task

/-- After `env_init`: `link_state` is already 1 for a master. -/
def State.start (linkState : UInt32 → Bool) : State := ⟨0, linkState, fun _ => 0, fun _ => .idle⟩

inductive Move
  /-- a task calls `env_wait_for_link_up` -/
  | call (t : Nat) (linkId : UInt32)
  | test (t : Nat)
  | waitBits (t : Nat)
  | timeout (t : Nat)
  /-- `rpmsg_lite_tx_callback` sets `link_state` -/
  | setLinkState (linkId : UInt32)
  /-- `env_tx_callback` -/
  | txCallback (linkId : UInt32)

/-- `xEventGroupSetBits` wakes the tasks whose bit is in the group. -/
def Task.wake (group : UInt32) (linkState : UInt32 → Bool) : Task → Task
  | .blocked linkId => if Has group linkId then .returned linkId group (linkState linkId) else .blocked linkId
  | x => x

/-- `none` is a step that cannot be taken. -/
def State.step (s : State) : Move → Option State
  | .call t linkId =>
    match s.task t with
    | .cleared _ | .tested _ | .blocked _ => none
    | _ => some { s with group := s.group &&& ~~~bit linkId, task := Function.update s.task t (.cleared linkId) }
  | .test t =>
    match s.task t with
    | .cleared linkId =>
      some { s with task := Function.update s.task t (if s.linkState linkId then .linkUp linkId else .tested linkId) }
    | _ => none
  | .waitBits t =>
    match s.task t with
    | .tested linkId =>
      let x := if Has s.group linkId then .returned linkId s.group (s.linkState linkId) else .blocked linkId
      some { s with task := Function.update s.task t x }
    | _ => none
  | .timeout t =>
    match s.task t with
    | .blocked linkId =>
      some { s with task := Function.update s.task t (.returned linkId s.group (s.linkState linkId)) }
    | _ => none
  | .setLinkState linkId =>
    some { s with
      linkState := Function.update s.linkState linkId true
      ringing := Function.update s.ringing linkId (s.ringing linkId + 1) }
  | .txCallback linkId =>
    if s.ringing linkId = 0 then none
    else
      let group := s.group ||| bit linkId
      some { s with
        group
        ringing := Function.update s.ringing linkId (s.ringing linkId - 1)
        task := fun t => (s.task t).wake group s.linkState }

/-- The states of all runs whose steps all satisfy `ok`. -/
inductive Reachable (ok : State → Move → Prop) (linkState : UInt32 → Bool) : State → Prop
  | start : Reachable ok linkState (.start linkState)
  | step {s s' : State} {mv : Move} (h : Reachable ok linkState s) (hok : ok s mv) (hs : s.step mv = some s') :
    Reachable ok linkState s'

/-! ## Undisturbed waits -/

/-- No wait is disturbed by the step: a link has one of the group's 24 bits, a bit is not cleared between another task's
test and its wait once the callback that set it is over, the value that ends a wait holds no other bit, and no wait
times out between `link_state` and its bit. -/
def Undisturbed (s : State) : Move → Prop
  | .call _ linkId =>
    linkId < 24 ∧ ∀ t, s.task t = .tested linkId → s.linkState linkId = true → s.ringing linkId ≠ 0
  | .test _ => True
  | .waitBits t => ∀ linkId, s.task t = .tested linkId → Has s.group linkId → s.group = bit linkId
  | .timeout t => ∀ linkId, s.task t = .blocked linkId → s.linkState linkId = false
  | .setLinkState linkId => linkId < 24
  | .txCallback linkId => ∀ t i, s.task t = .blocked i → Has (s.group ||| bit linkId) i → s.group ||| bit linkId = bit i

/-- What a task may rely on. -/
def Task.Sound (s : State) : Task → Prop
  | .idle | .linkUp _ => True
  | .cleared linkId => linkId < 24
  | .tested linkId => linkId < 24 ∧ (s.linkState linkId = true → Has s.group linkId ∨ s.ringing linkId ≠ 0)
  | .blocked linkId => linkId < 24 ∧ (s.linkState linkId = true → s.ringing linkId ≠ 0)
  | .returned linkId uxBits up => up = true → uxBits = bit linkId

structure Sound (s : State) : Prop where
  task : ∀ t, (s.task t).Sound s
  ringing : ∀ linkId, s.ringing linkId ≠ 0 → linkId < 24

section

variable {up : UInt32 → Bool} {s s' : State} {mv : Move} {x : Task}

theorem sound_start : Sound (.start up) :=
  ⟨fun _ => trivial, fun _ h => absurd rfl h⟩

theorem lt_width {i : UInt32} (h : i < 24) : i < 32 :=
  UInt32.lt_trans h (by decide)

/-- A step of one task that leaves the group and the links as they are. -/
theorem Sound.update (h : Sound s) (t : Nat) (hx : x.Sound s) : Sound { s with task := Function.update s.task t x } := by
  refine ⟨fun u => ?_, h.ringing⟩
  by_cases hu : u = t
  · subst hu
    show Task.Sound s (Function.update s.task u x u)
    rw [Function.update_self]
    exact hx
  · show Task.Sound s (Function.update s.task t x u)
    rw [Function.update_of_ne hu]
    exact h.task u

/-- A new call clears the bit of its link. -/
theorem Task.Sound.clear (h : x.Sound s) {linkId : UInt32} (hlink : linkId < 24)
    (hok : x = .tested linkId → s.linkState linkId = true → s.ringing linkId ≠ 0) :
    x.Sound { s with group := s.group &&& ~~~bit linkId } := by
  cases x with
  | tested i =>
    refine ⟨h.1, fun hup => ?_⟩
    by_cases hi : i = linkId
    · subst hi
      exact Or.inr (hok rfl hup)
    · exact (h.2 hup).imp_left fun hbit => (has_clear (lt_width h.1) (lt_width hlink)).2 ⟨hbit, Ne.symm hi⟩
  | idle => exact h
  | cleared => exact h
  | blocked => exact h
  | linkUp => exact h
  | returned => exact h

/-- `link_state` is set, and the callback is under way. -/
theorem Task.Sound.setLinkState (h : x.Sound s) (linkId : UInt32) :
    x.Sound { s with
      linkState := Function.update s.linkState linkId true
      ringing := Function.update s.ringing linkId (s.ringing linkId + 1) } := by
  have hring : Function.update s.ringing linkId (s.ringing linkId + 1) linkId ≠ 0 := by
    rw [Function.update_self]
    exact Nat.succ_ne_zero _
  cases x with
  | tested i =>
    refine ⟨h.1, fun hup => ?_⟩
    by_cases hi : i = linkId
    · subst hi
      exact Or.inr hring
    · dsimp only at hup ⊢
      rw [Function.update_of_ne hi] at hup ⊢
      exact h.2 hup
  | blocked i =>
    refine ⟨h.1, fun hup => ?_⟩
    by_cases hi : i = linkId
    · subst hi
      exact hring
    · dsimp only at hup ⊢
      rw [Function.update_of_ne hi] at hup ⊢
      exact h.2 hup
  | idle => exact h
  | cleared => exact h
  | linkUp => exact h
  | returned => exact h

/-- `env_tx_callback` wakes the tasks that wait for its bit, and the others keep a callback of their own. -/
theorem Task.Sound.txCallback (h : x.Sound s) {linkId : UInt32} (hlink : linkId < 24)
    (hok : ∀ i, x = .blocked i → Has (s.group ||| bit linkId) i → s.group ||| bit linkId = bit i) {task : Nat → Task} :
    (x.wake (s.group ||| bit linkId) s.linkState).Sound ⟨s.group ||| bit linkId, s.linkState,
      Function.update s.ringing linkId (s.ringing linkId - 1), task⟩ := by
  cases x with
  | tested i =>
    refine ⟨h.1, fun hup => ?_⟩
    by_cases hi : linkId = i
    · exact Or.inl ((has_or (lt_width h.1) (lt_width hlink)).2 (Or.inr hi))
    · dsimp only
      rw [Function.update_of_ne (Ne.symm hi)]
      exact (h.2 hup).imp_left fun hbit => (has_or (lt_width h.1) (lt_width hlink)).2 (Or.inl hbit)
  | blocked i =>
    unfold Task.wake
    dsimp only
    split
    · rename_i hbit
      exact fun _ => hok i rfl hbit
    · rename_i hbit
      -- the bit of the callback is in the group, so this task waits for another one
      have hi : i ≠ linkId := fun hi => hbit ((has_or (lt_width h.1) (lt_width hlink)).2 (Or.inr hi.symm))
      refine ⟨h.1, fun hup => ?_⟩
      dsimp only
      rw [Function.update_of_ne hi]
      exact h.2 hup
  | idle => exact h
  | cleared => exact h
  | linkUp => exact h
  | returned => exact h

/-- One step of an undisturbed run. -/
theorem Sound.step (h : Sound s) (hok : Undisturbed s mv) (hs : s.step mv = some s') : Sound s' := by
  cases mv with
  | call t linkId =>
    have hcleared : Sound { s with group := s.group &&& ~~~bit linkId } :=
      ⟨fun u => (h.task u).clear hok.1 (hok.2 u), h.ringing⟩
    have hnew : Task.Sound { s with group := s.group &&& ~~~bit linkId } (.cleared linkId) := hok.1
    simp only [State.step] at hs
    split at hs
    · cases hs
    · cases hs
    · cases hs
    · cases hs
      exact hcleared.update t hnew
  | test t =>
    simp only [State.step] at hs
    split at hs
    · rename_i linkId hx
      have hlink : linkId < 24 := by
        have hc := h.task t
        rw [hx] at hc
        exact hc
      cases hs
      refine h.update t ?_
      split
      · trivial
      · rename_i hup
        exact ⟨hlink, fun hup' => absurd hup' hup⟩
    · cases hs
  | waitBits t =>
    simp only [State.step] at hs
    split at hs
    · rename_i linkId hx
      have ht : Task.Sound s (.tested linkId) := hx ▸ h.task t
      cases hs
      refine h.update t ?_
      split
      · rename_i hbit
        exact fun _ => hok linkId hx hbit
      · rename_i hbit
        exact ⟨ht.1, fun hup => (ht.2 hup).resolve_left hbit⟩
    · cases hs
  | timeout t =>
    simp only [State.step] at hs
    split at hs
    · rename_i linkId hx
      cases hs
      refine h.update t fun hup => ?_
      rw [hok linkId hx] at hup
      cases hup
    · cases hs
  | setLinkState linkId =>
    cases hs
    refine ⟨fun t => (h.task t).setLinkState linkId, fun i hi => ?_⟩
    by_cases hil : i = linkId
    · subst hil
      exact hok
    · dsimp only at hi
      rw [Function.update_of_ne hil] at hi
      exact h.ringing i hi
  | txCallback linkId =>
    simp only [State.step] at hs
    split at hs
    · cases hs
    rename_i hring
    cases hs
    refine ⟨fun t => (h.task t).txCallback (h.ringing linkId hring) (hok t), fun i hi => ?_⟩
    by_cases hil : i = linkId
    · subst hil
      exact h.ringing i hring
    · dsimp only at hi
      rw [Function.update_of_ne hil] at hi
      exact h.ringing i hi

theorem Reachable.sound (h : Reachable Undisturbed up s) : Sound s := by
  induction h with
  | start => exact sound_start
  | step h hok hs ih => exact ih.step hok hs

/-- A wait that returns 0 ended before its link came up. -/
theorem Task.Sound.result (h : x.Sound s) (hr : x.result = some 0) : ¬ x.UpAtEnd := by
  cases x with
  | returned linkId uxBits up =>
    intro hup
    have hbits : uxBits = bit linkId := h hup
    simp only [Task.result] at hr
    rw [if_pos hbits] at hr
    cases hr
  | idle => cases hr
  | cleared => cases hr
  | tested => cases hr
  | blocked => cases hr
  | linkUp => cases hr

/-- In every undisturbed run, a wait that returns 0 ended before its link came up, and one that still waits for a link that
is up has its callback to come. -/
theorem wait_for_link_up_right (h : Reachable Undisturbed up s) :
    (∀ t, (s.task t).result = some 0 → ¬ (s.task t).UpAtEnd) ∧
      ∀ t linkId, s.task t = .blocked linkId → s.linkState linkId = true → s.ringing linkId ≠ 0 := by
  refine ⟨fun t => (h.sound.task t).result, fun t linkId hx hup => ?_⟩
  have ht : Task.Sound s (.blocked linkId) := hx ▸ h.sound.task t
  exact ht.2 hup

end

/-- Task 0 waits for link 0 and gets its bit, while task 1 gives up on link 1. -/
theorem wait_for_link_up_right_two : ∃ s, Reachable Undisturbed (fun _ => false) s ∧
    (s.task 0).result = some 1 ∧ (s.task 1).result = some 0 ∧
    (∀ t, (s.task t).result = some 0 → ¬ (s.task t).UpAtEnd) ∧
      ∀ t linkId, s.task t = .blocked linkId → s.linkState linkId = true → s.ringing linkId ≠ 0 := by
  have h₁ := Reachable.step .start
    (show Undisturbed (.start fun _ => false) (.call 0 0) from ⟨by decide, fun _ => nofun⟩) rfl
  have h₂ := Reachable.step h₁ (show Undisturbed _ (.test 0) from trivial) rfl
  have h₃ := Reachable.step h₂ (show Undisturbed _ (.waitBits 0) from fun i hi hbit => by cases hi; cases hbit) rfl
  have h₄ := Reachable.step h₃ (show Undisturbed _ (.call 1 1) from ⟨by decide, fun _ _ => nofun⟩) rfl
  have h₅ := Reachable.step h₄ (show Undisturbed _ (.test 1) from trivial) rfl
  have h₆ := Reachable.step h₅ (show Undisturbed _ (.waitBits 1) from fun i hi hbit => by cases hi; cases hbit) rfl
  have h₇ := Reachable.step h₆ (show Undisturbed _ (.timeout 1) from fun i hi => by cases hi; rfl) rfl
  have h₈ := Reachable.step h₇ (show Undisturbed _ (.setLinkState 0) from (by decide : (0 : UInt32) < 24)) rfl
  have h₉ := Reachable.step h₈ (show Undisturbed _ (.txCallback 0) from fun t i hi hbit => by
    match t with
    | 0 =>
      cases hi
      rfl
    | 1 => cases hi
    | t + 2 => cases hi) rfl
  exact ⟨_, h₉, rfl, rfl, wait_for_link_up_right h₉⟩

/-- A run, and its final state. -/
def State.run : State → List Move → Option State
  | s, [] => some s
  | s, mv :: mvs => (s.step mv).bind fun s => s.run mvs

theorem isRun : IsRun State.step State.run := ⟨fun _ => rfl, fun _ _ _ => rfl⟩

theorem reachable_of_run {up : UInt32 → Bool} {mvs : List Move} {s s' : State}
    (hs : Reachable (fun _ _ => True) up s) (h : s.run mvs = some s') : Reachable (fun _ _ => True) up s' :=
  isRun.keeps (fun hs hstep => hs.step trivial hstep) hs h

/-- The value of the wait for link 0 holds the bit of link 1: it returns 0 after its own `env_tx_callback`. -/
theorem wait_for_link_up_other : ∃ s, Reachable (fun _ _ => True) (fun _ => false) s ∧
    (s.task 0).result = some 0 ∧ (s.task 0).UpAtEnd := by
  have hrun : ∃ s, (State.start fun _ => false).run [.call 0 0, .test 0, .waitBits 0, .setLinkState 1, .txCallback 1,
      .setLinkState 0, .txCallback 0] = some s ∧ (s.task 0).result = some 0 ∧ (s.task 0).UpAtEnd :=
    ⟨_, rfl, rfl, rfl⟩
  obtain ⟨s, hs, hzero, hup⟩ := hrun
  exact ⟨s, reachable_of_run .start hs, hzero, hup⟩

end EventGroup

end RpmsgLite
