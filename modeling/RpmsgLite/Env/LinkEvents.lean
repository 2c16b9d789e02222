/-
Waiting for the link in the Zephyr and ThreadX environments. All instances share one group of events, in which
`env_tx_callback` sets the bit of a link id; nothing clears it until the environment starts anew. A wait
that returns 1 has seen the link of its own instance come up, as long as no instance is made on a link id whose
bit is still set.
-/
import RpmsgLite.Lib.EventBits
import RpmsgLite.Link.Ops
import RpmsgLite.Lib.Runs

namespace RpmsgLite

namespace LinkEvents

open EventBits

/-! ## The environment -/

inductive Rtos
  | zephyr
  | threadx

/-- A live instance; `notified` is set when `rpmsg_lite_tx_callback` sets `link_state`. -/
structure Inst where
  ptr : Nat
  role : Role
  linkId : UInt32
  linkState : Bool
  notified : Bool
deriving DecidableEq

/-- A task in `env_wait_for_link_up` that has read `link_state` as 0. -/
structure Wait where
  ptr : Nat
  linkId : UInt32
deriving DecidableEq

/-- `none` is a group of events that does not exist. -/
structure State where
  envInitCounter : Nat
  events : Option UInt32
  insts : List Inst
  waits : List Wait
deriving DecidableEq

/-- Static storage before the first call. -/
def State.reset : Rtos → State
  | .zephyr => ⟨0, some 0, [], []⟩
  | .threadx => ⟨0, none, [], []⟩

/-- What happens inside an init call. -/
structure Answers where
  /-- `tx_semaphore_create` -/
  semaphore : Bool
  platformInit : Bool
  /-- the allocations after `env_init` -/
  rest : Bool

/-- `env_init`, and whether it returned 0. -/
def envInit (os : Rtos) (a : Answers) (s : State) : State × Bool :=
  let s := { s with envInitCounter := s.envInitCounter + 1 }
  if s.envInitCounter = 1 then
    match os with
    | .zephyr => ({ s with events := some 0 }, a.platformInit)
    | .threadx => if a.semaphore then ({ s with events := some 0 }, a.platformInit) else (s, false)
  else (s, true)

/-- `env_deinit`; `none` is its failed assertion. -/
def envDeinit (os : Rtos) (s : State) : Option State :=
  if s.envInitCounter = 0 then none
  else
    let s := { s with envInitCounter := s.envInitCounter - 1 }
    if s.envInitCounter = 0 then
      match os with
      | .zephyr => some s
      | .threadx => some { s with events := none }
    else some s

/-- `env_tx_callback` -/
def envTxCallback (linkId : UInt32) (s : State) : State := { s with events := s.events.map (· ||| bit linkId) }

/-- `rpmsg_lite_tx_callback` on the instance. -/
def Inst.txCallback (x : Inst) : Inst := { x with linkState := true, notified := true }

inductive Move
  | init (role : Role) (ptr : Nat) (linkId : UInt32) (a : Answers)
  | deinit (ptr : Nat)
  | txCallback (ptr : Nat)
  /-- `rpmsg_lite_wait_for_link_up` reads `link_state` -/
  | wait (ptr : Nat)
  /-- the event of a waiting task is there -/
  | wake (i : Nat)
  | timeout (i : Nat)

/-- The instance and the value that a call of `rpmsg_lite_wait_for_link_up` returns. -/
abbrev Returned := Option (Nat × Bool)

/-- `none` is a step that cannot be taken: the memory of a new instance is new, live instances have different link
ids, and an instance is not deleted while a task waits for its link. -/
def State.step (os : Rtos) (highest : UInt32) (s : State) : Move → Option (State × Returned)
  | .init role ptr linkId a =>
    if linkId > highest then some (s, none)
    else if s.insts.any fun x => decide (x.ptr = ptr ∨ x.linkId = linkId) then none
    else
      match envInit os a s with
      | (s, false) => some (s, none)
      | (s, true) =>
        if a.rest then
          some ({ s with insts := ⟨ptr, role, linkId, decide (role = .master), false⟩ :: s.insts }, none)
        else some (s, none)
  | .deinit ptr =>
    if s.waits.any (fun w => decide (w.ptr = ptr)) || !s.insts.any (fun x => decide (x.ptr = ptr)) then none
    else (envDeinit os { s with insts := s.insts.filter fun x => decide (x.ptr ≠ ptr) }).map fun s => (s, none)
  | .txCallback ptr =>
    (s.insts.find? fun x => x.ptr = ptr).map fun x =>
      (envTxCallback x.linkId { s with insts := s.insts.map fun y => if y.ptr = ptr then y.txCallback else y }, none)
  | .wait ptr =>
    (s.insts.find? fun x => x.ptr = ptr).map fun x =>
      if x.linkState then (s, some (ptr, true)) else ({ s with waits := ⟨ptr, x.linkId⟩ :: s.waits }, none)
  | .wake i =>
    match s.waits[i]?, s.events with
    | some w, some e => if Has e w.linkId then some ({ s with waits := s.waits.eraseIdx i }, some (w.ptr, true)) else none
    | _, _ => none
  | .timeout i =>
    match s.waits[i]? with
    | some w => some ({ s with waits := s.waits.eraseIdx i }, some (w.ptr, false))
    | none => none

/-- The states of all runs whose steps all satisfy `ok`. -/
inductive Reachable (os : Rtos) (highest : UInt32) (ok : State → Move → Prop) : State → Prop
  | start : Reachable os highest ok (.reset os)
  | step {s s' : State} {mv : Move} {r : Returned} (h : Reachable os highest ok s) (hok : ok s mv)
    (hs : s.step os highest mv = some (s', r)) : Reachable os highest ok s'

/-! ## Stale events -/

/-- The link of the instance has come up: `rpmsg_lite_tx_callback` has set `link_state` since the instance was made, or
the instance is a master, which sets it itself. -/
def Inst.Up (x : Inst) : Prop := x.notified = true ∨ x.role = .master

/-- A new instance has a bit of its own, which for a remote one is not set yet. -/
def Fresh (s : State) : Move → Prop
  | .init role _ linkId _ =>
    linkId < 32 ∧ (role = .remote → s.envInitCounter ≠ 0 → ∀ e, s.events = some e → ¬ Has e linkId)
  | _ => True

/-- Every event and every `link_state` is the instance's own. -/
structure Own (s : State) : Prop where
  linkState : ∀ x ∈ s.insts, x.linkState = true → x.Up
  event : ∀ x ∈ s.insts, ∀ e, s.events = some e → Has e x.linkId → x.Up
  bound : ∀ x ∈ s.insts, x.linkId < 32
  ptrs : (s.insts.map Inst.ptr).Nodup
  linkIds : (s.insts.map Inst.linkId).Nodup
  waits : ∀ w ∈ s.waits, ∃ x ∈ s.insts, x.ptr = w.ptr ∧ x.linkId = w.linkId

section

variable {os : Rtos} {highest : UInt32} {s s' : State} {a : Answers} {b : Bool} {r : Returned} {mv : Move}

theorem own_reset : Own (.reset os) := by
  have hinsts : (State.reset os).insts = [] := by
    cases os with
    | zephyr => rfl
    | threadx => rfl
  have hwaits : (State.reset os).waits = [] := by
    cases os with
    | zephyr => rfl
    | threadx => rfl
  constructor
  · simp [hinsts]
  · simp [hinsts]
  · simp [hinsts]
  · simp [hinsts]
  · simp [hinsts]
  · simp [hwaits]

/-- `env_init` touches the events only to make the group anew. -/
theorem envInit_spec (h : envInit os a s = (s', b)) : s'.insts = s.insts ∧ s'.waits = s.waits ∧
    (s'.events = s.events ∧ (s.envInitCounter = 0 → b = false) ∨ s'.events = some 0 ∧ s.envInitCounter = 0) := by
  unfold envInit at h
  dsimp only at h
  split at h
  · rename_i hcount
    have hzero : s.envInitCounter = 0 := by omega
    cases os with
    | zephyr =>
      obtain ⟨rfl, rfl⟩ := Prod.mk.inj h
      exact ⟨rfl, rfl, Or.inr ⟨rfl, hzero⟩⟩
    | threadx =>
      dsimp only at h
      split at h
      · obtain ⟨rfl, rfl⟩ := Prod.mk.inj h
        exact ⟨rfl, rfl, Or.inr ⟨rfl, hzero⟩⟩
      · obtain ⟨rfl, rfl⟩ := Prod.mk.inj h
        exact ⟨rfl, rfl, Or.inl ⟨rfl, fun _ => rfl⟩⟩
  · rename_i hcount
    obtain ⟨rfl, rfl⟩ := Prod.mk.inj h
    exact ⟨rfl, rfl, Or.inl ⟨rfl, fun hzero => absurd (by omega) hcount⟩⟩

theorem envDeinit_spec (h : envDeinit os s = some s') : s'.insts = s.insts ∧ s'.waits = s.waits ∧
    (s'.events = s.events ∨ s'.events = none) := by
  unfold envDeinit at h
  split at h
  · cases h
  · dsimp only at h
    split at h
    · cases os with
      | zephyr =>
        cases h
        exact ⟨rfl, rfl, Or.inl rfl⟩
      | threadx =>
        cases h
        exact ⟨rfl, rfl, Or.inr rfl⟩
    · cases h
      exact ⟨rfl, rfl, Or.inl rfl⟩

/-- Fewer events keep them the instances' own. -/
theorem Own.events_le (h : Own s) (hinsts : s'.insts = s.insts) (hwaits : s'.waits = s.waits)
    (hev : s'.events = s.events ∨ s'.events = some 0 ∨ s'.events = none) : Own s' := by
  constructor
  · rw [hinsts]
    exact h.linkState
  · rw [hinsts]
    rintro x hx e he hbit
    rcases hev with hev | hev | hev
    · exact h.event x hx e (hev ▸ he) hbit
    · rw [hev] at he
      cases he
      exact absurd hbit (not_has_zero (h.bound x hx))
    · rw [hev] at he
      cases he
  · rw [hinsts]
    exact h.bound
  · rw [hinsts]
    exact h.ptrs
  · rw [hinsts]
    exact h.linkIds
  · rw [hinsts, hwaits]
    exact h.waits

/-- A new instance on a link id whose event is not there. -/
theorem Own.cons (h : Own s) {x : Inst} (hlink : x.linkId < 32) (hptr : x.ptr ∉ s.insts.map Inst.ptr)
    (hnew : x.linkId ∉ s.insts.map Inst.linkId) (hup : x.linkState = true → x.Up)
    (hev : ∀ e, s.events = some e → Has e x.linkId → x.Up) :
    Own { s with insts := x :: s.insts } := by
  constructor
  · rintro y hy
    rcases List.mem_cons.1 hy with rfl | hy
    · exact hup
    · exact h.linkState y hy
  · rintro y hy
    rcases List.mem_cons.1 hy with rfl | hy
    · exact hev
    · exact h.event y hy
  · rintro y hy
    rcases List.mem_cons.1 hy with rfl | hy
    · exact hlink
    · exact h.bound y hy
  · exact List.nodup_cons.2 ⟨hptr, h.ptrs⟩
  · exact List.nodup_cons.2 ⟨hnew, h.linkIds⟩
  · rintro w hw
    obtain ⟨y, hy, hyw⟩ := h.waits w hw
    exact ⟨y, List.mem_cons_of_mem x hy, hyw⟩

/-- Deleting an instance for which no task waits. -/
theorem Own.filter (h : Own s) {ptr : Nat} (hw : ∀ w ∈ s.waits, w.ptr ≠ ptr) :
    Own { s with insts := s.insts.filter fun x => decide (x.ptr ≠ ptr) } := by
  have hmem : ∀ x ∈ s.insts.filter (fun x => decide (x.ptr ≠ ptr)), x ∈ s.insts := fun x hx => (List.mem_filter.1 hx).1
  constructor
  · exact fun x hx => h.linkState x (hmem x hx)
  · exact fun x hx => h.event x (hmem x hx)
  · exact fun x hx => h.bound x (hmem x hx)
  · exact h.ptrs.sublist (List.filter_sublist.map _)
  · exact h.linkIds.sublist (List.filter_sublist.map _)
  · rintro w hmw
    obtain ⟨x, hx, hp, hl⟩ := h.waits w hmw
    refine ⟨x, List.mem_filter.2 ⟨hx, ?_⟩, hp, hl⟩
    rw [hp]
    exact decide_eq_true (hw w hmw)

/-- `rpmsg_lite_tx_callback` sets the event of one live link, and its own instance is notified. -/
theorem Own.txCallback (h : Own s) {x : Inst} (hx : x ∈ s.insts) :
    Own (envTxCallback x.linkId
      { s with insts := s.insts.map fun y => if y.ptr = x.ptr then y.txCallback else y }) := by
  -- an instance after the step is one before it, notified or unchanged
  have hcases : ∀ y ∈ s.insts.map (fun y => if y.ptr = x.ptr then y.txCallback else y),
      ∃ z ∈ s.insts, (z.ptr = x.ptr ∧ y = z.txCallback) ∨ z.ptr ≠ x.ptr ∧ y = z := by
    intro y hy
    obtain ⟨z, hz, rfl⟩ := List.mem_map.1 hy
    refine ⟨z, hz, ?_⟩
    by_cases hp : z.ptr = x.ptr
    · exact Or.inl ⟨hp, if_pos hp⟩
    · exact Or.inr ⟨hp, if_neg hp⟩
  have hptr : ∀ y : Inst, (if y.ptr = x.ptr then y.txCallback else y).ptr = y.ptr := by
    intro y
    split
    · rfl
    · rfl
  have hlinkId : ∀ y : Inst, (if y.ptr = x.ptr then y.txCallback else y).linkId = y.linkId := by
    intro y
    split
    · rfl
    · rfl
  constructor
  · intro y hy
    obtain ⟨z, hz, ⟨-, rfl⟩ | ⟨-, rfl⟩⟩ := hcases y hy
    · exact fun _ => Or.inl rfl
    · exact h.linkState y hz
  · intro y hy e he hbit
    obtain ⟨z, hz, ⟨-, rfl⟩ | ⟨hne, rfl⟩⟩ := hcases y hy
    · exact Or.inl rfl
    · obtain ⟨e₀, he₀, rfl⟩ := Option.map_eq_some_iff.1 he
      rcases (has_or (h.bound y hz) (h.bound x hx)).1 hbit with hbit | hlink
      · exact h.event y hz e₀ he₀ hbit
      · have hyx : x = y := List.inj_on_of_nodup_map h.linkIds hx hz hlink
        exact absurd (congrArg Inst.ptr hyx).symm hne
  · intro y hy
    obtain ⟨z, hz, ⟨-, rfl⟩ | ⟨-, rfl⟩⟩ := hcases y hy
    · exact h.bound z hz
    · exact h.bound y hz
  · have hmap : (s.insts.map fun y => if y.ptr = x.ptr then y.txCallback else y).map Inst.ptr = s.insts.map Inst.ptr := by
      rw [List.map_map]
      exact List.map_congr_left fun y _ => hptr y
    exact hmap ▸ h.ptrs
  · have hmap : (s.insts.map fun y => if y.ptr = x.ptr then y.txCallback else y).map Inst.linkId =
        s.insts.map Inst.linkId := by
      rw [List.map_map]
      exact List.map_congr_left fun y _ => hlinkId y
    exact hmap ▸ h.linkIds
  · intro w hw
    obtain ⟨z, hz, hp, hl⟩ := h.waits w hw
    exact ⟨_, List.mem_map_of_mem hz, (hptr z).trans hp, (hlinkId z).trans hl⟩

/-- A wait that ends. -/
theorem Own.eraseWait (h : Own s) (i : Nat) : Own { s with waits := s.waits.eraseIdx i } :=
  ⟨h.linkState, h.event, h.bound, h.ptrs, h.linkIds, fun w hw => h.waits w (List.mem_of_mem_eraseIdx hw)⟩

/-- One step: the events stay the instances' own, and a wait that returns 1 is for an instance whose link is up. -/
theorem Own.step (h : Own s) (hok : Fresh s mv) (hs : s.step os highest mv = some (s', r)) :
    Own s' ∧ ∀ ptr, r = some (ptr, true) → ∃ x ∈ s.insts, x.ptr = ptr ∧ x.Up := by
  cases mv with
  | init role ptr linkId a =>
    simp only [State.step] at hs
    split at hs
    · cases hs
      exact ⟨h, nofun⟩
    split at hs
    · cases hs
    rename_i hnew
    have hptr : ptr ∉ s.insts.map Inst.ptr := by
      intro hm
      obtain ⟨x, hx, hxp⟩ := List.mem_map.1 hm
      exact hnew (List.any_eq_true.2 ⟨x, hx, decide_eq_true (Or.inl hxp)⟩)
    have hlinkId : linkId ∉ s.insts.map Inst.linkId := by
      intro hm
      obtain ⟨x, hx, hxl⟩ := List.mem_map.1 hm
      exact hnew (List.any_eq_true.2 ⟨x, hx, decide_eq_true (Or.inr hxl)⟩)
    split at hs
    · rename_i s₁ henv
      cases hs
      obtain ⟨hinsts, hwaits, hev⟩ := envInit_spec henv
      exact ⟨h.events_le hinsts hwaits (hev.elim (fun hev => Or.inl hev.1) fun hev => Or.inr (Or.inl hev.1)), nofun⟩
    · rename_i s₁ henv
      obtain ⟨hinsts, hwaits, hev⟩ := envInit_spec henv
      have h₁ : Own s₁ := h.events_le hinsts hwaits (hev.elim (fun hev => Or.inl hev.1) fun hev => Or.inr (Or.inl hev.1))
      split at hs
      · cases hs
        refine ⟨h₁.cons hok.1 (hinsts ▸ hptr) (hinsts ▸ hlinkId) (fun hstate => ?_) fun e he hbit => ?_, nofun⟩
        · exact Or.inr (of_decide_eq_true hstate)
        · cases role with
          | master => exact Or.inr rfl
          | remote =>
            -- the group is new, or it is the one of which the step says that the bit is not set
            rcases hev with ⟨hev, hzero⟩ | ⟨hev, -⟩
            · exact absurd hbit (hok.2 rfl (fun hcount => nomatch hzero hcount) e (hev ▸ he))
            · rw [hev] at he
              cases he
              exact absurd hbit (not_has_zero hok.1)
      · cases hs
        exact ⟨h₁, nofun⟩
  | deinit ptr =>
    simp only [State.step] at hs
    split at hs
    · cases hs
    rename_i hwait
    obtain ⟨s₁, hde, hs₁⟩ := Option.map_eq_some_iff.1 hs
    cases hs₁
    obtain ⟨hinsts, hwaits, hev⟩ := envDeinit_spec hde
    have hnone : ∀ w ∈ s.waits, w.ptr ≠ ptr := by
      intro w hw hp
      exact hwait (Bool.or_eq_true_iff.2 (Or.inl (List.any_eq_true.2 ⟨w, hw, decide_eq_true hp⟩)))
    exact ⟨(h.filter hnone).events_le hinsts hwaits (hev.imp_right Or.inr), nofun⟩
  | txCallback ptr =>
    simp only [State.step] at hs
    obtain ⟨x, hfind, hs₁⟩ := Option.map_eq_some_iff.1 hs
    cases hs₁
    have hptr : x.ptr = ptr := by simpa using List.find?_some hfind
    subst hptr
    exact ⟨h.txCallback (List.mem_of_find?_eq_some hfind), nofun⟩
  | wait ptr =>
    simp only [State.step] at hs
    obtain ⟨x, hfind, hs₁⟩ := Option.map_eq_some_iff.1 hs
    have hx : x ∈ s.insts := List.mem_of_find?_eq_some hfind
    have hptr : x.ptr = ptr := by simpa using List.find?_some hfind
    split at hs₁
    · rename_i hstate
      cases hs₁
      refine ⟨h, fun p hp => ⟨x, hx, ?_, h.linkState x hx hstate⟩⟩
      cases hp
      exact hptr
    · cases hs₁
      refine ⟨⟨h.linkState, h.event, h.bound, h.ptrs, h.linkIds, fun w hw => ?_⟩, nofun⟩
      rcases List.mem_cons.1 hw with rfl | hw
      · exact ⟨x, hx, hptr, rfl⟩
      · exact h.waits w hw
  | wake i =>
    simp only [State.step] at hs
    split at hs
    · rename_i w e hw he
      split at hs
      · rename_i hbit
        cases hs
        obtain ⟨x, hx, hp, hl⟩ := h.waits w (List.mem_of_getElem? hw)
        refine ⟨h.eraseWait i, fun p hret => ⟨x, hx, ?_, h.event x hx e he (hl ▸ hbit)⟩⟩
        cases hret
        exact hp
      · cases hs
    · cases hs
  | timeout i =>
    simp only [State.step] at hs
    split at hs
    · cases hs
      exact ⟨h.eraseWait i, nofun⟩
    · cases hs

theorem Reachable.own (h : Reachable os highest Fresh s) : Own s := by
  induction h with
  | start => exact own_reset
  | step h hok hs ih => exact (ih.step hok hs).1

/-- In every run in which no remote instance is made on a link id whose bit is still set, a wait that returns 1 is for
an instance whose link is up. -/
theorem wait_never_stale {ptr : Nat} (h : Reachable os highest Fresh s) (hok : Fresh s mv)
    (hs : s.step os highest mv = some (s', some (ptr, true))) :
    (∃ x ∈ s.insts, x.ptr = ptr) ∧ ∀ x ∈ s.insts, x.ptr = ptr → x.Up := by
  obtain ⟨x, hx, hp, hup⟩ := (h.own.step hok hs).2 ptr rfl
  refine ⟨⟨x, hx, hp⟩, fun y hy hyp => ?_⟩
  have hyx : y = x := List.inj_on_of_nodup_map h.own.ptrs hy hx (hyp.trans hp.symm)
  exact hyx ▸ hup

/-- A run whose steps all pass a check, and its final state. -/
def State.runIf (os : Rtos) (highest : UInt32) (p : State → Move → Bool) : State → List Move → Option State
  | s, [] => some s
  | s, mv :: mvs => if p s mv then (s.step os highest mv).bind fun t => t.1.runIf os highest p mvs else none

theorem isRun (os : Rtos) (highest : UInt32) (p : State → Move → Bool) :
    IsRun (IsRun.guarded p fun s mv => (s.step os highest mv).map Prod.fst) (State.runIf os highest p) := by
  refine .of_guarded (fun _ => rfl) fun s mv mvs => ?_
  show (if p s mv then _ else _) = _
  rw [Option.bind_map]
  rfl

theorem reachable_of_runIf {ok : State → Move → Prop} {p : State → Move → Bool} {mvs : List Move}
    (hp : ∀ s mv, p s mv = true → ok s mv) (hs : Reachable os highest ok s) (h : s.runIf os highest p mvs = some s') :
    Reachable os highest ok s' := by
  apply (isRun os highest p).keeps_of_check _ hs h
  intro s s' mv hmv hs hmap
  obtain ⟨⟨s₁, r⟩, hstep, rfl⟩ := Option.map_eq_some_iff.1 hmap
  exact hs.step (hp s mv hmv) hstep

end

/-- The check of `Fresh`. -/
def isFresh (s : State) : Move → Bool
  | .init role _ linkId _ =>
    decide (linkId < 32) && (decide (role = .master) || s.events.all fun e => decide (¬ Has e linkId))
  | _ => true

theorem fresh_of_isFresh {s : State} {mv : Move} (h : isFresh s mv = true) : Fresh s mv := by
  cases mv with
  | init role ptr linkId a =>
    obtain ⟨hlink, hev⟩ := Bool.and_eq_true_iff.1 h
    refine ⟨of_decide_eq_true hlink, ?_⟩
    rintro rfl - e he
    rcases Bool.or_eq_true_iff.1 hev with hrole | hev
    · cases of_decide_eq_true hrole
    · rw [he] at hev
      exact of_decide_eq_true hev
  | deinit => trivial
  | txCallback => trivial
  | wait => trivial
  | wake => trivial
  | timeout => trivial

/-- Everything an init call asks for succeeds. -/
def Answers.ok : Answers := ⟨true, true, true⟩

/-- Two remote instances, of which the first is waited for. -/
def firstWaits : List Move := [.init .remote 1 0 .ok, .init .remote 2 1 .ok, .wait 1]

/-- The wait for the first of two remote instances ends with its own callback. -/
theorem wait_never_stale_first : ∃ s s', Reachable .zephyr 15 Fresh s ∧
    s.step .zephyr 15 (.wake 0) = some (s', some (1, true)) ∧ s.insts.map Inst.ptr = [2, 1] ∧
    (∃ x ∈ s.insts, x.ptr = 1) ∧ ∀ x ∈ s.insts, x.ptr = 1 → x.Up := by
  have hrun : (State.reset .zephyr).runIf .zephyr 15 isFresh (firstWaits ++ [.txCallback 1]) =
      some ⟨2, some 1, [⟨2, .remote, 1, false, false⟩, ⟨1, .remote, 0, true, true⟩], [⟨1, 0⟩]⟩ := by decide
  have hreach := reachable_of_runIf (fun _ _ => fresh_of_isFresh) .start hrun
  exact ⟨_, _, hreach, rfl, rfl, wait_never_stale hreach (show Fresh _ (.wake 0) from trivial) rfl⟩

/-- A wait returns 1 for an instance of the role that `rpmsg_lite_tx_callback` has not notified. -/
def StaleWait (os : Rtos) (role : Role) : Prop := ∃ s s' mv ptr x,
  Reachable os 15 (fun _ _ => True) s ∧ s.step os 15 mv = some (s', some (ptr, true)) ∧
  (s.insts.find? fun y => y.ptr = ptr) = some x ∧ x.role = role ∧ x.notified = false

/-- A remote instance is notified and deleted while another one keeps the environment: the next instance on its link id finds
its bit. -/
def bitStays : List Move :=
  [.init .remote 1 0 .ok, .init .remote 2 1 .ok, .txCallback 2, .deinit 2, .init .remote 3 1 .ok, .wait 3]

/-- A bit that stays behind ends the wait of the next instance, and a master's wait does not wait for a callback. -/
theorem wait_stale : StaleWait .zephyr .remote ∧ StaleWait .threadx .remote ∧ StaleWait .zephyr .master ∧
    StaleWait .threadx .master := by
  have hall : ∀ (s : State) (mv : Move), true = true → True := fun _ _ _ => trivial
  refine ⟨?_, ?_, ?_, ?_⟩
  · have hrun : (State.reset .zephyr).runIf .zephyr 15 (fun _ _ => true) bitStays =
        some ⟨2, some 2, [⟨3, .remote, 1, false, false⟩, ⟨1, .remote, 0, false, false⟩], [⟨3, 1⟩]⟩ := by decide
    exact ⟨_, _, .wake 0, 3, _, reachable_of_runIf hall .start hrun, rfl, rfl, rfl, rfl⟩
  · have hrun : (State.reset .threadx).runIf .threadx 15 (fun _ _ => true) bitStays =
        some ⟨2, some 2, [⟨3, .remote, 1, false, false⟩, ⟨1, .remote, 0, false, false⟩], [⟨3, 1⟩]⟩ := by decide
    exact ⟨_, _, .wake 0, 3, _, reachable_of_runIf hall .start hrun, rfl, rfl, rfl, rfl⟩
  · have hrun : (State.reset .zephyr).runIf .zephyr 15 (fun _ _ => true) [.init .master 1 0 .ok] =
        some ⟨1, some 0, [⟨1, .master, 0, true, false⟩], []⟩ := by decide
    exact ⟨_, _, .wait 1, 1, _, reachable_of_runIf hall .start hrun, rfl, rfl, rfl, rfl⟩
  · have hrun : (State.reset .threadx).runIf .threadx 15 (fun _ _ => true) [.init .master 1 0 .ok] =
        some ⟨1, some 0, [⟨1, .master, 0, true, false⟩], []⟩ := by decide
    exact ⟨_, _, .wait 1, 1, _, reachable_of_runIf hall .start hrun, rfl, rfl, rfl, rfl⟩

end LinkEvents

end RpmsgLite
