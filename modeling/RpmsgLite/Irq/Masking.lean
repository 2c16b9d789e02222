/-
The disable counters of three ports. Each com id has a counter, and `platform_interrupt_disable` and
`platform_interrupt_enable` are to mask its interrupt line while the counter is positive. On i.MX943 the
counter is tested after it was incremented, so a line is never masked; on i.MX8QM two counters share a line.
-/
import Mathlib.Data.List.Infix
import Mathlib.Logic.Function.Basic
import Mathlib.Tactic
import RpmsgLite.Virtio.Virtqueue

namespace RpmsgLite.Masking

/-- `RL_GET_COM_ID` -/
def rlGetComId (vectorId : UInt32) : UInt32 := vectorId >>> 3

/-! ## Counters and lines -/

/-- The `disable_counter` variables and the NVIC lines that are enabled. -/
structure Masks (ι : Type) where
  counter : Fin 3 → Int
  nvic : ι → Bool

inductive Call
  | disable (vectorId : UInt32)
  | enable (vectorId : UInt32)
deriving DecidableEq

section

variable {ι : Type} [DecidableEq ι] (port : UInt32 → Option (Fin 3 × ι)) (s : Masks ι)

/-- After `platform_init`: all counters are 0, all lines enabled. -/
def Masks.init : Masks ι := ⟨fun _ => 0, fun _ => true⟩

/-- `platform_interrupt_enable`, where `port` is the `switch` over the com id; `none` is a failed assertion. -/
def Masks.interruptEnable (vectorId : UInt32) : Option (Masks ι) :=
  match port (rlGetComId vectorId) with
  | none => some s
  | some (i, irq) =>
    if 0 < s.counter i then
      let s := { s with counter := Function.update s.counter i (s.counter i - 1) }
      some (if s.counter i = 0 then { s with nvic := Function.update s.nvic irq true } else s)
    else none

/-- `platform_interrupt_disable` of i.MX943: the counter is incremented and then tested. `none` is a failed assertion
or an increment past `INT32_MAX`. -/
def Masks.disableAfter (vectorId : UInt32) : Option (Masks ι) :=
  match port (rlGetComId vectorId) with
  | none => some s
  | some (i, irq) =>
    if 0 ≤ s.counter i ∧ s.counter i < INT32_MAX then
      let s := { s with counter := Function.update s.counter i (s.counter i + 1) }
      some (if s.counter i = 0 then { s with nvic := Function.update s.nvic irq false } else s)
    else none

/-- `platform_interrupt_disable` of i.MX8QM: the counter is tested and then incremented. -/
def Masks.disableBefore (vectorId : UInt32) : Option (Masks ι) :=
  match port (rlGetComId vectorId) with
  | none => some s
  | some (i, irq) =>
    if 0 ≤ s.counter i ∧ s.counter i < INT32_MAX then
      let s := if s.counter i = 0 then { s with nvic := Function.update s.nvic irq false } else s
      some { s with counter := Function.update s.counter i (s.counter i + 1) }
    else none

end

/-! ## Sequences of calls -/

/-- The disables of a com id that its enables have not yet undone. -/
def Call.delta (com : UInt32) : Call → Int
  | .disable v => if rlGetComId v = com then 1 else 0
  | .enable v => if rlGetComId v = com then -1 else 0

def outstanding (calls : List Call) (com : UInt32) : Int := (calls.map (Call.delta com)).sum

/-- No enable exceeds the preceding disables of its com id. -/
def Balanced (calls : List Call) : Prop := ∀ pre, pre <+: calls → ∀ com, 0 ≤ outstanding pre com

@[simp] theorem outstanding_concat (calls : List Call) (c : Call) (com : UInt32) :
    outstanding (calls ++ [c]) com = outstanding calls com + c.delta com := by
  simp [outstanding]

/-- A platform: its two functions. -/
structure Platform (ι : Type) where
  disable : Masks ι → UInt32 → Option (Masks ι)
  enable : Masks ι → UInt32 → Option (Masks ι)

def Platform.step {ι : Type} (P : Platform ι) (s : Masks ι) : Call → Option (Masks ι)
  | .disable v => P.disable s v
  | .enable v => P.enable s v

/-- The state after the calls, when they all return. -/
def Platform.run {ι : Type} (P : Platform ι) (s : Masks ι) (calls : List Call) : Option (Masks ι) :=
  calls.foldlM P.step s

theorem Platform.run_concat {ι : Type} (P : Platform ι) (s : Masks ι) (calls : List Call) (c : Call) :
    P.run s (calls ++ [c]) = (P.run s calls).bind fun s => P.step s c := by
  unfold run
  rw [List.foldlM_append]
  simp only [List.foldlM_cons, List.foldlM_nil, bind_pure]
  rfl

theorem Platform.run_prefix {ι : Type} {P : Platform ι} {s s' : Masks ι} {pre calls : List Call}
    (h : P.run s calls = some s') (hpre : pre <+: calls) : ∃ t, P.run s pre = some t := by
  obtain ⟨post, rfl⟩ := hpre
  unfold run at h
  rw [List.foldlM_append] at h
  obtain ⟨t, ht, -⟩ := Option.bind_eq_some_iff.1 h
  exact ⟨t, ht⟩

theorem Balanced.initial {pre calls : List Call} (h : Balanced calls) (hpre : pre <+: calls) : Balanced pre :=
  fun p hp => h p (hp.trans hpre)

theorem Balanced.nil : Balanced [] := by
  intro pre hpre com
  rw [List.prefix_nil.1 hpre]
  exact le_refl _

theorem Balanced.concat {calls : List Call} {c : Call} (h : Balanced calls) (hc : ∀ com, 0 ≤ outstanding (calls ++ [c]) com) :
    Balanced (calls ++ [c]) := by
  intro pre hpre com
  rcases List.prefix_concat_iff.1 hpre with rfl | hpre
  · exact hc com
  · exact h pre hpre com

theorem Balanced.disable {calls : List Call} (h : Balanced calls) (v : UInt32) : Balanced (calls ++ [.disable v]) := by
  refine h.concat fun com => ?_
  rw [outstanding_concat]
  have hnonneg := h calls (List.prefix_refl _) com
  have hdelta : 0 ≤ (Call.disable v).delta com := by
    show 0 ≤ (if rlGetComId v = com then (1 : Int) else 0)
    split
    · decide
    · decide
  omega

theorem Balanced.enable {calls : List Call} (h : Balanced calls) {v : UInt32} (hv : 0 < outstanding calls (rlGetComId v)) :
    Balanced (calls ++ [.enable v]) := by
  refine h.concat fun com => ?_
  rw [outstanding_concat]
  have hnonneg := h calls (List.prefix_refl _) com
  show 0 ≤ _ + (if rlGetComId v = com then (-1 : Int) else 0)
  split
  · rename_i heq
    rw [heq] at hv
    omega
  · omega

/-- A call counts for its own com id only. -/
theorem Call.delta_of_ne {c : Call} {v com : UInt32} (hc : c = .disable v ∨ c = .enable v) (h : rlGetComId v ≠ com) :
    c.delta com = 0 := by
  rcases hc with rfl | rfl
  · exact if_neg h
  · exact if_neg h

/-- Without disables nothing is outstanding. -/
theorem outstanding_nonpos {calls : List Call} {com : UInt32} (h : ∀ v, .disable v ∈ calls → rlGetComId v ≠ com) :
    outstanding calls com ≤ 0 := by
  induction calls with
  | nil => exact le_refl _
  | cons c calls ih =>
    have hrest := ih fun v hv => h v (List.mem_cons_of_mem _ hv)
    have hdelta : c.delta com ≤ 0 := by
      cases c with
      | disable v =>
        show (if rlGetComId v = com then (1 : Int) else 0) ≤ 0
        rw [if_neg (h v List.mem_cons_self)]
      | enable v =>
        show (if rlGetComId v = com then (-1 : Int) else 0) ≤ 0
        split
        · decide
        · decide
    show (c.delta com) + outstanding calls com ≤ 0
    omega

/-! ## i.MX943 -/

/-- The two functions of i.MX943 over the com ids of a core. -/
def imx943 {ι : Type} [DecidableEq ι] (port : UInt32 → Option (Fin 3 × ι)) : Platform ι :=
  ⟨Masks.disableAfter port, Masks.interruptEnable port⟩

/-- After every call, a line is masked exactly while its com id has an outstanding disable. -/
def Platform.KeepsMasked {ι : Type} (P : Platform ι) (port : UInt32 → Option (Fin 3 × ι)) (calls : List Call) : Prop :=
  ∀ pre, pre <+: calls → ∀ s, P.run .init pre = some s → ∀ com i irq, port com = some (i, irq) →
    (s.nvic irq = false ↔ 0 < outstanding pre com)

section

variable {ι : Type} {port : UInt32 → Option (Fin 3 × ι)} {calls : List Call}

/-- Balanced calls without disables of the core's com ids have no enables of them either. -/
theorem Balanced.no_enable (hb : Balanced calls) (h : ∀ v, .disable v ∈ calls → port (rlGetComId v) = none) {v : UInt32}
    (hv : .enable v ∈ calls) : port (rlGetComId v) = none := by
  by_contra hport
  obtain ⟨pre, post, rfl⟩ := List.append_of_mem hv
  have hpre : pre ++ [.enable v] <+: pre ++ .enable v :: post := ⟨post, by rw [List.append_assoc]; rfl⟩
  have hnonneg := hb _ hpre (rlGetComId v)
  have hnone : outstanding pre (rlGetComId v) ≤ 0 := by
    refine outstanding_nonpos fun v' hv' heq => hport ?_
    rw [← heq]
    exact h v' (List.mem_append_left _ hv')
  have hdelta : (Call.enable v).delta (rlGetComId v) = -1 := if_pos rfl
  rw [outstanding_concat, hdelta] at hnonneg
  omega

variable [DecidableEq ι]

/-- A call for another com id does nothing. -/
theorem imx943_step_other {s : Masks ι} {c : Call}
    (h : match c with | .disable v | .enable v => port (rlGetComId v) = none) : (imx943 port).step s c = some s := by
  cases c with
  | disable v =>
    show Masks.disableAfter port s v = some s
    unfold Masks.disableAfter
    rw [h]
  | enable v =>
    show Masks.interruptEnable port s v = some s
    unfold Masks.interruptEnable
    rw [h]

/-- Such calls change nothing. -/
theorem imx943_run_other (hb : Balanced calls) (h : ∀ v, .disable v ∈ calls → port (rlGetComId v) = none) :
    (imx943 port).run .init calls = some .init := by
  induction calls using List.reverseRecOn with
  | nil => rfl
  | append_singleton calls c ih =>
    have hpre : calls <+: calls ++ [c] := List.prefix_append _ _
    rw [Platform.run_concat, ih (hb.initial hpre) fun v hv => h v (List.mem_append_left _ hv), Option.bind_some]
    refine imx943_step_other ?_
    cases c with
    | disable v => exact h v (List.mem_append_right _ List.mem_cons_self)
    | enable v => exact hb.no_enable h (List.mem_append_right _ List.mem_cons_self)

/-- The first disable leaves its line enabled. -/
theorem imx943_keepsMasked_iff (hb : Balanced calls) :
    (imx943 port).KeepsMasked port calls ↔ ∀ v, .disable v ∈ calls → port (rlGetComId v) = none := by
  constructor
  · intro hmasked
    -- the counter is incremented before it is compared with zero, so the state after that call is the counterexample
    by_contra hno
    obtain ⟨v, hnot⟩ := not_forall.1 hno
    obtain ⟨hv, hport⟩ := Classical.not_imp.1 hnot
    -- the first disable of one of the com ids
    let known : Call → Bool := fun | .disable v => (port (rlGetComId v)).isSome | .enable _ => false
    have hfind : (calls.find? known).isSome := by
      rw [List.find?_isSome]
      exact ⟨_, hv, Option.isSome_iff_ne_none.2 hport⟩
    obtain ⟨c, hc⟩ := Option.isSome_iff_exists.1 hfind
    obtain ⟨hknown, pre, post, rfl, hbefore⟩ := List.find?_eq_some_iff_append.1 hc
    cases c with
    | enable v => cases hknown
    | disable v =>
      obtain ⟨⟨i, irq⟩, hi⟩ := Option.isSome_iff_exists.1 hknown
      have hpre : pre ++ [.disable v] <+: pre ++ .disable v :: post := ⟨post, by rw [List.append_assoc]; rfl⟩
      have hpre' : pre <+: pre ++ .disable v :: post := List.prefix_append _ _
      have hrun : (imx943 port).run .init pre = some .init := by
        refine imx943_run_other (hb.initial hpre') fun v' hv' => ?_
        have hnot := hbefore _ hv'
        rw [Bool.not_eq_true', Option.isSome_eq_false_iff, Option.isNone_iff_eq_none] at hnot
        exact hnot
      have hstep : (imx943 port).run .init (pre ++ [.disable v]) =
          some ⟨Function.update (fun _ => 0) i 1, fun _ => true⟩ := by
        rw [Platform.run_concat, hrun, Option.bind_some]
        show Masks.disableAfter port .init v = _
        unfold Masks.disableAfter
        rw [hi]
        simp only [Masks.init, Function.update_self]
        rw [if_pos (by decide), if_neg (by decide)]
        rfl
      have hdelta : (Call.disable v).delta (rlGetComId v) = 1 := if_pos rfl
      have hnonneg := hb _ hpre' (rlGetComId v)
      have hiff := hmasked _ hpre _ hstep _ _ _ hi
      rw [outstanding_concat, hdelta] at hiff
      exact absurd (hiff.2 (by omega)) Bool.true_eq_false_eq_False
  · intro h pre hpre s hrun com i irq hport
    have hno : ∀ v, .disable v ∈ pre → port (rlGetComId v) = none := fun v hv => h v (hpre.subset hv)
    rw [imx943_run_other (hb.initial hpre) hno] at hrun
    cases hrun
    have hle : outstanding pre com ≤ 0 := by
      refine outstanding_nonpos fun v hv heq => ?_
      have hnone := hno v hv
      rw [heq, hport] at hnone
      cases hnone
    constructor
    · intro hfalse
      cases hfalse
    · intro hlt
      omega

end

namespace M33s

def RL_PLATFORM_IMX943_M33S_A55_COM_ID : UInt32 := 0
def RL_PLATFORM_IMX943_M33S_M70_COM_ID : UInt32 := 1
def RL_PLATFORM_IMX943_M33S_M71_COM_ID : UInt32 := 2

/-- `RPMSG_LITE_M33S_A55_MU_IRQn`, `RPMSG_LITE_M33S_M71_MU_IRQn` and `RPMSG_LITE_M33S_M70_MU_IRQn` -/
inductive Irqn | mu15_a | mu_e1_b | mu_e3_b
deriving DecidableEq

def port (comId : UInt32) : Option (Fin 3 × Irqn) :=
  if comId = RL_PLATFORM_IMX943_M33S_M71_COM_ID then some (0, .mu_e1_b)
  else if comId = RL_PLATFORM_IMX943_M33S_M70_COM_ID then some (1, .mu_e3_b)
  else if comId = RL_PLATFORM_IMX943_M33S_A55_COM_ID then some (2, .mu15_a)
  else none

def platform : Platform Irqn := imx943 port

end M33s

namespace M70

def RL_PLATFORM_IMX943_M70_A55_COM_ID : UInt32 := 0
def RL_PLATFORM_IMX943_M70_M33S_COM_ID : UInt32 := 1
def RL_PLATFORM_IMX943_M70_M71_COM_ID : UInt32 := 2

/-- `RPMSG_LITE_M70_A55_MU_IRQn`, `RPMSG_LITE_M70_M33S_MU_IRQn` and `RPMSG_LITE_M70_M71_MU_IRQn` -/
inductive Irqn | mu11_b | mu_e3_a | mu18_b
deriving DecidableEq

def port (comId : UInt32) : Option (Fin 3 × Irqn) :=
  if comId = RL_PLATFORM_IMX943_M70_M33S_COM_ID then some (0, .mu_e3_a)
  else if comId = RL_PLATFORM_IMX943_M70_M71_COM_ID then some (1, .mu18_b)
  else if comId = RL_PLATFORM_IMX943_M70_A55_COM_ID then some (2, .mu11_b)
  else none

def platform : Platform Irqn := imx943 port

end M70

/-- On both cores of i.MX943 the lines follow the counters only in sequences that disable nothing. -/
theorem lines_masked_iff {calls : List Call} (hb : Balanced calls) :
    (M33s.platform.KeepsMasked M33s.port calls ↔ ∀ v, .disable v ∈ calls → M33s.port (rlGetComId v) = none) ∧
      (M70.platform.KeepsMasked M70.port calls ↔ ∀ v, .disable v ∈ calls → M70.port (rlGetComId v) = none) :=
  ⟨imx943_keepsMasked_iff hb, imx943_keepsMasked_iff hb⟩

/-- Calls for a com id that the core does not have. -/
theorem lines_masked_other : M33s.platform.KeepsMasked M33s.port [.disable 24, .enable 24] ∧
    M70.platform.KeepsMasked M70.port [.disable 24, .enable 24] := by
  have hb : Balanced [.disable 24, .enable 24] := (Balanced.nil.disable 24).enable (v := 24) (by decide)
  have hno : ∀ v, .disable v ∈ [Call.disable 24, Call.enable 24] → v = 24 := by
    intro v hv
    rcases List.mem_cons.1 hv with heq | hv
    · exact Call.disable.inj heq
    · cases List.mem_singleton.1 hv
  constructor
  · exact (lines_masked_iff hb).1.2 fun v hv => by rw [hno v hv]; decide
  · exact (lines_masked_iff hb).2.2 fun v hv => by rw [hno v hv]; decide

/-- One disable for the com id between the two cores: it is outstanding, and the line is enabled on either core. -/
theorem lines_not_masked : Balanced [.disable 8] ∧ 0 < outstanding [.disable 8] 1 ∧
    (∃ s, M33s.platform.run .init [.disable 8] = some s ∧ M33s.port 1 = some (1, .mu_e3_b) ∧ s.nvic .mu_e3_b = true) ∧
    ∃ s, M70.platform.run .init [.disable 8] = some s ∧ M70.port 1 = some (0, .mu_e3_a) ∧ s.nvic .mu_e3_a = true := by
  exact ⟨Balanced.nil.disable 8, by decide, ⟨_, rfl, rfl, rfl⟩, _, rfl, rfl, rfl⟩

/-! ## i.MX8QM -/

namespace Imx8qm

def RL_PLATFORM_IMX8QM_M4_A_COM_ID : UInt32 := 0
def RL_PLATFORM_IMX8QM_M4_M4_COM_ID : UInt32 := 1

/-- `APP_M4_MU_NVIC_IRQn` -/
inductive Irqn | irqsteer_3
deriving DecidableEq

def port (comId : UInt32) : Option (Fin 3 × Irqn) :=
  if comId = RL_PLATFORM_IMX8QM_M4_A_COM_ID then some (0, .irqsteer_3)
  else if comId = RL_PLATFORM_IMX8QM_M4_M4_COM_ID then some (1, .irqsteer_3)
  else none

def platform : Platform Irqn := ⟨Masks.disableBefore port, Masks.interruptEnable port⟩

/-- The com ids of the port. -/
def Served (com : UInt32) : Prop := (port com).isSome = true

theorem port_inj {com com' : UInt32} {i : Fin 3} {irq irq' : Irqn} (h : port com = some (i, irq))
    (h' : port com' = some (i, irq')) :
    com = com' := by
  unfold port at h h'
  split at h
  · split at h'
    · rename_i h1 h2
      rw [h1, h2]
    · split at h'
      · cases h
        cases h'
      · cases h'
  · split at h
    · split at h'
      · cases h
        cases h'
      · split at h'
        · rename_i h1 _ h2
          rw [h1, h2]
        · cases h'
    · cases h

/-- The line is masked while anyone holds it disabled, and enabled when nobody does, at the latest after an enable. -/
def Right (calls : List Call) (s : Masks Irqn) : Prop :=
  ((∃ com, Served com ∧ 0 < outstanding calls com) → s.nvic .irqsteer_3 = false) ∧
    ((∀ com, Served com → outstanding calls com = 0) → (∃ v, .enable v ∈ calls) → s.nvic .irqsteer_3 = true)

/-- When the last enable of a com id is called, nothing of the other com id is outstanding. -/
def LastTogether (calls : List Call) : Prop :=
  ∀ pre v, pre ++ [.enable v] <+: calls → Served (rlGetComId v) → outstanding (pre ++ [.enable v]) (rlGetComId v) = 0 →
    ∀ com, Served com → outstanding (pre ++ [.enable v]) com = 0

section

variable {s s' : Masks Irqn} {calls : List Call} {c : Call}

/-- Each counter is the number of outstanding disables of its com id. -/
def Counted (calls : List Call) (s : Masks Irqn) : Prop :=
  ∀ com i irq, port com = some (i, irq) → s.counter i = outstanding calls com

/-- What a call that returns does. -/
theorem step_cases (h : platform.step s c = some s') :
    (∃ v, (c = .disable v ∨ c = .enable v) ∧ port (rlGetComId v) = none ∧ s' = s) ∨
    (∃ v i, c = .disable v ∧ port (rlGetComId v) = some (i, .irqsteer_3) ∧
      s'.counter = Function.update s.counter i (s.counter i + 1) ∧ 0 ≤ s.counter i ∧
      s'.nvic .irqsteer_3 = if s.counter i = 0 then false else s.nvic .irqsteer_3) ∨
    ∃ v i, c = .enable v ∧ port (rlGetComId v) = some (i, .irqsteer_3) ∧
      s'.counter = Function.update s.counter i (s.counter i - 1) ∧ 0 < s.counter i ∧
      s'.nvic .irqsteer_3 = if s.counter i = 1 then true else s.nvic .irqsteer_3 := by
  cases c with
  | disable v =>
    cases hport : port (rlGetComId v) with
    | none =>
      refine Or.inl ⟨v, Or.inl rfl, hport, ?_⟩
      replace h : Masks.disableBefore port s v = some s' := h
      unfold Masks.disableBefore at h
      rw [hport] at h
      exact (Option.some.inj h).symm
    | some x =>
      obtain ⟨i, ⟨⟩⟩ := x
      refine Or.inr (Or.inl ⟨v, i, rfl, hport, ?_⟩)
      replace h : Masks.disableBefore port s v = some s' := h
      unfold Masks.disableBefore at h
      simp only [hport] at h
      split at h
      · rename_i hbound
        cases h
        by_cases h0 : s.counter i = 0
        · rw [if_pos h0, if_pos h0]
          exact ⟨rfl, hbound.1, Function.update_self Irqn.irqsteer_3 false s.nvic⟩
        · rw [if_neg h0, if_neg h0]
          exact ⟨rfl, hbound.1, rfl⟩
      · cases h
  | enable v =>
    cases hport : port (rlGetComId v) with
    | none =>
      refine Or.inl ⟨v, Or.inr rfl, hport, ?_⟩
      replace h : Masks.interruptEnable port s v = some s' := h
      unfold Masks.interruptEnable at h
      rw [hport] at h
      exact (Option.some.inj h).symm
    | some x =>
      obtain ⟨i, ⟨⟩⟩ := x
      refine Or.inr (Or.inr ⟨v, i, rfl, hport, ?_⟩)
      replace h : Masks.interruptEnable port s v = some s' := h
      unfold Masks.interruptEnable at h
      simp only [hport, Function.update_self] at h
      split at h
      · rename_i hpos
        cases h
        by_cases h1 : s.counter i = 1
        · rw [if_pos (by omega), if_pos h1]
          exact ⟨rfl, hpos, Function.update_self Irqn.irqsteer_3 true s.nvic⟩
        · rw [if_neg (by omega), if_neg h1]
          exact ⟨rfl, hpos, rfl⟩
      · cases h

theorem Counted.step (hs : Counted calls s) (h : platform.step s c = some s') : Counted (calls ++ [c]) s' := by
  intro com i irq hport
  rw [outstanding_concat]
  have hold := hs com i irq hport
  -- the com ids have counters of their own
  have hupdate : ∀ {v : UInt32} {j : Fin 3} {x : Int}, port (rlGetComId v) = some (j, .irqsteer_3) →
      Function.update s.counter j (s.counter j + x) i = outstanding calls com + if rlGetComId v = com then x else 0 := by
    intro v j x hj
    by_cases hij : i = j
    · subst hij
      rw [Function.update_self, if_pos (port_inj hj hport), hold]
    · have hne : rlGetComId v ≠ com := by
        rintro rfl
        rw [hport] at hj
        exact hij (congrArg Prod.fst (Option.some.inj hj))
      rw [Function.update_of_ne hij, if_neg hne, hold, Int.add_zero]
  rcases step_cases h with ⟨v, hc, hnone, rfl⟩ | ⟨v, j, rfl, hj, hcounter, -, -⟩ | ⟨v, j, rfl, hj, hcounter, -, -⟩
  · have hne : rlGetComId v ≠ com := by
      rintro rfl
      rw [hport] at hnone
      cases hnone
    rw [Call.delta_of_ne hc hne, Int.add_zero]
    exact hold
  · rw [hcounter]
    exact hupdate hj
  · rw [hcounter]
    exact hupdate (x := -1) hj

theorem Counted.run (h : platform.run .init calls = some s) : Counted calls s := by
  induction calls using List.reverseRecOn generalizing s with
  | nil =>
    cases h
    exact fun _ _ _ _ => rfl
  | append_singleton calls c ih =>
    rw [Platform.run_concat] at h
    obtain ⟨t, ht, hstep⟩ := Option.bind_eq_some_iff.1 h
    exact (ih ht).step hstep

/-- The line is masked exactly while something is outstanding. -/
def Exact (calls : List Call) (s : Masks Irqn) : Prop :=
  s.nvic .irqsteer_3 = false ↔ ∃ com, Served com ∧ 0 < outstanding calls com

theorem Exact.right (h : Exact calls s) : Right calls s := by
  refine ⟨h.2, fun hnone _ => ?_⟩
  by_contra hmask
  rw [Bool.not_eq_true] at hmask
  obtain ⟨com, hcom, hpos⟩ := h.1 hmask
  have := hnone com hcom
  omega

/-- The last enable of one com id unmasks the line, so nothing else may be outstanding then. -/
theorem Exact.step (hx : Exact calls s) (hs : Counted calls s) (hb : Balanced (calls ++ [c])) (h : platform.step s c = some s')
    (hlast : ∀ v, c = .enable v → Served (rlGetComId v) → outstanding (calls ++ [c]) (rlGetComId v) = 0 →
      ∀ com, Served com → outstanding (calls ++ [c]) com = 0) : Exact (calls ++ [c]) s' := by
  have hs' := hs.step h
  have hold := hb calls (List.prefix_append _ _)
  unfold Exact at hx ⊢
  rcases step_cases h with ⟨v, hc, hnone, rfl⟩ | ⟨v, i, rfl, hi, hcounter, hpos, hnvic⟩ |
    ⟨v, i, rfl, hi, hcounter, hpos, hnvic⟩
  · rw [hx]
    have hsame : ∀ com, Served com → outstanding (calls ++ [c]) com = outstanding calls com := by
      intro com hcom
      have hne : rlGetComId v ≠ com := by
        rintro rfl
        rw [Served, hnone] at hcom
        cases hcom
      rw [outstanding_concat, Call.delta_of_ne hc hne, Int.add_zero]
    constructor
    · rintro ⟨com, hcom, hlt⟩
      exact ⟨com, hcom, by rw [hsame com hcom]; exact hlt⟩
    · rintro ⟨com, hcom, hlt⟩
      exact ⟨com, hcom, by rw [← hsame com hcom]; exact hlt⟩
  · -- masked by this disable, or already by an earlier one of the same com id
    have hserved : Served (rlGetComId v) := by rw [Served, hi]; rfl
    have hcount := hs (rlGetComId v) i _ hi
    have hcount' := hs' (rlGetComId v) i _ hi
    rw [hcounter, Function.update_self] at hcount'
    refine iff_of_true ?_ ⟨_, hserved, by omega⟩
    rw [hnvic]
    split
    · rfl
    · exact hx.2 ⟨_, hserved, by omega⟩
  · have hserved : Served (rlGetComId v) := by rw [Served, hi]; rfl
    have hcount := hs (rlGetComId v) i _ hi
    have hcount' := hs' (rlGetComId v) i _ hi
    rw [hcounter, Function.update_self] at hcount'
    rw [hnvic]
    by_cases h1 : s.counter i = 1
    · -- the last one of its com id: by the condition the other has none either
      rw [if_pos h1]
      refine iff_of_false Bool.true_eq_false_eq_False ?_
      rintro ⟨com, hcom, hlt⟩
      have := hlast v rfl hserved (by omega) com hcom
      omega
    · rw [if_neg h1]
      refine iff_of_true (hx.2 ⟨_, hserved, by omega⟩) ⟨_, hserved, by omega⟩

theorem Exact.run (hb : Balanced calls) (h : platform.run .init calls = some s) (hlast : LastTogether calls) :
    Exact calls s := by
  induction calls using List.reverseRecOn generalizing s with
  | nil =>
    cases h
    refine iff_of_false Bool.true_eq_false_eq_False ?_
    rintro ⟨com, -, hlt⟩
    exact absurd hlt (lt_irrefl _)
  | append_singleton calls c ih =>
    have hpre : calls <+: calls ++ [c] := List.prefix_append _ _
    rw [Platform.run_concat] at h
    obtain ⟨t, ht, hstep⟩ := Option.bind_eq_some_iff.1 h
    refine (ih (hb.initial hpre) ht fun p v hp => hlast p v (hp.trans hpre)).step (.run ht) hb hstep ?_
    rintro v rfl
    exact hlast calls v (List.prefix_refl _)

end

/-- In a run of balanced calls every state is right exactly when no com id is enabled for the last time while the other
one is still disabled. -/
theorem line_masked_iff {calls : List Call} {s : Masks Irqn} (hb : Balanced calls) (h : platform.run .init calls = some s) :
    (∀ pre, pre <+: calls → ∀ t, platform.run .init pre = some t → Right pre t) ↔ LastTogether calls := by
  constructor
  · intro hright pre v hpre hserved hzero com hcom
    obtain ⟨t, ht⟩ := Platform.run_prefix h hpre
    have hr := (hright _ hpre _ ht).1
    rw [Platform.run_concat] at ht
    obtain ⟨t₀, ht₀, hstep⟩ := Option.bind_eq_some_iff.1 ht
    have hcounted := (Counted.run ht₀).step hstep
    by_contra hne
    have hlt : 0 < outstanding (pre ++ [.enable v]) com := lt_of_le_of_ne (hb _ hpre com) (Ne.symm hne)
    have hmask := hr ⟨com, hcom, hlt⟩
    -- yet the enable has unmasked the line
    rcases step_cases hstep with ⟨v', hc, hnone, -⟩ | ⟨v', i, hc, -⟩ | ⟨v', i, hc, hi, hcounter, -, hnvic⟩
    · rcases hc with hc | hc
      · cases hc
      · cases hc
        rw [Served, hnone] at hserved
        cases hserved
    · cases hc
    · cases hc
      have hcount := hcounted _ i _ hi
      rw [hcounter, Function.update_self, hzero] at hcount
      rw [hnvic, if_pos (by omega)] at hmask
      cases hmask
  · intro hlast pre hpre t ht
    exact (Exact.run (hb.initial hpre) ht fun p v hp => hlast p v (hp.trans hpre)).right

/-- The two com ids one after the other. -/
theorem line_masked_in_turn : ∃ s, platform.run .init [.disable 0, .enable 0, .disable 8] = some s ∧
    Right [.disable 0, .enable 0, .disable 8] s := by
  have hb : Balanced [.disable 0, .enable 0, .disable 8] :=
    ((Balanced.nil.disable 0).enable (v := 0) (by decide)).disable 8
  refine ⟨_, rfl, (line_masked_iff hb rfl).2 ?_ _ (List.prefix_refl _) _ rfl⟩
  intro pre v hpre _ _ com hcom
  -- the only enable is the second call
  obtain ⟨post, hpost⟩ := hpre
  rw [List.append_assoc] at hpost
  have hpre : pre = [.disable 0] := by
    rcases pre with _ | ⟨a, _ | ⟨b, _ | ⟨d, pre⟩⟩⟩
    · cases hpost
    · cases hpost
      rfl
    · cases hpost
    · simp at hpost
  subst hpre
  cases hpost
  by_cases h0 : com = 0
  · subst h0
    decide
  · have hd : (Call.disable 0).delta com = 0 := if_neg (Ne.symm h0)
    have he : (Call.enable 0).delta com = 0 := if_neg (Ne.symm h0)
    simp [outstanding, hd, he]

/-- Both com ids disable the line, and the enable of the second unmasks it for the first as well. -/
theorem line_unmasked : Balanced [.disable 0, .disable 8, .enable 8] ∧
    ∃ s, platform.run .init [.disable 0, .disable 8, .enable 8] = some s ∧
      outstanding [.disable 0, .disable 8, .enable 8] RL_PLATFORM_IMX8QM_M4_A_COM_ID = 1 ∧ s.nvic .irqsteer_3 = true :=
  ⟨((Balanced.nil.disable 0).disable 8).enable (v := 8) (by decide), _, rfl, by decide, rfl⟩

end Imx8qm

end RpmsgLite.Masking
