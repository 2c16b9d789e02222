/-
What one step of the two cores can do, said once: every invariant of the notification side is a case
analysis of `Sys.Stepped`. From it follow what the steps do to the link, and that every kick notifies.
-/
import RpmsgLite.Irq.System

namespace RpmsgLite

open ByteMem

section Set

variable {P : Port} {s : Sys P} {r q : Role} {x : Cpu P} {a : Act} {l : Link}

@[simp] theorem Sys.set_link : (s.set r x).link = s.link := rfl

@[simp] theorem Sys.set_hw : (s.set r x).hw = s.hw := rfl

@[simp] theorem Sys.set_cpu_self : (s.set r x).cpu r = x := by simp only [Sys.set, Function.update_self]

theorem Sys.set_cpu_of_ne (h : q ≠ r) : (s.set r x).cpu q = s.cpu q := by
  simp only [Sys.set, Function.update_of_ne h]

@[simp] theorem Sys.messaged_link : (s.messaged r a l).link = l := by
  unfold Sys.messaged
  split
  · rfl
  · rfl

@[simp] theorem Sys.messaged_hw : (s.messaged r a l).hw = s.hw := by
  unfold Sys.messaged
  split
  · rfl
  · rfl

/-- A messaging step marks the peer when it returns a buffer, and does nothing else to the cores. -/
theorem Sys.messaged_cpu_peer :
    (s.messaged r a l).cpu r.peer = { s.cpu r.peer with unwoken := (s.cpu r.peer).unwoken || a.frees } := by
  unfold Sys.messaged
  split
  · rename_i h
    rw [set_cpu_self, h, Bool.or_true]
  · rename_i h
    rw [eq_false_of_ne_true h, Bool.or_false]

end Set

/-! ## One step -/

section

variable {P : Port} {c : SysConfig} {s s' : Sys P} {r : Role} {mv : Move}

/-- The steps of core `r`, with what each needs and what it leaves. -/
inductive Sys.Stepped (c : SysConfig) (s : Sys P) (r : Role) : Move → Sys P → Prop
  | boot {f fs} (h : (s.cpu r).boot = f :: fs) :
    Stepped c s r .boot (s.set r { s.cpu r with boot := fs, isr := f (s.cpu r).isr })
  | task {a l} (hidle : c.single = true → (s.cpu r).irq.isIdle = true) (hs : s.link.step c.link r a = some l) :
    Stepped c s r (.task a)
      ((s.messaged r a l).set r { s.cpu r with kicks := (s.cpu r).kicks ++ s.kicked c r a l })
  | kickEnd {i k hw} (hidle : c.single = true → (s.cpu r).irq.isIdle = true) (hk : (s.cpu r).kicks[i]? = some k)
    (hstep : s.kickStep r k = (hw, none)) :
    Stepped c s r (.kick i) ({ s with hw := hw }.set r { s.cpu r with kicks := (s.cpu r).kicks.eraseIdx i })
  | kick {i k k' hw} (hidle : c.single = true → (s.cpu r).irq.isIdle = true) (hk : (s.cpu r).kicks[i]? = some k)
    (hstep : s.kickStep r k = (hw, some k')) :
    Stepped c s r (.kick i) ({ s with hw := hw }.set r { s.cpu r with kicks := (s.cpu r).kicks.set i k' })
  | interrupt (hidle : (s.cpu r).irq = .idle) (hopen : (s.cpu r).isr.mailbox = true ∧ (s.cpu r).isr.nvic = true)
    (hraised : P.raised r s.hw = true) :
    Stepped c s r .interrupt
      ({ s with hw := P.accept r s.hw }.set r { s.cpu r with irq := .handler P.handler })
  | goto {pc pc' hw} (hpc : (s.cpu r).irq = .handler pc) (hstep : P.handlerStep r pc s.hw = (hw, .goto pc')) :
    Stepped c s r .handler ({ s with hw := hw }.set r { s.cpu r with irq := .handler pc' })
  | ignored {pc v pc' hw} (hpc : (s.cpu r).irq = .handler pc) (hstep : P.handlerStep r pc s.hw = (hw, .envIsr v pc'))
    (hv : v < ISR_COUNT) (hisr : (s.cpu r).isr.isrTable v = none) (ho : c.others r v = false) :
    Stepped c s r .handler ({ s with hw := hw }.set r { s.cpu r with irq := .handler pc' })
  | otherIsr {pc v pc' hw} (hpc : (s.cpu r).irq = .handler pc) (hstep : P.handlerStep r pc s.hw = (hw, .envIsr v pc'))
    (hv : v < ISR_COUNT) (hisr : (s.cpu r).isr.isrTable v = none) (ho : c.others r v = true) :
    Stepped c s r .handler ({ s with hw := hw }.set r { s.cpu r with irq := .other v pc' })
  | rxCallback {pc v pc' hw q} (hpc : (s.cpu r).irq = .handler pc)
    (hstep : P.handlerStep r pc s.hw = (hw, .envIsr v pc')) (hv : v < ISR_COUNT)
    (hisr : (s.cpu r).isr.isrTable v = some q) (hq : ((s.dev r).queue q).callback = .rxCallback) :
    Stepped c s r .handler ({ s with hw := hw }.set r { s.cpu r with irq := .rxCallback false pc' })
  | txCallback {pc v pc' hw q l} (hpc : (s.cpu r).irq = .handler pc)
    (hstep : P.handlerStep r pc s.hw = (hw, .envIsr v pc')) (hv : v < ISR_COUNT)
    (hisr : (s.cpu r).isr.isrTable v = some q) (hq : ((s.dev r).queue q).callback = .txCallback)
    (hs : s.link.step c.link r .txCallback = some l) :
    Stepped c s r .handler
      ({ s with hw := hw, link := l }.set r { s.cpu r with irq := .handler pc', unwoken := false })
  | done {pc hw} (hpc : (s.cpu r).irq = .handler pc) (hstep : P.handlerStep r pc s.hw = (hw, .done)) :
    Stepped c s r .handler ({ s with hw := hw }.set r { s.cpu r with irq := .idle })
  | rxKickEnd {k pc hw} (hpc : (s.cpu r).irq = .kick k pc) (hstep : s.kickStep r k = (hw, none)) :
    Stepped c s r .handler ({ s with hw := hw }.set r { s.cpu r with irq := .handler pc })
  | rxKick {k k' pc hw} (hpc : (s.cpu r).irq = .kick k pc) (hstep : s.kickStep r k = (hw, some k')) :
    Stepped c s r .handler ({ s with hw := hw }.set r { s.cpu r with irq := .kick k' pc })
  | callback {freed pc a l} (hpc : (s.cpu r).irq = .rxCallback freed pc)
    (hs : s.link.step c.link r (.rx a) = some l) :
    Stepped c s r (.callback a)
      ((s.messaged r (.rx a) l).set r { s.cpu r with irq := rxCallbackNext c r freed pc a l })
  | notify {v} (hidle : c.single = true → (s.cpu r).irq.isIdle = true) :
    Stepped c s r (.notify v) (s.set r { s.cpu r with kicks := (s.cpu r).kicks ++ [P.kick v] })
  | otherEnd {freed v pc} (hpc : (s.cpu r).irq = .other v pc) :
    Stepped c s r (.otherEnd freed)
      (s.set r { s.cpu r with irq := if freed && c.notifyFreed then .kick (P.kick v) pc else .handler pc })

theorem idle_of_guard {H N : Type} {b : Bool} {irq : Irq H N} (h : ¬ (b && !irq.isIdle) = true) :
    b = true → irq.isIdle = true := by
  intro hb
  simpa [hb] using h

theorem Irq.eq_idle {H N : Type} {irq : Irq H N} (h : irq.isIdle = true) : irq = .idle := by
  cases irq with
  | idle => rfl
  | handler => cases h
  | rxCallback => cases h
  | other => cases h
  | kick => cases h

theorem Sys.step_cases (h : s.step c r mv = some s') : Sys.Stepped c s r mv s' := by
  cases mv with
  | boot =>
    simp only [Sys.step] at h
    split at h
    · cases h
    rename_i f fs hboot
    split at h
    · cases h
    · cases h
      exact .boot hboot
  | task a =>
    simp only [Sys.step] at h
    split at h
    · cases h
    rename_i hguard
    obtain ⟨l, hl, rfl⟩ := Option.map_eq_some_iff.1 h
    refine .task (fun hb => ?_) hl
    simp only [Bool.or_eq_true, not_or] at hguard
    exact idle_of_guard hguard.2 hb
  | kick i =>
    simp only [Sys.step] at h
    split at h
    · cases h
    rename_i hguard
    split at h
    · cases h
    rename_i k hk
    rcases hstep : s.kickStep r k with ⟨hw, _ | k'⟩
    · rw [hstep] at h
      cases h
      exact .kickEnd (idle_of_guard hguard) hk hstep
    · rw [hstep] at h
      cases h
      exact .kick (idle_of_guard hguard) hk hstep
  | interrupt =>
    simp only [Sys.step] at h
    split at h
    swap
    · cases h
    rename_i hguard
    simp only [Bool.and_eq_true] at hguard
    cases h
    exact .interrupt (Irq.eq_idle hguard.1.1.1) ⟨hguard.1.1.2, hguard.1.2⟩ hguard.2
  | handler =>
    simp only [Sys.step] at h
    cases hirq : (s.cpu r).irq with
    | idle => rw [hirq] at h; cases h
    | rxCallback freed pc => rw [hirq] at h; cases h
    | other v pc => rw [hirq] at h; cases h
    | handler pc =>
      rw [hirq] at h
      simp only at h
      rcases hstep : P.handlerStep r pc s.hw with ⟨hw, pc' | ⟨v, pc'⟩ | _⟩
      · rw [hstep] at h
        cases h
        exact .goto hirq hstep
      · rw [hstep] at h
        simp only [Sys.envIsr] at h
        split at h
        · cases h
        rename_i hv
        have hv : v < ISR_COUNT := UInt32.not_le.1 hv
        split at h
        · rename_i hisr
          cases h
          cases ho : c.others r v with
          | false => exact .ignored hirq hstep hv hisr ho
          | true => exact .otherIsr hirq hstep hv hisr ho
        · rename_i q hisr
          split at h
          · rename_i hq
            cases h
            exact .rxCallback hirq hstep hv hisr hq
          · rename_i hq
            obtain ⟨l, hl, rfl⟩ := Option.map_eq_some_iff.1 h
            exact .txCallback hirq hstep hv hisr hq hl
      · rw [hstep] at h
        cases h
        exact .done hirq hstep
    | kick k pc =>
      rw [hirq] at h
      simp only at h
      rcases hstep : s.kickStep r k with ⟨hw, _ | k'⟩
      · rw [hstep] at h
        cases h
        exact .rxKickEnd hirq hstep
      · rw [hstep] at h
        cases h
        exact .rxKick hirq hstep
  | callback a =>
    simp only [Sys.step] at h
    split at h
    · rename_i freed pc hirq
      split at h
      · cases h
      obtain ⟨l, hl, rfl⟩ := Option.map_eq_some_iff.1 h
      exact .callback hirq hl
    · cases h
  | notify v =>
    simp only [Sys.step] at h
    split at h
    · cases h
    · rename_i hguard
      cases h
      exact .notify (idle_of_guard hguard)
  | otherEnd freed =>
    simp only [Sys.step] at h
    split at h
    · rename_i v pc hirq
      cases h
      exact .otherEnd hirq
    · cases h

/-! ## The mailbox -/

/-- What a step of core `r` makes of the mailbox. -/
inductive Sys.HwStep (c : SysConfig) (s : Sys P) (r : Role) : P.Hw → Prop
  | same : HwStep c s r s.hw
  | accept (hidle : (s.cpu r).irq = .idle) : HwStep c s r (P.accept r s.hw)
  | handler {pc} (hpc : (s.cpu r).irq = .handler pc) : HwStep c s r (P.handlerStep r pc s.hw).1
  /-- a call of a task, or of the handler itself -/
  | notify {k : Kick P.NotifyPc} {pc} (hcall : k.call = some pc)
    (hcaller : (c.single = true → (s.cpu r).irq.isIdle = true) ∨ ∃ pc', (s.cpu r).irq = .kick k pc') :
    HwStep c s r (P.notifyStep r pc s.hw).1

theorem Sys.hwStep_of_kick {k : Kick P.NotifyPc} {k' : Option (Kick P.NotifyPc)} {hw : P.Hw} (hstep : s.kickStep r k = (hw, k'))
    (hcaller : (c.single = true → (s.cpu r).irq.isIdle = true) ∨ ∃ pc', (s.cpu r).irq = .kick k pc') :
    Sys.HwStep c s r hw := by
  unfold Sys.kickStep at hstep
  split at hstep
  · rename_i pc hcall
    cases hstep
    exact .notify hcall hcaller
  · split at hstep
    · cases hstep
      exact .same
    · cases hstep
      exact .same
  · cases hstep
    exact .same

theorem Sys.Stepped.hwStep (h : Sys.Stepped c s r mv s') : Sys.HwStep c s r s'.hw := by
  have hhandler : ∀ {pc hw next}, (s.cpu r).irq = .handler pc → P.handlerStep r pc s.hw = (hw, next) →
    Sys.HwStep c s r hw := by
    intro pc hw next hpc hstep
    have hhw := Sys.HwStep.handler (c := c) hpc
    rw [hstep] at hhw
    exact hhw
  cases h with
  | boot => exact .same
  | task =>
    rw [Sys.set_hw, Sys.messaged_hw]
    exact .same
  | kickEnd hidle _ hstep => exact Sys.hwStep_of_kick hstep (Or.inl hidle)
  | kick hidle _ hstep => exact Sys.hwStep_of_kick hstep (Or.inl hidle)
  | interrupt hidle => exact .accept hidle
  | goto hpc hstep => exact hhandler hpc hstep
  | ignored hpc hstep => exact hhandler hpc hstep
  | otherIsr hpc hstep => exact hhandler hpc hstep
  | rxCallback hpc hstep => exact hhandler hpc hstep
  | txCallback hpc hstep => exact hhandler hpc hstep
  | done hpc hstep => exact hhandler hpc hstep
  | rxKickEnd hpc hstep => exact Sys.hwStep_of_kick hstep (Or.inr ⟨_, hpc⟩)
  | rxKick hpc hstep => exact Sys.hwStep_of_kick hstep (Or.inr ⟨_, hpc⟩)
  | callback =>
    rw [Sys.set_hw, Sys.messaged_hw]
    exact .same
  | notify => exact .same
  | otherEnd => exact .same

end

end RpmsgLite
