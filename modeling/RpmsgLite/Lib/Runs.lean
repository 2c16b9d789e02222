/-
Runs of a partial step function, its moves taken from a list. What every move keeps, a run keeps; a system only has to
show once that its run function takes the moves one after the other.
-/
import Mathlib.Tactic

/-- `run` makes the moves of a list one after the other. -/
structure IsRun {σ μ : Type} (step : σ → μ → Option σ) (run : σ → List μ → Option σ) : Prop where
  nil : ∀ s, run s [] = some s
  cons : ∀ s a as, run s (a :: as) = (step s a).bind fun s => run s as

namespace IsRun

variable {σ μ : Type} {step : σ → μ → Option σ} {run : σ → List μ → Option σ} {I : σ → Prop}
  {s s' : σ} {as : List μ}

/-- A step that only happens where a test holds. -/
def guarded (check : σ → μ → Bool) (step : σ → μ → Option σ) (s : σ) (a : μ) : Option σ :=
  if check s a then step s a else none

theorem guarded_eq_some {check : σ → μ → Bool} {a : μ} (h : guarded check step s a = some s') :
    check s a = true ∧ step s a = some s' := by
  unfold guarded at h
  split at h
  · rename_i hc
    exact ⟨hc, h⟩
  · cases h

/-- A run that stops at the first move that fails a test. -/
theorem of_guarded {check : σ → μ → Bool} (hnil : ∀ s, run s [] = some s)
    (hcons : ∀ s a as, run s (a :: as) = if check s a then (step s a).bind fun s => run s as else none) :
    IsRun (guarded check step) run := by
  refine ⟨hnil, fun s a as => ?_⟩
  rw [hcons]
  unfold guarded
  split <;> rfl

/-- What the moves of the list keep, the run keeps. -/
theorem keeps_of_mem (h : IsRun step run) (hstep : ∀ {s s' a}, a ∈ as → I s → step s a = some s' → I s') (hs : I s)
    (hr : run s as = some s') : I s' := by
  induction as generalizing s with
  | nil =>
    rw [h.nil] at hr
    cases hr
    exact hs
  | cons a as ih =>
    rw [h.cons] at hr
    obtain ⟨s₁, h₁, hr⟩ := Option.bind_eq_some_iff.1 hr
    exact ih (fun ha => hstep (List.mem_cons_of_mem _ ha)) (hstep List.mem_cons_self hs h₁) hr

theorem keeps (h : IsRun step run) (hstep : ∀ {s s' a}, I s → step s a = some s' → I s') (hs : I s)
    (hr : run s as = some s') : I s' :=
  h.keeps_of_mem (fun _ => hstep) hs hr

/-- With a test, what the moves keep that pass it. -/
theorem keeps_of_check {check : σ → μ → Bool} (h : IsRun (guarded check step) run)
    (hstep : ∀ {s s' a}, check s a = true → I s → step s a = some s' → I s') (hs : I s)
    (hr : run s as = some s') : I s' := by
  apply h.keeps _ hs hr
  intro s s' a hi ha
  obtain ⟨hc, ha⟩ := guarded_eq_some ha
  exact hstep hc hi ha

end IsRun
