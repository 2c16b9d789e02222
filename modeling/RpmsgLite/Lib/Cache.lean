/-
Write-back caches of several cores over one memory that no hardware keeps coherent. Lines come into a cache and leave it at
any time. `Coherent` is what software has to keep up for the cores to read what a single memory would hold: only the owner
of a line has it dirty, a line that nobody has dirty is up to date in memory, and the owner's copy is. A core gets a line by
dropping its copy, and gives it away without a dirty copy. Bytes that nobody stores need no owner: their copies stay what
they are.
-/
import Mathlib.Tactic

inductive LineState | absent | clean | dirty
deriving DecidableEq

/-- One core's cache of values `β` at addresses `α`, in lines `ℓ`. -/
structure Cache (α β ℓ : Type*) where
  state : ℓ → LineState
  data : α → β

namespace Cache

variable {α β ℓ ι : Type*}

/-! ## Operations -/

section

variable (line : α → ℓ) (C : Cache α β ℓ) (m : α → β)

/-- What the core reads. -/
def view : α → β := fun a =>
  match C.state (line a) with
  | .absent => m a
  | .clean => C.data a
  | .dirty => C.data a

variable [DecidableEq ℓ]

/-- A line comes in. -/
def fill (L : ℓ) : Cache α β ℓ :=
  if C.state L = .absent then ⟨Function.update C.state L .clean, fun a => if line a = L then m a else C.data a⟩ else C

/-- The memory after the dirty ones of some lines are written back. -/
def writeBack (lines : List ℓ) : α → β := fun a =>
  if line a ∈ lines ∧ C.state (line a) = .dirty then C.data a else m a

/-- The cache after it. -/
def settle (lines : List ℓ) : Cache α β ℓ where
  state L := if L ∈ lines ∧ C.state L = .dirty then .clean else C.state L
  data := C.data

/-- Lines are dropped without a write-back. -/
def invalidate (lines : List ℓ) : Cache α β ℓ where
  state L := if L ∈ lines then .absent else C.state L
  data := C.data

/-- A store into some lines: `v` is what the core reads afterwards. -/
def store (lines : List ℓ) (v : α → β) : Cache α β ℓ where
  state L := if L ∈ lines then .dirty else C.state L
  data := v

end

section

variable {line : α → ℓ} {C : Cache α β ℓ} {m : α → β} {lines : List ℓ} {L : ℓ} {a : α}

theorem view_absent (h : C.state (line a) = .absent) : C.view line m a = m a := by
  unfold view
  rw [h]

theorem view_present (h : C.state (line a) ≠ .absent) : C.view line m a = C.data a := by
  unfold view
  cases hs : C.state (line a) with
  | absent => exact absurd hs h
  | clean => rfl
  | dirty => rfl

variable [DecidableEq ℓ]

theorem writeBack_of_dirty (hl : line a ∈ lines) (h : C.state (line a) = .dirty) : C.writeBack line m lines a = C.data a :=
  if_pos ⟨hl, h⟩

theorem writeBack_of_not (h : ¬ (line a ∈ lines ∧ C.state (line a) = .dirty)) : C.writeBack line m lines a = m a := if_neg h

theorem settle_dirty : (C.settle lines).state L = .dirty ↔ L ∉ lines ∧ C.state L = .dirty := by
  simp only [settle]
  split
  · rename_i h
    exact ⟨fun hc => absurd hc LineState.noConfusion, fun hc => absurd h.1 hc.1⟩
  · rename_i h
    exact ⟨fun hd => ⟨fun hl => h ⟨hl, hd⟩, hd⟩, fun hd => hd.2⟩

theorem settle_present (h : (C.settle lines).state L ≠ .absent) : C.state L ≠ .absent := by
  intro ha
  refine h ?_
  simp only [settle, ha]
  rw [if_neg (by simp)]

theorem invalidate_dirty : (C.invalidate lines).state L = .dirty ↔ L ∉ lines ∧ C.state L = .dirty := by
  simp only [invalidate]
  split
  · rename_i h
    exact ⟨fun hc => absurd hc LineState.noConfusion, fun hc => absurd h hc.1⟩
  · rename_i h
    exact ⟨fun hd => ⟨h, hd⟩, fun hd => hd.2⟩

theorem invalidate_present (h : (C.invalidate lines).state L ≠ .absent) : L ∉ lines ∧ C.state L ≠ .absent := by
  simp only [invalidate] at h
  split at h
  · exact absurd rfl h
  · rename_i hl
    exact ⟨hl, h⟩

theorem store_dirty {v : α → β} : (C.store lines v).state L = .dirty ↔ L ∈ lines ∨ C.state L = .dirty := by
  simp only [store]
  split
  · rename_i h
    exact ⟨fun _ => Or.inl h, fun _ => rfl⟩
  · rename_i h
    exact ⟨Or.inr, fun hd => hd.resolve_left h⟩

theorem fill_dirty {M : ℓ} : (C.fill line m L).state M = .dirty ↔ C.state M = .dirty := by
  unfold fill
  split
  · rename_i h
    by_cases hM : M = L
    · subst hM
      simp [h]
    · simp only [Function.update_of_ne hM]
  · rfl

end

/-! ## Coherence by ownership -/

/-- The caches and the memory `m` stand for the memory `w`. -/
structure Coherent (line : α → ℓ) (own : ι → ℓ → Prop) (cache : ι → Cache α β ℓ) (m w : α → β) : Prop where
  dirty : ∀ r L, (cache r).state L = .dirty → own r L
  unique : ∀ r q L, own r L → own q L → r = q
  memory : ∀ a, (∀ r, (cache r).state (line a) ≠ .dirty) → m a = w a
  cached : ∀ r a, own r (line a) → (cache r).state (line a) ≠ .absent → (cache r).data a = w a

namespace Coherent

variable {line : α → ℓ} {own own' : ι → ℓ → Prop} {cache : ι → Cache α β ℓ} {m m' w w' : α → β}
  {r : ι} {a : α} {lines : List ℓ}

/-- Caches without a dirty line stand for the memory, before anybody owns a line. -/
theorem start (h : ∀ r L, (cache r).state L ≠ .dirty) : Coherent line (fun _ _ => False) cache m m :=
  ⟨fun r L hd => h r L hd, fun _ _ _ hf => hf.elim, fun _ _ => rfl, fun _ _ hf => hf.elim⟩

/-- What the owner reads. -/
theorem view (h : Coherent line own cache m w) (ho : own r (line a)) : (cache r).view line m a = w a := by
  by_cases hs : (cache r).state (line a) = .absent
  · rw [view_absent hs]
    refine h.memory a fun q hq => ?_
    obtain rfl := h.unique _ _ _ (h.dirty q _ hq) ho
    rw [hs] at hq
    cases hq
  · rw [view_present hs, h.cached r a ho hs]

/-- What nobody owns is in memory. -/
theorem idle (h : Coherent line own cache m w) (ho : ∀ r, ¬ own r (line a)) : m a = w a :=
  h.memory a fun q hq => ho q (h.dirty q _ hq)

/-- Lines change hands: a dirty line keeps its owner, and who gets a line has no copy of it. -/
theorem rehand (h : Coherent line own cache m w) (hunique : ∀ r q L, own' r L → own' q L → r = q)
    (hdirty : ∀ r L, (cache r).state L = .dirty → own' r L)
    (hgot : ∀ r L, own' r L → own r L ∨ (cache r).state L = .absent) : Coherent line own' cache m w :=
  ⟨hdirty, hunique, h.memory, fun r a ho hp => (hgot r _ ho).elim (fun ho => h.cached r a ho hp) fun ha => absurd ha hp⟩

/-- The memory and what it stands for change together, in lines of nobody. -/
theorem poke (h : Coherent line own cache m w)
    (hp : ∀ a, m' a = m a ∧ w' a = w a ∨ m' a = w' a ∧ ∀ r, ¬ own r (line a)) : Coherent line own cache m' w' := by
  refine ⟨h.dirty, h.unique, fun a hnd => ?_, fun r a ho hs => ?_⟩
  · rcases hp a with ⟨h1, h2⟩ | ⟨h1, -⟩
    · rw [h1, h2, h.memory a hnd]
    · exact h1
  · rcases hp a with ⟨-, h2⟩ | ⟨-, hno⟩
    · rw [h2, h.cached r a ho hs]
    · exact absurd ho (hno r)

variable [DecidableEq ℓ] [DecidableEq ι]

theorem fill (h : Coherent line own cache m w) (r : ι) (L : ℓ) :
    Coherent line own (Function.update cache r ((cache r).fill line m L)) m w := by
  by_cases hs : (cache r).state L = .absent
  swap
  · rw [Cache.fill, if_neg hs, Function.update_eq_self]
    exact h
  have hdirty : ∀ q M, (Function.update cache r ((cache r).fill line m L) q).state M = .dirty ↔ (cache q).state M = .dirty := by
    intro q M
    by_cases hq : q = r
    · subst hq
      rw [Function.update_self]
      exact fill_dirty
    · rw [Function.update_of_ne hq]
  refine ⟨fun q M hd => h.dirty q M ((hdirty q M).1 hd), h.unique,
    fun a hnd => h.memory a fun q hd => hnd q ((hdirty q _).2 hd), fun q a ho hp => ?_⟩
  by_cases hq : q = r
  swap
  · rw [Function.update_of_ne hq] at hp ⊢
    exact h.cached q a ho hp
  subst hq
  simp only [Function.update_self, Cache.fill, if_pos hs] at hp ⊢
  split
  · rename_i hL
    have hv := h.view ho
    rwa [view_absent (by rw [hL, hs])] at hv
  · rename_i hL
    rw [Function.update_of_ne hL] at hp
    exact h.cached q a ho hp

/-- Lines are written back and stay. -/
theorem flush (h : Coherent line own cache m w) (r : ι) (lines : List ℓ) :
    Coherent line own (Function.update cache r ((cache r).settle lines)) ((cache r).writeBack line m lines) w := by
  refine ⟨fun q M hd => ?_, h.unique, fun a hnd => ?_, fun q a ho hp => ?_⟩
  · by_cases hq : q = r
    · subst hq
      rw [Function.update_self] at hd
      exact h.dirty q M (settle_dirty.1 hd).2
    · rw [Function.update_of_ne hq] at hd
      exact h.dirty q M hd
  · by_cases hb : line a ∈ lines ∧ (cache r).state (line a) = .dirty
    · rw [writeBack_of_dirty hb.1 hb.2]
      exact h.cached r a (h.dirty r _ hb.2) (by rw [hb.2]; exact LineState.noConfusion)
    · rw [writeBack_of_not hb]
      refine h.memory a fun q hd => hnd q ?_
      by_cases hq : q = r
      · subst hq
        rw [Function.update_self]
        exact settle_dirty.2 ⟨fun hl => hb ⟨hl, hd⟩, hd⟩
      · rwa [Function.update_of_ne hq]
  · by_cases hq : q = r
    · subst hq
      rw [Function.update_self] at hp ⊢
      exact h.cached q a ho (settle_present hp)
    · rw [Function.update_of_ne hq] at hp ⊢
      exact h.cached q a ho hp

/-- Lines that are not dirty are dropped, or are somebody's who gets them now. -/
theorem invalidate (h : Coherent line own cache m w) (r : ι) (lines : List ℓ)
    (hclean : ∀ L ∈ lines, (cache r).state L ≠ .dirty) :
    Coherent line own (Function.update cache r ((cache r).invalidate lines)) m w := by
  have hdirty : ∀ q M, (Function.update cache r ((cache r).invalidate lines) q).state M = .dirty ↔
    (cache q).state M = .dirty := by
    intro q M
    by_cases hq : q = r
    · subst hq
      rw [Function.update_self, invalidate_dirty]
      exact ⟨fun hd => hd.2, fun hd => ⟨fun hl => hclean M hl hd, hd⟩⟩
    · rw [Function.update_of_ne hq]
  refine ⟨fun q M hd => h.dirty q M ((hdirty q M).1 hd), h.unique,
    fun a hnd => h.memory a fun q hd => hnd q ((hdirty q _).2 hd), fun q a ho hp => ?_⟩
  by_cases hq : q = r
  · subst hq
    rw [Function.update_self] at hp ⊢
    exact h.cached q a ho (invalidate_present hp).2
  · rw [Function.update_of_ne hq] at hp ⊢
    exact h.cached q a ho hp

/-- A line leaves the cache, with a write-back if it is dirty. -/
theorem evict (h : Coherent line own cache m w) (r : ι) (lines : List ℓ) :
    Coherent line own (Function.update cache r (((cache r).settle lines).invalidate lines))
      ((cache r).writeBack line m lines) w := by
  have hf := (h.flush r lines).invalidate r lines fun L hl => by
    rw [Function.update_self]
    exact fun hd => (settle_dirty.1 hd).1 hl
  simpa only [Function.update_self, Function.update_idem] using hf

/-- The owner stores; `v` is what it reads afterwards. -/
theorem store (r : ι) (lines : List ℓ) (v : α → β) (h : Coherent line own cache m w) (hown : ∀ L ∈ lines, own r L)
    (hv : ∀ a, own r (line a) → v a = w' a) (hw : ∀ a, line a ∉ lines → w' a = w a) :
    Coherent line own (Function.update cache r ((cache r).store lines v)) m w' := by
  refine ⟨fun q M hd => ?_, h.unique, fun a hnd => ?_, fun q a ho hp => ?_⟩
  · by_cases hq : q = r
    · subst hq
      rw [Function.update_self] at hd
      exact (store_dirty.1 hd).elim (hown M) (h.dirty q M)
    · rw [Function.update_of_ne hq] at hd
      exact h.dirty q M hd
  · have hr := hnd r
    rw [Function.update_self, Ne, store_dirty, not_or] at hr
    rw [hw a hr.1]
    refine h.memory a fun q hd => ?_
    by_cases hq : q = r
    · subst hq
      exact hr.2 hd
    · exact hnd q (by rwa [Function.update_of_ne hq])
  · by_cases hq : q = r
    · subst hq
      rw [Function.update_self]
      exact hv a ho
    · rw [Function.update_of_ne hq] at hp ⊢
      rw [hw a fun hl => hq (h.unique _ _ _ ho (hown _ hl))]
      exact h.cached q a ho hp

/-- A turn of core `r`: it drops its copies of the lines `got` that it gets, stores into its lines, flushes some of them, and
gives away lines that it has flushed, or has not stored into and not dirty. Other changes reach lines of nobody. -/
theorem turn {got stored flushed : List ℓ} {v : α → β} (w₁ : α → β) (h : Coherent line own cache m w)
    (hgot : ∀ L ∈ got, ∀ q, ¬ own q L) (hstored : ∀ L ∈ stored, own r L ∨ L ∈ got)
    (hv : ∀ a, own r (line a) ∨ line a ∈ got → v a = w₁ a) (hw : ∀ a, line a ∉ stored → w₁ a = w a)
    (hp : ∀ a, m' a = m a ∧ w' a = w₁ a ∨ m' a = w' a ∧ line a ∉ got ∧ ∀ q, ¬ own q (line a))
    (hunique : ∀ r q L, own' r L → own' q L → r = q) (hother : ∀ q, q ≠ r → ∀ L, own' q L ↔ own q L)
    (hnew : ∀ L, own' r L → own r L ∨ L ∈ got)
    (hkept : ∀ L, own r L ∨ L ∈ got → own' r L ∨ L ∈ flushed ∨ L ∉ stored ∧ (cache r).state L ≠ .dirty) :
    Coherent line own' (Function.update cache r ((((cache r).invalidate got).store stored v).settle flushed))
      ((((cache r).invalidate got).store stored v).writeBack line m' flushed) w' := by
  -- during the turn the lines it gets are its own
  have h₁ : Coherent line (fun q L => own q L ∨ q = r ∧ L ∈ got)
      (Function.update cache r ((cache r).invalidate got)) m w := by
    refine (h.invalidate r got fun L hL hd => hgot L hL r (h.dirty r L hd)).rehand ?_ ?_ ?_
    · rintro p q L (hp | ⟨rfl, hp⟩) (hq | ⟨rfl, hq⟩)
      · exact h.unique p q L hp hq
      · exact absurd hp (hgot L hq p)
      · exact absurd hq (hgot L hp q)
      · rfl
    · intro q L hd
      refine Or.inl ((h.invalidate r got fun L hL hd => hgot L hL r (h.dirty r L hd)).dirty q L hd)
    · rintro q L (ho | ⟨rfl, hL⟩)
      · exact Or.inl ho
      · refine Or.inr ?_
        rw [Function.update_self]
        exact if_pos hL
  have h₂ := h₁.store r stored v (fun L hL => (hstored L hL).imp id fun hL => ⟨rfl, hL⟩)
    (fun a ha => hv a (ha.imp id fun ha => ha.2)) hw
  have h₃ : Coherent line _ _ m' w' := h₂.poke fun a => by
    refine (hp a).imp id fun ⟨he, hno, hfree⟩ => ⟨he, fun q hq => ?_⟩
    exact hq.elim (hfree q) fun hq => hno hq.2
  have h₄ := h₃.flush r flushed
  simp only [Function.update_self, Function.update_idem] at h₄
  refine h₄.rehand hunique (fun q L hd => ?_) fun q L ho => ?_
  · have ho := h₄.dirty q L hd
    by_cases hq : q = r
    · subst hq
      rw [Function.update_self] at hd
      obtain ⟨hnf, hd⟩ := settle_dirty.1 hd
      rcases hkept L (ho.imp id fun ho => ho.2) with hk | hk | ⟨hns, hnd⟩
      · exact hk
      · exact absurd hk hnf
      · exact absurd (invalidate_dirty.1 ((store_dirty.1 hd).resolve_left hns)).2 hnd
    · exact (hother q hq L).2 (ho.resolve_right fun ho => hq ho.1)
  · by_cases hq : q = r
    · subst hq
      exact Or.inl ((hnew L ho).imp id fun ho => ⟨rfl, ho⟩)
    · exact Or.inl (Or.inl ((hother q hq L).1 ho))

end Coherent

/-! ## Bytes that nobody stores -/

/-- Every copy of the bytes in `R` is what `w` has there. -/
def Copies (line : α → ℓ) (R : α → Prop) (cache : ι → Cache α β ℓ) (w : α → β) : Prop :=
  ∀ r a, R a → (cache r).state (line a) ≠ .absent → (cache r).data a = w a

namespace Copies

variable {line : α → ℓ} {R : α → Prop} {cache : ι → Cache α β ℓ} {m w w' : α → β} {r : ι} {a : α}

theorem view (h : Copies line R cache w) (ha : R a) (hm : m a = w a) : (cache r).view line m a = w a := by
  by_cases hs : (cache r).state (line a) = .absent
  · rw [view_absent hs, hm]
  · rw [view_present hs, h r a ha hs]

variable [DecidableEq ι]

/-- One core's cache changes. -/
theorem update (h : Copies line R cache w) (C : Cache α β ℓ)
    (hC : ∀ a, R a → C.state (line a) ≠ .absent → C.data a = w' a) (hw : ∀ a, R a → w' a = w a) :
    Copies line R (Function.update cache r C) w' := by
  intro q a ha hs
  by_cases hq : q = r
  · subst hq
    rw [Function.update_self] at hs ⊢
    exact hC a ha hs
  · rw [Function.update_of_ne hq] at hs ⊢
    rw [hw a ha]
    exact h q a ha hs

variable [DecidableEq ℓ]

theorem fill (h : Copies line R cache w) (hm : ∀ a, R a → m a = w a) (r : ι) (L : ℓ) :
    Copies line R (Function.update cache r ((cache r).fill line m L)) w := by
  refine h.update _ (fun a ha hs => ?_) fun _ _ => rfl
  unfold Cache.fill at hs ⊢
  split
  · rename_i habs
    rw [if_pos habs] at hs
    dsimp only at hs ⊢
    split
    · exact hm a ha
    · rename_i hne
      rw [Function.update_of_ne hne] at hs
      exact h r a ha hs
  · rename_i hpres
    rw [if_neg hpres] at hs
    exact h r a ha hs

theorem evict (h : Copies line R cache w) (r : ι) (lines : List ℓ) :
    Copies line R (Function.update cache r (((cache r).settle lines).invalidate lines)) w :=
  h.update _ (fun a ha hs => h r a ha (settle_present (invalidate_present hs).2)) fun _ _ => rfl

/-- A turn of core `r`, which reads these bytes after it as they are. -/
theorem turn {got stored flushed : List ℓ} {v : α → β} (h : Copies line R cache w) (hv : ∀ a, R a → v a = w' a)
    (hw : ∀ a, R a → w' a = w a) :
    Copies line R (Function.update cache r ((((cache r).invalidate got).store stored v).settle flushed)) w' :=
  h.update _ (fun a ha _ => hv a ha) hw

end Copies

end Cache
