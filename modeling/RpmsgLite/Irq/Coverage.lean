/-
No lost wake-up, for any platform that delivers. `Port.Carries` is what a platform has to do with a
vector: hold it from `platform_notify` until the handler takes it, and pass what the handler took to
`env_isr`. Then an entry in a receive queue is always accounted for: its notification is on the way, or
the receive callback is running and has its empty check still before it.
-/
import RpmsgLite.Irq.Steps

namespace RpmsgLite

/-! ## Platforms that deliver -/

/-- The handler will pass `v` to `env_isr`, given where it goes next. -/
def HandlerNext.Latched {H : Type} (latched : UInt32 → H → Prop) (v : UInt32) : HandlerNext H → Prop
  | .goto pc => latched v pc
  | .envIsr vector pc => vector = v ∨ latched v pc
  | .done => False

/-- A platform that delivers the vectors `valid`: `posted v r hw` says that `hw` holds `v` for core `r`,
`sending v pc` that a call will post it, `latched v pc` that a handler has taken it. -/
structure Port.Carries (P : Port) where
  valid : UInt32 → Prop
  posted : UInt32 → Role → P.Hw → Prop
  sending : UInt32 → P.NotifyPc → Prop
  latched : UInt32 → P.HandlerPc → Prop
  notify : ∀ {v}, valid v → sending v (P.platformNotify v)
  notify_keeps : ∀ {v r q pc hw}, posted v q hw → posted v q (P.notifyStep r pc hw).1
  notify_posts : ∀ {v r pc hw}, valid v → sending v pc →
    (∃ pc', (P.notifyStep r pc hw).2 = some pc' ∧ sending v pc') ∨ posted v r.peer (P.notifyStep r pc hw).1
  accept_keeps : ∀ {v r q hw}, posted v q hw → posted v q (P.accept r hw)
  handler_keeps : ∀ {v r q pc hw}, q ≠ r → posted v q hw → posted v q (P.handlerStep r pc hw).1
  handler_takes : ∀ {v r pc hw}, posted v r hw →
    posted v r (P.handlerStep r pc hw).1 ∨ (P.handlerStep r pc hw).2.Latched latched v
  handler_latched : ∀ {v r pc hw}, latched v pc → (P.handlerStep r pc hw).2.Latched latched v

/-! ## A notification on its way -/

section

variable {P : Port} (L : P.Carries)

/-- The interrupt side has taken `v` and not yet passed it on. -/
def Irq.Latches (v : UInt32) : Irq P.HandlerPc P.NotifyPc → Prop
  | .idle => False
  | .handler pc => L.latched v pc
  | .rxCallback _ pc => L.latched v pc
  | .other _ pc => L.latched v pc
  | .kick _ pc => L.latched v pc

def Irq.kicks {H N : Type} : Irq H N → List (Kick N)
  | .kick k _ => [k]
  | _ => []

/-- The kicks under way on a core. -/
def Cpu.allKicks (x : Cpu P) : List (Kick P.NotifyPc) := x.kicks ++ x.irq.kicks

/-- The kick will post `v`. -/
structure Kick.Brings (dev : RpmsgLiteInstance) (v : UInt32) (k : Kick P.NotifyPc) : Prop where
  vector : ∃ z, k.queue = some z ∧ dev.vector z = v
  sending : ∀ pc, k.call = some pc → L.sending v pc

/-- A kick of the virtqueue `z` is under way on core `r`. -/
def Sys.Kicking (s : Sys P) (r : Role) (z : Queue) : Prop := ∃ k ∈ (s.cpu r).allKicks, k.queue = some z

/-- The vector `v` is on its way to core `q`. -/
def Sys.Noted (s : Sys P) (q : Role) (v : UInt32) : Prop :=
  L.posted v q s.hw ∨ (∃ k ∈ (s.cpu q.peer).allKicks, k.Brings L (s.dev q.peer) v) ∨ (s.cpu q).irq.Latches L v

/-- The next step of the handler of core `r` is `env_isr(v)`. -/
def Sys.Delivers (s : Sys P) (r : Role) (v : UInt32) : Prop :=
  ∃ pc hw pc', (s.cpu r).irq = .handler pc ∧ P.handlerStep r pc s.hw = (hw, .envIsr v pc')

variable {L} {c : SysConfig} {s s' : Sys P} {r q : Role} {mv : Move} {v : UInt32}

theorem mem_set_or {α : Type} {l : List α} {i : Nat} {a k : α} (b : α) (h : l[i]? = some a) (hk : k ∈ l) :
    k = a ∨ k ∈ l.set i b := by
  obtain ⟨hi, rfl⟩ := List.getElem?_eq_some_iff.1 h
  obtain ⟨j, hj, rfl⟩ := List.getElem_of_mem hk
  by_cases hij : i = j
  · subst hij
    exact Or.inl rfl
  · refine Or.inr (List.mem_iff_getElem.2 ⟨j, by rwa [List.length_set], ?_⟩)
    rw [List.getElem_set_ne hij]

/-- A step of a kick keeps what is posted; a kick that brings `v` goes on to bring it, or has posted it. -/
theorem Sys.kickStep_keeps {k : Kick P.NotifyPc} (h : L.posted v q s.hw) : L.posted v q (s.kickStep r k).1 := by
  unfold Sys.kickStep
  split
  · exact L.notify_keeps h
  · split
    · exact h
    · exact h
  · exact h

theorem Sys.kickStep_brings {k : Kick P.NotifyPc}
    (hmust : ∀ z, vqRingMustNotifyHost ((s.dev r).queue z) s.link.m = true) (hv : L.valid v) (h : k.Brings L (s.dev r) v) :
    (∃ k', (s.kickStep r k).2 = some k' ∧ k'.Brings L (s.dev r) v) ∨ L.posted v r.peer (s.kickStep r k).1 := by
  obtain ⟨z, hz, hvec⟩ := h.vector
  unfold Sys.kickStep
  split
  · rename_i pc hpc
    have hposts : (∃ pc', (P.notifyStep r pc s.hw).2 = some pc' ∧ L.sending v pc') ∨
        L.posted v r.peer (P.notifyStep r pc s.hw).1 := L.notify_posts hv (h.sending pc hpc)
    rcases hposts with ⟨pc', hnext, hs⟩ | hposted
    · refine Or.inl ⟨{ k with call := some pc' }, ?_, ⟨z, hz, hvec⟩, fun pc hpc => ?_⟩
      · simp only [hnext, Option.map_some]
      · cases hpc
        exact hs
    · exact Or.inr hposted
  · rename_i z' hcall hz'
    rw [hz] at hz'
    cases hz'
    rw [if_pos (hmust z)]
    refine Or.inl ⟨_, rfl, ⟨z, hz, hvec⟩, fun pc hpc => ?_⟩
    cases hpc
    rw [hvec]
    exact L.notify hv
  · rename_i hz'
    rw [hz] at hz'
    cases hz'

/-- A step of one core tells the other at most that it has freed a buffer. -/
theorem Sys.Stepped.other (h : Sys.Stepped c s r mv s') (hq : q ≠ r) :
    s'.cpu q = { s.cpu q with unwoken := (s.cpu q).unwoken || mv.frees } := by
  have hpeer : q = r.peer := (r.eq_or_peer q).resolve_left hq
  subst hpeer
  have hkeep : ∀ {b}, mv.frees = b → b = false →
      s.cpu r.peer = { s.cpu r.peer with unwoken := (s.cpu r.peer).unwoken || mv.frees } := by
    rintro b hb rfl
    rw [hb, Bool.or_false]
  cases h with
  | task => exact (Sys.set_cpu_of_ne hq).trans Sys.messaged_cpu_peer
  | callback => exact (Sys.set_cpu_of_ne hq).trans Sys.messaged_cpu_peer
  | boot => exact (Sys.set_cpu_of_ne hq).trans (hkeep rfl rfl)
  | kickEnd => exact (Sys.set_cpu_of_ne hq).trans (hkeep rfl rfl)
  | kick => exact (Sys.set_cpu_of_ne hq).trans (hkeep rfl rfl)
  | interrupt => exact (Sys.set_cpu_of_ne hq).trans (hkeep rfl rfl)
  | goto => exact (Sys.set_cpu_of_ne hq).trans (hkeep rfl rfl)
  | ignored => exact (Sys.set_cpu_of_ne hq).trans (hkeep rfl rfl)
  | rxCallback => exact (Sys.set_cpu_of_ne hq).trans (hkeep rfl rfl)
  | txCallback => exact (Sys.set_cpu_of_ne hq).trans (hkeep rfl rfl)
  | done => exact (Sys.set_cpu_of_ne hq).trans (hkeep rfl rfl)
  | rxKickEnd => exact (Sys.set_cpu_of_ne hq).trans (hkeep rfl rfl)
  | rxKick => exact (Sys.set_cpu_of_ne hq).trans (hkeep rfl rfl)
  | otherIsr => exact (Sys.set_cpu_of_ne hq).trans (hkeep rfl rfl)
  | notify => exact (Sys.set_cpu_of_ne hq).trans (hkeep rfl rfl)
  | otherEnd => exact (Sys.set_cpu_of_ne hq).trans (hkeep rfl rfl)

theorem Sys.Stepped.irq_of_ne (h : Sys.Stepped c s r mv s') (hq : q ≠ r) : (s'.cpu q).irq = (s.cpu q).irq := by
  rw [h.other hq]

/-- A core whose receive callback runs stays there, or takes the callback's next step. -/
theorem Sys.Stepped.rxCallback_cases (h : Sys.Stepped c s r mv s') {freed : Bool} {pc : P.HandlerPc}
    (hirq : (s.cpu r).irq = .rxCallback freed pc) :
    (s'.cpu r).irq = .rxCallback freed pc ∨
      ∃ a, s.link.step c.link r (.rx a) = some s'.link ∧ (s'.cpu r).irq = rxCallbackNext c r freed pc a s'.link := by
  cases h with
  | callback hpc hs =>
    rw [hirq] at hpc
    cases hpc
    rename_i a l
    refine Or.inr ⟨a, ?_, ?_⟩
    · rw [Sys.set_link, Sys.messaged_link]
      exact hs
    · rw [Sys.set_cpu_self, Sys.set_link, Sys.messaged_link]
  | boot => exact Or.inl (by rw [Sys.set_cpu_self]; exact hirq)
  | task => exact Or.inl (by rw [Sys.set_cpu_self]; exact hirq)
  | kickEnd => exact Or.inl (by rw [Sys.set_cpu_self]; exact hirq)
  | kick => exact Or.inl (by rw [Sys.set_cpu_self]; exact hirq)
  | notify => exact Or.inl (by rw [Sys.set_cpu_self]; exact hirq)
  | otherIsr hpc => rw [hirq] at hpc; cases hpc
  | otherEnd hpc => rw [hirq] at hpc; cases hpc
  | interrupt hidle => rw [hirq] at hidle; cases hidle
  | goto hpc => rw [hirq] at hpc; cases hpc
  | ignored hpc => rw [hirq] at hpc; cases hpc
  | rxCallback hpc => rw [hirq] at hpc; cases hpc
  | txCallback hpc => rw [hirq] at hpc; cases hpc
  | done hpc => rw [hirq] at hpc; cases hpc
  | rxKickEnd hpc => rw [hirq] at hpc; cases hpc
  | rxKick hpc => rw [hirq] at hpc; cases hpc

/-- A step never takes a posted vector away, unless the core's own handler has it now or passes it on. -/
theorem Sys.Stepped.posted (h : Sys.Stepped c s r mv s') (hp : L.posted v q s.hw) :
    L.posted v q s'.hw ∨ (s'.cpu q).irq.Latches L v ∨ q = r ∧ mv = .handler ∧ s.Delivers r v := by
  -- what the handler's own step does
  have hhandler : ∀ {pc hw next}, (s.cpu r).irq = .handler pc → P.handlerStep r pc s.hw = (hw, next) →
      L.posted v q hw ∨ q = r ∧ next.Latched L.latched v := by
    intro pc hw next _ hstep
    by_cases hq : q = r
    · subst hq
      have ht : L.posted v q (P.handlerStep q pc s.hw).1 ∨ (P.handlerStep q pc s.hw).2.Latched L.latched v :=
        L.handler_takes hp
      rw [hstep] at ht
      exact ht.imp_right fun ht => ⟨rfl, ht⟩
    · have hk : L.posted v q (P.handlerStep r pc s.hw).1 := L.handler_keeps hq hp
      rw [hstep] at hk
      exact Or.inl hk
  have hkick : ∀ {k hw k'}, s.kickStep r k = (hw, k') → L.posted v q hw := by
    intro k hw k' hstep
    have hk := Sys.kickStep_keeps (r := r) (k := k) hp
    rwa [hstep] at hk
  cases h with
  | boot => exact Or.inl hp
  | notify => exact Or.inl hp
  | otherEnd => exact Or.inl hp
  | otherIsr hpc hstep =>
    rcases hhandler hpc hstep with hp | ⟨rfl, rfl | hl⟩
    · exact Or.inl hp
    · exact Or.inr (Or.inr ⟨rfl, rfl, _, _, _, hpc, hstep⟩)
    · exact Or.inr (Or.inl (by rw [Sys.set_cpu_self]; exact hl))
  | task => exact Or.inl (by simpa using hp)
  | kickEnd _ _ hstep => exact Or.inl (hkick hstep)
  | kick _ _ hstep => exact Or.inl (hkick hstep)
  | interrupt => exact Or.inl (L.accept_keeps hp)
  | goto hpc hstep =>
    rcases hhandler hpc hstep with hp | ⟨rfl, hl⟩
    · exact Or.inl hp
    · exact Or.inr (Or.inl (by rw [Sys.set_cpu_self]; exact hl))
  | ignored hpc hstep =>
    rcases hhandler hpc hstep with hp | ⟨rfl, rfl | hl⟩
    · exact Or.inl hp
    · exact Or.inr (Or.inr ⟨rfl, rfl, _, _, _, hpc, hstep⟩)
    · exact Or.inr (Or.inl (by rw [Sys.set_cpu_self]; exact hl))
  | rxCallback hpc hstep =>
    rcases hhandler hpc hstep with hp | ⟨rfl, rfl | hl⟩
    · exact Or.inl hp
    · exact Or.inr (Or.inr ⟨rfl, rfl, _, _, _, hpc, hstep⟩)
    · exact Or.inr (Or.inl (by rw [Sys.set_cpu_self]; exact hl))
  | txCallback hpc hstep =>
    rcases hhandler hpc hstep with hp | ⟨rfl, rfl | hl⟩
    · exact Or.inl hp
    · exact Or.inr (Or.inr ⟨rfl, rfl, _, _, _, hpc, hstep⟩)
    · exact Or.inr (Or.inl (by rw [Sys.set_cpu_self]; exact hl))
  | done hpc hstep =>
    rcases hhandler hpc hstep with hp | ⟨-, hl⟩
    · exact Or.inl hp
    · exact absurd hl id
  | rxKickEnd _ hstep => exact Or.inl (hkick hstep)
  | rxKick _ hstep => exact Or.inl (hkick hstep)
  | callback => exact Or.inl (by simpa using hp)

/-- A step keeps what the handler of core `q` has taken, or passes it on. -/
theorem Sys.Stepped.latches (h : Sys.Stepped c s r mv s') (hl : (s.cpu q).irq.Latches L v) :
    (s'.cpu q).irq.Latches L v ∨ q = r ∧ mv = .handler ∧ s.Delivers r v := by
  by_cases hq : q = r
  swap
  · rw [h.irq_of_ne hq]
    exact Or.inl hl
  subst hq
  have hhandler : ∀ {pc hw next}, (s.cpu q).irq = .handler pc → P.handlerStep q pc s.hw = (hw, next) →
      next.Latched L.latched v := by
    intro pc hw next hpc hstep
    rw [hpc] at hl
    have ht : (P.handlerStep q pc s.hw).2.Latched L.latched v := L.handler_latched hl
    rwa [hstep] at ht
  cases h with
  | boot => exact Or.inl (by rw [Sys.set_cpu_self]; exact hl)
  | task => exact Or.inl (by rw [Sys.set_cpu_self]; exact hl)
  | kickEnd => exact Or.inl (by rw [Sys.set_cpu_self]; exact hl)
  | kick => exact Or.inl (by rw [Sys.set_cpu_self]; exact hl)
  | notify => exact Or.inl (by rw [Sys.set_cpu_self]; exact hl)
  | otherIsr hpc hstep =>
    rcases hhandler hpc hstep with rfl | hl
    · exact Or.inr ⟨rfl, rfl, _, _, _, hpc, hstep⟩
    · exact Or.inl (by rw [Sys.set_cpu_self]; exact hl)
  | otherEnd hpc =>
    rw [hpc] at hl
    refine Or.inl ?_
    rw [Sys.set_cpu_self]
    dsimp only
    split
    · exact hl
    · exact hl
  | interrupt hidle =>
    rw [hidle] at hl
    exact absurd hl id
  | goto hpc hstep => exact Or.inl (by rw [Sys.set_cpu_self]; exact hhandler hpc hstep)
  | ignored hpc hstep =>
    rcases hhandler hpc hstep with rfl | hl
    · exact Or.inr ⟨rfl, rfl, _, _, _, hpc, hstep⟩
    · exact Or.inl (by rw [Sys.set_cpu_self]; exact hl)
  | rxCallback hpc hstep =>
    rcases hhandler hpc hstep with rfl | hl
    · exact Or.inr ⟨rfl, rfl, _, _, _, hpc, hstep⟩
    · exact Or.inl (by rw [Sys.set_cpu_self]; exact hl)
  | txCallback hpc hstep =>
    rcases hhandler hpc hstep with rfl | hl
    · exact Or.inr ⟨rfl, rfl, _, _, _, hpc, hstep⟩
    · exact Or.inl (by rw [Sys.set_cpu_self]; exact hl)
  | done hpc hstep => exact absurd (hhandler hpc hstep) id
  | rxKickEnd hpc =>
    rw [hpc] at hl
    exact Or.inl (by rw [Sys.set_cpu_self]; exact hl)
  | rxKick hpc =>
    rw [hpc] at hl
    exact Or.inl (by rw [Sys.set_cpu_self]; exact hl)
  | callback hpc =>
    rw [hpc] at hl
    refine Or.inl ?_
    rw [Sys.set_cpu_self]
    unfold rxCallbackNext
    dsimp only
    split
    · split
      · exact hl
      · exact hl
    · exact hl

/-- A step keeps a kick of its core, or takes the kick's own next step. -/
theorem Sys.Stepped.allKicks (h : Sys.Stepped c s r mv s') {k : Kick P.NotifyPc} (hk : k ∈ (s.cpu r).allKicks) :
    k ∈ (s'.cpu r).allKicks ∨ (∃ k', s.kickStep r k = (s'.hw, some k') ∧ k' ∈ (s'.cpu r).allKicks) ∨
      s.kickStep r k = (s'.hw, none) := by
  have hkeep : ∀ {x : Cpu P}, s'.cpu r = x → (∀ k ∈ (s.cpu r).kicks, k ∈ x.kicks) →
      (∀ k ∈ (s.cpu r).irq.kicks, k ∈ x.irq.kicks) → k ∈ (s'.cpu r).allKicks := by
    intro x hx h1 h2
    rw [hx]
    exact (List.mem_append.1 hk).elim (fun h => List.mem_append_left _ (h1 k h)) fun h => List.mem_append_right _ (h2 k h)
  have hnone : ∀ {pc}, (s.cpu r).irq = .handler pc → ∀ k ∈ (s.cpu r).irq.kicks, False := by
    intro pc hpc k hk
    rw [hpc] at hk
    cases hk
  cases h with
  | boot => exact Or.inl (hkeep Sys.set_cpu_self (fun _ h => h) fun _ h => h)
  | task => exact Or.inl (hkeep Sys.set_cpu_self (fun _ h => List.mem_append_left _ h) fun _ h => h)
  | kickEnd _ hi hstep =>
    rcases List.mem_append.1 hk with hk | hk
    · rcases mem_eraseIdx_or hi hk with rfl | hk
      · exact Or.inr (Or.inr hstep)
      · exact Or.inl (by rw [Sys.set_cpu_self]; exact List.mem_append_left _ hk)
    · exact Or.inl (by rw [Sys.set_cpu_self]; exact List.mem_append_right _ hk)
  | kick _ hi hstep =>
    rename_i i a k' hw _
    rcases List.mem_append.1 hk with hk | hk
    · rcases mem_set_or k' hi hk with rfl | hk
      · refine Or.inr (Or.inl ⟨k', hstep, ?_⟩)
        rw [Sys.set_cpu_self]
        exact List.mem_append_left _ (List.mem_set (List.getElem?_eq_some_iff.1 hi).1 k')
      · exact Or.inl (by rw [Sys.set_cpu_self]; exact List.mem_append_left _ hk)
    · exact Or.inl (by rw [Sys.set_cpu_self]; exact List.mem_append_right _ hk)
  | notify => exact Or.inl (hkeep Sys.set_cpu_self (fun _ h => List.mem_append_left _ h) fun _ h => h)
  | otherIsr hpc => exact Or.inl (hkeep Sys.set_cpu_self (fun _ h => h) fun k hk => (hnone hpc k hk).elim)
  | otherEnd hpc =>
    refine Or.inl (hkeep Sys.set_cpu_self (fun _ h => h) fun k hk => ?_)
    rw [hpc] at hk
    cases hk
  | interrupt hidle =>
    refine Or.inl (hkeep Sys.set_cpu_self (fun _ h => h) fun k hk => ?_)
    rw [hidle] at hk
    cases hk
  | goto hpc => exact Or.inl (hkeep Sys.set_cpu_self (fun _ h => h) fun k hk => (hnone hpc k hk).elim)
  | ignored hpc => exact Or.inl (hkeep Sys.set_cpu_self (fun _ h => h) fun k hk => (hnone hpc k hk).elim)
  | rxCallback hpc => exact Or.inl (hkeep Sys.set_cpu_self (fun _ h => h) fun k hk => (hnone hpc k hk).elim)
  | txCallback hpc => exact Or.inl (hkeep Sys.set_cpu_self (fun _ h => h) fun k hk => (hnone hpc k hk).elim)
  | done hpc => exact Or.inl (hkeep Sys.set_cpu_self (fun _ h => h) fun k hk => (hnone hpc k hk).elim)
  | rxKickEnd hpc hstep =>
    rcases List.mem_append.1 hk with hk | hk
    · exact Or.inl (by rw [Sys.set_cpu_self]; exact List.mem_append_left _ hk)
    · rw [hpc] at hk
      obtain rfl := List.mem_singleton.1 hk
      exact Or.inr (Or.inr hstep)
  | rxKick hpc hstep =>
    rcases List.mem_append.1 hk with hk | hk
    · exact Or.inl (by rw [Sys.set_cpu_self]; exact List.mem_append_left _ hk)
    · rw [hpc] at hk
      obtain rfl := List.mem_singleton.1 hk
      refine Or.inr (Or.inl ⟨_, hstep, ?_⟩)
      rw [Sys.set_cpu_self]
      exact List.mem_append_right _ List.mem_cons_self
  | callback hpc =>
    refine Or.inl (hkeep Sys.set_cpu_self (fun _ h => h) fun k hk => ?_)
    rw [hpc] at hk
    cases hk

/-- What a step does to the link. -/
theorem Sys.Stepped.link (h : Sys.Stepped c s r mv s') :
    s'.link = s.link ∨ ∃ a, s.link.step c.link r a = some s'.link := by
  cases h with
  | task _ hs => exact Or.inr ⟨_, by simpa using hs⟩
  | callback _ hs => exact Or.inr ⟨_, by simpa using hs⟩
  | txCallback _ _ _ _ _ hs => exact Or.inr ⟨_, hs⟩
  | boot => exact Or.inl rfl
  | kickEnd => exact Or.inl rfl
  | kick => exact Or.inl rfl
  | interrupt => exact Or.inl rfl
  | goto => exact Or.inl rfl
  | ignored => exact Or.inl rfl
  | rxCallback => exact Or.inl rfl
  | done => exact Or.inl rfl
  | rxKickEnd => exact Or.inl rfl
  | rxKick => exact Or.inl rfl
  | otherIsr => exact Or.inl rfl
  | notify => exact Or.inl rfl
  | otherEnd => exact Or.inl rfl

theorem Sys.Stepped.vector (h : Sys.Stepped c s r mv s') (q : Role) (z : Queue) :
    (s'.dev q).vector z = (s.dev q).vector z := by
  rcases h.link with hl | ⟨a, hs⟩
  · unfold Sys.dev
    rw [hl]
  · exact (Link.step_sameQueues hs q).vector z

/-- A vector on its way stays on its way until `env_isr` is called with it. -/
theorem Sys.Stepped.noted (h : Sys.Stepped c s r mv s')
    (hmust : ∀ r z, vqRingMustNotifyHost ((s.dev r).queue z) s.link.m = true) (hv : L.valid v) (hn : s.Noted L q v) :
    s'.Noted L q v ∨ q = r ∧ mv = .handler ∧ s.Delivers r v := by
  have hbrings : ∀ {k : Kick P.NotifyPc}, k.Brings L (s.dev q.peer) v → k.Brings L (s'.dev q.peer) v := by
    rintro k ⟨⟨z, hz, hvec⟩, hsending⟩
    exact ⟨⟨z, hz, (h.vector q.peer z).trans hvec⟩, hsending⟩
  rcases hn with hp | ⟨k, hk, hb⟩ | hl
  · rcases h.posted hp with hp | hl | hd
    · exact Or.inl (Or.inl hp)
    · exact Or.inl (Or.inr (Or.inr hl))
    · exact Or.inr hd
  · refine Or.inl ?_
    by_cases hq : q.peer = r
    · subst hq
      rcases h.allKicks hk with hk | ⟨k', hstep, hk'⟩ | hstep
      · exact Or.inr (Or.inl ⟨k, hk, hbrings hb⟩)
      · rcases Sys.kickStep_brings (hmust _) hv hb with ⟨k₂, hnext, hb'⟩ | hp
        · rw [hstep] at hnext
          cases hnext
          exact Or.inr (Or.inl ⟨k', hk', hbrings hb'⟩)
        · rw [hstep, Role.peer_peer] at hp
          exact Or.inl hp
      · rcases Sys.kickStep_brings (hmust _) hv hb with ⟨k₂, hnext, -⟩ | hp
        · rw [hstep] at hnext
          cases hnext
        · rw [hstep, Role.peer_peer] at hp
          exact Or.inl hp
    · exact Or.inr (Or.inl ⟨k, by rw [h.other hq]; exact hk, hbrings hb⟩)
  · rcases h.latches hl with hl | hd
    · exact Or.inl (Or.inr (Or.inr hl))
    · exact Or.inr hd

/-! ## The receive queue -/

/-- Nothing is in the receive queue of core `q`, or the receive callback runs, or its vector is on the way. -/
def Sys.Covered (L : P.Carries) (s : Sys P) (q : Role) : Prop :=
  s.link.queueIds q.peer = [] ∨ (∃ freed pc, (s.cpu q).irq = .rxCallback freed pc) ∨ s.Noted L q ((s.dev q).vector .rvq)

variable {W : Pools}

/-- Only a task's enqueue puts something into an empty receive queue, and its kick is on the way. -/
theorem Sys.Stepped.fills (h : Sys.Stepped c s r mv s') (hn : s.link.Notifying W)
    (hpay : ∀ r, c.link.payloadSize + 16 ≤ (W.pool r).size) (hq : s.link.queueIds q.peer = [])
    (hq' : s'.link.queueIds q.peer ≠ []) : s'.Noted L q ((s.dev q).vector .rvq) := by
  obtain ⟨P₀, hinv⟩ := hn.inv
  have hsame : s'.link ≠ s.link := fun he => hq' (by rw [he]; exact hq)
  cases h with
  | task _ hs =>
    rename_i a l _
    obtain ⟨rfl, hsent⟩ := hinv.queue_fills hpay hs hq (by simpa using hq')
    refine Or.inr (Or.inl ⟨⟨some .tvq, none⟩, ?_, ?_⟩)
    · rw [Sys.set_cpu_self]
      refine List.mem_append_left _ (List.mem_append_right _ ?_)
      unfold Sys.kicked
      rw [if_pos hsent]
      exact List.mem_cons_self
    · have hsq := Link.step_sameQueues hs q.peer
      refine ⟨⟨.tvq, rfl, ?_⟩, fun pc hpc => by cases hpc⟩
      simp only [Sys.dev, Sys.set_link, Sys.messaged_link]
      rw [hsq.vector .tvq]
      exact hn.wired.across q .rvq
  | callback _ hs =>
    obtain ⟨rfl, hsent⟩ := hinv.queue_fills hpay hs hq (by simpa using hq')
    obtain ⟨x, m', ha, rfl⟩ := Link.step_cases hs
    simp only [Function.update_self] at hsent
    rw [Side.rxStep_tx ha] at hsent
    exact absurd rfl hsent
  | txCallback _ _ _ _ _ hs =>
    obtain ⟨rfl, hsent⟩ := hinv.queue_fills hpay hs hq hq'
    obtain ⟨x, m', ha, rfl⟩ := Link.step_cases hs
    cases ha
    simp only [Function.update_self] at hsent
    exact absurd rfl hsent
  | boot => exact absurd rfl hsame
  | kickEnd => exact absurd rfl hsame
  | kick => exact absurd rfl hsame
  | interrupt => exact absurd rfl hsame
  | goto => exact absurd rfl hsame
  | ignored => exact absurd rfl hsame
  | rxCallback => exact absurd rfl hsame
  | done => exact absurd rfl hsame
  | rxKickEnd => exact absurd rfl hsame
  | rxKick => exact absurd rfl hsame
  | otherIsr => exact absurd rfl hsame
  | notify => exact absurd rfl hsame
  | otherEnd => exact absurd rfl hsame

/-- The receive callback runs on until `vq_rx` finds its queue empty. -/
theorem Sys.Stepped.drains (h : Sys.Stepped c s r mv s') (hn : s.link.Notifying W)
    (hpay : ∀ r, c.link.payloadSize + 16 ≤ (W.pool r).size) {freed : Bool} {pc : P.HandlerPc}
    (hirq : (s.cpu q).irq = .rxCallback freed pc) :
    s'.link.queueIds q.peer = [] ∨ ∃ freed pc, (s'.cpu q).irq = .rxCallback freed pc := by
  by_cases hq : q = r
  swap
  · exact Or.inr ⟨freed, pc, (h.irq_of_ne hq).trans hirq⟩
  subst hq
  obtain ⟨P₀, hinv⟩ := hn.inv
  rcases h.rxCallback_cases hirq with hirq' | ⟨a, hs, hirq'⟩
  · exact Or.inr ⟨freed, pc, hirq'⟩
  unfold rxCallbackNext at hirq'
  dsimp only at hirq'
  split at hirq'
  · rename_i hend
    obtain ⟨rfl, hidle⟩ := hend
    exact Or.inl (hinv.rx_empty hpay hs hidle)
  · exact Or.inr ⟨_, pc, hirq'⟩

/-- A delivered vector starts the callback of the virtqueue registered for it. -/
theorem Sys.Stepped.delivered (h : Sys.Stepped c s r .handler s') (hd : s.Delivers r v) {z : Queue}
    (hisr : (s.cpu r).isr.isrTable v = some z) :
    ((s.dev r).queue z).callback = .rxCallback ∧ (∃ pc, (s'.cpu r).irq = .rxCallback false pc) ∨
      ((s.dev r).queue z).callback = .txCallback ∧ (s'.cpu r).unwoken = false := by
  obtain ⟨pc, hw, pc', hpc, hstep⟩ := hd
  have hhandler : ∀ {pc₁ hw₁ next}, (s.cpu r).irq = .handler pc₁ → P.handlerStep r pc₁ s.hw = (hw₁, next) →
      next = .envIsr v pc' := by
    intro pc₁ hw₁ next hpc₁ hstep₁
    rw [hpc] at hpc₁
    cases hpc₁
    rw [hstep] at hstep₁
    cases hstep₁
    rfl
  cases h with
  | goto hpc₁ hstep₁ => cases hhandler hpc₁ hstep₁
  | ignored hpc₁ hstep₁ _ hisr₁ =>
    cases hhandler hpc₁ hstep₁
    rw [hisr] at hisr₁
    cases hisr₁
  | rxCallback hpc₁ hstep₁ _ hisr₁ hq =>
    cases hhandler hpc₁ hstep₁
    rw [hisr] at hisr₁
    cases hisr₁
    exact Or.inl ⟨hq, _, by rw [Sys.set_cpu_self]⟩
  | txCallback hpc₁ hstep₁ _ hisr₁ hq =>
    cases hhandler hpc₁ hstep₁
    rw [hisr] at hisr₁
    cases hisr₁
    exact Or.inr ⟨hq, by rw [Sys.set_cpu_self]⟩
  | done hpc₁ hstep₁ => cases hhandler hpc₁ hstep₁
  | otherIsr hpc₁ hstep₁ _ hisr₁ =>
    cases hhandler hpc₁ hstep₁
    rw [hisr] at hisr₁
    cases hisr₁
  | rxKickEnd hpc₁ => rw [hpc] at hpc₁; cases hpc₁
  | rxKick hpc₁ => rw [hpc] at hpc₁; cases hpc₁

/-- A step keeps a receive queue covered, if its vector is not delivered before the virtqueue is registered. -/
theorem Sys.Stepped.covered (h : Sys.Stepped c s r mv s') (hn : s.link.Notifying W)
    (hpay : ∀ r, c.link.payloadSize + 16 ≤ (W.pool r).size) (hv : L.valid ((s.dev q).vector .rvq))
    (hreg : q = r → mv = .handler → s.Delivers r ((s.dev q).vector .rvq) →
      (s.cpu r).isr.isrTable ((s.dev q).vector .rvq) = some .rvq)
    (hc : s.Covered L q) : s'.Covered L q := by
  unfold Sys.Covered
  rw [h.vector]
  by_cases hq' : s'.link.queueIds q.peer = []
  · exact Or.inl hq'
  refine Or.inr ?_
  rcases hc with hq | ⟨freed, pc, hirq⟩ | hnoted
  · exact Or.inr (h.fills hn hpay hq hq')
  · exact Or.inl ((h.drains hn hpay hirq).resolve_left hq')
  · rcases h.noted (fun r z => hn.must r z) hv hnoted with hnoted | ⟨rfl, rfl, hd⟩
    · exact Or.inr hnoted
    · rcases h.delivered hd (hreg rfl rfl hd) with ⟨-, pc, hirq⟩ | ⟨hcb, -⟩
      · exact Or.inl ⟨false, pc, hirq⟩
      · have hrx := hn.wired.rvq q
        change ((s.dev q).rvq).callback = _ at hrx
        change ((s.dev q).rvq).callback = _ at hcb
        rw [hrx] at hcb
        cases hcb

/-! ## Freed buffers -/

/-- No buffer was freed since the last transmit callback of core `q`, or the peer's receive callback will
kick, or the vector of the transmit queue is on the way. -/
def Sys.WakeCovered (L : P.Carries) (s : Sys P) (q : Role) : Prop :=
  (s.cpu q).unwoken = false ∨ (∃ pc, (s.cpu q.peer).irq = .rxCallback true pc) ∨ s.Noted L q ((s.dev q).vector .tvq)

theorem Sys.kicked_release {a : RxAct} {l : Link} (hfree : c.notifyFreed = true) (ha : (Act.rx a).frees = true)
    (hs : s.link.step c.link r (.rx a) = some l) : s.kicked c r (.rx a) l = [⟨some .rvq, none⟩] := by
  obtain ⟨x, m', hx, rfl⟩ := Link.step_cases hs
  unfold Sys.kicked
  simp only [Function.update_self]
  rw [Side.rxStep_tx hx, if_neg (fun h => h rfl), ha, hfree]
  rfl

theorem Act.frees_rx {a : Act} (ha : a.frees = true) : ∃ b, a = .rx b ∧ b ≠ .rx := by
  cases a with
  | rx b => exact ⟨b, rfl, fun hb => by subst hb; cases ha⟩
  | tx => cases ha
  | txCallback => cases ha

/-- What brings a vector of core `q` is a kick of the virtqueue across. -/
theorem Link.Wired.kicking (h : s.link.Wired) {z : Queue} (hn : s.Noted L q ((s.dev q).vector z)) :
    L.posted ((s.dev q).vector z) q s.hw ∨ s.Kicking q.peer z.across ∨ (s.cpu q).irq.Latches L ((s.dev q).vector z) := by
  refine hn.imp_right fun hn => hn.imp_left fun ⟨k, hk, hb⟩ => ⟨k, hk, ?_⟩
  obtain ⟨z', hz', hvec⟩ := hb.vector
  have hvec : (s.dev q.peer).vector z' = (s.dev q.peer).vector z.across := hvec.trans (h.across q z).symm
  -- the two virtqueues of a core have different vectors
  have hne : (s.dev q.peer).vector .rvq ≠ (s.dev q.peer).vector .tvq := h.distinct q.peer
  rw [hz']
  cases z with
  | rvq =>
    cases z' with
    | rvq => exact absurd hvec hne
    | tvq => rfl
  | tvq =>
    cases z' with
    | rvq => rfl
    | tvq => exact absurd hvec.symm hne

/-- A kick on the receive queue brings the vector of the peer's transmit queue. -/
theorem Link.Wired.brings_rvq {l : Link} (h : l.Wired) (q : Role) :
    Kick.Brings L (l.side q.peer).dev ((l.side q).dev.vector .tvq) ⟨some .rvq, none⟩ :=
  ⟨⟨.rvq, rfl, h.across q .tvq⟩, fun pc hpc => by cases hpc⟩

/-- No step of a core tells it that buffers were freed. -/
theorem Sys.Stepped.unwoken_self (h : Sys.Stepped c s r mv s') (hu : (s.cpu r).unwoken = false) :
    (s'.cpu r).unwoken = false := by
  cases h with
  | boot => rw [Sys.set_cpu_self]; exact hu
  | task => rw [Sys.set_cpu_self]; exact hu
  | kickEnd => rw [Sys.set_cpu_self]; exact hu
  | kick => rw [Sys.set_cpu_self]; exact hu
  | interrupt => rw [Sys.set_cpu_self]; exact hu
  | goto => rw [Sys.set_cpu_self]; exact hu
  | ignored => rw [Sys.set_cpu_self]; exact hu
  | rxCallback => rw [Sys.set_cpu_self]; exact hu
  | txCallback => rw [Sys.set_cpu_self]
  | done => rw [Sys.set_cpu_self]; exact hu
  | rxKickEnd => rw [Sys.set_cpu_self]; exact hu
  | rxKick => rw [Sys.set_cpu_self]; exact hu
  | callback => rw [Sys.set_cpu_self]; exact hu
  | otherIsr => rw [Sys.set_cpu_self]; exact hu
  | notify => rw [Sys.set_cpu_self]; exact hu
  | otherEnd => rw [Sys.set_cpu_self]; exact hu

/-- A receive callback that has freed a buffer ends with a kick. -/
theorem Sys.Stepped.freed (h : Sys.Stepped c s r mv s') (hfree : c.notifyFreed = true) {pc : P.HandlerPc}
    (hirq : (s.cpu r).irq = .rxCallback true pc) :
    (∃ pc, (s'.cpu r).irq = .rxCallback true pc) ∨ ⟨some .rvq, none⟩ ∈ (s'.cpu r).allKicks := by
  rcases h.rxCallback_cases hirq with hirq' | ⟨a, -, hirq'⟩
  · exact Or.inl ⟨pc, hirq'⟩
  unfold rxCallbackNext at hirq'
  dsimp only at hirq'
  split at hirq'
  · rw [hfree] at hirq'
    exact Or.inr (List.mem_append_right _ (by rw [hirq']; exact List.mem_cons_self))
  · exact Or.inl ⟨pc, hirq'⟩

/-- A step keeps the freed buffers covered, if the vector of the transmit queue is registered. -/
theorem Sys.Stepped.wakeCovered (h : Sys.Stepped c s r mv s') (hn : s.link.Notifying W) (hfree : c.notifyFreed = true)
    (hv : L.valid ((s.dev q).vector .tvq))
    (hreg : q = r → mv = .handler → s.Delivers r ((s.dev q).vector .tvq) →
      (s.cpu r).isr.isrTable ((s.dev q).vector .tvq) = some .tvq)
    (hc : s.WakeCovered L q) : s'.WakeCovered L q := by
  unfold Sys.WakeCovered
  have hwired : s'.link.Wired := by
    rcases h.link with hl | ⟨a, hs⟩
    · rw [hl]; exact hn.wired
    · exact hn.wired.step hs
  -- a kick on the peer's receive queue is enough
  have hkick : (⟨some .rvq, none⟩ : Kick P.NotifyPc) ∈ (s'.cpu q.peer).allKicks → s'.Noted L q ((s'.dev q).vector .tvq) :=
    fun hk => Or.inr (Or.inl ⟨_, hk, hwired.brings_rvq q⟩)
  by_cases hu' : (s'.cpu q).unwoken = false
  · exact Or.inl hu'
  refine Or.inr ?_
  rcases hc with hu | ⟨pc, hirq⟩ | hnoted
  · -- this step is the peer's and frees a buffer
    by_cases hq : q = r
    · subst hq
      exact absurd (h.unwoken_self hu) hu'
    obtain rfl : r = q.peer := by
      rcases r.eq_or_peer q with rfl | rfl
      · exact absurd rfl hq
      · rw [Role.peer_peer]
    have hfrees : mv.frees = true := by
      rw [h.other hq, hu] at hu'
      simpa using hu'
    cases h with
    | task _ hs =>
      obtain ⟨b, rfl, -⟩ := Act.frees_rx hfrees
      refine Or.inr (hkick ?_)
      rw [Sys.set_cpu_self, Sys.kicked_release hfree hfrees hs]
      exact List.mem_append_left _ (List.mem_append_right _ List.mem_cons_self)
    | callback =>
      rename_i freed pc a l _ _
      obtain ⟨b, hb, hne⟩ := Act.frees_rx hfrees
      cases hb
      refine Or.inl ⟨pc, ?_⟩
      rw [Sys.set_cpu_self]
      unfold rxCallbackNext
      rw [if_neg (fun h => hne h.1), show (Act.rx a).frees = true from hfrees, Bool.or_true]
    | boot => cases hfrees
    | kickEnd => cases hfrees
    | kick => cases hfrees
    | interrupt => cases hfrees
    | goto => cases hfrees
    | ignored => cases hfrees
    | rxCallback => cases hfrees
    | txCallback => cases hfrees
    | done => cases hfrees
    | otherIsr => cases hfrees
    | notify => cases hfrees
    | otherEnd => cases hfrees
    | rxKickEnd => cases hfrees
    | rxKick => cases hfrees
  · by_cases hq : q.peer = r
    swap
    · exact Or.inl ⟨pc, (h.irq_of_ne hq).trans hirq⟩
    subst hq
    rcases h.freed hfree hirq with ⟨pc, hirq⟩ | hk
    · exact Or.inl ⟨pc, hirq⟩
    · exact Or.inr (hkick hk)
  · rw [h.vector]
    rcases h.noted (fun r z => hn.must r z) hv hnoted with hnoted | ⟨rfl, rfl, hd⟩
    · exact Or.inr hnoted
    · rcases h.delivered hd (hreg rfl rfl hd) with ⟨hcb, -⟩ | ⟨-, hu⟩
      · have htx := hn.wired.tvq q
        change ((s.dev q).tvq).callback = _ at htx
        change ((s.dev q).tvq).callback = _ at hcb
        rw [htx] at hcb
        cases hcb
      · exact absurd hu hu'

/-! ## Runs after both initialisations -/

/-- Both cores have installed their interrupt service routines. -/
structure Sys.Installed (s : Sys P) : Prop where
  boot : ∀ r, (s.cpu r).boot = []
  isr : ∀ r z, (s.cpu r).isr.isrTable ((s.dev r).vector z) = some z

theorem Sys.Stepped.isr_of_booted (h : Sys.Stepped c s r mv s') (hb : (s.cpu r).boot = []) :
    (s'.cpu r).boot = [] ∧ (s'.cpu r).isr = (s.cpu r).isr := by
  cases h with
  | boot hboot => rw [hb] at hboot; cases hboot
  | task => rw [Sys.set_cpu_self]; exact ⟨hb, rfl⟩
  | kickEnd => rw [Sys.set_cpu_self]; exact ⟨hb, rfl⟩
  | kick => rw [Sys.set_cpu_self]; exact ⟨hb, rfl⟩
  | interrupt => rw [Sys.set_cpu_self]; exact ⟨hb, rfl⟩
  | goto => rw [Sys.set_cpu_self]; exact ⟨hb, rfl⟩
  | ignored => rw [Sys.set_cpu_self]; exact ⟨hb, rfl⟩
  | rxCallback => rw [Sys.set_cpu_self]; exact ⟨hb, rfl⟩
  | txCallback => rw [Sys.set_cpu_self]; exact ⟨hb, rfl⟩
  | done => rw [Sys.set_cpu_self]; exact ⟨hb, rfl⟩
  | rxKickEnd => rw [Sys.set_cpu_self]; exact ⟨hb, rfl⟩
  | rxKick => rw [Sys.set_cpu_self]; exact ⟨hb, rfl⟩
  | callback => rw [Sys.set_cpu_self]; exact ⟨hb, rfl⟩
  | otherIsr => rw [Sys.set_cpu_self]; exact ⟨hb, rfl⟩
  | notify => rw [Sys.set_cpu_self]; exact ⟨hb, rfl⟩
  | otherEnd => rw [Sys.set_cpu_self]; exact ⟨hb, rfl⟩

theorem Sys.Stepped.installed (h : Sys.Stepped c s r mv s') (hi : s.Installed) : s'.Installed := by
  have hcpu : ∀ q, (s'.cpu q).boot = [] ∧ (s'.cpu q).isr = (s.cpu q).isr := by
    intro q
    by_cases hq : q = r
    · subst hq
      exact h.isr_of_booted (hi.boot q)
    · rw [h.other hq]
      exact ⟨hi.boot q, rfl⟩
  exact ⟨fun q => (hcpu q).1, fun q z => by rw [(hcpu q).2, h.vector]; exact hi.isr q z⟩

theorem Sys.Stepped.notifying (h : Sys.Stepped c s r mv s') (hn : s.link.Notifying W)
    (hpay : ∀ r, c.link.payloadSize + 16 ≤ (W.pool r).size) : s'.link.Notifying W := by
  rcases h.link with hl | ⟨a, hs⟩
  · rw [hl]
    exact hn
  · exact hn.step hpay hs

/-- Both receive queues are covered, and so are the freed buffers if they are notified. -/
structure Sys.AllCovered (L : P.Carries) (W : Pools) (c : SysConfig) (s : Sys P) : Prop where
  notifying : s.link.Notifying W
  installed : s.Installed
  valid : ∀ q z, L.valid ((s.dev q).vector z)
  rvq : ∀ q, s.Covered L q
  tvq : c.notifyFreed = true → ∀ q, s.WakeCovered L q

theorem Sys.Stepped.allCovered (h : Sys.Stepped c s r mv s') (hpay : ∀ r, c.link.payloadSize + 16 ≤ (W.pool r).size)
    (hs : s.AllCovered L W c) : s'.AllCovered L W c := by
  refine ⟨h.notifying hs.notifying hpay, h.installed hs.installed, fun q z => ?_, fun q => ?_, fun hfree q => ?_⟩
  · rw [h.vector]
    exact hs.valid q z
  · refine h.covered hs.notifying hpay (hs.valid q .rvq) (fun hq _ _ => ?_) (hs.rvq q)
    subst hq
    exact hs.installed.isr q .rvq
  · refine h.wakeCovered hs.notifying hfree (hs.valid q .tvq) (fun hq _ _ => ?_) (hs.tvq hfree q)
    subst hq
    exact hs.installed.isr q .tvq

/-- In every run of two initialised cores the queues stay covered. -/
theorem Sys.Reachable.allCovered {ok : Sys P → Role → Move → Prop} {s₀ : Sys P} (h : Sys.Reachable c ok s₀ s)
    (hpay : ∀ r, c.link.payloadSize + 16 ≤ (W.pool r).size) (h₀ : s₀.AllCovered L W c) : s.AllCovered L W c :=
  h.invariant h₀ fun _ _ _ _ hs _ hstep => (Sys.step_cases hstep).allCovered hpay hs

end

end RpmsgLite
