/-
The endpoint machine refines the finite map with its dispatcher: in every state of every run the list
holds the map's entries, and the log is one of the map's.
-/
import RpmsgLite.Ept.Dispatch
import RpmsgLite.Link.Delivery

namespace RpmsgLite

/-! ## The map of a list -/

def EptEntry.binding (x : EptEntry) : EptBinding := ⟨x.ptr, x.ept.rxCb, x.ept.rxCbData⟩

def mapOf (L : List EptEntry) : EptMap := fun a => (L.find? fun x => x.addr = a).map EptEntry.binding

section

variable {L A B : List EptEntry} {x : EptEntry} {a : UInt32} {b : EptBinding}

theorem mapOf_ne_none : mapOf L a ≠ none ↔ Used L a := by
  unfold mapOf Used
  rw [Ne, Option.map_eq_none_iff, List.find?_eq_none, List.mem_map]
  simp

theorem used_eq (L : List EptEntry) : (fun a => mapOf L a ≠ none) = Used L := funext fun _ => propext mapOf_ne_none

/-- With distinct addresses the map has exactly the entries. -/
theorem mapOf_eq_some (hn : (L.map EptEntry.addr).Nodup) : mapOf L a = some b ↔ ∃ x ∈ L, x.addr = a ∧ x.binding = b := by
  unfold mapOf
  rw [Option.map_eq_some_iff]
  constructor
  · rintro ⟨x, hx, hb⟩
    exact ⟨x, List.mem_of_find?_eq_some hx, by simpa using List.find?_some hx, hb⟩
  · rintro ⟨x, hx, rfl, hb⟩
    refine ⟨x, ?_, hb⟩
    cases hf : L.find? fun y => y.addr = x.addr with
    | none => simpa using List.find?_eq_none.1 hf x hx
    | some y =>
      have hy := List.find?_some hf
      rw [decide_eq_true_iff] at hy
      rw [List.inj_on_of_nodup_map hn (List.mem_of_find?_eq_some hf) hx hy]

theorem mapOf_cons (x : EptEntry) (L : List EptEntry) : mapOf (x :: L) = Function.update (mapOf L) x.addr (some x.binding) := by
  funext a
  by_cases ha : a = x.addr
  · subst ha
    rw [Function.update_self, mapOf, List.find?_cons_of_pos (by simp)]
    rfl
  · rw [Function.update_of_ne ha, mapOf, List.find?_cons_of_neg (by simpa using fun h => ha h.symm)]
    rfl

theorem mapOf_remove (hn : ((A ++ x :: B).map EptEntry.addr).Nodup) :
    mapOf (A ++ B) = Function.update (mapOf (A ++ x :: B)) x.addr none := by
  have hsub : (A ++ B).Sublist (A ++ x :: B) := (List.sublist_cons_self x B).append_left A
  have hn' := hn.sublist (hsub.map _)
  have hx : x.addr ∉ (A ++ B).map EptEntry.addr := by
    rw [List.map_append, List.map_cons, List.nodup_middle, ← List.map_append] at hn
    exact (List.nodup_cons.1 hn).1
  funext a
  by_cases ha : a = x.addr
  · subst ha
    rw [Function.update_self]
    by_contra hne
    exact hx (mapOf_ne_none.1 hne)
  · rw [Function.update_of_ne ha]
    refine Option.ext fun b => ?_
    rw [mapOf_eq_some hn', mapOf_eq_some hn]
    constructor
    · rintro ⟨y, hy, he, hb⟩
      exact ⟨y, hsub.subset hy, he, hb⟩
    · rintro ⟨y, hy, he, hb⟩
      refine ⟨y, ?_, he, hb⟩
      rcases List.mem_append.1 hy with hy | hy
      · exact List.mem_append_left _ hy
      · rcases List.mem_cons.1 hy with rfl | hy
        · exact absurd he.symm ha
        · exact List.mem_append_right _ hy

end

/-! ## The representation -/

/-- The list holds the entries `L`, which are the map's, and the application knows their endpoints. -/
structure EptSystem.Represents (static : Bool) (s : EptSystem) (M : EptMap) (L : List EptEntry) : Prop where
  holds : s.table.Holds L
  map : M = mapOf L
  epts : s.epts.Perm (L.map EptEntry.ptr)
  ptrs : (L.map EptEntry.ptr).Nodup
  ne : ∀ x ∈ L, x.ptr ≠ 0
  static : static = true → ∀ x ∈ L, x.node = x.ptr

section

variable {c : EptConfig} {s s' : EptSystem} {M : EptMap} {L : List EptEntry} {t : List EptEvent} {fuel : Nat}

theorem EptSystem.Represents.unused (h : s.Represents c.static M L) {mem : EptMem}
    (hmem : mem.fits c.static s.table s.epts = true) :
    mem.Unused s.table L := by
  cases mem with
  | static context =>
    intro hne
    simp only [EptMem.fits, Bool.and_eq_true, Bool.or_eq_true, beq_iff_eq, Bool.not_eq_true'] at hmem
    obtain ⟨hst, h0 | ⟨hsome, hnot⟩⟩ := hmem
    · exact absurd h0 hne
    have hptr : context ∉ L.map EptEntry.ptr := fun hm => by
      have := h.epts.mem_iff.2 hm
      simp [this] at hnot
    refine ⟨hsome, fun hm => hptr ?_, hptr⟩
    obtain ⟨x, hx, rfl⟩ := List.mem_map.1 hm
    rw [h.static hst x hx]
    exact List.mem_map_of_mem hx
  | dynamic ept node old =>
    simp only [EptMem.fits, Bool.and_eq_true, Bool.or_eq_true, beq_iff_eq, Option.isNone_iff_eq_none] at hmem
    exact ⟨fun hne => hmem.1.2.resolve_left hne, fun hne => hmem.2.resolve_left hne⟩

/-- The endpoint of a create that got its memory; in a static context the node is beside it. -/
theorem EptMem.ptrs_some {mem : EptMem} {static : Bool} {T : EptTable} {epts : List Nat} {ept node : Nat}
    (h : mem.ptrs = some (ept, node)) (hmem : mem.fits static T epts = true) : ept ≠ 0 ∧ (static = true → node = ept) := by
  cases mem with
  | static context =>
    simp only [EptMem.ptrs] at h
    split at h
    · cases h
    · rename_i hne
      cases h
      exact ⟨hne, fun _ => rfl⟩
  | dynamic e n old =>
    simp only [EptMem.fits, Bool.and_eq_true, Bool.not_eq_true'] at hmem
    simp only [EptMem.ptrs] at h
    split at h
    · cases h
    · rename_i hne
      cases h
      exact ⟨fun h0 => hne (Or.inl h0), fun hst => by rw [hmem.1.1] at hst; cases hst⟩

/-! ## The fuel plays no part -/

section

variable {T : EptTable} {fuel fuel' : Nat}
  (h : ∀ a, rpmsgLiteGetEndpointFromAddr fuel T a = rpmsgLiteGetEndpointFromAddr fuel' T a)

include h

theorem findFreeAddr_fuel (n : Nat) (i : UInt32) : findFreeAddr fuel T n i = findFreeAddr fuel' T n i := by
  induction n generalizing i with
  | zero => rfl
  | succ n ih => simp only [findFreeAddr, h, ih]

theorem rpmsgLiteCreateEpt_fuel (addr : UInt32) (rxCb rxCbData : Nat) (mem : EptMem) :
    rpmsgLiteCreateEpt fuel T addr rxCb rxCbData mem = rpmsgLiteCreateEpt fuel' T addr rxCb rxCbData mem := by
  simp only [rpmsgLiteCreateEpt, createEptPrepare, chooseAddr, findFreeAddr_fuel h, h]

theorem rpmsgLiteDestroyEpt_fuel (static : Bool) (ept : Nat) :
    rpmsgLiteDestroyEpt fuel T static ept = rpmsgLiteDestroyEpt fuel' T static ept := by
  simp only [rpmsgLiteDestroyEpt, destroyEptFind, h]

end

theorem EptSystem.Represents.step_fuel (h : s.Represents c.static M L) {fuel fuel' : Nat} (h1 : L.length ≤ fuel)
    (h2 : L.length ≤ fuel') (a : EptAct) : s.step c fuel a = s.step c fuel' a := by
  have hget : ∀ a, rpmsgLiteGetEndpointFromAddr fuel s.table a = rpmsgLiteGetEndpointFromAddr fuel' s.table a := fun a => by
    rw [h.holds.get h1, h.holds.get h2]
  cases a with
  | createEpt addr rxCb rxCbData mem => simp only [EptSystem.step, rpmsgLiteCreateEpt_fuel hget]
  | destroyEpt i => simp only [EptSystem.step, rpmsgLiteDestroyEpt_fuel hget]
  | rx => simp only [EptSystem.step, hget]
  | ret cbRet => rfl
  | other rvq tvq m => rfl

/-! ## One step -/

/-- A call that the application may make, or a step of the callback where it stands. -/
def EptSystem.Enabled (c : EptConfig) (s : EptSystem) : EptAct → Prop
  | .createEpt _ _ _ mem => mem.fits c.static s.table s.epts = true
  | .destroyEpt i => i < s.epts.length
  | .rx => s.turn = none
  | .ret _ => s.turn ≠ none
  | .other _ _ _ => True

/-- The state after a step and the map it represents. -/
structure EptSystem.Refined (c : EptConfig) (s' : EptSystem) (M' : EptMap) (L' : List EptEntry) : Prop where
  represents : s'.Represents c.static M' L'
  run : MapRun s'.trace M' s'.turn

/-- Adding an entry in front. -/
theorem EptSystem.Represents.push (h : s.Represents c.static M L) {x : EptEntry} (hhold : s'.table.Holds (x :: L))
    (hepts : s'.epts = s.epts ++ [x.ptr]) (hnew : x.ptr ∉ L.map EptEntry.ptr) (hne : x.ptr ≠ 0)
    (hst : c.static = true → x.node = x.ptr) :
    s'.Represents c.static (Function.update M x.addr (some x.binding)) (x :: L) := by
  refine ⟨hhold, by rw [h.map, mapOf_cons], ?_, List.nodup_cons.2 ⟨hnew, h.ptrs⟩, ?_, ?_⟩
  · rw [hepts]
    exact (List.perm_append_singleton _ _).trans (h.epts.cons _)
  · rintro y hy
    rcases List.mem_cons.1 hy with rfl | hy
    · exact hne
    · exact h.ne y hy
  · rintro hs y hy
    rcases List.mem_cons.1 hy with rfl | hy
    · exact hst hs
    · exact h.static hs y hy

theorem EptSystem.Refined.create (h : s.Refined c M L) (hh : s.halted = false) {addr : UInt32} {rxCb rxCbData : Nat} {mem : EptMem}
    (hmem : mem.fits c.static s.table s.epts = true) :
    ∃ s', s.step c L.length (.createEpt addr rxCb rxCbData mem) = some s' ∧ ∃ M' L', s'.Refined c M' L' := by
  have hrep := h.represents
  obtain ⟨a, r, T', hcreate, hchosen, hres⟩ :=
    rpmsgLiteCreateEpt_spec hrep.holds le_rfl (hrep.unused hmem) addr rxCb rxCbData
  have hchosen' : Chosen (fun a => M a ≠ none) addr a := by rw [hrep.map, used_eq]; exact hchosen
  refine ⟨_, by simp only [EptSystem.step, hh, hmem, hcreate]; rfl, ?_⟩
  rcases hres with ⟨hfail, rfl, rfl⟩ | ⟨b, node, rfl, hptrs, hfresh, hhold⟩
  · refine ⟨M, L, ⟨hrep.holds, hrep.map, hrep.epts, hrep.ptrs, hrep.ne, hrep.static⟩, ?_⟩
    refine .createFails h.run ?_
    rcases hfail with rfl | hfail
    · exact Or.inl hchosen'
    · exact Or.inr (by rw [hfail]; rfl)
  · obtain ⟨hne, hst⟩ := EptMem.ptrs_some hptrs hmem
    refine ⟨_, _, hrep.push hhold (if_neg hne) hfresh hne hst, ?_⟩
    rw [hptrs]
    exact .creates h.run hchosen' hne

theorem EptSystem.Refined.destroy (h : s.Refined c M L) (hh : s.halted = false) {i : Nat} (hi : i < s.epts.length) :
    ∃ s', s.step c L.length (.destroyEpt i) = some s' ∧ ∃ M' L', s'.Refined c M' L' := by
  have hrep := h.represents
  obtain ⟨x, hx, hptr⟩ := List.mem_map.1 (hrep.epts.mem_iff.1 (List.getElem_mem hi))
  obtain ⟨A, B, rfl⟩ := List.append_of_mem hx
  have hn := hrep.ptrs
  rw [List.map_append, List.map_cons, List.nodup_middle, ← List.map_append] at hn
  obtain ⟨T', hdestroy, hhold⟩ :=
    rpmsgLiteDestroyEpt_spec hrep.holds le_rfl (hrep.ne x hx) (List.nodup_cons.1 hn).1 c.static
  rw [hptr] at hdestroy
  have hsub : (A ++ B).Sublist (A ++ x :: B) := (List.sublist_cons_self x B).append_left A
  refine ⟨_, by simp only [EptSystem.step, hh, List.getElem?_eq_getElem hi, Option.bind_some, hdestroy]; rfl, ?_⟩
  refine ⟨Function.update M x.addr none, A ++ B,
    ⟨hhold, ?_, ?_, (List.nodup_cons.1 hn).2, fun y hy => hrep.ne y (hsub.subset hy),
      fun hs y hy => hrep.static hs y (hsub.subset hy)⟩, ?_⟩
  · rw [hrep.map, mapOf_remove hrep.holds.addrs]
  · show (s.epts.eraseIdx i).Perm _
    refine List.Perm.cons_inv (a := x.ptr) ?_
    rw [hptr]
    refine (List.getElem_cons_eraseIdx_perm hi).trans (hrep.epts.trans ?_)
    rw [← hptr, List.map_append, List.map_cons, List.map_append]
    exact List.perm_middle
  · have hM : M x.addr = some x.binding := by
      rw [hrep.map]
      exact (mapOf_eq_some hrep.holds.addrs).2 ⟨x, hx, rfl, rfl⟩
    rw [← hptr]
    exact .destroys h.run hM

/-- The end of a turn: the buffer is held or given back, or the assertion fails. -/
theorem EptSystem.done_cases (c : EptConfig) (s : EptSystem) (hold : Bool) (g : Got) :
    (hold = false ∧ Refuses s.dev g ∧ s.done c hold g = { s with halted := true }) ∨
    ∃ dev m, s.done c hold g =
        { s with dev, m, turn := none, trace := s.trace ++ [if hold then EptEvent.held g else EptEvent.freed g] } ∧
      if hold then dev = s.dev ∧ KeepsIdx s.m g m else ¬ Refuses s.dev g ∧ GivesBack c.clear s.dev s.m g dev m := by
  unfold EptSystem.done
  cases hold with
  | true =>
    obtain ⟨m, hdone, hkeeps⟩ := rpmsgLiteRxDone_hold c.clear s.dev s.m g
    rw [hdone]
    exact Or.inr ⟨s.dev, m, rfl, rfl, hkeeps⟩
  | false =>
    rcases rpmsgLiteRxDone_free c.clear s.dev s.m g with ⟨hdone, href⟩ | ⟨dev, m, hdone, href, hback⟩
    · rw [hdone]
      exact Or.inl ⟨rfl, href, rfl⟩
    · rw [hdone]
      exact Or.inr ⟨dev, m, rfl, href, hback⟩

theorem EptSystem.Represents.congr (h : s.Represents c.static M L) (ht : s'.table = s.table) (he : s'.epts = s.epts) :
    s'.Represents c.static M L :=
  ⟨by rw [ht]; exact h.holds, h.map, by rw [he]; exact h.epts, h.ptrs, h.ne, h.static⟩

theorem EptSystem.Refined.rx (h : s.Refined c M L) (hh : s.halted = false) (hturn : s.turn = none) :
    ∃ s', s.step c L.length .rx = some s' ∧ ∃ M' L', s'.Refined c M' L' := by
  have hrep := h.represents
  have hrun := h.run
  rw [hturn] at hrun
  have hcond : (s.halted || s.turn.isSome) = false := by rw [hh, hturn]; rfl
  obtain ⟨dev, g, hrx⟩ : ∃ dev g, rpmsgLiteRx c.clear s.dev s.m = (dev, g) := ⟨_, _, rfl⟩
  cases g with
  | none =>
    exact ⟨{ s with dev }, by simp only [EptSystem.step, hcond, hrx, Bool.false_eq_true, if_false], M, L,
      hrep.congr rfl rfl, h.run⟩
  | some g =>
    have hget := hrep.holds.get le_rfl (msgAt s.m g.buffer).dst
    by_cases h0 : boundNode L (msgAt s.m g.buffer).dst = 0
    · have hM : M (msgAt s.m g.buffer).dst = none := by
        rw [hrep.map]
        by_contra hne
        exact (hrep.holds.boundNode_eq_zero.1 h0) (mapOf_ne_none.1 hne)
      refine ⟨{ s with dev, turn := some ⟨g, false⟩, trace := s.trace ++ [.taken g (msgAt s.m g.buffer)] }, ?_, M, L,
        hrep.congr rfl rfl, .misses hrun hM⟩
      simp only [EptSystem.step, hcond, hrx, hget, Option.bind_some, if_pos h0, Bool.false_eq_true, if_false]
    · -- the node found is an entry's, and its callback is called
      have hused : Used L (msgAt s.m g.buffer).dst := by
        by_contra hmem
        exact h0 (hrep.holds.boundNode_eq_zero.2 hmem)
      obtain ⟨x, hx, haddr⟩ := List.mem_map.1 hused
      have hcar := hrep.holds.chained.carries x hx
      obtain ⟨n, hn, hdata⟩ := Option.map_eq_some_iff.1 hcar.node
      have hM : M (msgAt s.m g.buffer).dst = some x.binding := by
        rw [hrep.map]
        exact (mapOf_eq_some hrep.holds.addrs).2 ⟨x, hx, haddr, rfl⟩
      have hnode : boundNode L (msgAt s.m g.buffer).dst = x.node := by rw [← haddr, hrep.holds.boundNode_addr hx]
      refine ⟨{ s with
          dev
          turn := some ⟨g, true⟩
          trace := s.trace ++ [.taken g (msgAt s.m g.buffer), .called x.binding (msgAt s.m g.buffer)] },
        ?_, M, L, hrep.congr rfl rfl, .calls hrun hM⟩
      simp only [EptSystem.step, hcond, hrx, hget, Option.bind_some, if_neg h0, Bool.false_eq_true, if_false]
      rw [hnode, hn, Option.bind_some, hdata, hcar.ept, Option.map_some]
      rfl

theorem EptSystem.Refined.ret (h : s.Refined c M L) (hh : s.halted = false) (hturn : s.turn ≠ none) (cbRet : Int) :
    ∃ s', s.step c L.length (.ret cbRet) = some s' ∧ ∃ M' L', s'.Refined c M' L' := by
  obtain ⟨⟨g, called⟩, hg⟩ := Option.ne_none_iff_exists'.1 hturn
  refine ⟨_, by simp only [EptSystem.step, hh, Bool.false_eq_true, if_false, hg, Option.map_some]; rfl, M, L, ?_⟩
  have hrun := h.run
  rw [hg] at hrun
  rcases s.done_cases c (decide ((if called then cbRet else RL_RELEASE) = RL_HOLD)) g with
    ⟨-, -, hdone⟩ | ⟨dev, m, hdone, -⟩
  · rw [hdone]
    exact ⟨h.represents.congr rfl rfl, h.run⟩
  · rw [hdone]
    refine ⟨h.represents.congr rfl rfl, ?_⟩
    cases called with
    | true =>
      by_cases hhold : cbRet = RL_HOLD
      · simp only [hhold, if_true, decide_true]
        exact .holds hrun
      · simp only [hhold, if_true, decide_false, Bool.false_eq_true, if_false]
        exact .frees hrun
    | false => exact .frees hrun

/-- Every enabled step returns, and its result represents the map that the log leads to. -/
theorem EptSystem.Refined.step (h : s.Refined c M L) (hh : s.halted = false) {a : EptAct} (ha : s.Enabled c a) :
    ∃ s', s.Steps c a s' ∧ ∃ M' L', s'.Refined c M' L' := by
  suffices hs : ∃ s', s.step c L.length a = some s' ∧ ∃ M' L', s'.Refined c M' L' by
    obtain ⟨s', hs', href⟩ := hs
    exact ⟨s', ⟨L.length, fun fuel hfuel => (h.represents.step_fuel hfuel le_rfl a).trans hs'⟩, href⟩
  cases a with
  | createEpt addr rxCb rxCbData mem => exact h.create hh ha
  | destroyEpt i => exact h.destroy hh ha
  | rx => exact h.rx hh ha
  | ret cbRet => exact h.ret hh ha cbRet
  | other rvq tvq m =>
    exact ⟨{ s with dev := { s.dev with rvq, tvq }, m }, by simp only [EptSystem.step, hh, Bool.false_eq_true, if_false], M, L,
      h.represents.congr rfl rfl, h.run⟩

theorem EptSystem.Steps.unique {s₁ s₂ : EptSystem} {a : EptAct} (h₁ : s.Steps c a s₁)
    (h₂ : s.Steps c a s₂) : s₁ = s₂ := by
  obtain ⟨n₁, h₁⟩ := h₁
  obtain ⟨n₂, h₂⟩ := h₂
  have h := (h₁ (max n₁ n₂) (by omega)).symm.trans (h₂ (max n₁ n₂) (by omega))
  exact Option.some.inj h

/-- Steps are taken only where they are enabled. -/
theorem EptSystem.Steps.enabled {a : EptAct} (h : s.Steps c a s') : s.halted = false ∧ s.Enabled c a := by
  obtain ⟨n, h⟩ := h
  have h := h n le_rfl
  unfold EptSystem.Enabled
  cases a with
  | createEpt addr rxCb rxCbData mem =>
    simp only [EptSystem.step] at h
    split at h
    · cases h
    · rename_i hc
      simpa using hc
  | destroyEpt i =>
    simp only [EptSystem.step] at h
    split at h
    · cases h
    · rename_i hc
      refine ⟨by simpa using hc, ?_⟩
      obtain ⟨p, hp, -⟩ := Option.bind_eq_some_iff.1 h
      exact (List.getElem?_eq_some_iff.1 hp).1
  | rx =>
    simp only [EptSystem.step] at h
    split at h
    · cases h
    · rename_i hc
      simpa using hc
  | ret cbRet =>
    simp only [EptSystem.step] at h
    split at h
    · cases h
    · rename_i hc
      refine ⟨by simpa using hc, fun hn => ?_⟩
      rw [hn] at h
      cases h
  | other rvq tvq m =>
    simp only [EptSystem.step] at h
    split at h
    · cases h
    · rename_i hc
      exact ⟨by simpa using hc, trivial⟩

/-- Every state of every run. -/
theorem EptSystem.refined_reachable {dev : RpmsgLiteInstance} {m : ByteMem} {node : Nat → Option LList}
    {ept : Nat → Option RpmsgLiteEndpoint} (h : EptSystem.Reachable c (EptSystem.start dev m node ept) s) :
    ∃ M L, s.Refined c M L := by
  induction h with
  | start =>
    exact ⟨fun _ => none, [],
      ⟨⟨⟨rfl, fun x hx => absurd hx List.not_mem_nil⟩, .nil, List.nodup_nil⟩, rfl, .nil, List.nodup_nil,
      fun x hx => absurd hx List.not_mem_nil, fun _ x hx => absurd hx List.not_mem_nil⟩, .start⟩
  | step _ hs ih =>
    obtain ⟨M, L, href⟩ := ih
    obtain ⟨hh, ha⟩ := hs.enabled
    obtain ⟨s₁, hs₁, href₁⟩ := href.step hh ha
    rw [hs.unique hs₁]
    exact href₁

/-! ## What the log says -/

/-- The event takes the buffer. -/
def EptEvent.takes (g : Got) : EptEvent → Bool
  | .taken g' _ => g' = g
  | _ => false

/-- The event gives the buffer back or holds it. -/
def EptEvent.gives (g : Got) : EptEvent → Bool
  | .held g' => g' = g
  | .freed g' => g' = g
  | _ => false

/-- However often a buffer was taken, as often was it held or freed; only that of the turn which has not ended is still
out. -/
theorem MapRun.counts {turn : Option Turn} (h : MapRun t M turn) (g : Got) :
    t.countP (EptEvent.takes g) = t.countP (EptEvent.gives g) + if turn.map Turn.got = some g then 1 else 0 := by
  induction h with
  | start => rfl
  | createFails _ _ ih => simpa [List.countP_append, EptEvent.takes, EptEvent.gives] using ih
  | creates _ _ _ ih => simpa [List.countP_append, EptEvent.takes, EptEvent.gives] using ih
  | destroys _ _ ih => simpa [List.countP_append, EptEvent.takes, EptEvent.gives] using ih
  | @calls t M g' msg b _ _ ih =>
    simp only [List.countP_append, List.countP_cons, List.countP_nil, EptEvent.takes, EptEvent.gives, Option.map_some,
      Option.map_none, Option.some.injEq] at ih ⊢
    by_cases hg : g' = g <;> simp_all
  | @misses t M g' msg _ _ ih =>
    simp only [List.countP_append, List.countP_cons, List.countP_nil, EptEvent.takes, EptEvent.gives, Option.map_some,
      Option.map_none, Option.some.injEq] at ih ⊢
    by_cases hg : g' = g <;> simp_all
  | @holds t M g' _ ih =>
    simp only [List.countP_append, List.countP_cons, List.countP_nil, EptEvent.takes, EptEvent.gives, Option.map_some,
      Option.map_none, Option.some.injEq] at ih ⊢
    by_cases hg : g' = g <;> simp_all
  | @frees t M turn _ ih =>
    simp only [List.countP_append, List.countP_cons, List.countP_nil, EptEvent.takes, EptEvent.gives, Option.map_some,
      Option.map_none, Option.some.injEq] at ih ⊢
    by_cases hg : turn.got = g <;> simp_all

/-- With fewer endpoints than addresses one is free. -/
theorem exists_free_addr (h : L.length < 2 ^ 32 - 2) : ¬ Chosen (Used L) RL_ADDR_ANY none := by
  intro hc
  simp only [Chosen, if_true] at hc
  obtain ⟨N, hN⟩ : ∃ N, N = 2 ^ 32 - 2 := ⟨_, rfl⟩
  rw [← hN] at h
  have hval : ∀ i < N, (UInt32.ofNat (i + 1)).toNat = i + 1 := fun i hi =>
    UInt32.toNat_ofNat_of_lt' (by simp only [UInt32.size]; omega)
  have hnd : ((List.range N).map fun i => UInt32.ofNat (i + 1)).Nodup := by
    refine List.Nodup.map_on (fun i hi j hj he => ?_) List.nodup_range
    have := congrArg UInt32.toNat he
    rw [hval i (List.mem_range.1 hi), hval j (List.mem_range.1 hj)] at this
    omega
  have hsub : ((List.range N).map fun i => UInt32.ofNat (i + 1)) ⊆ L.map EptEntry.addr := by
    intro a ha
    obtain ⟨i, hi, rfl⟩ := List.mem_map.1 ha
    have hi := List.mem_range.1 hi
    refine hc _ (UInt32.le_iff_toNat_le.2 ?_) (UInt32.lt_iff_toNat_lt.2 ?_)
    · rw [hval i hi]; exact Nat.le_add_left 1 i
    · rw [hval i hi]
      have hany : RL_ADDR_ANY.toNat = 4294967295 := rfl
      omega
  have hle := (hnd.subperm hsub).length_le
  rw [List.length_map, List.length_map, List.length_range] at hle
  omega

/-- A create that returns null leaves the list and the heap as they were. -/
theorem EptSystem.Refined.create_fails (h : s.Refined c M L) {addr : UInt32} {rxCb rxCbData : Nat} {mem : EptMem}
    (hs : s.Steps c (.createEpt addr rxCb rxCbData mem) s') :
    ∃ ptr, s'.trace = s.trace ++ [.create addr mem.ptrs.isSome ⟨ptr, rxCb, rxCbData⟩] ∧
      (ptr = 0 → s'.table = s.table) := by
  obtain ⟨hh, hmem⟩ := hs.enabled
  obtain ⟨n, hs⟩ := hs
  have hstep := hs (max n L.length) (by omega)
  obtain ⟨a, r, T', hcreate, -, hres⟩ := rpmsgLiteCreateEpt_spec h.represents.holds (show L.length ≤ max n L.length by omega)
    (h.represents.unused hmem) addr rxCb rxCbData
  simp only [EptSystem.step] at hstep
  split at hstep
  · cases hstep
  rw [hcreate] at hstep
  cases hstep
  refine ⟨r, rfl, fun h0 => ?_⟩
  rcases hres with ⟨-, -, rfl⟩ | ⟨b, node, -, hptrs, -⟩
  · rfl
  · exact absurd h0 (EptMem.ptrs_some hptrs hmem).1

/-- A turn starts with the oldest buffer of the ring, and memory stays as it is. -/
theorem EptSystem.rx_effect (hs : s.step c fuel .rx = some s') (hh : s.halted = false) :
    s.Effect c s' .rx ∧ s'.halted = false := by
  simp only [EptSystem.step] at hs
  split at hs
  · cases hs
  rename_i hc
  have hturn : s.turn = none := by simpa [hh] using hc
  split at hs
  · cases hs
    exact ⟨⟨rfl, Or.inl ⟨hturn, rfl⟩⟩, hh⟩
  rename_i dev g hrx
  have htakes := rpmsgLiteRx_takes hrx
  obtain ⟨node, -, hnode⟩ := Option.bind_eq_some_iff.1 hs
  split at hnode
  · cases hnode
    exact ⟨⟨rfl, Or.inr ⟨_, [], rfl, htakes, rfl, by simp⟩⟩, hh⟩
  · obtain ⟨k, -, hk⟩ := Option.bind_eq_some_iff.1 hnode
    obtain ⟨e, -, rfl⟩ := Option.map_eq_some_iff.1 hk
    exact ⟨⟨rfl, Or.inr ⟨_, [_], rfl, htakes, rfl, by simp⟩⟩, hh⟩

/-- A turn ends with its buffer held or given back, or stops the core at an index out of range. -/
theorem EptSystem.ret_effect {cbRet : Int} (hs : s.step c fuel (.ret cbRet) = some s') (hh : s.halted = false) :
    s.Effect c s' (.ret cbRet) ∧ (s'.halted = true → ∃ turn, s.turn = some turn ∧ Refuses s.dev turn.got) := by
  simp only [EptSystem.step] at hs
  split at hs
  · cases hs
  obtain ⟨turn, hturn, rfl⟩ := Option.map_eq_some_iff.1 hs
  have hhold : ((if turn.called then cbRet else RL_RELEASE) = RL_HOLD) ↔ turn.called = true ∧ cbRet = RL_HOLD := by
    cases turn.called with
    | true => simp
    | false => simp [RL_RELEASE, RL_HOLD]
  rcases s.done_cases c (decide ((if turn.called then cbRet else RL_RELEASE) = RL_HOLD)) turn.got with
    ⟨hfree, href, hdone⟩ | ⟨dev, m, hdone, hspec⟩
  · rw [hdone]
    refine ⟨⟨turn, hturn, ?_⟩, fun _ => ⟨turn, hturn, href⟩⟩
    rw [if_neg fun hyes => of_decide_eq_false hfree (hhold.2 hyes), if_pos href]
  · rw [hdone]
    refine ⟨⟨turn, hturn, ?_⟩, fun hyes => by rw [show s.halted = true from hyes] at hh; cases hh⟩
    by_cases hyes : turn.called = true ∧ cbRet = RL_HOLD
    · rw [decide_eq_true (hhold.2 hyes), if_pos rfl] at hspec
      rw [if_pos hyes]
      refine ⟨rfl, ?_, hspec⟩
      simp only [hhold.2 hyes, decide_true, if_true]
    · rw [decide_eq_false fun hno => hyes (hhold.1 hno), if_neg Bool.false_ne_true] at hspec
      rw [if_neg hyes, if_neg hspec.1]
      refine ⟨rfl, ?_, hspec.2⟩
      rw [decide_eq_false fun hno => hyes (hhold.1 hno), if_neg Bool.false_ne_true]

/-- Every step does to the rings and the shared memory what it logs, and only an index out of range stops the core. -/
theorem EptSystem.Steps.effect {a : EptAct} (hs : s.Steps c a s') :
    s.Effect c s' a ∧ (s'.halted = true → ∃ turn, s.turn = some turn ∧ Refuses s.dev turn.got) := by
  obtain ⟨hh, -⟩ := hs.enabled
  obtain ⟨n, hs⟩ := hs
  have hstep := hs n le_rfl
  have hrun : ∀ {t : EptSystem} {P : Prop}, t.halted = false → t.halted = true → P := fun hno hyes => by
    rw [hno] at hyes
    cases hyes
  cases a with
  | createEpt addr rxCb rxCbData mem =>
    simp only [EptSystem.step] at hstep
    split at hstep
    · cases hstep
    obtain ⟨x, -, rfl⟩ := Option.map_eq_some_iff.1 hstep
    exact ⟨⟨rfl, rfl, rfl⟩, hrun hh⟩
  | destroyEpt i =>
    simp only [EptSystem.step] at hstep
    split at hstep
    · cases hstep
    obtain ⟨p, -, hp⟩ := Option.bind_eq_some_iff.1 hstep
    obtain ⟨x, -, rfl⟩ := Option.map_eq_some_iff.1 hp
    exact ⟨⟨rfl, rfl, rfl⟩, hrun hh⟩
  | rx =>
    obtain ⟨heffect, hh'⟩ := rx_effect hstep hh
    exact ⟨heffect, hrun hh'⟩
  | ret cbRet => exact ret_effect hstep hh
  | other rvq tvq m =>
    simp only [EptSystem.step] at hstep
    split at hstep
    · cases hstep
    cases hstep
    exact ⟨rfl, hrun hh⟩

/-- A run of several steps, with fuel for the endpoints there are. -/
def EptSystem.run (c : EptConfig) (fuel : Nat) : EptSystem → List EptAct → Option EptSystem
  | s, [] => some s
  | s, a :: as => if s.epts.length ≤ fuel then (s.step c fuel a).bind fun s => s.run c fuel as else none

theorem EptSystem.Refined.steps (h : s.Refined c M L) {a : EptAct} (hfuel : s.epts.length ≤ fuel)
    (hs : s.step c fuel a = some s') :
    s.Steps c a s' := by
  have hlen : s.epts.length = L.length := by rw [h.represents.epts.length_eq, List.length_map]
  exact ⟨L.length, fun n hn => (h.represents.step_fuel hn (by omega) a).trans hs⟩

theorem EptSystem.reachable_of_run {dev : RpmsgLiteInstance} {m : ByteMem} {node : Nat → Option LList}
    {ept : Nat → Option RpmsgLiteEndpoint} {as : List EptAct} (h : EptSystem.Reachable c (EptSystem.start dev m node ept) s)
    (hr : s.run c fuel as = some s') : EptSystem.Reachable c (EptSystem.start dev m node ept) s' := by
  induction as generalizing s with
  | nil =>
    cases hr
    exact h
  | cons a as ih =>
    rw [EptSystem.run] at hr
    split at hr
    · rename_i hfuel
      obtain ⟨s₁, hs, hr⟩ := Option.bind_eq_some_iff.1 hr
      obtain ⟨M, L, href⟩ := EptSystem.refined_reachable h
      exact ih (h.step (href.steps hfuel hs)) hr
    · cases hr

end

/-- Two bytes from the master, each in a message to address 9. -/
def twoBytes : List (Role × Act) :=
  [(.master, .tx (.send 7 9 [1])), (.master, .tx (.fill 0)), (.master, .tx (.enqueue 0)), (.master, .tx (.send 7 9 [2])),
   (.master, .tx (.fill 0)), (.master, .tx (.enqueue 0))]

/-- The endpoint of address 9 holds the first message, and is destroyed in its callback of the second. -/
def heldThenDestroyed : List EptAct :=
  [.createEpt 9 1 2 (.dynamic 0x100 0x200 ⟨0, 0, 0⟩), .rx, .ret RL_HOLD, .rx, .destroyEpt 0]

def heldThenDestroyedLog : List EptEvent :=
  let b : EptBinding := ⟨0x100, 1, 2⟩
  [.create 9 true b, .taken ⟨4572, 32, 0⟩ ⟨7, 9, 1, [1]⟩, .called b ⟨7, 9, 1, [1]⟩, .held ⟨4572, 32, 0⟩,
   .taken ⟨4604, 32, 1⟩ ⟨7, 9, 1, [2]⟩, .called b ⟨7, 9, 1, [2]⟩, .destroy 0x100 RL_SUCCESS]

end RpmsgLite
