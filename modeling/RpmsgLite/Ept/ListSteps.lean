/-
The list between any two statements of `add_to_list` and `remove_from_list`. The forward links, which are
all a lookup follows, pass the old entries or the new ones at every point but one: when the list was
empty, the new node is the head before its own link is set.
-/
import RpmsgLite.Ept.LList

namespace RpmsgLite

open EptTable

variable {T : EptTable} {L : List EptEntry} {x : EptEntry} {p : Nat} {l a b : List Nat}

/-! ## The whole of each function -/

/-- All of `add_to_list`: the new node is the head, in front of the old one, which links back to it. -/
theorem addToList_run (hl : DList.Linked T.nextOf T.prevOf 0 T.rlEndpoints l) (hs : ∀ a ∈ l, (T.node a).isSome = true)
    (hne : p ≠ 0) (hp : p ∉ l) (hps : (T.node p).isSome = true) :
    ∃ T', Stmt.run (addToList T p) T = some T' ∧ DList.Linked T'.nextOf T'.prevOf 0 T'.rlEndpoints (p :: l) ∧
      T'.rlEndpoints = p ∧ T'.prevOf p = some 0 ∧ T.Relinked T' := by
  unfold addToList
  rw [if_neg hne]
  cases l with
  | nil =>
    have h0 : T.rlEndpoints = 0 := hl.chain
    rw [if_neg (not_not.2 h0)]
    obtain ⟨T2, h2, hh2, hn2, hp2, hr2⟩ := EptTable.setNext_ok (T := T.setHead p) hps 0
    obtain ⟨T3, h3, hh3, hn3, hp3, hr3⟩ := EptTable.setPrev_ok (p := p) (by rw [hr2.isSome]; exact hps) 0
    have hhead2 : T2.rlEndpoints = p := hh2
    have hhead3 : T3.rlEndpoints = p := hh3.trans hhead2
    have hr1 : T.Relinked (T.setHead p) := ⟨rfl, fun _ => rfl⟩
    refine ⟨T3, ?_, ⟨?_, .singleton p⟩, hhead3, by rw [hp3, Function.update_self], (hr1.trans hr2).trans hr3⟩
    · simp only [Stmt.run, Option.bind_some]
      rw [show (T.setHead p).rlEndpoints = p from rfl, h2, Option.bind_some, hhead2, h3, Option.bind_some]
    · rw [hhead3, hn3, hn2]
      exact ⟨rfl, hne, 0, Function.update_self .., rfl⟩
  | cons y l =>
    obtain ⟨hhead, hy, -⟩ := hl.chain
    have hyp : y ≠ p := fun h => hp (h ▸ List.mem_cons_self)
    rw [if_pos (by rw [hhead]; exact hy)]
    obtain ⟨T1, h1, hh1, hn1, hp1, hr1⟩ := EptTable.setNext_ok hps T.rlEndpoints
    obtain ⟨T2, h2, hh2, hn2, hp2, hr2⟩ := EptTable.setPrev_ok (p := p) (by rw [hr1.isSome]; exact hps) 0
    have hhead2 : T2.rlEndpoints = y := by rw [hh2, hh1, hhead]
    have hys : (T2.node y).isSome = true := by rw [hr2.isSome, hr1.isSome]; exact hs y List.mem_cons_self
    obtain ⟨T3, h3, hh3, hn3, hp3, hr3⟩ := EptTable.setPrev_ok hys p
    have hr : T.Relinked (T3.setHead p) := ⟨((hr1.trans hr2).trans hr3).ept, ((hr1.trans hr2).trans hr3).data⟩
    refine ⟨T3.setHead p, ?_, ?_, rfl, ?_, hr⟩
    · simp only [Stmt.run]
      rw [h1, Option.bind_some, h2, Option.bind_some, hhead2, h3, Option.bind_some, Option.bind_some]
    · have hnext : T3.nextOf = Function.update T.nextOf p (some T.rlEndpoints) := by rw [hn3, hn2, hn1]
      have hprev : T3.prevOf = Function.update (Function.update T.prevOf p (some 0)) y (some p) := by rw [hp3, hp2, hp1]
      have hnd := hl.chain.nodup
      refine hl.push hp hne ?_ (fun z hz => ?_) (fun z hz => ?_) fun _ => ?_
      · exact (congrFun hnext p).trans (Function.update_self ..)
      · exact (congrFun hnext z).trans (Function.update_of_ne (ne_of_mem_of_not_mem hz hp) ..)
      · have hzy : z ≠ y := fun h => (List.nodup_cons.1 hnd).1 (h ▸ hz)
        have hzp : z ≠ p := fun h => hp (h ▸ List.mem_of_mem_tail hz)
        exact (congrFun hprev z).trans ((Function.update_of_ne hzy ..).trans (Function.update_of_ne hzp ..))
      · rw [hhead]
        exact (congrFun hprev y).trans (Function.update_self ..)
    · show T3.prevOf p = some 0
      rw [hp3, Function.update_of_ne hyp.symm, hp2, Function.update_self]

theorem EptTable.bind_links {p q r : Nat} (hn : T.nextOf p = some q) (hp : T.prevOf p = some r)
    (f : Nat → Nat → Option EptTable) : ((T.node p).bind fun n => f n.prev n.next) = f r q := by
  obtain ⟨n, hnode, rfl⟩ := Option.map_eq_some_iff.1 hn
  rw [prevOf, hnode, Option.map_some] at hp
  rw [hnode, Option.bind_some, Option.some.inj hp]

/-- All of `remove_from_list`: the nodes before and behind are each other's neighbours, and only a node
with another before it has its back link changed. -/
theorem removeFromList_run (hl : DList.Linked T.nextOf T.prevOf 0 T.rlEndpoints (a ++ p :: b))
    (hs : ∀ x ∈ a ++ p :: b, (T.node x).isSome = true) :
    ∃ T', Stmt.run (removeFromList T p) T = some T' ∧ DList.Linked T'.nextOf T'.prevOf 0 T'.rlEndpoints (a ++ b) ∧
      (a = [] → T'.prevOf = T.prevOf) ∧
      (a ≠ [] → T'.rlEndpoints = T.rlEndpoints ∧ T'.prevOf T.rlEndpoints = T.prevOf T.rlEndpoints) ∧ T.Relinked T' := by
  have hmem : p ∈ a ++ p :: b := List.mem_append_right _ List.mem_cons_self
  have hnd := hl.chain.nodup
  obtain ⟨q, hq⟩ := hl.chain.isSome p hmem
  have hb := hl.chain.next_eq hq
  have hne : T.rlEndpoints ≠ 0 := fun h0 =>
    List.append_ne_nil_of_right_ne_nil a (List.cons_ne_nil p b) (h0 ▸ hl.chain).eq_nil
  unfold removeFromList
  rw [if_neg (not_or.2 ⟨hne, hl.chain.ne_null p hmem⟩)]
  rcases List.eq_nil_or_concat a with rfl | ⟨a, y, rfl⟩
  · -- the first node
    have hhead : T.rlEndpoints = p := hl.chain.1
    rw [if_pos hhead.symm]
    refine ⟨T.setHead q, ?_, hl.pop hq, fun _ => rfl, fun h => absurd rfl h, ⟨rfl, fun _ => rfl⟩⟩
    rw [Stmt.run, hhead, hq, Option.map_some, Option.bind_some, Stmt.run]
  · rw [List.concat_eq_append] at *
    have hheadmem : T.rlEndpoints ∈ a ++ [y] := hl.chain.head_mem_left (by simp)
    have hnhead : p ≠ T.rlEndpoints := fun he =>
      (List.nodup_append.1 hnd).2.2 _ hheadmem _ List.mem_cons_self he.symm
    have hpy : p ≠ y := fun he =>
      (List.nodup_append.1 hnd).2.2 y (List.mem_append_right _ (List.mem_singleton_self _)) p List.mem_cons_self he.symm
    have hsplit : a ++ [y] ++ p :: b = a ++ y :: p :: b := List.append_assoc ..
    have hrest : a ++ [y] ++ b = a ++ y :: b := List.append_assoc ..
    rw [hsplit] at hl hs
    have hprev : T.prevOf p = some y := hl.prev_eq
    rw [if_neg hnhead, hrest]
    obtain ⟨T1, h1, hh1, hn1, hp1, hr1⟩ := EptTable.setNext_ok (hs y (by simp)) q
    have hstmt1 : ((T.node p).bind fun n => T.setNext n.prev n.next) = some T1 :=
      (EptTable.bind_links hq hprev T.setNext).trans h1
    by_cases hq0 : q = 0
    · -- the last node
      rw [if_pos (by rw [hq, hq0])]
      refine ⟨T1, ?_, ?_, fun h => absurd h (by simp), fun _ => ⟨hh1, by rw [hp1]⟩, hr1⟩
      · rw [Stmt.run, hstmt1, Option.bind_some, Stmt.run]
      · rw [hh1]
        exact hl.remove hq (by rw [hn1, Function.update_self]) (fun z hz => by rw [hn1, Function.update_of_ne hz])
          (fun h => absurd hq0 h) fun z _ => by rw [hp1]
    · -- a node in between
      rw [if_neg (by rw [hq]; exact fun h => hq0 (Option.some.inj h))]
      have hqb : q ∈ b := hb.head_mem hq0
      have hqs : (T1.node q).isSome = true := by rw [hr1.isSome]; exact hs q (by simp [hqb])
      have hqhead : T.rlEndpoints ≠ q := fun he =>
        (List.nodup_append.1 hnd).2.2 _ hheadmem _ (List.mem_cons_of_mem p hqb) he
      obtain ⟨T2, h2, hh2, hn2, hp2, hr2⟩ := EptTable.setPrev_ok hqs y
      have hstmt2 : ((T1.node p).bind fun n => T1.setPrev n.next n.prev) = some T2 :=
        (EptTable.bind_links (by rw [hn1, Function.update_of_ne hpy, hq]) (by rw [hp1, hprev]) fun b a => T1.setPrev a b).trans h2
      refine ⟨T2, ?_, ?_, fun h => absurd h (by simp), fun _ => ⟨hh2.trans hh1, ?_⟩, hr1.trans hr2⟩
      · rw [Stmt.run, hstmt1, Option.bind_some, Stmt.run, hstmt2, Option.bind_some, Stmt.run]
      · rw [hh2, hh1]
        exact hl.remove hq (by rw [hn2, hn1, Function.update_self]) (fun z hz => by rw [hn2, hn1, Function.update_of_ne hz])
          (fun _ => by rw [hp2, Function.update_self]) fun z hz => by rw [hp2, Function.update_of_ne hz, hp1]
      · rw [hp2, Function.update_of_ne hqhead, hp1]

/-! ## Statement by statement -/

/-- An entry ready to join the list. -/
structure EptTable.Fresh (T : EptTable) (L : List EptEntry) (x : EptEntry) : Prop where
  carries : T.Carries x
  ne : x.node ≠ 0
  notMem : x.node ∉ L.map EptEntry.node
  ptr : x.ptr ∉ L.map EptEntry.ptr
  addr : x.addr ∉ L.map EptEntry.addr

theorem EptTable.Holds.ne_zero (h : T.Holds L) (hx : x ∈ L) : x.node ≠ 0 :=
  h.chained.chain.ne_null _ (List.mem_map_of_mem hx)

theorem EptTable.Holds.linked (h : T.Holds L) :
    DList.Linked T.nextOf T.prevOf 0 T.rlEndpoints (L.map EptEntry.node) := ⟨h.chained.chain, h.back⟩

theorem EptTable.Holds.isSome (h : T.Holds L) : ∀ a ∈ L.map EptEntry.node, (T.node a).isSome = true := by
  intro a ha
  obtain ⟨x, hx, rfl⟩ := List.mem_map.1 ha
  exact (h.chained.carries x hx).isSome

/-- The old entries and the new one are carried on. -/
theorem EptTable.Fresh.carries_cons (hx : T.Fresh L x) (hL : T.Holds L) : ∀ y ∈ x :: L, T.Carries y := by
  intro y hy
  rcases List.mem_cons.1 hy with rfl | hy
  · exact hx.carries
  · exact hL.chained.carries y hy

theorem EptTable.Relinked.chained {T' : EptTable} {p : Nat} (h : T.Relinked T') (hL : ∀ y ∈ L, T.Carries y)
    (hc : DList.Chain T'.nextOf 0 p (L.map EptEntry.node)) : T'.Chained p L :=
  ⟨hc, fun y hy => h.carries (hL y hy)⟩

/-- Between the statements of `add_to_list`. -/
theorem addToList_steps (hL : T.Holds L) (hx : T.Fresh L x) (k : Nat) :
    ∃ T', Stmt.run ((addToList T x.node).take k) T = some T' ∧ T.Relinked T' ∧
      (L = [] ∧ k = 1 → T' = T.setHead x.node) ∧
      (¬ (L = [] ∧ k = 1) → T'.Chained T'.rlEndpoints L ∨ T'.Chained T'.rlEndpoints (x :: L)) ∧
      ((addToList T x.node).length ≤ k → T'.Holds (x :: L)) := by
  have hsome := hx.carries.isSome
  have hcar := hx.carries_cons hL
  by_cases hk : (addToList T x.node).length ≤ k
  · -- the function has returned
    obtain ⟨T', hrun, hlink, -, -, hr⟩ := addToList_run hL.linked hL.isSome hx.ne hx.notMem hsome
    have hch : T'.Chained T'.rlEndpoints (x :: L) := hr.chained hcar hlink.chain
    rw [List.take_of_length_le hk]
    refine ⟨T', hrun, hr, ?_, fun _ => Or.inr hch, fun _ => ⟨hch, hlink.back, List.nodup_cons.2 ⟨hx.addr, hL.addrs⟩⟩⟩
    rintro ⟨rfl, rfl⟩
    have h0 : T.rlEndpoints = 0 := hL.chained.chain
    simp [addToList, hx.ne, h0] at hk
  unfold addToList at hk ⊢
  rw [if_neg hx.ne] at hk ⊢
  cases L with
  | nil =>
    have h0 : T.rlEndpoints = 0 := hL.chained.chain
    rw [if_neg (not_not.2 h0)] at hk ⊢
    have hr1 : T.Relinked (T.setHead x.node) := ⟨rfl, fun _ => rfl⟩
    match k with
    | 0 => exact ⟨T, rfl, .refl T, by simp, fun _ => Or.inl hL.chained, by simp⟩
    | 1 => exact ⟨T.setHead x.node, rfl, hr1, fun _ => rfl, by simp, by simp⟩
    | 2 =>
      obtain ⟨T2, h2, hh2, hn2, -, hr2⟩ := EptTable.setNext_ok (T := T.setHead x.node) hsome 0
      have hc2 : DList.Chain T2.nextOf 0 x.node [x.node] := ⟨rfl, hx.ne, 0, by rw [hn2, Function.update_self], rfl⟩
      refine ⟨T2, ?_, hr1.trans hr2, by simp, fun _ => Or.inr ?_, by simp⟩
      · simp only [List.take_succ_cons, List.take_zero, Stmt.run, Option.bind_some]
        rw [show (T.setHead x.node).rlEndpoints = x.node from rfl, h2, Option.bind_some]
      · rw [hh2]; exact (hr1.trans hr2).chained hcar hc2
    | k + 3 => exact absurd (Nat.le_add_left 3 k) hk
  | cons y L =>
    obtain ⟨hhead, hy, -⟩ := hL.chained.chain
    rw [if_pos (by rw [hhead]; exact hy)] at hk ⊢
    obtain ⟨T1, h1, hh1, hn1, -, hr1⟩ := EptTable.setNext_ok hsome T.rlEndpoints
    obtain ⟨T2, h2, hh2, hn2, -, hr2⟩ := EptTable.setPrev_ok (p := x.node) (by rw [hr1.isSome]; exact hsome) 0
    have hhead2 : T2.rlEndpoints = y.node := by rw [hh2, hh1, hhead]
    have hsome2 : (T2.node y.node).isSome = true := by
      rw [hr2.isSome, hr1.isSome]; exact (hL.chained.carries y List.mem_cons_self).isSome
    obtain ⟨T3, h3, hh3, hn3, -, hr3⟩ := EptTable.setPrev_ok hsome2 x.node
    -- the links of the old entries are never touched
    have hold1 : DList.Chain T1.nextOf 0 T1.rlEndpoints ((y :: L).map EptEntry.node) := by
      rw [hh1, hn1]
      exact hL.chained.chain.congr fun z hz => Function.update_of_ne (ne_of_mem_of_not_mem hz hx.notMem) _ _
    have hold2 : DList.Chain T2.nextOf 0 T2.rlEndpoints ((y :: L).map EptEntry.node) := by rw [hh2, hn2]; exact hold1
    have hold3 : DList.Chain T3.nextOf 0 T3.rlEndpoints ((y :: L).map EptEntry.node) := by rw [hh3, hn3]; exact hold2
    have hr12 := hr1.trans hr2
    have hr13 := hr12.trans hr3
    match k with
    | 0 => exact ⟨T, rfl, .refl T, by simp, fun _ => Or.inl hL.chained, by simp⟩
    | 1 => exact ⟨T1, (by rw [List.take_succ_cons, Stmt.run, h1]; rfl), hr1, by simp,
        fun _ => Or.inl (hr1.chained hL.chained.carries hold1), by simp⟩
    | 2 => exact ⟨T2, (by rw [List.take_succ_cons, Stmt.run, h1, Option.bind_some, List.take_succ_cons, Stmt.run, h2]; rfl), hr12,
        by simp, fun _ => Or.inl (hr12.chained hL.chained.carries hold2), by simp⟩
    | 3 =>
      refine ⟨T3, ?_, hr13, by simp, fun _ => Or.inl (hr13.chained hL.chained.carries hold3), by simp⟩
      simp only [List.take_succ_cons, List.take_zero, Stmt.run]
      rw [h1, Option.bind_some, h2, Option.bind_some, hhead2, h3, Option.bind_some]
    | k + 4 => exact absurd (Nat.le_add_left 4 k) hk

/-- Between the statements of `remove_from_list`. -/
theorem removeFromList_steps {A B : List EptEntry} (hL : T.Holds (A ++ x :: B)) (k : Nat) :
    ∃ T', Stmt.run ((removeFromList T x.node).take k) T = some T' ∧ T.Relinked T' ∧
      (T'.Chained T'.rlEndpoints (A ++ x :: B) ∨ T'.Chained T'.rlEndpoints (A ++ B)) ∧
      ((removeFromList T x.node).length ≤ k → T'.Holds (A ++ B)) := by
  have hmem : x ∈ A ++ x :: B := List.mem_append_right _ List.mem_cons_self
  have hsub : (A ++ B).Sublist (A ++ x :: B) := (List.sublist_cons_self x B).append_left A
  have hcar : ∀ y ∈ A ++ B, T.Carries y := fun y hy => hL.chained.carries y (hsub.subset hy)
  have hlink := hL.linked
  have hsome := hL.isSome
  rw [List.map_append, List.map_cons] at hlink hsome
  by_cases hk : (removeFromList T x.node).length ≤ k
  · -- the function has returned
    obtain ⟨T', hrun, hlink', -, -, hr⟩ := removeFromList_run hlink hsome
    rw [← List.map_append] at hlink'
    have hch : T'.Chained T'.rlEndpoints (A ++ B) := hr.chained hcar hlink'.chain
    rw [List.take_of_length_le hk]
    exact ⟨T', hrun, hr, Or.inr hch, fun _ => ⟨hch, hlink'.back, hL.addrs.sublist (hsub.map _)⟩⟩
  match k with
  | 0 => exact ⟨T, rfl, .refl T, Or.inl hL.chained, fun h => absurd h hk⟩
  | 1 =>
    -- one of two statements: a node in between is bypassed
    obtain ⟨q, hq⟩ := hlink.chain.isSome x.node (List.mem_append_right _ List.mem_cons_self)
    unfold removeFromList at hk ⊢
    split_ifs at hk ⊢ with h0 hhead hlast
    · exact absurd (by simp) hk
    · exact absurd (by simp) hk
    · exact absurd (by simp) hk
    rcases List.eq_nil_or_concat A with rfl | ⟨A, y, rfl⟩
    · exact absurd hlink.chain.1.symm hhead
    · rw [List.concat_eq_append] at *
      have hrest : A ++ [y] ++ B = A ++ y :: B := List.append_assoc ..
      rw [List.map_append, List.map_singleton, List.append_assoc, List.singleton_append] at hlink
      obtain ⟨T1, h1, hh1, hn1, -, hr1⟩ := EptTable.setNext_ok (hsome y.node (by simp)) q
      have hstmt1 : ((T.node x.node).bind fun n => T.setNext n.prev n.next) = some T1 :=
        (EptTable.bind_links hq hlink.prev_eq T.setNext).trans h1
      refine ⟨T1, ?_, hr1, Or.inr (hr1.chained hcar ?_), fun h => absurd h hk⟩
      · simp only [List.take_succ_cons, List.take_zero, Stmt.run]
        rw [hstmt1, Option.bind_some]
      · rw [hh1, hrest, List.map_append, List.map_cons]
        refine hlink.chain.skip hq ?_ fun z hz => ?_
        · rw [hn1, Function.update_self]
        · rw [hn1, Function.update_of_ne hz]
  | k + 2 =>
    have hlen : (removeFromList T x.node).length ≤ 2 := by unfold removeFromList; split_ifs <;> simp
    exact absurd (hlen.trans (Nat.le_add_left 2 k)) hk

end RpmsgLite
