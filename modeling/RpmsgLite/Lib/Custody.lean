/-
Tokens that circulate between two parties. The sender takes a token from the free queue, hands it to
the receiver through the message queue, and the receiver returns it through the free queue. A custody
says where every token is, and carries the proof that none is lost or doubled; the four moves are the
only changes.
-/
import Mathlib.Tactic

variable {α : Type}

/-- Where the tokens `all` are: two queues, oldest first, and two parties holding some. -/
structure Custody (all : Multiset α) where
  free : List α
  sender : Multiset α
  queue : List α
  receiver : Multiset α
  spread : (free : Multiset α) + sender + queue + receiver = all

namespace Custody

variable {all : Multiset α} {d : α}

/-- Every token is free. -/
def start (l : List α) : Custody (l : Multiset α) where
  free := l
  sender := 0
  queue := []
  receiver := 0
  spread := by simp

/-! ## Moves -/

/-- The sender takes the oldest free token. -/
def take (P : Custody all) {f : List α} (h : P.free = d :: f) : Custody all where
  free := f
  sender := d ::ₘ P.sender
  queue := P.queue
  receiver := P.receiver
  spread := by
    refine Eq.trans ?_ P.spread
    rw [h, ← Multiset.cons_coe, ← Multiset.singleton_add d P.sender, ← Multiset.singleton_add d (f : Multiset α)]
    ac_rfl

/-- The sender hands a token to the receiver. -/
def send (P : Custody all) {s : Multiset α} (h : P.sender = d ::ₘ s) : Custody all where
  free := P.free
  sender := s
  queue := P.queue ++ [d]
  receiver := P.receiver
  spread := by
    refine Eq.trans ?_ P.spread
    rw [h, ← Multiset.coe_add, Multiset.coe_singleton, ← Multiset.singleton_add]
    ac_rfl

/-- The same tokens with the two parties exchanged. -/
def swap (P : Custody all) : Custody all where
  free := P.queue
  sender := P.receiver
  queue := P.free
  receiver := P.sender
  spread := by refine Eq.trans ?_ P.spread; ac_rfl

/-- The receiver takes the oldest message. -/
def receive (P : Custody all) {q : List α} (h : P.queue = d :: q) : Custody all := (P.swap.take h).swap

/-- The receiver returns a token. -/
def release (P : Custody all) {r : Multiset α} (h : P.receiver = d ::ₘ r) : Custody all := (P.swap.send h).swap

/-- One change of custody, or none. -/
inductive Move (P : Custody all) : Custody all → Prop
  | stay : Move P P
  | take {d : α} {f : List α} (h : P.free = d :: f) : Move P (P.take h)
  | send {d : α} {s : Multiset α} (h : P.sender = d ::ₘ s) : Move P (P.send h)
  | receive {d : α} {q : List α} (h : P.queue = d :: q) : Move P (P.receive h)
  | release {d : α} {r : Multiset α} (h : P.receiver = d ::ₘ r) : Move P (P.release h)

/-- A queue loses entries only at its front and gains them only at its end. -/
def Advances (l l' : List α) : Prop := ∃ t r a, l = t ++ r ∧ l' = r ++ a

theorem Advances.refl (l : List α) : Advances l l := ⟨[], l, [], rfl, (List.append_nil l).symm⟩

theorem Advances.pop {l r : List α} (h : l = d :: r) : Advances l r := ⟨[d], r, [], h, (List.append_nil r).symm⟩

theorem Advances.push (l a : List α) : Advances l (l ++ a) := ⟨[], l, a, rfl, rfl⟩

/-- No move disturbs an entry that stays in a queue. -/
theorem Move.advances {P P' : Custody all} (h : Move P P') :
    Advances P.free P'.free ∧ Advances P.queue P'.queue := by
  cases h with
  | stay => exact ⟨.refl _, .refl _⟩
  | take h => exact ⟨.pop h, .refl _⟩
  | send h => exact ⟨.refl _, .push _ _⟩
  | receive h => exact ⟨.refl _, .pop h⟩
  | release h => exact ⟨.push _ _, .refl _⟩

/-- A token that leaves the sender's hands is the newest message. -/
theorem Move.queue_of_sender {P P' : Custody all} (h : P.Move P') (hs : P.sender = d ::ₘ P'.sender) :
    P'.queue = P.queue ++ [d] ∧ P'.free = P.free := by
  have hlt : P'.sender < P.sender := by
    rw [hs]
    exact Multiset.lt_cons_self _ _
  cases h with
  | stay => exact absurd hlt (lt_irrefl _)
  | take h => exact absurd (hlt.trans (Multiset.lt_cons_self P.sender _)) (lt_irrefl _)
  | send h =>
    rw [h] at hs
    obtain rfl := (Multiset.cons_inj_left _).1 hs
    exact ⟨rfl, rfl⟩
  | receive h => exact absurd hlt (lt_irrefl P.sender)
  | release h => exact absurd hlt (lt_irrefl P.sender)

/-- A token that leaves the receiver's hands is the newest free one. -/
theorem Move.free_of_receiver {P P' : Custody all} (h : P.Move P') (hs : P.receiver = d ::ₘ P'.receiver) :
    P'.free = P.free ++ [d] ∧ P'.queue = P.queue := by
  have hlt : P'.receiver < P.receiver := by
    rw [hs]
    exact Multiset.lt_cons_self _ _
  cases h with
  | stay => exact absurd hlt (lt_irrefl _)
  | take h => exact absurd hlt (lt_irrefl P.receiver)
  | send h => exact absurd hlt (lt_irrefl P.receiver)
  | receive h => exact absurd (hlt.trans (Multiset.lt_cons_self P.receiver _)) (lt_irrefl _)
  | release h =>
    rw [h] at hs
    obtain rfl := (Multiset.cons_inj_left _).1 hs
    exact ⟨rfl, rfl⟩

/-- A token that comes into the sender's hands was the oldest free one. -/
theorem Move.free_of_sender {P P' : Custody all} (h : P.Move P') (hs : P'.sender = d ::ₘ P.sender) :
    P.free = d :: P'.free ∧ P'.queue = P.queue := by
  have hlt : P.sender < P'.sender := by
    rw [hs]
    exact Multiset.lt_cons_self _ _
  cases h with
  | stay => exact absurd hlt (lt_irrefl _)
  | take h =>
    obtain rfl := (Multiset.cons_inj_left _).1 hs
    exact ⟨h, rfl⟩
  | send h =>
    rw [h] at hlt
    exact absurd (hlt.trans (Multiset.lt_cons_self _ _)) (lt_irrefl _)
  | receive h => exact absurd hlt (lt_irrefl P.sender)
  | release h => exact absurd hlt (lt_irrefl P.sender)

/-- While both parties hold the same tokens the queues do not move. -/
theorem Move.same {P P' : Custody all} (h : P.Move P') (hs : P'.sender = P.sender) (hr : P'.receiver = P.receiver) :
    P'.free = P.free ∧ P'.queue = P.queue := by
  cases h with
  | stay => exact ⟨rfl, rfl⟩
  | take h => exact absurd hs (Multiset.lt_cons_self _ _).ne'
  | send h => exact absurd (h.symm.trans hs.symm) (Multiset.lt_cons_self _ _).ne'
  | receive h => exact absurd hr (Multiset.lt_cons_self _ _).ne'
  | release h => exact absurd (h.symm.trans hr.symm) (Multiset.lt_cons_self _ _).ne'

/-! ## What a custody guarantees -/

theorem card (P : Custody all) :
    P.free.length + P.sender.card + P.queue.length + P.receiver.card = all.card := by
  have := congrArg Multiset.card P.spread
  simpa only [Multiset.card_add, Multiset.coe_card] using this

/-- While the sender holds a token there is room for it in the message queue. -/
theorem queue_length_lt (P : Custody all) {s : Multiset α} (h : P.sender = d ::ₘ s) : P.queue.length < all.card := by
  have hc := P.card
  have hs : P.sender.card = s.card + 1 := by rw [h, Multiset.card_cons]
  omega

theorem mem_free (P : Custody all) (h : d ∈ P.free) : d ∈ all := by
  have : d ∈ (P.free : Multiset α) + P.sender + P.queue + P.receiver := by simp [h]
  rwa [P.spread] at this

theorem mem_sender (P : Custody all) (h : d ∈ P.sender) : d ∈ all := by
  have : d ∈ (P.free : Multiset α) + P.sender + P.queue + P.receiver := by simp [h]
  rwa [P.spread] at this

theorem mem_queue (P : Custody all) (h : d ∈ P.queue) : d ∈ all := P.swap.mem_free h

theorem mem_receiver (P : Custody all) (h : d ∈ P.receiver) : d ∈ all := P.swap.mem_sender h

/-- When the tokens are distinct, so are those of the two parties and the queued messages together. -/
theorem nodup (P : Custody all) (hn : all.Nodup) :
    (P.sender + (P.queue : Multiset α) + P.receiver).Nodup := by
  refine Multiset.nodup_of_le ?_ (P.spread ▸ hn)
  rw [add_assoc (P.free : Multiset α), add_assoc (P.free : Multiset α)]
  exact Multiset.le_add_left _ _

/-- No token is in both hands. -/
theorem apart (P : Custody all) (hn : all.Nodup) (hs : d ∈ P.sender) : d ∉ P.receiver := fun hr =>
  Multiset.disjoint_left.1 (Multiset.nodup_add.1 (P.nodup hn)).2.2 (Multiset.mem_add.2 (Or.inl hs)) hr

/-- The oldest free token is in nobody's hands. -/
theorem fresh_free (P : Custody all) (hn : all.Nodup) {f : List α} (h : P.free = d :: f) :
    d ∉ P.sender ∧ d ∉ P.receiver := by
  have hnd := (P.take h).nodup hn
  rw [show (P.take h).sender = d ::ₘ P.sender from rfl, Multiset.cons_add, Multiset.cons_add, Multiset.nodup_cons,
    Multiset.mem_add, Multiset.mem_add] at hnd
  exact ⟨fun hs => hnd.1 (Or.inl (Or.inl hs)), fun hr => hnd.1 (Or.inr hr)⟩

/-- Neither is the oldest message. -/
theorem fresh_queue (P : Custody all) (hn : all.Nodup) {q : List α} (h : P.queue = d :: q) : d ∉ P.sender ∧ d ∉ P.receiver :=
  (P.swap.fresh_free hn h).symm

end Custody
