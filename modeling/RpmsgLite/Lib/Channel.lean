/-
A channel over a fixed number of buffers. The sender takes a free buffer for a message it gives whole, or as a draft it
writes into; the queue keeps the messages in order; the receiver takes the oldest one, looks at it and gives its buffer
back, or holds it for a while. No buffer is lost, and the buffers in use find their way back in a bounded number of
steps whichever of them moves next.
-/
import RpmsgLite.Lib.Tasks

/-- The buffer the receiver is working on. -/
inductive ChannelHand (δ μ : Type)
  | idle
  | taken (msg : μ)
  | seen (area : δ)

/-- `σ` are the messages as the sender gives them, `μ` as they are queued; `δ` are the contents of a buffer that somebody
may write to. A send has filled its buffer or not. -/
structure BufferChannel (σ δ μ : Type) where
  free : Nat
  sending : List (σ × Bool)
  drafts : List δ
  queue : List μ
  hand : ChannelHand δ μ
  held : List δ

namespace BufferChannel

variable {σ δ μ : Type}

/-! ## The operations -/

inductive Op (σ δ μ : Type)
  | send (x : σ)
  | fill (i : Nat)
  | enqueue (i : Nat)
  | draft (area : δ)
  | edit (i : Nat) (f : δ → δ)
  | publish (i : Nat) (f : δ → μ)
  | take
  | read (area : δ)
  | done (hold : Bool)
  | editSeen (f : δ → δ)
  | editHeld (i : Nat) (f : δ → δ)
  | release (i : Nat)

/-- `n` buffers, all of them free. -/
def empty (n : Nat) : BufferChannel σ δ μ := ⟨n, [], [], [], .idle, []⟩

/-- `none` is an operation that cannot be carried out. -/
def step (message : σ → μ) (ch : BufferChannel σ δ μ) : Op σ δ μ → Option (BufferChannel σ δ μ)
  | .send x => if ch.free = 0 then none else some { ch with free := ch.free - 1, sending := ch.sending ++ [(x, false)] }
  | .fill i => ch.sending[i]?.map fun e => { ch with sending := ch.sending.set i (e.1, true) }
  | .enqueue i =>
    match ch.sending[i]? with
    | some (x, true) => some { ch with sending := ch.sending.eraseIdx i, queue := ch.queue ++ [message x] }
    | _ => none
  | .draft area => if ch.free = 0 then none else some { ch with free := ch.free - 1, drafts := ch.drafts ++ [area] }
  | .edit i f => ch.drafts[i]?.map fun area => { ch with drafts := ch.drafts.set i (f area) }
  | .publish i f =>
    ch.drafts[i]?.map fun area => { ch with drafts := ch.drafts.eraseIdx i, queue := ch.queue ++ [f area] }
  | .take =>
    match ch.queue, ch.hand with
    | [], _ => none
    | msg :: queue, .idle => some { ch with queue := queue, hand := .taken msg }
    | _ :: _, _ => none
  | .read area =>
    match ch.hand with
    | .taken _ => some { ch with hand := .seen area }
    | _ => none
  | .done hold =>
    match ch.hand with
    | .seen area =>
      some { ch with free := if hold then ch.free else ch.free + 1, hand := .idle,
                     held := if hold then ch.held ++ [area] else ch.held }
    | _ => none
  | .editSeen f =>
    match ch.hand with
    | .seen area => some { ch with hand := .seen (f area) }
    | _ => none
  | .editHeld i f => ch.held[i]?.map fun area => { ch with held := ch.held.set i (f area) }
  | .release i => ch.held[i]?.map fun _ => { ch with free := ch.free + 1, held := ch.held.eraseIdx i }

/-- The operations that bring a buffer closer to the free ones. -/
def advances (ch : BufferChannel σ δ μ) : Op σ δ μ → Bool
  | .fill i => ch.sending[i]?.any fun e => !e.2
  | .enqueue _ | .publish _ _ | .take | .read _ | .done _ | .release _ => true
  | _ => false

end BufferChannel

/-! ## What is counted -/

namespace ChannelHand

variable {δ μ : Type}

def size : ChannelHand δ μ → Nat
  | .idle => 0
  | _ => 1

def work : ChannelHand δ μ → Nat
  | .idle => 0
  | .taken _ => 3
  | .seen _ => 2

end ChannelHand

namespace BufferChannel

variable {σ δ μ : Type} {message : σ → μ} {ch ch' : BufferChannel σ δ μ} {op : Op σ δ μ}

/-- All the buffers. -/
def size (ch : BufferChannel σ δ μ) : Nat :=
  ch.free + ch.sending.length + ch.drafts.length + ch.queue.length + ch.hand.size + ch.held.length

/-- How far a send is from having its buffer back. -/
def sendWork (e : σ × Bool) : Nat := if e.2 then 5 else 6

/-- How many steps the buffers in use are from the free ones, at most. -/
def work (ch : BufferChannel σ δ μ) : Nat :=
  (ch.sending.map sendWork).sum + 5 * ch.drafts.length + 4 * ch.queue.length + ch.hand.work + ch.held.length

theorem sum_eraseIdx {α : Type} (f : α → Nat) {l : List α} {i : Nat} {a : α} (h : l[i]? = some a) :
    ((l.eraseIdx i).map f).sum + f a = (l.map f).sum := by
  obtain ⟨hi, rfl⟩ := List.getElem?_eq_some_iff.1 h
  have hperm := (List.getElem_cons_eraseIdx_perm hi).map f
  rw [← hperm.sum_eq, List.map_cons, List.sum_cons, Nat.add_comm]

theorem length_eraseIdx {α : Type} {l : List α} {i : Nat} {a : α} (h : l[i]? = some a) :
    (l.eraseIdx i).length + 1 = l.length := by
  obtain ⟨hi, -⟩ := List.getElem?_eq_some_iff.1 h
  rw [List.length_eraseIdx_of_lt hi]
  omega

/-- What an operation can do. -/
inductive Stepped (message : σ → μ) (ch : BufferChannel σ δ μ) : Op σ δ μ → BufferChannel σ δ μ → Prop
  | send {x : σ} (h : ch.free ≠ 0) :
    Stepped message ch (.send x) { ch with free := ch.free - 1, sending := ch.sending ++ [(x, false)] }
  | fill {i : Nat} {e : σ × Bool} (hi : ch.sending[i]? = some e) :
    Stepped message ch (.fill i) { ch with sending := ch.sending.set i (e.1, true) }
  | enqueue {i : Nat} {x : σ} (hi : ch.sending[i]? = some (x, true)) :
    Stepped message ch (.enqueue i) { ch with sending := ch.sending.eraseIdx i, queue := ch.queue ++ [message x] }
  | draft {area : δ} (h : ch.free ≠ 0) :
    Stepped message ch (.draft area) { ch with free := ch.free - 1, drafts := ch.drafts ++ [area] }
  | edit {i : Nat} {f : δ → δ} {area : δ} (hi : ch.drafts[i]? = some area) :
    Stepped message ch (.edit i f) { ch with drafts := ch.drafts.set i (f area) }
  | publish {i : Nat} {f : δ → μ} {area : δ} (hi : ch.drafts[i]? = some area) :
    Stepped message ch (.publish i f) { ch with drafts := ch.drafts.eraseIdx i, queue := ch.queue ++ [f area] }
  | take {msg : μ} {queue : List μ} (hhand : ch.hand = .idle) (hqueue : ch.queue = msg :: queue) :
    Stepped message ch .take { ch with queue := queue, hand := .taken msg }
  | read {msg : μ} {area : δ} (hhand : ch.hand = .taken msg) : Stepped message ch (.read area) { ch with hand := .seen area }
  | done {hold : Bool} {area : δ} (hhand : ch.hand = .seen area) :
    Stepped message ch (.done hold)
      { ch with free := if hold then ch.free else ch.free + 1, hand := .idle,
                held := if hold then ch.held ++ [area] else ch.held }
  | editSeen {f : δ → δ} {area : δ} (hhand : ch.hand = .seen area) :
    Stepped message ch (.editSeen f) { ch with hand := .seen (f area) }
  | editHeld {i : Nat} {f : δ → δ} {area : δ} (hi : ch.held[i]? = some area) :
    Stepped message ch (.editHeld i f) { ch with held := ch.held.set i (f area) }
  | release {i : Nat} {area : δ} (hi : ch.held[i]? = some area) :
    Stepped message ch (.release i) { ch with free := ch.free + 1, held := ch.held.eraseIdx i }

theorem step_cases (h : ch.step message op = some ch') : ch.Stepped message op ch' := by
  cases op with
  | send x =>
    simp only [step] at h
    split at h
    · cases h
    · rename_i hne
      cases h
      exact .send hne
  | fill i =>
    obtain ⟨e, hi, rfl⟩ := Option.map_eq_some_iff.1 h
    exact .fill hi
  | enqueue i =>
    simp only [step] at h
    split at h
    · rename_i hi
      cases h
      exact .enqueue hi
    · cases h
  | draft area =>
    simp only [step] at h
    split at h
    · cases h
    · rename_i hne
      cases h
      exact .draft hne
  | edit i f =>
    obtain ⟨area, hi, rfl⟩ := Option.map_eq_some_iff.1 h
    exact .edit hi
  | publish i f =>
    obtain ⟨area, hi, rfl⟩ := Option.map_eq_some_iff.1 h
    exact .publish hi
  | take =>
    simp only [step] at h
    split at h
    · cases h
    · rename_i hqueue hhand
      cases h
      exact .take hhand hqueue
    · cases h
  | read area =>
    simp only [step] at h
    split at h
    · rename_i hhand
      cases h
      exact .read hhand
    · cases h
  | done hold =>
    simp only [step] at h
    split at h
    · rename_i hhand
      cases h
      exact .done hhand
    · cases h
  | editSeen f =>
    simp only [step] at h
    split at h
    · rename_i hhand
      cases h
      exact .editSeen hhand
    · cases h
  | editHeld i f =>
    obtain ⟨area, hi, rfl⟩ := Option.map_eq_some_iff.1 h
    exact .editHeld hi
  | release i =>
    obtain ⟨area, hi, rfl⟩ := Option.map_eq_some_iff.1 h
    exact .release hi

/-! ## Buffers are neither lost nor made -/

theorem step_size (h : ch.step message op = some ch') : ch'.size = ch.size := by
  cases step_cases h with
  | send h =>
    simp only [size, List.length_append, List.length_singleton]
    omega
  | fill hi => simp only [size, List.length_set]
  | enqueue hi =>
    have := length_eraseIdx hi
    simp only [size, List.length_append, List.length_singleton]
    omega
  | draft h =>
    simp only [size, List.length_append, List.length_singleton]
    omega
  | edit hi => simp only [size, List.length_set]
  | publish hi =>
    have := length_eraseIdx hi
    simp only [size, List.length_append, List.length_singleton]
    omega
  | take hhand hqueue =>
    simp only [size, hhand, hqueue, ChannelHand.size, List.length_cons]
    omega
  | read hhand => simp only [size, hhand, ChannelHand.size]
  | @done hold area hhand =>
    cases hold with
    | true =>
      simp only [size, hhand, ChannelHand.size, if_true, List.length_append, List.length_singleton]
      omega
    | false =>
      simp only [size, hhand, ChannelHand.size, Bool.false_eq_true, if_false]
      omega
  | editSeen hhand => simp only [size, hhand, ChannelHand.size]
  | editHeld hi => simp only [size, List.length_set]
  | release hi =>
    have := length_eraseIdx hi
    simp only [size]
    omega

/-! ## The way back -/

theorem work_le (ch : BufferChannel σ δ μ) : ch.work ≤ 6 * ch.size := by
  have hsend : (ch.sending.map sendWork).sum ≤ 6 * ch.sending.length := by
    have := List.sum_le_card_nsmul (ch.sending.map sendWork) 6 fun k hk => by
      obtain ⟨e, -, rfl⟩ := List.mem_map.1 hk
      unfold sendWork
      split <;> omega
    rw [List.length_map, smul_eq_mul] at this
    omega
  have hhand : ch.hand.work ≤ 6 * ch.hand.size := by
    cases ch.hand with
    | idle => exact Nat.zero_le _
    | taken => exact Nat.le_of_ble_eq_true rfl
    | seen => exact Nat.le_of_ble_eq_true rfl
  unfold work size
  omega

/-- Every advancing operation brings the buffers closer. -/
theorem step_work (ha : ch.advances op = true) (h : ch.step message op = some ch') : ch'.work < ch.work := by
  cases step_cases h with
  | send => cases ha
  | @fill i e hi =>
    have hset := Tasks.sum_set sendWork hi (e.1, true)
    simp only [advances, hi, Option.any_some, Bool.not_eq_true'] at ha
    simp only [sendWork, ha, if_true, Bool.false_eq_true, if_false] at hset
    simp only [work]
    omega
  | enqueue hi =>
    have := sum_eraseIdx sendWork hi
    simp only [sendWork, if_true] at this
    simp only [work, List.length_append, List.length_singleton]
    omega
  | draft => cases ha
  | edit => cases ha
  | publish hi =>
    have := length_eraseIdx hi
    simp only [work, List.length_append, List.length_singleton]
    omega
  | take hhand hqueue =>
    simp only [work, hhand, hqueue, ChannelHand.work, List.length_cons]
    omega
  | read hhand =>
    simp only [work, hhand, ChannelHand.work]
    omega
  | @done hold area hhand =>
    cases hold with
    | true =>
      simp only [work, hhand, ChannelHand.work, if_true, List.length_append, List.length_singleton]
      omega
    | false =>
      simp only [work, hhand, ChannelHand.work, Bool.false_eq_true, if_false]
      omega
  | editSeen => cases ha
  | editHeld => cases ha
  | release hi =>
    have := length_eraseIdx hi
    simp only [work]
    omega

/-- With all the buffers back nothing is in use. -/
theorem work_eq_zero (h : ch.work = 0) : ch = empty ch.size := by
  obtain ⟨free, sending, drafts, queue, hand, held⟩ := ch
  simp only [work] at h
  have hsend : sending = [] := by
    cases sending with
    | nil => rfl
    | cons e l =>
      have : 5 ≤ sendWork e := by
        unfold sendWork
        split <;> omega
      simp only [List.map_cons, List.sum_cons] at h
      omega
  have hhand : hand = .idle := by
    cases hand with
    | idle => rfl
    | taken => simp only [ChannelHand.work] at h; omega
    | seen => simp only [ChannelHand.work] at h; omega
  have hd : drafts = [] := List.eq_nil_of_length_eq_zero (by omega)
  have hq : queue = [] := List.eq_nil_of_length_eq_zero (by omega)
  have hh : held = [] := List.eq_nil_of_length_eq_zero (by omega)
  subst hsend hhand hd hq hh
  rfl

/-- The advancing operations that a channel with buffers in use can take, by where such a buffer is. -/
inductive CanAdvance (ch : BufferChannel σ δ μ) : Prop
  | fill {i : Nat} {x : σ} (hi : ch.sending[i]? = some (x, false))
  | enqueue {i : Nat} {x : σ} (hi : ch.sending[i]? = some (x, true))
  | publish {i : Nat} {area : δ} (hi : ch.drafts[i]? = some area)
  | take (hhand : ch.hand = .idle) (hqueue : ch.queue ≠ [])
  | read {msg : μ} (hhand : ch.hand = .taken msg)
  | done {area : δ} (hhand : ch.hand = .seen area)
  | release {i : Nat} {area : δ} (hi : ch.held[i]? = some area)

theorem canAdvance (h : ch.work ≠ 0) : ch.CanAdvance := by
  by_contra hno
  refine h ?_
  have hsend : ch.sending = [] := by
    refine List.eq_nil_iff_forall_not_mem.2 fun e he => hno ?_
    obtain ⟨i, hi⟩ := List.mem_iff_getElem?.1 he
    obtain ⟨x, filled⟩ := e
    cases filled with
    | true => exact .enqueue hi
    | false => exact .fill hi
  have hdrafts : ch.drafts = [] := by
    refine List.eq_nil_iff_forall_not_mem.2 fun area ha => hno ?_
    obtain ⟨i, hi⟩ := List.mem_iff_getElem?.1 ha
    exact .publish hi
  have hheld : ch.held = [] := by
    refine List.eq_nil_iff_forall_not_mem.2 fun area ha => hno ?_
    obtain ⟨i, hi⟩ := List.mem_iff_getElem?.1 ha
    exact .release hi
  have hhand : ch.hand = .idle := by
    cases hhand : ch.hand with
    | idle => rfl
    | taken msg => exact absurd (.read hhand) hno
    | seen area => exact absurd (.done hhand) hno
  have hqueue : ch.queue = [] := by
    by_contra hne
    exact hno (.take hhand hne)
  unfold work
  rw [hsend, hdrafts, hheld, hhand, hqueue]
  rfl

end BufferChannel
