/-
`rpmsg_ns_announce` and `rpmsg_ns_rx_cb` with the packed message between them. The name is copied with `env_strncpy`
into a field of `RL_NS_NAME_SIZE` bytes, which ends with a zero byte only where the name is shorter than that, and the
receiver hands out a pointer to the field.
-/
import RpmsgLite.Lib.CString
import RpmsgLite.Link.GiveBack
import RpmsgLite.Link.Timeout
import RpmsgLite.Ns.Bind

namespace RpmsgLite

open ByteMem

def RL_NS_NAME_SIZE : Nat := 32

/-! ## The message -/

/-- Field addresses and the size of `struct rpmsg_ns_msg`, which is packed. -/
def nsMsgNameAt (msg : Nat) : Nat := msg
def nsMsgAddrAt (msg : Nat) : Nat := msg + RL_NS_NAME_SIZE
def nsMsgFlagsAt (msg : Nat) : Nat := msg + (RL_NS_NAME_SIZE + 4)
def nsMsgSize : Nat := RL_NS_NAME_SIZE + 8

/-- `env_strncpy` -/
def envStrncpy (m : ByteMem) (dest src len : Nat) : ByteMem := m.strncpy dest src len

/-- The stores of `rpmsg_ns_announce` into its message at `nsMsg`. -/
def writeNsMsg (m : ByteMem) (nsMsg : Nat) (addr : UInt32) (eptName : Nat) (flags : UInt32) : ByteMem :=
  let m := envStrncpy m (nsMsgNameAt nsMsg) eptName RL_NS_NAME_SIZE
  let m := m.st32 (nsMsgFlagsAt nsMsg) flags
  m.st32 (nsMsgAddrAt nsMsg) addr

/-- `rpmsg_ns_announce` up to its call of `rpmsg_lite_send`, on a core whose own memory is `m`; of the endpoint its
address is read. -/
def rpmsgNsAnnounce (w : Nat) (m : ByteMem) (nsMsg : Nat) (newEpt : Option UInt32) (eptName : Nat) (flags : UInt32) :
    Except Int TxCall :=
  if eptName = 0 then .error RL_ERR_PARAM
  else
    match newEpt with
    | none => .error RL_ERR_PARAM
    | some addr =>
      let m := writeNsMsg m nsMsg addr eptName flags
      .ok (.send (some addr) RL_NS_EPT_ADDR (some fun i => m (nsMsg + i)) nsMsgSize (rlBlock w))

/-- A call of the application's callback. -/
structure NsCall where
  cb : Nat
  newEpt : UInt32
  newEptName : Nat
  flags : UInt32
  userData : Nat
deriving DecidableEq

/-- `rpmsg_ns_rx_cb`, with the call that it makes and what it returns; `none` is a failed `RL_ASSERT`. -/
def rpmsgNsRxCb (ctxts : Nat → Option RpmsgNsCallbackData) (m : ByteMem) (payload : Nat) (payloadLen : UInt32) (priv : Nat) :
    Option (Option NsCall × Int) :=
  if priv = 0 then none
  else
    (ctxts priv).bind fun ctxt =>
      if ctxt.cb = 0 then none
      else if payloadLen.toNat = nsMsgSize then
        some (some ⟨ctxt.cb, m.ld32 (nsMsgAddrAt payload), nsMsgNameAt payload, m.ld32 (nsMsgFlagsAt payload), ctxt.userData⟩,
          RL_RELEASE)
      else some (none, RL_RELEASE)

/-- The application's callback learns the address, the flags and the name, as much of it as the field can hold. -/
structure NsCall.Announces (call : NsCall) (m : ByteMem) (ctxt : RpmsgNsCallbackData) (addr flags : UInt32) (name : List UInt8) :
    Prop where
  cb : call.cb = ctxt.cb
  userData : call.userData = ctxt.userData
  newEpt : call.newEpt = addr
  flags : call.flags = flags
  name : CString m call.newEptName (name.take (RL_NS_NAME_SIZE - 1))

section

variable {m m' : ByteMem} {nsMsg eptName payload priv : Nat} {addr flags : UInt32} {name : List UInt8}
  {ctxts : Nat → Option RpmsgNsCallbackData} {ctxt : RpmsgNsCallbackData}

/-- What the fields of the message hold. -/
structure NsMsgIs (m : ByteMem) (msg : Nat) (addr flags : UInt32) (name : List UInt8) : Prop where
  name : ∀ i < RL_NS_NAME_SIZE, m (msg + i) = name.getD i 0
  addr : m.ld32 (nsMsgAddrAt msg) = addr
  flags : m.ld32 (nsMsgFlagsAt msg) = flags

theorem NsMsgIs.congr (h : NsMsgIs m payload addr flags name) (ha : Agree m m' payload (payload + nsMsgSize)) :
    NsMsgIs m' payload addr flags name := by
  simp only [nsMsgSize, RL_NS_NAME_SIZE] at ha
  constructor
  · intro i hi
    simp only [RL_NS_NAME_SIZE] at hi
    rw [ha (payload + i) (by omega) (by omega)]
    exact h.name i hi
  · rw [ld32_congr (ha.mono (by simp only [nsMsgAddrAt]; omega) (by simp only [nsMsgAddrAt, RL_NS_NAME_SIZE]; omega))]
    exact h.addr
  · rw [ld32_congr (ha.mono (by simp only [nsMsgFlagsAt]; omega) (by simp only [nsMsgFlagsAt, RL_NS_NAME_SIZE]; omega))]
    exact h.flags

theorem writeNsMsg_spec (h : CString m eptName name) (hd : nsMsg + nsMsgSize ≤ eptName ∨ eptName + name.length + 1 ≤ nsMsg)
    (addr flags : UInt32) : NsMsgIs (writeNsMsg m nsMsg addr eptName flags) nsMsg addr flags name := by
  simp only [nsMsgSize, RL_NS_NAME_SIZE] at hd
  unfold writeNsMsg envStrncpy
  dsimp only
  have hcopy : ∀ i < 32, m.strncpy (nsMsgNameAt nsMsg) eptName RL_NS_NAME_SIZE (nsMsg + i) = name.getD i 0 := by
    intro i hi
    refine (strncpy_apply h (by simp only [nsMsgNameAt, RL_NS_NAME_SIZE]; omega) _).trans ?_
    rw [if_pos (by simp only [nsMsgNameAt, RL_NS_NAME_SIZE]; omega), nsMsgNameAt, Nat.add_sub_cancel_left]
  -- the two words behind the name are stored after it
  generalize m.strncpy (nsMsgNameAt nsMsg) eptName RL_NS_NAME_SIZE = m₁ at hcopy
  have hf := frame_st32 m₁ (nsMsgFlagsAt nsMsg) flags
  have hflags : (m₁.st32 (nsMsgFlagsAt nsMsg) flags).ld32 (nsMsgFlagsAt nsMsg) = flags := ld32_st32 _ _ _
  generalize m₁.st32 (nsMsgFlagsAt nsMsg) flags = m₂ at hf hflags
  have ha := frame_st32 m₂ (nsMsgAddrAt nsMsg) addr
  simp only [nsMsgAddrAt, nsMsgFlagsAt, RL_NS_NAME_SIZE] at hf ha hflags ⊢
  constructor
  · intro i hi
    simp only [RL_NS_NAME_SIZE] at hi
    rw [ha (nsMsg + i) (by omega), hf (nsMsg + i) (by omega)]
    exact hcopy i hi
  · exact ld32_st32 _ _ _
  · simp only [nsMsgFlagsAt, RL_NS_NAME_SIZE]
    rw [ld32_congr (ha.agree (by omega))]
    exact hflags

/-- The receiver of a whole message calls the application, and the name is there exactly when it is short enough. -/
theorem NsMsgIs.rxCb_iff (h : NsMsgIs m payload addr flags name) (hname : ∀ c ∈ name, c ≠ 0) (hp : priv ≠ 0)
    (hctxt : ctxts priv = some ctxt) (hcb : ctxt.cb ≠ 0) :
    (∃ call, rpmsgNsRxCb ctxts m payload (UInt32.ofNat nsMsgSize) priv = some (some call, RL_RELEASE) ∧
      call.Announces m ctxt addr flags name) ↔ name.length < RL_NS_NAME_SIZE := by
  have hrx : rpmsgNsRxCb ctxts m payload (UInt32.ofNat nsMsgSize) priv =
      some (some ⟨ctxt.cb, addr, payload, flags, ctxt.userData⟩, RL_RELEASE) := by
    unfold rpmsgNsRxCb
    rw [if_neg hp, hctxt, Option.bind_some, if_neg hcb, if_pos (by decide), h.addr, h.flags]
    rfl
  rw [← cstring_take_iff hname h.name (by decide), hrx]
  constructor
  · rintro ⟨call, hcall, ha⟩
    cases hcall
    exact ha.name
  · intro hs
    exact ⟨_, rfl, rfl, rfl, rfl, rfl, hs⟩

/-- A payload of another length calls nothing. -/
theorem rpmsgNsRxCb_other {payloadLen : UInt32} {call : Option NsCall} {r : Int} (hlen : payloadLen.toNat ≠ nsMsgSize)
    (h : rpmsgNsRxCb ctxts m payload payloadLen priv = some (call, r)) : call = none := by
  unfold rpmsgNsRxCb at h
  simp only [if_neg hlen] at h
  split at h
  · cases h
  obtain ⟨ctxt, -, h⟩ := Option.bind_eq_some_iff.1 h
  split at h
  · cases h
  · cases h
    rfl

/-! ## Between the two -/

/-- A message of a send whose data were at `p` has their bytes behind its header. -/
theorem agree_of_msgAt {buf p n : Nat} {src dst : UInt32} (hn : n < 65536)
    (h : msgAt m' buf = Msg.of src dst ((List.range n).map fun i => m (p + i))) :
    (msgAt m' buf).len = UInt16.ofNat n ∧ ∀ i < n, m' (msgDataAt buf + i) = m (p + i) := by
  have hlen : (msgAt m' buf).len = UInt16.ofNat n := by
    rw [h]
    simp only [Msg.of, List.length_map, List.length_range]
  have hnat : (m'.ld16 (hdrLenAt buf)).toNat = n := by
    have hlen' : m'.ld16 (hdrLenAt buf) = UInt16.ofNat n := hlen
    rw [hlen', UInt16.toNat_ofNat_of_lt' hn]
  refine ⟨hlen, fun i hi => ?_⟩
  have hdata : m'.block (msgDataAt buf) (m'.ld16 (hdrLenAt buf)).toNat = (List.range n).map fun i => m (p + i) :=
    congrArg Msg.data h
  rw [hnat] at hdata
  have hget := congrArg (fun l => l[i]?) hdata
  simpa [block, hi] using hget

/-- The message that a callback is given is the one that the other core sent at that place. -/
theorem Link.Delivered.taken {s : Link} {r : Role} {g : Got} (h : s.Delivered r) (hg : (s.side r.peer).rx.hand = .taken g) :
    (s.side r).tx.sent[(s.side r.peer).rx.recv.length]? = some (msgAt s.m g.buffer) := by
  have hrest := h.rest
  unfold Link.inflightBufs at hrest
  rw [hg] at hrest
  have hhead := congrArg (fun l => l[0]?) hrest
  rw [List.getElem?_drop] at hhead
  exact hhead

/-- What `rpmsg_ns_announce` hands to `rpmsg_lite_send`. -/
theorem rpmsgNsAnnounce_eq {w : Nat} (hne : eptName ≠ 0) :
    rpmsgNsAnnounce w m nsMsg (some addr) eptName flags =
      .ok (.send (some addr) RL_NS_EPT_ADDR (some fun i => writeNsMsg m nsMsg addr eptName flags (nsMsg + i)) nsMsgSize
        (rlBlock w)) := by
  unfold rpmsgNsAnnounce
  rw [if_neg hne]

/-- Where the message of an announcement has arrived, its fields are there. -/
theorem NsMsgIs.of_msgAt {buf : Nat} (h : CString m eptName name)
    (hd : nsMsg + nsMsgSize ≤ eptName ∨ eptName + name.length + 1 ≤ nsMsg)
    (hmsg : msgAt m' buf = Msg.of addr RL_NS_EPT_ADDR
      ((List.range nsMsgSize).map fun i => writeNsMsg m nsMsg addr eptName flags (nsMsg + i))) :
    (msgAt m' buf).len.toUInt32 = UInt32.ofNat nsMsgSize ∧ NsMsgIs m' (msgDataAt buf) addr flags name := by
  obtain ⟨hlen, hbytes⟩ := agree_of_msgAt (by decide) hmsg
  refine ⟨by rw [hlen]; rfl, ?_⟩
  have hsent := writeNsMsg_spec (m := m) h hd addr flags
  generalize writeNsMsg m nsMsg addr eptName flags = m₁ at hbytes hsent
  -- the fields are read at the same offsets on both sides
  have hle : ∀ {k n : Nat}, k + n ≤ nsMsgSize → m'.le (msgDataAt buf + k) n = m₁.le (nsMsg + k) n := by
    intro k n
    induction n generalizing k with
    | zero => exact fun _ => rfl
    | succ n ih =>
      intro hk
      simp only [ByteMem.le]
      rw [hbytes k (by omega), Nat.add_assoc, Nat.add_assoc nsMsg, ih (by omega)]
  constructor
  · intro i hi
    rw [hbytes i (by simp only [nsMsgSize]; omega)]
    exact hsent.name i hi
  · rw [← hsent.addr]
    exact congrArg UInt32.ofNat (hle (by decide))
  · rw [← hsent.flags]
    exact congrArg UInt32.ofNat (hle (by decide))

end

/-- What an announcement sends, wherever it has arrived, makes the receiver call the application with the address, the
flags and the name exactly when the name is shorter than its field; in every run from a ready start the message that a
callback is given is the one that the other core sent at that place; and a payload of another length calls nothing. -/
theorem ns_announce_iff (w : Nat) :
    (∀ (m : ByteMem) (nsMsg eptName : Nat) (name : List UInt8) (addr flags : UInt32), eptName ≠ 0 → CString m eptName name →
      (nsMsg + nsMsgSize ≤ eptName ∨ eptName + name.length + 1 ≤ nsMsg) →
      ∃ data, rpmsgNsAnnounce w m nsMsg (some addr) eptName flags =
          .ok (.send (some addr) RL_NS_EPT_ADDR (some data) nsMsgSize (rlBlock w)) ∧
        ∀ (m' : ByteMem) (buf priv : Nat) (ctxts : Nat → Option RpmsgNsCallbackData) (ctxt : RpmsgNsCallbackData),
          msgAt m' buf = Msg.of addr RL_NS_EPT_ADDR ((List.range nsMsgSize).map data) → priv ≠ 0 → ctxts priv = some ctxt →
          ctxt.cb ≠ 0 →
          ((∃ call, rpmsgNsRxCb ctxts m' (msgDataAt buf) (msgAt m' buf).len.toUInt32 priv = some (some call, RL_RELEASE) ∧
            call.Announces m' ctxt addr flags name) ↔ name.length < RL_NS_NAME_SIZE)) ∧
    (∀ (p : ShmemParams) (shmem : Nat) (env envR : InitEnv) (highestM highestR linkId : UInt32) (cfg : ShmemConfig) (length : Nat)
        (m₀ m₁ : ByteMem) (dm dr : RpmsgLiteInstance) (c : LinkConfig) (s : Link) (r : Role) (g : Got),
      rpmsgLiteMasterInit w env highestM cfg shmem length linkId m₀ = .instance dm m₁ →
      rpmsgLiteRemoteInit w envR highestR cfg shmem linkId = some dr → shmem + length ≤ 2 ^ 32 →
        masterParams w cfg = some p →
      LinkReady w cfg shmem p m₀ → c.payloadSize = cfg.payloadSize → c.limit ≤ 65535 →
      Link.Reachable c (Link.start m₁ dm dr) s → (s.side r.peer).rx.hand = .taken g →
      (s.side r).tx.sent[(s.side r.peer).rx.recv.length]? = some (msgAt s.m g.buffer)) ∧
    ∀ (ctxts : Nat → Option RpmsgNsCallbackData) (m : ByteMem) (payload priv : Nat) (payloadLen : UInt32) (call : Option NsCall)
      (ret : Int), payloadLen.toNat ≠ nsMsgSize → rpmsgNsRxCb ctxts m payload payloadLen priv = some (call, ret) →
        call = none := by
  refine ⟨?_, ?_, ?_⟩
  · intro m nsMsg eptName name addr flags hne hname hd
    refine ⟨_, rpmsgNsAnnounce_eq hne, fun m' buf priv ctxts ctxt hmsg hp hctxt hcb => ?_⟩
    obtain ⟨hlen, hmsgIs⟩ := NsMsgIs.of_msgAt hname hd hmsg
    rw [hlen]
    exact hmsgIs.rxCb_iff hname.ne_zero hp hctxt hcb
  · intro p shmem env envR highestM highestR linkId cfg length m₀ m₁ dm dr c s r g hm hr hlen hp hok hc hlimit hreach hg
    obtain ⟨P, hinv⟩ := linkInv_reachable hm hr hlen hp hok hc hreach
    exact (hinv.delivered (Link.reachable_short hreach r) hlimit).taken hg
  · intro ctxts m payload priv payloadLen call ret hlen hrx
    exact rpmsgNsRxCb_other hlen hrx

/-! ## A name of one byte, and one that fills the field -/

/-- A core's memory with `n` times the letter a at 200. -/
def lettersMem (n : Nat) : ByteMem := fun b => if 200 ≤ b ∧ b < 200 + n then 97 else 0

def lettersCall (n : Nat) : Except Int TxCall := rpmsgNsAnnounce 32 (lettersMem n) 300 (some 7) 200 RL_NO_FLAGS.toUInt32

/-- The receiver's memory, with the message of the call in a buffer at 4096. -/
def arrivedMem (call : Except Int TxCall) : ByteMem :=
  match call with
  | .ok (.send (some src) dst (some data) size _) =>
    rpmsgLiteFormatMessage (fun _ => 0) ⟨4096, 56, 0⟩ src dst ((List.range size).map data)
  | _ => fun _ => 0

/-- The name of one letter is announced whole. -/
theorem ns_announce_iff_letter : ∃ call,
    rpmsgNsRxCb (fun _ => some ⟨9, 0⟩) (arrivedMem (lettersCall 1)) 4112 40 1 = some (some call, RL_RELEASE) ∧
      call.Announces (arrivedMem (lettersCall 1)) ⟨9, 0⟩ 7 0 [97] := by
  obtain ⟨data, hcall, hiff⟩ := (ns_announce_iff 32).1 (lettersMem 1) 300 200 [97] 7 0 (by decide) ⟨rfl, by decide, rfl⟩
    (by decide)
  have hmem : arrivedMem (lettersCall 1) = rpmsgLiteFormatMessage (fun _ => 0) ⟨4096, 56, 0⟩ 7 RL_NS_EPT_ADDR
      ((List.range nsMsgSize).map data) := by
    unfold lettersCall
    rw [show rpmsgNsAnnounce 32 (lettersMem 1) 300 (some 7) 200 RL_NO_FLAGS.toUInt32 = _ from hcall]
    rfl
  have hmsg : msgAt (arrivedMem (lettersCall 1)) 4096 = Msg.of 7 RL_NS_EPT_ADDR ((List.range nsMsgSize).map data) := by
    rw [hmem]
    refine (rpmsgLiteFormatMessage_spec _ ⟨4096, 56, 0⟩ _ _ _).2.trans (Msg.seen_eq le_rfl ⟨?_, rfl⟩)
    show ((List.range nsMsgSize).map data).length ≤ 65535
    rw [List.length_map, List.length_range]
    decide
  have h := (hiff _ 4096 1 (fun _ => some ⟨9, 0⟩) ⟨9, 0⟩ hmsg (by decide) rfl (by decide)).2 (by decide)
  rw [hmsg] at h
  exact h

/-- A name of 32 bytes arrives without a zero byte in its field. -/
theorem ns_announce_full :
    CString (lettersMem 32) 200 (List.replicate 32 97) ∧
      rpmsgNsRxCb (fun _ => some ⟨9, 0⟩) (arrivedMem (lettersCall 32)) 4112 40 1 =
        some (some ⟨9, 7, 4112, 0, 0⟩, RL_RELEASE) ∧
      ∀ i < RL_NS_NAME_SIZE, arrivedMem (lettersCall 32) (4112 + i) ≠ 0 := by
  refine ⟨cstring_of_short (n := 33) (fun c hc => ?_) (by decide) (by decide), by decide +kernel, by decide +kernel⟩
  rw [List.eq_of_mem_replicate hc]
  decide

end RpmsgLite
