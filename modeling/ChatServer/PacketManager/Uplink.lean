import ChatServer.PacketManager.Delivery

/-! # From `SendPacketQueue` to `ProcessRecvPacket`

A frame that a client has written is under way until its handler runs: in the stream, in
the receive buffer of its slot, or in the hand of the process thread. The worker that
stores a chunk and the notification for it take their turns in between.
-/

namespace Framing

variable {α : Type*} {F : Format α} {fs gs : List (List α)} {received unread : List α}
  {taken : List (List α)} {credit : ℕ}

/-- More frames come behind what was received. -/
theorem Reads.extend (h : Reads F fs received taken unread credit)
    (hr : received <+: fs.flatten) (gs : List (List α)) :
    Reads F (fs ++ gs) received taken unread credit where
  received_eq := h.received_eq
  taken_prefix _ := (h.taken_prefix hr).trans (List.prefix_append _ _)
  complete_le _ := h.complete_le hr

end Framing

namespace ChatServer
open LinearMemory Framing

/-- A frame that `ProcessPacket` passes on to `ProcessRecvPacket` -/
structure DataFrame (f : Bytes) : Prop where
  wellFormed : requestFormat.WellFormed f
  aboveSysEnd : System.aboveSysEnd f = true

namespace System

variable {n m : ℕ} {δ : Type*} {env : Env δ} {s s' : System n m δ} {i : Fin n} {l l' : SlotLog}
  {fs : List Bytes} {taken : List Bytes} {a : Action n}

/-- The bytes that a step stores for slot `i` -/
def stored (i : Fin n) : Action n → Bytes
  | .setPacketData j _ pData => if j = i then pData else []
  | _ => []

/-- The frame of slot `i` that a step passes to `ProcessRecvPacket` -/
def passed (s : System n m δ) (i : Fin n) : Action n → Option Bytes
  | .processRecvPacket _ => (s.frameInHand i).map (s.frameBytes i)
  | _ => none

/-- Without system packets, the account of a slot goes on as its bytes and frames do. -/
theorem next_received (hqueue : s.mSystemPacketQueue = []) (l : SlotLog) :
    (l.next i ⟨s, a, s'⟩).received = l.received ++ stored i a := by
  cases a with
  | setPacketData j connection pData =>
    rw [SlotLog.next_setPacketData, stored]
    split_ifs
    · rfl
    · exact (List.append_nil _).symm
  | dequePacketData =>
    simp only [SlotLog.next, stored, List.append_nil]
    split_ifs
    · split <;> rfl
    · rfl
  | processRecvPacket behind =>
    simp only [SlotLog.next, stored, List.append_nil]
    split
    · split_ifs <;> rfl
    · rfl
  | dequeSystemPacketData =>
    rw [SlotLog.next_noSystemPacket hqueue]
    exact (List.append_nil _).symm
  | acceptCompletion | close | resume => exact (List.append_nil _).symm

theorem next_dispatched (hqueue : s.mSystemPacketQueue = []) (l : SlotLog) :
    (l.next i ⟨s, a, s'⟩).dispatched = l.dispatched ++ (s.passed i a).toList := by
  cases a with
  | setPacketData j connection pData =>
    simp only [SlotLog.next_setPacketData, passed, Option.toList_none, List.append_nil]
    split_ifs <;> rfl
  | dequePacketData =>
    simp only [SlotLog.next, passed, Option.toList_none, List.append_nil]
    split_ifs
    · split <;> rfl
    · rfl
  | processRecvPacket behind =>
    cases hphase : s.phase with
    | processRecvPacket j v =>
      rw [SlotLog.next_processRecvPacket hphase, passed, frameInHand, hphase]
      by_cases hj : j = i
      · subst hj
        simp [frameBytes]
      · simp [hj]
    | dequePacketData | dequeSystemPacketData =>
      simp [SlotLog.next, passed, frameInHand, hphase]
  | dequeSystemPacketData =>
    rw [SlotLog.next_noSystemPacket hqueue]
    exact (List.append_nil _).symm
  | acceptCompletion | close | resume => exact (List.append_nil _).symm

/-- What the process thread holds of slot `i` is the header of the frame and a pointer to
it, and the frame lies inside the buffer. -/
def HandOk (s : System n m δ) (i : Fin n) : Prop :=
  ∀ v ∈ s.frameInHand i, v.packetId = (PacketHeader.read (s.frameBytes i v)).packetId ∧
    v.pDataPtr + v.dataSize.toNat ≤ 8096

theorem HandOk.congr (h : s.HandOk i) (hinHand : s'.frameInHand i = s.frameInHand i)
    (hbytes : ∀ v ∈ s.frameInHand i, s'.frameBytes i v = s.frameBytes i v) : s'.HandOk i := by
  intro v hv
  rw [hinHand] at hv
  rw [hbytes v hv]
  exact h v hv

theorem frameBytes_congr (hbuffer : s'.buffer i = s.buffer i) (v : PacketView) :
    s'.frameBytes i v = s.frameBytes i v := by
  rw [frameBytes, frameBytes, hbuffer]

/-- The frame that `GetPacket` returns is in hand with its own header. -/
theorem handOk_of_getPacket (hfs : ∀ f ∈ fs, requestFormat.WellFormed f)
    (h : Delivers i fs l s taken) (hr : l.received <+: fs.flatten) {v : PacketView}
    {b : ReceiveBuffer} (hget : (s.buffer i).getPacket = (some v, b)) (hbuffer : s'.buffer i = b)
    (hinHand : s'.frameInHand i = if v.packetId > PacketId.sysEnd.code then some v else none) :
    s'.HandOk i := by
  have hspec := h.valid.getPacket
  cases hnext : requestFormat.next (s.buffer i).unread with
  | none =>
    rw [hnext] at hspec
    simp [hget] at hspec
  | some r =>
    rcases r with ⟨f, rest⟩
    rw [hnext] at hspec
    rcases hspec with ⟨b', hb', hvalid, -, hmem, hsize, hpos, hframe⟩
    obtain ⟨rfl, rfl⟩ : (s.buffer i).viewAt = v ∧ b' = b := by simpa [hget, eq_comm] using hb'
    rcases h.reads.next_frame hfs hr hnext with ⟨fs', hstream⟩
    have hf : requestFormat.WellFormed f := hfs f (by simp [hstream])
    have hbytes : s'.frameBytes i (s.buffer i).viewAt = f := by
      rw [frameBytes, hbuffer, hmem, hsize]
      exact hframe
    intro v hv
    rw [hinHand] at hv
    obtain rfl := Option.some.inj (Option.ite_none_right_eq_some.mp hv).2
    rw [hbytes]
    constructor
    · rw [ReceiveBuffer.viewAt, ← Format.append_of_next hnext, PacketHeader.read_append hf.1]
    · have hbound := hvalid.ordered.trans hvalid.bounded
      rw [hpos, ReceiveBuffer.packetDataBufferSize_toNat] at hbound
      rw [hsize]
      exact hbound

/-- What the process thread has in hand stays, as long as receives spare it. -/
theorem HandOk.step (h : s.HandOk i) (hfs : ∀ f ∈ fs, requestFormat.WellFormed f)
    (hdelivers : Delivers i fs l s taken) (hr : l.received <+: fs.flatten)
    (hqueue : s.mSystemPacketQueue = []) (hstep : SlotStep env i l s a s' l')
    (hintime : ReceivesInTime ⟨s, a, s'⟩) : s'.HandOk i := by
  cases hstep with
  | other hbuffer hnotifications hinHand | noFrame hget hbuffer hnotifications hinHand =>
    exact h.congr hinHand fun v _ => frameBytes_congr hbuffer v
  | received hbuffer hnotifications hinHand =>
    rcases hintime with ⟨hcap, -, hspares⟩
    apply h.congr hinHand
    intro v hv
    rw [frameBytes, frameBytes, hbuffer]
    exact hdelivers.valid.window_setPacketData hcap (hspares v hv)
  | frame hget hbuffer hnotifications hbefore hinHand =>
    exact handOk_of_getPacket hfs hdelivers hr hget hbuffer hinHand
  | processed hbefore hbuffer hnotifications hinHand =>
    intro v hv
    rw [hinHand] at hv
    cases hv
  | systemPacket hpacket =>
    rw [hqueue] at hpacket
    cases hpacket

/-! ## The frames that are under way -/

/-- The bytes of a client that are in its stream, and its frames that are under way, by
the account of its slot -/
structure Uplink (i : Fin n) (s : System n m δ) (bytes : Bytes) (pending : List Bytes)
    (l : SlotLog) (taken : List Bytes) : Prop where
  frames : ∀ f ∈ l.dispatched ++ pending, DataFrame f
  delivers : Delivers i (l.dispatched ++ pending) l s taken
  stream : l.received ++ bytes = (l.dispatched ++ pending).flatten
  hand : s.HandOk i

variable {bytes bytes' : Bytes} {pending : List Bytes} {f : Bytes}

namespace Uplink

theorem wellFormed (h : Uplink i s bytes pending l taken) :
    ∀ f ∈ l.dispatched ++ pending, requestFormat.WellFormed f := fun f hf => (h.frames f hf).wellFormed

theorem received_prefix (h : Uplink i s bytes pending l taken) :
    l.received <+: (l.dispatched ++ pending).flatten := ⟨bytes, h.stream⟩

/-- What `GetPacket` has taken are data frames, the one in hand included. -/
theorem dispatched_append_inHand (h : Uplink i s bytes pending l taken) :
    l.dispatched ++ ((s.frameInHand i).map (s.frameBytes i)).toList = taken ∧
      taken <+: l.dispatched ++ pending := by
  have htaken := h.delivers.reads.taken_prefix h.received_prefix
  refine ⟨?_, htaken⟩
  rw [h.delivers.dispatched h.received_prefix, List.filter_eq_self]
  exact fun f hf => (h.frames f (htaken.subset hf)).aboveSysEnd

/-- The frame in hand is the first one that is under way. -/
theorem inHand (h : Uplink i s bytes pending l taken) {v : PacketView}
    (hv : s.frameInHand i = some v) : ∃ rest, pending = s.frameBytes i v :: rest := by
  rcases h.dispatched_append_inHand with ⟨htaken, hprefix⟩
  rw [hv, Option.map_some, Option.toList_some] at htaken
  rw [← htaken, List.prefix_append_right_inj] at hprefix
  rcases hprefix with ⟨rest, hrest⟩
  exact ⟨rest, hrest.symm⟩

theorem passed_prefix (h : Uplink i s bytes pending l taken) (a : Action n) :
    ∃ rest, pending = (s.passed i a).toList ++ rest := by
  cases a with
  | processRecvPacket behind =>
    cases hv : s.frameInHand i with
    | none => exact ⟨pending, by simp [passed, hv]⟩
    | some v =>
      rcases h.inHand hv with ⟨rest, hrest⟩
      exact ⟨rest, by simpa [passed, hv] using hrest⟩
  | _ => exact ⟨pending, rfl⟩

/-- The client writes a frame. -/
theorem send (h : Uplink i s bytes pending l taken) (hf : DataFrame f) :
    Uplink i s (bytes ++ f) (pending ++ [f]) l taken where
  frames := by
    rw [← List.append_assoc]
    exact List.forall_mem_append.mpr ⟨h.frames, List.forall_mem_singleton.mpr hf⟩
  delivers := by
    rw [← List.append_assoc]
    exact
      { valid := h.delivers.valid
        reads := h.delivers.reads.extend h.received_prefix [f]
        dispatched := fun _ => h.delivers.dispatched h.received_prefix }
  stream := by
    rw [← List.append_assoc, h.stream, ← List.append_assoc, List.flatten_append]
    simp
  hand := h.hand

/-- A step of the server takes bytes out of the stream, or passes a frame on. -/
theorem step (h : Uplink i s bytes pending l taken) (ht : Transition env s a s')
    (hqueue : s.mSystemPacketQueue = []) (hintime : ReceivesInTime ⟨s, a, s'⟩)
    (hbytes : bytes = stored i a ++ bytes') : ∃ pending' l' taken',
      pending = (s.passed i a).toList ++ pending' ∧ Uplink i s' bytes' pending' l' taken' := by
  have hslot := slotStep_of_transition ht i l
  have hreceived : (l.next i ⟨s, a, s'⟩).received = l.received ++ stored i a :=
    next_received hqueue l
  have hdispatched : (l.next i ⟨s, a, s'⟩).dispatched = l.dispatched ++ (s.passed i a).toList :=
    next_dispatched hqueue l
  rcases h.passed_prefix a with ⟨pending', rfl⟩
  rcases h.delivers.step h.wellFormed hslot hintime with ⟨taken', hdelivers⟩
  refine ⟨pending', l.next i ⟨s, a, s'⟩, taken', rfl, ?_, ?_, ?_, ?_⟩
  · rw [hdispatched, List.append_assoc]
    exact h.frames
  · rw [hdispatched, List.append_assoc]
    exact hdelivers
  · rw [hreceived, hdispatched, List.append_assoc, List.append_assoc, ← hbytes]
    exact h.stream
  · exact h.hand.step h.wellFormed h.delivers h.received_prefix hqueue hslot hintime

/-- When the slot has settled and the stream is empty, nothing is under way. -/
theorem settled (h : Uplink i s [] pending l taken) (hsettled : s.Settled i) : pending = [] := by
  have hstream := h.stream
  rw [List.append_nil] at hstream
  have hall := (h.delivers.settled h.wellFormed h.received_prefix hsettled).1
  rw [hstream, within_flatten, List.filter_eq_self.mpr fun f hf => (h.frames f hf).aboveSysEnd]
    at hall
  exact List.self_eq_append_right.mp hall

end Uplink

/-- A slot at rest: nothing in its buffer, and no notification of it. -/
theorem uplink_of_settled (hvalid : (s.buffer i).Valid) (hunread : (s.buffer i).unread = [])
    (hsettled : s.Settled i) : Uplink i s [] [] SlotLog.start [] where
  frames := nofun
  delivers :=
    { valid := hvalid
      reads := by
        rw [hunread]
        exact Reads.start _ _ _
      dispatched := fun _ => by
        rw [hsettled.2]
        rfl }
  stream := rfl
  hand v hv := by
    rw [hsettled.2] at hv
    cases hv

/-! ## The frame in hand is processed -/

/-- What the handler reads is the frame, with the rest of the memory behind it. -/
theorem memoryFrom_inHand (h : s.HandOk i) {v : PacketView} (hv : s.frameInHand i = some v)
    (behind : Bytes) : ∃ r, (s.buffer i).memoryFrom v.pDataPtr behind = s.frameBytes i v ++ r ∧
      v.packetId = (PacketHeader.read (s.frameBytes i v)).packetId ∧
      v.dataSize = UInt16.ofNat (s.frameBytes i v).length := by
  rcases h v hv with ⟨hid, hbound⟩
  refine ⟨_, ReceiveBuffer.memoryFrom_eq hbound behind, hid, ?_⟩
  rw [frameBytes, length_window, UInt16.ofNat_toNat]

end System
end ChatServer
