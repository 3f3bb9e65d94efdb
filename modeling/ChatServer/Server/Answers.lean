import ChatServer.Server.Effect

/-! # What the server sends

A request that its user's table serves is answered by one acknowledgement, to the slot it
came from; all other packets are notices. The buffer of a packet is as long as its header
says, also where a size does not fit into 16 bits.
-/

namespace ChatServer
open Recorded

/-- The packet that acknowledges a request -/
def PacketId.acknowledgement? : PacketId → Option PacketId
  | reqCreateAccount => some ackCreateAccount
  | reqLogin => some ackLogin
  | reqLobbyInfo => some ackLobbyInfo
  | reqRoomEnter => some ackRoomEnter
  | reqRoomLeave => some ackRoomLeave
  | reqRoomChat => some ackRoomChat
  | reqRoomInfo => some ackRoomInfo
  | _ => none

/-- The ids of the packets that acknowledge a request -/
def ackIds : List PacketId :=
  [.ackCreateAccount, .ackLogin, .ackLobbyInfo, .ackRoomEnter, .ackRoomLeave, .ackRoomChat,
    .ackRoomInfo]

/-- The ids of the packets that are sent without a request -/
def notifyIds : List PacketId :=
  [.notifyLobbyInfo, .notifyRoomLeave, .notifyRoomChat, .notifyRoomInfo]

/-- The id of an acknowledgement follows that of its request. -/
theorem PacketId.code_acknowledgement {request ack : PacketId}
    (h : request.acknowledgement? = some ack) : ack.code = request.code + 1 := by
  cases request <;> cases h <;> rfl

def Packet.isAck (p : Packet) : Bool := ackIds.any fun ack => p.packetId = ack.code

theorem Packet.isAck_of_code {p : Packet} {packetId : PacketId} (h : p.packetId = packetId.code) :
    p.isAck = decide (packetId ∈ ackIds) := by
  rw [Packet.isAck, h]
  cases packetId <;> decide

/-- The acknowledgements among the packets for one slot, by their ids -/
def acksTo {n : ℕ} (out : List (Sent n)) (i : Fin n) : List UInt16 :=
  (out.filter fun x => x.clientIndex = i ∧ x.packet.isAck).map (·.packet.packetId)

section acksTo

variable {n : ℕ} {out out' : List (Sent n)} {i j : Fin n} {packetId : PacketId}

@[simp] theorem acksTo_nil : acksTo ([] : List (Sent n)) i = [] := rfl

@[simp] theorem acksTo_append : acksTo (out ++ out') i = acksTo out i ++ acksTo out' i := by
  simp [acksTo]

theorem acksTo_cons (x : Sent n) : acksTo (x :: out) i = acksTo [x] i ++ acksTo out i := by
  rw [← acksTo_append]
  rfl

theorem acksTo_singleton (packetId : PacketId) {x : Sent n} (hx : x.packet.packetId = packetId.code) :
    acksTo [x] i =
      if x.clientIndex = i ∧ packetId ∈ ackIds then [packetId.code] else [] := by
  simp only [acksTo, Packet.isAck_of_code hx, List.filter_cons, List.filter_nil,
    decide_eq_true_eq]
  split_ifs
  · rw [List.map_singleton, hx]
  · rfl

theorem acksTo_sendAck {unset : UInt8} {result : ResultCode}
    (h : packetId ∈ ackIds) :
    acksTo [sendAck unset j packetId result] i = if j = i then [packetId.code] else [] := by
  rw [acksTo_singleton packetId rfl]
  simp only [h, and_true]
  rfl

/-- A notice is no acknowledgement. -/
theorem acksTo_notice (packetId : PacketId) {x : Sent n} (hx : x.packet.packetId = packetId.code)
    (h : packetId ∉ ackIds) : acksTo [x] i = [] := by
  rw [acksTo_singleton packetId hx, if_neg fun hboth => h hboth.2]

end acksTo

namespace Server

variable {n m : ℕ} {δ : Type*} {env : Env δ} {s s' : Server n m δ} {i : Fin n}
  {out : List (Sent n)} {e : Event n}

theorem acksTo_broadcast (packetId : PacketId) {k : Fin m} {size : ℕ} {packet : Packet}
    (hpacket : packet.packetId = packetId.code) (h : packetId ∉ ackIds) :
    acksTo (s.broadcast k size packet) i = [] := by
  rw [broadcast]
  induction (s.room k).mUserList with
  | nil => rfl
  | cons j l ih =>
    rw [List.map_cons, acksTo_cons, ih, acksTo_notice packetId hpacket h]
    rfl

/-- The function of the user's table answers a frame of this size: two of them look at the
size before they do anything. -/
def answersFrame (packetSize : UInt16) : RecvFunction → Bool
  | .noop => false
  | .processCreateAccount => packetSize.toNat = reqCreateAccountPacketSize
  | .processLogin => packetSize.toNat = reqLoginPacketSize
  | .processLobbyInfo | .processEnterRoom | .processRoomInfo | .processLeaveRoom
  | .processRoomChatMessage => true

/-- The acknowledgement that the event earns slot `i` -/
def owed (s : Server n m δ) (i : Fin n) : Event n → List UInt16
  | .frame j packetId packetSize _ =>
    if j = i ∧ answersFrame packetSize (s.handler j packetId) then [packetId + 1] else []
  | .connect _ | .disconnect _ => []

theorem owed_frame {j : Fin n} {packetId packetSize : UInt16} {p : Bytes}
    (h : answersFrame packetSize (s.handler j packetId) = true) :
    s.owed i (.frame j packetId packetSize p) = if j = i then [packetId + 1] else [] := by
  simp only [owed, h, and_true]

/-- The handler of a request sends the acknowledgement that belongs to it. -/
theorem acksTo_of_handler (ht : s.TablesOk) {j : Fin n} {packetId packetSize : UInt16} {p : Bytes}
    {f : RecvFunction} {state : UserState} {request ack : PacketId}
    (hf : s.handler j packetId = f) (hhome : f.home = some (state, request))
    (hack : request.acknowledgement? = some ack) (hanswers : answersFrame packetSize f = true) :
    s.owed i (.frame j packetId packetSize p) = if j = i then [ack.code] else [] := by
  rw [owed_frame (by rw [hf, hanswers]), ht.packetId_of_handler hf hhome,
    PacketId.code_acknowledgement hack]

/-- What an event sends to a slot are the acknowledgements it earned it, and notices. -/
theorem Effect.acksTo_eq_owed (ht : s.TablesOk) (he : Effect env s e s' out) (i : Fin n) :
    acksTo out i = s.owed i e := by
  cases he with
  | connect | disconnectUnused | disconnect => rfl
  | @ignored j packetId packetSize p hf =>
    have hnone : answersFrame packetSize (s.handler j packetId) = false := by
      rcases hf with hf | ⟨hf, hsize⟩ | ⟨hf, hsize⟩
      · rw [hf]
        rfl
      · rw [hf]
        exact decide_eq_false hsize
      · rw [hf]
        exact decide_eq_false hsize
    simp [owed, hnone]
  | accountCreated hf hsize =>
    rw [acksTo_of_handler ht hf rfl rfl (decide_eq_true hsize), acksTo_sendAck (by decide)]
  | loginRefused hf hsize =>
    rw [acksTo_of_handler ht hf rfl rfl (decide_eq_true hsize), acksTo_sendAck (by decide)]
  | loggedIn hf hsize =>
    rw [acksTo_of_handler ht hf rfl rfl (decide_eq_true hsize), acksTo_sendAck (by decide)]
  | lobbyInfo hf =>
    rw [acksTo_of_handler ht hf rfl rfl rfl, acksTo_cons, acksTo_sendAck (by decide),
      acksTo_notice .notifyLobbyInfo rfl (by decide), List.append_nil]
  | enterRefused hf =>
    rw [acksTo_of_handler ht hf rfl rfl rfl, acksTo_sendAck (by decide)]
  | entered hf =>
    rw [acksTo_of_handler ht hf rfl rfl rfl, acksTo_append,
      acksTo_broadcast .notifyRoomInfo rfl (by decide), acksTo_sendAck (by decide),
      List.nil_append]
  | roomInfo hf =>
    rw [acksTo_of_handler ht hf rfl rfl rfl, acksTo_singleton .ackRoomInfo rfl]
    simp only [sendPacketFunc_clientIndex]
    congr 1
    exact propext (and_iff_left (by decide))
  | leaveRefused hf =>
    rw [acksTo_of_handler ht hf rfl rfl rfl, acksTo_sendAck (by decide)]
  | left hf =>
    rw [acksTo_of_handler ht hf rfl rfl rfl, acksTo_append,
      acksTo_broadcast .notifyRoomLeave rfl (by decide), acksTo_sendAck (by decide),
      List.nil_append]
  | chatRefused hf =>
    rw [acksTo_of_handler ht hf rfl rfl rfl, acksTo_sendAck (by decide)]
  | chat hf =>
    rw [acksTo_of_handler ht hf rfl rfl rfl, acksTo_cons, acksTo_sendAck (by decide),
      acksTo_broadcast .notifyRoomChat rfl (by decide), List.append_nil]

/-- Over every run, the acknowledgements sent to a slot are those that its own frames have
earned, one for each frame that its user's table serves, in the order of the frames. -/
theorem acks_answer_requests (env : Env δ) (n : ℕ)
    (beginRoomNumber maxRoomCount maxRoomUserCount : Int32) (mem : Fin n → ℕ → UInt8) (db : δ)
    {past : History n maxRoomCount.toNatClampNeg δ}
    {s : Server n maxRoomCount.toNatClampNeg δ}
    (run : Run (step env) (init n beginRoomNumber maxRoomCount maxRoomUserCount mem db) past s)
    (i : Fin n) :
    (past.flatMap fun e => acksTo (e.pre.sent env e.act) i) =
      past.flatMap fun e => e.pre.owed i e.act := by
  induction run with
  | nil => rfl
  | snoc run hstep ih =>
    have ht : TablesOk _ := run.state_invariant (init_tablesOk n _ _ _ mem db)
      fun _ _ _ h hstep => h.step hstep
    rw [List.flatMap_append, List.flatMap_append, ih]
    congr 1
    simpa using (effect_of_step hstep).acksTo_eq_owed ht i

/-- Two clients log in and enter a room; a frame of the wrong size and one that comes too
early are not answered. -/
theorem acks_answer_requests_of_two : ∃ past s,
    Run (step acceptingEnv) (init 2 0 10 4 (fun _ _ => 0) ()) past s ∧
      (past.flatMap fun e => acksTo (e.pre.sent acceptingEnv e.act) 0) = [211, 401, 421] ∧
      (past.flatMap fun e => acksTo (e.pre.sent acceptingEnv e.act) 1) = [211, 401] := by
  obtain ⟨past, s, run, h⟩ := exists_run (step acceptingEnv) (init 2 0 10 4 (fun _ _ => 0) ())
    [.connect 0, .connect 1, .request 0 .reqRoomEnter (le32 0), .request 0 .reqLogin [65],
      .request 0 .reqLogin (reqLoginBody [65] [66]), .request 0 .reqRoomEnter (le32 0),
      .request 1 .reqLogin (reqLoginBody [67] [66]), .request 1 .reqRoomEnter (le32 0),
      .request 0 .reqRoomChat []]
    (fun past _ => (past.flatMap fun e => e.pre.owed 0 e.act) = [211, 401, 421] ∧
      (past.flatMap fun e => e.pre.owed 1 e.act) = [211, 401]) (by decide +kernel)
  rcases of_decide_eq_true h with ⟨h₀, h₁⟩
  exact ⟨past, s, run, (acks_answer_requests acceptingEnv 2 0 10 4 _ () run 0).trans h₀,
    (acks_answer_requests acceptingEnv 2 0 10 4 _ () run 1).trans h₁⟩

/-! ## Buffers -/

end Server

/-- The bytes behind the pointer that is passed to `sendPacketFunc` -/
def Packet.bytes (p : Packet) : Bytes :=
  le16 p.packetLength ++ le16 p.packetId ++ p.type :: p.body

/-- What `ClientInfo::SendMsg` copies into the buffer that is sent -/
def Sent.pMsg {n : ℕ} (x : Sent n) : Bytes := x.packet.bytes.take x.dataSize.toNat

/-- The header and the size that goes with the packet have the same 16 bits of its length. -/
structure Sent.Sized {n : ℕ} (x : Sent n) : Prop where
  packetLength : x.packet.packetLength = UInt16.ofNat x.packet.bytes.length
  dataSize : x.dataSize = UInt16.ofNat x.packet.bytes.length

@[simp] theorem Packet.length_bytes (p : Packet) :
    p.bytes.length = packetHeaderLength + p.body.length := by
  simp [bytes, le16, packetHeaderLength]
  omega

theorem Packet.declared_bytes (p : Packet) (r : Bytes) :
    requestFormat.declared (p.bytes ++ r) = p.packetLength.toNat := by
  change (uint16At (p.bytes ++ r) 0).toNat = _
  have := p.packetLength.toNat_lt
  simp [bytes, le16, uint16At, byteAt]
  omega

section Sized

variable {n : ℕ} {x : Sent n} {i : Fin n}

theorem sized_sendPacketFunc {size : ℕ} {packet : Packet}
    (hlength : packet.packetLength = UInt16.ofNat size)
    (hsize : size = packetHeaderLength + packet.body.length) :
    (sendPacketFunc i size packet).Sized := by
  subst hsize
  exact ⟨by rw [Packet.length_bytes]; exact hlength, by rw [Packet.length_bytes]; rfl⟩

theorem sized_sendAck {unset : UInt8} {packetId : PacketId} {result : ResultCode} :
    (sendAck unset i packetId result).Sized := sized_sendPacketFunc rfl rfl

theorem Sent.Sized.toNat_dataSize (h : x.Sized) :
    x.dataSize.toNat = x.packet.bytes.length % 65536 := by
  rw [h.dataSize, UInt16.toNat_ofNat']

theorem Sent.Sized.length_pMsg (h : x.Sized) : x.pMsg.length = x.dataSize.toNat := by
  rw [pMsg, List.length_take, h.toNat_dataSize]
  exact Nat.min_eq_left (Nat.mod_le _ _)

/-- A buffer that holds a header declares its own size. -/
theorem Sent.Sized.wellFormed_iff (h : x.Sized) :
    requestFormat.WellFormed x.pMsg ↔ packetHeaderLength ≤ x.packet.bytes.length % 65536 := by
  have hlength := h.length_pMsg
  rw [h.toNat_dataSize] at hlength
  constructor
  · intro hf
    rw [← hlength]
    exact hf.1
  · intro hheader
    have hdeclared := x.packet.declared_bytes []
    rw [List.append_nil, h.packetLength, UInt16.toNat_ofNat'] at hdeclared
    refine ⟨hheader.trans hlength.ge, ?_⟩
    rw [← requestFormat.declared_take, pMsg, List.take_take, Nat.min_eq_left, requestFormat.declared_take,
      hdeclared, ← pMsg, hlength]
    rw [h.toNat_dataSize]
    exact hheader

/-- The buffer holds the whole packet exactly if its length fits into 16 bits. -/
theorem Sent.Sized.pMsg_eq_iff (h : x.Sized) :
    x.pMsg = x.packet.bytes ↔ x.packet.bytes.length < 65536 := by
  rw [pMsg, List.take_eq_self_iff, h.toNat_dataSize]
  omega

end Sized

namespace Server

variable {n m : ℕ} {δ : Type*} {env : Env δ} {s s' : Server n m δ} {out : List (Sent n)}
  {e : Event n}

theorem sized_broadcast {k : Fin m} {size : ℕ} {packet : Packet}
    (hlength : packet.packetLength = UInt16.ofNat size)
    (hsize : size = packetHeaderLength + packet.body.length) :
    ∀ x ∈ s.broadcast k size packet, x.Sized := by
  intro x hx
  rcases List.mem_map.mp hx with ⟨j, -, rfl⟩
  exact sized_sendPacketFunc hlength hsize

/-- Only the list of rooms and the list of members vary in size. -/
def varying (packetId : UInt16) : Prop :=
  packetId = PacketId.notifyLobbyInfo.code ∨ packetId = PacketId.ackRoomInfo.code

instance : DecidablePred varying := fun _ => instDecidableOr

/-- The buffer of a packet: its id is that of an acknowledgement or a notice, the size
that is sent with it is the one that its header declares, and it is a well-formed frame,
and complete, as far as 16 bits can hold its length. -/
structure Framed (x : Sent n) : Prop where
  packetId : ∃ packetId ∈ ackIds ++ notifyIds, x.packet.packetId = packetId.code
  declared : x.packet.packetLength = x.dataSize ∧ x.pMsg.length = x.dataSize.toNat
  wellFormed : requestFormat.WellFormed x.pMsg ↔ packetHeaderLength ≤ x.packet.bytes.length % 65536
  whole : x.pMsg = x.packet.bytes ↔ x.packet.bytes.length < 65536
  short : ¬varying x.packet.packetId → x.packet.bytes.length ≤ notifyRoomChatPacketSize

theorem framed_of_sized (packetId : PacketId) {x : Sent n} (h : x.Sized)
    (hx : x.packet.packetId = packetId.code) (hmem : packetId ∈ ackIds ++ notifyIds)
    (hshort : ¬varying packetId.code → x.packet.bytes.length ≤ notifyRoomChatPacketSize) :
    Framed x where
  packetId := ⟨packetId, hmem, hx⟩
  declared := ⟨h.packetLength.trans h.dataSize.symm, h.length_pMsg⟩
  wellFormed := h.wellFormed_iff
  whole := h.pMsg_eq_iff
  short hvarying := hshort (by rwa [hx] at hvarying)

theorem framed_sendAck {i : Fin n} {unset : UInt8} {packetId : PacketId} {result : ResultCode}
    (h : packetId ∈ ackIds) : Framed (sendAck unset i packetId result) := by
  apply framed_of_sized packetId sized_sendAck rfl (List.mem_append_left _ h)
  intro _
  have hlength : (sendAck unset i packetId result).packet.bytes.length = 7 := rfl
  rw [hlength]
  decide

theorem framed_broadcast (packetId : PacketId) {k : Fin m} {size : ℕ} {packet : Packet}
    (hlength : packet.packetLength = UInt16.ofNat size)
    (hsize : size = packetHeaderLength + packet.body.length)
    (hpacket : packet.packetId = packetId.code) (hmem : packetId ∈ notifyIds)
    (hshort : size ≤ notifyRoomChatPacketSize) : ∀ x ∈ s.broadcast k size packet, Framed x := by
  intro x hx
  have hsized := sized_broadcast hlength hsize x hx
  rcases List.mem_map.mp hx with ⟨j, -, rfl⟩
  apply framed_of_sized packetId hsized hpacket (List.mem_append_right _ hmem)
  intro _
  rw [sendPacketFunc_packet, Packet.length_bytes, ← hsize]
  exact hshort

theorem length_lobbyInfo (unset : UInt8) (rooms : List Int32) :
    packetHeaderLength + (notifyLobbyInfoPacket unset rooms).body.length =
      packetHeaderLength + 4 + rooms.length * 4 := by
  have hfour (x : Int32) : (le32 x).length = 4 := rfl
  simp only [notifyLobbyInfoPacket, List.length_append, hfour, List.length_flatMap,
    List.map_const', List.sum_replicate_nat]
  omega

theorem length_roomInfo (unset : UInt8) (users : List Bytes) :
    packetHeaderLength + (ackRoomInfoPacket unset users).body.length =
      packetHeaderLength + 2 + 4 + (memberBytes users).length := by
  have htwo (x : UInt16) : (le16 x).length = 2 := rfl
  have hfour (x : Int32) : (le32 x).length = 4 := rfl
  simp only [ackRoomInfoPacket, List.length_append, htwo, hfour]
  omega

theorem Effect.framed (he : Effect env s e s' out) : ∀ x ∈ out, Framed x := by
  cases he with
  | connect | disconnectUnused | disconnect | ignored => exact List.forall_mem_nil _
  | accountCreated | loginRefused | loggedIn | enterRefused | leaveRefused | chatRefused =>
    exact List.forall_mem_singleton.mpr (framed_sendAck (by decide))
  | lobbyInfo =>
    refine List.forall_mem_cons.mpr ⟨framed_sendAck (by decide), List.forall_mem_singleton.mpr ?_⟩
    apply framed_of_sized .notifyLobbyInfo _ rfl (by decide)
    · exact fun h => absurd (.inl rfl) h
    · exact sized_sendPacketFunc rfl (length_lobbyInfo _ _).symm
  | roomInfo =>
    refine List.forall_mem_singleton.mpr ?_
    apply framed_of_sized .ackRoomInfo _ rfl (by decide)
    · exact fun h => absurd (.inr rfl) h
    · exact sized_sendPacketFunc rfl (length_roomInfo _ _).symm
  | entered =>
    refine List.forall_mem_append.mpr ⟨?_, List.forall_mem_singleton.mpr (framed_sendAck (by decide))⟩
    refine framed_broadcast .notifyRoomInfo rfl ?_ rfl (by decide) (by decide)
    simp [notifyRoomInfoPacket, userIdField, blockAt, notifyUserSize]
  | left =>
    refine List.forall_mem_append.mpr ⟨?_, List.forall_mem_singleton.mpr (framed_sendAck (by decide))⟩
    refine framed_broadcast .notifyRoomLeave rfl ?_ rfl (by decide) (by decide)
    simp [notifyRoomLeavePacket, userIdField, blockAt, notifyUserSize]
  | chat =>
    refine List.forall_mem_cons.mpr ⟨framed_sendAck (by decide), ?_⟩
    refine framed_broadcast .notifyRoomChat rfl ?_ rfl (by decide) (by decide)
    simp [notifyRoomChatPacket, notifyRoomChatPacketSize, blockAt, Nat.add_assoc]

/-- In every state and for every event, the packets that are sent are framed. -/
theorem sent_packets_framed (env : Env δ) (s : Server n m δ) (e : Event n) :
    ∀ x ∈ s.sent env e, Framed x := by
  cases hstep : s.processEvent env e with
  | none => simp [sent, hstep]
  | some r =>
    have hsent : s.sent env e = r.2 := by simp [sent, hstep]
    rw [hsent]
    exact (effect_of_processEvent hstep).framed

/-- The list of 16384 rooms needs 65545 bytes. Nine of them are sent, and they are a frame:
the header and the count of the rooms, none of which follows. -/
theorem long_room_list_cut : ∃ past s,
    Run (step acceptingEnv) (init 1 0 16384 4 (fun _ _ => 0) ()) past s ∧
      ∃ x ∈ s.sent acceptingEnv (.request 0 .reqLobbyInfo []),
        x.packet.bytes.length = 65545 ∧ x.pMsg.length = 9 ∧ requestFormat.WellFormed x.pMsg := by
  obtain ⟨past, s, run, h⟩ := exists_run (step acceptingEnv) (init 1 0 16384 4 (fun _ _ => 0) ())
    [.connect 0, .request 0 .reqLogin (reqLoginBody [65] [66])]
    (fun _ s => s.handler 0 PacketId.reqLobbyInfo.code = .processLobbyInfo) (by decide +kernel)
  have hf := of_decide_eq_true h
  have hsent : s.sent acceptingEnv (.request 0 .reqLobbyInfo []) =
      (s.processLobbyInfo acceptingEnv 0).2 := by
    rw [sent, Event.request, processEvent_frame, hf]
    rfl
  have hrooms : s.mRoomManager.getRoomList.length = 16384 := List.length_ofFn
  let x : Sent 1 := sendPacketFunc 0 (packetHeaderLength + 4 + s.mRoomManager.getRoomList.length * 4)
    (notifyLobbyInfoPacket 0 s.mRoomManager.getRoomList)
  have hx : x ∈ s.sent acceptingEnv (.request 0 .reqLobbyInfo []) := by
    rw [hsent]
    exact List.mem_cons_of_mem _ (List.mem_singleton_self _)
  have hframed := sent_packets_framed acceptingEnv s _ x hx
  have hlength : x.packet.bytes.length = 65545 := by
    rw [Packet.length_bytes, sendPacketFunc_packet, length_lobbyInfo, hrooms]
    rfl
  have hsize : x.dataSize = 9 := by
    simp only [x, sendPacketFunc, hrooms]
    rfl
  refine ⟨past, s, run, x, hx, hlength, ?_, ?_⟩
  · rw [hframed.declared.2, hsize]
    rfl
  · rw [hframed.wellFormed, hlength]
    decide

end Server
end ChatServer
