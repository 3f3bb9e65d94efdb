import ChatServer.Client.NetworkConvergence

/-! # The conversation of a room over bytes

Entries, leaves and messages are part of the conversation of a room when the server
processes their frames. The box of every member tells it from the member's entry on, and
what a member types goes into it once, in the order of typing, however the bytes are cut
and the threads interleave.
-/

namespace ChatServer.Client
open Recorded Server

variable {n m : ℕ} {δ : Type*}

namespace ChatNetwork

abbrev History (n m : ℕ) (δ : Type*) := List (Entry (ChatNetwork n m δ) (NetworkAction n))

/-- The client whose frame is processed, and its frame -/
def processed (e : Entry (ChatNetwork n m δ) (NetworkAction n)) : Option (Fin n × Bytes) :=
  match e.act, e.pre.system.phase with
  | .processRecvPacket _, .processRecvPacket c v => some (c, e.pre.system.frameBytes c v)
  | _, _ => none

/-- What a step tells the members of a room -/
def announced (env : Env δ) (ids : Fin n → UserId)
    (e : Entry (ChatNetwork n m δ) (NetworkAction n)) : Option (Fin m × RoomChatMsg) :=
  (processed e).bind fun x => announcement env ids e.pre.system.server x.1 x.2

/-- What it tells the members of room `k` -/
def announcedIn (env : Env δ) (ids : Fin n → UserId) (k : Fin m)
    (e : Entry (ChatNetwork n m δ) (NetworkAction n)) : Option RoomChatMsg :=
  (announced env ids e).bind fun x => if x.1 = k then some x.2 else none

/-- What has been told in room `k` -/
def conversation (env : Env δ) (ids : Fin n → UserId) (past : History n m δ) (k : Fin m) :
    List RoomChatMsg := past.filterMap (announcedIn env ids k)

/-- The last steps, as long as client `c` has been in room `k` -/
def stay (past : History n m δ) (c : Fin n) (k : Fin m) : History n m δ :=
  past.rtakeWhile fun e => roomOf e.pre.system.server c = some k

/-- The message that client `c` types -/
def typed (c : Fin n) (e : Entry (ChatNetwork n m δ) (NetworkAction n)) : Option String :=
  match e.act with
  | .chatSend d chatBox => if d = c then some (replaceZero chatBox) else none
  | _ => none

/-- The message of client `c` that room `k` is told -/
def spoken (env : Env δ) (ids : Fin n → UserId) (c : Fin n) (k : Fin m)
    (e : Entry (ChatNetwork n m δ) (NetworkAction n)) : Option String :=
  (processed e).bind fun x =>
    if x.1 = c then (announcedIn env ids k e).bind RoomChatMsg.message? else none

/-- The packet that a tick of client `c` passes to its handler -/
def received (c : Fin n) (e : Entry (ChatNetwork n m δ) (NetworkAction n)) : Option Received :=
  match e.act with
  | .backGroundProcess d =>
    if d = c then (e.pre.downlink c).backGroundProcess.1.map fun packet =>
      ⟨packet.packetID.toUInt16, packet.bodyData, (e.pre.form c).userList⟩ else none
  | _ => none

/-- What client `c` has heard -/
def heardOf (past : History n m δ) (c : Fin n) : List Heard := heardIn (past.filterMap (received c))

section

variable {env : Env δ} {ids : Fin n → UserId} {k : Fin m} {c : Fin n}
  {e : Entry (ChatNetwork n m δ) (NetworkAction n)} {e' : Entry (ChatRooms n m δ) (RoomAction n)}

/-! ## Steps that process no frame -/

theorem processed_eq_none (h : ∀ c, roomAction e ≠ some (.dispatch c)) : processed e = none := by
  rcases e with ⟨ν, a, ν'⟩
  cases a with
  | processRecvPacket behind =>
    cases hphase : ν.system.phase with
    | processRecvPacket c v => simp [roomAction, hphase] at h
    | dequePacketData | dequeSystemPacketData => simp [processed, hphase]
  | click | chatSend | networkSendProcess | setPacketData | resume | dequePacketData |
    dequeSystemPacketData | sendMsg | sendCompletion | networkReadProcess |
    backGroundProcess => rfl

theorem announced_of_processed (h : processed e = none) : announced env ids e = none := by
  rw [announced, h]
  rfl

theorem announcedIn_of_processed (h : processed e = none) : announcedIn env ids k e = none := by
  rw [announcedIn, announced_of_processed h]
  rfl

theorem spoken_of_processed (h : processed e = none) : spoken env ids c k e = none := by
  rw [spoken, h]
  rfl

theorem processed_of_none (h : roomAction e = none) : processed e = none :=
  processed_eq_none fun _ hc => Option.some_ne_none _ (hc.symm.trans h)

theorem typed_of_none (h : roomAction e = none) : typed c e = none := by
  rcases e with ⟨ν, a, ν'⟩
  cases a with
  | chatSend d chatBox => cases h
  | click | networkSendProcess | setPacketData | resume | dequePacketData |
    dequeSystemPacketData | processRecvPacket | sendMsg | sendCompletion | networkReadProcess |
    backGroundProcess => rfl

theorem received_of_none (h : roomAction e = none) : received c e = none := by
  rcases e with ⟨ν, a, ν'⟩
  cases a with
  | backGroundProcess d =>
    have hnone : (ν.downlink d).backGroundProcess.1 = none := Option.map_eq_none_iff.mp h
    by_cases hd : d = c
    · subst hd
      simp [received, hnone]
    · exact if_neg hd
  | click | chatSend | networkSendProcess | setPacketData | resume | dequePacketData |
    dequeSystemPacketData | processRecvPacket | sendMsg | sendCompletion |
    networkReadProcess => rfl

/-! ## Steps that are seen tell the same -/

/-- The frame that is processed is the next one. -/
theorem processed_dispatch {ν ν' : ChatNetwork n m δ} {a : NetworkAction n} {σ : ChatRooms n m δ}
    (h : Related ν σ) (ha : roomAction ⟨ν, a, ν'⟩ = some (.dispatch c)) : ∃ frame,
      processed ⟨ν, a, ν'⟩ = some (c, frame) ∧ (σ.form c).sendPacketQueue.head? = some frame := by
  rcases next_frame h ha with ⟨behind, v, frame, rfl, hphase, hhead, hframe, -⟩
  refine ⟨frame, ?_, hhead⟩
  rw [processed]
  simp only [hphase, hframe]

theorem announced_eq (h : Related e.pre e'.pre) (ha : roomAction e = some e'.act) :
    announced env ids e = ChatRooms.announced env ids e' := by
  rcases e with ⟨ν, a, ν'⟩
  rcases e' with ⟨σ, b, σ'⟩
  cases b with
  | dispatch c =>
    rcases processed_dispatch h ha with ⟨frame, hprocessed, hhead⟩
    have hserver : ∃ buffers, σ.server = ν.system.server.withBuffers buffers := h.server
    rcases hserver with ⟨buffers, hserver⟩
    rw [announced, hprocessed, ChatRooms.announced]
    simp only [hhead, hserver, Option.bind_some]
    rfl
  | click | chatSend | process =>
    apply announced_of_processed
    apply processed_eq_none
    simp [ha]

theorem announcedIn_eq (h : Related e.pre e'.pre) (ha : roomAction e = some e'.act) :
    announcedIn env ids k e = ChatRooms.announcedIn env ids k e' := by
  rw [announcedIn, ChatRooms.announcedIn, announced_eq h ha]

theorem spoken_eq (h : Related e.pre e'.pre) (ha : roomAction e = some e'.act) :
    spoken env ids c k e = ChatRooms.spoken env ids c k e' := by
  have htold : announcedIn env ids k e = ChatRooms.announcedIn env ids k e' := announcedIn_eq h ha
  rcases e with ⟨ν, a, ν'⟩
  rcases e' with ⟨σ, b, σ'⟩
  cases b with
  | dispatch d =>
    rcases processed_dispatch h ha with ⟨frame, hprocessed, -⟩
    rw [spoken, hprocessed, ChatRooms.spoken, htold]
    rfl
  | click | chatSend | process =>
    apply spoken_of_processed
    apply processed_eq_none
    simp [ha]

theorem typed_eq (ha : roomAction e = some e'.act) : typed c e = ChatRooms.typed c e' := by
  rcases e with ⟨ν, a, ν'⟩
  rcases e' with ⟨σ, b, σ'⟩
  cases seen_of_roomAction ha with
  | click | chatSend | dispatch | process => rfl

/-- A tick passes the packet that is processed, with the same list of users. -/
theorem received_eq (h : Related e.pre e'.pre) (hstep : e.pre.step env e.act = some e.post)
    (ha : roomAction e = some e'.act) : received c e = ChatRooms.received c e' := by
  rcases e with ⟨ν, a, ν'⟩
  rcases e' with ⟨σ, b, σ'⟩
  change Related ν σ at h
  cases seen_of_roomAction ha with
  | click | chatSend | dispatch => rfl
  | process d hpacket =>
    by_cases hd : d = c
    · subst hd
      simp only [ChatNetwork.step, Option.ite_none_right_eq_some] at hstep
      rcases (h.downward d).backGroundProcess hstep.1 with heq | ⟨p, rest, hpackets, hpacket, -⟩
      · exact absurd (congrArg Prod.fst heq) hpacket
      · have hid : (packetOf p.bytes).packetID.toUInt16 = p.packetId := by
          rw [ChatForm.packetID_packetOf]
          rfl
        have hpassed : received d ⟨ν, .backGroundProcess d, ν'⟩ =
            some ⟨(packetOf p.bytes).packetID.toUInt16, p.body, (ν.form d).userList⟩ :=
          (if_pos rfl).trans (congrArg (Option.map _) hpacket)
        have hprocessed : ChatRooms.received d ⟨σ, .process d, σ'⟩ =
            some ⟨p.packetId, p.body, (σ.form d).userList⟩ :=
          (if_pos rfl).trans (congrArg (fun packets => (List.head? packets).map _) hpackets)
        rw [hpassed, hprocessed, hid, (h.upward d).userList]
    · exact (if_neg hd).trans (if_neg hd).symm

end

section matching

variable {env : Env δ} {ids : Fin n → UserId} {ν₀ ν : ChatNetwork n m δ} {σ₀ σ : ChatRooms n m δ}
  {past : History n m δ} {past' : ChatRooms.History n m δ} {c : Fin n} {k : Fin m}

theorem roomOf_iff (h : Related ν σ) :
    roomOf ν.system.server c = some k ↔ roomOf σ.server c = some k := by
  rcases h.server with ⟨buffers, hserver⟩
  rw [hserver]
  rfl

theorem mem_of_related (h : Related ν σ) (hmem : c ∈ (ν.system.server.room k).mUserList) :
    c ∈ (σ.server.room k).mUserList := by
  rcases h.server with ⟨buffers, hserver⟩
  rw [hserver]
  exact hmem

/-- A member is in its room, and connected. -/
theorem roomOf_of_mem (h : Related ν σ) (hinvariant : ChatRooms.Invariant ids env past' σ)
    (hmem : c ∈ (ν.system.server.room k).mUserList) : roomOf ν.system.server c = some k :=
  (roomOf_iff h).mpr ((roomOf_eq_some hinvariant.online.membership).mpr (mem_of_related h hmem))

theorem hasClient_of_mem (h : Related ν σ) (hinvariant : ChatRooms.Invariant ids env past' σ)
    (hmem : c ∈ (ν.system.server.room k).mUserList) : ν.HasClient c := by
  apply h.clients
  right
  by_contra hout
  have hroom := roomOf_of_mem h hinvariant hmem
  rw [roomOf_of_not_inRoom hout] at hroom
  cases hroom

/-- What is told while a client is in its room -/
theorem conversation_stay_eq (h : Matching Related roomAction ν₀ σ₀ past ν past' σ)
    (hroom : roomOf ν.system.server c = some k) :
    conversation env ids (stay past c k) k =
      ChatRooms.conversation env ids (ChatRooms.stay past' c k) k :=
  h.filterMap_rtakeWhile (fun _ _ => roomOf_iff)
    (fun _ hnone => announcedIn_of_processed (processed_of_none hnone))
    (fun _ _ => announcedIn_eq) hroom

/-- What a client has heard -/
theorem heardOf_eq (h : Matching Related roomAction ν₀ σ₀ past ν past' σ)
    (run : Run (step env) ν₀ past ν) : heardOf past c = ChatRooms.heardOf past' c := by
  rw [heardOf, h.filterMap (f := received c) (g := ChatRooms.received c)
    (fun _ => received_of_none) fun e he _ hR => received_eq hR (run.step_of_mem he)]
  rfl

theorem spoken_stay_eq (h : Matching Related roomAction ν₀ σ₀ past ν past' σ)
    (hroom : roomOf ν.system.server c = some k) :
    (stay past c k).filterMap (spoken env ids c k) =
      (ChatRooms.stay past' c k).filterMap (ChatRooms.spoken env ids c k) :=
  h.filterMap_rtakeWhile (fun _ _ => roomOf_iff)
    (fun _ hnone => spoken_of_processed (processed_of_none hnone)) (fun _ _ => spoken_eq) hroom

theorem typed_stay_eq (h : Matching Related roomAction ν₀ σ₀ past ν past' σ)
    (hroom : roomOf ν.system.server c = some k) :
    (stay past c k).filterMap (typed c) =
      (ChatRooms.stay past' c k).filterMap (ChatRooms.typed c) :=
  h.filterMap_rtakeWhile (fun _ _ => roomOf_iff) (fun _ => typed_of_none)
    (fun _ _ _ => typed_eq) hroom

end matching

/-! ## Whole runs -/

section runs

variable {ids : Fin n → UserId} {ν₀ ν : ChatNetwork n m δ} {past : History n m δ}

/-- A run over bytes in which client 0 enters room 0 and says hi -/
theorem exists_conversation_over_bytes : ∃ (ν₀ ν : ChatNetwork 2 10 Unit)
    (past : History 2 10 Unit), ChatRooms.Start twoIds ν₀.chatRooms ∧ AtRest ν₀ ∧
      Run (step acceptingEnv) ν₀ past ν ∧ (∀ e ∈ past, e.pre.Carries e.act) ∧
        (∀ e ∈ past, e.pre.EntrySucceeds e.act) ∧ 0 ∈ (ν.system.server.room 0).mUserList ∧
          (conversation acceptingEnv twoIds past 0).length = 2 ∧
          (conversation acceptingEnv twoIds (stay past 0 0) 0).length = 1 ∧
          (ν.form 0).listBoxRoomChatMsg.length = 1 ∧
          (stay past 0 0).filterMap (typed 0) = ["hi"] ∧
          (ν.form 0).sendPacketQueue.length = 0 ∧ ν.uplink 0 = [] ∧ ν.system.Settled 0 := by
  obtain ⟨ν₀, past, ν, start, rest, run, h⟩ := exists_run_over_bytes
    (listRooms 0 ++ listRooms 1 ++ visitRoom 0 ++ sayHi 0)
    (fun past ν => (∀ e ∈ past, e.pre.Carries e.act) ∧ (∀ e ∈ past, e.pre.EntrySucceeds e.act) ∧
      0 ∈ (ν.system.server.room 0).mUserList ∧
        (conversation acceptingEnv twoIds past 0).length = 2 ∧
        (conversation acceptingEnv twoIds (stay past 0 0) 0).length = 1 ∧
        (ν.form 0).listBoxRoomChatMsg.length = 1 ∧
        (stay past 0 0).filterMap (typed 0) = ["hi"] ∧
        (ν.form 0).sendPacketQueue.length = 0 ∧ ν.uplink 0 = [] ∧ ν.system.Settled 0)
    (by decide +kernel)
  exact ⟨ν₀, ν, past, start, rest, run, of_decide_eq_true h⟩

end runs

end ChatNetwork

end ChatServer.Client
