import ChatServer.Server.Handlers
import ChatServer.Library.Run

/-! # What one event can do

`Effect` lists the outcomes of an event, each with the test that leads to it. All
invariants of the server are proved by cases on it.
-/

namespace ChatServer.Server

variable {n m : ℕ} {δ : Type*}

/-- The user part of `EnterRoom`, the same whether the room took the user or not. -/
def putInRoom (s : Server n m δ) (i : Fin n) (number : Int32) : Server n m δ :=
  s.updateUser i fun u => User.changeState .inRoom { u with mRoomIndex := number }

/-- What a successful login writes outside the user: the database and the dictionary. -/
def recordLogin (s : Server n m δ) (db : δ) (userID : Bytes) (i : Fin n) : Server n m δ :=
  { s with
    mAccountDB := db
    mUserIDDictionary := Function.update s.mUserIDDictionary userID (some i) }

@[simp] theorem recordLogin_mUserObjPool (s : Server n m δ) (db : δ) (userID : Bytes)
    (i : Fin n) : (s.recordLogin db userID i).mUserObjPool = s.mUserObjPool := rfl

@[simp] theorem recordLogin_mUserIDDictionary (s : Server n m δ) (db : δ) (userID : Bytes)
    (i : Fin n) : (s.recordLogin db userID i).mUserIDDictionary =
      Function.update s.mUserIDDictionary userID (some i) := rfl

/-- Store the new list and count of one room. -/
def setRoom (s : Server n m δ) (k : Fin m) (mUserList : List (Fin n))
    (mCurrentUserCount : UInt16) : Server n m δ :=
  { s with mRoomManager := s.mRoomManager.setRoom k mUserList mCurrentUserCount }

section setRoom

variable (s : Server n m δ) (k : Fin m) (l : List (Fin n)) (c : UInt16)

@[simp] theorem setRoom_mUserObjPool : (s.setRoom k l c).mUserObjPool = s.mUserObjPool := rfl

@[simp] theorem setRoom_mUserIDDictionary :
    (s.setRoom k l c).mUserIDDictionary = s.mUserIDDictionary := rfl

@[simp] theorem setRoom_getRoomByNumber (number : Int32) :
    (s.setRoom k l c).mRoomManager.getRoomByNumber number =
      s.mRoomManager.getRoomByNumber number := rfl

theorem setRoom_mUserList (j : Fin m) : ((s.setRoom k l c).room j).mUserList =
    if j = k then l else (s.room j).mUserList := s.mRoomManager.mUserList_setRoom k l c j

theorem setRoom_mCurrentUserCount (j : Fin m) : ((s.setRoom k l c).room j).mCurrentUserCount =
    if j = k then c else (s.room j).mCurrentUserCount :=
  s.mRoomManager.mCurrentUserCount_setRoom k l c j

/-- The lists stay without duplicates if the new one has none. -/
theorem setRoom_nodup (h : ∀ j, (s.room j).mUserList.Nodup) (hl : l.Nodup) (j : Fin m) :
    ((s.setRoom k l c).room j).mUserList.Nodup := by
  rw [setRoom_mUserList]
  split_ifs
  · exact hl
  · exact h j

@[simp] theorem setRoom_mRoomNum (j : Fin m) :
    ((s.setRoom k l c).room j).mRoomNum = (s.room j).mRoomNum :=
  s.mRoomManager.mRoomNum_setRoom k l c j

@[simp] theorem setRoom_mMaxUserCount (j : Fin m) :
    ((s.setRoom k l c).room j).mMaxUserCount = (s.room j).mMaxUserCount :=
  s.mRoomManager.mMaxUserCount_setRoom k l c j

end setRoom

/-- The members that stay in the list when `i` leaves. -/
def stayers (s : Server n m δ) (i : Fin n) (k : Fin m) : List (Fin n) :=
  (s.room k).mUserList.filter fun j =>
    (s.mUserObjPool i).mUserID ≠ (s.mUserObjPool j).mUserID

/-- A slot is sent this answer. -/
def Answered (out : List (Sent n)) (i : Fin n) (packetId : PacketId) (result : ResultCode) : Prop :=
  ∃ x ∈ out, x.clientIndex = i ∧ x.packet.Answers packetId result

instance (out : List (Sent n)) (i : Fin n) (packetId : PacketId) (result : ResultCode) :
    Decidable (Answered out i packetId result) := by
  unfold Answered
  infer_instance

/-- `SendToAllUser` for a room: one packet to each entry of its list. -/
def broadcast (s : Server n m δ) (k : Fin m) (size : ℕ) (packet : Packet) : List (Sent n) :=
  (s.room k).mUserList.map fun j => sendPacketFunc j size packet

section Answered

variable {i j : Fin n} {packetId packetId' : PacketId} {result result' : ResultCode}
  {out out' : List (Sent n)}

@[simp] theorem answered_nil : ¬Answered ([] : List (Sent n)) i packetId result := by
  simp [Answered]

@[simp] theorem answered_append : Answered (out ++ out') i packetId result ↔
    Answered out i packetId result ∨ Answered out' i packetId result := by
  simp [Answered, or_and_right, exists_or]

@[simp] theorem answered_cons {x : Sent n} : Answered (x :: out) i packetId result ↔
    (x.clientIndex = i ∧ x.packet.Answers packetId result) ∨ Answered out i packetId result := by
  simp [Answered, or_and_right, exists_or]

@[simp] theorem answered_broadcast {s : Server n m δ} {k : Fin m} {size : ℕ} {packet : Packet} :
    Answered (s.broadcast k size packet) i packetId result ↔
      i ∈ (s.room k).mUserList ∧ packet.Answers packetId result := by
  simp [Answered, broadcast, sendPacketFunc]

@[simp] theorem sendAck_answers {unset : UInt8} :
    (sendAck unset i packetId' result').packet.Answers packetId result ↔
      packetId' = packetId ∧ result' = result := ackPacket_answers

@[simp] theorem sendAck_clientIndex {unset : UInt8} :
    (sendAck unset i packetId result).clientIndex = i := rfl

@[simp] theorem sendPacketFunc_clientIndex {size : ℕ} {packet : Packet} :
    (sendPacketFunc i size packet).clientIndex = i := rfl

@[simp] theorem sendPacketFunc_packet {size : ℕ} {packet : Packet} :
    (sendPacketFunc i size packet).packet = packet := rfl

theorem not_answers_of_ne {packet : Packet} (hpacket : packet.packetId = packetId'.code)
    (hne : packetId ≠ packetId') : ¬packet.Answers packetId result :=
  fun h => hne (PacketId.code_injective (h.1.symm.trans hpacket))

@[simp] theorem notifyRoomInfo_answers {id : Bytes} (h : packetId ≠ .notifyRoomInfo) :
    ¬(notifyRoomInfoPacket id).Answers packetId result := not_answers_of_ne rfl h

@[simp] theorem notifyRoomLeave_answers {id : Bytes} (h : packetId ≠ .notifyRoomLeave) :
    ¬(notifyRoomLeavePacket id).Answers packetId result := not_answers_of_ne rfl h

@[simp] theorem notifyRoomChat_answers {unset : UInt8} {id msg : Bytes}
    (h : packetId ≠ .notifyRoomChat) :
    ¬(notifyRoomChatPacket unset id msg).Answers packetId result := not_answers_of_ne rfl h

@[simp] theorem notifyLobbyInfo_answers {unset : UInt8} {rooms : List Int32}
    (h : packetId ≠ .notifyLobbyInfo) :
    ¬(notifyLobbyInfoPacket unset rooms).Answers packetId result := not_answers_of_ne rfl h

@[simp] theorem ackRoomInfo_answers {unset : UInt8} {users : List Bytes}
    (h : packetId ≠ .ackRoomInfo) :
    ¬(ackRoomInfoPacket unset users).Answers packetId result := not_answers_of_ne rfl h

end Answered

/-- Size of `NOTIFY_ROOM_INFO_PACKET` and of `NOTIFY_ROOM_LEAVE_PACKET`. -/
def notifyUserSize : ℕ := packetHeaderLength + (maxUserIdLen + 1)

inductive Effect (env : Env δ) (s : Server n m δ) :
    Event n → Server n m δ → List (Sent n) → Prop
  | connect (i : Fin n) : Effect env s (.connect i) (s.processUserConnect i) []
  | disconnectUnused (i : Fin n) (hstate : (s.mUserObjPool i).mState = .none) :
      Effect env s (.disconnect i) s []
  | disconnect (i : Fin n) (hstate : (s.mUserObjPool i).mState ≠ .none) :
      Effect env s (.disconnect i) (s.deleteUserInfo i) []
  | ignored {i : Fin n} {packetId packetSize : UInt16} {p : Bytes}
      (hf : s.handler i packetId = .noop ∨
        s.handler i packetId = .processCreateAccount ∧
          packetSize.toNat ≠ reqCreateAccountPacketSize ∨
        s.handler i packetId = .processLogin ∧ packetSize.toNat ≠ reqLoginPacketSize) :
      Effect env s (.frame i packetId packetSize p) s []
  | accountCreated {i : Fin n} {packetId packetSize : UInt16} {p : Bytes} {created : Bool} {db : δ}
      (hf : s.handler i packetId = .processCreateAccount)
      (hsize : packetSize.toNat = reqCreateAccountPacketSize)
      (hdb : env.createAccount s.mAccountDB (stringAt p userIdOffset) (stringAt p userPwOffset) =
        (created, db)) :
      Effect env s (.frame i packetId packetSize p) { s with mAccountDB := db }
        [sendAck env.unset i .ackCreateAccount (if created then .none else .createAccountFail)]
  | loginRefused {i : Fin n} {packetId packetSize : UInt16} {p : Bytes} {result : ResultCode}
      {db : δ} (hf : s.handler i packetId = .processLogin)
      (hsize : packetSize.toNat = reqLoginPacketSize) (hresult : result ≠ .loginSuccess)
      (halready : result = .loginUserAlready →
        s.mUserIDDictionary (stringAt p userIdOffset) ≠ none) :
      Effect env s (.frame i packetId packetSize p) { s with mAccountDB := db }
        [sendAck env.unset i .ackLogin result]
  | loggedIn {i : Fin n} {packetId packetSize : UInt16} {p : Bytes} {db : δ}
      (hf : s.handler i packetId = .processLogin)
      (hsize : packetSize.toNat = reqLoginPacketSize)
      (hfree : s.mUserIDDictionary (stringAt p userIdOffset) = none)
      (hdb : env.selectAccount s.mAccountDB (stringAt p userIdOffset) (stringAt p userPwOffset) =
        (true, db)) :
      Effect env s (.frame i packetId packetSize p)
        ((s.recordLogin db (stringAt p userIdOffset) i).updateUser i
          (User.setLogin (stringAt p userIdOffset)))
        [sendAck env.unset i .ackLogin .loginSuccess]
  | lobbyInfo {i : Fin n} {packetId packetSize : UInt16} {p : Bytes}
      (hf : s.handler i packetId = .processLobbyInfo) :
      Effect env s (.frame i packetId packetSize p) s
        [sendAck env.unset i .ackLobbyInfo .lobbyInfoSuccess,
          sendPacketFunc i (packetHeaderLength + 4 + s.mRoomManager.getRoomList.length * 4)
            (notifyLobbyInfoPacket env.unset s.mRoomManager.getRoomList)]
  | enterRefused {i : Fin n} {packetId packetSize : UInt16} {p : Bytes} {result : ResultCode}
      (hf : s.handler i packetId = .processEnterRoom)
      (hresult : result = .roomInvalidIndex ∧
          s.mRoomManager.getRoomByNumber (int32At p roomNumberOffset) = none ∨
        result = .roomFull ∧
          ∃ k, s.mRoomManager.getRoomByNumber (int32At p roomNumberOffset) = some k ∧
            (s.room k).getCurrentUserCount ≥
              (s.room k).getMaxUserCount) :
      Effect env s (.frame i packetId packetSize p)
        (s.putInRoom i (int32At p roomNumberOffset)) [sendAck env.unset i .ackRoomEnter result]
  | entered {i : Fin n} {packetId packetSize : UInt16} {p : Bytes} {k : Fin m}
      (hf : s.handler i packetId = .processEnterRoom)
      (hk : s.mRoomManager.getRoomByNumber (int32At p roomNumberOffset) = some k)
      (hspace : (s.room k).getCurrentUserCount <
        (s.room k).getMaxUserCount) :
      Effect env s (.frame i packetId packetSize p)
        ((s.setRoom k ((s.room k).mUserList ++ [i])
          ((s.room k).mCurrentUserCount + 1)).putInRoom i
            (int32At p roomNumberOffset))
        (s.broadcast k notifyUserSize (notifyRoomInfoPacket (s.mUserObjPool i).mUserID) ++
          [sendAck env.unset i .ackRoomEnter .enterRoomSuccess])
  | roomInfo {i : Fin n} {packetId packetSize : UInt16} {p : Bytes} {k : Fin m}
      (hf : s.handler i packetId = .processRoomInfo) (hk : s.getRoom i = some k) :
      Effect env s (.frame i packetId packetSize p) s
        [sendPacketFunc i (packetHeaderLength + 2 + 4 +
            (memberBytes ((s.room k).getRoomMemberList s.mUserObjPool)).length)
          (ackRoomInfoPacket env.unset ((s.room k).getRoomMemberList s.mUserObjPool))]
  | leaveRefused {i : Fin n} {packetId packetSize : UInt16} {p : Bytes}
      (hf : s.handler i packetId = .processLeaveRoom) (hk : s.getRoom i = none) :
      Effect env s (.frame i packetId packetSize p)
        (s.updateUser i (User.changeState .inLobby))
        [sendAck env.unset i .ackRoomLeave .roomInvalidIndex]
  | left {i : Fin n} {packetId packetSize : UInt16} {p : Bytes} {k : Fin m}
      (hf : s.handler i packetId = .processLeaveRoom) (hk : s.getRoom i = some k) :
      Effect env s (.frame i packetId packetSize p)
        ((s.setRoom k (s.stayers i k)
          (s.room k).mCurrentUserCount).updateUser i (User.changeState .inLobby))
        (s.broadcast k notifyUserSize (notifyRoomLeavePacket (s.mUserObjPool i).mUserID) ++
          [sendAck env.unset i .ackRoomLeave .leaveRoomSuccess])
  | chatRefused {i : Fin n} {packetId packetSize : UInt16} {p : Bytes}
      (hf : s.handler i packetId = .processRoomChatMessage) (hk : s.getRoom i = none) :
      Effect env s (.frame i packetId packetSize p) s
        [sendAck env.unset i .ackRoomChat .chatRoomInvalidRoomNumber]
  | chat {i : Fin n} {packetId packetSize : UInt16} {p : Bytes} {k : Fin m}
      (hf : s.handler i packetId = .processRoomChatMessage) (hk : s.getRoom i = some k) :
      Effect env s (.frame i packetId packetSize p) s
        (sendAck env.unset i .ackRoomChat .chatRoomSuccess ::
          s.broadcast k notifyRoomChatPacketSize
            (notifyRoomChatPacket env.unset (env.cStr (s.mUserObjPool i).mUserID)
              (p.drop messageOffset)))

variable {env : Env δ} {s s' : Server n m δ} {i : Fin n} {packetId packetSize : UInt16} {p : Bytes}
  {out : List (Sent n)}

/-- Every request is registered under its own id, above `SYS_END`. -/
theorem lookup_recvFuntionDictionary {f : ProcessFunction}
    (h : mRecvFuntionDictionary.lookup packetId = some f)
    (hid : packetId > PacketId.sysEnd.code) :
    ∃ request, f.request = some request ∧ packetId = request.code := by
  rcases List.lookup_eq_some_iff.mp h with ⟨l₁, l₂, hl, -⟩
  have hmem : (packetId, f) ∈ mRecvFuntionDictionary := by simp [hl]
  simp only [mRecvFuntionDictionary, List.mem_cons, Prod.mk.injEq, List.not_mem_nil, or_false]
    at hmem
  rcases hmem with ⟨rfl, rfl⟩ | ⟨rfl, rfl⟩ | ⟨rfl, rfl⟩ | ⟨rfl, rfl⟩ | ⟨rfl, rfl⟩ | ⟨rfl, rfl⟩ |
    ⟨rfl, rfl⟩ | ⟨rfl, rfl⟩ | ⟨rfl, rfl⟩
  · exact absurd hid (by decide)
  · exact absurd hid (by decide)
  all_goals exact ⟨_, rfl, rfl⟩

/-- `ProcessRecvPacket` is called for what the event dispatches. -/
theorem processEvent_frame_eq : s.processEvent env (.frame i packetId packetSize p) =
    match dispatched (.frame i packetId packetSize p) with
    | none => some (s, [])
    | some f => s.runProcessFunction env i packetSize p f := by
  simp only [processEvent, dispatched, processRecvPacket]
  split_ifs
  · rfl
  · rfl

theorem dispatched_frame {f : ProcessFunction}
    (h : dispatched (.frame i packetId packetSize p) = some f) :
    ∃ request, f.request = some request ∧ packetId = request.code := by
  simp only [dispatched, Option.ite_none_right_eq_some] at h
  exact lookup_recvFuntionDictionary h.2 h.1

/-- A client frame runs one function of its user's table, and nothing else. -/
theorem processEvent_frame : s.processEvent env (.frame i packetId packetSize p) =
    s.runRecvFunction env i packetSize p (s.handler i packetId) := by
  have hsame : dispatched (.frame i packetId 0 []) = dispatched (.frame i packetId packetSize p) :=
    rfl
  rw [processEvent_frame_eq, handler, hsame]
  cases hd : dispatched (.frame i packetId packetSize p) with
  | none => rfl
  | some f =>
    rcases dispatched_frame hd with ⟨request, hrequest, -⟩
    cases f <;> simp only [ProcessFunction.request, reduceCtorEq, Option.some.injEq] at hrequest
    all_goals rfl

theorem processEvent_connect :
    s.processEvent env (.connect i) = some (s.processUserConnect i, []) := rfl

theorem processEvent_disconnect :
    s.processEvent env (.disconnect i) = some (s.processUserDisConnect i, []) := rfl

/-- A handler that runs is the entry of the user's table under the request's id. -/
theorem table_of_handler {f : RecvFunction} (h : s.handler i packetId = f) (hf : f ≠ .noop) :
    ∃ request, (s.mUserObjPool i).recvFuntionDictionary request = f ∧ packetId = request.code := by
  unfold handler at h
  cases hd : dispatched (.frame i packetId 0 []) with
  | none => exact absurd (by simpa [hd] using h.symm) hf
  | some g =>
    rcases dispatched_frame hd with ⟨request, hrequest, hcode⟩
    exact ⟨request, by simpa [hd, hrequest] using h, hcode⟩

/-- A request that runs a handler is the one the handler serves. -/
theorem handler_eq_of_tableOk (hu : (s.mUserObjPool i).TableOk) {f : RecvFunction}
    (h : s.handler i packetId = f) (hf : f ≠ .noop) :
    ∃ request, f.home = some ((s.mUserObjPool i).mState, request) ∧ packetId = request.code := by
  rcases table_of_handler h hf with ⟨request, htable, hcode⟩
  exact ⟨request, hu.state_of_handler htable hf, hcode⟩

/-! ## Each handler has one of the listed outcomes -/

theorem effect_processCreateAccount (hf : s.handler i packetId = .processCreateAccount) :
    Effect env s (.frame i packetId packetSize p)
      (s.processCreateAccount env i packetSize p).1
      (s.processCreateAccount env i packetSize p).2 := by
  by_cases hsize : packetSize.toNat = reqCreateAccountPacketSize
  · simp only [processCreateAccount, hsize, ne_eq, not_true_eq_false, if_false]
    exact .accountCreated hf hsize rfl
  · simp only [processCreateAccount, hsize, ne_eq, not_false_eq_true, if_true]
    exact .ignored (.inr (.inl ⟨hf, hsize⟩))

/-- A login succeeds for an id that is not in the dictionary and that the account
database confirms; otherwise at most the database changes. -/
theorem checkLoginable_cases (db : AccountDB δ) (s : Server n m δ) (i : Fin n)
    (userID password : Bytes) :
    (∃ result db', result ≠ ResultCode.loginSuccess ∧
      (result = .loginUserAlready → s.mUserIDDictionary userID ≠ none) ∧
      s.checkLoginable db i userID password = (result, { s with mAccountDB := db' })) ∨
    (s.mUserIDDictionary userID = none ∧ ∃ db',
      db.selectAccount s.mAccountDB userID password = (true, db') ∧
      s.checkLoginable db i userID password =
        (.loginSuccess, addUser { s with mAccountDB := db' } userID i)) := by
  unfold checkLoginable findUserIndexByID
  by_cases hfull : s.mCurrentUserCnt ≥ s.mMaxUserCnt
  · rw [if_pos hfull]
    exact .inl ⟨.loginUserUsedAllObj, s.mAccountDB, by decide, by simp, rfl⟩
  rw [if_neg hfull]
  cases hfree : s.mUserIDDictionary userID with
  | some j => exact .inl ⟨.loginUserAlready, s.mAccountDB, by decide, by simp, rfl⟩
  | none =>
    cases hdb : db.selectAccount s.mAccountDB userID password with
    | mk selected db' =>
      cases selected with
      | false => exact .inl ⟨.loginUserInvalidPw, db', by decide, by simp, rfl⟩
      | true => exact .inr ⟨rfl, db', rfl, rfl⟩

theorem effect_processLogin (hf : s.handler i packetId = .processLogin) :
    Effect env s (.frame i packetId packetSize p)
      (s.processLogin env i packetSize p).1 (s.processLogin env i packetSize p).2 := by
  by_cases hsize : packetSize.toNat = reqLoginPacketSize
  · simp only [processLogin, hsize, ne_eq, not_true_eq_false, if_false]
    rcases checkLoginable_cases env.toAccountDB s i (stringAt p userIdOffset)
      (stringAt p userPwOffset) with ⟨result, db, hresult, halready, heq⟩ | ⟨hfree, db, hdb, heq⟩
    · simp only [heq, hresult, if_false]
      exact .loginRefused hf hsize hresult halready
    · have h : Effect env s (.frame i packetId packetSize p) _ _ := .loggedIn hf hsize hfree hdb
      simpa [heq, addUser, updateUser, recordLogin, hfree] using h
  · simp only [processLogin, hsize, ne_eq, not_false_eq_true, if_true]
    exact .ignored (.inr (.inr ⟨hf, hsize⟩))

theorem effect_processEnterRoom (hf : s.handler i packetId = .processEnterRoom) :
    Effect env s (.frame i packetId packetSize p)
      (s.processEnterRoom env i p).1 (s.processEnterRoom env i p).2 := by
  simp only [processEnterRoom, enterRoom]
  cases hk : s.mRoomManager.getRoomByNumber (int32At p roomNumberOffset) with
  | none =>
    simp only [RoomManager.enterUser, hk]
    exact .enterRefused hf (.inl ⟨rfl, hk⟩)
  | some k =>
    rw [s.mRoomManager.enterUser_eq s.mUserObjPool i hk]
    split_ifs with hfull
    · exact .enterRefused hf (.inr ⟨rfl, k, hk, hfull⟩)
    · exact .entered hf hk (Int.not_le.mp hfull)

theorem effect_processLeaveRoom (hf : s.handler i packetId = .processLeaveRoom) :
    Effect env s (.frame i packetId packetSize p)
      (s.processLeaveRoom env i).1 (s.processLeaveRoom env i).2 := by
  simp only [processLeaveRoom, leaveRoom]
  cases hk : s.mRoomManager.getRoomByNumber (s.mUserObjPool i).mRoomIndex with
  | none =>
    simp only [RoomManager.leaveUser, hk]
    exact .leaveRefused hf hk
  | some k =>
    rw [s.mRoomManager.leaveUser_eq s.mUserObjPool i hk]
    exact .left hf hk

theorem effect_processRoomChatMessage (hf : s.handler i packetId = .processRoomChatMessage) :
    Effect env s (.frame i packetId packetSize p)
      (s.processRoomChatMessage env i p).1 (s.processRoomChatMessage env i p).2 := by
  simp only [processRoomChatMessage]
  cases hk : s.getRoom i with
  | none => exact .chatRefused hf hk
  | some k =>
    simp only [Room.notifyChat, Room.sendToAllUser_false]
    exact .chat hf hk

/-- Every event that has a result has one of the listed outcomes. -/
theorem effect_of_processEvent {e : Event n} (h : s.processEvent env e = some (s', out)) :
    Effect env s e s' out := by
  cases e with
  | connect i =>
    obtain ⟨rfl, rfl⟩ : s.processUserConnect i = s' ∧ [] = out := by
      simpa [processEvent_connect] using h
    exact .connect i
  | disconnect i =>
    obtain ⟨rfl, rfl⟩ : s.processUserDisConnect i = s' ∧ [] = out := by
      simpa [processEvent_disconnect] using h
    simp only [processUserDisConnect, clearConnectionInfo]
    split_ifs with hstate
    · exact .disconnect i hstate
    · exact .disconnectUnused i (not_not.mp hstate)
  | frame i packetId packetSize p =>
    rw [processEvent_frame] at h
    cases hf : s.handler i packetId with
    | noop =>
      obtain ⟨rfl, rfl⟩ : s = s' ∧ [] = out := by simpa [hf, runRecvFunction] using h
      exact .ignored (.inl hf)
    | processCreateAccount =>
      rw [hf] at h
      rcases Prod.mk.inj (Option.some.inj h) with ⟨rfl, rfl⟩
      exact effect_processCreateAccount hf
    | processLogin =>
      rw [hf] at h
      rcases Prod.mk.inj (Option.some.inj h) with ⟨rfl, rfl⟩
      exact effect_processLogin hf
    | processLobbyInfo =>
      rw [hf] at h
      rcases Prod.mk.inj (Option.some.inj h) with ⟨rfl, rfl⟩
      exact .lobbyInfo hf
    | processEnterRoom =>
      rw [hf] at h
      rcases Prod.mk.inj (Option.some.inj h) with ⟨rfl, rfl⟩
      exact effect_processEnterRoom hf
    | processRoomInfo =>
      rw [hf, runRecvFunction, processRoomInfo] at h
      cases hk : s.getRoom i with
      | none => simp [hk] at h
      | some k =>
        rw [hk] at h
        rcases Prod.mk.inj (Option.some.inj h) with ⟨rfl, rfl⟩
        exact .roomInfo hf hk
    | processLeaveRoom =>
      rw [hf] at h
      rcases Prod.mk.inj (Option.some.inj h) with ⟨rfl, rfl⟩
      exact effect_processLeaveRoom hf
    | processRoomChatMessage =>
      rw [hf] at h
      rcases Prod.mk.inj (Option.some.inj h) with ⟨rfl, rfl⟩
      exact effect_processRoomChatMessage hf

/-- A step of a run has one of the listed outcomes, with the packets it sends. -/
theorem effect_of_step {e : Event n} (h : s.step env e = some s') :
    Effect env s e s' (s.sent env e) := by
  unfold step at h
  cases he : s.processEvent env e with
  | none => simp [he] at h
  | some r =>
    obtain rfl : r.1 = s' := by simpa [he] using h
    have : s.sent env e = r.2 := by simp [sent, he]
    rw [this]
    exact effect_of_processEvent he

/-- The recorded steps of a run of the server. -/
abbrev History (n m : ℕ) (δ : Type*) := List (Recorded.Entry (Server n m δ) (Event n))

/-! ## What every reachable state has -/

/-- Every user's table holds the handlers of its state, or none. -/
def TablesOk (s : Server n m δ) : Prop := ∀ i, (s.mUserObjPool i).TableOk

theorem TablesOk.updateUser (h : s.TablesOk) {f : User → User}
    (hf : (f (s.mUserObjPool i)).TableOk) : (s.updateUser i f).TablesOk := by
  intro j
  rw [updateUser_apply]
  split_ifs with hj
  · exact hf
  · exact h j

theorem TablesOk.effect {e : Event n} (h : s.TablesOk) (he : Effect env s e s' out) :
    s'.TablesOk := by
  cases he with
  | connect i => exact h.updateUser (.inr rfl)
  | disconnect i => exact TablesOk.updateUser (s := s.eraseUserID _) h (.inl rfl)
  | loggedIn => exact TablesOk.updateUser (s := s.recordLogin _ _ _) h (.inr rfl)
  | enterRefused => exact h.updateUser (.inr rfl)
  | entered => exact TablesOk.updateUser (s := s.setRoom _ _ _) h (.inr rfl)
  | leaveRefused => exact h.updateUser (.inr rfl)
  | left => exact TablesOk.updateUser (s := s.setRoom _ _ _) h (.inr rfl)
  | disconnectUnused | ignored | accountCreated | loginRefused | lobbyInfo | roomInfo |
    chatRefused | chat => exact h

theorem init_tablesOk (n : ℕ) (beginRoomNumber maxRoomCount maxRoomUserCount : Int32)
    (mem : Fin n → ℕ → UInt8) (db : δ) :
    (init n beginRoomNumber maxRoomCount maxRoomUserCount mem db).TablesOk :=
  fun _ => .inl rfl

theorem TablesOk.step {e : Event n} (h : s.TablesOk) (hstep : s.step env e = some s') :
    s'.TablesOk := h.effect (effect_of_step hstep)

section handlers

variable {f : RecvFunction} {state : UserState} {request : PacketId}

/-- A handler runs in the state that installed it only. -/
theorem TablesOk.mState_of_handler (h : s.TablesOk) (hf : s.handler i packetId = f)
    (hhome : f.home = some (state, request)) : (s.mUserObjPool i).mState = state := by
  have hne : f ≠ .noop := by
    rintro rfl
    exact nomatch hhome
  rcases handler_eq_of_tableOk (h i) hf hne with ⟨request', hhome', -⟩
  exact congrArg Prod.fst (Option.some.inj (hhome'.symm.trans hhome))

/-- A handler runs for the request it serves only. -/
theorem TablesOk.packetId_of_handler (h : s.TablesOk) (hf : s.handler i packetId = f)
    (hhome : f.home = some (state, request)) : packetId = request.code := by
  have hne : f ≠ .noop := by
    rintro rfl
    exact nomatch hhome
  rcases handler_eq_of_tableOk (h i) hf hne with ⟨request', hhome', hcode⟩
  have hrequest : request' = request :=
    congrArg Prod.snd (Option.some.inj (hhome'.symm.trans hhome))
  rw [hcode, hrequest]

end handlers

/-- The one event without a result: `ProcessRoomInfo` with a null room. -/
theorem processEvent_eq_none {e : Event n} : s.processEvent env e = none ↔
    ∃ i packetId packetSize p, e = .frame i packetId packetSize p ∧
      s.handler i packetId = .processRoomInfo ∧ s.getRoom i = none := by
  cases e with
  | connect i => simp [processEvent_connect]
  | disconnect i => simp [processEvent_disconnect]
  | frame i packetId packetSize p =>
    rw [processEvent_frame]
    cases hf : s.handler i packetId with
    | processRoomInfo =>
      cases hk : s.getRoom i with
      | none => simp [runRecvFunction, processRoomInfo, hf, hk]
      | some k => simp [runRecvFunction, processRoomInfo, hk]
    | noop | processCreateAccount | processLogin | processLobbyInfo | processEnterRoom
    | processLeaveRoom | processRoomChatMessage => simp [runRecvFunction, hf]

end ChatServer.Server
