import ChatServer.Server.State

/-! # Packet handlers and their dispatch

A request passes two tables: `mRecvFuntionDictionary` of the packet manager, by
packet id, and `recvFuntionDictionary` of the user. A handler has no result when
it dereferences a null room.
-/

namespace ChatServer

/-- The member functions stored in `PacketManager::mRecvFuntionDictionary` -/
inductive ProcessFunction where
  | processUserConnect | processUserDisConnect
  | processCreateAccount | processLogin
  | processLobbyInfo | processEnterRoom
  | processRoomInfo | processLeaveRoom | processRoomChatMessage
  deriving DecidableEq, Repr

/-- The table that `PacketManager::Init` fills. -/
def mRecvFuntionDictionary : List (UInt16 × ProcessFunction) :=
  [(PacketId.sysUserConnect.code, .processUserConnect),
    (PacketId.sysUserDisconnect.code, .processUserDisConnect),
    (PacketId.reqCreateAccount.code, .processCreateAccount),
    (PacketId.reqLogin.code, .processLogin),
    (PacketId.reqLobbyInfo.code, .processLobbyInfo),
    (PacketId.reqRoomEnter.code, .processEnterRoom),
    (PacketId.reqRoomInfo.code, .processRoomInfo),
    (PacketId.reqRoomLeave.code, .processLeaveRoom),
    (PacketId.reqRoomChat.code, .processRoomChatMessage)]

/-- The request whose entry in the user's table a `Process...` function calls. -/
def ProcessFunction.request : ProcessFunction → Option PacketId
  | processUserConnect => none
  | processUserDisConnect => none
  | processCreateAccount => some .reqCreateAccount
  | processLogin => some .reqLogin
  | processLobbyInfo => some .reqLobbyInfo
  | processEnterRoom => some .reqRoomEnter
  | processRoomInfo => some .reqRoomInfo
  | processLeaveRoom => some .reqRoomLeave
  | processRoomChatMessage => some .reqRoomChat

/-- `NOTIFY_LOBBY_INFO` with its vector of room numbers flattened -/
def notifyLobbyInfoPacket (unset : UInt8) (rooms : List Int32) : Packet :=
  { packetLength := UInt16.ofNat (packetHeaderLength + 4 + rooms.length * 4)
    packetId := PacketId.notifyLobbyInfo.code, type := unset
    body := le32 (Int32.ofNat rooms.length) ++ rooms.flatMap le32 }

/-- The ids of the members, each with a terminating zero. -/
def memberBytes (users : List Bytes) : Bytes := users.flatMap fun id => id ++ [0]

/-- `ACK_ROOM_INFO_PACKET` with its vector of ids flattened -/
def ackRoomInfoPacket (unset : UInt8) (users : List Bytes) : Packet :=
  { packetLength := UInt16.ofNat (packetHeaderLength + 2 + 4 + (memberBytes users).length)
    packetId := PacketId.ackRoomInfo.code, type := unset
    body := le16 ResultCode.enterRoomSuccess.code ++ le32 (Int32.ofNat users.length) ++
      memberBytes users }

/-- Send an acknowledgement with a result code to one slot. -/
def sendAck {n : ℕ} (unset : UInt8) (i : Fin n) (packetId : PacketId) (result : ResultCode) :
    Sent n :=
  sendPacketFunc i (packetHeaderLength + 2) (ackPacket unset packetId result)

namespace Server

variable {n m : ℕ} {δ : Type*}

/-- `UserStateConnected::ProcessCreateAccount` -/
def processCreateAccount (env : Env δ) (s : Server n m δ) (i : Fin n) (packetSize : UInt16)
    (pPacket : Bytes) : Server n m δ × List (Sent n) :=
  if packetSize.toNat ≠ reqCreateAccountPacketSize then (s, [])
  else
    let (created, s) :=
      s.createAccount env.toAccountDB (stringAt pPacket userIdOffset)
        (stringAt pPacket userPwOffset)
    (s, [sendAck env.unset i .ackCreateAccount (if created then .none else .createAccountFail)])

/-- `UserStateConnected::ProcessLogin`; `SetLogin` runs once more after `AddUser`. -/
def processLogin (env : Env δ) (s : Server n m δ) (i : Fin n) (packetSize : UInt16)
    (pPacket : Bytes) : Server n m δ × List (Sent n) :=
  if packetSize.toNat ≠ reqLoginPacketSize then (s, [])
  else
    let userID := stringAt pPacket userIdOffset
    let (result, s) :=
      s.checkLoginable env.toAccountDB i userID (stringAt pPacket userPwOffset)
    let s := if result = .loginSuccess then s.updateUser i (User.setLogin userID) else s
    (s, [sendAck env.unset i .ackLogin result])

/-- `UserStateInLobby::ProcessLobbyInfo` -/
def processLobbyInfo (env : Env δ) (s : Server n m δ) (i : Fin n) :
    Server n m δ × List (Sent n) :=
  let rooms := s.mRoomManager.getRoomList
  (s, [sendAck env.unset i .ackLobbyInfo .lobbyInfoSuccess,
    sendPacketFunc i (packetHeaderLength + 4 + rooms.length * 4)
      (notifyLobbyInfoPacket env.unset rooms)])

/-- `UserStateInLobby::ProcessEnterRoom`; the packet size is not checked. -/
def processEnterRoom (env : Env δ) (s : Server n m δ) (i : Fin n) (pPacket : Bytes) :
    Server n m δ × List (Sent n) :=
  let (result, s, sent) := s.enterRoom i (int32At pPacket roomNumberOffset)
  (s, sent ++ [sendAck env.unset i .ackRoomEnter result])

/-- `UserStateInRoom::ProcessRoomInfo`; the room pointer is not checked. -/
def processRoomInfo (env : Env δ) (s : Server n m δ) (i : Fin n) :
    Option (Server n m δ × List (Sent n)) :=
  match s.getRoom i with
  | none => none
  | some k =>
    let users := (s.mRoomManager.mRoomList k).getRoomMemberList s.mUserObjPool
    some (s, [sendPacketFunc i (packetHeaderLength + 2 + 4 + (memberBytes users).length)
      (ackRoomInfoPacket env.unset users)])

/-- `UserStateInRoom::ProcessLeaveRoom` -/
def processLeaveRoom (env : Env δ) (s : Server n m δ) (i : Fin n) :
    Server n m δ × List (Sent n) :=
  let (result, s, sent) := s.leaveRoom i
  (s, sent ++ [sendAck env.unset i .ackRoomLeave result])

/-- `UserStateInRoom::ProcessRoomChatMessage`; the packet size is not checked. -/
def processRoomChatMessage (env : Env δ) (s : Server n m δ) (i : Fin n) (pPacket : Bytes) :
    Server n m δ × List (Sent n) :=
  match s.getRoom i with
  | none => (s, [sendAck env.unset i .ackRoomChat .chatRoomInvalidRoomNumber])
  | some k =>
    (s, sendAck env.unset i .ackRoomChat .chatRoomSuccess ::
      (s.mRoomManager.mRoomList k).notifyChat env.unset i
        (env.cStr (s.mUserObjPool i).mUserID) (pPacket.drop messageOffset))

/-- Call a function of the user's table. -/
def runRecvFunction (env : Env δ) (s : Server n m δ) (i : Fin n) (packetSize : UInt16)
    (pPacket : Bytes) : RecvFunction → Option (Server n m δ × List (Sent n))
  | .noop => some (s, [])
  | .processCreateAccount => some (s.processCreateAccount env i packetSize pPacket)
  | .processLogin => some (s.processLogin env i packetSize pPacket)
  | .processLobbyInfo => some (s.processLobbyInfo env i)
  | .processEnterRoom => some (s.processEnterRoom env i pPacket)
  | .processRoomInfo => s.processRoomInfo env i
  | .processLeaveRoom => some (s.processLeaveRoom env i)
  | .processRoomChatMessage => some (s.processRoomChatMessage env i pPacket)

/-- `PacketManager::ProcessUserConnect` -/
def processUserConnect (s : Server n m δ) (i : Fin n) : Server n m δ :=
  s.updateUser i fun u => User.changeState .connected u.clear

/-- `PacketManager::ProcessUserDisConnect` -/
def processUserDisConnect (s : Server n m δ) (i : Fin n) : Server n m δ :=
  s.clearConnectionInfo i

/-- The `Process...` functions of the packet manager. Those for client requests call
the entry of the user's table under their own request. -/
def runProcessFunction (env : Env δ) (s : Server n m δ) (i : Fin n) (packetSize : UInt16)
    (pPacket : Bytes) (f : ProcessFunction) : Option (Server n m δ × List (Sent n)) :=
  match f with
  | .processUserConnect => some (s.processUserConnect i, [])
  | .processUserDisConnect => some (s.processUserDisConnect i, [])
  | f =>
    match f.request with
    | none => some (s, [])
    | some packetId =>
      s.runRecvFunction env i packetSize pPacket
        ((s.mUserObjPool i).recvFuntionDictionary packetId)

/-- `PacketManager::ProcessRecvPacket` -/
def processRecvPacket (env : Env δ) (s : Server n m δ) (i : Fin n) (packetId packetSize : UInt16)
    (pPacket : Bytes) : Option (Server n m δ × List (Sent n)) :=
  match mRecvFuntionDictionary.lookup packetId with
  | none => some (s, [])
  | some f => s.runProcessFunction env i packetSize pPacket f

end Server

/-- What reaches `ProcessRecvPacket`: the two system packets, and the frames of
clients with the size and the pointer that `GetPacket` returned. -/
inductive Event (n : ℕ) where
  | connect (i : Fin n)
  | disconnect (i : Fin n)
  | frame (i : Fin n) (packetId packetSize : UInt16) (pPacket : Bytes)

/-- The well-formed frame of a request with the given bytes after its header. -/
def requestFrame (packetId : PacketId) (body : Bytes) : Bytes :=
  le16 (UInt16.ofNat (packetHeaderLength + body.length)) ++ le16 packetId.code ++ 0 :: body

/-- `REQ_LOGIN_PACKET` without its header: two fields filled up with zeros. -/
def reqLoginBody (userID userPW : Bytes) : Bytes :=
  blockAt userID 0 (maxUserIdLen + 1) ++ blockAt userPW 0 (maxUserPwLen + 1)

/-- The dispatch of a well-formed frame. -/
def Event.request {n : ℕ} (i : Fin n) (packetId : PacketId) (body : Bytes) : Event n :=
  .frame i packetId.code (UInt16.ofNat (packetHeaderLength + body.length))
    (requestFrame packetId body)

namespace Server

variable {n m : ℕ} {δ : Type*}

/-- One dispatch of `ProcessPacket`. A data packet is dispatched above `SYS_END` only. -/
def processEvent (env : Env δ) (s : Server n m δ) :
    Event n → Option (Server n m δ × List (Sent n))
  | .connect i => s.processRecvPacket env i PacketId.sysUserConnect.code 0 []
  | .disconnect i => s.processRecvPacket env i PacketId.sysUserDisconnect.code 0 []
  | .frame i packetId packetSize pPacket =>
    if packetId > PacketId.sysEnd.code then
      s.processRecvPacket env i packetId packetSize pPacket
    else some (s, [])

/-- The `Process...` function that the dispatch of an event calls, if any. -/
def dispatched : Event n → Option ProcessFunction
  | .connect _ => mRecvFuntionDictionary.lookup PacketId.sysUserConnect.code
  | .disconnect _ => mRecvFuntionDictionary.lookup PacketId.sysUserDisconnect.code
  | .frame _ packetId _ _ =>
    if packetId > PacketId.sysEnd.code then mRecvFuntionDictionary.lookup packetId else none

def step (env : Env δ) (s : Server n m δ) (e : Event n) : Option (Server n m δ) :=
  (s.processEvent env e).map Prod.fst

/-- The packets that the event sends, in order. -/
def sent (env : Env δ) (s : Server n m δ) (e : Event n) : List (Sent n) :=
  ((s.processEvent env e).map Prod.snd).getD []

/-- The function of the user's table that a client frame with this id runs. -/
def handler (s : Server n m δ) (i : Fin n) (packetId : UInt16) : RecvFunction :=
  match (dispatched (.frame i packetId 0 [])).bind ProcessFunction.request with
  | none => .noop
  | some request => (s.mUserObjPool i).recvFuntionDictionary request

/-- An environment in which every password is right and every creation succeeds. -/
def acceptingEnv : Env Unit where
  createAccount _ _ _ := (true, ())
  selectAccount _ _ _ := (true, ())
  unset := 0
  cStrTail _ := []

end Server
end ChatServer
