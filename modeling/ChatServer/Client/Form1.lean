import ChatServer.Client.RoundTrip

/-! # The form of the client

The handlers of `PacketFuncDic` and the buttons of the lobby and of a room. A handler
whose `FromBytes` throws has no result. Chat messages and the log are left out.
-/

namespace ChatServer.Client

/-- The controls that the handlers use, and `SendPacketQueue` -/
structure Form1 where
  lobbyRoomList : List Int32
  userList : List String
  loginBtn : Bool
  roomListRefreshBtn : Bool
  roomEnterBtn : Bool
  roomExit : Bool
  chatSend : Bool
  sendPacketQueue : List Bytes

namespace Form1

def post (form : Form1) (packetID : PacketId) (bodyData : Option Bytes) : Form1 :=
  { form with sendPacketQueue := form.sendPacketQueue ++ [postSendPacket packetID bodyData] }

def processAckLogin (form : Form1) (bodyData : Bytes) : Option Form1 := do
  let result ← ackFromBytes bodyData
  if result = ResultCode.loginSuccess.code then
    some ({ form with loginBtn := false }.post .reqLobbyInfo none)
  else some form

def processNotifyLobbyInfo (form : Form1) (bodyData : Bytes) : Option Form1 := do
  let rooms ← notifyLobbyInfoFromBytes bodyData
  some { form with lobbyRoomList := rooms }

def processAckLobbyInfo (form : Form1) (bodyData : Bytes) : Option Form1 := do
  let _ ← ackFromBytes bodyData
  some { form with roomListRefreshBtn := true, roomEnterBtn := true }

def processAckRoomEnter (form : Form1) (bodyData : Bytes) : Option Form1 := do
  let result ← ackFromBytes bodyData
  if result = ResultCode.enterRoomSuccess.code then
    some ({ form with roomListRefreshBtn := false, roomEnterBtn := false }.post .reqRoomInfo none)
  else some form

def processAckRoomLeave (form : Form1) (bodyData : Bytes) : Option Form1 := do
  let result ← ackFromBytes bodyData
  if result = ResultCode.leaveRoomSuccess.code then
    some ({ form with userList := [], roomExit := false, chatSend := false }.post
      .reqLobbyInfo none)
  else some form

/-- The first item with the id is removed. -/
def processNotifyRoomLeave (form : Form1) (bodyData : Bytes) : Option Form1 := do
  let userID ← notifyRoomLeaveFromBytes bodyData
  some { form with userList := form.userList.erase userID }

def processAckRoomChat (form : Form1) (bodyData : Bytes) : Option Form1 := do
  let _ ← ackFromBytes bodyData
  some form

def processNotifyRoomChat (form : Form1) (bodyData : Bytes) : Option Form1 := do
  let _ ← notifyRoomChatFromBytes bodyData
  some form

def processAckRoomInfo (form : Form1) (bodyData : Bytes) : Option Form1 := do
  let packet ← ackRoomInfoFromBytes bodyData
  some { form with
    roomExit := true, chatSend := true
    userList := form.userList ++ packet.userIDList.take packet.userCount }

def processNotifyRoomInfo (form : Form1) (bodyData : Bytes) : Option Form1 := do
  let userID ← notifyRoomInfoFromBytes bodyData
  some { form with userList := form.userList ++ [userID] }

/-- `PacketFuncDic` as `SetPacketHandler` fills it -/
def packetFuncDic : List (UInt16 × (Form1 → Bytes → Option Form1)) :=
  [(PacketId.ackLogin.code, processAckLogin),
    (PacketId.ackRoomEnter.code, processAckRoomEnter),
    (PacketId.ackLobbyInfo.code, processAckLobbyInfo),
    (PacketId.notifyLobbyInfo.code, processNotifyLobbyInfo),
    (PacketId.ackRoomChat.code, processAckRoomChat),
    (PacketId.notifyRoomChat.code, processNotifyRoomChat),
    (PacketId.ackRoomInfo.code, processAckRoomInfo),
    (PacketId.notifyRoomInfo.code, processNotifyRoomInfo),
    (PacketId.ackRoomLeave.code, processAckRoomLeave),
    (PacketId.notifyRoomLeave.code, processNotifyRoomLeave)]

/-- `PacketProcess` -/
def packetProcess (form : Form1) (packet : Packet) : Option Form1 :=
  match packetFuncDic.lookup packet.packetId with
  | some handler => handler form packet.body
  | none => some form

/-! ## The buttons; a click needs an enabled button. -/

def roomEnterBtnClick (form : Form1) (selectedIndex : Int32) : Option Form1 :=
  if form.roomEnterBtn then
    some (form.post .reqRoomEnter (some (reqRoomEnterBytes selectedIndex)))
  else none

def roomListRefreshBtnClick (form : Form1) : Option Form1 :=
  if form.roomListRefreshBtn then
    some ({ form with roomListRefreshBtn := false, roomEnterBtn := false }.post
      .reqLobbyInfo none)
  else none

def roomExitClick (form : Form1) : Option Form1 :=
  if form.roomExit then some (form.post .reqRoomLeave none) else none

end Form1

/-! ## The member list of a room -/

/-- A text that fits the fields for ids -/
abbrev UserId : Type :=
  { s : String // (getBytes s).length ≤ PacketDef.maxUserIdByteLength ∧ '\x00' ∉ s.toList }

variable {bodyData : Bytes}

theorem idLenLoop_append {id : Bytes} (h : 0 ∉ id) (i k : ℕ) (rest : Bytes) :
    idLenLoop i k (id ++ 0 :: rest) =
      (i + id.length - k) :: idLenLoop (i + id.length + 1) (i + id.length + 1) rest := by
  induction id generalizing i with
  | nil => simp [idLenLoop]
  | cons b id ih =>
    have hb : b ≠ 0 := fun hb => h (by simp [hb])
    rw [List.cons_append, idLenLoop, if_neg hb, ih (fun hmem => h (List.mem_cons_of_mem b hmem)),
      List.length_cons]
    have hindex : i + 1 + id.length = i + (id.length + 1) := by omega
    rw [hindex]

/-- The distances between the zeros are the lengths of the ids. -/
theorem idLenLoop_memberBytes {ids : List Bytes} (h : ∀ id ∈ ids, 0 ∉ id) (i : ℕ) :
    idLenLoop i i (memberBytes ids) = ids.map List.length := by
  induction ids generalizing i with
  | nil => rfl
  | cons id ids ih =>
    have hid : 0 ∉ id := h id (by simp)
    have hbytes : memberBytes (id :: ids) = id ++ 0 :: memberBytes ids := by
      simp [memberBytes]
    rw [hbytes, idLenLoop_append hid, ih (fun id' hid' => h id' (List.mem_cons_of_mem id hid')),
      List.map_cons, Nat.add_sub_cancel_left]

/-- The ids are read back one after the other. -/
theorem userIDLoop_memberBytes {names : List String} (h : ∀ s ∈ names, '\x00' ∉ s.toList)
    {pos : ℕ} (hdrop : bodyData.drop pos = memberBytes (names.map getBytes)) :
    userIDLoop bodyData names.length ((names.map getBytes).map List.length) pos = some names := by
  induction names generalizing pos with
  | nil => rfl
  | cons s names ih =>
    have hs : '\x00' ∉ s.toList := h s (by simp)
    have hbytes : bodyData.drop pos =
        (getBytes s ++ [0]) ++ memberBytes (names.map getBytes) := by
      rw [hdrop]
      simp [memberBytes]
    have hlength := congrArg List.length hbytes
    rw [List.length_drop, List.length_append, List.length_append, List.length_singleton] at hlength
    have hfield : (bodyData.drop pos).take ((getBytes s).length + 1) = getBytes s ++ [0] := by
      rw [hbytes]
      exact List.take_left' (by simp)
    have hrest : bodyData.drop (pos + ((getBytes s).length + 1)) =
        memberBytes (names.map getBytes) := by
      rw [← List.drop_drop, hbytes]
      exact List.drop_left' (by simp)
    have hzero : getBytes s ++ [0] = zeroFilled (getBytes s) ((getBytes s).length + 1) := by
      simp [zeroFilled]
    rw [List.map_cons, List.map_cons, List.length_cons, userIDLoop, textAt_eq (by omega), hfield,
      hzero, ofList_text_zeroFilled hs]
    simp only [Option.bind_eq_bind, Option.bind_some]
    rw [ih (fun s' hs' => h s' (List.mem_cons_of_mem s hs')) hrest]
    rfl

/-- Up to 255 members, `FromBytes` reads the ids that `ProcessRoomInfo` wrote. -/
theorem ackRoomInfoFromBytes_eq (unset : UInt8) {names : List String}
    (h : ∀ s ∈ names, '\x00' ∉ s.toList) (hcount : names.length ≤ 255) :
    ackRoomInfoFromBytes (ackRoomInfoPacket unset (names.map getBytes)).body =
      some { result := ResultCode.enterRoomSuccess.code, userCount := names.length
             userIDList := names } := by
  have hresult : toUInt16 (ackRoomInfoPacket unset (names.map getBytes)).body 0 =
      some ResultCode.enterRoomSuccess.code := by
    rw [toUInt16, if_pos (by simp [ackRoomInfoPacket, le16])]
    simp only [ackRoomInfoPacket, List.append_assoc, uint16At_le16_append]
  have hbyte : ((ackRoomInfoPacket unset (names.map getBytes)).body[2]?).map UInt8.toNat =
      some names.length := by
    have hsize : (Int32.ofNat names.length).toUInt32.toNat % 256 = names.length := by
      simp
      omega
    simpa [ackRoomInfoPacket, le16, le32] using hsize
  have hdrop : (ackRoomInfoPacket unset (names.map getBytes)).body.drop 6 =
      memberBytes (names.map getBytes) := by
    simp [ackRoomInfoPacket, le16, le32]
  have hzeros : ∀ id ∈ names.map getBytes, 0 ∉ id := by
    intro id hid
    rcases List.mem_map.mp hid with ⟨s, hs, rfl⟩
    exact zero_not_mem_getBytes.mpr (h s hs)
  simp only [ackRoomInfoFromBytes, hresult, hbyte, Option.bind_eq_bind, Option.bind_some]
  rw [hdrop, idLenLoop_memberBytes hzeros, userIDLoop_memberBytes h hdrop]
  rfl

end ChatServer.Client
