import ChatServer.User.User

/-! # Rooms

A room keeps pointers to users; a user is its index in `mUserObjPool`, which is
also its `GetNetConnIdx()`. `EnterUser` counts up, `LeaveUser` compares ids and
does not count down.
-/

namespace ChatServer

/-- Membership in a list of users is decided by this instance, whatever is imported. -/
instance finLawfulBEq (n : ℕ) : LawfulBEq (Fin n) := inferInstance

structure Room (n : ℕ) where
  mRoomNum : Int32
  mUserList : List (Fin n)
  mMaxUserCount : Int32
  mCurrentUserCount : UInt16

/-- Eleven zero bytes overwritten by the loop that copies the id, as far as they
reach. The loop runs over the whole id; `copyUserId` says where it leaves the field. -/
def userIdField (id : Bytes) : Bytes := blockAt id 0 (maxUserIdLen + 1)

/-- `NOTIFY_ROOM_INFO_PACKET`, zeroed before its fields are set. -/
def notifyRoomInfoPacket (id : Bytes) : Packet :=
  { packetLength := UInt16.ofNat (packetHeaderLength + (maxUserIdLen + 1))
    packetId := PacketId.notifyRoomInfo.code, type := 0, body := userIdField id }

/-- `NOTIFY_ROOM_LEAVE_PACKET`, zeroed before its fields are set. -/
def notifyRoomLeavePacket (id : Bytes) : Packet :=
  { packetLength := UInt16.ofNat (packetHeaderLength + (maxUserIdLen + 1))
    packetId := PacketId.notifyRoomLeave.code, type := 0, body := userIdField id }

/-- Size of `NOTIFY_ROOM_CHAT_PACKET`. -/
def notifyRoomChatPacketSize : ℕ :=
  packetHeaderLength + (maxUserIdLen + 1) + (maxChatMsgSize + 1)

/-- `NOTIFY_ROOM_CHAT_PACKET` as `NotifyChat` fills it: both `CopyMemory` calls copy
the full size of the field from the given memory. -/
def notifyRoomChatPacket (unset : UInt8) (userID msg : Bytes) : Packet :=
  { packetLength := UInt16.ofNat notifyRoomChatPacketSize
    packetId := PacketId.notifyRoomChat.code, type := unset
    body := blockAt userID 0 (maxUserIdLen + 1) ++ blockAt msg 0 (maxChatMsgSize + 1) }

namespace Room

variable {n : ℕ}

def init (roomNum maxUserCount : Int32) : Room n :=
  { mRoomNum := roomNum, mUserList := [], mMaxUserCount := maxUserCount, mCurrentUserCount := 0 }

def getCurrentUserCount (r : Room n) : ℤ := r.mCurrentUserCount.toNat
def getMaxUserCount (r : Room n) : ℤ := r.mMaxUserCount.toInt

/-- `Room::SendToAllUser` -/
def sendToAllUser (r : Room n) (dataSize : ℕ) (data : Packet) (passUserIndex : Fin n)
    (exceptMe : Bool) : List (Sent n) :=
  r.mUserList.filterMap fun pUser =>
    if exceptMe && pUser == passUserIndex then none
    else some (sendPacketFunc pUser dataSize data)

/-- `Room::EnterUser` for the user with index `user` -/
def enterUser (r : Room n) (users : Fin n → User) (user : Fin n) :
    ResultCode × Room n × List (Sent n) :=
  if r.getCurrentUserCount ≥ r.getMaxUserCount then (.enterRoomFullUser, r, [])
  else
    (.enterRoomSuccess,
      { r with
        mUserList := r.mUserList ++ [user]
        mCurrentUserCount := r.mCurrentUserCount + 1 },
      r.sendToAllUser (packetHeaderLength + (maxUserIdLen + 1))
        (notifyRoomInfoPacket (users user).mUserID) user false)

/-- `Room::LeaveUser` for the user with index `leaveUser` -/
def leaveUser (r : Room n) (users : Fin n → User) (leaveUser : Fin n) :
    ResultCode × Room n × List (Sent n) :=
  let leaveUserId := (users leaveUser).mUserID
  (.leaveRoomSuccess,
    { r with mUserList := r.mUserList.filter fun pUser => leaveUserId ≠ (users pUser).mUserID },
    r.sendToAllUser (packetHeaderLength + (maxUserIdLen + 1))
      (notifyRoomLeavePacket leaveUserId) leaveUser false)

/-- `Room::NotifyChat`; `userID` and `msg` are the memory behind the two pointers. -/
def notifyChat (r : Room n) (unset : UInt8) (clientIndex : Fin n) (userID msg : Bytes) :
    List (Sent n) :=
  r.sendToAllUser notifyRoomChatPacketSize (notifyRoomChatPacket unset userID msg) clientIndex
    false

/-- `Room::GetRoomMemberList` -/
def getRoomMemberList (r : Room n) (users : Fin n → User) : List Bytes :=
  r.mUserList.map fun user => (users user).mUserID

/-- Every call passes `exceptMe = false`: one packet to each entry of the list. -/
theorem sendToAllUser_false (r : Room n) (dataSize : ℕ) (data : Packet) (passUserIndex : Fin n) :
    r.sendToAllUser dataSize data passUserIndex false =
      r.mUserList.map fun pUser => sendPacketFunc pUser dataSize data := by
  simp [sendToAllUser]

end Room
end ChatServer
