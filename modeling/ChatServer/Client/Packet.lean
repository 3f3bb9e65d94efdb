import ChatServer.Packet
import ChatServer.Library.Utf8

/-! # The packets of the client

The client has its own constants and converts text with `Encoding.UTF8`. A `string`
is a list of characters here; half of a surrogate pair is encoded like U+FFFD. A
method that throws has no result.
-/

namespace ChatServer.Client

namespace PacketDef

def packetHeaderSize : ℕ := 5
def maxUserIdByteLength : ℕ := 11
def maxUserPwByteLength : ℕ := 11
def maxChatMsgSize : ℕ := 257

end PacketDef

/-- `Encoding.UTF8.GetBytes` -/
def getBytes (s : String) : Bytes := Utf8.encode s.toList

/-- `Encoding.UTF8.GetString(bodyData, index, count)` -/
def getString (bodyData : Bytes) (index count : ℕ) : Option String :=
  if index + count ≤ bodyData.length then
    some (String.ofList (Utf8.decode ((bodyData.drop index).take count)))
  else none

/-- `Replace("\0", string.Empty)` -/
def replaceZero (s : String) : String := String.ofList (s.toList.filter (· ≠ '\x00'))

/-- `Array.CopyTo(destination, 0)` -/
def copyTo (source destination : Bytes) : Option Bytes :=
  if source.length ≤ destination.length then some (source ++ destination.drop source.length)
  else none

/-- `BitConverter.ToUInt16` -/
def toUInt16 (bodyData : Bytes) (index : ℕ) : Option UInt16 :=
  if index + 2 ≤ bodyData.length then some (uint16At bodyData index) else none

/-- `BitConverter.ToInt32` -/
def toInt32 (bodyData : Bytes) (index : ℕ) : Option Int32 :=
  if index + 4 ≤ bodyData.length then some (int32At bodyData index) else none

/-! ## Requests -/

/-- `REQ_LOGIN_PACKET` -/
structure ReqLoginPacket where
  userID : Bytes
  userPW : Bytes

namespace ReqLoginPacket

def new : ReqLoginPacket where
  userID := List.replicate PacketDef.maxUserIdByteLength 0
  userPW := List.replicate PacketDef.maxUserPwByteLength 0

def setValue (packet : ReqLoginPacket) (userID userPW : String) : Option ReqLoginPacket := do
  let userID ← copyTo (getBytes userID) packet.userID
  let userPW ← copyTo (getBytes userPW) packet.userPW
  some { userID := userID, userPW := userPW }

def toBytes (packet : ReqLoginPacket) : Bytes := packet.userID ++ packet.userPW

end ReqLoginPacket

/-- `REQ_ROOM_CHAT_PACKET` -/
structure ReqRoomChatPacket where
  msg : Bytes

namespace ReqRoomChatPacket

def new : ReqRoomChatPacket where
  msg := List.replicate PacketDef.maxChatMsgSize 0

def setValue (packet : ReqRoomChatPacket) (message : String) : Option ReqRoomChatPacket := do
  let msg ← copyTo (getBytes message) packet.msg
  some { msg := msg }

def toBytes (packet : ReqRoomChatPacket) : Bytes := packet.msg

end ReqRoomChatPacket

/-- `REQ_ROOM_ENTER_PACKET.ToBytes` -/
def reqRoomEnterBytes (roomNumber : Int32) : Bytes := le32 roomNumber

/-- What `Form1.PostSendPacket` puts into `SendPacketQueue`, when connected. -/
def postSendPacket (packetID : PacketId) (bodyData : Option Bytes) : Bytes :=
  let bodyDataSize : Int16 := Int16.ofNat (bodyData.getD []).length
  let packetSize : ℤ := bodyDataSize.toInt + PacketDef.packetHeaderSize
  le16 (UInt16.ofInt packetSize) ++ le16 packetID.code ++ [0] ++ bodyData.getD []

/-! ## `FromBytes` -/

/-- The `FromBytes` of every `ACK_..._PACKET` that consists of a result. -/
def ackFromBytes (bodyData : Bytes) : Option UInt16 := toUInt16 bodyData 0

/-- A fixed field of text, without its zeros -/
def textAt (bodyData : Bytes) (index count : ℕ) : Option String := do
  let s ← getString bodyData index count
  some (replaceZero s)

/-- `NOTIFY_ROOM_INFO_PACKET.FromBytes` -/
def notifyRoomInfoFromBytes (bodyData : Bytes) : Option String :=
  textAt bodyData 0 PacketDef.maxUserIdByteLength

/-- `NOTIFY_ROOM_LEAVE_PACKET.FromBytes` -/
def notifyRoomLeaveFromBytes (bodyData : Bytes) : Option String :=
  textAt bodyData 0 PacketDef.maxUserIdByteLength

/-- `NOTIFY_ROOM_CHAT_PACKET.FromBytes`: `UserID` and `Message` -/
def notifyRoomChatFromBytes (bodyData : Bytes) : Option (String × String) := do
  let userID ← textAt bodyData 0 PacketDef.maxUserIdByteLength
  let message ← textAt bodyData PacketDef.maxUserIdByteLength PacketDef.maxChatMsgSize
  some (userID, message)

/-- The loop that fills `idLen`: the distances between the zeros from `i` on. -/
def idLenLoop : ℕ → ℕ → Bytes → List ℕ
  | _, _, [] => []
  | i, currentPos, b :: rest =>
    if b = 0 then (i - currentPos) :: idLenLoop (i + 1) (i + 1) rest
    else idLenLoop (i + 1) currentPos rest

/-- The loop that fills `UserIDList`; it throws when `idLen` is too short. -/
def userIDLoop (bodyData : Bytes) : ℕ → List ℕ → ℕ → Option (List String)
  | 0, _, _ => some []
  | _ + 1, [], _ => none
  | userCount + 1, len :: idLen, readPos => do
    let id ← textAt bodyData readPos (len + 1)
    let ids ← userIDLoop bodyData userCount idLen (readPos + (len + 1))
    some (id :: ids)

/-- `ACK_ROOM_INFO_PACKET` after `FromBytes` -/
structure AckRoomInfoPacket where
  result : UInt16
  userCount : ℕ
  userIDList : List String

/-- `ACK_ROOM_INFO_PACKET.FromBytes`; `UserCount` is read from a single byte. -/
def ackRoomInfoFromBytes (bodyData : Bytes) : Option AckRoomInfoPacket := do
  let result ← toUInt16 bodyData 0
  let userCount ← (bodyData[2]?).map UInt8.toNat
  let ids ← userIDLoop bodyData userCount (idLenLoop 6 6 (bodyData.drop 6)) 6
  some { result := result, userCount := userCount, userIDList := ids }

/-- The loop of `NOTIFY_LOBBY_INFO_PACKET.FromBytes` -/
def roomLoop (bodyData : Bytes) : ℕ → ℕ → Option (List Int32)
  | 0, _ => some []
  | roomCount + 1, readPos => do
    let roomNum ← toInt32 bodyData readPos
    let rooms ← roomLoop bodyData roomCount (readPos + 4)
    some (roomNum :: rooms)

/-- `NOTIFY_LOBBY_INFO_PACKET.FromBytes`; the count is read from a single byte. -/
def notifyLobbyInfoFromBytes (bodyData : Bytes) : Option (List Int32) := do
  let roomCount ← (bodyData[0]?).map UInt8.toNat
  roomLoop bodyData roomCount 4

/-! ## Text in fixed fields -/

variable {source destination bodyData : Bytes} {index count n : ℕ}

theorem getBytes_injective : Function.Injective getBytes :=
  Utf8.encode_injective.comp fun _ _ => String.toList_inj.mp

/-- A text at the front of a field of `n` bytes -/
def zeroFilled (text : Bytes) (n : ℕ) : Bytes := text ++ List.replicate (n - text.length) 0

theorem length_zeroFilled (h : source.length ≤ n) : (zeroFilled source n).length = n := by
  simp [zeroFilled, h]

theorem copyTo_zeros_eq_some {field : Bytes} :
    copyTo source (List.replicate n 0) = some field ↔
      source.length ≤ n ∧ field = zeroFilled source n := by
  by_cases h : source.length ≤ n
  · simp [copyTo, h, zeroFilled, eq_comm]
  · simp [copyTo, h]

theorem ReqLoginPacket.setValue_new {userID userPW : String} {packet : ReqLoginPacket} :
    ReqLoginPacket.new.setValue userID userPW = some packet ↔
      ((getBytes userID).length ≤ PacketDef.maxUserIdByteLength ∧
        (getBytes userPW).length ≤ PacketDef.maxUserPwByteLength) ∧
      packet = { userID := zeroFilled (getBytes userID) PacketDef.maxUserIdByteLength
                 userPW := zeroFilled (getBytes userPW) PacketDef.maxUserPwByteLength } := by
  simp only [setValue, new, Option.bind_eq_bind, Option.bind_eq_some_iff, copyTo_zeros_eq_some,
    Option.some.injEq]
  constructor
  · rintro ⟨_, ⟨hid, rfl⟩, _, ⟨hpw, rfl⟩, rfl⟩
    exact ⟨⟨hid, hpw⟩, rfl⟩
  · rintro ⟨⟨hid, hpw⟩, rfl⟩
    exact ⟨_, ⟨hid, rfl⟩, _, ⟨hpw, rfl⟩, rfl⟩

theorem ReqRoomChatPacket.setValue_new {message : String} {packet : ReqRoomChatPacket} :
    ReqRoomChatPacket.new.setValue message = some packet ↔
      (getBytes message).length ≤ PacketDef.maxChatMsgSize ∧
      packet = { msg := zeroFilled (getBytes message) PacketDef.maxChatMsgSize } := by
  simp only [setValue, new, Option.bind_eq_bind, Option.bind_eq_some_iff, copyTo_zeros_eq_some,
    Option.some.injEq]
  constructor
  · rintro ⟨_, ⟨hmsg, rfl⟩, rfl⟩
    exact ⟨hmsg, rfl⟩
  · rintro ⟨hmsg, rfl⟩
    exact ⟨_, ⟨hmsg, rfl⟩, rfl⟩

theorem textAt_eq (h : index + count ≤ bodyData.length) :
    textAt bodyData index count =
      some (String.ofList (Utf8.text ((bodyData.drop index).take count))) := by
  simp [textAt, getString, h, replaceZero, Utf8.text]

/-- The text of a field that is filled up with zeros -/
theorem ofList_text_zeroFilled {s : String} (h : '\x00' ∉ s.toList) (n : ℕ) :
    String.ofList (Utf8.text (zeroFilled (getBytes s) n)) = s := by
  rw [zeroFilled, getBytes, Utf8.text_encode_append h, Utf8.text_eq_nil.mpr, List.append_nil,
    String.ofList_toList]
  intro b hb
  exact (List.mem_replicate.mp hb).2

theorem zero_not_mem_getBytes {s : String} : 0 ∉ getBytes s ↔ '\x00' ∉ s.toList := by
  rw [getBytes, Utf8.zero_mem_encode]

end ChatServer.Client
