import ChatServer.Library.Framing

/-! # Packet identifiers, result codes and packet layouts

All structures of the protocol are packed, so a field is a fixed number of bytes
at a fixed offset. A pointer to a received packet is the list of the bytes from
its address on: the frame, and whatever memory holds after it.
-/

namespace ChatServer

abbrev Bytes := List UInt8

/-- `PACKET_ID` -/
inductive PacketId where
  | sysUserConnect | sysUserDisconnect | sysEnd
  | dbEnd
  | reqCreateAccount | ackCreateAccount
  | reqLogin | ackLogin
  | reqLobbyInfo | ackLobbyInfo | notifyLobbyInfo
  | reqRoomEnter | ackRoomEnter
  | reqRoomLeave | ackRoomLeave | notifyRoomLeave
  | reqRoomChat | ackRoomChat | notifyRoomChat
  | reqRoomInfo | ackRoomInfo | notifyRoomInfo
  deriving DecidableEq, Repr

def PacketId.code : PacketId → UInt16
  | sysUserConnect => 11
  | sysUserDisconnect => 12
  | sysEnd => 30
  | dbEnd => 199
  | reqCreateAccount => 200
  | ackCreateAccount => 201
  | reqLogin => 210
  | ackLogin => 211
  | reqLobbyInfo => 300
  | ackLobbyInfo => 301
  | notifyLobbyInfo => 302
  | reqRoomEnter => 400
  | ackRoomEnter => 401
  | reqRoomLeave => 410
  | ackRoomLeave => 411
  | notifyRoomLeave => 412
  | reqRoomChat => 420
  | ackRoomChat => 421
  | notifyRoomChat => 422
  | reqRoomInfo => 430
  | ackRoomInfo => 431
  | notifyRoomInfo => 432

/-- `RESULT_CODE`, as far as the modelled functions return it. -/
inductive ResultCode where
  | none
  | createAccountFail
  | loginSuccess | loginUserAlready | loginUserUsedAllObj | loginUserInvalidPw
  | enterRoomSuccess | enterRoomFullUser
  | roomInvalidIndex | roomFull
  | leaveRoomSuccess
  | chatRoomInvalidRoomNumber
  | lobbyInfoSuccess
  | chatRoomSuccess
  deriving DecidableEq, Repr

def ResultCode.code : ResultCode → UInt16
  | none => 0
  | createAccountFail => 20
  | loginSuccess => 30
  | loginUserAlready => 31
  | loginUserUsedAllObj => 32
  | loginUserInvalidPw => 33
  | enterRoomSuccess => 50
  | enterRoomFullUser => 54
  | roomInvalidIndex => 60
  | roomFull => 63
  | leaveRoomSuccess => 70
  | chatRoomInvalidRoomNumber => 80
  | lobbyInfoSuccess => 90
  | chatRoomSuccess => 100

theorem PacketId.code_injective : Function.Injective PacketId.code := by
  intro a b h
  cases a <;> cases b <;> first | rfl | exact absurd h (by decide)

theorem ResultCode.code_injective : Function.Injective ResultCode.code := by
  intro a b h
  cases a <;> cases b <;> first | rfl | exact absurd h (by decide)

/-! ## Reading and writing little-endian fields -/

def byteAt (p : Bytes) (k : ℕ) : UInt8 := p.getD k 0

def uint16At (p : Bytes) (k : ℕ) : UInt16 :=
  UInt16.ofNat ((byteAt p k).toNat + 256 * (byteAt p (k + 1)).toNat)

def int32At (p : Bytes) (k : ℕ) : Int32 :=
  Int32.ofNat ((byteAt p k).toNat + 256 * ((byteAt p (k + 1)).toNat +
    256 * ((byteAt p (k + 2)).toNat + 256 * (byteAt p (k + 3)).toNat)))

/-- `len` bytes from offset `k`, as `CopyMemory` reads them. -/
def blockAt (p : Bytes) (k len : ℕ) : Bytes := (List.range len).map fun j => byteAt p (k + j)

/-- `std::string(const char*)`: the bytes before the first zero byte. -/
def stringAt (p : Bytes) (k : ℕ) : Bytes := (p.drop k).takeWhile (· ≠ 0)

def le16 (x : UInt16) : Bytes := [UInt8.ofNat x.toNat, UInt8.ofNat (x.toNat / 256)]

def le32 (x : Int32) : Bytes :=
  let v := x.toUInt32.toNat
  [UInt8.ofNat v, UInt8.ofNat (v / 256), UInt8.ofNat (v / 65536), UInt8.ofNat (v / 16777216)]

theorem le16_injective : Function.Injective le16 := by
  intro x y h
  simp only [le16, List.cons.injEq, and_true, ← UInt8.toNat_inj, UInt8.toNat_ofNat'] at h
  have := x.toNat_lt
  have := y.toNat_lt
  exact UInt16.toNat_inj.mp (by omega)

/-- What is read at an offset depends on the bytes there only. -/
theorem byteAt_append {p q : Bytes} {k : ℕ} (h : k < p.length) :
    byteAt (p ++ q) k = byteAt p k := by
  simp [byteAt, List.getElem?_append_left h]

theorem byteAt_take {p : Bytes} {k len : ℕ} (h : k < len) : byteAt (p.take len) k = byteAt p k := by
  simp [byteAt, h]

theorem uint16At_take {p : Bytes} {k n : ℕ} (h : k + 2 ≤ n) :
    uint16At (p.take n) k = uint16At p k := by
  rw [uint16At, uint16At, byteAt_take (by omega), byteAt_take (by omega)]

/-- A field is read as it was written. -/
theorem uint16At_le16_append (x : UInt16) (r : Bytes) : uint16At (le16 x ++ r) 0 = x := by
  have := x.toNat_lt
  apply UInt16.toNat_inj.mp
  simp [uint16At, le16, byteAt]
  omega

/-! ## Layouts -/

/-- `PACKET_HEADER` -/
structure PacketHeader where
  packetLength : UInt16
  packetId : UInt16
  type : UInt8

def packetHeaderLength : ℕ := 5

def PacketHeader.read (p : Bytes) : PacketHeader :=
  { packetLength := uint16At p 0, packetId := uint16At p 2, type := byteAt p 4 }

theorem PacketHeader.read_take (p : Bytes) :
    PacketHeader.read (p.take packetHeaderLength) = PacketHeader.read p := by
  simp only [PacketHeader.read, PacketHeader.mk.injEq]
  exact ⟨uint16At_take (by decide), uint16At_take (by decide), byteAt_take (by decide)⟩

/-- The header of a packet that holds it does not depend on what follows. -/
theorem PacketHeader.read_append {p q : Bytes} (h : packetHeaderLength ≤ p.length) :
    PacketHeader.read (p ++ q) = PacketHeader.read p := by
  rw [← PacketHeader.read_take (p ++ q), List.take_append_of_le_length h, PacketHeader.read_take]

def maxUserIdLen : ℕ := 10
def maxUserPwLen : ℕ := 10
def maxChatMsgSize : ℕ := 256

/-- Offset of `UserID` in `REQ_LOGIN_PACKET` and `REQ_CREATE_ACCOUNT_PACKET`. -/
def userIdOffset : ℕ := packetHeaderLength
def userPwOffset : ℕ := userIdOffset + (maxUserIdLen + 1)
def reqLoginPacketSize : ℕ := userPwOffset + (maxUserPwLen + 1)
def reqCreateAccountPacketSize : ℕ := userPwOffset + (maxUserPwLen + 1)

/-- Offset of `RoomNumber` in `REQ_ROOM_ENTER_PACKET`. -/
def roomNumberOffset : ℕ := packetHeaderLength
/-- Offset of `Message` in `REQ_ROOM_CHAT_PACKET`. -/
def messageOffset : ℕ := packetHeaderLength

/-- The framing of the stream of requests: `PacketLength` counts the header. -/
def requestFormat : Framing.Format UInt8 where
  headerSize := packetHeaderLength
  headerSize_pos := by decide
  declared p := (PacketHeader.read p).packetLength.toNat
  declared_take p := by rw [PacketHeader.read_take]

/-- A packet handed to `sendPacketFunc`: its header and the bytes after it. -/
structure Packet where
  packetLength : UInt16
  packetId : UInt16
  type : UInt8
  body : Bytes
  deriving DecidableEq

/-- One call of `sendPacketFunc` for one of `n` slots. `ChatServer::Run` installs a
function whose size parameter is a `UINT16`. -/
structure Sent (n : ℕ) where
  clientIndex : Fin n
  dataSize : UInt16
  packet : Packet
  deriving DecidableEq

def sendPacketFunc {n : ℕ} (clientIndex : Fin n) (packetSize : ℕ) (packet : Packet) : Sent n :=
  { clientIndex := clientIndex, dataSize := UInt16.ofNat packetSize, packet := packet }

/-- The shape of every `ACK_..._PACKET`: a header and a two-byte `Result`. `Type`
is never assigned, so it holds the byte that was there. -/
def ackPacket (unset : UInt8) (packetId : PacketId) (result : ResultCode) : Packet :=
  { packetLength := UInt16.ofNat (packetHeaderLength + 2), packetId := packetId.code,
    type := unset, body := le16 result.code }

/-- The packet answers a request with this code. -/
def Packet.Answers (packet : Packet) (packetId : PacketId) (result : ResultCode) : Prop :=
  packet.packetId = packetId.code ∧ packet.body = le16 result.code

instance (packet : Packet) (packetId : PacketId) (result : ResultCode) :
    Decidable (packet.Answers packetId result) := by
  unfold Packet.Answers
  infer_instance

@[simp] theorem ackPacket_answers {unset : UInt8} {packetId packetId' : PacketId}
    {result result' : ResultCode} :
    (ackPacket unset packetId result).Answers packetId' result' ↔
      packetId = packetId' ∧ result = result' := by
  simp [ackPacket, Packet.Answers, PacketId.code_injective.eq_iff, le16_injective.eq_iff,
    ResultCode.code_injective.eq_iff]

end ChatServer
