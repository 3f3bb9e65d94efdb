import ChatServer.Client.Form1
import ChatServer.Library.Roster

/-! # What the packets of a room do to the form

A `Notice` is one of the packets that the lobby and the rooms send. On `UserList` its bytes
have the effect of its `Update`, and on the buttons and `SendPacketQueue` that of
`Form1.answered`.
-/

namespace ChatServer.Client

variable {bodyData : Bytes}

theorem byteAt_drop (p : Bytes) (pos k : ℕ) : byteAt (p.drop pos) k = byteAt p (pos + k) := by
  simp [byteAt]

theorem int32At_drop (p : Bytes) (pos : ℕ) : int32At (p.drop pos) 0 = int32At p pos := by
  simp only [int32At, byteAt_drop, Nat.zero_add, Nat.add_zero]

theorem int32At_le32_append (x : Int32) (r : Bytes) : int32At (le32 x ++ r) 0 = x := by
  have hlt : x.toUInt32.toNat < 2 ^ 32 := x.toUInt32.toNat_lt
  have hvalue : int32At (le32 x ++ r) 0 = Int32.ofNat x.toUInt32.toNat := by
    simp only [int32At, le32, byteAt]
    congr 1
    simp
    omega
  calc int32At (le32 x ++ r) 0 = (UInt32.ofNat x.toUInt32.toNat).toInt32 := hvalue
    _ = x.toUInt32.toInt32 := by rw [UInt32.ofNat_toNat]
    _ = x := rfl

/-- The room numbers are read back as far as the count goes. -/
theorem roomLoop_flatMap {rooms : List Int32} {pos count : ℕ}
    (hdrop : bodyData.drop pos = rooms.flatMap le32) (hcount : count ≤ rooms.length) :
    roomLoop bodyData count pos = some (rooms.take count) := by
  induction count generalizing rooms pos with
  | zero => simp [roomLoop]
  | succ count ih =>
    cases rooms with
    | nil => simp at hcount
    | cons x rooms =>
      rw [List.flatMap_cons] at hdrop
      have hlength := congrArg List.length hdrop
      have hfour : (le32 x).length = 4 := rfl
      rw [List.length_drop, List.length_append, hfour] at hlength
      have hread : toInt32 bodyData pos = some x := by
        rw [toInt32, if_pos (by omega), ← int32At_drop, hdrop, int32At_le32_append]
      have hrest : bodyData.drop (pos + 4) = rooms.flatMap le32 := by
        rw [← List.drop_drop, hdrop]
        exact List.drop_left' hfour
      rw [roomLoop, hread]
      simp only [Option.bind_eq_bind, Option.bind_some]
      rw [ih hrest (by simpa using hcount)]
      rfl

/-- The client takes the low byte of the count for the count. -/
theorem notifyLobbyInfoFromBytes_eq (unset : UInt8) (rooms : List Int32) :
    notifyLobbyInfoFromBytes (notifyLobbyInfoPacket unset rooms).body =
      some (rooms.take (rooms.length % 256)) := by
  have hbyte : ((notifyLobbyInfoPacket unset rooms).body[0]?).map UInt8.toNat =
      some (rooms.length % 256) := by
    simp [notifyLobbyInfoPacket, le32]
  have hdrop : (notifyLobbyInfoPacket unset rooms).body.drop 4 = rooms.flatMap le32 := by
    simp [notifyLobbyInfoPacket, le32]
  simp only [notifyLobbyInfoFromBytes, hbyte, Option.bind_eq_bind, Option.bind_some]
  exact roomLoop_flatMap hdrop (Nat.mod_le _ _)

theorem blockAt_eq_zeroFilled {text : Bytes} {n : ℕ} (h : text.length ≤ n) :
    blockAt text 0 n = zeroFilled text n := by
  have hblock := blockAt_append_add text [] (n - text.length)
  rw [List.append_nil, Nat.add_sub_cancel' h] at hblock
  rw [hblock, zeroFilled]
  simp [blockAt, byteAt]

/-- The field of an id is read back. -/
theorem textAt_userIdField (id : UserId) :
    textAt (userIdField (getBytes id.1)) 0 PacketDef.maxUserIdByteLength = some id.1 := by
  have hlength : (userIdField (getBytes id.1)).length = PacketDef.maxUserIdByteLength :=
    length_blockAt _ _ _
  have hfield : userIdField (getBytes id.1) =
      zeroFilled (getBytes id.1) PacketDef.maxUserIdByteLength := blockAt_eq_zeroFilled id.2.1
  rw [textAt_eq (by omega), List.drop_zero, List.take_of_length_le hlength.le, hfield,
    ofList_text_zeroFilled id.2.2]

theorem ackFromBytes_ackPacket (unset : UInt8) (packetId : PacketId) (result : ResultCode) :
    ackFromBytes (ackPacket unset packetId result).body = some result.code := by
  rw [ackFromBytes, toUInt16, if_pos (by simp [ackPacket, le16])]
  have hread := uint16At_le16_append result.code []
  rw [List.append_nil] at hread
  rw [ackPacket, hread]

/-! ## Notices -/

/-- The packets of the lobby and the rooms -/
inductive Notice where
  | ackLobbyInfo
  | notifyLobbyInfo (rooms : List Int32)
  | ackRoomEnter
  | ackRoomInfo (users : List UserId)
  | ackRoomLeave
  | notifyRoomInfo (id : UserId)
  | notifyRoomLeave (id : UserId)

namespace Notice

/-- The packet as the server sends it -/
def packet (unset : UInt8) : Notice → Packet
  | ackLobbyInfo => ackPacket unset .ackLobbyInfo .lobbyInfoSuccess
  | notifyLobbyInfo rooms => notifyLobbyInfoPacket unset rooms
  | ackRoomEnter => ackPacket unset .ackRoomEnter .enterRoomSuccess
  | ackRoomInfo users => ackRoomInfoPacket unset (users.map fun id => getBytes id.1)
  | ackRoomLeave => ackPacket unset .ackRoomLeave .leaveRoomSuccess
  | notifyRoomInfo id => notifyRoomInfoPacket (getBytes id.1)
  | notifyRoomLeave id => notifyRoomLeavePacket (getBytes id.1)

/-- What a notice does to `UserList` -/
def update : Notice → Roster.Update UserId
  | ackRoomInfo users => .snapshot users
  | ackRoomLeave => .cleared
  | notifyRoomInfo id => .joined id
  | notifyRoomLeave id => .gone id
  | _ => .unchanged

/-- Notices that answer a request -/
inductive Ack where
  | lobbyInfo | roomEnter | roomInfo | roomLeave
  deriving DecidableEq

def ack : Notice → Option Ack
  | ackLobbyInfo => some .lobbyInfo
  | ackRoomEnter => some .roomEnter
  | ackRoomInfo _ => some .roomInfo
  | ackRoomLeave => some .roomLeave
  | _ => none

end Notice

/-- The ids in `UserList` -/
def Form1.Shows (form : Form1) (users : List UserId) : Prop :=
  form.userList = users.map Subtype.val

/-- What an answer does to the buttons, and the request it makes the form post -/
def Form1.answered (form : Form1) : Option Notice.Ack → Form1
  | some .lobbyInfo => { form with roomListRefreshBtn := true, roomEnterBtn := true }
  | some .roomEnter =>
    { form with roomListRefreshBtn := false, roomEnterBtn := false }.post .reqRoomInfo none
  | some .roomInfo => { form with roomExit := true, chatSend := true }
  | some .roomLeave => { form with roomExit := false, chatSend := false }.post .reqLobbyInfo none
  | none => form

/-- Apart from the lists, two forms are the same. -/
structure Form1.SameControls (form form' : Form1) : Prop where
  roomListRefreshBtn : form'.roomListRefreshBtn = form.roomListRefreshBtn
  roomEnterBtn : form'.roomEnterBtn = form.roomEnterBtn
  roomExit : form'.roomExit = form.roomExit
  sendPacketQueue : form'.sendPacketQueue = form.sendPacketQueue

/-- The ids of a snapshot are read back and added. -/
theorem processAckRoomInfo_packet (unset : UInt8) (form : Form1) {members : List UserId}
    (hcount : members.length ≤ 255) :
    form.processAckRoomInfo (ackRoomInfoPacket unset (members.map fun id => getBytes id.1)).body =
      some { form with
        roomExit := true, chatSend := true
        userList := form.userList ++ members.map Subtype.val } := by
  have hnames : ∀ s ∈ members.map Subtype.val, '\x00' ∉ s.toList := by
    intro s hs
    rcases List.mem_map.mp hs with ⟨id, -, rfl⟩
    exact id.2.2
  have hread := ackRoomInfoFromBytes_eq unset hnames (by simpa using hcount)
  rw [List.map_map] at hread
  have htake : (members.map Subtype.val).take (members.map Subtype.val).length =
      members.map Subtype.val := List.take_length
  rw [Form1.processAckRoomInfo]
  simp only [Function.comp_def] at hread
  rw [hread]
  simp only [Option.bind_eq_bind, Option.bind_some, htake]

/-- `PacketProcess` on the bytes of a notice -/
theorem packetProcess_notice (unset : UInt8) {form : Form1} {users : List UserId}
    (hshows : form.Shows users) (notice : Notice)
    (hcount : ∀ members, notice = .ackRoomInfo members → members.length ≤ 255) :
    ∃ form', form.packetProcess (notice.packet unset) = some form' ∧
      form'.Shows (notice.update.apply users) ∧ (form.answered notice.ack).SameControls form' := by
  cases notice with
  | ackLobbyInfo =>
    refine ⟨{ form with roomListRefreshBtn := true, roomEnterBtn := true }, ?_, hshows,
      ⟨rfl, rfl, rfl, rfl⟩⟩
    change form.processAckLobbyInfo (ackPacket unset .ackLobbyInfo .lobbyInfoSuccess).body = _
    rw [Form1.processAckLobbyInfo, ackFromBytes_ackPacket]
    rfl
  | notifyLobbyInfo rooms =>
    refine ⟨{ form with lobbyRoomList := rooms.take (rooms.length % 256) }, ?_, hshows,
      ⟨rfl, rfl, rfl, rfl⟩⟩
    change form.processNotifyLobbyInfo (notifyLobbyInfoPacket unset rooms).body = _
    rw [Form1.processNotifyLobbyInfo, notifyLobbyInfoFromBytes_eq]
    rfl
  | ackRoomEnter =>
    refine ⟨_, ?_, ?_, ⟨rfl, rfl, rfl, rfl⟩⟩
    · change form.processAckRoomEnter (ackPacket unset .ackRoomEnter .enterRoomSuccess).body = _
      rw [Form1.processAckRoomEnter, ackFromBytes_ackPacket]
      rfl
    · exact hshows
  | ackRoomInfo members =>
    refine ⟨_, processAckRoomInfo_packet unset form (hcount members rfl), ?_,
      ⟨rfl, rfl, rfl, rfl⟩⟩
    rw [Form1.Shows, Notice.update, Roster.Update.apply, List.map_append, ← hshows]
  | ackRoomLeave =>
    refine ⟨{ form with userList := [], roomExit := false, chatSend := false }.post
      .reqLobbyInfo none, ?_, ?_, ⟨rfl, rfl, rfl, rfl⟩⟩
    · change form.processAckRoomLeave (ackPacket unset .ackRoomLeave .leaveRoomSuccess).body = _
      rw [Form1.processAckRoomLeave, ackFromBytes_ackPacket]
      rfl
    · rfl
  | notifyRoomInfo id =>
    refine ⟨{ form with userList := form.userList ++ [id.1] }, ?_, ?_, ⟨rfl, rfl, rfl, rfl⟩⟩
    · change form.processNotifyRoomInfo (userIdField (getBytes id.1)) = _
      rw [Form1.processNotifyRoomInfo, notifyRoomInfoFromBytes, textAt_userIdField]
      rfl
    · rw [Form1.Shows, Notice.update, Roster.Update.apply, List.map_append, ← hshows]
      rfl
  | notifyRoomLeave id =>
    refine ⟨{ form with userList := form.userList.erase id.1 }, ?_, ?_, ⟨rfl, rfl, rfl, rfl⟩⟩
    · change form.processNotifyRoomLeave (userIdField (getBytes id.1)) = _
      rw [Form1.processNotifyRoomLeave, notifyRoomLeaveFromBytes, textAt_userIdField]
      rfl
    · rw [Form1.Shows, Notice.update, Roster.map_apply_gone Subtype.val_injective, ← hshows]

end ChatServer.Client
