import ChatServer.Client.NetworkReadProcess
import ChatServer.Client.UserList
import ChatServer.Server.Effect

/-! # The lists of members and of rooms, from the server's packets to the client's forms

Both lists are counted in four bytes by the server and in one byte by the client. A row of
the list of rooms shows a room's number; a click on it sends the number of the row.
-/

namespace ChatServer

/-- The bytes that `SendMsg` is given for a packet. -/
def Sent.bytes {n : ℕ} (sent : Sent n) : Bytes :=
  (le16 sent.packet.packetLength ++ le16 sent.packet.packetId ++ [sent.packet.type] ++
    sent.packet.body).take sent.dataSize.toNat

namespace Client
open Recorded

/-! ## Members of a room -/

/-- One turn of the inner loop of `NetworkReadProcess`: the packet at the front -/
def cutPacket (b : PacketBufferManager) : Option PacketData := do
  let (data, b) ← b.read
  toPacketData b data

/-- The client reads these members out of the packet at the front of its buffer. -/
def MembersReadBack (b : PacketBufferManager) (names : List String) : Prop :=
  ∃ packet info, cutPacket b = some packet ∧ ackRoomInfoFromBytes packet.bodyData = some info ∧
    info.userCount = names.length ∧ info.userIDList = names

variable {b : PacketBufferManager} {f : Bytes} {names : List String}

/-- A frame at the front of the buffer is cut into header and body. -/
theorem cutPacket_eq (h : b.Valid) (hheader : b.headerSize = 5) (hf : requestFormat.WellFormed f)
    (hmax : f.length < 32768) (hunread : f <+: b.unread) : cutPacket b = some (packetOf f) := by
  have hlength : 5 ≤ f.length := hf.1
  have hle := hunread.length_le
  have hsize : (uint16At b.unread 0).toNat = f.length := by
    rcases hunread with ⟨rest, hrest⟩
    rw [← hf.2, declared_eq, ← hrest, ← uint16At_take (p := f ++ rest) (n := 2) (by decide),
      List.take_append_of_le_length (by omega), uint16At_take (by decide)]
  have hread := PacketBufferManager.read_of_complete h (by omega) (by omega) (by omega) (by omega)
  rw [hsize] at hread
  rw [cutPacket, hread]
  exact toPacketData_of_frame h hlength hmax hunread _

/-- A packet that declares its size is a frame whose body the client gets. -/
theorem sent_bytes_frame {n : ℕ} (sent : Sent n)
    (hsize : sent.dataSize.toNat = packetHeaderLength + sent.packet.body.length)
    (hdeclared : sent.packet.packetLength = sent.dataSize) :
    requestFormat.WellFormed sent.bytes ∧ sent.bytes.length = sent.dataSize.toNat ∧
      (packetOf sent.bytes).bodyData = sent.packet.body := by
  have hbytes : sent.bytes = le16 sent.packet.packetLength ++ (le16 sent.packet.packetId ++
      [sent.packet.type] ++ sent.packet.body) := by
    rw [Sent.bytes, List.take_of_length_le]
    · simp
    · simp [hsize, le16, packetHeaderLength]
      omega
  have hlength : sent.bytes.length = sent.dataSize.toNat := by
    rw [hbytes, hsize]
    simp [le16, packetHeaderLength]
    omega
  refine ⟨⟨?_, ?_⟩, hlength, ?_⟩
  · rw [hlength, hsize]
    exact Nat.le_add_right _ _
  · rw [declared_eq, hlength, hbytes, uint16At_le16_append, hdeclared]
  · rw [packetOf, hbytes]
    simp [le16, PacketDef.packetHeaderSize]

/-- The count that the client reads is the low byte of the number of members. -/
theorem userCount_ackRoomInfo {unset : UInt8} {ids : List Bytes} {info : AckRoomInfoPacket}
    (h : ackRoomInfoFromBytes (ackRoomInfoPacket unset ids).body = some info) :
    info.userCount = ids.length % 256 := by
  have hbyte : ((ackRoomInfoPacket unset ids).body[2]?).map UInt8.toNat =
      some (ids.length % 256) := by
    simp [ackRoomInfoPacket, le16, le32]
  simp only [ackRoomInfoFromBytes, hbyte, Option.bind_eq_bind, Option.bind_some,
    Option.bind_eq_some_iff, Option.some.injEq] at h
  rcases h with ⟨_, -, _, -, rfl⟩
  rfl

/-- The body of the packet that `ProcessRoomInfo` sends reaches `FromBytes`. -/
theorem cutPacket_processRoomInfo {n m : ℕ} {δ : Type*} {env : Env δ} {s s' : Server n m δ}
    {i : Fin n} {k : Fin m} {sent : Sent n}
    (hsent : s.processRoomInfo env i = some (s', [sent])) (hroom : s.getRoom i = some k)
    (hnames : (s.room k).getRoomMemberList s.mUserObjPool = names.map getBytes)
    (hlength : packetHeaderLength + 2 + 4 + (memberBytes (names.map getBytes)).length ≤ 32767)
    (h : b.Valid) (hheader : b.headerSize = 5) (hunread : sent.bytes <+: b.unread) :
    ∃ packet, cutPacket b = some packet ∧
      packet.bodyData = (ackRoomInfoPacket env.unset (names.map getBytes)).body := by
  obtain rfl : sendPacketFunc i
      (packetHeaderLength + 2 + 4 + (memberBytes (names.map getBytes)).length)
      (ackRoomInfoPacket env.unset (names.map getBytes)) = sent := by
    have hmembers : (s.mRoomManager.mRoomList k).getRoomMemberList s.mUserObjPool =
        names.map getBytes := hnames
    simp only [Server.processRoomInfo, hroom, hmembers, Option.some.injEq, Prod.mk.injEq,
      List.cons.injEq, and_true] at hsent
    exact hsent.2
  have hbody : (ackRoomInfoPacket env.unset (names.map getBytes)).body.length =
      2 + 4 + (memberBytes (names.map getBytes)).length := by
    simp [ackRoomInfoPacket, le16, le32]
    omega
  have hsize : (UInt16.ofNat (packetHeaderLength + 2 + 4 +
      (memberBytes (names.map getBytes)).length)).toNat =
        packetHeaderLength + 2 + 4 + (memberBytes (names.map getBytes)).length := by
    rw [UInt16.toNat_ofNat', Nat.mod_eq_of_lt (by omega)]
  rcases sent_bytes_frame (sendPacketFunc i
      (packetHeaderLength + 2 + 4 + (memberBytes (names.map getBytes)).length)
      (ackRoomInfoPacket env.unset (names.map getBytes)))
    (by rw [sendPacketFunc, hsize, hbody]; omega) rfl with ⟨hframe, hbytes, hdata⟩
  exact ⟨_, cutPacket_eq h hheader hframe (by rw [hbytes, sendPacketFunc, hsize]; omega) hunread,
    hdata⟩

/-- A list with more than 255 members is not read back. -/
theorem MembersReadBack.length_le {unset : UInt8} {packet : PacketData}
    (hread : MembersReadBack b names) (hcut : cutPacket b = some packet)
    (hdata : packet.bodyData = (ackRoomInfoPacket unset (names.map getBytes)).body) :
    names.length ≤ 255 := by
  rcases hread with ⟨packet', info, hpacket, hinfo, hcount, -⟩
  obtain rfl := Option.some.inj (hcut.symm.trans hpacket)
  rw [hdata] at hinfo
  have hlow := userCount_ackRoomInfo hinfo
  rw [List.length_map] at hlow
  omega

/-- What the client reads out of `ACK_ROOM_INFO_PACKET` is the list of members exactly up
to 255 members. -/
theorem room_info_round_trip_iff {n m : ℕ} {δ : Type*} (env : Env δ) {s s' : Server n m δ}
    {i : Fin n} {k : Fin m} {sent : Sent n}
    (hsent : s.processRoomInfo env i = some (s', [sent])) (hroom : s.getRoom i = some k)
    (hnames : (s.room k).getRoomMemberList s.mUserObjPool = names.map getBytes)
    (hzero : ∀ name ∈ names, '\x00' ∉ name.toList)
    (hlength : packetHeaderLength + 2 + 4 + (memberBytes (names.map getBytes)).length ≤ 32767)
    (h : b.Valid) (hheader : b.headerSize = 5) (hunread : sent.bytes <+: b.unread) :
    MembersReadBack b names ↔ names.length ≤ 255 := by
  rcases cutPacket_processRoomInfo hsent hroom hnames hlength h hheader hunread with
    ⟨packet, hcut, hdata⟩
  constructor
  · intro hread
    exact hread.length_le hcut hdata
  · intro hcount
    have hinfo := ackRoomInfoFromBytes_eq env.unset hzero hcount
    exact ⟨packet, _, hcut, by rw [hdata]; exact hinfo, rfl, rfl⟩

/-- A buffer of the client that holds these bytes -/
theorem exists_buffer {bytes : Bytes} (hbytes : bytes.length ≤ 80960) :
    ∃ b : PacketBufferManager, b.Valid ∧ b.headerSize = 5 ∧ b.unread = bytes := by
  have hinit : PacketBufferManager.init (8096 * 10) 5 1024 =
      some ⟨80960, 0, 0, 5, 1024, fun _ => 0, fun _ => 0⟩ := rfl
  have hvalid : (⟨80960, 0, 0, 5, 1024, fun _ => 0, fun _ => 0⟩ : PacketBufferManager).Valid :=
    ⟨le_rfl, Nat.zero_le _⟩
  have hfit : 0 + bytes.length ≤ 80960 := by simpa using hbytes
  refine ⟨_, PacketBufferManager.append_valid hvalid hfit, rfl, ?_⟩
  rw [PacketBufferManager.append_unread hvalid]
  simp [PacketBufferManager.unread]

/-- `n` users with the id "A" in the only room -/
def oneRoom (n : ℕ) : Server n (1 : Int32).toNatClampNeg Unit where
  mUserObjPool _ := { User.init (fun _ => 0) with mUserID := [65], mRoomIndex := 0 }
  mUserIDDictionary _ := none
  mCurrentUserCnt := 0
  mMaxUserCnt := n
  mRoomManager := (RoomManager.init n 0 1 300).setRoom ⟨0, by decide⟩ (List.finRange n) 0
  mAccountDB := ()

theorem getRoom_oneRoom {n : ℕ} (i : Fin n) : (oneRoom n).getRoom i = some ⟨0, by decide⟩ := by
  change roomIndex (1 : Int32).toNatClampNeg 0 (0 + 1) 0 = some ⟨0, by decide⟩
  decide

theorem getRoomMemberList_oneRoom (n : ℕ) :
    ((oneRoom n).room ⟨0, by decide⟩).getRoomMemberList (oneRoom n).mUserObjPool =
      (List.replicate n "A").map getBytes := by
  have hlist : ((oneRoom n).room ⟨0, by decide⟩).mUserList = List.finRange n := rfl
  have hid : getBytes "A" = [65] := by decide
  rw [Room.getRoomMemberList, hlist, List.map_replicate, hid]
  change (List.finRange n).map (fun _ => [65]) = _
  rw [List.map_const', List.length_finRange]

/-- The packet that `ProcessRoomInfo` sends to slot `i`, in a buffer of the client -/
theorem exists_room_info {n : ℕ} (i : Fin n) (hn : n ≤ 256) : ∃ (sent : Sent n)
    (b : PacketBufferManager),
    (oneRoom n).processRoomInfo Server.acceptingEnv i = some (oneRoom n, [sent]) ∧
      packetHeaderLength + 2 + 4 +
        (memberBytes ((List.replicate n "A").map getBytes)).length ≤ 32767 ∧
      b.Valid ∧ b.headerSize = 5 ∧ sent.bytes <+: b.unread := by
  have hid : getBytes "A" = [65] := by decide
  have hmembers : (memberBytes ((List.replicate n "A").map getBytes)).length = n * 2 := by
    simp [memberBytes, hid]
  have hsent : (oneRoom n).processRoomInfo Server.acceptingEnv i = some (oneRoom n,
      [sendPacketFunc i (packetHeaderLength + 2 + 4 +
          (memberBytes ((List.replicate n "A").map getBytes)).length)
        (ackRoomInfoPacket 0 ((List.replicate n "A").map getBytes))]) := by
    rw [Server.processRoomInfo, getRoom_oneRoom]
    have hlist := getRoomMemberList_oneRoom n
    simp only [Server.room] at hlist
    simp only [hlist]
    rfl
  have hbytes : (sendPacketFunc i (packetHeaderLength + 2 + 4 +
      (memberBytes ((List.replicate n "A").map getBytes)).length)
      (ackRoomInfoPacket 0 ((List.replicate n "A").map getBytes))).bytes.length ≤ 80960 := by
    apply (List.length_take_le _ _).trans
    have hlt := (sendPacketFunc i (packetHeaderLength + 2 + 4 +
      (memberBytes ((List.replicate n "A").map getBytes)).length)
      (ackRoomInfoPacket 0 ((List.replicate n "A").map getBytes))).dataSize.toNat_lt
    omega
  rcases exists_buffer hbytes with ⟨b, hvalid, hheader, hunread⟩
  refine ⟨_, b, hsent, ?_, hvalid, hheader, by rw [hunread]⟩
  rw [hmembers]
  simp only [packetHeaderLength]
  omega

/-- Two members are read back. -/
theorem room_info_round_trip_of_two : ∃ (sent : Sent 2) (b : PacketBufferManager),
    (oneRoom 2).processRoomInfo Server.acceptingEnv 0 = some (oneRoom 2, [sent]) ∧
      sent.bytes <+: b.unread ∧ MembersReadBack b ["A", "A"] := by
  rcases exists_room_info (0 : Fin 2) (by decide) with
    ⟨sent, b, hsent, hlength, hvalid, hheader, hunread⟩
  exact ⟨sent, b, hsent, hunread, (room_info_round_trip_iff Server.acceptingEnv hsent
    (getRoom_oneRoom 0) (getRoomMemberList_oneRoom 2) (by decide) hlength hvalid hheader
    hunread).mpr (by decide)⟩

/-- Of 256 members the client reads none. -/
theorem room_info_of_256_not_read_back : ∃ (sent : Sent 256) (b : PacketBufferManager),
    (oneRoom 256).processRoomInfo Server.acceptingEnv 0 = some (oneRoom 256, [sent]) ∧
      packetHeaderLength + 2 + 4 +
        (memberBytes ((List.replicate 256 "A").map getBytes)).length ≤ 32767 ∧
      b.Valid ∧ b.headerSize = 5 ∧ sent.bytes <+: b.unread ∧
      ¬MembersReadBack b (List.replicate 256 "A") := by
  rcases exists_room_info (0 : Fin 256) le_rfl with
    ⟨sent, b, hsent, hlength, hvalid, hheader, hunread⟩
  refine ⟨sent, b, hsent, hlength, hvalid, hheader, hunread, fun hread => ?_⟩
  rcases cutPacket_processRoomInfo hsent (getRoom_oneRoom 0) (getRoomMemberList_oneRoom 256)
    hlength hvalid hheader hunread with ⟨packet, hcut, hdata⟩
  have hcount := hread.length_le hcut hdata
  rw [List.length_replicate] at hcount
  exact absurd hcount (by decide)

/-! ## Rooms of the lobby -/

section lobby

variable {n m : ℕ} {δ : Type*} {env : Env δ} {s s' : Server n m δ}

/-- The rooms have the numbers, and the manager the bounds, that `Init` gave them. -/
structure NumberedAs (rm : RoomManager n m) (s : Server n m δ) : Prop where
  begin_eq : s.mRoomManager.mBeginRoomNumber = rm.mBeginRoomNumber
  end_eq : s.mRoomManager.mEndRoomNumber = rm.mEndRoomNumber
  number_eq : ∀ k, (s.room k).mRoomNum = (rm.mRoomList k).mRoomNum

theorem NumberedAs.effect {rm : RoomManager n m} {e : Event n} {out : List (Sent n)}
    (h : NumberedAs rm s) (he : Server.Effect env s e s' out) : NumberedAs rm s' := by
  cases he with
  | entered =>
    exact ⟨h.begin_eq, h.end_eq, fun j => (Server.setRoom_mRoomNum _ _ _ _ j).trans (h.number_eq j)⟩
  | left =>
    exact ⟨h.begin_eq, h.end_eq, fun j => (Server.setRoom_mRoomNum _ _ _ _ j).trans (h.number_eq j)⟩
  | _ => exact ⟨h.begin_eq, h.end_eq, h.number_eq⟩

theorem NumberedAs.run {s₀ : Server n m δ} {past : List (Entry (Server n m δ) (Event n))}
    (run : Run (Server.step env) s₀ past s) : NumberedAs s₀.mRoomManager s := by
  apply run.state_invariant (P := NumberedAs s₀.mRoomManager) ⟨rfl, rfl, fun _ => rfl⟩
  intro s e s' h hstep
  exact h.effect (Server.effect_of_step hstep)

theorem NumberedAs.getRoomList_eq {rm : RoomManager n m} (h : NumberedAs rm s) :
    s.mRoomManager.getRoomList = rm.getRoomList := by
  unfold RoomManager.getRoomList
  congr 1
  funext k
  exact h.number_eq k

theorem NumberedAs.getRoomByNumber_eq {rm : RoomManager n m} (h : NumberedAs rm s)
    (number : Int32) : s.mRoomManager.getRoomByNumber number = rm.getRoomByNumber number := by
  rw [RoomManager.getRoomByNumber, RoomManager.getRoomByNumber, h.begin_eq, h.end_eq]

/-- The client's list of rooms, out of what `ProcessLobbyInfo` sends last, is the server's. -/
def LobbyReadBack (env : Env δ) (s : Server n m δ) (i : Fin n) : Prop :=
  ∃ sent, (s.processLobbyInfo env i).2.getLast? = some sent ∧
    notifyLobbyInfoFromBytes sent.packet.body = some s.mRoomManager.getRoomList

/-- A click with row `k` selected posts a request in which the server reads the number of
the room that the row shows. -/
def RowEntered (s : Server n m δ) (k : ℕ) : Prop :=
  ∀ (form form' : Form1) (frame behind : Bytes),
    form.roomEnterBtnClick (Int32.ofNat k) = some form' →
    form'.sendPacketQueue = form.sendPacketQueue ++ [frame] →
    (s.mRoomManager.getRoomByNumber (int32At (frame ++ behind) roomNumberOffset)).map
      (fun j => (s.room j).mRoomNum) = s.mRoomManager.getRoomList[k]?

/-- The room number in the request is the selected index. -/
theorem int32At_roomEnter (number : Int32) (behind : Bytes) :
    int32At (postSendPacket .reqRoomEnter (some (reqRoomEnterBytes number)) ++ behind)
      roomNumberOffset = number := by
  have hdrop := drop_requestFrame (r := behind) .reqRoomEnter (reqRoomEnterBytes number)
  have hoffset : roomNumberOffset = packetHeaderLength := rfl
  have hframe : postSendPacket .reqRoomEnter (some (reqRoomEnterBytes number)) =
      requestFrame .reqRoomEnter (reqRoomEnterBytes number) :=
    postSendPacket_eq_requestFrame .reqRoomEnter (show (4 : ℕ) < 32768 by decide)
  rw [hframe, hoffset, ← int32At_drop]
  exact (congrArg (int32At · 0) hdrop).trans (int32At_le32_append number behind)

theorem rowEntered_iff {k : ℕ} : RowEntered s k ↔
    (s.mRoomManager.getRoomByNumber (Int32.ofNat k)).map (fun j => (s.room j).mRoomNum) =
      s.mRoomManager.getRoomList[k]? := by
  constructor
  · intro h
    have hclick := h ⟨[], [], true, true, true, false, false, []⟩ _ _ [] rfl rfl
    rwa [int32At_roomEnter] at hclick
  · intro h form form' frame behind hclick hframe
    unfold Form1.roomEnterBtnClick at hclick
    split_ifs at hclick
    obtain rfl := Option.some.inj hclick
    obtain rfl : postSendPacket .reqRoomEnter (some (reqRoomEnterBytes (Int32.ofNat k))) = frame :=
      List.singleton_inj.mp (List.append_cancel_left hframe)
    rwa [int32At_roomEnter]

/-- The first row shows the number of the first room, and the request has a 0. -/
theorem number_eq_zero_of_rowEntered {number : Int32}
    (hrow : s.mRoomManager.getRoomList[0]? = some (Int32.ofNat 0 + number))
    (h : RowEntered s 0) : number = 0 := by
  rw [rowEntered_iff, hrow] at h
  rcases Option.map_eq_some_iff.mp h with ⟨j, hj, hnumber⟩
  rw [s.mRoomManager.numbered _ j hj] at hnumber
  have hfirst : Int32.ofNat 0 = Int32.ofNat 0 + number := hnumber
  have hcancel := congrArg (· - Int32.ofNat 0) hfirst
  simp only [Int32.add_comm (Int32.ofNat 0), Int32.add_sub_cancel] at hcancel
  exact hcancel.symm

theorem lobbyReadBack_iff {i : Fin n} : LobbyReadBack env s i ↔ m ≤ 255 := by
  have hlength : s.mRoomManager.getRoomList.length = m := List.length_ofFn
  have hsent : (s.processLobbyInfo env i).2.getLast? = some (sendPacketFunc i
      (packetHeaderLength + 4 + s.mRoomManager.getRoomList.length * 4)
      (notifyLobbyInfoPacket env.unset s.mRoomManager.getRoomList)) := rfl
  have hread := notifyLobbyInfoFromBytes_eq env.unset s.mRoomManager.getRoomList
  rw [hlength] at hread
  constructor
  · rintro ⟨sent, hlast, hdecoded⟩
    obtain rfl := Option.some.inj (hsent.symm.trans hlast)
    have hlist := congrArg List.length (Option.some.inj (hread.symm.trans hdecoded))
    rw [List.length_take, hlength] at hlist
    omega
  · intro hcount
    refine ⟨_, hsent, hread.trans ?_⟩
    rw [Nat.mod_eq_of_lt (by omega), List.take_of_length_le hlength.le]

end lobby

/-- Numbered from 0, the number of a room is its place in the list. -/
theorem getRoomByNumber_init_zero {n : ℕ} {maxRoomCount maxRoomUserCount : Int32} {k : ℕ}
    (hk : k < maxRoomCount.toNatClampNeg) :
    (RoomManager.init n 0 maxRoomCount maxRoomUserCount).getRoomByNumber (Int32.ofNat k) =
      some ⟨k, hk⟩ := by
  have hclamp : maxRoomCount.toNatClampNeg = maxRoomCount.toInt.toNat := rfl
  have hmax := maxRoomCount.toInt_lt
  have hvalue : (Int32.ofNat k).toInt = k := Int32.toInt_ofNat_of_lt (by omega)
  have hrange : ¬(Int32.ofNat k < 0 ∨ Int32.ofNat k ≥ 0 + maxRoomCount) := by
    rw [Int32.zero_add, ge_iff_le, Int32.lt_iff_toInt_lt, Int32.le_iff_toInt_le, hvalue,
      Int32.toInt_zero]
    omega
  have hindex : (Int32.ofNat k - 0).toNatClampNeg = k := by
    change (Int32.ofNat k - 0).toInt.toNat = k
    rw [Int32.sub_zero, hvalue, Int.toNat_natCast]
  change roomIndex _ 0 (0 + maxRoomCount) (Int32.ofNat k) = _
  simp only [roomIndex, hrange, if_false, hindex, hk, dif_pos]

/-- In every reachable state of the server the client shows the rooms that there are, and
enters the room of the selected row, exactly when there are at most 255 rooms and, if there
are any, they are numbered from 0. -/
theorem chosen_room_entered_iff {n : ℕ} {δ : Type*} (env : Env δ)
    (beginRoomNumber maxRoomCount maxRoomUserCount : Int32) (mem : Fin n → ℕ → UInt8) (db : δ)
    {past : List (Entry (Server n maxRoomCount.toNatClampNeg δ) (Event n))}
    {s : Server n maxRoomCount.toNatClampNeg δ} (i : Fin n)
    (run : Run (Server.step env)
      (Server.init n beginRoomNumber maxRoomCount maxRoomUserCount mem db) past s) :
    (LobbyReadBack env s i ∧ ∀ k, k < s.mRoomManager.getRoomList.length → RowEntered s k) ↔
      maxRoomCount.toNatClampNeg ≤ 255 ∧
        (maxRoomCount.toNatClampNeg = 0 ∨ beginRoomNumber = 0) := by
  have hnumbered := NumberedAs.run run
  have hlist : s.mRoomManager.getRoomList =
      List.ofFn fun k : Fin maxRoomCount.toNatClampNeg => Int32.ofNat k + beginRoomNumber :=
    hnumbered.getRoomList_eq
  have hlength : s.mRoomManager.getRoomList.length = maxRoomCount.toNatClampNeg :=
    List.length_ofFn
  rw [lobbyReadBack_iff, hlength]
  apply and_congr_right
  intro _
  have hrow : ∀ k (hk : k < maxRoomCount.toNatClampNeg),
      s.mRoomManager.getRoomList[k]? = some (Int32.ofNat k + beginRoomNumber) := by
    intro k hk
    rw [hlist, List.getElem?_ofFn, dif_pos hk]
  constructor
  · intro hrows
    by_cases hzero : maxRoomCount.toNatClampNeg = 0
    · exact .inl hzero
    · have hpos := Nat.pos_of_ne_zero hzero
      exact .inr (number_eq_zero_of_rowEntered (hrow 0 hpos) (hrows 0 hpos))
  · intro hbegin k hk
    rcases hbegin with hzero | rfl
    · omega
    · rw [rowEntered_iff, hrow k hk, hnumbered.getRoomByNumber_eq]
      change ((RoomManager.init n 0 maxRoomCount maxRoomUserCount).getRoomByNumber
        (Int32.ofNat k)).map _ = _
      rw [getRoomByNumber_init_zero hk, Option.map_some, hnumbered.number_eq]
      rfl

/-- Ten rooms from 0 on -/
theorem chosen_room_entered_of_ten :
    LobbyReadBack Server.acceptingEnv (Server.init 1 0 10 4 (fun _ _ => 0) ()) 0 ∧
      ∀ k, k < (Server.init 1 0 10 4 (fun _ _ => 0) ()).mRoomManager.getRoomList.length →
        RowEntered (Server.init 1 0 10 4 (fun _ _ => 0) ()) k :=
  (chosen_room_entered_iff Server.acceptingEnv 0 10 4 (fun _ _ => 0) () 0 Run.nil).mpr
    ⟨by decide, .inr rfl⟩

/-- A room with number 1 is shown in row 0, and there is no room 0. -/
theorem first_row_of_rooms_from_one :
    (Server.init 1 1 1 4 (fun _ _ => 0) ()).mRoomManager.getRoomList = [1] ∧
      ¬RowEntered (Server.init 1 1 1 4 (fun _ _ => 0) ()) 0 := by
  rw [rowEntered_iff]
  decide

end Client
end ChatServer
