import ChatServer.Client.Packet
import ChatServer.Server.Noninterference

/-! # Requests and notices across the two languages

The client copies text to the front of a zeroed field; the server reads fields as C
strings and copies them with `CopyMemory`; the client strips every zero. A text
survives when the field has room for a terminator, or when nothing but zeros follows.
-/

namespace ChatServer
open Client

/-! ## Fields -/

variable {text r p : Bytes} {n : ℕ}

theorem takeWhile_append_of_zero_not_mem (h : 0 ∉ text) :
    (text ++ r).takeWhile (· ≠ 0) = text ++ r.takeWhile (· ≠ 0) := by
  apply List.takeWhile_append_of_pos
  intro b hb
  simpa using ne_of_mem_of_not_mem hb h

theorem takeWhile_eq_nil_of_short (h : text.length < n) :
    (List.replicate (n - text.length) 0 ++ r).takeWhile (· ≠ (0 : UInt8)) = [] := by
  obtain ⟨k, hk⟩ : ∃ k, n - text.length = k + 1 := ⟨n - text.length - 1, by omega⟩
  simp [hk, List.replicate_succ]

/-- As a C string, a field is its text when there is room for the terminator or when
what follows is the empty string. -/
theorem takeWhile_zeroFilled_iff (h : 0 ∉ text) (hlen : text.length ≤ n) :
    (zeroFilled text n ++ r).takeWhile (· ≠ 0) = text ↔
      text.length < n ∨ r.takeWhile (· ≠ 0) = [] := by
  rw [zeroFilled, List.append_assoc, takeWhile_append_of_zero_not_mem h, List.append_right_eq_self]
  rcases Nat.lt_or_eq_of_le hlen with hlt | rfl
  · exact iff_of_true (takeWhile_eq_nil_of_short hlt) (.inl hlt)
  · simp

theorem blockAt_self (p : Bytes) : blockAt p 0 p.length = p := by
  apply List.ext_getElem
  · simp [blockAt]
  · intro k hk hk'
    simp [blockAt, byteAt, hk']

/-- A block that starts with the list and goes on behind it -/
theorem blockAt_append_add (p r : Bytes) (k : ℕ) :
    blockAt (p ++ r) 0 (p.length + k) = p ++ blockAt r 0 k := by
  rw [blockAt, List.range_add, List.map_append, List.map_map]
  congr 1
  · have hself : blockAt (p ++ r) 0 p.length = blockAt p 0 p.length := blockAt_append (by omega) r
    rwa [blockAt_self] at hself
  · simp [blockAt, byteAt_append_right]

/-- `CopyMemory` of a whole field -/
theorem blockAt_append_self (h : p.length = n) : blockAt (p ++ r) 0 n = p := by
  subst h
  rw [blockAt_append (by omega), blockAt_self]

/-! ## Frames -/

/-- The client builds the well-formed frame of a request. -/
theorem postSendPacket_eq_requestFrame (packetID : PacketId) {bodyData : Option Bytes}
    (h : (bodyData.getD []).length < 32768) :
    postSendPacket packetID bodyData = requestFrame packetID (bodyData.getD []) := by
  have hsize : UInt16.ofInt (((bodyData.getD []).length : ℤ) + PacketDef.packetHeaderSize) =
      UInt16.ofNat (packetHeaderLength + (bodyData.getD []).length) := by
    apply UInt16.toNat_inj.mp
    simp only [UInt16.ofInt, PacketDef.packetHeaderSize, packetHeaderLength, UInt16.toNat_ofNat']
    omega
  simp [postSendPacket, requestFrame, Int16.toInt_ofNat_of_lt h, hsize]

/-- The header of a frame, with anything behind the frame -/
theorem read_requestFrame (packetId : PacketId) (body : Bytes) :
    PacketHeader.read (requestFrame packetId body ++ r) =
      { packetLength := UInt16.ofNat (packetHeaderLength + body.length)
        packetId := packetId.code, type := 0 } := by
  have hid : uint16At (requestFrame packetId body ++ r) 2 = packetId.code := by
    rw [← uint16At_le16_append packetId.code (0 :: (body ++ r))]
    simp [uint16At, requestFrame, le16, byteAt]
  have hlength : uint16At (requestFrame packetId body ++ r) 0 =
      UInt16.ofNat (packetHeaderLength + body.length) := by
    rw [requestFrame, List.append_assoc, List.append_assoc, uint16At_le16_append]
  rw [PacketHeader.read, hid, hlength]
  simp [requestFrame, le16, byteAt]

theorem drop_requestFrame (packetId : PacketId) (body : Bytes) :
    (requestFrame packetId body ++ r).drop packetHeaderLength = body ++ r := by
  simp [requestFrame, le16, packetHeaderLength]

/-! ## The login request -/

/-- The two strings that `ProcessLogin` reads, if the packet has the right size. -/
def loginArguments (packetSize : UInt16) (pPacket : Bytes) : Option (Bytes × Bytes) :=
  if packetSize.toNat ≠ reqLoginPacketSize then none
  else some (stringAt pPacket userIdOffset, stringAt pPacket userPwOffset)

/-- `ProcessLogin` uses nothing else of the packet. -/
theorem Server.processLogin_eq {n m : ℕ} {δ : Type*} (env : Env δ) (s : Server n m δ) (i : Fin n)
    (packetSize : UInt16) (pPacket : Bytes) :
    s.processLogin env i packetSize pPacket =
      match loginArguments packetSize pPacket with
      | none => (s, [])
      | some (userID, password) =>
        let (result, s) := s.checkLoginable env.toAccountDB i userID password
        let s := if result = .loginSuccess then s.updateUser i (User.setLogin userID) else s
        (s, [sendAck env.unset i .ackLogin result]) := by
  by_cases hsize : packetSize.toNat = reqLoginPacketSize
  · simp [processLogin, loginArguments, hsize]
  · simp [processLogin, loginArguments, hsize]

/-- The frame that the login button sends; `none` when `SetValue` throws. -/
def loginFrame (userID userPW : String) : Option Bytes := do
  let packet ← ReqLoginPacket.new.setValue userID userPW
  some (postSendPacket .reqLogin (some packet.toBytes))

/-- With `rest` behind it, the frame reaches `ProcessLogin` and is read as the two
texts. -/
def ReadAsLogin (frame rest : Bytes) (userID userPW : String) : Prop :=
  (PacketHeader.read (frame ++ rest)).packetId = PacketId.reqLogin.code ∧
    loginArguments (PacketHeader.read (frame ++ rest)).packetLength (frame ++ rest) =
      some (getBytes userID, getBytes userPW)

section login

variable {userID userPW : String} {frame rest : Bytes}

theorem loginFrame_eq (hframe : loginFrame userID userPW = some frame) :
    (getBytes userID).length ≤ maxUserIdLen + 1 ∧ (getBytes userPW).length ≤ maxUserPwLen + 1 ∧
      frame = requestFrame .reqLogin (zeroFilled (getBytes userID) (maxUserIdLen + 1) ++
        zeroFilled (getBytes userPW) (maxUserPwLen + 1)) := by
  rcases Option.bind_eq_some_iff.mp hframe with ⟨packet, hpacket, hsend⟩
  rcases ReqLoginPacket.setValue_new.mp hpacket with ⟨⟨hid, hpw⟩, rfl⟩
  refine ⟨hid, hpw, ?_⟩
  rw [← Option.some.inj hsend, postSendPacket_eq_requestFrame]
  · rfl
  · rw [Option.getD_some, ReqLoginPacket.toBytes, List.length_append, length_zeroFilled hid,
      length_zeroFilled hpw]
    decide

theorem stringAt_userId : stringAt (requestFrame .reqLogin (text ++ p) ++ r) userIdOffset =
    (text ++ (p ++ r)).takeWhile (· ≠ 0) := by
  rw [stringAt, userIdOffset, drop_requestFrame, List.append_assoc]

theorem stringAt_userPw (h : text.length = maxUserIdLen + 1) :
    stringAt (requestFrame .reqLogin (text ++ p) ++ r) userPwOffset =
      (p ++ r).takeWhile (· ≠ 0) := by
  rw [stringAt, userPwOffset, userIdOffset, ← List.drop_drop, drop_requestFrame,
    List.append_assoc, ← h, List.drop_left]

/-- A password field read as a C string is empty if its text is. -/
theorem takeWhile_field_eq_nil (h : 0 ∉ text) :
    (zeroFilled text (maxUserPwLen + 1) ++ r).takeWhile (· ≠ 0) = [] ↔ text = [] := by
  constructor
  · intro hnil
    rw [zeroFilled, List.append_assoc, takeWhile_append_of_zero_not_mem h] at hnil
    exact (List.append_eq_nil_iff.mp hnil).1
  · rintro rfl
    exact (takeWhile_zeroFilled_iff h (Nat.zero_le _)).mpr (.inl (Nat.succ_pos _))

theorem readAsLogin_iff (hframe : loginFrame userID userPW = some frame)
    (hid : '\x00' ∉ userID.toList) (hpw : '\x00' ∉ userPW.toList) :
    ReadAsLogin frame rest userID userPW ↔
      ((getBytes userID).length ≤ maxUserIdLen ∨ getBytes userPW = []) ∧
        ((getBytes userPW).length ≤ maxUserPwLen ∨ rest.takeWhile (· ≠ 0) = []) := by
  rcases loginFrame_eq hframe with ⟨hlengthId, hlengthPw, rfl⟩
  rw [← zero_not_mem_getBytes] at hid hpw
  have hsize : UInt16.toNat (UInt16.ofNat (packetHeaderLength +
      (zeroFilled (getBytes userID) (maxUserIdLen + 1) ++
        zeroFilled (getBytes userPW) (maxUserPwLen + 1)).length)) = reqLoginPacketSize := by
    rw [List.length_append, length_zeroFilled hlengthId, length_zeroFilled hlengthPw]
    decide
  rw [ReadAsLogin, read_requestFrame, loginArguments, hsize]
  simp only [ne_eq, not_true_eq_false, if_false, true_and, Option.some.injEq, Prod.mk.injEq]
  rw [stringAt_userId, stringAt_userPw (length_zeroFilled hlengthId),
    takeWhile_zeroFilled_iff hid hlengthId, takeWhile_zeroFilled_iff hpw hlengthPw,
    takeWhile_field_eq_nil hpw, Nat.lt_succ_iff, Nat.lt_succ_iff]

/-- A login request that the client can send is read by the server as it was written,
whatever follows the frame, exactly if the password has at most 10 bytes, and the id
as well unless the password is empty. -/
theorem login_round_trip_iff (hframe : loginFrame userID userPW = some frame)
    (hid : '\x00' ∉ userID.toList) (hpw : '\x00' ∉ userPW.toList) :
    (∀ rest, ReadAsLogin frame rest userID userPW) ↔
      ((getBytes userID).length ≤ maxUserIdLen ∨ userPW = "") ∧
        (getBytes userPW).length ≤ maxUserPwLen := by
  have hempty : getBytes userPW = [] ↔ userPW = "" := by
    rw [getBytes, Utf8.encode_eq_nil, String.toList_eq_nil_iff]
  simp only [readAsLogin_iff hframe hid hpw, hempty]
  constructor
  · intro h
    -- a byte behind the frame that is not zero is read as part of a password of 11 bytes
    rcases h [1] with ⟨hidLength, hpwLength⟩
    exact ⟨hidLength, hpwLength.resolve_right (by decide)⟩
  · rintro ⟨hidLength, hpwLength⟩ rest
    exact ⟨hidLength, .inl hpwLength⟩

/-- An id and a password of 10 characters each -/
theorem login_round_trip_ten_characters : ∃ frame,
    loginFrame "abcdefghij" "0123456789" = some frame ∧
      ∀ rest, ReadAsLogin frame rest "abcdefghij" "0123456789" := by
  have hframe : (loginFrame "abcdefghij" "0123456789").isSome := by decide +kernel
  rcases Option.isSome_iff_exists.mp hframe with ⟨frame, hframe⟩
  refine ⟨frame, hframe, (login_round_trip_iff hframe ?_ ?_).mpr ?_⟩
  all_goals decide +kernel

/-- An id of 11 characters has no terminator and is read together with the password. -/
theorem login_id_runs_into_password : ∃ frame,
    loginFrame "abcdefghijk" "pw" = some frame ∧ stringAt frame userIdOffset =
      getBytes "abcdefghijkpw" ∧ ¬∀ rest, ReadAsLogin frame rest "abcdefghijk" "pw" := by
  have hsent : (loginFrame "abcdefghijk" "pw").any
      (fun frame => stringAt frame userIdOffset = getBytes "abcdefghijkpw") := by decide +kernel
  rcases (Option.any_eq_true _ _).mp hsent with ⟨frame, hframe, hread⟩
  refine ⟨frame, hframe, of_decide_eq_true hread, fun hall => ?_⟩
  have hlengths := (readAsLogin_iff hframe (by decide +kernel)
    (by decide +kernel)).mp (hall [])
  exact absurd hlengths.1 (by decide +kernel)

end login

/-! ## The chat message -/

/-- The frame that the chat button sends; `none` when `SetValue` throws. -/
def chatFrame (message : String) : Option Bytes := do
  let packet ← ReqRoomChatPacket.new.setValue message
  some (postSendPacket .reqRoomChat (some packet.toBytes))

/-- The client decodes the notice to the message of the sender with this id. -/
def DecodedAsChat (packet : Packet) (id : Bytes) (message : String) : Prop :=
  ∃ userID, notifyRoomChatFromBytes packet.body = some (userID, message) ∧ getBytes userID = id

section chat

variable {message : String} {frame rest id userID : Bytes}

theorem chatFrame_eq (hframe : chatFrame message = some frame) :
    (getBytes message).length ≤ maxChatMsgSize + 1 ∧
      frame = requestFrame .reqRoomChat (zeroFilled (getBytes message) (maxChatMsgSize + 1)) := by
  rcases Option.bind_eq_some_iff.mp hframe with ⟨packet, hpacket, hsend⟩
  rcases ReqRoomChatPacket.setValue_new.mp hpacket with ⟨hmsg, rfl⟩
  refine ⟨hmsg, ?_⟩
  rw [← Option.some.inj hsend, postSendPacket_eq_requestFrame]
  · rfl
  · rw [Option.getD_some, ReqRoomChatPacket.toBytes, length_zeroFilled hmsg]
    decide

/-- The server copies the whole field of the message. -/
theorem blockAt_chatFrame (hframe : chatFrame message = some frame) :
    blockAt ((frame ++ rest).drop messageOffset) 0 (maxChatMsgSize + 1) =
      zeroFilled (getBytes message) (maxChatMsgSize + 1) := by
  rcases chatFrame_eq hframe with ⟨hmsg, rfl⟩
  rw [messageOffset, drop_requestFrame, blockAt_append_self (length_zeroFilled hmsg)]

/-- The memory behind `c_str()` that `NotifyChat` copies after a short id -/
theorem blockAt_cStr {δ : Type*} (env : Env δ) (h : id.length ≤ maxUserIdLen) :
    blockAt (env.cStr id) 0 (maxUserIdLen + 1) =
      id ++ 0 :: blockAt (env.cStrTail id) 0 (maxUserIdLen - id.length) := by
  have hlength : maxUserIdLen + 1 = id.length + (1 + (maxUserIdLen - id.length)) := by omega
  rw [Env.cStr, hlength, blockAt_append_add]
  congr 1
  exact blockAt_append_add [0] (env.cStrTail id) (maxUserIdLen - id.length)

theorem notifyRoomChatFromBytes_eq {name text : Bytes} (hname : name.length = maxUserIdLen + 1)
    (htext : text.length = maxChatMsgSize + 1) :
    notifyRoomChatFromBytes (name ++ text) =
      some (String.ofList (Utf8.text name), String.ofList (Utf8.text text)) := by
  have hnameLength : PacketDef.maxUserIdByteLength = name.length := hname.symm
  have htextLength : PacketDef.maxChatMsgSize = text.length := htext.symm
  rw [notifyRoomChatFromBytes, hnameLength, htextLength, textAt_eq (by simp), textAt_eq (by simp)]
  simp

theorem length_blockAt (p : Bytes) (k len : ℕ) : (blockAt p k len).length = len := by
  simp [blockAt]

/-- The notice of a chat is decoded to its sender exactly if the id is UTF-8 and zeros
follow its terminator; the message always comes through. -/
theorem decodedAsChat_iff {δ : Type*} (env : Env δ) (hid : id.length ≤ maxUserIdLen)
    (hzero : 0 ∉ id) (hframe : chatFrame message = some frame)
    (hmessage : '\x00' ∉ message.toList) (rest : Bytes) :
    DecodedAsChat (notifyRoomChatPacket env.unset (env.cStr id)
        ((frame ++ rest).drop messageOffset)) id message ↔
      (∃ name, getBytes name = id) ∧
        ∀ b ∈ blockAt (env.cStrTail id) 0 (maxUserIdLen - id.length), b = 0 := by
  have hutf8 : (∃ name, getBytes name = id) ↔ ∃ cs, Utf8.encode cs = id :=
    ⟨fun ⟨name, hname⟩ => ⟨name.toList, hname⟩,
      fun ⟨cs, hcs⟩ => ⟨String.ofList cs, by rw [getBytes, String.toList_ofList, hcs]⟩⟩
  have hzeros : (∀ b ∈ blockAt (env.cStrTail id) 0 (maxUserIdLen - id.length), b = 0) ↔
      ∀ b ∈ 0 :: blockAt (env.cStrTail id) 0 (maxUserIdLen - id.length), b = 0 := by simp
  rw [DecodedAsChat, notifyRoomChatPacket,
    notifyRoomChatFromBytes_eq (length_blockAt _ _ _) (length_blockAt _ _ _),
    blockAt_chatFrame hframe, blockAt_cStr env hid, ofList_text_zeroFilled hmessage, hutf8,
    hzeros, ← Utf8.encode_text_append_iff hzero]
  simp [getBytes]

/-- What `ProcessRoomChatMessage` sends to a room -/
theorem sent_processRoomChatMessage {n m : ℕ} {δ : Type*} (env : Env δ) {s : Server n m δ}
    {i : Fin n} {k : Fin m} (hroom : s.getRoom i = some k) (p : Bytes) :
    (s.processRoomChatMessage env i p).2 =
      sendAck env.unset i .ackRoomChat .chatRoomSuccess ::
        s.broadcast k notifyRoomChatPacketSize (notifyRoomChatPacket env.unset
          (env.cStr (s.mUserObjPool i).mUserID) (p.drop messageOffset)) := by
  simp only [Server.processRoomChatMessage, hroom, Room.notifyChat, Room.sendToAllUser_false]
  rfl

/-- A chat message of a user in a room is decoded by every recipient to the message and
the id of the sender exactly if the id is UTF-8 and the memory that is copied after its
terminator is zero. -/
theorem chat_round_trip_iff {n m : ℕ} {δ : Type*} (env : Env δ) {s : Server n m δ} {i : Fin n}
    {k : Fin m} (hroom : s.getRoom i = some k) (hmembers : (s.room k).mUserList ≠ [])
    (hid : (s.mUserObjPool i).mUserID.length ≤ maxUserIdLen)
    (hzero : 0 ∉ (s.mUserObjPool i).mUserID) (hframe : chatFrame message = some frame)
    (hmessage : '\x00' ∉ message.toList) (rest : Bytes) :
    (∀ x ∈ (s.processRoomChatMessage env i (frame ++ rest)).2,
        x.packet.packetId = PacketId.notifyRoomChat.code →
          DecodedAsChat x.packet (s.mUserObjPool i).mUserID message) ↔
      (∃ name, getBytes name = (s.mUserObjPool i).mUserID) ∧
        ∀ b ∈ blockAt (env.cStrTail (s.mUserObjPool i).mUserID) 0
          (maxUserIdLen - (s.mUserObjPool i).mUserID.length), b = 0 := by
  rw [← decodedAsChat_iff env hid hzero hframe hmessage rest,
    sent_processRoomChatMessage env hroom]
  constructor
  · intro h
    rcases List.exists_mem_of_ne_nil _ hmembers with ⟨j, hj⟩
    exact h _ (List.mem_cons_of_mem _ (List.mem_map_of_mem hj)) rfl
  · intro h x hx hnotify
    rcases List.mem_cons.mp hx with rfl | hx
    · exact absurd hnotify (by simp [sendAck, sendPacketFunc, ackPacket, PacketId.code])
    · rcases List.mem_map.mp hx with ⟨j, -, rfl⟩
      exact h

open Server Recorded

/-- Zeros follow the id in memory, and a message in two scripts comes through. -/
theorem chat_round_trip_over_zeros : ∃ past s frame,
    Run (step acceptingEnv) (init 1 0 10 4 (fun _ _ => 0) ()) past s ∧
      chatFrame "hi 안녕" = some frame ∧
      ∀ x ∈ (s.processRoomChatMessage acceptingEnv 0 (frame ++ [1])).2,
        x.packet.packetId = PacketId.notifyRoomChat.code →
          DecodedAsChat x.packet (s.mUserObjPool 0).mUserID "hi 안녕" := by
  have hsent : (chatFrame "hi 안녕").isSome := by decide +kernel
  rcases Option.isSome_iff_exists.mp hsent with ⟨frame, hframe⟩
  obtain ⟨past, s, run, h⟩ := exists_run (step acceptingEnv) (init 1 0 10 4 (fun _ _ => 0) ())
    [.connect 0, .request 0 .reqLogin (reqLoginBody [65] [66]),
      .request 0 .reqRoomEnter (le32 0)]
    (fun _ s => s.getRoom 0 = some ⟨0, by decide⟩ ∧
      (s.room ⟨0, by decide⟩).mUserList = [0] ∧ (s.mUserObjPool 0).mUserID = [65])
    (by decide +kernel)
  rcases of_decide_eq_true h with ⟨hroom, hlist, hid⟩
  refine ⟨past, s, frame, run, hframe, (chat_round_trip_iff acceptingEnv hroom ?_ ?_ ?_ hframe
    (by decide +kernel) [1]).mpr ⟨⟨"A", ?_⟩, ?_⟩⟩
  · rw [hlist]
    decide +kernel
  · rw [hid]
    decide +kernel
  · rw [hid]
    decide +kernel
  · rw [hid]
    decide +kernel
  · rw [hid]
    decide +kernel

/-- The byte `X` stands behind the terminator of every string. -/
def dirtyEnv : Env Unit := { acceptingEnv with cStrTail := fun _ => [88] }

/-- The byte `X` follows the terminator of the id `A` in memory, and the notice is not
decoded to the sender `A`. -/
theorem chat_sender_runs_on : ∃ past s frame,
    Run (step dirtyEnv) (init 1 0 10 4 (fun _ _ => 0) ()) past s ∧
      (s.mUserObjPool 0).mUserID = [65] ∧ chatFrame "hi" = some frame ∧
      ¬∀ x ∈ (s.processRoomChatMessage dirtyEnv 0 frame).2,
        x.packet.packetId = PacketId.notifyRoomChat.code →
          DecodedAsChat x.packet (s.mUserObjPool 0).mUserID "hi" := by
  have hsent : (chatFrame "hi").isSome := by decide +kernel
  rcases Option.isSome_iff_exists.mp hsent with ⟨frame, hframe⟩
  obtain ⟨past, s, run, h⟩ := exists_run (step dirtyEnv) (init 1 0 10 4 (fun _ _ => 0) ())
    [.connect 0, .request 0 .reqLogin (reqLoginBody [65] [66]),
      .request 0 .reqRoomEnter (le32 0)]
    (fun _ s => s.getRoom 0 = some ⟨0, by decide⟩ ∧
      (s.room ⟨0, by decide⟩).mUserList = [0] ∧ (s.mUserObjPool 0).mUserID = [65])
    (by decide +kernel)
  rcases of_decide_eq_true h with ⟨hroom, hlist, hid⟩
  refine ⟨past, s, frame, run, hid, hframe, fun hall => ?_⟩
  rw [sent_processRoomChatMessage _ hroom, hid] at hall
  have hdecoded := hall _ (List.mem_cons_of_mem _
    (List.mem_map_of_mem (hlist ▸ List.mem_singleton.mpr rfl))) rfl
  rw [← List.append_nil frame] at hdecoded
  have hzeros := ((decodedAsChat_iff _ (by decide) (by decide) hframe
    (by decide +kernel) []).mp hdecoded).2
  exact absurd hzeros (by decide)

end chat

end ChatServer
