import ChatServer.Client.ChatForm

/-! # The chat of any number of clients

What the clients post and what the server tells them, chat messages included. The rooms
are given by a place for each client here, and what a client hears by the items of its box.
-/

namespace ChatServer.Client
open Recorded Server

variable {n m : ℕ} {δ : Type*} {env : Env δ}

/-- A text that fits the field for messages -/
abbrev ChatText : Type := { s : String // (getBytes s).length ≤ PacketDef.maxChatMsgSize }

/-- What a form posts -/
inductive Posted where
  | request (r : Request)
  | roomChat (message : ChatText)

namespace Posted

def packetId : Posted → PacketId
  | request r => r.packetId
  | roomChat _ => .reqRoomChat

def bodyData : Posted → Option Bytes
  | request r => r.bodyData
  | roomChat message => some (zeroFilled (getBytes message.1) PacketDef.maxChatMsgSize)

/-- What `PostSendPacket` puts into `SendPacketQueue` -/
def frame (p : Posted) : Bytes := postSendPacket p.packetId p.bodyData

theorem frame_eq (p : Posted) : p.frame = requestFrame p.packetId (p.bodyData.getD []) := by
  cases p with
  | request r => exact r.frame_eq
  | roomChat message =>
    apply postSendPacket_eq_requestFrame
    rw [bodyData, Option.getD_some, length_zeroFilled message.2]
    decide

theorem read_frame_packetId (p : Posted) :
    (PacketHeader.read p.frame).packetId = p.packetId.code := by
  have hread := read_requestFrame (r := []) p.packetId (p.bodyData.getD [])
  rw [List.append_nil] at hread
  rw [p.frame_eq, hread]

/-- The message that the server finds in a frame -/
theorem drop_frame_roomChat (message : ChatText) :
    (roomChat message).frame.drop messageOffset =
      zeroFilled (getBytes message.1) PacketDef.maxChatMsgSize := by
  have hdrop := drop_requestFrame (r := []) .reqRoomChat
    (zeroFilled (getBytes message.1) PacketDef.maxChatMsgSize)
  rw [List.append_nil, List.append_nil] at hdrop
  rw [frame_eq]
  exact hdrop

end Posted

/-- The sender of a message as the client decodes it -/
def senderName (env : Env δ) (id : UserId) : String :=
  String.ofList (Utf8.text (blockAt (env.cStr (getBytes id.1)) 0 (maxUserIdLen + 1)))

/-- What the server tells a client -/
inductive Told where
  | notice (notice : Notice)
  | ackRoomChat
  | notifyRoomChat (id : UserId) (message : ChatText)

namespace Told

/-- The packet as the server sends it -/
def packet (env : Env δ) : Told → Packet
  | notice x => x.packet env.unset
  | ackRoomChat => ackPacket env.unset .ackRoomChat .chatRoomSuccess
  | notifyRoomChat id message => notifyRoomChatPacket env.unset (env.cStr (getBytes id.1))
      (zeroFilled (getBytes message.1) PacketDef.maxChatMsgSize)

/-- What it tells about the rooms -/
def notice? : Told → Option Notice
  | notice x => some x
  | ackRoomChat | notifyRoomChat .. => none

def ack (told : Told) : Option Notice.Ack := told.notice?.bind Notice.ack

/-- What the box tells after a packet. An answer to a leave empties it. -/
def hear (env : Env δ) (heard : List RoomChatMsg) : Told → List RoomChatMsg
  | notice (.notifyRoomInfo id) => heard ++ [.entered id.1]
  | notice (.notifyRoomLeave id) => heard ++ [.left id.1]
  | notice .ackRoomLeave => []
  | notifyRoomChat id message => heard ++ [.said (senderName env id) (replaceZero message.1)]
  | _ => heard

end Told

/-- The text of a field, without zeros -/
theorem ofList_text_zeroFilled_eq_replaceZero (s : String) (n : ℕ) :
    String.ofList (Utf8.text (zeroFilled (getBytes s) n)) = replaceZero s := by
  rw [zeroFilled, getBytes, Utf8.text, Utf8.decode_encode_append, List.filter_append,
    Utf8.decode_replicate_zero, replaceZero]
  simp

/-- The server copies the whole field. -/
theorem blockAt_messageField (message : ChatText) :
    blockAt (zeroFilled (getBytes message.1) PacketDef.maxChatMsgSize) 0 (maxChatMsgSize + 1) =
      zeroFilled (getBytes message.1) PacketDef.maxChatMsgSize := by
  have hself := blockAt_self (zeroFilled (getBytes message.1) PacketDef.maxChatMsgSize)
  rwa [length_zeroFilled message.2] at hself

/-! ## What a packet does to the form -/

/-- Apart from the lists, the form is as after the answer. -/
structure Form1.Answered (form : Form1) (ack : Option Notice.Ack) (form' : Form1) : Prop
    extends (form.answered ack).SameControls form' where
  chatSend : form'.chatSend = (form.answered ack).chatSend

/-- A packet changes the buttons and `SendPacketQueue` as its answer does. -/
theorem Form1.answered_of_packetProcess {form form' : Form1} (told : Told)
    (h : form.packetProcess (told.packet env) = some form') : form.Answered told.ack form' := by
  cases told with
  | notice x =>
    cases x with
    | ackLobbyInfo =>
      change form.processAckLobbyInfo (ackPacket env.unset .ackLobbyInfo .lobbyInfoSuccess).body =
        some form' at h
      rw [processAckLobbyInfo, ackFromBytes_ackPacket] at h
      obtain rfl := Option.some.inj h
      exact ⟨⟨rfl, rfl, rfl, rfl⟩, rfl⟩
    | notifyLobbyInfo rooms =>
      change form.processNotifyLobbyInfo (notifyLobbyInfoPacket env.unset rooms).body =
        some form' at h
      rw [processNotifyLobbyInfo, notifyLobbyInfoFromBytes_eq] at h
      obtain rfl := Option.some.inj h
      exact ⟨⟨rfl, rfl, rfl, rfl⟩, rfl⟩
    | ackRoomEnter =>
      change form.processAckRoomEnter (ackPacket env.unset .ackRoomEnter .enterRoomSuccess).body =
        some form' at h
      rw [processAckRoomEnter, ackFromBytes_ackPacket] at h
      obtain rfl := Option.some.inj h
      exact ⟨⟨rfl, rfl, rfl, rfl⟩, rfl⟩
    | ackRoomInfo users =>
      change form.processAckRoomInfo _ = some form' at h
      rw [processAckRoomInfo, Option.bind_eq_bind, Option.bind_eq_some_iff] at h
      rcases h with ⟨packet, -, hform⟩
      obtain rfl := Option.some.inj hform
      exact ⟨⟨rfl, rfl, rfl, rfl⟩, rfl⟩
    | ackRoomLeave =>
      change form.processAckRoomLeave (ackPacket env.unset .ackRoomLeave .leaveRoomSuccess).body =
        some form' at h
      rw [processAckRoomLeave, ackFromBytes_ackPacket] at h
      obtain rfl := Option.some.inj h
      exact ⟨⟨rfl, rfl, rfl, rfl⟩, rfl⟩
    | notifyRoomInfo id =>
      change form.processNotifyRoomInfo _ = some form' at h
      rw [processNotifyRoomInfo, Option.bind_eq_bind, Option.bind_eq_some_iff] at h
      rcases h with ⟨userID, -, hform⟩
      obtain rfl := Option.some.inj hform
      exact ⟨⟨rfl, rfl, rfl, rfl⟩, rfl⟩
    | notifyRoomLeave id =>
      change form.processNotifyRoomLeave _ = some form' at h
      rw [processNotifyRoomLeave, Option.bind_eq_bind, Option.bind_eq_some_iff] at h
      rcases h with ⟨userID, -, hform⟩
      obtain rfl := Option.some.inj hform
      exact ⟨⟨rfl, rfl, rfl, rfl⟩, rfl⟩
  | ackRoomChat =>
    change form.processAckRoomChat _ = some form' at h
    rw [processAckRoomChat, Option.bind_eq_bind, Option.bind_eq_some_iff] at h
    rcases h with ⟨result, -, hform⟩
    obtain rfl := Option.some.inj hform
    exact ⟨⟨rfl, rfl, rfl, rfl⟩, rfl⟩
  | notifyRoomChat id message =>
    change form.processNotifyRoomChat _ = some form' at h
    rw [processNotifyRoomChat, Option.bind_eq_bind, Option.bind_eq_some_iff] at h
    rcases h with ⟨chat, -, hform⟩
    obtain rfl := Option.some.inj hform
    exact ⟨⟨rfl, rfl, rfl, rfl⟩, rfl⟩

/-- A message is decoded to its sender and its text. -/
theorem notifyRoomChatFromBytes_packet (id : UserId) (message : ChatText) :
    notifyRoomChatFromBytes ((Told.notifyRoomChat id message).packet env).body =
      some (senderName env id, replaceZero message.1) := by
  rw [Told.packet, notifyRoomChatPacket, notifyRoomChatFromBytes_eq (length_blockAt _ _ _)
    (length_blockAt _ _ _), blockAt_messageField, ofList_text_zeroFilled_eq_replaceZero, senderName]

/-- What a form has with a packet that the server has sent -/
def Told.received (env : Env δ) (form : ChatForm) (told : Told) : Received :=
  ⟨(told.packet env).packetId, (told.packet env).body, form.userList⟩

/-- A packet does to the box what the client hears in it. -/
theorem box_of_packetProcess {form form' : ChatForm} {received : List Received} (told : Told)
    (hbox : form.listBoxRoomChatMsg = boxOf (heardIn received))
    (h : form.packetProcess (told.packet env) = some form') :
    form'.listBoxRoomChatMsg = boxOf (heardIn (received ++ [told.received env form])) ∧
      (heardIn (received ++ [told.received env form])).map Heard.msg =
        told.hear env ((heardIn received).map Heard.msg) := by
  have hkept {handler : Form1 → Bytes → Option Form1} {bodyData : Bytes}
      (hform : form.ofForm1 handler bodyData = some form')
      (hleaves : ¬(told.received env form).Leaves)
      (hheard : (told.received env form).heard? = none) :
      form'.listBoxRoomChatMsg = boxOf (heardIn (received ++ [told.received env form])) ∧
        (heardIn (received ++ [told.received env form])).map Heard.msg =
          (heardIn received).map Heard.msg := by
    rcases Option.map_eq_some_iff.mp hform with ⟨form1, -, rfl⟩
    rw [heardIn_snoc_of_none hleaves hheard]
    exact ⟨hbox, rfl⟩
  have hadded {x : Heard} (hleaves : ¬(told.received env form).Leaves)
      (hheard : (told.received env form).heard? = some x)
      (hform : form'.listBoxRoomChatMsg = addItem form.listBoxRoomChatMsg x) :
      form'.listBoxRoomChatMsg = boxOf (heardIn (received ++ [told.received env form])) ∧
        (heardIn (received ++ [told.received env form])).map Heard.msg =
          (heardIn received).map Heard.msg ++ [x.msg] := by
    rw [heardIn_snoc_of_some hleaves hheard, boxOf_snoc, ← hbox, List.map_append]
    exact ⟨hform, rfl⟩
  have hinfo : ¬PacketId.notifyRoomLeave.code = PacketId.notifyRoomInfo.code := by decide
  have hchat : ¬PacketId.notifyRoomChat.code = PacketId.notifyRoomInfo.code ∧
      ¬PacketId.notifyRoomChat.code = PacketId.notifyRoomLeave.code := by decide
  cases told with
  | notice x =>
    cases x with
    | ackLobbyInfo => exact hkept h (Received.not_leaves (c := .ackLobbyInfo) rfl (by decide)) rfl
    | notifyLobbyInfo rooms =>
      exact hkept h (Received.not_leaves (c := .notifyLobbyInfo) rfl (by decide)) rfl
    | ackRoomEnter => exact hkept h (Received.not_leaves (c := .ackRoomEnter) rfl (by decide)) rfl
    | ackRoomInfo users =>
      exact hkept h (Received.not_leaves (c := .ackRoomInfo) rfl (by decide)) rfl
    | ackRoomLeave =>
      change form.processAckRoomLeave (ackPacket env.unset .ackRoomLeave .leaveRoomSuccess).body =
        some form' at h
      rw [ChatForm.processAckRoomLeave, ackFromBytes_ackPacket] at h
      obtain rfl := Option.some.inj h
      rw [heardIn_snoc, if_pos ⟨rfl, ackFromBytes_ackPacket env.unset .ackRoomLeave _⟩]
      exact ⟨rfl, rfl⟩
    | notifyRoomInfo id =>
      change form.processNotifyRoomInfo (userIdField (getBytes id.1)) = some form' at h
      rw [ChatForm.processNotifyRoomInfo, notifyRoomInfoFromBytes, textAt_userIdField] at h
      obtain rfl := Option.some.inj h
      refine hadded (x := ⟨.entered id.1, true⟩)
        (Received.not_leaves (c := .notifyRoomInfo) rfl (by decide)) ((if_pos rfl).trans ?_) rfl
      change Option.map _ (notifyRoomInfoFromBytes (userIdField (getBytes id.1))) = _
      rw [notifyRoomInfoFromBytes, textAt_userIdField]
      rfl
    | notifyRoomLeave id =>
      change form.processNotifyRoomLeave (userIdField (getBytes id.1)) = some form' at h
      rw [ChatForm.processNotifyRoomLeave, notifyRoomLeaveFromBytes, textAt_userIdField] at h
      simp only [Option.bind_eq_bind, Option.bind_some] at h
      refine hadded (x := ⟨.left id.1, id.1 ∈ form.userList⟩)
        (Received.not_leaves (c := .notifyRoomLeave) rfl (by decide)) ?_ ?_
      · refine (if_neg hinfo).trans ((if_pos rfl).trans ?_)
        change Option.map _ (notifyRoomLeaveFromBytes (userIdField (getBytes id.1))) = _
        rw [notifyRoomLeaveFromBytes, textAt_userIdField]
        rfl
      · split_ifs at h with hmem
        · obtain rfl := Option.some.inj h
          simp [addItem, hmem, RoomChatMsg.message?]
        · obtain rfl := Option.some.inj h
          simp [addItem, hmem]
  | ackRoomChat => exact hkept h (Received.not_leaves (c := .ackRoomChat) rfl (by decide)) rfl
  | notifyRoomChat id message =>
    change form.processNotifyRoomChat ((Told.notifyRoomChat id message).packet env).body =
      some form' at h
    rw [ChatForm.processNotifyRoomChat, notifyRoomChatFromBytes_packet] at h
    obtain rfl := Option.some.inj h
    refine hadded (x := ⟨.said (senderName env id) (replaceZero message.1), true⟩)
      (Received.not_leaves (c := .notifyRoomChat) rfl (by decide)) ?_ ?_
    · refine (if_neg hchat.1).trans ((if_neg hchat.2).trans ((if_pos rfl).trans ?_))
      change Option.map _
        (notifyRoomChatFromBytes ((Told.notifyRoomChat id message).packet env).body) = _
      rw [notifyRoomChatFromBytes_packet]
      rfl
    · simp [addItem, ChatForm.addRoomChatMessageList, RoomChatMsg.message?]

/-! ## What the server does with what is posted -/

/-- The room that a client is in -/
def roomOf (s : Server n m δ) (c : Fin n) : Option (Fin m) :=
  if (s.mUserObjPool c).mState = .inRoom then s.getRoom c else none

/-- The message that `NotifyChat` copies from a frame -/
def messageText (frame : Bytes) : String :=
  String.ofList (Utf8.text (blockAt (frame.drop messageOffset) 0 (maxChatMsgSize + 1)))

/-- What a function of the user's table tells the members of a room -/
def announcedBy (env : Env δ) (ids : Fin n → UserId) (s : Server n m δ) (c : Fin n)
    (frame : Bytes) : RecvFunction → Option (Fin m × RoomChatMsg)
  | .processEnterRoom => (s.mRoomManager.getRoomByNumber (int32At frame roomNumberOffset)).map
      fun k => (k, .entered (ids c).1)
  | .processLeaveRoom => (s.getRoom c).map fun k => (k, .left (ids c).1)
  | .processRoomChatMessage => (s.getRoom c).map fun k =>
      (k, .said (senderName env (ids c)) (messageText frame))
  | _ => none

/-- What a frame of client `c` tells the members of a room -/
def announcement (env : Env δ) (ids : Fin n → UserId) (s : Server n m δ) (c : Fin n)
    (frame : Bytes) : Option (Fin m × RoomChatMsg) :=
  announcedBy env ids s c frame (s.handler c (PacketHeader.read frame).packetId)

theorem Posted.messageText_frame (message : ChatText) :
    messageText (roomChat message).frame = replaceZero message.1 := by
  rw [messageText, drop_frame_roomChat, blockAt_messageField, ofList_text_zeroFilled_eq_replaceZero]

/-- A frame of client `c`: the rooms of the clients before and after it, what it tells the
members of a room, and what each client hears on top of what it has heard. -/
inductive Turn (c : Fin n) (rooms rooms' : Fin n → Option (Fin m))
    (announced : Option (Fin m × RoomChatMsg))
    (hear : Fin n → List RoomChatMsg → List RoomChatMsg) : Prop
  | unheard (hrooms : rooms' = rooms) (hnone : announced = none)
      (hhear : ∀ d heard, hear d heard = heard)
  | entered (k : Fin m) (x : RoomChatMsg) (hc : rooms c = none)
      (hrooms : rooms' = Function.update rooms c (some k)) (hsome : announced = some (k, x))
      (hhear : ∀ d heard, hear d heard = if rooms d = some k then heard ++ [x] else heard)
  | left (k : Fin m) (x : RoomChatMsg) (hc : rooms c = some k)
      (hrooms : rooms' = Function.update rooms c none) (hsome : announced = some (k, x))
      (hhear : ∀ d heard, hear d heard =
        if d = c then [] else if rooms d = some k then heard ++ [x] else heard)
  | said (k : Fin m) (x : RoomChatMsg) (hc : rooms c = some k) (hrooms : rooms' = rooms)
      (hsome : announced = some (k, x))
      (hhear : ∀ d heard, hear d heard = if rooms d = some k then heard ++ [x] else heard)

theorem Turn.rooms_other {c d : Fin n} {rooms rooms' : Fin n → Option (Fin m)}
    {announced : Option (Fin m × RoomChatMsg)}
    {hear : Fin n → List RoomChatMsg → List RoomChatMsg}
    (turn : Turn c rooms rooms' announced hear) (hd : d ≠ c) : rooms' d = rooms d := by
  cases turn with
  | unheard hrooms | said _ _ _ hrooms => rw [hrooms]
  | entered _ _ _ hrooms | left _ _ _ hrooms => rw [hrooms, Function.update_of_ne hd]

/-- What a client hears in a list of packets -/
def hearAll (env : Env δ) (told : List Told) (heard : List RoomChatMsg) : List RoomChatMsg :=
  told.foldl (Told.hear env) heard

@[simp] theorem hearAll_nil (heard : List RoomChatMsg) : hearAll env [] heard = heard := rfl

@[simp] theorem hearAll_cons (x : Told) (told : List Told) (heard : List RoomChatMsg) :
    hearAll env (x :: told) heard = hearAll env told (x.hear env heard) := rfl

theorem hearAll_append (told told' : List Told) (heard : List RoomChatMsg) :
    hearAll env (told ++ told') heard = hearAll env told' (hearAll env told heard) :=
  List.foldl_append

/-- Without an answer to a leave, what has been heard stays. -/
theorem prefix_hearAll {told : List Told} (h : .roomLeave ∉ told.filterMap Told.ack)
    (heard : List RoomChatMsg) : heard <+: hearAll env told heard := by
  induction told generalizing heard with
  | nil => exact List.prefix_refl heard
  | cons x told ih =>
    have hrest : .roomLeave ∉ told.filterMap Told.ack := fun hmem => h (by
      rw [List.filterMap_cons]
      split
      · exact hmem
      · exact List.mem_cons_of_mem _ hmem)
    refine List.IsPrefix.trans ?_ (ih hrest _)
    cases x with
    | notice x =>
      cases x with
      | ackRoomLeave => exact absurd List.mem_cons_self h
      | notifyRoomInfo id | notifyRoomLeave id => exact List.prefix_append _ _
      | ackLobbyInfo | notifyLobbyInfo | ackRoomEnter | ackRoomInfo => exact List.prefix_refl heard
    | ackRoomChat => exact List.prefix_refl heard
    | notifyRoomChat id message => exact List.prefix_append _ _

/-- A posted frame of `c` is processed. -/
structure Taken (ids : Fin n → UserId) (env : Env δ) (c : Fin n) (p : Posted)
    (s s' : Server n m δ) (sent : List (Sent n)) (told : Fin n → List Told) : Prop where
  online : Online ids s'
  loggedIn : ∀ d, LoggedIn s' d ↔ LoggedIn s d
  sent : ∀ d, sentTo sent d = (told d).map (Told.packet env)
  nothing : ∀ d, d ≠ c → roomOf s d = none → told d = []
  turn : Turn c (roomOf s) (roomOf s') (announcement env ids s c p.frame)
    fun d => hearAll env (told d)
  request : ∀ r, p = .request r → ∃ notices, Transition ids c (view s) r (view s') notices ∧
    ∀ d, told d = (notices d).map Told.notice
  roomChat : ∀ message, p = .roomChat message →
    s' = s ∧ ∀ d, (told d).filterMap Told.notice? = []

section taken

variable {ids : Fin n → UserId} {s s' : Server n m δ} {c : Fin n} {k : Fin m}

theorem roomOf_eq_some (h : s.Membership) {d : Fin n} :
    roomOf s d = some k ↔ d ∈ (s.room k).mUserList := by
  rw [h.mem_list, roomOf, Option.ite_none_right_eq_some]

theorem view_eq_roomOf (s : Server n m δ) (c : Fin n) :
    view s c = (roomOf s c).map fun k => (s.room k).mUserList := by
  rw [view, roomOf]
  split_ifs <;> rfl

theorem roomOf_of_not_inRoom (h : (s.mUserObjPool c).mState ≠ .inRoom) : roomOf s c = none :=
  if_neg h

/-- Nothing but the user of `c` and the lists of the rooms changes. -/
theorem roomOf_updateUser (f : User → User)
    (hnumber : s'.mRoomManager.getRoomByNumber = s.mRoomManager.getRoomByNumber)
    (husers : s'.mUserObjPool = (s.updateUser c f).mUserObjPool) :
    roomOf s' = Function.update (roomOf s) c (if (f (s.mUserObjPool c)).mState = .inRoom then
      s.mRoomManager.getRoomByNumber (f (s.mUserObjPool c)).mRoomIndex else none) := by
  funext d
  rw [roomOf, getRoom, husers, hnumber]
  by_cases hd : d = c
  · subst hd
    rw [Function.update_self, updateUser_self]
  · rw [Function.update_of_ne hd, updateUser_other _ _ _ hd]
    rfl

theorem handler_posted (h : Online ids s) (hc : LoggedIn s c) (p : Posted) :
    s.handler c (PacketHeader.read p.frame).packetId =
      (s.mUserObjPool c).mState.handlers p.packetId := by
  rw [p.read_frame_packetId]
  cases p with
  | request r => exact handler_request h hc r
  | roomChat message =>
    have hrequest : (dispatched (.frame c PacketId.reqRoomChat.code 0 [])).bind
        ProcessFunction.request = some .reqRoomChat := rfl
    rw [Posted.packetId, handler, hrequest, ← h.handlers c hc]

theorem processEvent_posted (env : Env δ) (h : Online ids s) (hc : LoggedIn s c) (p : Posted) :
    s.processEvent env (frameEvent c p.frame) = s.runRecvFunction env c
      (PacketHeader.read p.frame).packetLength p.frame
      ((s.mUserObjPool c).mState.handlers p.packetId) := by
  rw [frameEvent, processEvent_frame, handler_posted h hc]

theorem announcement_posted (h : Online ids s) (hc : LoggedIn s c) (p : Posted) :
    announcement env ids s c p.frame =
      announcedBy env ids s c p.frame ((s.mUserObjPool c).mState.handlers p.packetId) := by
  rw [announcement, handler_posted h hc]

/-- A message is said in the room of its client, if there is one. -/
theorem announcement_roomChat (h : Online ids s) (hc : LoggedIn s c) (message : ChatText) :
    announcement env ids s c (Posted.roomChat message).frame = (roomOf s c).map fun k =>
      (k, .said (senderName env (ids c)) (replaceZero message.1)) := by
  rw [announcement_posted h hc, roomOf]
  rcases hc with hlobby | hin
  · rw [hlobby]
    rfl
  · rw [hin, if_pos rfl]
    change Option.map _ (s.getRoom c) = _
    rw [Posted.messageText_frame]

/-- Nothing is said by a request. -/
theorem message_announcement_request (h : Online ids s) (hc : LoggedIn s c) (r : Request)
    {x : Fin m × RoomChatMsg}
    (hx : announcement env ids s c (Posted.request r).frame = some x) : x.2.message? = none := by
  have hmessage : ∀ f ≠ RecvFunction.processRoomChatMessage,
      announcedBy env ids s c (Posted.request r).frame f = some x → x.2.message? = none := by
    intro f hf hx
    cases f with
    | processEnterRoom | processLeaveRoom =>
      rcases Option.map_eq_some_iff.mp hx with ⟨k, -, rfl⟩
      rfl
    | processRoomChatMessage => exact absurd rfl hf
    | noop | processCreateAccount | processLogin | processLobbyInfo | processRoomInfo => cases hx
  rw [announcement_posted h hc] at hx
  refine hmessage _ (fun hf => ?_) hx
  rcases hc with hlobby | hin
  · rw [hlobby] at hf
    cases r <;> cases hf
  · rw [hin] at hf
    cases r <;> cases hf

/-- A request of the lobby and the rooms -/
theorem Served.taken {r : Request} {sent : List (Sent n)} {notices : Fin n → List Notice}
    (h : Served ids env.unset c r s s' sent notices)
    (hturn : Turn c (roomOf s) (roomOf s') (announcement env ids s c (Posted.request r).frame)
      fun d => hearAll env ((notices d).map Told.notice)) :
    Taken ids env c (.request r) s s' sent fun d => (notices d).map Told.notice where
  online := h.online
  loggedIn := h.loggedIn
  sent d := by
    rw [h.sent, List.map_map]
    rfl
  nothing d hd hroom := by
    have hview : view s d = none := by rw [view_eq_roomOf, hroom, Option.map_none]
    rw [h.transition.nothing_sent hd hview, List.map_nil]
  turn := hturn
  request r' hr := by
    obtain rfl := Posted.request.inj hr
    exact ⟨notices, h.transition, fun _ => rfl⟩
  roomChat _ hmessage := by cases hmessage

/-- A request that leaves the server as it is, and is answered to `c` alone -/
theorem Served.taken_unheard {r : Request} {sent : List (Sent n)}
    {notices : Fin n → List Notice} (h : Served ids env.unset c r s s sent notices)
    (hnone : announcement env ids s c (Posted.request r).frame = none)
    (hnotices : ∀ d, ∀ x ∈ notices d, ∀ heard, (Told.notice x).hear env heard = heard) :
    Taken ids env c (.request r) s s sent fun d => (notices d).map Told.notice := by
  refine h.taken (.unheard rfl hnone fun d heard => ?_)
  have hsame : ∀ told : List Notice, (∀ x ∈ told, (Told.notice x).hear env heard = heard) →
      hearAll env (told.map Told.notice) heard = heard := by
    intro told htold
    induction told with
    | nil => rfl
    | cons x told ih =>
      rw [List.map_cons, hearAll_cons, htold x List.mem_cons_self]
      exact ih fun y hy => htold y (List.mem_cons_of_mem _ hy)
  exact hsame _ fun x hx => hnotices d x hx heard

theorem taken_lobbyInfo (env : Env δ) (h : Online ids s)
    (hc : (s.mUserObjPool c).mState = .inLobby) : ∃ told,
      Taken ids env c (.request .lobbyInfo) s s (s.processLobbyInfo env c).2 told := by
  have hview : view s c = none := view_of_not_inRoom (by simp [hc])
  refine ⟨_, (served_lobbyInfo env h hview).taken_unheard ?_ fun d x hx heard => ?_⟩
  · rw [announcement_posted h (.inl hc), hc]
    rfl
  · split_ifs at hx
    · rcases List.mem_pair.mp hx with rfl | rfl <;> rfl
    · cases hx

theorem taken_roomInfo (env : Env δ) (h : Online ids s)
    (hc : (s.mUserObjPool c).mState = .inRoom) : ∃ sent told,
      s.processRoomInfo env c = some (s, sent) ∧
        Taken ids env c (.request .roomInfo) s s sent told := by
  rcases exists_room_of_inRoom h.membership hc with ⟨k, hroom, hmem⟩
  rcases served_roomInfo env h hroom hmem with ⟨sent, heq, hserved⟩
  refine ⟨sent, _, heq, hserved.taken_unheard ?_ fun d x hx heard => ?_⟩
  · rw [announcement_posted h (.inr hc), hc]
    rfl
  · split_ifs at hx
    · obtain rfl := List.mem_singleton.mp hx
      rfl
    · cases hx

theorem taken_roomEnter (env : Env δ) (h : Online ids s) {number : Int32}
    (hc : (s.mUserObjPool c).mState = .inLobby) (hspace : s.HasSpace number) : ∃ s' sent told,
      s.processEnterRoom env c (Request.roomEnter number).frame = (s', sent) ∧
        Taken ids env c (.request (.roomEnter number)) s s' sent told := by
  rcases hspace with ⟨k, hk, hlt⟩
  rcases served_roomEnter env h hc hk hlt with ⟨s', sent, heq, hserved⟩
  have hout : (s.mUserObjPool c).mState ≠ .inRoom := by simp [hc]
  have hroom : roomOf s c = none := roomOf_of_not_inRoom hout
  refine ⟨s', sent, _, heq, hserved.taken ?_⟩
  refine .entered k (.entered (ids c).1) hroom ?_ ?_ fun d heard => ?_
  · rw [processEnterRoom, roomNumber_frame, enterRoom_of_hasSpace hk hlt] at heq
    obtain rfl := congrArg Prod.fst heq
    refine Eq.trans (roomOf_updateUser (s := s) (c := c) (fun u => User.changeState .inRoom
      { u with mRoomIndex := number }) rfl rfl) ?_
    simp [hk]
  · rw [announcement_posted h (.inl hc), hc]
    change Option.map _ (s.mRoomManager.getRoomByNumber
      (int32At (Request.roomEnter number).frame roomNumberOffset)) = _
    rw [roomNumber_frame, hk]
    rfl
  · simp only [roomOf_eq_some h.membership]
    by_cases hd : d = c
    · subst hd
      rw [if_pos rfl, if_neg (h.membership.not_mem hout k)]
      rfl
    · rw [if_neg hd]
      split_ifs <;> rfl

theorem taken_roomLeave (env : Env δ) (h : Online ids s) (hids : Function.Injective ids)
    (hc : (s.mUserObjPool c).mState = .inRoom) : ∃ s' sent told,
      s.processLeaveRoom env c = (s', sent) ∧
        Taken ids env c (.request .roomLeave) s s' sent told := by
  rcases exists_room_of_inRoom h.membership hc with ⟨k, hroom, hmem⟩
  rcases served_roomLeave env h hids hroom hmem with ⟨s', sent, heq, hserved⟩
  refine ⟨s', sent, _, heq, hserved.taken ?_⟩
  refine .left k (.left (ids c).1) ((roomOf_eq_some h.membership).mpr hmem) ?_ ?_
    fun d heard => ?_
  · simp only [processLeaveRoom, leaveRoom] at heq
    rw [s.mRoomManager.leaveUser_eq s.mUserObjPool c hroom] at heq
    obtain rfl := congrArg Prod.fst heq
    refine Eq.trans (roomOf_updateUser (s := s) (c := c) (User.changeState .inLobby) rfl rfl) ?_
    simp
  · rw [announcement_posted h (.inr hc), hc]
    change Option.map _ (s.getRoom c) = _
    rw [hroom]
    rfl
  · simp only [roomOf_eq_some h.membership]
    by_cases hd : d = c
    · rw [if_pos hd, if_pos hd]
      rfl
    · rw [if_neg hd, if_neg hd]
      split_ifs <;> rfl

/-- The message is acknowledged, and goes to every member of the room. -/
theorem taken_roomChat (env : Env δ) (h : Online ids s)
    (hc : (s.mUserObjPool c).mState = .inRoom) (message : ChatText) : ∃ sent told,
      s.processRoomChatMessage env c (Posted.roomChat message).frame = (s, sent) ∧
        Taken ids env c (.roomChat message) s s sent told := by
  rcases exists_room_of_inRoom h.membership hc with ⟨k, hroom, hmem⟩
  have hsent := sent_processRoomChatMessage env hroom (Posted.roomChat message).frame
  have hstate : (s.processRoomChatMessage env c (Posted.roomChat message).frame).1 = s := by
    rw [processRoomChatMessage, hroom]
  refine ⟨(s.processRoomChatMessage env c (Posted.roomChat message).frame).2,
    fun d => (if d = c then [.ackRoomChat] else []) ++
      if d ∈ (s.room k).mUserList then [.notifyRoomChat (ids c) message] else [],
    Prod.ext hstate rfl, h, fun _ => .rfl, fun d => ?_, fun d hd hnone => ?_, ?_, by simp,
    fun _ _ => ⟨rfl, fun d => ?_⟩⟩
  · rw [hsent, ← List.singleton_append, sentTo_append, sentTo_singleton, broadcast,
      sentTo_map (h.membership.nodup k), sendAck_clientIndex, h.mUserID c (.inr hc),
      Posted.drop_frame_roomChat]
    rw [List.map_append]
    congr 1
    · split_ifs <;> rfl
    · split_ifs <;> rfl
  · have hnot : d ∉ (s.room k).mUserList := by
      rw [← roomOf_eq_some h.membership, hnone]
      exact (Option.some_ne_none k).symm
    rw [if_neg hd, if_neg hnot]
    rfl
  · refine .said k (.said (senderName env (ids c)) (replaceZero message.1))
      ((roomOf_eq_some h.membership).mpr hmem) rfl ?_ fun d heard => ?_
    · rw [announcement_posted h (.inr hc), hc]
      change Option.map _ (s.getRoom c) = _
      rw [hroom, Posted.messageText_frame]
      rfl
    · simp only [roomOf_eq_some h.membership]
      split_ifs <;> rfl
  · split_ifs <;> rfl

/-- A request that does not fit the state of its client -/
theorem taken_ignored (env : Env δ) (h : Online ids s) (hc : LoggedIn s c) {r : Request}
    (ht : Transition ids c (view s) r (view s) fun _ => [])
    (hf : (s.mUserObjPool c).mState.handlers r.packetId = .noop) : ∃ told,
      Taken ids env c (.request r) s s [] told := by
  have hserved : Served ids env.unset c r s s [] fun _ => [] := .unchanged h ht fun _ => rfl
  refine ⟨_, hserved.taken_unheard ?_ fun d x hx heard => nomatch hx⟩
  rw [announcement_posted h hc, Posted.packetId, hf]
  rfl

/-- A message in the lobby is ignored. -/
theorem taken_roomChat_lobby (env : Env δ) (h : Online ids s)
    (hc : (s.mUserObjPool c).mState = .inLobby) (message : ChatText) :
    Taken ids env c (.roomChat message) s s [] fun _ => [] where
  online := h
  loggedIn _ := .rfl
  sent _ := rfl
  nothing _ _ _ := rfl
  turn := by
    refine .unheard rfl ?_ fun _ _ => rfl
    rw [announcement_posted h (.inl hc), hc]
    rfl
  request _ hr := by cases hr
  roomChat _ _ := ⟨rfl, fun _ => rfl⟩

/-- Whatever a client that is logged in has posted, no handler crashes; an entry has to
find space. -/
theorem exists_taken (env : Env δ) (h : Online ids s) (hids : Function.Injective ids)
    (hc : LoggedIn s c) (p : Posted) (hspace : ∀ number, p = .request (.roomEnter number) →
      (s.mUserObjPool c).mState = .inLobby → s.HasSpace number) :
    ∃ s' sent told, s.processEvent env (frameEvent c p.frame) = some (s', sent) ∧
      Taken ids env c p s s' sent told := by
  rw [processEvent_posted env h hc]
  rcases hc with hlobby | hin
  · have hview : view s c = none := view_of_not_inRoom (by simp [hlobby])
    cases p with
    | request r =>
      cases r with
      | lobbyInfo =>
        rcases taken_lobbyInfo env h hlobby with ⟨told, htaken⟩
        rw [hlobby]
        exact ⟨s, _, told, rfl, htaken⟩
      | roomEnter number =>
        rcases taken_roomEnter env h hlobby (hspace number rfl hlobby) with
          ⟨s', sent, told, heq, htaken⟩
        rw [hlobby]
        exact ⟨s', sent, told, congrArg some heq, htaken⟩
      | roomInfo =>
        rcases taken_ignored env h (.inl hlobby) (.ignoredInLobby hview (.inl rfl))
          (by rw [hlobby]; rfl) with ⟨told, htaken⟩
        rw [hlobby]
        exact ⟨s, [], told, rfl, htaken⟩
      | roomLeave =>
        rcases taken_ignored env h (.inl hlobby) (.ignoredInLobby hview (.inr rfl))
          (by rw [hlobby]; rfl) with ⟨told, htaken⟩
        rw [hlobby]
        exact ⟨s, [], told, rfl, htaken⟩
    | roomChat message =>
      have htaken := taken_roomChat_lobby env h hlobby message
      rw [hlobby]
      exact ⟨s, [], _, rfl, htaken⟩
  · rcases exists_room_of_inRoom h.membership hin with ⟨k, hroom, hmem⟩
    have hview : view s c ≠ none := by simp [view_of_mem h.membership hmem]
    cases p with
    | request r =>
      cases r with
      | lobbyInfo =>
        rcases taken_ignored env h (.inr hin) (.ignoredInRoom hview (.inl rfl))
          (by rw [hin]; rfl) with ⟨told, htaken⟩
        rw [hin]
        exact ⟨s, [], told, rfl, htaken⟩
      | roomEnter number =>
        rcases taken_ignored env h (.inr hin) (.ignoredInRoom hview (.inr ⟨number, rfl⟩))
          (by rw [hin]; rfl) with ⟨told, htaken⟩
        rw [hin]
        exact ⟨s, [], told, rfl, htaken⟩
      | roomInfo =>
        rcases taken_roomInfo env h hin with ⟨sent, told, heq, htaken⟩
        rw [hin]
        exact ⟨s, sent, told, heq, htaken⟩
      | roomLeave =>
        rcases taken_roomLeave env h hids hin with ⟨s', sent, told, heq, htaken⟩
        rw [hin]
        exact ⟨s', sent, told, congrArg some heq, htaken⟩
    | roomChat message =>
      rcases taken_roomChat env h hin message with ⟨sent, told, heq, htaken⟩
      rw [hin]
      exact ⟨s, sent, told, congrArg some heq, htaken⟩

end taken

/-! ## The clients and the server -/

structure ChatRooms (n m : ℕ) (δ : Type*) where
  server : Server n m δ
  form : Fin n → ChatForm
  packets : Fin n → List Packet

inductive RoomAction (n : ℕ) where
  | click (c : Fin n) (button : Button)
  | chatSend (c : Fin n) (chatBox : String)
  | dispatch (c : Fin n)
  | process (c : Fin n)

namespace ChatRooms

def step (env : Env δ) (σ : ChatRooms n m δ) : RoomAction n → Option (ChatRooms n m δ)
  | .click c button =>
    ((σ.form c).click button).map fun form => { σ with form := Function.update σ.form c form }
  | .chatSend c chatBox =>
    ((σ.form c).chatSendClick chatBox).map fun form =>
      { σ with form := Function.update σ.form c form }
  | .dispatch c =>
    match (σ.form c).sendPacketQueue with
    | [] => none
    | frame :: queue =>
      (σ.server.processEvent env (frameEvent c frame)).map fun (server, sent) =>
        { server := server
          form := Function.update σ.form c { σ.form c with sendPacketQueue := queue }
          packets := fun d => σ.packets d ++ sentTo sent d }
  | .process c =>
    match σ.packets c with
    | [] => none
    | packet :: packets =>
      ((σ.form c).packetProcess packet).map fun form =>
        { σ with
          form := Function.update σ.form c form
          packets := Function.update σ.packets c packets }

/-- The clients without their boxes -/
def chatSystem (σ : ChatRooms n m δ) : ChatSystem n m δ where
  server := σ.server
  form c := (σ.form c).toForm1
  packets := σ.packets

/-- The clients have just logged in, and the boxes are empty. -/
structure Start (ids : Fin n → UserId) (σ : ChatRooms n m δ) : Prop where
  lobby : ChatSystem.Start ids σ.chatSystem
  listBoxRoomChatMsg : ∀ c, (σ.form c).listBoxRoomChatMsg = []
  chatSend : ∀ c, (σ.form c).chatSend = false

/-- Those that have logged in start their forms at a server. -/
def ofServer (s : Server n m δ) : ChatRooms n m δ where
  server := s
  form c := { toForm1 := if LoggedIn s c then Form1.loggedIn else Form1.new
              listBoxRoomChatMsg := [] }
  packets _ := []

/-- An entry that is processed finds space in its room. -/
def EntrySucceeds (σ : ChatRooms n m δ) : RoomAction n → Prop
  | .dispatch c => σ.chatSystem.EntrySucceeds (.dispatch c)
  | .click .. | .chatSend .. | .process _ => True

instance (σ : ChatRooms n m δ) : DecidablePred σ.EntrySucceeds
  | .dispatch c => inferInstanceAs (Decidable (σ.chatSystem.EntrySucceeds (.dispatch c)))
  | .click .. | .chatSend .. | .process _ => instDecidableTrue

theorem start_ofServer {ids : Fin n → UserId} {s : Server n m δ}
    (h : ChatSystem.Start ids (ChatSystem.ofServer s)) : Start ids (ofServer s) where
  lobby := h
  listBoxRoomChatMsg _ := rfl
  chatSend c := by
    change (if LoggedIn s c then Form1.loggedIn else Form1.new).chatSend = false
    split_ifs <;> rfl

end ChatRooms

end ChatServer.Client
