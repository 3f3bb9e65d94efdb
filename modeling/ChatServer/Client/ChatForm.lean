import ChatServer.Client.Convergence

/-! # Chatting

The form with `listBoxRoomChatMsg` and the button that sends a message. The handlers that
do not touch the box are those of `Form1`; the others do to the rest of the form what
those of `Form1` do.
-/

namespace ChatServer.Client

/-- What an item of `listBoxRoomChatMsg` tells -/
inductive RoomChatMsg where
  | entered (userID : String)
  | left (userID : String)
  | said (userID message : String)
  deriving DecidableEq

/-- The item -/
def RoomChatMsg.text : RoomChatMsg → String
  | entered userID => userID ++ "님께서 채팅방에 입장하셨습니다"
  | left userID => userID ++ "님께서 채팅방에서 퇴장하셨습니다"
  | said userID message => userID ++ ":  " ++ message

/-- The message in an item -/
def RoomChatMsg.message? : RoomChatMsg → Option String
  | said _ message => some message
  | entered _ | left _ => none

structure ChatForm extends Form1 where
  listBoxRoomChatMsg : List String

namespace ChatForm

def post (form : ChatForm) (packetID : PacketId) (bodyData : Option Bytes) : ChatForm :=
  { form with toForm1 := form.toForm1.post packetID bodyData }

/-- A handler that does not touch the box -/
def ofForm1 (handler : Form1 → Bytes → Option Form1) (form : ChatForm) (bodyData : Bytes) :
    Option ChatForm :=
  (handler form.toForm1 bodyData).map fun form1 => { form with toForm1 := form1 }

def processAckRoomLeave (form : ChatForm) (bodyData : Bytes) : Option ChatForm := do
  let result ← ackFromBytes bodyData
  if result = ResultCode.leaveRoomSuccess.code then
    some ({ form with
      listBoxRoomChatMsg := [], userList := [], roomExit := false, chatSend := false }.post
        .reqLobbyInfo none)
  else some form

/-- A user who is not in the list has left unseen. -/
def processNotifyRoomLeave (form : ChatForm) (bodyData : Bytes) : Option ChatForm := do
  let userID ← notifyRoomLeaveFromBytes bodyData
  if userID ∈ form.userList then
    some { form with
      userList := form.userList.erase userID
      listBoxRoomChatMsg := form.listBoxRoomChatMsg ++ [(RoomChatMsg.left userID).text] }
  else some form

def addRoomChatMessageList (form : ChatForm) (userID message : String) : ChatForm :=
  let items := if form.listBoxRoomChatMsg.length > 512 then [] else form.listBoxRoomChatMsg
  { form with listBoxRoomChatMsg := items ++ [(RoomChatMsg.said userID message).text] }

def processNotifyRoomChat (form : ChatForm) (bodyData : Bytes) : Option ChatForm := do
  let (userID, message) ← notifyRoomChatFromBytes bodyData
  some (form.addRoomChatMessageList userID message)

def processNotifyRoomInfo (form : ChatForm) (bodyData : Bytes) : Option ChatForm := do
  let userID ← notifyRoomInfoFromBytes bodyData
  some { form with
    userList := form.userList ++ [userID]
    listBoxRoomChatMsg := form.listBoxRoomChatMsg ++ [(RoomChatMsg.entered userID).text] }

/-- `PacketFuncDic` as `SetPacketHandler` fills it -/
def packetFuncDic : List (UInt16 × (ChatForm → Bytes → Option ChatForm)) :=
  [(PacketId.ackLogin.code, ofForm1 Form1.processAckLogin),
    (PacketId.ackRoomEnter.code, ofForm1 Form1.processAckRoomEnter),
    (PacketId.ackLobbyInfo.code, ofForm1 Form1.processAckLobbyInfo),
    (PacketId.notifyLobbyInfo.code, ofForm1 Form1.processNotifyLobbyInfo),
    (PacketId.ackRoomChat.code, ofForm1 Form1.processAckRoomChat),
    (PacketId.notifyRoomChat.code, processNotifyRoomChat),
    (PacketId.ackRoomInfo.code, ofForm1 Form1.processAckRoomInfo),
    (PacketId.notifyRoomInfo.code, processNotifyRoomInfo),
    (PacketId.ackRoomLeave.code, processAckRoomLeave),
    (PacketId.notifyRoomLeave.code, processNotifyRoomLeave)]

/-- `PacketProcess` -/
def packetProcess (form : ChatForm) (packet : Packet) : Option ChatForm :=
  match packetFuncDic.lookup packet.packetId with
  | some handler => handler form packet.body
  | none => some form

/-- The buttons of the lobby and the rooms -/
def click (form : ChatForm) (button : Button) : Option ChatForm :=
  (form.toForm1.click button).map fun form1 => { form with toForm1 := form1 }

/-- `SetValue` throws if the text does not fit into the field. -/
def chatSendClick (form : ChatForm) (chatBox : String) : Option ChatForm :=
  if form.chatSend then do
    let packet ← ReqRoomChatPacket.new.setValue chatBox
    some (form.post .reqRoomChat (some packet.toBytes))
  else none

/-! ## The rest of the form -/

/-- A handler does to the rest of the form what the handler of `Form1` does. -/
def Extends (handler : ChatForm → Bytes → Option ChatForm)
    (handler₁ : Form1 → Bytes → Option Form1) : Prop :=
  ∀ form bodyData, (handler form bodyData).map toForm1 = handler₁ form.toForm1 bodyData

theorem extends_ofForm1 (handler : Form1 → Bytes → Option Form1) :
    Extends (ofForm1 handler) handler := by
  intro form bodyData
  rw [ofForm1, Option.map_map]
  exact Option.map_id'

theorem extends_processAckRoomLeave : Extends processAckRoomLeave Form1.processAckRoomLeave := by
  intro form bodyData
  rw [processAckRoomLeave, Form1.processAckRoomLeave]
  cases ackFromBytes bodyData with
  | none => rfl
  | some result =>
    simp only [Option.bind_eq_bind, Option.bind_some]
    split_ifs <;> rfl

/-- The user who is not in the list is not removed. -/
theorem extends_processNotifyRoomLeave :
    Extends processNotifyRoomLeave Form1.processNotifyRoomLeave := by
  intro form bodyData
  rw [processNotifyRoomLeave, Form1.processNotifyRoomLeave]
  cases notifyRoomLeaveFromBytes bodyData with
  | none => rfl
  | some userID =>
    simp only [Option.bind_eq_bind, Option.bind_some]
    split_ifs with hmem
    · rfl
    · rw [List.erase_of_not_mem hmem]
      rfl

theorem extends_processNotifyRoomChat :
    Extends processNotifyRoomChat Form1.processNotifyRoomChat := by
  intro form bodyData
  rw [processNotifyRoomChat, Form1.processNotifyRoomChat]
  cases notifyRoomChatFromBytes bodyData <;> rfl

theorem extends_processNotifyRoomInfo :
    Extends processNotifyRoomInfo Form1.processNotifyRoomInfo := by
  intro form bodyData
  rw [processNotifyRoomInfo, Form1.processNotifyRoomInfo]
  cases notifyRoomInfoFromBytes bodyData <;> rfl

theorem packetFuncDic_extends : List.Forall₂ (fun e e₁ => e.1 = e₁.1 ∧ Extends e.2 e₁.2)
    packetFuncDic Form1.packetFuncDic := by
  simp only [packetFuncDic, Form1.packetFuncDic, List.forall₂_cons, true_and]
  exact ⟨extends_ofForm1 _, extends_ofForm1 _, extends_ofForm1 _, extends_ofForm1 _,
    extends_ofForm1 _, extends_processNotifyRoomChat, extends_ofForm1 _,
    extends_processNotifyRoomInfo, extends_processAckRoomLeave, extends_processNotifyRoomLeave,
    .nil⟩

/-- The two tables answer alike. -/
theorem lookup_extends {dic : List (UInt16 × (ChatForm → Bytes → Option ChatForm))}
    {dic₁ : List (UInt16 × (Form1 → Bytes → Option Form1))}
    (h : List.Forall₂ (fun e e₁ => e.1 = e₁.1 ∧ Extends e.2 e₁.2) dic dic₁) (packetID : UInt16) :
    Option.Rel Extends (dic.lookup packetID) (dic₁.lookup packetID) := by
  induction h with
  | nil => exact .none
  | @cons e e₁ dic dic₁ he _ ih =>
    rw [List.lookup_cons, List.lookup_cons, he.1]
    cases packetID == e₁.1 with
    | true => exact .some he.2
    | false => exact ih

/-- `PacketProcess` does to the rest of the form what that of `Form1` does. -/
theorem packetProcess_toForm1 (form : ChatForm) (packet : Packet) :
    (form.packetProcess packet).map toForm1 = form.toForm1.packetProcess packet := by
  have hlookup := lookup_extends packetFuncDic_extends packet.packetId
  rw [packetProcess, Form1.packetProcess]
  generalize packetFuncDic.lookup packet.packetId = handler at hlookup
  generalize Form1.packetFuncDic.lookup packet.packetId = handler₁ at hlookup
  cases hlookup with
  | none => rfl
  | some h => exact h form packet.body

end ChatForm

/-! ## What the box tells -/

/-- A packet that `PacketProcess` is given, and the list of users in the form at that time -/
structure Received where
  packetID : UInt16
  bodyData : Bytes
  userList : List String

/-- What a client hears, and whether it is shown in the box -/
structure Heard where
  msg : RoomChatMsg
  shown : Bool

namespace Received

/-- The leave of a user who is not in the list is not shown. -/
def heard? (r : Received) : Option Heard :=
  if r.packetID = PacketId.notifyRoomInfo.code then
    (notifyRoomInfoFromBytes r.bodyData).map fun userID => ⟨.entered userID, true⟩
  else if r.packetID = PacketId.notifyRoomLeave.code then
    (notifyRoomLeaveFromBytes r.bodyData).map fun userID => ⟨.left userID, userID ∈ r.userList⟩
  else if r.packetID = PacketId.notifyRoomChat.code then
    (notifyRoomChatFromBytes r.bodyData).map fun x => ⟨.said x.1 x.2, true⟩
  else none

/-- The answer to a leave that has succeeded -/
def Leaves (r : Received) : Prop :=
  r.packetID = PacketId.ackRoomLeave.code ∧
    ackFromBytes r.bodyData = some ResultCode.leaveRoomSuccess.code

instance : DecidablePred Leaves := fun r => inferInstanceAs (Decidable
  (r.packetID = PacketId.ackRoomLeave.code ∧
    ackFromBytes r.bodyData = some ResultCode.leaveRoomSuccess.code))

theorem not_leaves {r : Received} {c : PacketId} (hr : r.packetID = c.code)
    (hc : c.code ≠ PacketId.ackRoomLeave.code) : ¬r.Leaves :=
  fun hleaves => hc (hr.symm.trans hleaves.1)

end Received

/-- What a client has heard in these packets since it has last left a room -/
def heardIn (received : List Received) : List Heard :=
  received.foldl (fun heard r => if r.Leaves then [] else heard ++ r.heard?.toList) []

theorem heardIn_snoc (received : List Received) (r : Received) :
    heardIn (received ++ [r]) = if r.Leaves then [] else heardIn received ++ r.heard?.toList := by
  rw [heardIn, List.foldl_append]
  rfl

/-- The next item. A message that finds more than 512 items in the box empties it first. -/
def addItem (items : List String) (x : Heard) : List String :=
  if x.shown then
    (if x.msg.message?.isSome ∧ items.length > 512 then [] else items) ++ [x.msg.text]
  else items

/-- The box of a client that has heard this -/
def boxOf (heard : List Heard) : List String := heard.foldl addItem []

theorem boxOf_snoc (heard : List Heard) (x : Heard) :
    boxOf (heard ++ [x]) = addItem (boxOf heard) x := by
  rw [boxOf, List.foldl_append]
  rfl

/-- A packet that tells nothing -/
theorem heardIn_snoc_of_none {received : List Received} {r : Received} (hleaves : ¬r.Leaves)
    (hheard : r.heard? = none) : heardIn (received ++ [r]) = heardIn received := by
  rw [heardIn_snoc, if_neg hleaves, hheard]
  exact List.append_nil _

/-- A packet that tells something -/
theorem heardIn_snoc_of_some {received : List Received} {r : Received} {x : Heard}
    (hleaves : ¬r.Leaves) (hheard : r.heard? = some x) :
    heardIn (received ++ [r]) = heardIn received ++ [x] := by
  rw [heardIn_snoc, if_neg hleaves, hheard]
  rfl

end ChatServer.Client
