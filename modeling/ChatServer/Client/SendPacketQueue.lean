import ChatServer.Client.ChatRooms
import ChatServer.Client.NetworkReadProcess
import ChatServer.Server.Answers

/-! # What the form posts

The buttons and the handlers of `PacketFuncDic` do not look at `SendPacketQueue`. They
append to it, and what they append are requests of the lobby and the rooms, and messages.
-/

namespace ChatServer.Client

namespace Form1

/-- The form with these frames in front of those of `SendPacketQueue` -/
def behind (form : Form1) (frames : List Bytes) : Form1 :=
  { form with sendPacketQueue := frames ++ form.sendPacketQueue }

/-- A part of the form that posts requests, and does not see what is posted already -/
structure Posts (f : Form1 → Option Form1) : Prop where
  behind : ∀ form frames, f (form.behind frames) = (f form).map fun form' => form'.behind frames
  requests : ∀ form form', f form = some form' → ∃ requests : List Request,
    form'.sendPacketQueue = form.sendPacketQueue ++ requests.map Request.frame

variable {f g : Form1 → Option Form1}

/-- The controls change, and nothing is posted. -/
theorem posts_nothing {controls : Form1 → Form1}
    (hbehind : ∀ form frames, controls (form.behind frames) = (controls form).behind frames)
    (hqueue : ∀ form, (controls form).sendPacketQueue = form.sendPacketQueue) :
    Posts fun form => some (controls form) where
  behind form frames := by rw [hbehind, Option.map_some]
  requests form form' h := by
    obtain rfl := Option.some.inj h
    exact ⟨[], (hqueue form).trans (List.append_nil _).symm⟩

/-- The controls change, and a request is posted. -/
theorem posts_request {controls : Form1 → Form1} (r : Request)
    (hbehind : ∀ form frames, controls (form.behind frames) = (controls form).behind frames)
    (hqueue : ∀ form, (controls form).sendPacketQueue = form.sendPacketQueue) :
    Posts fun form => some ((controls form).post r.packetId r.bodyData) where
  behind form frames := by
    rw [hbehind, post, behind, List.append_assoc]
    rfl
  requests form form' h := by
    obtain rfl := Option.some.inj h
    exact ⟨[r], congrArg (· ++ [r.frame]) (hqueue form)⟩

/-- A disabled button, or a packet that cannot be read -/
theorem posts_none : Posts fun _ => none where
  behind _ _ := rfl
  requests _ _ h := nomatch h

theorem posts_bind {α : Type*} (x : Option α) {f : α → Form1 → Option Form1}
    (h : ∀ a, Posts (f a)) : Posts fun form => x.bind fun a => f a form := by
  cases x with
  | none => exact posts_none
  | some a => exact h a

theorem Posts.ite (p : Form1 → Prop) [DecidablePred p]
    (hbehind : ∀ form frames, p (form.behind frames) ↔ p form) (hf : Posts f) (hg : Posts g) :
    Posts fun form => if p form then f form else g form where
  behind form frames := by
    by_cases hp : p form
    · rw [if_pos hp, if_pos ((hbehind form frames).mpr hp)]
      exact hf.behind form frames
    · rw [if_neg hp, if_neg (mt (hbehind form frames).mp hp)]
      exact hg.behind form frames
  requests form form' h := by
    split_ifs at h
    · exact hf.requests form form' h
    · exact hg.requests form form' h

/-- The handlers of `PacketFuncDic` -/
theorem posts_packetFuncDic : ∀ e ∈ packetFuncDic, ∀ bodyData, Posts fun form => e.2 form bodyData := by
  simp only [packetFuncDic, List.forall_mem_cons]
  refine ⟨fun bodyData => ?ackLogin, fun bodyData => ?ackRoomEnter, fun bodyData => ?ackLobbyInfo,
    fun bodyData => ?notifyLobbyInfo, fun bodyData => ?ackRoomChat, fun bodyData => ?notifyRoomChat,
    fun bodyData => ?ackRoomInfo, fun bodyData => ?notifyRoomInfo, fun bodyData => ?ackRoomLeave,
    fun bodyData => ?notifyRoomLeave, List.forall_mem_nil _⟩
  case ackLogin =>
    apply posts_bind (ackFromBytes bodyData)
    intro result
    apply Posts.ite _ (fun _ _ => .rfl) _ (posts_nothing (fun _ _ => rfl) fun _ => rfl)
    exact posts_request .lobbyInfo (fun _ _ => rfl) fun _ => rfl
  case ackRoomEnter =>
    apply posts_bind (ackFromBytes bodyData)
    intro result
    apply Posts.ite _ (fun _ _ => .rfl) _ (posts_nothing (fun _ _ => rfl) fun _ => rfl)
    exact posts_request .roomInfo (fun _ _ => rfl) fun _ => rfl
  case ackRoomLeave =>
    apply posts_bind (ackFromBytes bodyData)
    intro result
    apply Posts.ite _ (fun _ _ => .rfl) _ (posts_nothing (fun _ _ => rfl) fun _ => rfl)
    exact posts_request .lobbyInfo (fun _ _ => rfl) fun _ => rfl
  all_goals
    apply posts_bind
    intro packet
    exact posts_nothing (fun _ _ => rfl) fun _ => rfl

/-- `PacketProcess` -/
theorem posts_packetProcess (packet : Packet) : Posts fun form => form.packetProcess packet := by
  cases hhandler : packetFuncDic.lookup packet.packetId with
  | none =>
    simp only [packetProcess, hhandler]
    exact posts_nothing (fun _ _ => rfl) fun _ => rfl
  | some handler =>
    rcases List.lookup_eq_some_iff.mp hhandler with ⟨l₁, l₂, hl, -⟩
    simp only [packetProcess, hhandler]
    exact posts_packetFuncDic (packet.packetId, handler) (by simp [hl]) packet.body

/-- The buttons -/
theorem posts_click (button : Button) : Posts fun form => form.click button := by
  cases button with
  | roomEnterBtn selectedIndex =>
    apply Posts.ite _ (fun _ _ => .rfl) _ posts_none
    exact posts_request (.roomEnter selectedIndex) (fun _ _ => rfl) fun _ => rfl
  | roomListRefreshBtn =>
    apply Posts.ite _ (fun _ _ => .rfl) _ posts_none
    exact posts_request .lobbyInfo (fun _ _ => rfl) fun _ => rfl
  | roomExit =>
    apply Posts.ite _ (fun _ _ => .rfl) _ posts_none
    exact posts_request .roomLeave (fun _ _ => rfl) fun _ => rfl

end Form1

namespace ChatForm

/-- The form with these frames in front of those of `SendPacketQueue` -/
def behind (form : ChatForm) (frames : List Bytes) : ChatForm :=
  { form with toForm1 := form.toForm1.behind frames }

/-- `PacketProcess` of what `BackGroundProcess` has dequeued -/
def packetProcessData (form : ChatForm) (packet : PacketData) : Option ChatForm :=
  match packetFuncDic.lookup packet.packetID.toUInt16 with
  | some handler => handler form packet.bodyData
  | none => some form

/-- A part of the form that posts, and does not see what is posted already -/
structure Posts (f : ChatForm → Option ChatForm) : Prop where
  behind : ∀ form frames, f (form.behind frames) = (f form).map fun form' => form'.behind frames
  posted : ∀ form form', f form = some form' → ∃ posted : List Posted,
    form'.sendPacketQueue = form.sendPacketQueue ++ posted.map Posted.frame

/-- The rest of the form posts the requests. -/
theorem Posts.of_form1 {f : ChatForm → Option ChatForm} {f₁ : Form1 → Option Form1}
    (hf₁ : Form1.Posts f₁) (hrest : ∀ form, (f form).map toForm1 = f₁ form.toForm1)
    (hbehind : ∀ form frames, f (form.behind frames) =
      (f form).map fun form' => form'.behind frames) : Posts f where
  behind := hbehind
  posted form form' hform := by
    have hform₁ := hrest form
    rw [hform, Option.map_some] at hform₁
    rcases hf₁.requests _ _ hform₁.symm with ⟨requests, hrequests⟩
    refine ⟨requests.map .request, ?_⟩
    rw [hrequests, List.map_map]
    rfl

/-- A handler that does not see what is posted already -/
def BlindToPosted (handler : ChatForm → Bytes → Option ChatForm) : Prop :=
  ∀ form frames bodyData,
    handler (form.behind frames) bodyData = (handler form bodyData).map (·.behind frames)

theorem blind_ofForm1 {handler : Form1 → Bytes → Option Form1}
    (h : ∀ bodyData, Form1.Posts fun form => handler form bodyData) :
    BlindToPosted (ofForm1 handler) := by
  intro form frames bodyData
  have hbehind := (h bodyData).behind form.toForm1 frames
  rw [ofForm1, ofForm1, behind, hbehind, Option.map_map, Option.map_map]
  rfl

theorem blind_processAckRoomLeave : BlindToPosted processAckRoomLeave := by
  intro form frames bodyData
  rw [processAckRoomLeave, processAckRoomLeave]
  cases ackFromBytes bodyData with
  | none => rfl
  | some result =>
    simp only [Option.bind_eq_bind, Option.bind_some]
    split_ifs
    · simp [behind, post, Form1.behind, Form1.post]
    · rfl

theorem blind_processNotifyRoomLeave : BlindToPosted processNotifyRoomLeave := by
  intro form frames bodyData
  rw [processNotifyRoomLeave, processNotifyRoomLeave]
  cases notifyRoomLeaveFromBytes bodyData with
  | none => rfl
  | some userID =>
    have hlist : (form.behind frames).userList = form.userList := rfl
    simp only [Option.bind_eq_bind, Option.bind_some, hlist]
    split_ifs <;> rfl

theorem blind_processNotifyRoomChat : BlindToPosted processNotifyRoomChat := by
  intro form frames bodyData
  rw [processNotifyRoomChat, processNotifyRoomChat]
  cases notifyRoomChatFromBytes bodyData <;> rfl

theorem blind_processNotifyRoomInfo : BlindToPosted processNotifyRoomInfo := by
  intro form frames bodyData
  rw [processNotifyRoomInfo, processNotifyRoomInfo]
  cases notifyRoomInfoFromBytes bodyData <;> rfl

theorem blind_packetFuncDic : ∀ e ∈ packetFuncDic, BlindToPosted e.2 := by
  have hform1 := Form1.posts_packetFuncDic
  simp only [Form1.packetFuncDic, List.forall_mem_cons] at hform1
  rcases hform1 with ⟨hackLogin, hackRoomEnter, hackLobbyInfo, hnotifyLobbyInfo, hackRoomChat, -,
    hackRoomInfo, -⟩
  simp only [packetFuncDic, List.forall_mem_cons]
  exact ⟨blind_ofForm1 hackLogin, blind_ofForm1 hackRoomEnter, blind_ofForm1 hackLobbyInfo,
    blind_ofForm1 hnotifyLobbyInfo, blind_ofForm1 hackRoomChat, blind_processNotifyRoomChat,
    blind_ofForm1 hackRoomInfo, blind_processNotifyRoomInfo, blind_processAckRoomLeave,
    blind_processNotifyRoomLeave, List.forall_mem_nil _⟩

/-- `PacketProcess` -/
theorem posts_packetProcess (packet : Packet) : Posts fun form => form.packetProcess packet := by
  refine .of_form1 (Form1.posts_packetProcess packet)
    (fun form => form.packetProcess_toForm1 packet) fun form frames => ?_
  cases hhandler : packetFuncDic.lookup packet.packetId with
  | none =>
    simp only [packetProcess, hhandler]
    rfl
  | some handler =>
    rcases List.lookup_eq_some_iff.mp hhandler with ⟨l₁, l₂, hl, -⟩
    simp only [packetProcess, hhandler]
    exact blind_packetFuncDic (packet.packetId, handler) (by simp [hl]) form frames packet.body

/-- The buttons of the lobby and the rooms -/
theorem posts_click (button : Button) : Posts fun form => form.click button := by
  refine .of_form1 (Form1.posts_click button) (fun form => ?_) fun form frames => ?_
  · rw [click, Option.map_map]
    exact Option.map_id'
  · have hbehind := (Form1.posts_click button).behind form.toForm1 frames
    rw [click, click, behind, hbehind, Option.map_map, Option.map_map]
    rfl

/-- The button that sends a message -/
theorem posts_chatSendClick (chatBox : String) :
    Posts fun form => form.chatSendClick chatBox where
  behind form frames := by
    have hsend : (form.behind frames).chatSend = form.chatSend := rfl
    rw [chatSendClick, chatSendClick, hsend]
    split_ifs
    · cases ReqRoomChatPacket.new.setValue chatBox with
      | none => rfl
      | some packet => simp [behind, post, Form1.behind, Form1.post]
    · rfl
  posted form form' hform := by
    simp only [chatSendClick, Option.ite_none_right_eq_some, Option.bind_eq_bind,
      Option.bind_eq_some_iff, Option.some.injEq] at hform
    rcases hform with ⟨-, packet, hpacket, rfl⟩
    rcases ReqRoomChatPacket.setValue_new.mp hpacket with ⟨hlength, rfl⟩
    exact ⟨[.roomChat ⟨chatBox, hlength⟩], rfl⟩

theorem packetID_packetOf (p : Packet) : (packetOf p.bytes).packetID = p.packetId.toInt16 := by
  have hread : uint16At (le16 p.packetId ++ p.type :: p.body) 0 = p.packetId :=
    uint16At_le16_append p.packetId _
  exact congrArg UInt16.toInt16 hread

/-- The client reads what the server has sent. -/
theorem packetProcessData_packetOf (form : ChatForm) (p : Packet) :
    form.packetProcessData (packetOf p.bytes) = form.packetProcess p := by
  have hbody : (packetOf p.bytes).bodyData = p.body := rfl
  rw [packetProcessData, packetProcess, packetID_packetOf, hbody]
  rfl

end ChatForm

end ChatServer.Client
