import ChatServer.Client.Conversation
import ChatServer.Client.SendPacketQueue
import ChatServer.Client.Settling

/-! # The rooms while users chat

Messages do not touch what the clients do with the rooms: without them a run is one of the
system that has none. So the lists and the buttons agree with the rooms also when users
chat.
-/

namespace ChatServer.Client
open Recorded Server

variable {n m : ℕ} {δ : Type*} {env : Env δ}

/-- A frame with a message -/
def IsChatFrame (frame : Bytes) : Prop :=
  (PacketHeader.read frame).packetId = PacketId.reqRoomChat.code

/-- A packet about a message -/
def IsChatPacket (packet : Packet) : Prop :=
  packet.packetId = PacketId.ackRoomChat.code ∨ packet.packetId = PacketId.notifyRoomChat.code

instance : DecidablePred IsChatFrame := fun frame =>
  inferInstanceAs (Decidable ((PacketHeader.read frame).packetId = PacketId.reqRoomChat.code))

instance : DecidablePred IsChatPacket := fun packet =>
  inferInstanceAs (Decidable (packet.packetId = PacketId.ackRoomChat.code ∨
    packet.packetId = PacketId.notifyRoomChat.code))

theorem Request.not_isChatFrame (r : Request) : ¬IsChatFrame r.frame := by
  rw [IsChatFrame, read_frame_packetId]
  cases r <;> exact of_decide_eq_false rfl

theorem Posted.isChatFrame_roomChat (message : ChatText) :
    IsChatFrame (Posted.roomChat message).frame :=
  (Posted.roomChat message).read_frame_packetId

theorem Notice.not_isChatPacket (x : Notice) (unset : UInt8) : ¬IsChatPacket (x.packet unset) := by
  have hid : (x.packet unset).packetId = (x.packet 0).packetId := by cases x <;> rfl
  rw [IsChatPacket, hid]
  cases x <;> exact of_decide_eq_false rfl

theorem Told.isChatPacket_of_notice? {x : Told} (h : x.notice? = none) :
    IsChatPacket (x.packet env) := by
  cases x with
  | notice x => cases h
  | ackRoomChat => exact .inl rfl
  | notifyRoomChat id message => exact .inr rfl

/-- The packets of a message -/
theorem filter_packets_of_notice? {told : List Told} (h : told.filterMap Told.notice? = []) :
    (told.map (Told.packet env)).filter (¬IsChatPacket ·) = [] := by
  rw [List.filter_eq_nil_iff]
  intro packet hpacket
  rcases List.mem_map.mp hpacket with ⟨x, hx, rfl⟩
  simpa using Told.isChatPacket_of_notice? (List.filterMap_eq_nil_iff.mp h x hx)

/-- The packets of a request -/
theorem filter_packets_notices (notices : List Notice) :
    ((notices.map Told.notice).map (Told.packet env)).filter (¬IsChatPacket ·) =
      (notices.map Told.notice).map (Told.packet env) := by
  rw [List.filter_eq_self]
  intro packet hpacket
  simp only [List.map_map, List.mem_map] at hpacket
  rcases hpacket with ⟨x, -, rfl⟩
  exact decide_eq_true (x.not_isChatPacket env.unset)

namespace Form1

/-- The form without the messages in its queue -/
def withoutChat (form : Form1) : Form1 :=
  { form with sendPacketQueue := form.sendPacketQueue.filter (¬IsChatFrame ·) }

theorem filter_map_frame (requests : List Request) :
    (requests.map Request.frame).filter (¬IsChatFrame ·) = requests.map Request.frame := by
  rw [List.filter_eq_self]
  intro frame hframe
  rcases List.mem_map.mp hframe with ⟨r, -, rfl⟩
  exact decide_eq_true r.not_isChatFrame

theorem filter_of_isChatFrame {frame : Bytes} (h : IsChatFrame frame) :
    [frame].filter (¬IsChatFrame ·) = [] := by
  simpa using h

/-- A message in the queue is not seen. -/
theorem withoutChat_post (form : Form1) {packetID : PacketId} {bodyData : Option Bytes}
    (h : IsChatFrame (postSendPacket packetID bodyData)) :
    (form.post packetID bodyData).withoutChat = form.withoutChat := by
  rw [withoutChat, post, List.filter_append, filter_of_isChatFrame h, List.append_nil]
  rfl

/-- A message leaves the queue. -/
theorem withoutChat_tail (form : Form1) {frame : Bytes} {queue : List Bytes}
    (hqueue : form.sendPacketQueue = frame :: queue) (h : IsChatFrame frame) :
    form.withoutChat = { form with sendPacketQueue := queue }.withoutChat := by
  rw [withoutChat, hqueue, ← List.singleton_append, List.filter_append, filter_of_isChatFrame h,
    List.nil_append]
  rfl

/-- Buttons and handlers do the same to the form without the messages. -/
theorem Posts.withoutChat {f : Form1 → Option Form1} (hf : Posts f) (form : Form1) :
    f form.withoutChat = (f form).map Form1.withoutChat := by
  -- both are the form with an empty queue, behind what is posted already
  have hform : form = { form with sendPacketQueue := [] }.behind form.sendPacketQueue := by
    rw [Form1.behind, List.append_nil]
  have hwithout : form.withoutChat = { form with sendPacketQueue := [] }.behind
      (form.sendPacketQueue.filter (¬IsChatFrame ·)) := by
    rw [Form1.behind, List.append_nil]
    rfl
  have hposted := (congrArg f hform).trans (hf.behind _ _)
  rw [hposted, hwithout, Option.map_map]
  refine (hf.behind _ _).trans (Option.map_congr fun form' hform' => ?_)
  rcases hf.requests _ _ hform' with ⟨requests, hrequests⟩
  rw [List.nil_append] at hrequests
  rw [Function.comp_apply, Form1.withoutChat, Form1.behind, Form1.behind, List.filter_append, hrequests,
    filter_map_frame]

end Form1

/-- A packet about a message does not change the form, apart from the box. -/
theorem packetProcess_of_notice? {form form' : Form1} {x : Told} (hx : x.notice? = none)
    (h : form.packetProcess (x.packet env) = some form') : form' = form := by
  cases x with
  | notice x => cases hx
  | ackRoomChat =>
    change form.processAckRoomChat _ = some form' at h
    rw [Form1.processAckRoomChat, Option.bind_eq_bind, Option.bind_eq_some_iff] at h
    rcases h with ⟨result, -, hform⟩
    exact (Option.some.inj hform).symm
  | notifyRoomChat id message =>
    change form.processNotifyRoomChat _ = some form' at h
    rw [Form1.processNotifyRoomChat, Option.bind_eq_bind, Option.bind_eq_some_iff] at h
    rcases h with ⟨chat, -, hform⟩
    exact (Option.some.inj hform).symm

namespace ChatRooms

/-- The clients and the server without messages -/
def withoutChat (σ : ChatRooms n m δ) : ChatSystem n m δ where
  server := σ.server
  form c := (σ.form c).toForm1.withoutChat
  packets c := (σ.packets c).filter (¬IsChatPacket ·)

/-- What is seen of a step without messages -/
def withoutChatAction (e : Entry (ChatRooms n m δ) (RoomAction n)) : Option (Action n) :=
  match e.act with
  | .click c button => some (.click c button)
  | .chatSend .. => none
  | .dispatch c =>
    if ∃ frame ∈ (e.pre.form c).sendPacketQueue.head?, IsChatFrame frame then none
    else some (.dispatch c)
  | .process c =>
    if ∃ packet ∈ (e.pre.packets c).head?, IsChatPacket packet then none else some (.process c)

section

variable {ids : Fin n → UserId} {past : History n m δ} {σ σ' : ChatRooms n m δ} {c : Fin n}
  {b : Action n}

theorem withoutChat_eq {τ : ChatSystem n m δ} (hserver : τ.server = σ.server)
    (hform : ∀ d, τ.form d = (σ.form d).toForm1.withoutChat)
    (hpackets : ∀ d, τ.packets d = (σ.packets d).filter (¬IsChatPacket ·)) :
    τ = σ.withoutChat := by
  cases τ
  obtain rfl := hserver
  obtain rfl := funext hform
  obtain rfl := funext hpackets
  rfl

theorem form_update (forms : Fin n → ChatForm) (c : Fin n) (form : ChatForm) (d : Fin n) :
    (Function.update forms c form d).toForm1.withoutChat =
      Function.update (fun d => (forms d).toForm1.withoutChat) c form.toForm1.withoutChat d :=
  Function.apply_update (fun _ (form : ChatForm) => form.toForm1.withoutChat) forms c form d

/-- The form changes in what is not seen. -/
theorem form_update_of_eq {forms : Fin n → ChatForm} {c : Fin n} {form : ChatForm}
    (h : form.toForm1.withoutChat = (forms c).toForm1.withoutChat) (d : Fin n) :
    (forms d).toForm1.withoutChat = (Function.update forms c form d).toForm1.withoutChat := by
  rw [form_update, h]
  exact (congrFun (Function.update_eq_self c fun d => (forms d).toForm1.withoutChat) d).symm

theorem packets_update (packets : Fin n → List Packet) (c : Fin n) (rest : List Packet)
    (d : Fin n) : (Function.update packets c rest d).filter (¬IsChatPacket ·) =
      Function.update (fun d => (packets d).filter (¬IsChatPacket ·)) c
        (rest.filter (¬IsChatPacket ·)) d :=
  Function.apply_update (fun _ => List.filter (¬IsChatPacket ·)) packets c rest d

theorem packets_update_of_eq {packets : Fin n → List Packet} {c : Fin n} {rest : List Packet}
    (h : (packets c).filter (¬IsChatPacket ·) = rest.filter (¬IsChatPacket ·)) (d : Fin n) :
    (packets d).filter (¬IsChatPacket ·) =
      (Function.update packets c rest d).filter (¬IsChatPacket ·) := by
  rw [packets_update, ← h]
  exact (congrFun (Function.update_eq_self c fun d => (packets d).filter _) d).symm

/-- A click -/
theorem withoutChat_click {button : Button} (hstep : σ.step env (.click c button) = some σ') :
    σ.withoutChat.step env (.click c button) = some σ'.withoutChat := by
  rcases Option.map_eq_some_iff.mp hstep with ⟨form, hclick, rfl⟩
  rcases Option.map_eq_some_iff.mp hclick with ⟨form1, hform1, rfl⟩
  have hwithout := (Form1.posts_click button).withoutChat (σ.form c).toForm1
  rw [hform1, Option.map_some] at hwithout
  change ((σ.form c).toForm1.withoutChat.click button).map _ = _
  rw [hwithout, Option.map_some]
  refine congrArg some (withoutChat_eq rfl (fun d => ?_) fun _ => rfl)
  exact (form_update σ.form c { σ.form c with toForm1 := form1 } d).symm

/-- A message that is typed is not seen. -/
theorem withoutChat_chatSend {chatBox : String}
    (hstep : σ.step env (.chatSend c chatBox) = some σ') : σ.withoutChat = σ'.withoutChat := by
  rcases Option.map_eq_some_iff.mp hstep with ⟨form, hclick, rfl⟩
  simp only [ChatForm.chatSendClick, Option.ite_none_right_eq_some, Option.bind_eq_bind,
    Option.bind_eq_some_iff, Option.some.injEq] at hclick
  rcases hclick with ⟨-, packet, hpacket, rfl⟩
  rcases ReqRoomChatPacket.setValue_new.mp hpacket with ⟨hlength, rfl⟩
  refine withoutChat_eq rfl (form_update_of_eq ?_) fun _ => rfl
  exact (σ.form c).toForm1.withoutChat_post (Posted.isChatFrame_roomChat ⟨chatBox, hlength⟩)

/-- The frame that is processed -/
theorem withoutChatAction_dispatch {p : Posted} {queue : List Bytes}
    (hqueue : (σ.form c).sendPacketQueue = p.frame :: queue) :
    withoutChatAction ⟨σ, .dispatch c, σ'⟩ =
      if IsChatFrame p.frame then none else some (.dispatch c) := by
  simp only [withoutChatAction, hqueue, List.head?_cons, Option.mem_some_iff, exists_eq_left']

theorem withoutChatAction_process {packet : Packet} {packets : List Packet}
    (hpackets : σ.packets c = packet :: packets) :
    withoutChatAction ⟨σ, .process c, σ'⟩ =
      if IsChatPacket packet then none else some (.process c) := by
  simp only [withoutChatAction, hpackets, List.head?_cons, Option.mem_some_iff, exists_eq_left']

/-- What is seen of a step is a step of the system without messages. -/
def SeenWithoutChat (env : Env δ) (e : Entry (ChatRooms n m δ) (RoomAction n)) : Prop :=
  (withoutChatAction e = none → e.pre.withoutChat = e.post.withoutChat) ∧
    ∀ b, withoutChatAction e = some b →
      e.pre.withoutChat.step env b = some e.post.withoutChat

theorem seenWithoutChat_of_none {e : Entry (ChatRooms n m δ) (RoomAction n)}
    (ha : withoutChatAction e = none) (h : e.pre.withoutChat = e.post.withoutChat) :
    SeenWithoutChat env e :=
  ⟨fun _ => h, fun b hb => absurd (ha.symm.trans hb) (Option.some_ne_none b).symm⟩

theorem seenWithoutChat_of_some {e : Entry (ChatRooms n m δ) (RoomAction n)}
    (ha : withoutChatAction e = some b)
    (h : e.pre.withoutChat.step env b = some e.post.withoutChat) :
    SeenWithoutChat env e := by
  refine ⟨fun hnone => absurd (ha.symm.trans hnone) (Option.some_ne_none b), fun b' hb' => ?_⟩
  obtain rfl := Option.some.inj (ha.symm.trans hb')
  exact h

/-- A message that is processed is not seen, and a request is. -/
theorem seenWithoutChat_dispatch (h : Invariant ids env past σ) (hids : Function.Injective ids)
    (hstep : σ.step env (.dispatch c) = some σ') (hspace : σ.EntrySucceeds (.dispatch c)) :
    SeenWithoutChat env ⟨σ, .dispatch c, σ'⟩ := by
  rcases h.dispatched hids hstep hspace with
    ⟨-, p, posted, pending, sent, told, hfollows, hevent, htaken, hforms, hpackets⟩
  have hqueue := hfollows.sendPacketQueue
  cases p with
  | roomChat message =>
    rcases htaken.roomChat message rfl with ⟨hserver, hnotices⟩
    have hchat := Posted.isChatFrame_roomChat message
    refine seenWithoutChat_of_none ((withoutChatAction_dispatch hqueue).trans (if_pos hchat)) ?_
    apply withoutChat_eq hserver.symm
    · dsimp only
      rw [hforms]
      exact form_update_of_eq ((σ.form c).toForm1.withoutChat_tail hqueue hchat).symm
    · intro d
      dsimp only
      rw [hpackets, List.filter_append, htaken.sent, filter_packets_of_notice? (hnotices d),
        List.append_nil]
      rfl
  | request r =>
    rcases htaken.request r rfl with ⟨notices, -, htold⟩
    have hframe : ¬IsChatFrame (Posted.request r).frame := r.not_isChatFrame
    refine seenWithoutChat_of_some ((withoutChatAction_dispatch hqueue).trans (if_neg hframe)) ?_
    have hwithout : (σ.withoutChat.form c).sendPacketQueue =
        (Posted.request r).frame :: (posted.map Posted.frame).filter (¬IsChatFrame ·) := by
      refine (congrArg (List.filter (¬IsChatFrame ·)) hqueue).trans ?_
      exact List.filter_cons_of_pos (decide_eq_true hframe)
    dsimp only
    rw [ChatSystem.step, hwithout]
    change Option.map _ (σ.server.processEvent env (frameEvent c (Posted.request r).frame)) = _
    rw [hevent, Option.map_some]
    refine congrArg some (withoutChat_eq rfl (fun d => ?_) fun d => ?_)
    · rw [hforms]
      exact (form_update σ.form c
        { σ.form c with sendPacketQueue := posted.map Posted.frame } d).symm
    · change (σ.packets d).filter (¬IsChatPacket ·) ++ sentTo sent d = _
      rw [hpackets, List.filter_append, htaken.sent, htold, filter_packets_notices]

/-- A packet about a message that is processed is not seen, and any other is. -/
theorem seenWithoutChat_process (h : Invariant ids env past σ)
    (hstep : σ.step env (.process c) = some σ') : SeenWithoutChat env ⟨σ, .process c, σ'⟩ := by
  rcases h.processed hstep with ⟨-, x, packets, form, hpackets, hprocess, rfl⟩
  have hform1 := (σ.form c).packetProcess_toForm1 (x.packet env)
  rw [hprocess, Option.map_some] at hform1
  cases hx : x.notice? with
  | none =>
    have hchat : IsChatPacket (x.packet env) := Told.isChatPacket_of_notice? hx
    refine seenWithoutChat_of_none ((withoutChatAction_process hpackets).trans (if_pos hchat)) ?_
    apply withoutChat_eq rfl
    · apply form_update_of_eq
      rw [packetProcess_of_notice? hx hform1.symm]
    · apply packets_update_of_eq
      rw [hpackets, List.filter_cons_of_neg]
      simpa using hchat
  | some notice =>
    obtain rfl : x = .notice notice := by
      cases x with
      | notice x => exact congrArg Told.notice (Option.some.inj hx)
      | ackRoomChat | notifyRoomChat => cases hx
    have hchat : ¬IsChatPacket ((Told.notice notice).packet env) :=
      notice.not_isChatPacket env.unset
    refine seenWithoutChat_of_some ((withoutChatAction_process hpackets).trans (if_neg hchat)) ?_
    have hwithout : σ.withoutChat.packets c =
        (Told.notice notice).packet env :: packets.filter (¬IsChatPacket ·) := by
      refine (congrArg (List.filter (¬IsChatPacket ·)) hpackets).trans ?_
      exact List.filter_cons_of_pos (decide_eq_true hchat)
    have hposts := (Form1.posts_packetProcess ((Told.notice notice).packet env)).withoutChat
      (σ.form c).toForm1
    rw [← hform1, Option.map_some] at hposts
    dsimp only
    rw [ChatSystem.step, hwithout]
    change Option.map _ ((σ.form c).toForm1.withoutChat.packetProcess _) = _
    rw [hposts, Option.map_some]
    refine congrArg some (withoutChat_eq rfl (fun d => ?_) fun d => ?_)
    · exact (form_update σ.form c form d).symm
    · exact (packets_update σ.packets c packets d).symm

/-- Every step -/
theorem Invariant.seenWithoutChat (h : Invariant ids env past σ) (hids : Function.Injective ids)
    {a : RoomAction n} (hstep : σ.step env a = some σ') (hspace : σ.EntrySucceeds a) :
    SeenWithoutChat env ⟨σ, a, σ'⟩ := by
  cases a with
  | click c button => exact seenWithoutChat_of_some rfl (withoutChat_click hstep)
  | chatSend c chatBox => exact seenWithoutChat_of_none rfl (withoutChat_chatSend hstep)
  | dispatch c => exact seenWithoutChat_dispatch h hids hstep hspace
  | process c => exact seenWithoutChat_process h hstep

/-! ## Whole runs -/

/-- The snapshot of a room is taken when nobody stands behind the client in its list, and
the number of its members fits into a byte. -/
def SnapshotCloses (σ : ChatRooms n m δ) : RoomAction n → Prop
  | .dispatch c => σ.chatSystem.SnapshotCloses (.dispatch c)
  | .click .. | .chatSend .. | .process _ => True

instance (σ : ChatRooms n m δ) : DecidablePred σ.SnapshotCloses
  | .dispatch c => inferInstanceAs (Decidable (σ.chatSystem.SnapshotCloses (.dispatch c)))
  | .click .. | .chatSend .. | .process _ => instDecidableTrue

/-- The first of a list without some of its items -/
theorem head?_filter {α : Type*} {p : α → Prop} [DecidablePred p] {l : List α}
    (h : ¬∃ x ∈ l.head?, p x) : (l.filter (¬p ·)).head? = l.head? := by
  cases l with
  | nil => rfl
  | cons x l =>
    have hx : ¬p x := fun hx => h ⟨x, rfl, hx⟩
    rw [List.filter_cons, if_pos (decide_eq_true hx)]
    rfl

/-- The request that is seen is the one that is processed. -/
theorem withoutChatAction_eq_some {a : RoomAction n}
    (ha : withoutChatAction ⟨σ, a, σ'⟩ = some b) :
    (∃ c, a = .dispatch c ∧ b = .dispatch c ∧
      (σ.withoutChat.form c).sendPacketQueue.head? =
        (σ.chatSystem.form c).sendPacketQueue.head?) ∨
      (∃ c button, b = .click c button) ∨ ∃ c, b = .process c := by
  cases a with
  | click c button => exact .inr (.inl ⟨c, button, (Option.some.inj ha).symm⟩)
  | chatSend c chatBox => cases ha
  | dispatch c =>
    simp only [withoutChatAction, Option.ite_none_left_eq_some, Option.some.injEq] at ha
    exact .inl ⟨c, rfl, ha.2.symm, head?_filter ha.1⟩
  | process c =>
    simp only [withoutChatAction, Option.ite_none_left_eq_some, Option.some.injEq] at ha
    exact .inr (.inr ⟨c, ha.2.symm⟩)

theorem EntrySucceeds.withoutChat {e : Entry (ChatRooms n m δ) (RoomAction n)}
    (h : e.pre.EntrySucceeds e.act) (ha : withoutChatAction e = some b) :
    e.pre.withoutChat.EntrySucceeds b := by
  cases e
  rcases withoutChatAction_eq_some ha with ⟨c, rfl, rfl, hhead⟩ | ⟨c, button, rfl⟩ | ⟨c, rfl⟩
  · rw [ChatSystem.EntrySucceeds, hhead]
    exact h
  · trivial
  · trivial

theorem SnapshotCloses.withoutChat {e : Entry (ChatRooms n m δ) (RoomAction n)}
    (h : e.pre.SnapshotCloses e.act) (ha : withoutChatAction e = some b) :
    e.pre.withoutChat.SnapshotCloses b := by
  cases e
  rcases withoutChatAction_eq_some ha with ⟨c, rfl, rfl, hhead⟩ | ⟨c, button, rfl⟩ | ⟨c, rfl⟩
  · rw [ChatSystem.SnapshotCloses, hhead]
    exact h
  · trivial
  · trivial

variable {σ₀ : ChatRooms n m δ}

theorem Start.withoutChat (start : Start ids σ₀) : σ₀.withoutChat = σ₀.chatSystem := by
  symm
  apply withoutChat_eq rfl
  · intro d
    have hqueue := start.lobby.sendPacketQueue d
    have hself : (σ₀.form d).sendPacketQueue.filter (¬IsChatFrame ·) =
        (σ₀.form d).sendPacketQueue := by
      refine (congrArg (List.filter (¬IsChatFrame ·)) hqueue).trans (Eq.trans ?_ hqueue.symm)
      split_ifs
      · exact Form1.filter_map_frame [.lobbyInfo]
      · rfl
    rw [Form1.withoutChat, hself]
    rfl
  · intro d
    have hpackets : σ₀.packets d = [] := start.lobby.packets d
    rw [hpackets]
    exact hpackets

/-- What is left of a state that is reached -/
def LeftOf (ids : Fin n → UserId) (env : Env δ) (σ : ChatRooms n m δ) (τ : ChatSystem n m δ) :
    Prop :=
  τ = σ.withoutChat ∧ ∃ past, Invariant ids env past σ

namespace LeftOf

variable {τ : ChatSystem n m δ} {a : RoomAction n}

theorem stutter (h : LeftOf ids env σ τ) (hids : Function.Injective ids)
    (hstep : σ.step env a = some σ') (hspace : σ.EntrySucceeds a)
    (ha : withoutChatAction ⟨σ, a, σ'⟩ = none) : LeftOf ids env σ' τ := by
  rcases h with ⟨rfl, past, h⟩
  exact ⟨(h.seenWithoutChat hids hstep hspace).1 ha, _, h.step hids hstep hspace⟩

theorem simulates (h : LeftOf ids env σ τ) (hids : Function.Injective ids)
    (hstep : σ.step env a = some σ') (hspace : σ.EntrySucceeds a)
    (ha : withoutChatAction ⟨σ, a, σ'⟩ = some b) :
    ∃ τ', τ.step env b = some τ' ∧ LeftOf ids env σ' τ' := by
  rcases h with ⟨rfl, past, h⟩
  exact ⟨σ'.withoutChat, (h.seenWithoutChat hids hstep hspace).2 b ha, rfl, _,
    h.step hids hstep hspace⟩

end LeftOf

theorem Start.leftOf (start : Start ids σ₀) (env : Env δ) :
    LeftOf ids env σ₀ σ₀.chatSystem :=
  ⟨start.withoutChat.symm, [], start.invariant env⟩

/-- A run matches what is left of it. -/
theorem Start.matching (start : Start ids σ₀) (hids : Function.Injective ids) (env : Env δ)
    (run : Run (step env) σ₀ past σ) (enters : ∀ e ∈ past, e.pre.EntrySucceeds e.act) :
    ∃ past' τ, Run (ChatSystem.step env) σ₀.chatSystem past' τ ∧
      Matching (LeftOf ids env) withoutChatAction σ₀ σ₀.chatSystem past σ past' τ :=
  run.simulation (C := fun e => e.pre.EntrySucceeds e.act) (start.leftOf env)
    (fun _ _ _ _ h hstep hspace ha => h.stutter hids hstep hspace ha)
    (fun _ _ _ _ _ h hstep hspace ha => h.simulates hids hstep hspace ha) enters

/-- In every run of any number of clients with distinct ids, in which the entries that are
processed succeed, the steps that are left without messages are a run of the system that
has none. It ends at what is left of the state without messages. -/
theorem runs_without_chat (hids : Function.Injective ids) (env : Env δ) (start : Start ids σ₀)
    (run : Run (step env) σ₀ past σ) (enters : ∀ e ∈ past, e.pre.EntrySucceeds e.act) :
    ∃ past', Run (ChatSystem.step env) σ₀.chatSystem past' σ.withoutChat ∧
      past'.map Entry.act = past.filterMap withoutChatAction := by
  rcases start.matching hids env run enters with ⟨past', τ, run', hmatch⟩
  rcases hmatch.related with ⟨rfl, -⟩
  exact ⟨past', run', hmatch.acts⟩

/-- Of the 22 steps five are about the message. -/
theorem runs_without_chat_of_two : ∃ (σ₀ σ : ChatRooms 2 10 Unit) (past : History 2 10 Unit)
    (past' : List (Entry (ChatSystem 2 10 Unit) (Action 2))),
    Run (step acceptingEnv) σ₀ past σ ∧ past.length = 22 ∧
      Run (ChatSystem.step acceptingEnv) σ₀.chatSystem past' σ.withoutChat ∧
        past'.length = 17 := by
  obtain ⟨σ₀, past, σ, start, run, h⟩ := exists_conversation
    [.process 0, .chatSend 0 "hi", .dispatch 0, .process 0, .process 0, .process 1]
    (fun past _ => (∀ e ∈ past, e.pre.EntrySucceeds e.act) ∧ past.length = 22 ∧
      (past.filterMap withoutChatAction).length = 17) (by decide +kernel)
  rcases of_decide_eq_true h with ⟨enters, hlength, hseen⟩
  rcases runs_without_chat twoIds_injective acceptingEnv start run enters with ⟨past', run', hacts⟩
  refine ⟨σ₀, σ, past, past', run, hlength, run', ?_⟩
  rw [← hseen, ← hacts, List.length_map]

/-- The run that is left keeps the invariant of the lists. -/
theorem Start.rooms_invariant (start : Start ids σ₀) (hids : Function.Injective ids)
    (env : Env δ) (run : Run (step env) σ₀ past σ)
    (enters : ∀ e ∈ past, e.pre.EntrySucceeds e.act)
    (closes : ∀ e ∈ past, e.pre.SnapshotCloses e.act) :
    ChatSystem.Invariant ids env.unset σ.withoutChat := by
  rcases start.matching hids env run enters with ⟨past', τ, run', hmatch⟩
  rcases hmatch.related with ⟨rfl, -⟩
  refine start.lobby.invariant_of_run hids env run' (fun e' he' => ?_) fun e' he' => ?_
  · rcases hmatch.exists_entry e' he' with ⟨e, he, ⟨hpre, -⟩, hact⟩
    rw [hpre]
    exact (enters e he).withoutChat hact
  · rcases hmatch.exists_entry e' he' with ⟨e, he, ⟨hpre, -⟩, hact⟩
    rw [hpre]
    exact (closes e he).withoutChat hact

/-- The box and the button for messages, when nothing is under way -/
theorem Followed.quiet {form : ChatForm}
    (h : Followed ids env past σ.server c form []) :
    form.chatSend = form.roomExit ∧
      (roomOf σ.server c = none → form.listBoxRoomChatMsg = []) := by
  rcases h with ⟨queue, told, h⟩
  obtain rfl := List.map_eq_nil_iff.mp h.packets.symm
  refine ⟨h.speaks.chatSend, fun hroom => ?_⟩
  have hheard : (heardOf past c).map Heard.msg = [] := h.hears.trans (heardBy_of_roomOf hroom)
  rw [h.box, List.map_eq_nil_iff.mp hheard]
  rfl

/-- The forms agree with the rooms when nothing is under way. -/
theorem Invariant.agrees (h : Invariant ids env past σ)
    (hrooms : ChatSystem.Invariant ids env.unset σ.withoutChat) (quiet : σ.chatSystem.Quiet) :
    σ.chatSystem.Converged ∧ σ.chatSystem.Ready ∧ ∀ c,
      ((σ.server.mUserObjPool c).mState = .inLobby →
        (σ.form c).chatSend = false ∧ (σ.form c).listBoxRoomChatMsg = []) ∧
      ((σ.server.mUserObjPool c).mState = .inRoom → (σ.form c).chatSend = true) := by
  have quiet' : σ.withoutChat.Quiet := by
    intro c
    exact ⟨congrArg (List.filter (¬IsChatFrame ·)) (quiet c).1,
      congrArg (List.filter (¬IsChatPacket ·)) (quiet c).2⟩
  have hready : σ.chatSystem.Ready := hrooms.ready quiet'
  have hfollowed (c : Fin n) (hc : LoggedIn σ.server c) :
      Followed ids env past σ.server c (σ.form c) [] := by
    have hpackets : σ.packets c = [] := (quiet c).2
    rw [← hpackets]
    exact h.followed c hc
  refine ⟨hrooms.converged quiet', hready, fun c => ⟨fun hlobby => ?_, fun hin => ?_⟩⟩
  · rcases (hfollowed c (.inl hlobby)).quiet with ⟨hsend, hbox⟩
    have hexit := ((hready c).1 hlobby).2.2
    exact ⟨hsend.trans hexit, hbox (roomOf_of_not_inRoom (by simp [hlobby]))⟩
  · rcases (hfollowed c (.inr hin)).quiet with ⟨hsend, -⟩
    exact hsend.trans ((hready c).2 hin).2.2

end

end ChatRooms

end ChatServer.Client
