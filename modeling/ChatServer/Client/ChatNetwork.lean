import ChatServer.Client.SendPacketQueue
import ChatServer.Client.Downlink
import ChatServer.PacketManager.Uplink
import ChatServer.Server.Noninterference

/-! # The chat over bytes

The clients and the server with everything that is between them: streams of bytes, receive
buffers, notifications, send queues, read threads and timers. From the logins to the first
disconnection, this refines the system in which a request is served at once and a packet
arrives whole.
-/

namespace ChatServer

variable {n m : ℕ} {δ : Type*}

/-- The packets that a step of the process thread sends -/
def System.sent (env : Env δ) (s : System n m δ) : Action n → List (Sent n)
  | .processRecvPacket behind =>
    match s.phase with
    | .processRecvPacket i v => s.server.sent env (.frame i v.packetId v.dataSize
        ((s.buffer i).memoryFrom v.pDataPtr behind))
    | _ => []
  | .dequeSystemPacketData =>
    match s.mSystemPacketQueue with
    | [] => []
    | packet :: _ => s.server.sent env packet.event
  | _ => []

namespace ClientInfo

variable {c c' : ClientInfo} {result : WSAResult}

theorem sendIO_socket (h : sendIO c result = some c') :
    c'.mSock = c.mSock ∧ c'.connections = c.connections := by
  unfold sendIO at h
  split at h
  next => cases h
  next front rest hqueue =>
    simp only [Option.ite_none_left_eq_some, Option.some.injEq] at h
    rcases h with ⟨-, rfl⟩
    exact ⟨rfl, rfl⟩

theorem sendMsg_socket {pMsg : Bytes} (h : c.step (.sendMsg pMsg result) = some c') :
    c'.mSock = c.mSock ∧ c'.connections = c.connections := by
  rw [step, sendMsg_eq] at h
  split_ifs at h
  · have hsocket := sendIO_socket h
    exact hsocket
  · obtain rfl := Option.some.inj h
    exact ⟨rfl, rfl⟩

theorem sendCompletion_socket {op : OverlappedEx}
    (h : c.step (.sendCompletion op true result) = some c') :
    c'.mSock = c.mSock ∧ c'.connections = c.connections := by
  simp only [step, Option.ite_none_right_eq_some, if_true] at h
  rcases h with ⟨-, h⟩
  rw [sendCompleted] at h
  split at h
  next => cases h
  next front rest hqueue =>
    simp only at h
    split_ifs at h
    · obtain rfl := Option.some.inj h
      exact ⟨rfl, rfl⟩
    · have hsocket := sendIO_socket h
      exact hsocket

theorem mSock_of_connection {k : ℕ} (h : c.connection = some k) : c.mSock = .connected := by
  by_contra hsock
  rw [connection_of_not_connected hsock] at h
  cases h

end ClientInfo

namespace Client
open Recorded Server

/-- The server, the forms, and what is between them. `sending` are the packets that a
handler has still to pass to `SendMsg`, and `uplink` are the bytes that have been sent to
a slot and not received. -/
structure ChatNetwork (n m : ℕ) (δ : Type*) where
  system : System n m δ
  sending : List (Sent n)
  form : Fin n → ChatForm
  uplink : Fin n → Bytes
  downlink : Fin n → Downlink

/-- The steps of the threads of the server and of the clients. A receive and a turn of a
read thread come with the number of their bytes, a send with the result of `WSASend`. -/
inductive NetworkAction (n : ℕ) where
  | click (c : Fin n) (button : Button)
  | chatSend (c : Fin n) (chatBox : String)
  | networkSendProcess (c : Fin n)
  | setPacketData (c : Fin n) (nRecv : ℕ)
  | resume (worker : ℕ)
  | dequePacketData
  | processRecvPacket (behind : Bytes)
  | dequeSystemPacketData
  | sendMsg (result : WSAResult)
  | sendCompletion (c : Fin n) (op : OverlappedEx) (result : WSAResult)
  | networkReadProcess (c : Fin n) (nRecv : ℕ)
  | backGroundProcess (c : Fin n)

namespace ChatNetwork

/-- A slot has a client as long as it is connected. -/
def HasClient (ν : ChatNetwork n m δ) (c : Fin n) : Prop :=
  (ν.downlink c).clientInfo.mSock = .connected

instance (ν : ChatNetwork n m δ) : DecidablePred ν.HasClient := fun _ => instDecidableEqSocket _ _

/-- The next `nRecv` bytes of a client are received on its connection. -/
def receive (ν : ChatNetwork n m δ) (c : Fin n) (nRecv : ℕ) : ChatServer.Action n :=
  .setPacketData c (ν.system.connection c) ((ν.uplink c).take nRecv)

def systemStep (env : Env δ) (ν : ChatNetwork n m δ) (a : ChatServer.Action n) :
    Option (ChatNetwork n m δ) :=
  (ν.system.step env a).map fun system =>
    { ν with system := system, sending := ν.sending ++ ν.system.sent env a }

def downlinkStep (ν : ChatNetwork n m δ) (c : Fin n) (e : DownlinkEvent) :
    Option (ChatNetwork n m δ) :=
  ((ν.downlink c).step (ν.downlink c).clientInfo.connections e).map fun downlink =>
    { ν with downlink := Function.update ν.downlink c downlink }

/-- The process thread goes on when the packets of its handler have been sent. -/
def step (env : Env δ) (ν : ChatNetwork n m δ) : NetworkAction n → Option (ChatNetwork n m δ)
  | .click c button =>
    if ν.HasClient c then
      ((ν.form c).click button).map fun form => { ν with form := Function.update ν.form c form }
    else none
  | .chatSend c chatBox =>
    if ν.HasClient c then
      ((ν.form c).chatSendClick chatBox).map fun form =>
        { ν with form := Function.update ν.form c form }
    else none
  | .networkSendProcess c =>
    match (ν.form c).sendPacketQueue with
    | [] => none
    | frame :: queue =>
      if ν.HasClient c then
        some { ν with
          form := Function.update ν.form c { ν.form c with sendPacketQueue := queue }
          uplink := Function.update ν.uplink c (ν.uplink c ++ frame) }
      else none
  | .setPacketData c nRecv =>
    if nRecv ≤ (ν.uplink c).length then
      (ν.systemStep env (ν.receive c nRecv)).map fun ν' =>
        { ν' with uplink := Function.update ν.uplink c ((ν.uplink c).drop nRecv) }
    else none
  | .resume worker => ν.systemStep env (.resume worker)
  | .dequePacketData => if ν.sending = [] then ν.systemStep env .dequePacketData else none
  | .processRecvPacket behind =>
    if ν.sending = [] then ν.systemStep env (.processRecvPacket behind) else none
  | .dequeSystemPacketData =>
    if ν.sending = [] then ν.systemStep env .dequeSystemPacketData else none
  | .sendMsg result =>
    match ν.sending with
    | [] => none
    | x :: rest =>
      (ν.downlinkStep x.clientIndex (.clientInfo (.sendMsg x.pMsg result))).map fun ν' =>
        { ν' with sending := rest }
  | .sendCompletion c op result =>
    ν.downlinkStep c (.clientInfo (.sendCompletion op true result))
  | .networkReadProcess c nRecv =>
    if ν.HasClient c then ν.downlinkStep c (.networkReadProcess nRecv) else none
  | .backGroundProcess c =>
    if ν.HasClient c then
      let (packet, downlink) := (ν.downlink c).backGroundProcess
      (packet.elim (some (ν.form c)) (ν.form c).packetProcessData).map fun form =>
        { ν with
          form := Function.update ν.form c form
          downlink := Function.update ν.downlink c downlink }
    else none

/-- Receives come in time, the slots keep sending, and the packets and the chunks fit into
the buffers of the clients. -/
def Carries (ν : ChatNetwork n m δ) : NetworkAction n → Prop
  | .setPacketData c nRecv => System.ReceivesInTime ⟨ν.system, ν.receive c nRecv, ν.system⟩
  | .sendMsg result => ∀ x ∈ ν.sending.head?,
      (ν.downlink x.clientIndex).clientInfo.KeepsSending (.sendMsg x.pMsg result) ∧
        (ν.HasClient x.clientIndex → x.packet.bytes.length ≤ 1024)
  | .sendCompletion c op result =>
      (ν.downlink c).clientInfo.KeepsSending (.sendCompletion op true result)
  | .networkReadProcess c nRecv =>
      Fits (ν.downlink c).thread ((ν.downlink c).chunk (ν.downlink c).clientInfo.connections nRecv)
  | _ => True

instance (ν : ChatNetwork n m δ) : DecidablePred ν.Carries := by
  intro a
  unfold Carries
  split <;> infer_instance

/-- The forms of the clients, and the packets that are not sent yet: nothing is on its way. -/
def chatRooms (ν : ChatNetwork n m δ) : ChatRooms n m δ where
  server := ν.system.server
  form := ν.form
  packets _ := []

end ChatNetwork

/-! ## Requests and messages under way -/

theorem wellFormed_requestFrame (packetId : PacketId) {body : Bytes}
    (h : packetHeaderLength + body.length < 65536) :
    requestFormat.WellFormed (requestFrame packetId body) := by
  have hread := read_requestFrame (r := []) packetId body
  have hlength : (requestFrame packetId body).length = packetHeaderLength + body.length := by
    simp [requestFrame, le16, packetHeaderLength]
    omega
  rw [List.append_nil] at hread
  refine ⟨hlength ▸ Nat.le_add_right _ _, ?_⟩
  change (PacketHeader.read (requestFrame packetId body)).packetLength.toNat = _
  rw [hread, hlength]
  exact UInt16.toNat_ofNat_of_lt' h

theorem Request.code_packetId_ne_roomChat (r : Request) :
    r.packetId.code ≠ PacketId.reqRoomChat.code := by
  cases r <;> exact of_decide_eq_false rfl

namespace Posted

theorem length_bodyData (p : Posted) : (p.bodyData.getD []).length ≤ PacketDef.maxChatMsgSize := by
  cases p with
  | request r =>
    cases r with
    | roomEnter number => exact (by decide : 4 ≤ PacketDef.maxChatMsgSize)
    | lobbyInfo | roomInfo | roomLeave => exact Nat.zero_le _
  | roomChat message => exact (length_zeroFilled message.2).le

theorem dataFrame (p : Posted) : DataFrame p.frame where
  wellFormed := by
    have hlength := p.length_bodyData
    rw [PacketDef.maxChatMsgSize] at hlength
    rw [p.frame_eq]
    apply wellFormed_requestFrame
    rw [packetHeaderLength]
    omega
  aboveSysEnd := by
    rw [System.aboveSysEnd, p.read_frame_packetId]
    cases p with
    | request r => cases r <;> rfl
    | roomChat message => rfl

theorem length_frame (p : Posted) :
    p.frame.length = packetHeaderLength + (p.bodyData.getD []).length := by
  rw [p.frame_eq]
  simp [requestFrame, le16, packetHeaderLength]
  omega

/-- The forms do not log in here. -/
theorem code_packetId_ne (p : Posted) {request : PacketId}
    (h : request ∈ [PacketId.reqCreateAccount, .reqLogin]) : p.packetId.code ≠ request.code := by
  have hcodes : ∀ p ∈ [PacketId.reqLobbyInfo, .reqRoomEnter, .reqRoomInfo, .reqRoomLeave,
      .reqRoomChat], ∀ q ∈ [PacketId.reqCreateAccount, .reqLogin], p.code ≠ q.code := by decide
  apply hcodes p.packetId _ request h
  cases p with
  | request r => cases r <;> simp [packetId, Request.packetId]
  | roomChat message => simp [packetId]

end Posted

/-- The handler of a request or a message sees its frame, and not what stands behind it. -/
theorem processEvent_append {s : Server n m δ} (ht : s.TablesOk) (env : Env δ) (c : Fin n)
    (p : Posted) (behind : Bytes) :
    s.processEvent env (.frame c (PacketHeader.read p.frame).packetId
      (UInt16.ofNat p.frame.length) (p.frame ++ behind)) =
        s.processEvent env (frameEvent c p.frame) := by
  have hsize : (PacketHeader.read p.frame).packetLength = UInt16.ofNat p.frame.length := by
    have hdeclared : (PacketHeader.read p.frame).packetLength.toNat = p.frame.length :=
      p.dataFrame.wellFormed.2
    rw [← hdeclared, UInt16.ofNat_toNat]
  have hlength := p.length_bodyData
  rw [PacketDef.maxChatMsgSize] at hlength
  have hserved {f : RecvFunction} {state : UserState} {request : PacketId}
      (hhome : f.home = some (state, request))
      (hf : s.handler c (PacketHeader.read p.frame).packetId = f) :
      p.packetId.code = request.code := by
    rw [← p.read_frame_packetId]
    exact ht.packetId_of_handler hf hhome
  rw [frameEvent, processEvent_frame, processEvent_frame, hsize]
  apply runRecvFunction_append
  · rw [p.length_frame, packetHeaderLength]
    omega
  · intro hf
    have hcode := hserved rfl hf
    cases p with
    | request r =>
      cases r with
      | roomEnter number => exact le_refl 9
      | lobbyInfo | roomInfo | roomLeave => exact absurd hcode (by decide)
    | roomChat message =>
      have hchat : PacketId.reqRoomChat.code = PacketId.reqRoomEnter.code := hcode
      exact absurd hchat (by decide)
  · intro hf
    have hcode := hserved rfl hf
    cases p with
    | request r =>
      have hchat : r.packetId.code = PacketId.reqRoomChat.code := hcode
      exact absurd hchat (r.code_packetId_ne_roomChat)
    | roomChat message =>
      rw [Posted.length_frame, Posted.bodyData, Option.getD_some, length_zeroFilled message.2]
      exact le_refl _
  · exact fun hf => absurd (hserved rfl hf) (p.code_packetId_ne (by decide))
  · exact fun hf => absurd (hserved rfl hf) (p.code_packetId_ne (by decide))

/-- The form of a client with what is under way in front of what it has still to send -/
def Upward (c : Fin n) (system : System n m δ) (uplink : Bytes) (form form' : ChatForm) : Prop :=
  ∃ (posted pending : List Posted) (l : SlotLog) (taken : List Bytes),
    form.sendPacketQueue = posted.map Posted.frame ∧
      system.Uplink c uplink (pending.map Posted.frame) l taken ∧
        form' = form.behind (pending.map Posted.frame)

section Upward

variable {c : Fin n} {system system' : System n m δ} {uplink uplink' : Bytes}
  {form form₁ form' : ChatForm} {env : Env δ}

/-- The form posts the same behind what is under way. -/
theorem Upward.posts {f : ChatForm → Option ChatForm} (h : Upward c system uplink form form')
    (hf : ChatForm.Posts f) (hform : f form = some form₁) :
    ∃ form₂, f form' = some form₂ ∧ Upward c system uplink form₁ form₂ := by
  rcases h with ⟨posted, pending, l, taken, hposted, huplink, rfl⟩
  rcases hf.posted form form₁ hform with ⟨posted', hposted'⟩
  refine ⟨form₁.behind (pending.map Posted.frame), ?_, posted ++ posted', pending, l, taken, ?_,
    huplink, rfl⟩
  · rw [hf.behind, hform, Option.map_some]
  · rw [hposted', hposted, List.map_append]

/-- The first frame is written to the stream. -/
theorem Upward.send (h : Upward c system uplink form form') {frame : Bytes} {queue : List Bytes}
    (hqueue : form.sendPacketQueue = frame :: queue) :
    Upward c system (uplink ++ frame) { form with sendPacketQueue := queue } form' := by
  rcases h with ⟨posted, pending, l, taken, hposted, huplink, rfl⟩
  cases posted with
  | nil => rw [hposted] at hqueue; cases hqueue
  | cons p posted =>
    rw [hposted, List.map_cons] at hqueue
    rcases List.cons.inj hqueue with ⟨rfl, rfl⟩
    refine ⟨posted, pending ++ [p], l, taken, rfl, ?_, ?_⟩
    · rw [List.map_append, List.map_singleton]
      exact huplink.send p.dataFrame
    · rw [ChatForm.behind, ChatForm.behind, Form1.behind, Form1.behind, hposted, List.map_append,
        List.map_cons, List.append_assoc]
      rfl

/-- A step of the server passes the first frame on, or none. -/
theorem Upward.step (h : Upward c system uplink form form') {a : ChatServer.Action n}
    (ht : System.Transition env system a system') (hqueue : system.mSystemPacketQueue = [])
    (hintime : System.ReceivesInTime ⟨system, a, system'⟩)
    (huplink : uplink = System.stored c a ++ uplink') :
    ∃ queue, form'.sendPacketQueue = (system.passed c a).toList ++ queue ∧
      Upward c system' uplink' form { form' with sendPacketQueue := queue } := by
  rcases h with ⟨posted, pending, l, taken, hposted, h, rfl⟩
  rcases h.step ht hqueue hintime huplink with ⟨pending', l', taken', hpending, h'⟩
  rcases List.map_eq_append_iff.mp hpending with ⟨passed, pending, rfl, hpassed, rfl⟩
  refine ⟨pending.map Posted.frame ++ form.sendPacketQueue, ?_, posted, pending, l', taken',
    hposted, h', rfl⟩
  rw [ChatForm.behind, Form1.behind, List.map_append, hpassed, List.append_assoc]

theorem Upward.userList (h : Upward c system uplink form form') :
    form'.userList = form.userList := by
  rcases h with ⟨posted, pending, l, taken, hposted, huplink, rfl⟩
  rfl

theorem Upward.listBoxRoomChatMsg (h : Upward c system uplink form form') :
    form'.listBoxRoomChatMsg = form.listBoxRoomChatMsg := by
  rcases h with ⟨posted, pending, l, taken, hposted, huplink, rfl⟩
  rfl

/-- The frame in hand is the first one that is under way. -/
theorem Upward.inHand (h : Upward c system uplink form form') {v : PacketView}
    (hv : system.frameInHand c = some v) : ∃ (p : Posted) (queue : List Bytes),
      system.frameBytes c v = p.frame ∧ form'.sendPacketQueue = p.frame :: queue ∧
        system.HandOk c := by
  rcases h with ⟨posted, pending, l, taken, hposted, h, rfl⟩
  rcases h.inHand hv with ⟨rest, hpending⟩
  cases pending with
  | nil => cases hpending
  | cons p pending =>
    rcases List.cons.inj hpending with ⟨hframe, -⟩
    exact ⟨p, _, hframe.symm, rfl, h.hand⟩

end Upward

/-! ## Packets under way -/

section Downward

variable {d d' : Downlink} {k : ℕ} {sending packets : List Packet} {x : Sent n} {result : WSAResult}

/-- The packets for a client are those of its connection that it has not dequeued, and
those that a handler has still to send. -/
structure Downward (d : Downlink) (sending packets : List Packet) : Prop where
  inv : d.Inv d.clientInfo.connections
  underWay : d.clientInfo.mSock = .connected → ∃ queue : List Packet,
    (∀ p ∈ queue, p.packetId ≠ 0) ∧
      (d.messages d.clientInfo.connections).drop d.dequeued = queue.map Packet.bytes ∧
        packets = queue ++ sending

theorem Downward.send (h : Downward d [] packets) (sent : List Packet) :
    Downward d sent (packets ++ sent) where
  inv := h.inv
  underWay hsock := by
    rcases h.underWay hsock with ⟨queue, hids, hqueue, hpackets⟩
    rw [List.append_nil] at hpackets
    exact ⟨queue, hids, hqueue, by rw [hpackets]⟩

/-- The connection goes on, and so do its messages. -/
theorem Downward.unchanged (h : Downward d sending packets)
    (hinv : d'.Inv d.clientInfo.connections) (hsock : d'.clientInfo.mSock = d.clientInfo.mSock)
    (hconnections : d'.clientInfo.connections = d.clientInfo.connections)
    (hmessages : d'.messages d.clientInfo.connections = d.messages d.clientInfo.connections)
    (hdequeued : d'.dequeued = d.dequeued) : Downward d' sending packets where
  inv := hconnections ▸ hinv
  underWay hconnected := by
    rw [hconnections, hmessages, hdequeued]
    exact h.underWay (hsock ▸ hconnected)

theorem Downward.networkReadProcess (h : Downward d sending packets) {nRecv : ℕ}
    (hstep : d.step d.clientInfo.connections (.networkReadProcess nRecv) = some d')
    (hfits : Fits d.thread (d.chunk d.clientInfo.connections nRecv)) :
    Downward d' sending packets := by
  have hinv := h.inv.step hstep hfits
  simp only [Downlink.step, Option.ite_none_right_eq_some] at hstep
  rcases Option.map_eq_some_iff.mp hstep.2 with ⟨thread, -, rfl⟩
  exact h.unchanged hinv rfl rfl rfl rfl

theorem Downward.sendCompletion (h : Downward d sending packets) {op : OverlappedEx}
    (hstep : d.step d.clientInfo.connections (.clientInfo (.sendCompletion op true result)) = some d')
    (hkeeps : d.clientInfo.KeepsSending (.sendCompletion op true result)) :
    Downward d' sending packets := by
  have hinv := h.inv.step hstep ⟨hkeeps, nofun⟩
  rcases Option.map_eq_some_iff.mp hstep with ⟨c', hc, rfl⟩
  rcases ClientInfo.sendCompletion_socket hc with ⟨hsock, hconnections⟩
  refine h.unchanged hinv hsock hconnections ?_ rfl
  rw [Downlink.messages_clientInfo hc]
  exact (congrArg _ (ite_self _)).trans (List.append_nil _)

/-- A packet that `SendMsg` takes over is a frame of the client's protocol. -/
theorem streamFrame_of_framed (hx : Framed x) (hshort : x.packet.bytes.length ≤ 1024) :
    x.pMsg = x.packet.bytes ∧ StreamFrame x.pMsg := by
  have hwhole := hx.whole.mpr (by omega)
  refine ⟨hwhole, hx.wellFormed.mpr ?_, by rwa [hwhole]⟩
  rw [Nat.mod_eq_of_lt (by omega), Packet.length_bytes]
  exact Nat.le_add_right _ _

theorem packetId_ne_zero (hx : Framed x) : x.packet.packetId ≠ 0 := by
  rcases hx.packetId with ⟨packetId, hmem, hcode⟩
  have hcodes : ∀ p ∈ ackIds ++ notifyIds, p.code ≠ 0 := by decide
  rw [hcode]
  exact hcodes packetId hmem

/-- `SendMsg` takes over the next packet of the handler. -/
theorem Downward.sendMsg (h : Downward d (x.packet :: sending) packets) (hx : Framed x)
    (hstep : d.step d.clientInfo.connections (.clientInfo (.sendMsg x.pMsg result)) = some d')
    (hkeeps : d.clientInfo.KeepsSending (.sendMsg x.pMsg result))
    (hshort : d.clientInfo.mSock = .connected → x.packet.bytes.length ≤ 1024) :
    Downward d' sending packets := by
  have hinv := h.inv.step hstep ⟨hkeeps, fun hconnection pMsg hmem => by
    obtain rfl := Option.some.inj hmem
    exact (streamFrame_of_framed hx (hshort (ClientInfo.mSock_of_connection hconnection))).2⟩
  rcases Option.map_eq_some_iff.mp hstep with ⟨c', hc, rfl⟩
  rcases ClientInfo.sendMsg_socket hc with ⟨hsock, hconnections⟩
  refine ⟨hconnections ▸ hinv, fun hconnected => ?_⟩
  have hconnected : d.clientInfo.mSock = .connected := hsock ▸ hconnected
  rcases h.underWay hconnected with ⟨queue, hids, hqueue, hpackets⟩
  refine ⟨queue ++ [x.packet], ?_, ?_, ?_⟩
  · exact List.forall_mem_append.mpr ⟨hids, List.forall_mem_singleton.mpr (packetId_ne_zero hx)⟩
  · change List.drop d.dequeued (Downlink.messages _ c'.connections) = _
    rw [hconnections, Downlink.messages_clientInfo hc,
      if_pos (ClientInfo.connection_of_connected hconnected),
      List.drop_append_of_le_length h.inv.dequeued_le_messages, hqueue, List.map_append,
      List.map_singleton, ← (streamFrame_of_framed hx (hshort hconnected)).1]
    rfl
  · rw [hpackets, List.append_assoc]
    rfl

theorem clientInfo_backGroundProcess (d : Downlink) :
    d.backGroundProcess.2.clientInfo = d.clientInfo := by
  rw [Downlink.backGroundProcess]
  cases d.recvPacketQueue <;> rfl

/-- A tick finds nothing, or the next packet. -/
theorem Downward.backGroundProcess (h : Downward d sending packets)
    (hsock : d.clientInfo.mSock = .connected) : d.backGroundProcess = (none, d) ∨
      ∃ p rest, packets = p :: rest ∧ d.backGroundProcess.1 = some (packetOf p.bytes) ∧
        Downward d.backGroundProcess.2 sending rest := by
  rcases h.underWay hsock with ⟨queue, hids, hqueue, hpackets⟩
  refine h.inv.backGroundProcess_cases.imp_right ?_
  rintro ⟨f, hf, heq⟩
  cases queue with
  | nil =>
    rw [List.map_nil, List.drop_eq_nil_iff] at hqueue
    have hlt := (List.getElem?_eq_some_iff.mp hf).1
    omega
  | cons p queue =>
    have hnext := congrArg List.head? hqueue
    rw [List.head?_drop, hf] at hnext
    obtain rfl : f = p.bytes := Option.some.inj hnext
    have hid : (packetOf p.bytes).packetID ≠ 0 := by
      rw [ChatForm.packetID_packetOf]
      exact fun hzero => hids p List.mem_cons_self (congrArg Int16.toUInt16 hzero)
    have hinv := h.inv.backGroundProcess
    rw [heq] at hinv ⊢
    refine ⟨p, queue ++ sending, hpackets, if_pos hid, hinv, fun _ => ?_⟩
    refine ⟨queue, fun q hq => hids q (List.mem_cons_of_mem p hq), ?_, rfl⟩
    change List.drop (d.dequeued + 1) (d.messages d.clientInfo.connections) = _
    rw [← List.tail_drop, hqueue]
    rfl

end Downward
end Client
end ChatServer
