import ChatServer.Client.ChatNetwork

/-! # The chat over bytes refines the chat of requests and packets

Each step of the network is a click, the processing of one request, of one message or of
one packet, or it is not seen: it moves what is under way.
-/

namespace ChatServer
open Recorded Server

variable {n m : ℕ} {δ : Type*}

/-! ## Servers that differ in their receive buffers -/

namespace Client

variable {env : Env δ} {s s' : Server n m δ} {c d : Fin n}

theorem loggedIn_updateUser {f : User → User} (hc : LoggedIn s c)
    (h : LoggedIn (s.updateUser c f) d) : LoggedIn s d := by
  by_cases hd : d = c
  · rw [hd]
    exact hc
  · rwa [LoggedIn, updateUser_other _ _ _ hd] at h

/-- Nobody logs in with what is posted in the lobby or in a room. -/
theorem loggedIn_of_effect (ht : s.TablesOk) {p : Posted} {packetSize : UInt16} {bytes : Bytes}
    {out : List (Sent n)}
    (he : Effect env s (.frame c (PacketHeader.read p.frame).packetId packetSize bytes) s' out)
    (h : LoggedIn s' d) : LoggedIn s d := by
  cases he with
  | ignored | accountCreated | loginRefused | lobbyInfo | roomInfo | chatRefused | chat => exact h
  | loggedIn hf =>
    have hcode := ht.packetId_of_handler hf rfl
    rw [p.read_frame_packetId] at hcode
    exact absurd hcode (p.code_packetId_ne (by decide))
  | enterRefused hf => exact loggedIn_updateUser (.inl (ht.mState_of_handler hf rfl)) h
  | entered hf =>
    have hc : LoggedIn s c := .inl (ht.mState_of_handler hf rfl)
    exact loggedIn_updateUser (s := s.setRoom _ _ _) hc h
  | leaveRefused hf => exact loggedIn_updateUser (.inr (ht.mState_of_handler hf rfl)) h
  | left hf =>
    have hc : LoggedIn s c := .inr (ht.mState_of_handler hf rfl)
    exact loggedIn_updateUser (s := s.setRoom _ _ _) hc h

end Client

namespace System

variable {env : Env δ} {s s' : System n m δ} {a : Action n}

theorem setBuffer_withBuffers (s : Server n m δ) (i : Fin n) (buffer : ReceiveBuffer)
    (b : Fin n → ReceiveBuffer) : (s.setBuffer i buffer).withBuffers b = s.withBuffers b := by
  have hpool : (fun j => ((s.setBuffer i buffer).mUserObjPool j).withBuffer (b j)) =
      fun j => (s.mUserObjPool j).withBuffer (b j) := by
    funext j
    rw [Server.setBuffer, updateUser_apply]
    split_ifs with hj
    · rw [hj]
      rfl
    · rfl
  simp only [withBuffers, hpool]
  rfl

/-- Steps in which no connection is opened or closed -/
def KeepsConnections : Action n → Prop
  | .acceptCompletion .. | .close _ => False
  | _ => True

/-- Steps in which no frame is passed to a handler -/
def PassesNothing : Action n → Prop
  | .processRecvPacket _ => False
  | _ => True

/-- No system packet is queued or about to be. -/
structure NoSystemPackets (s : System n m δ) : Prop where
  queue : s.mSystemPacketQueue = []
  workers : ∀ w ∈ s.workers, ∃ i connection, w = .enqueuePacketData i connection

theorem NoSystemPackets.step (h : s.NoSystemPackets) (ht : Transition env s a s')
    (ha : KeepsConnections a) : s'.NoSystemPackets := by
  cases ht with
  | accepted | closed => exact absurd ha not_false
  | received =>
    refine ⟨h.queue, List.forall_mem_append.mpr ⟨h.workers, ?_⟩⟩
    exact List.forall_mem_singleton.mpr ⟨_, _, rfl⟩
  | pushed hworker =>
    rcases h.workers _ (List.mem_of_getElem? hworker) with ⟨i, connection, hw⟩
    cases hw
  | enqueued =>
    exact ⟨h.queue, fun w hw => h.workers w (List.mem_of_mem_eraseIdx hw)⟩
  | noNotification | noFrame | frame | processed | noSystemPacket => exact ⟨h.queue, h.workers⟩
  | systemPacket hphase hqueue =>
    rw [h.queue] at hqueue
    cases hqueue

/-- Without system packets, only `ProcessRecvPacket` changes more than receive buffers. -/
theorem withBuffers_of_transition (ht : Transition env s a s') (hqueue : s.mSystemPacketQueue = [])
    (ha : PassesNothing a) (b : Fin n → ReceiveBuffer) :
    s'.server.withBuffers b = s.server.withBuffers b := by
  cases ht with
  | accepted | closed | pushed | enqueued | noNotification | noSystemPacket => rfl
  | received | noFrame | frame => exact setBuffer_withBuffers _ _ _ _
  | processed => exact absurd ha not_false
  | systemPacket hphase hsystem =>
    rw [hqueue] at hsystem
    cases hsystem

theorem sent_eq_nil (hqueue : s.mSystemPacketQueue = []) (ha : PassesNothing a) :
    s.sent env a = [] := by
  cases a with
  | processRecvPacket behind => exact absurd ha not_false
  | dequeSystemPacketData => rw [sent, hqueue]
  | acceptCompletion | setPacketData | close | resume | dequePacketData => rfl

theorem passed_eq_none (i : Fin n) (ha : PassesNothing a) :
    s.passed i a = none := by
  cases a with
  | processRecvPacket behind => exact absurd ha not_false
  | acceptCompletion | setPacketData | close | resume | dequePacketData |
    dequeSystemPacketData => rfl

end System

namespace Client

/-! ## The relation -/

/-- The refined system has the same server apart from its receive buffers, the same forms
with what is under way put back, and the packets under way as a queue. -/
structure Related (ν : ChatNetwork n m δ) (σ : ChatRooms n m δ) : Prop where
  server : ∃ b, σ.server = ν.system.server.withBuffers b
  tables : ν.system.server.TablesOk
  systemPackets : ν.system.NoSystemPackets
  framed : ∀ x ∈ ν.sending, Framed x
  clients : ∀ c, LoggedIn ν.system.server c → ν.HasClient c
  upward : ∀ c, Upward c ν.system (ν.uplink c) (ν.form c) (σ.form c)
  downward : ∀ c, Downward (ν.downlink c) (sentTo ν.sending c) (σ.packets c)

namespace Related

variable {ν ν' : ChatNetwork n m δ} {σ σ' : ChatRooms n m δ} {env : Env δ} {c : Fin n}
  {a : ChatServer.Action n}

/-- What is under way to and from one client changes. -/
theorem client (h : Related ν σ) (c : Fin n) (hsystem : ν'.system = ν.system)
    (hserver : σ'.server = σ.server) (hsending : ν'.sending ⊆ ν.sending)
    (hothers : ∀ d ≠ c, ν'.form d = ν.form d ∧ ν'.uplink d = ν.uplink d ∧
      ν'.downlink d = ν.downlink d ∧ sentTo ν'.sending d = sentTo ν.sending d ∧
        σ'.form d = σ.form d ∧ σ'.packets d = σ.packets d)
    (hclient : ν.HasClient c → ν'.HasClient c)
    (hup : Upward c ν.system (ν'.uplink c) (ν'.form c) (σ'.form c))
    (hdown : Downward (ν'.downlink c) (sentTo ν'.sending c) (σ'.packets c)) : Related ν' σ' := by
  rcases h.server with ⟨b, hb⟩
  refine ⟨⟨b, ?_⟩, ?_, ?_, fun x hx => h.framed x (hsending hx), fun d hd => ?_, fun d => ?_,
    fun d => ?_⟩
  · rw [hserver, hsystem, hb]
  · rw [hsystem]
    exact h.tables
  · rw [hsystem]
    exact h.systemPackets
  · rw [hsystem] at hd
    by_cases hdc : d = c
    · subst hdc
      exact hclient (h.clients d hd)
    · rw [ChatNetwork.HasClient, (hothers d hdc).2.2.1]
      exact h.clients d hd
  · rw [hsystem]
    by_cases hdc : d = c
    · rw [hdc]
      exact hup
    · rcases hothers d hdc with ⟨hform, huplink, -, -, hform', -⟩
      rw [hform, huplink, hform']
      exact h.upward d
  · by_cases hdc : d = c
    · rw [hdc]
      exact hdown
    · rcases hothers d hdc with ⟨-, -, hdownlink, hsent, -, hpackets⟩
      rw [hdownlink, hsent, hpackets]
      exact h.downward d

/-- A step of the server that passes no request to its handler -/
theorem serverStep (h : Related ν σ) {system : System n m δ} {uplink : Fin n → Bytes}
    (hstep : ν.system.step env a = some system) (hkeeps : System.KeepsConnections a)
    (ha : System.PassesNothing a)
    (hintime : System.ReceivesInTime ⟨ν.system, a, system⟩)
    (huplink : ∀ c, ν.uplink c = System.stored c a ++ uplink c) :
    Related { ν with system := system, uplink := uplink } σ := by
  have ht := System.transition_of_step hstep
  have hbuffers := System.withBuffers_of_transition ht h.systemPackets.queue ha
  rcases h.server with ⟨b, hb⟩
  refine ⟨⟨b, ?_⟩, ?_, h.systemPackets.step ht hkeeps, h.framed, fun c hc => ?_, fun c => ?_,
    h.downward⟩
  · rw [hb, hbuffers]
  · have htables : (ν.system.server.withBuffers b).TablesOk := h.tables
    rw [← hbuffers] at htables
    exact htables
  · have hlogged : LoggedIn (system.server.withBuffers b) c := hc
    rw [hbuffers] at hlogged
    exact h.clients c hlogged
  · rcases (h.upward c).step ht h.systemPackets.queue hintime (huplink c) with ⟨queue, hqueue, hup⟩
    rw [System.passed_eq_none c ha, Option.toList_none, List.nil_append] at hqueue
    rw [← hqueue] at hup
    exact hup

/-- The same without bytes from a stream -/
theorem systemStep (h : Related ν σ) (hstep : ν.systemStep env a = some ν')
    (hkeeps : System.KeepsConnections a) (ha : System.PassesNothing a)
    (hintime : ∀ system, System.ReceivesInTime ⟨ν.system, a, system⟩)
    (hstored : ∀ c, System.stored c a = []) : Related ν' σ := by
  rcases Option.map_eq_some_iff.mp hstep with ⟨system, hsystem, rfl⟩
  rw [System.sent_eq_nil h.systemPackets.queue ha, List.append_nil]
  apply h.serverStep hsystem hkeeps ha (hintime system)
  intro c
  rw [hstored c, List.nil_append]

/-- The frame in hand is what its client has posted next in the refined system. -/
theorem inHand (h : Related ν σ) {v : PacketView} (hv : ν.system.frameInHand c = some v)
    (behind : Bytes) : ∃ (p : Posted) (queue : List Bytes),
      ν.system.frameBytes c v = p.frame ∧ (σ.form c).sendPacketQueue = p.frame :: queue ∧
        v.packetId = (PacketHeader.read p.frame).packetId ∧
          ∀ env : Env δ, ν.system.server.processEvent env (.frame c v.packetId v.dataSize
            ((ν.system.buffer c).memoryFrom v.pDataPtr behind)) =
              ν.system.server.processEvent env (frameEvent c p.frame) := by
  rcases (h.upward c).inHand hv with ⟨p, queue, hframe, hqueue, hhand⟩
  rcases System.memoryFrom_inHand hhand hv behind with ⟨rest, hmemory, hid, hsize⟩
  rw [hframe] at hmemory hid hsize
  refine ⟨p, queue, hframe, hqueue, hid, fun env => ?_⟩
  rw [hmemory, hid, hsize]
  exact processEvent_append h.tables env c p rest

/-- A request or a message is processed. -/
theorem processRecvPacket (h : Related ν σ) (hsending : ν.sending = []) {v : PacketView}
    {behind : Bytes} (hphase : ν.system.phase = .processRecvPacket c v)
    (hstep : ν.systemStep env (.processRecvPacket behind) = some ν') :
    ∃ σ', σ.step env (.dispatch c) = some σ' ∧ Related ν' σ' := by
  rcases Option.map_eq_some_iff.mp hstep with ⟨system, hsystem, rfl⟩
  have ht := System.transition_of_step hsystem
  simp only [System.step, hphase] at hsystem
  rcases Option.map_eq_some_iff.mp hsystem with ⟨⟨server, out⟩, hevent, rfl⟩
  have hout : ν.system.sent env (.processRecvPacket behind) = out := by
    simp only [System.sent, hphase, Server.sent, hevent]
    rfl
  have hv : ν.system.frameInHand c = some v := by
    simp only [System.frameInHand, hphase, if_true]
  rcases h.inHand hv behind with ⟨p, queue, hframe, hqueue, -, hsame⟩
  rw [hsame env] at hevent
  have he := effect_of_processEvent hevent
  rcases h.server with ⟨b, hb⟩
  have hserved : σ.server.processEvent env (frameEvent c p.frame) =
      some (server.withBuffers b, out) := by
    rw [hb, frameEvent, processEvent_withBuffers, ← frameEvent, hevent]
    rfl
  have hdispatch : σ.step env (.dispatch c) = some
      { server := server.withBuffers b
        form := Function.update σ.form c { σ.form c with sendPacketQueue := queue }
        packets := fun d => σ.packets d ++ sentTo out d } := by
    simp only [ChatRooms.step, hqueue, hserved, Option.map_some]
  refine ⟨_, hdispatch, ⟨b, rfl⟩, h.tables.effect he, h.systemPackets.step ht trivial, ?_,
    fun d hd => ?_, fun d => ?_, fun d => ?_⟩
  · rw [hsending, hout, List.nil_append]
    exact he.framed
  · exact h.clients d (loggedIn_of_effect h.tables he hd)
  · have huplink : ν.uplink d = System.stored d (.processRecvPacket behind) ++ ν.uplink d := rfl
    rcases (h.upward d).step ht h.systemPackets.queue trivial huplink with ⟨queue', hqueue', hup⟩
    by_cases hdc : d = c
    · subst hdc
      have hpassed : ν.system.passed d (.processRecvPacket behind) = some p.frame := by
        rw [System.passed, hv, Option.map_some, hframe]
      rw [hpassed, hqueue] at hqueue'
      obtain rfl := (List.cons.inj hqueue').2
      simp only [Function.update_self]
      exact hup
    · have hpassed : ν.system.passed d (.processRecvPacket behind) = none := by
        simp [System.passed, System.frameInHand, hphase, Ne.symm hdc]
      rw [hpassed, Option.toList_none, List.nil_append] at hqueue'
      rw [← hqueue'] at hup
      simp only [Function.update_of_ne hdc]
      exact hup
  · have hdown := h.downward d
    rw [hsending] at hdown
    rw [hsending, hout]
    exact hdown.send (sentTo out d)

/-- A form posts, or processes a packet. -/
theorem posts (h : Related ν σ) {f : ChatForm → Option ChatForm} (hf : ChatForm.Posts f)
    {form : ChatForm}
    (hform : f (ν.form c) = some form) : ∃ form', f (σ.form c) = some form' ∧
      Upward c ν.system (ν.uplink c) form form' := (h.upward c).posts hf hform

/-- A button -/
theorem button (h : Related ν σ) {f : ChatForm → Option ChatForm} (hf : ChatForm.Posts f)
    (hstep : (f (ν.form c)).map (fun form =>
      { ν with form := Function.update ν.form c form }) = some ν') :
    ∃ σ', (f (σ.form c)).map (fun form =>
      { σ with form := Function.update σ.form c form }) = some σ' ∧ Related ν' σ' := by
  rcases Option.map_eq_some_iff.mp hstep with ⟨form, hform, rfl⟩
  rcases h.posts hf hform with ⟨form', hform', hup⟩
  refine ⟨{ σ with form := Function.update σ.form c form' }, ?_, ?_⟩
  · rw [hform', Option.map_some]
  · refine h.client c rfl rfl (List.Subset.refl _) (fun d hd => by simp [hd]) id ?_
      (h.downward c)
    simpa using hup

theorem click (h : Related ν σ) {button : Button}
    (hstep : ν.step env (.click c button) = some ν') :
    ∃ σ', σ.step env (.click c button) = some σ' ∧ Related ν' σ' := by
  simp only [ChatNetwork.step, Option.ite_none_right_eq_some] at hstep
  exact h.button (ChatForm.posts_click button) hstep.2

theorem chatSend (h : Related ν σ) {chatBox : String}
    (hstep : ν.step env (.chatSend c chatBox) = some ν') :
    ∃ σ', σ.step env (.chatSend c chatBox) = some σ' ∧ Related ν' σ' := by
  simp only [ChatNetwork.step, Option.ite_none_right_eq_some] at hstep
  exact h.button (ChatForm.posts_chatSendClick chatBox) hstep.2

/-- A tick passes the next packet to its handler, or finds none. -/
theorem backGroundProcess (h : Related ν σ) (hstep : ν.step env (.backGroundProcess c) = some ν') :
    (ν.downlink c).backGroundProcess.1 = none ∧ Related ν' σ ∨
      (ν.downlink c).backGroundProcess.1 ≠ none ∧
        ∃ σ', σ.step env (.process c) = some σ' ∧ Related ν' σ' := by
  simp only [ChatNetwork.step, Option.ite_none_right_eq_some] at hstep
  rcases hstep with ⟨hsock, hstep⟩
  rcases (h.downward c).backGroundProcess hsock with heq | ⟨p, rest, hpackets, hpacket, hdown⟩
  · left
    rw [heq] at hstep ⊢
    simp only [Option.elim_none, Option.map_some, Function.update_eq_self, Option.some.injEq] at hstep
    exact ⟨rfl, hstep ▸ h⟩
  · right
    rw [hpacket] at hstep ⊢
    rw [Option.elim_some, ChatForm.packetProcessData_packetOf] at hstep
    rcases Option.map_eq_some_iff.mp hstep with ⟨form, hform, rfl⟩
    rcases h.posts (ChatForm.posts_packetProcess p) hform with ⟨form', hform', hup⟩
    have hprocess : σ.step env (.process c) = some { σ with
        form := Function.update σ.form c form'
        packets := Function.update σ.packets c rest } := by
      simp only [ChatRooms.step, hpackets, hform', Option.map_some]
    refine ⟨Option.some_ne_none _, _, hprocess, ?_⟩
    refine h.client c rfl rfl (List.Subset.refl _) (fun d hd => by simp [hd]) ?_ ?_ ?_
    · intro hclient
      simpa [ChatNetwork.HasClient, clientInfo_backGroundProcess] using hclient
    · simpa using hup
    · simpa using hdown

/-! ### Steps that are not seen -/

/-- `NetworkSendProcess` writes a frame to the stream. -/
theorem networkSendProcess (h : Related ν σ)
    (hstep : ν.step env (.networkSendProcess c) = some ν') : Related ν' σ := by
  rw [ChatNetwork.step] at hstep
  cases hqueue : (ν.form c).sendPacketQueue with
  | nil => simp [hqueue] at hstep
  | cons frame queue =>
    simp only [hqueue, Option.ite_none_right_eq_some, Option.some.injEq] at hstep
    rcases hstep with ⟨-, rfl⟩
    have hup := (h.upward c).send hqueue
    refine h.client c rfl rfl (List.Subset.refl _) (fun d hd => by simp [hd]) id ?_
      (h.downward c)
    simpa using hup

/-- A worker receives bytes of the stream. -/
theorem setPacketData (h : Related ν σ) {nRecv : ℕ}
    (hstep : ν.step env (.setPacketData c nRecv) = some ν')
    (hcarries : ν.Carries (.setPacketData c nRecv)) : Related ν' σ := by
  simp only [ChatNetwork.step, Option.ite_none_right_eq_some] at hstep
  rcases Option.map_eq_some_iff.mp hstep.2 with ⟨ν₁, hν₁, rfl⟩
  rcases Option.map_eq_some_iff.mp hν₁ with ⟨system, hsystem, rfl⟩
  have hsent : ν.system.sent env (ν.receive c nRecv) = [] := rfl
  rw [hsent, List.append_nil]
  refine h.serverStep hsystem trivial trivial hcarries ?_
  intro d
  by_cases hdc : d = c
  · subst hdc
    simp [ChatNetwork.receive, System.stored]
  · simp [ChatNetwork.receive, System.stored, hdc, Ne.symm hdc]

/-- One event of the connection of a client -/
theorem downlinkStep (h : Related ν σ) {e : DownlinkEvent} (sending : List (Sent n))
    (hstep : ν.downlinkStep c e = some ν') (hsending : sending ⊆ ν.sending)
    (hothers : ∀ d ≠ c, sentTo sending d = sentTo ν.sending d)
    (hsock : ∀ d, (ν.downlink c).step (ν.downlink c).clientInfo.connections e = some d →
      d.clientInfo.mSock = (ν.downlink c).clientInfo.mSock)
    (hdown : ∀ d, (ν.downlink c).step (ν.downlink c).clientInfo.connections e = some d →
      Downward d (sentTo sending c) (σ.packets c)) :
    Related { ν' with sending := sending } σ := by
  rcases Option.map_eq_some_iff.mp hstep with ⟨downlink, hdownlink, rfl⟩
  refine h.client c rfl rfl hsending (fun d hd => by simp [hd, hothers d hd]) ?_ ?_ ?_
  · intro hclient
    have hsame := hsock downlink hdownlink
    simpa [ChatNetwork.HasClient, hsame] using hclient
  · exact h.upward c
  · simpa using hdown downlink hdownlink

theorem sendMsg (h : Related ν σ) {result : WSAResult}
    (hstep : ν.step env (.sendMsg result) = some ν') (hcarries : ν.Carries (.sendMsg result)) :
    Related ν' σ := by
  rw [ChatNetwork.step] at hstep
  cases hsending : ν.sending with
  | nil => simp [hsending] at hstep
  | cons x rest =>
    simp only [hsending] at hstep
    rcases Option.map_eq_some_iff.mp hstep with ⟨ν₁, hdownlink, rfl⟩
    rcases hcarries x (by rw [hsending]; rfl) with ⟨hkeeps, hshort⟩
    have hsent (d : Fin n) : sentTo ν.sending d =
        (if d = x.clientIndex then [x.packet] else []) ++ sentTo rest d := by
      rw [hsending, ← List.singleton_append, sentTo_append, sentTo_singleton]
    apply h.downlinkStep rest hdownlink
    · rw [hsending]
      exact List.subset_cons_self x rest
    · intro d hd
      rw [hsent, if_neg hd, List.nil_append]
    · intro d hd
      rcases Option.map_eq_some_iff.mp hd with ⟨c', hc, rfl⟩
      exact (ClientInfo.sendMsg_socket hc).1
    · intro d hd
      have hdown := h.downward x.clientIndex
      rw [hsent, if_pos rfl] at hdown
      exact hdown.sendMsg (h.framed x (by simp [hsending])) hd hkeeps hshort

theorem sendCompletion (h : Related ν σ) {op : OverlappedEx} {result : WSAResult}
    (hstep : ν.step env (.sendCompletion c op result) = some ν')
    (hcarries : ν.Carries (.sendCompletion c op result)) : Related ν' σ := by
  have hrelated := h.downlinkStep ν.sending hstep (List.Subset.refl _)
    (fun _ _ => rfl) (fun d hd => ?_) fun d hd => (h.downward c).sendCompletion hd hcarries
  · rcases Option.map_eq_some_iff.mp hstep with ⟨downlink, -, rfl⟩
    exact hrelated
  · rcases Option.map_eq_some_iff.mp hd with ⟨c', hc, rfl⟩
    exact (ClientInfo.sendCompletion_socket hc).1

theorem networkReadProcess (h : Related ν σ) {nRecv : ℕ}
    (hstep : ν.step env (.networkReadProcess c nRecv) = some ν')
    (hcarries : ν.Carries (.networkReadProcess c nRecv)) : Related ν' σ := by
  simp only [ChatNetwork.step, Option.ite_none_right_eq_some] at hstep
  have hrelated := h.downlinkStep ν.sending hstep.2 (List.Subset.refl _)
    (fun _ _ => rfl) (fun d hd => ?_) fun d hd => (h.downward c).networkReadProcess hd hcarries
  · rcases Option.map_eq_some_iff.mp hstep.2 with ⟨downlink, -, rfl⟩
    exact hrelated
  · simp only [Downlink.step, Option.ite_none_right_eq_some] at hd
    rcases Option.map_eq_some_iff.mp hd.2 with ⟨thread, -, rfl⟩
    rfl

end Related

/-- The server of the system that has neither boxes nor streams -/
theorem Related.chatSystem_server {ν : ChatNetwork n m δ} {σ : ChatRooms n m δ} (h : Related ν σ) :
    ∃ b, σ.chatSystem.server = ν.system.server.withBuffers b := h.server

/-- No packet is on its way to a client that is at rest. -/
theorem Related.packets {ν : ChatNetwork n m δ} {σ : ChatRooms n m δ} {c : Fin n}
    (h : Related ν σ) (hclient : ν.HasClient c) (hsent : sentTo ν.sending c = [])
    (hrest : (ν.downlink c).AtRest (ν.downlink c).clientInfo.connections) :
    σ.packets c = [] := by
  have hdown := h.downward c
  rcases hdown.underWay hclient with ⟨queue, -, hqueue, hpackets⟩
  rw [hdown.inv.dequeued_of_atRest hrest, List.drop_length, eq_comm, List.map_eq_nil_iff] at hqueue
  rw [hpackets, hqueue, hsent]
  rfl

/-! ## Runs -/

namespace ChatNetwork

variable {ν ν' : ChatNetwork n m δ} {σ : ChatRooms n m δ} {env : Env δ} {a : NetworkAction n}

/-- The step of the refined system that a step of the network is -/
def roomAction (e : Entry (ChatNetwork n m δ) (NetworkAction n)) : Option (RoomAction n) :=
  match e.act with
  | .click c button => some (.click c button)
  | .chatSend c chatBox => some (.chatSend c chatBox)
  | .processRecvPacket _ =>
    match e.pre.system.phase with
    | .processRecvPacket c _ => some (.dispatch c)
    | _ => none
  | .backGroundProcess c => (e.pre.downlink c).backGroundProcess.1.map fun _ => .process c
  | _ => none

/-- The steps that are seen -/
inductive Seen (ν : ChatNetwork n m δ) : NetworkAction n → RoomAction n → Prop
  | click (c : Fin n) (button : Button) : Seen ν (.click c button) (.click c button)
  | chatSend (c : Fin n) (chatBox : String) : Seen ν (.chatSend c chatBox) (.chatSend c chatBox)
  | dispatch (behind : Bytes) (c : Fin n) (v : PacketView)
      (hphase : ν.system.phase = .processRecvPacket c v) :
      Seen ν (.processRecvPacket behind) (.dispatch c)
  | process (c : Fin n) (hpacket : (ν.downlink c).backGroundProcess.1 ≠ none) :
      Seen ν (.backGroundProcess c) (.process c)

theorem seen_of_roomAction {b : RoomAction n} (ha : roomAction ⟨ν, a, ν'⟩ = some b) :
    Seen ν a b := by
  cases a with
  | click c button =>
    obtain rfl := Option.some.inj ha
    exact .click c button
  | chatSend c chatBox =>
    obtain rfl := Option.some.inj ha
    exact .chatSend c chatBox
  | processRecvPacket behind =>
    cases hphase : ν.system.phase with
    | processRecvPacket c v =>
      simp only [roomAction, hphase, Option.some.injEq] at ha
      subst ha
      exact .dispatch behind c v hphase
    | dequePacketData | dequeSystemPacketData => simp [roomAction, hphase] at ha
  | backGroundProcess c =>
    rcases Option.map_eq_some_iff.mp ha with ⟨packet, hpacket, rfl⟩
    exact .process c (Option.ne_none_iff_exists'.mpr ⟨packet, hpacket⟩)
  | networkSendProcess | setPacketData | resume | dequePacketData | dequeSystemPacketData |
    sendMsg | sendCompletion | networkReadProcess => cases ha

/-- The frame in hand is the next one of the refined system. -/
theorem next_frame (h : Related ν σ) {c : Fin n}
    (hb : roomAction ⟨ν, a, ν'⟩ = some (.dispatch c)) : ∃ behind v frame,
      a = .processRecvPacket behind ∧ ν.system.phase = .processRecvPacket c v ∧
        (σ.form c).sendPacketQueue.head? = some frame ∧ ν.system.frameBytes c v = frame ∧
          (PacketHeader.read frame).packetId = v.packetId := by
  cases seen_of_roomAction hb with
  | dispatch behind c v hphase =>
    have hv : ν.system.frameInHand c = some v := by
      simp only [System.frameInHand, hphase, if_true]
    rcases h.inHand hv behind with ⟨p, queue, hframe, hqueue, hid, -⟩
    exact ⟨behind, v, p.frame, rfl, hphase, by rw [hqueue]; rfl, hframe, hid.symm⟩

/-- A step without a step of the refined system -/
theorem stutter (h : Related ν σ) (hstep : ν.step env a = some ν') (hcarries : ν.Carries a)
    (ha : roomAction ⟨ν, a, ν'⟩ = none) : Related ν' σ := by
  cases a with
  | click c button => cases ha
  | chatSend c chatBox => cases ha
  | networkSendProcess c => exact h.networkSendProcess hstep
  | setPacketData c nRecv => exact h.setPacketData hstep hcarries
  | resume worker => exact h.systemStep hstep trivial trivial (fun _ => trivial) fun _ => rfl
  | dequePacketData =>
    simp only [step, Option.ite_none_right_eq_some] at hstep
    exact h.systemStep hstep.2 trivial trivial (fun _ => trivial) fun _ => rfl
  | processRecvPacket behind =>
    simp only [step, Option.ite_none_right_eq_some] at hstep
    rcases Option.map_eq_some_iff.mp hstep.2 with ⟨system, hsystem, -⟩
    cases hphase : ν.system.phase with
    | processRecvPacket c v => simp [roomAction, hphase] at ha
    | dequePacketData | dequeSystemPacketData => simp [System.step, hphase] at hsystem
  | dequeSystemPacketData =>
    simp only [step, Option.ite_none_right_eq_some] at hstep
    exact h.systemStep hstep.2 trivial trivial (fun _ => trivial) fun _ => rfl
  | sendMsg result => exact h.sendMsg hstep hcarries
  | sendCompletion c op result => exact h.sendCompletion hstep hcarries
  | networkReadProcess c nRecv => exact h.networkReadProcess hstep hcarries
  | backGroundProcess c =>
    rcases h.backGroundProcess hstep with ⟨-, hrelated⟩ | ⟨hpacket, -⟩
    · exact hrelated
    · exact absurd (Option.map_eq_none_iff.mp ha) hpacket

/-- A step that is one of the refined system -/
theorem simulates (h : Related ν σ) (hstep : ν.step env a = some ν') {b : RoomAction n}
    (ha : roomAction ⟨ν, a, ν'⟩ = some b) : ∃ σ', σ.step env b = some σ' ∧ Related ν' σ' := by
  cases seen_of_roomAction ha with
  | click c button => exact h.click hstep
  | chatSend c chatBox => exact h.chatSend hstep
  | dispatch behind c v hphase =>
    simp only [step, Option.ite_none_right_eq_some] at hstep
    exact h.processRecvPacket hstep.1 hphase hstep.2
  | process c hpacket =>
    rcases h.backGroundProcess hstep with ⟨hnone, -⟩ | ⟨-, hsimulated⟩
    · exact absurd hnone hpacket
    · exact hsimulated

/-- Nothing is on its way, and nobody is about to connect or to disconnect. -/
structure AtRest (ν : ChatNetwork n m δ) : Prop where
  tables : ν.system.server.TablesOk
  systemPackets : ν.system.NoSystemPackets
  sending : ν.sending = []
  clients : ∀ c, LoggedIn ν.system.server c → ν.HasClient c
  uplink : ∀ c, ν.uplink c = [] ∧ ν.system.Settled c
  buffer : ∀ c, (ν.system.buffer c).Valid ∧ (ν.system.buffer c).unread = []
  posted : ∀ c, ∃ posted : List Posted, (ν.form c).sendPacketQueue = posted.map Posted.frame
  downlink : ∀ c, (ν.downlink c).Inv (ν.downlink c).clientInfo.connections ∧ (ν.HasClient c →
    (ν.downlink c).dequeued =
      ((ν.downlink c).messages (ν.downlink c).clientInfo.connections).length)

/-- A network at rest is the refined system without packets. -/
theorem AtRest.related (h : AtRest ν) : Related ν ν.chatRooms where
  server := ⟨fun i => (ν.system.server.mUserObjPool i).toReceiveBuffer, rfl⟩
  tables := h.tables
  systemPackets := h.systemPackets
  framed x hx := by
    rw [h.sending] at hx
    exact absurd hx List.not_mem_nil
  clients := h.clients
  upward c := by
    rcases h.posted c with ⟨posted, hposted⟩
    refine ⟨posted, [], SlotLog.start, [], hposted, ?_, rfl⟩
    rw [(h.uplink c).1]
    exact System.uplink_of_settled (h.buffer c).1 (h.buffer c).2 (h.uplink c).2
  downward c := by
    refine ⟨(h.downlink c).1, fun hsock => ⟨[], List.forall_mem_nil _, ?_, ?_⟩⟩
    · rw [(h.downlink c).2 hsock, List.drop_length]
      rfl
    · rw [h.sending]
      rfl

/-- All slots are connected, and what was sent during the logins has arrived. -/
def ofServer (s : Server n m δ) : ChatNetwork n m δ where
  system := { System.init s with connection := fun _ => 1, isOpen := fun _ => true }
  sending := []
  form := (ChatRooms.ofServer s).form
  uplink _ := []
  downlink _ := { Downlink.init with
    clientInfo := { ClientInfo.init with mSock := .connected, connections := 1 } }

theorem atRest_ofServer {s : Server n m δ} (ht : s.TablesOk)
    (hbuffers : ∀ c, (s.mUserObjPool c).Valid ∧ (s.mUserObjPool c).unread = []) :
    AtRest (ofServer s) where
  tables := ht
  systemPackets := ⟨rfl, List.forall_mem_nil _⟩
  sending := rfl
  clients _ _ := rfl
  uplink _ := ⟨rfl, rfl, rfl⟩
  buffer := hbuffers
  posted c := by
    by_cases hc : LoggedIn s c
    · exact ⟨[.request .lobbyInfo], congrArg Form1.sendPacketQueue (if_pos hc)⟩
    · exact ⟨[], congrArg Form1.sendPacketQueue (if_neg hc)⟩
  downlink _ := by
    have hinit := Downlink.init_inv 1
    refine ⟨⟨?_, hinit.messages, hinit.taken_le, hinit.reader⟩, fun _ => rfl⟩
    exact ClientInfo.init_inv.postAccept.acceptCompletion (.inl rfl)

/-- A run of the network matches one of the refined system. -/
theorem matching {ν₀ : ChatNetwork n m δ} {σ₀ : ChatRooms n m δ}
    {past : List (Entry (ChatNetwork n m δ) (NetworkAction n))} (h : Related ν₀ σ₀)
    (run : Run (step env) ν₀ past ν) (carries : ∀ e ∈ past, e.pre.Carries e.act) :
    ∃ past' σ, Run (ChatRooms.step env) σ₀ past' σ ∧
      Matching Related roomAction ν₀ σ₀ past ν past' σ :=
  run.simulation (C := fun e => e.pre.Carries e.act) h
    (fun _ _ _ _ h hstep hcarries ha => stutter h hstep hcarries ha)
    (fun _ _ _ _ _ h hstep _ ha => simulates h hstep ha) carries

/-- Whatever the threads of the server and the clients do and however the bytes are cut,
the clicks, the messages that are typed, the frames that are processed and the packets that
are processed, in their order, are a run of the system in which frames and packets are
passed on whole. -/
theorem refines_chatRooms (env : Env δ) {ν₀ : ChatNetwork n m δ}
    {past : List (Entry (ChatNetwork n m δ) (NetworkAction n))} (start : AtRest ν₀)
    (run : Run (step env) ν₀ past ν) (carries : ∀ e ∈ past, e.pre.Carries e.act) :
    ∃ past' σ, Run (ChatRooms.step env) ν₀.chatRooms past' σ ∧ Related ν σ ∧
      past'.map Entry.act = past.filterMap roomAction ∧
      ∀ e' ∈ past', ∃ e ∈ past, Related e.pre e'.pre ∧ roomAction e = some e'.act := by
  rcases matching start.related run carries with ⟨past', σ, run', hmatch⟩
  exact ⟨past', σ, run', hmatch.related, hmatch.acts, hmatch.exists_entry⟩

/-- The receive buffers stay empty while requests reach the server whole. -/
theorem buffers_of_twoLogins {past : Server.History 2 10 Unit} {s : Server 2 10 Unit}
    (h : twoLogins = some (past, s)) (c : Fin 2) :
    (s.mUserObjPool c).Valid ∧ (s.mUserObjPool c).unread = [] := by
  apply (run_of_perform h).state_invariant
    (P := fun s => (s.mUserObjPool c).Valid ∧ (s.mUserObjPool c).unread = [])
  · exact ⟨⟨le_refl 0, Nat.zero_le _⟩, rfl⟩
  · intro s e s' hempty hstep
    have hbuffer := (effect_of_step hstep).toReceiveBuffer c
    rw [hbuffer]
    split_ifs
    · exact ⟨ReceiveBuffer.clear_valid _, ReceiveBuffer.unread_clear _⟩
    · exact hempty

/-- A run of the two forms over bytes that passes a test -/
theorem exists_run_over_bytes (actions : List (NetworkAction 2))
    (test : List (Entry (ChatNetwork 2 10 Unit) (NetworkAction 2)) → ChatNetwork 2 10 Unit → Bool)
    (h : twoLogins.any (fun r => (perform (step acceptingEnv) (ofServer r.2) actions).any
      fun r => test r.1 r.2) = true) :
    ∃ ν₀ past ν, ChatRooms.Start twoIds ν₀.chatRooms ∧ AtRest ν₀ ∧
      Run (step acceptingEnv) ν₀ past ν ∧ test past ν = true := by
  rcases (Option.any_eq_true _ _).mp h with ⟨⟨past₀, s⟩, hlogins, hrun⟩
  obtain ⟨past, ν, run, htest⟩ := exists_run (step acceptingEnv) (ofServer s) actions test hrun
  have ht : s.TablesOk := (run_of_perform hlogins).state_invariant (init_tablesOk 2 0 10 4 _ ())
    fun _ _ _ ht hstep => ht.step hstep
  exact ⟨ofServer s, past, ν, ChatRooms.start_ofServer (start_of_twoLogins hlogins),
    atRest_ofServer ht (buffers_of_twoLogins hlogins), run, htest⟩

/-- A client asks for the list of rooms. The request and the answer come in two chunks. -/
def listRooms (c : Fin 2) : List (NetworkAction 2) :=
  [.networkSendProcess c, .setPacketData c 3, .resume 0, .dequePacketData, .dequeSystemPacketData,
    .setPacketData c 2, .resume 0, .dequePacketData, .processRecvPacket [], .sendMsg .pending,
    .sendMsg .success, .dequeSystemPacketData, .networkReadProcess c 6,
    .sendCompletion c ⟨0, (ackPacket 0 .ackLobbyInfo .lobbyInfoSuccess).bytes, some 1⟩ .pending,
    .networkReadProcess c 50, .backGroundProcess c,
    .sendCompletion c ⟨1, (notifyLobbyInfoPacket 0 ((List.range 10).map Int32.ofNat)).bytes,
      some 1⟩ .pending, .backGroundProcess c]

/-- The client with the id a enters room 0; a tick of its timer finds nothing. -/
def visitRoom (c : Fin 2) : List (NetworkAction 2) :=
  [.click c (.roomEnterBtn 0), .networkSendProcess c, .backGroundProcess c, .setPacketData c 9,
    .resume 0, .dequePacketData, .processRecvPacket [], .sendMsg .success, .dequeSystemPacketData,
    .sendCompletion c ⟨2, (ackPacket 0 .ackRoomEnter .enterRoomSuccess).bytes, some 1⟩ .pending,
    .networkReadProcess c 7, .backGroundProcess c, .networkSendProcess c, .setPacketData c 5,
    .resume 0, .dequePacketData, .processRecvPacket [], .sendMsg .success, .dequeSystemPacketData,
    .sendCompletion c ⟨3, (ackRoomInfoPacket 0 [[97]]).bytes, some 1⟩ .pending,
    .networkReadProcess c 13, .backGroundProcess c]

/-- The client says hi in its room. The server receives the message in two chunks. -/
def sayHi (c : Fin 2) : List (NetworkAction 2) :=
  [.chatSend c "hi", .networkSendProcess c, .setPacketData c 256, .resume 0, .dequePacketData,
    .dequeSystemPacketData, .setPacketData c 6, .resume 0, .dequePacketData, .processRecvPacket [],
    .sendMsg .pending, .sendMsg .success, .dequeSystemPacketData, .networkReadProcess c 7,
    .sendCompletion c ⟨4, (ackPacket 0 .ackRoomChat .chatRoomSuccess).bytes, some 1⟩ .pending,
    .networkReadProcess c 100, .backGroundProcess c, .networkReadProcess c 173,
    .backGroundProcess c]

/-- Two clients list the rooms, one of them enters a room and says hi: 77 steps, of which
15 are seen. -/
theorem refines_chatRooms_of_two : ∃ (ν₀ ν : ChatNetwork 2 10 Unit)
    (past : List (Entry (ChatNetwork 2 10 Unit) (NetworkAction 2)))
    (σ : ChatRooms 2 10 Unit) (past' : List (Entry (ChatRooms 2 10 Unit) (RoomAction 2))),
    Run (step acceptingEnv) ν₀ past ν ∧ past.length = 77 ∧
      Run (ChatRooms.step acceptingEnv) ν₀.chatRooms past' σ ∧ past'.length = 15 ∧
        (σ.form 0).listBoxRoomChatMsg.length = 1 := by
  obtain ⟨ν₀, past, ν, -, start, run, h⟩ := exists_run_over_bytes
    (listRooms 0 ++ listRooms 1 ++ visitRoom 0 ++ sayHi 0)
    (fun past ν => past.length = 77 ∧ (past.filterMap roomAction).length = 15 ∧
      (ν.form 0).listBoxRoomChatMsg.length = 1 ∧ ∀ e ∈ past, e.pre.Carries e.act)
    (by decide +kernel)
  rcases of_decide_eq_true h with ⟨hlength, hseen, hbox, carries⟩
  rcases refines_chatRooms acceptingEnv start run carries with ⟨past', σ, run', hrelated, hacts, -⟩
  refine ⟨ν₀, ν, past, σ, past', run, hlength, run', ?_, ?_⟩
  · rw [← hseen, ← hacts, List.length_map]
  · rw [(hrelated.upward 0).listBoxRoomChatMsg, hbox]

end ChatNetwork
end Client
end ChatServer
