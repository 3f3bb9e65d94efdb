import ChatServer.Client.RoomView

/-! # Convergence of the user lists

Any number of clients use the lobby and the rooms of one server. A request waits in
`SendPacketQueue` until the server processes it, a packet waits in `packets` until its
client does; both queues keep their order, and the clients interleave freely.
-/

namespace ChatServer.Client
open Recorded Server

variable {n m : ℕ} {δ : Type*}

/-- The buttons that send the requests of the lobby and the rooms -/
inductive Button where
  | roomEnterBtn (selectedIndex : Int32)
  | roomListRefreshBtn
  | roomExit

/-- A click, which needs an enabled button -/
def Form1.click (form : Form1) : Button → Option Form1
  | .roomEnterBtn selectedIndex => form.roomEnterBtnClick selectedIndex
  | .roomListRefreshBtn => form.roomListRefreshBtnClick
  | .roomExit => form.roomExitClick

/-- `Form1()` -/
def Form1.new : Form1 :=
  { lobbyRoomList := [], userList := [], loginBtn := false, roomListRefreshBtn := false
    roomEnterBtn := false, roomExit := false, chatSend := false, sendPacketQueue := [] }

/-- The form when `PacketProcess_AckLogin` has posted the request for the list of rooms -/
def Form1.loggedIn : Form1 := Form1.new.post .reqLobbyInfo none

structure ChatSystem (n m : ℕ) (δ : Type*) where
  server : Server n m δ
  form : Fin n → Form1
  packets : Fin n → List Packet

inductive Action (n : ℕ) where
  | click (c : Fin n) (button : Button)
  | dispatch (c : Fin n)
  | process (c : Fin n)

namespace ChatSystem

def step (env : Env δ) (σ : ChatSystem n m δ) : Action n → Option (ChatSystem n m δ)
  | .click c button =>
    ((σ.form c).click button).map fun form => { σ with form := Function.update σ.form c form }
  | .dispatch c =>
    match (σ.form c).sendPacketQueue with
    | [] => none
    | frame :: queue =>
      (σ.server.processEvent env (frameEvent c frame)).map fun (server, sent) =>
        { server := server
          form := Function.update σ.form c { σ.form c with sendPacketQueue := queue }
          packets := fun d => σ.packets d ++ sentTo sent d }
  | .process c =>
    match σ.packets c with
    | [] => none
    | packet :: packets =>
      ((σ.form c).packetProcess packet).map fun form =>
        { σ with
          form := Function.update σ.form c form
          packets := Function.update σ.packets c packets }

/-- The rooms are empty, and the clients have just logged in: their first request for the
list of rooms is unsent. Slots without a client have no form that can do anything. -/
structure Start (ids : Fin n → UserId) (σ : ChatSystem n m δ) : Prop where
  rooms : ∀ k, (σ.server.room k).mUserList = []
  outside : ∀ c, (σ.server.mUserObjPool c).mState ≠ .inRoom
  mUserID : ∀ c, LoggedIn σ.server c → (σ.server.mUserObjPool c).mUserID = getBytes (ids c).1
  handlers : ∀ c, LoggedIn σ.server c →
    (σ.server.mUserObjPool c).recvFuntionDictionary = (σ.server.mUserObjPool c).mState.handlers
  userList : ∀ c, (σ.form c).userList = []
  roomListRefreshBtn : ∀ c, (σ.form c).roomListRefreshBtn = false
  roomEnterBtn : ∀ c, (σ.form c).roomEnterBtn = false
  roomExit : ∀ c, (σ.form c).roomExit = false
  sendPacketQueue : ∀ c, (σ.form c).sendPacketQueue =
    if LoggedIn σ.server c then [postSendPacket .reqLobbyInfo none] else []
  packets : ∀ c, σ.packets c = []

/-- Those that have logged in start their forms at a server. -/
def ofServer (s : Server n m δ) : ChatSystem n m δ where
  server := s
  form c := if LoggedIn s c then Form1.loggedIn else Form1.new
  packets _ := []

/-- The handler that the frame of a client runs -/
def handlerOf (σ : ChatSystem n m δ) (c : Fin n) (frame : Bytes) : RecvFunction :=
  σ.server.handler c (PacketHeader.read frame).packetId

/-- An entry that is processed finds space in its room. -/
def EntrySucceeds (σ : ChatSystem n m δ) : Action n → Prop
  | .dispatch c => ∀ frame ∈ (σ.form c).sendPacketQueue.head?,
    σ.handlerOf c frame = .processEnterRoom → σ.server.HasSpace (int32At frame roomNumberOffset)
  | .click .. | .process _ => True

/-- The snapshot of a room is taken when nobody stands behind the client in its list, and
the number of its members fits into a byte. -/
def SnapshotCloses (σ : ChatSystem n m δ) : Action n → Prop
  | .dispatch c => ∀ frame ∈ (σ.form c).sendPacketQueue.head?,
    σ.handlerOf c frame = .processRoomInfo → ∀ k, σ.server.getRoom c = some k →
      (σ.server.room k).mUserList.getLast? = some c ∧ (σ.server.room k).mUserList.length ≤ 255
  | .click .. | .process _ => True

instance (σ : ChatSystem n m δ) : DecidablePred σ.EntrySucceeds
  | .dispatch c => inferInstanceAs (Decidable (∀ frame ∈ (σ.form c).sendPacketQueue.head?,
      σ.handlerOf c frame = .processEnterRoom →
        σ.server.HasSpace (int32At frame roomNumberOffset)))
  | .click .. | .process _ => instDecidableTrue

instance (σ : ChatSystem n m δ) : DecidablePred σ.SnapshotCloses
  | .dispatch c => inferInstanceAs (Decidable (∀ frame ∈ (σ.form c).sendPacketQueue.head?,
      σ.handlerOf c frame = .processRoomInfo → ∀ k, σ.server.getRoom c = some k →
        (σ.server.room k).mUserList.getLast? = some c ∧
          (σ.server.room k).mUserList.length ≤ 255))
  | .click .. | .process _ => instDecidableTrue

/-- No request is unsent or in flight, and no packet. -/
def Quiet (σ : ChatSystem n m δ) : Prop :=
  ∀ c, (σ.form c).sendPacketQueue = [] ∧ σ.packets c = []

instance (σ : ChatSystem n m δ) : Decidable σ.Quiet :=
  inferInstanceAs (Decidable (∀ c, (σ.form c).sendPacketQueue = [] ∧ σ.packets c = []))

/-- The list of a client in a room has the ids of its members, and the list of a client
in the lobby is empty. -/
def Converged (σ : ChatSystem n m δ) : Prop :=
  ∀ c, ((σ.server.mUserObjPool c).mState = .inRoom → ∃ k, σ.server.getRoom c = some k ∧
      ((σ.form c).userList.map getBytes).Perm
        ((σ.server.room k).getRoomMemberList σ.server.mUserObjPool)) ∧
    ((σ.server.mUserObjPool c).mState = .inLobby → (σ.form c).userList = [])

end ChatSystem

/-! ## What holds of one client -/

/-- The state of a client that has logged in, by the requests and the notices in its
queues, the ids in its list and the members that these amount to. -/
structure Tracks (ids : Fin n → UserId) (unset : UInt8) (c : Fin n) (view : View n)
    (form : Form1) (packets : List Packet) (queue : List Request) (notices : List Notice)
    (users : List UserId) (shown : List (Fin n)) : Prop where
  sendPacketQueue : form.sendPacketQueue = queue.map Request.frame
  packets : packets = notices.map (Notice.packet unset)
  shows : form.Shows users
  buttons : form.roomListRefreshBtn = form.roomEnterBtn
  phase : Phase c view (notices.filterMap Notice.ack) queue form.roomEnterBtn form.roomExit shown
  replays : Replays ids notices users shown
  counts : ∀ members, .ackRoomInfo members ∈ notices → members.length ≤ 255

/-- A client that has logged in -/
def Tracked (ids : Fin n → UserId) (unset : UInt8) (c : Fin n) (view : View n) (form : Form1)
    (packets : List Packet) : Prop :=
  ∃ queue notices users shown, Tracks ids unset c view form packets queue notices users shown

/-- A slot without a client -/
structure Idle (form : Form1) (packets : List Packet) : Prop where
  roomListRefreshBtn : form.roomListRefreshBtn = false
  roomEnterBtn : form.roomEnterBtn = false
  roomExit : form.roomExit = false
  sendPacketQueue : form.sendPacketQueue = []
  packets : packets = []

theorem Idle.click {form : Form1} {packets : List Packet} (h : Idle form packets)
    (button : Button) : form.click button = none := by
  cases button with
  | roomEnterBtn selectedIndex => simp [Form1.click, Form1.roomEnterBtnClick, h.roomEnterBtn]
  | roomListRefreshBtn => simp [Form1.click, Form1.roomListRefreshBtnClick, h.roomListRefreshBtn]
  | roomExit => simp [Form1.click, Form1.roomExitClick, h.roomExit]

section client

variable {ids : Fin n → UserId} {unset : UInt8} {c : Fin n} {view : View n} {form form' : Form1}
  {packets : List Packet}

/-- A request is posted, and the buttons change with the phase. -/
theorem Tracks.post {queue : List Request} {notices : List Notice} {users : List UserId}
    {shown : List (Fin n)}
    (h : Tracks ids unset c view form packets queue notices users shown) (r : Request)
    (hqueue : form'.sendPacketQueue = form.sendPacketQueue ++ [r.frame])
    (hlist : form'.userList = form.userList)
    (hbuttons : form'.roomListRefreshBtn = form'.roomEnterBtn)
    (hphase : Phase c view (notices.filterMap Notice.ack) (queue ++ [r]) form'.roomEnterBtn
      form'.roomExit shown) : Tracked ids unset c view form' packets := by
  have hshows : form'.Shows users := hlist.trans h.shows
  refine ⟨queue ++ [r], notices, users, shown, ?_, h.packets, hshows, hbuttons, hphase,
    h.replays, h.counts⟩
  rw [hqueue, h.sendPacketQueue, List.map_append, List.map_singleton]

/-- A click posts a request that fits the phase. -/
theorem Tracked.click (h : Tracked ids unset c view form packets) {button : Button}
    (hclick : form.click button = some form') : Tracked ids unset c view form' packets := by
  rcases h with ⟨queue, notices, users, shown, h⟩
  have hphase := h.phase
  cases button with
  | roomEnterBtn selectedIndex =>
    simp only [Form1.click, Form1.roomEnterBtnClick, Option.ite_none_right_eq_some,
      Option.some.injEq] at hclick
    rcases hclick with ⟨henter, rfl⟩
    rw [henter] at hphase
    have hnext := hphase.clickEnter selectedIndex
    rw [← henter] at hnext
    exact h.post (.roomEnter selectedIndex) rfl rfl h.buttons hnext
  | roomListRefreshBtn =>
    simp only [Form1.click, Form1.roomListRefreshBtnClick, Option.ite_none_right_eq_some,
      Option.some.injEq] at hclick
    rcases hclick with ⟨hrefresh, rfl⟩
    rw [← h.buttons, hrefresh] at hphase
    exact h.post .lobbyInfo rfl rfl rfl hphase.clickRefresh
  | roomExit =>
    simp only [Form1.click, Form1.roomExitClick, Option.ite_none_right_eq_some,
      Option.some.injEq] at hclick
    rcases hclick with ⟨hexit, rfl⟩
    rw [hexit] at hphase
    have hnext := hphase.clickExit
    rw [← hexit] at hnext
    exact h.post .roomLeave rfl rfl h.buttons hnext

/-- An answer moves the buttons to the next phase and posts the request that follows. -/
theorem answered_phase {a : Option Notice.Ack} {acks : List Notice.Ack} {queue : List Request}
    {shown : List (Fin n)} (hqueue : form.sendPacketQueue = queue.map Request.frame)
    (hbuttons : form.roomListRefreshBtn = form.roomEnterBtn)
    (hphase : Phase c view (a.toList ++ acks) queue form.roomEnterBtn form.roomExit shown) :
    ∃ queue', (form.answered a).sendPacketQueue = queue'.map Request.frame ∧
      (form.answered a).roomListRefreshBtn = (form.answered a).roomEnterBtn ∧
      Phase c view acks queue' (form.answered a).roomEnterBtn (form.answered a).roomExit shown := by
  have hpost : ∀ r : Request, form.sendPacketQueue ++ [r.frame] =
      (queue ++ [r]).map Request.frame := by
    intro r
    rw [hqueue, List.map_append, List.map_singleton]
  cases a with
  | none => exact ⟨queue, hqueue, hbuttons, hphase⟩
  | some a =>
    cases a with
    | lobbyInfo => exact ⟨queue, hqueue, rfl, hphase.lobbyInfo⟩
    | roomEnter => exact ⟨_, hpost .roomInfo, rfl, hphase.roomEnter⟩
    | roomInfo => exact ⟨queue, hqueue, hbuttons, hphase.roomInfo⟩
    | roomLeave => exact ⟨_, hpost .lobbyInfo, hbuttons, hphase.roomLeave⟩

/-- The first packet is handled: what the list amounts to stays. -/
theorem Tracked.process {packet : Packet} (h : Tracked ids unset c view form (packet :: packets))
    (hprocess : form.packetProcess packet = some form') :
    Tracked ids unset c view form' packets := by
  rcases h with ⟨queue, notices, users, shown, h⟩
  cases notices with
  | nil => exact absurd h.packets (by simp)
  | cons notice notices =>
    rcases List.cons.inj h.packets with ⟨rfl, hpackets⟩
    rcases packetProcess_notice unset h.shows notice
      (fun members hmembers => h.counts members (by simp [hmembers])) with
      ⟨form'', hform, hshows, hsame⟩
    obtain rfl : form'' = form' := Option.some.inj (hform.symm.trans hprocess)
    have hacks : (notice :: notices).filterMap Notice.ack =
        notice.ack.toList ++ notices.filterMap Notice.ack := by
      cases hack : notice.ack with
      | none => simp [hack]
      | some a => simp [hack]
    have hphase := h.phase
    rw [hacks] at hphase
    rcases answered_phase h.sendPacketQueue h.buttons hphase with
      ⟨queue', hqueue, hbuttons, hnext⟩
    rw [← hsame.roomEnterBtn, ← hsame.roomExit] at hnext
    rw [← hsame.roomListRefreshBtn, ← hsame.roomEnterBtn] at hbuttons
    exact ⟨queue', notices, notice.update.apply users, shown, hsame.sendPacketQueue.trans hqueue,
      hpackets, hshows, hbuttons, hnext, h.replays.process,
      fun members hmem => h.counts members (List.mem_cons_of_mem _ hmem)⟩

/-- When nothing is under way, the list of a client has the ids of its view. -/
theorem Tracked.quiet (h : Tracked ids unset c view form packets)
    (hform : form.sendPacketQueue = []) (hpackets : packets = []) : ∃ shown : List (Fin n),
      form.userList.Perm (shown.map fun d => (ids d).1) ∧
        (view = none ∧ shown = [] ∨ view = some shown) := by
  rcases h with ⟨queue, notices, users, shown, h⟩
  have hqueue := h.sendPacketQueue
  rw [hform, eq_comm, List.map_eq_nil_iff] at hqueue
  have hnotices := h.packets
  rw [hpackets, eq_comm, List.map_eq_nil_iff] at hnotices
  subst hqueue
  subst hnotices
  refine ⟨shown, ?_, h.phase.quiet⟩
  have hperm := h.replays.nil.map Subtype.val
  rw [List.map_map] at hperm
  rw [h.shows]
  exact hperm

variable {v v' : Fin n → View n} {r : Request} {notices : Fin n → List Notice} {d : Fin n}

/-- Nothing is sent to somebody else in no room. -/
theorem Transition.nothing_sent (t : Transition ids c v r v' notices) (hd : d ≠ c)
    (hview : v d = none) : notices d = [] := by
  cases t with
  | ignoredInLobby | ignoredInRoom => rfl
  | lobbyInfo | roomInfo => exact if_neg hd
  | entered hc number hl =>
    have hmem : d ∉ _ := fun hmem => by simpa [hview] using (hl d).mp hmem
    simp [hd, hmem]
  | left hc hl =>
    have hmem : d ∉ _ := fun hmem => by simpa [hview] using (hl d).mp hmem
    simp [hd, hmem]

/-- The snapshots among the notices of a request are those of the sender's room. -/
theorem Transition.counts (t : Transition ids c v r v' notices)
    (hcount : ∀ l, v c = some l → r = .roomInfo → l.length ≤ 255) :
    ∀ members, .ackRoomInfo members ∈ notices d → members.length ≤ 255 := by
  intro members hmem
  cases t with
  | ignoredInLobby | ignoredInRoom => simp at hmem
  | lobbyInfo hc rooms =>
    by_cases hd : d = c <;> simp [hd] at hmem
  | entered hc number hl =>
    by_cases hd : d = c
    · simp [hd] at hmem
    · simp only [hd, if_false] at hmem
      split_ifs at hmem <;> simp at hmem
  | @roomInfo l hc =>
    by_cases hd : d = c
    · simp only [hd, if_true, List.mem_singleton, Notice.ackRoomInfo.injEq] at hmem
      rw [hmem, List.length_map]
      exact hcount l hc rfl
    · simp [hd] at hmem
  | left hc hl =>
    by_cases hd : d = c
    · simp [hd] at hmem
    · simp only [hd, if_false] at hmem
      split_ifs at hmem <;> simp at hmem

/-- A request of another client is processed. -/
theorem Tracked.other (h : Tracked ids unset d (v d) form packets)
    (t : Transition ids c v r v' notices) (hids : Function.Injective ids) (hd : d ≠ c)
    (hnodup : ∀ l, v d = some l → l.Nodup)
    (hcount : ∀ l, v c = some l → r = .roomInfo → l.length ≤ 255) :
    Tracked ids unset d (v' d) form (packets ++ (notices d).map (Notice.packet unset)) := by
  rcases h with ⟨queue, pending, users, shown, h⟩
  rcases t.other hids hd hnodup h.phase h.replays with ⟨shown', hphase, hreplays, hacks⟩
  refine ⟨queue, pending ++ notices d, users, shown', h.sendPacketQueue, ?_, h.shows, h.buttons,
    ?_, hreplays, fun members hmem => ?_⟩
  · rw [h.packets, List.map_append]
  · rwa [List.filterMap_append, hacks, List.append_nil]
  · rcases List.mem_append.mp hmem with hmem | hmem
    · exact h.counts members hmem
    · exact t.counts hcount members hmem

/-- The first request of the client itself is processed. -/
theorem Tracks.own {queue : List Request} {pending : List Notice} {users : List UserId}
    {shown : List (Fin n)}
    (h : Tracks ids unset c (v c) form packets (r :: queue) pending users shown)
    (t : Transition ids c v r v' notices)
    (hlast : ∀ l, v c = some l → r = .roomInfo → Roster.after c l = [])
    (hcount : ∀ l, v c = some l → r = .roomInfo → l.length ≤ 255) :
    Tracked ids unset c (v' c) { form with sendPacketQueue := queue.map Request.frame }
      (packets ++ (notices c).map (Notice.packet unset)) := by
  rcases t.own hlast h.phase h.replays with ⟨shown', hphase, hreplays⟩
  refine ⟨queue, pending ++ notices c, users, shown', rfl, ?_, h.shows, h.buttons,
    ?_, hreplays, fun members hmem => ?_⟩
  · rw [h.packets, List.map_append]
  · rwa [List.filterMap_append]
  · rcases List.mem_append.mp hmem with hmem | hmem
    · exact h.counts members hmem
    · exact t.counts hcount members hmem

end client

/-! ## What holds of the system -/

namespace ChatSystem

structure Invariant (ids : Fin n → UserId) (unset : UInt8) (σ : ChatSystem n m δ) : Prop where
  online : Online ids σ.server
  tracked : ∀ c, LoggedIn σ.server c →
    Tracked ids unset c (view σ.server c) (σ.form c) (σ.packets c)
  idle : ∀ c, ¬LoggedIn σ.server c → Idle (σ.form c) (σ.packets c)

section

variable {ids : Fin n → UserId} {env : Env δ} {unset : UInt8} {σ σ' : ChatSystem n m δ} {c : Fin n}

theorem Start.invariant (h : Start ids σ) (unset : UInt8) : Invariant ids unset σ where
  online :=
    { membership :=
        { mem_list := fun u k => by simp [h.rooms, h.outside]
          nodup := fun k => by simp [h.rooms]
          getRoom_ne_none := fun u hu => absurd hu (h.outside u) }
      mUserID := h.mUserID
      handlers := h.handlers }
  tracked c hc := by
    refine ⟨[.lobbyInfo], [], [], [], ?_, h.packets c, h.userList c, ?_, ?_, .refl [], by simp⟩
    · rw [h.sendPacketQueue, if_pos hc]
      rfl
    · rw [h.roomListRefreshBtn, h.roomEnterBtn]
    · rw [view_of_not_inRoom (h.outside c), h.roomEnterBtn, h.roomExit]
      exact .left ⟨[], rfl, by simp⟩
  idle c hc := ⟨h.roomListRefreshBtn c, h.roomEnterBtn c, h.roomExit c,
    by rw [h.sendPacketQueue, if_neg hc], h.packets c⟩

/-- A step of one client at its own form and packets -/
theorem Invariant.client (h : Invariant ids unset σ) (hc : LoggedIn σ.server c) {form : Form1}
    {packets : List Packet} (hforms : σ'.form = Function.update σ.form c form)
    (hpackets : σ'.packets = Function.update σ.packets c packets) (hserver : σ'.server = σ.server)
    (htracked : Tracked ids unset c (view σ.server c) form packets) :
    Invariant ids unset σ' := by
  refine ⟨hserver ▸ h.online, fun d hd => ?_, fun d hd => ?_⟩
  · rw [hserver] at hd ⊢
    rw [hforms, hpackets]
    by_cases hdc : d = c
    · subst hdc
      rw [Function.update_self, Function.update_self]
      exact htracked
    · rw [Function.update_of_ne hdc, Function.update_of_ne hdc]
      exact h.tracked d hd
  · rw [hserver] at hd
    have hdc : d ≠ c := fun hdc => hd (hdc ▸ hc)
    rw [hforms, hpackets, Function.update_of_ne hdc, Function.update_of_ne hdc]
    exact h.idle d hd

theorem Invariant.click (h : Invariant ids unset σ) {button : Button}
    (hstep : σ.step env (.click c button) = some σ') : Invariant ids unset σ' := by
  rcases Option.map_eq_some_iff.mp hstep with ⟨form, hclick, rfl⟩
  have hc : LoggedIn σ.server c := by
    by_contra hc
    rw [(h.idle c hc).click] at hclick
    cases hclick
  have hpackets : σ.packets = Function.update σ.packets c (σ.packets c) := by simp
  exact h.client hc rfl hpackets rfl ((h.tracked c hc).click hclick)

theorem Invariant.process (h : Invariant ids unset σ)
    (hstep : σ.step env (.process c) = some σ') : Invariant ids unset σ' := by
  rw [step] at hstep
  cases hpackets : σ.packets c with
  | nil => simp [hpackets] at hstep
  | cons packet packets =>
    rw [hpackets] at hstep
    rcases Option.map_eq_some_iff.mp hstep with ⟨form, hprocess, rfl⟩
    have hc : LoggedIn σ.server c := by
      by_contra hc
      have hnil := (h.idle c hc).packets
      rw [hpackets] at hnil
      cases hnil
    have htracked := h.tracked c hc
    rw [hpackets] at htracked
    exact h.client hc rfl rfl rfl (htracked.process hprocess)

section dispatch

variable {r : Request} {queue : List Request}

/-- The next frame runs the handler that the state of the client has for its request. -/
theorem head_of_queue (h : Online ids σ.server) (hc : LoggedIn σ.server c)
    (hqueue : (σ.form c).sendPacketQueue = (r :: queue).map Request.frame) :
    r.frame ∈ (σ.form c).sendPacketQueue.head? ∧
      σ.handlerOf c r.frame = (σ.server.mUserObjPool c).mState.handlers r.packetId := by
  constructor
  · rw [hqueue]
    rfl
  · rw [handlerOf, read_frame_packetId, handler_request h hc]

theorem EntrySucceeds.hasSpace {number : Int32} (hspace : σ.EntrySucceeds (.dispatch c))
    (h : Online ids σ.server) (hc : (σ.server.mUserObjPool c).mState = .inLobby)
    (hqueue : (σ.form c).sendPacketQueue = (.roomEnter number :: queue).map Request.frame) :
    σ.server.HasSpace number := by
  rcases head_of_queue h (.inl hc) hqueue with ⟨hfirst, hhandler⟩
  rw [hc] at hhandler
  have hfound := hspace _ hfirst hhandler
  rwa [roomNumber_frame] at hfound

theorem SnapshotCloses.last {l : List (Fin n)} (hclose : σ.SnapshotCloses (.dispatch c))
    (h : Online ids σ.server) (hl : view σ.server c = some l)
    (hqueue : (σ.form c).sendPacketQueue = (.roomInfo :: queue).map Request.frame) :
    Roster.after c l = [] ∧ l.length ≤ 255 := by
  rcases view_eq_some h.membership hl with ⟨k, hk, hmem, rfl⟩
  have hin := ((h.membership.mem_list c k).mp hmem).1
  rcases head_of_queue h (.inr hin) hqueue with ⟨hfirst, hhandler⟩
  rw [hin] at hhandler
  rcases hclose _ hfirst hhandler k hk with ⟨hlast, hcount⟩
  exact ⟨Roster.after_of_getLast? (h.membership.nodup k) hlast, hcount⟩

end dispatch

/-- The next request of a client is processed: an entry has to find space, and a snapshot
to be taken when nobody stands behind the client. -/
theorem Invariant.dispatch (h : Invariant ids env.unset σ) (hids : Function.Injective ids)
    (hstep : σ.step env (.dispatch c) = some σ')
    (hspace : σ.EntrySucceeds (.dispatch c)) (hclose : σ.SnapshotCloses (.dispatch c)) :
    Invariant ids env.unset σ' := by
  have hc : LoggedIn σ.server c := by
    by_contra hc
    simp [step, (h.idle c hc).sendPacketQueue] at hstep
  rcases h.tracked c hc with ⟨queue, pending, users, shown, htracks⟩
  have hqueue := htracks.sendPacketQueue
  cases queue with
  | nil => simp [step, hqueue] at hstep
  | cons r queue =>
    have hlast : ∀ l, view σ.server c = some l → r = .roomInfo →
        Roster.after c l = [] ∧ l.length ≤ 255 := by
      rintro l hl rfl
      exact hclose.last h.online hl hqueue
    have hcount : ∀ l, view σ.server c = some l → r = .roomInfo → l.length ≤ 255 :=
      fun l hl hr => (hlast l hl hr).2
    rcases exists_served env h.online hids hc r (by
      rintro number rfl hlobby
      exact hspace.hasSpace h.online hlobby hqueue) with ⟨server, sent, notices, hevent, hserved⟩
    rw [step, hqueue, List.map_cons] at hstep
    simp only [hevent, Option.map_some, Option.some.injEq] at hstep
    subst hstep
    refine ⟨hserved.online, fun d hd => ?_, fun d hd => ?_⟩
    · rw [hserved.loggedIn] at hd
      simp only [hserved.sent]
      by_cases hdc : d = c
      · subst hdc
        rw [Function.update_self]
        exact htracks.own hserved.transition (fun l hl hr => (hlast l hl hr).1) hcount
      · rw [Function.update_of_ne hdc]
        exact (h.tracked d hd).other hserved.transition hids hdc
          (fun l => view_nodup h.online.membership) hcount
    · rw [hserved.loggedIn] at hd
      have hdc : d ≠ c := fun hdc => hd (hdc ▸ hc)
      have hview : view σ.server d = none := view_of_not_inRoom fun hin => hd (.inr hin)
      have hidle := h.idle d hd
      simp only [hserved.sent, hserved.transition.nothing_sent hdc hview, Function.update_of_ne hdc]
      exact ⟨hidle.roomListRefreshBtn, hidle.roomEnterBtn, hidle.roomExit, hidle.sendPacketQueue,
        by simp [hidle.packets]⟩

theorem Invariant.converged (h : Invariant ids unset σ) (quiet : σ.Quiet) : σ.Converged := by
  intro c
  constructor
  · intro hin
    rcases exists_room_of_inRoom h.online.membership hin with ⟨k, hk, hmem⟩
    have hview := view_of_mem h.online.membership hmem
    rcases (h.tracked c (.inr hin)).quiet (quiet c).1 (quiet c).2 with ⟨shown, hperm, hshown⟩
    obtain rfl : (σ.server.room k).mUserList = shown := by simpa [hview] using hshown
    refine ⟨k, hk, ?_⟩
    have hmembers : (σ.server.room k).getRoomMemberList σ.server.mUserObjPool =
        ((σ.server.room k).mUserList.map fun d => (ids d).1).map getBytes := by
      rw [Room.getRoomMemberList, List.map_map]
      apply List.map_congr_left
      intro d hd
      exact h.online.mUserID d (.inr ((h.online.membership.mem_list d k).mp hd).1)
    rw [hmembers]
    exact hperm.map getBytes
  · intro hlobby
    have hview : view σ.server c = none := view_of_not_inRoom (by simp [hlobby])
    rcases (h.tracked c (.inl hlobby)).quiet (quiet c).1 (quiet c).2 with ⟨shown, hperm, hshown⟩
    obtain rfl : shown = [] := by simpa [hview] using hshown
    exact hperm.eq_nil

end

end ChatSystem

open ChatSystem

/-- The forms start at every server whose rooms are empty. -/
theorem start_ofServer {ids : Fin n → UserId} {s : Server n m δ} (ht : s.TablesOk)
    (hrooms : ∀ k, (s.room k).mUserList = [])
    (hlobby : ∀ c, (s.mUserObjPool c).mState ≠ .inRoom ∧ (LoggedIn s c →
      (s.mUserObjPool c).mUserID = getBytes (ids c).1 ∧
        (s.mUserObjPool c).recvFuntionDictionary .reqLobbyInfo ≠ .noop)) :
    Start ids (ofServer s) := by
  have hform : ∀ c, (ofServer s).form c = if LoggedIn s c then Form1.loggedIn else Form1.new :=
    fun _ => rfl
  refine ⟨hrooms, fun c => (hlobby c).1, fun c hc => ((hlobby c).2 hc).1, fun c hc => ?_,
    fun c => ?_, fun c => ?_, fun c => ?_, fun c => ?_, fun c => ?_, fun _ => rfl⟩
  · exact (ht c).resolve_left fun hreset => ((hlobby c).2 hc).2 (by rw [hreset]; rfl)
  · rw [hform]
    split_ifs <;> rfl
  · rw [hform]
    split_ifs <;> rfl
  · rw [hform]
    split_ifs <;> rfl
  · rw [hform]
    split_ifs <;> rfl
  · change _ = if LoggedIn s c then _ else _
    rw [hform]
    split_ifs <;> rfl

/-- Two users with the ids a and b log in. -/
def twoLogins : Option (Server.History 2 10 Unit × Server 2 10 Unit) :=
  perform (Server.step acceptingEnv) (init 2 0 10 4 (fun _ _ => 0) ())
    [.connect 0, .connect 1, .request 0 .reqLogin (reqLoginBody [97] [66]),
      .request 1 .reqLogin (reqLoginBody [98] [66])]

def twoIds (c : Fin 2) : UserId :=
  if c = 0 then ⟨"a", by decide +kernel⟩ else ⟨"b", by decide +kernel⟩

theorem twoIds_injective : Function.Injective twoIds := by
  have hids : ∀ c d, twoIds c = twoIds d → c = d := by decide +kernel
  exact fun c d => hids c d

/-- The forms of the two users start at the server that both have reached. -/
theorem start_of_twoLogins {past : Server.History 2 10 Unit} {s : Server 2 10 Unit}
    (h : twoLogins = some (past, s)) : Start twoIds (ofServer s) := by
  have ht : s.TablesOk := (run_of_perform h).state_invariant (init_tablesOk 2 0 10 4 _ ())
    fun _ _ _ ht hstep => ht.step hstep
  have hlobby : twoLogins.all (fun r => (∀ k, (r.2.room k).mUserList = []) ∧
      ∀ c, (r.2.mUserObjPool c).mState ≠ .inRoom ∧ (LoggedIn r.2 c →
        (r.2.mUserObjPool c).mUserID = getBytes (twoIds c).1 ∧
          (r.2.mUserObjPool c).recvFuntionDictionary .reqLobbyInfo ≠ .noop)) = true := by
    decide +kernel
  rw [h] at hlobby
  rcases of_decide_eq_true hlobby with ⟨hrooms, husers⟩
  exact start_ofServer ht hrooms husers

/-- A run of the two forms that passes a test -/
theorem exists_run_of_two (actions : List (Action 2))
    (test : List (Entry (ChatSystem 2 10 Unit) (Action 2)) → ChatSystem 2 10 Unit → Bool)
    (h : twoLogins.any (fun r => (perform (ChatSystem.step acceptingEnv) (ofServer r.2) actions).any
      fun r => test r.1 r.2) = true) :
    ∃ σ₀ past σ, Start twoIds σ₀ ∧ Run (ChatSystem.step acceptingEnv) σ₀ past σ ∧
      test past σ = true := by
  rcases (Option.any_eq_true _ _).mp h with ⟨⟨past₀, s⟩, hlogins, hrun⟩
  obtain ⟨past, σ, run, htest⟩ := exists_run (ChatSystem.step acceptingEnv) (ofServer s) actions
    test hrun
  exact ⟨_, past, σ, start_of_twoLogins hlogins, run, htest⟩

/-- In every run of any number of clients with distinct ids, in which the entries that are
processed succeed: if every snapshot is taken when nobody stands behind its client in
the list of the room, the lists agree with the rooms whenever nothing is under way. -/
theorem user_lists_converge {ids : Fin n → UserId} (hids : Function.Injective ids) (env : Env δ)
    {σ₀ σ : ChatSystem n m δ} {past : List (Entry (ChatSystem n m δ) (Action n))} (start : Start ids σ₀)
    (run : Run (ChatSystem.step env) σ₀ past σ) (enters : ∀ e ∈ past, e.pre.EntrySucceeds e.act)
    (closes : ∀ e ∈ past, e.pre.SnapshotCloses e.act) (quiet : σ.Quiet) : σ.Converged := by
  have hinvariant : Invariant ids env.unset σ := by
    apply run.invariant (C := fun _ e => e.pre.EntrySucceeds e.act ∧ e.pre.SnapshotCloses e.act)
      (P := fun _ σ => Invariant ids env.unset σ) (start.invariant env.unset)
    · rintro past σ a σ' - h hstep ⟨hspace, hclose⟩
      cases a with
      | click c button => exact h.click hstep
      | dispatch c => exact h.dispatch hids hstep hspace hclose
      | process c => exact h.process hstep
    · exact atEach_const.mpr fun e he => ⟨enters e he, closes e he⟩
  exact hinvariant.converged quiet

/-- Client 0 enters room 0, then client 1 does, and client 0 leaves. -/
theorem user_lists_converge_for_two : ∃ (σ₀ σ : ChatSystem 2 10 Unit)
    (past : List (Entry (ChatSystem 2 10 Unit) (Action 2))), Start twoIds σ₀ ∧
      Run (ChatSystem.step acceptingEnv) σ₀ past σ ∧ (σ.form 1).userList = ["b"] ∧
      σ.Quiet ∧ σ.Converged := by
  obtain ⟨σ₀, past, σ, start, run, h⟩ := exists_run_of_two
    [.dispatch 0, .process 0, .process 0, .dispatch 1, .process 1, .process 1,
      .click 0 (.roomEnterBtn 0), .dispatch 0, .process 0, .dispatch 0, .process 0,
      .click 1 (.roomEnterBtn 0), .dispatch 1, .process 0, .process 1, .dispatch 1, .process 1,
      .click 0 .roomExit, .dispatch 0, .process 0, .process 0, .process 1, .dispatch 0,
      .process 0, .process 0]
    (fun past σ => (σ.form 1).userList = ["b"] ∧ σ.Quiet ∧
      (∀ e ∈ past, e.pre.EntrySucceeds e.act) ∧ ∀ e ∈ past, e.pre.SnapshotCloses e.act)
    (by decide +kernel)
  rcases of_decide_eq_true h with ⟨hlist, quiet, enters, closes⟩
  exact ⟨σ₀, σ, past, start, run, hlist, quiet,
    user_lists_converge twoIds_injective acceptingEnv start run enters closes quiet⟩

/-- Client 1 enters while the request of client 0 for the snapshot is on its way: client 0
is told of the entry and finds it in the snapshot once more. -/
theorem entry_before_snapshot_shown_twice : ∃ (σ₀ σ : ChatSystem 2 10 Unit)
    (past : List (Entry (ChatSystem 2 10 Unit) (Action 2))), Function.Injective twoIds ∧
      Start twoIds σ₀ ∧ Run (ChatSystem.step acceptingEnv) σ₀ past σ ∧
      (∀ e ∈ past, e.pre.EntrySucceeds e.act) ∧ σ.Quiet ∧
      (σ.form 0).userList = ["b", "a", "b"] ∧ ¬σ.Converged := by
  obtain ⟨σ₀, past, σ, start, run, h⟩ := exists_run_of_two
    [.dispatch 0, .process 0, .process 0, .dispatch 1, .process 1, .process 1,
      .click 0 (.roomEnterBtn 0), .dispatch 0, .process 0, .click 1 (.roomEnterBtn 0),
      .dispatch 1, .dispatch 0, .process 0, .process 0, .process 1, .dispatch 1, .process 1]
    (fun past σ => (∀ e ∈ past, e.pre.EntrySucceeds e.act) ∧ σ.Quiet ∧
      (σ.form 0).userList = ["b", "a", "b"] ∧ (σ.server.mUserObjPool 0).mState = .inRoom ∧
      ∀ k, (σ.server.room k).mUserList.length ≤ 2)
    (by decide +kernel)
  rcases of_decide_eq_true h with ⟨enters, quiet, hlist, hin, hlength⟩
  refine ⟨σ₀, σ, past, twoIds_injective, start, run, enters, quiet, hlist, fun hconverged => ?_⟩
  rcases (hconverged 0).1 hin with ⟨k, -, hperm⟩
  have hthree := hperm.length_eq
  rw [hlist, Room.getRoomMemberList, List.length_map, List.length_map] at hthree
  have htwo := hlength k
  simp at hthree
  omega

end ChatServer.Client
