import ChatServer.Client.RoomSpeech

/-! # The conversation of a room

Entries, leaves and messages make up one conversation for each room, in the order in which
the server processes them. The box of every member tells it from the member's entry on,
and what a member types goes into it once, in the order of typing.
-/

namespace ChatServer.Client
open Recorded Server

variable {n m : ℕ} {δ : Type*}

/-- The message in a frame -/
def queuedMessage (frame : Bytes) : Option String :=
  if (PacketHeader.read frame).packetId = PacketId.reqRoomChat.code then some (messageText frame)
  else none

theorem queuedMessage_frame (p : Posted) : queuedMessage p.frame = p.message? := by
  rw [queuedMessage, p.read_frame_packetId]
  cases p with
  | request r => cases r <;> rfl
  | roomChat message =>
    rw [Posted.messageText_frame]
    rfl

namespace ChatRooms

abbrev History (n m : ℕ) (δ : Type*) := List (Entry (ChatRooms n m δ) (RoomAction n))

/-- What a step tells the members of a room -/
def announced (env : Env δ) (ids : Fin n → UserId) (e : Entry (ChatRooms n m δ) (RoomAction n)) :
    Option (Fin m × RoomChatMsg) :=
  match e.act with
  | .dispatch c =>
    (e.pre.form c).sendPacketQueue.head?.bind (announcement env ids e.pre.server c)
  | .click .. | .chatSend .. | .process _ => none

/-- What it tells the members of room `k` -/
def announcedIn (env : Env δ) (ids : Fin n → UserId) (k : Fin m)
    (e : Entry (ChatRooms n m δ) (RoomAction n)) : Option RoomChatMsg :=
  (announced env ids e).bind fun x => if x.1 = k then some x.2 else none

/-- What has been told in room `k` -/
def conversation (env : Env δ) (ids : Fin n → UserId) (past : History n m δ) (k : Fin m) :
    List RoomChatMsg := past.filterMap (announcedIn env ids k)

/-- The last steps, as long as client `c` has been in room `k` -/
def stay (past : History n m δ) (c : Fin n) (k : Fin m) : History n m δ :=
  past.rtakeWhile fun e => roomOf e.pre.server c = some k

/-- The message that client `c` types -/
def typed (c : Fin n) (e : Entry (ChatRooms n m δ) (RoomAction n)) : Option String :=
  match e.act with
  | .chatSend d chatBox => if d = c then some (replaceZero chatBox) else none
  | .click .. | .dispatch _ | .process _ => none

/-- The message of client `c` that room `k` is told -/
def spoken (env : Env δ) (ids : Fin n → UserId) (c : Fin n) (k : Fin m)
    (e : Entry (ChatRooms n m δ) (RoomAction n)) : Option String :=
  match e.act with
  | .dispatch d => if d = c then (announcedIn env ids k e).bind RoomChatMsg.message? else none
  | .click .. | .chatSend .. | .process _ => none

/-- The packet that client `c` processes in a step -/
def received (c : Fin n) (e : Entry (ChatRooms n m δ) (RoomAction n)) : Option Received :=
  match e.act with
  | .process d => if d = c then (e.pre.packets c).head?.map fun packet =>
      ⟨packet.packetId, packet.body, (e.pre.form c).userList⟩ else none
  | .click .. | .chatSend .. | .dispatch _ => none

/-- What client `c` has heard -/
def heardOf (past : History n m δ) (c : Fin n) : List Heard := heardIn (past.filterMap (received c))

/-- What a client has heard when no packet is on its way to it -/
def heardBy (env : Env δ) (ids : Fin n → UserId) (past : History n m δ) (s : Server n m δ)
    (c : Fin n) : List RoomChatMsg :=
  (roomOf s c).elim [] fun k => conversation env ids (stay past c k) k

section stay

variable {env : Env δ} {ids : Fin n → UserId} {past : History n m δ} {s' : Server n m δ}
  {c d : Fin n} {k : Fin m} {e : Entry (ChatRooms n m δ) (RoomAction n)}

theorem stay_snoc_of_eq (h : roomOf e.pre.server c = some k) :
    stay (past ++ [e]) c k = stay past c k ++ [e] :=
  List.rtakeWhile_concat_pos _ _ _ (decide_eq_true h)

theorem stay_snoc_of_ne (h : roomOf e.pre.server c ≠ some k) : stay (past ++ [e]) c k = [] :=
  List.rtakeWhile_concat_neg _ _ _ (by simpa using h)

theorem conversation_suffix (past : History n m δ) (c : Fin n) (k : Fin m) :
    conversation env ids (stay past c k) k <:+ conversation env ids past k :=
  (List.rtakeWhile_suffix _ _).filterMap _

theorem conversation_snoc : conversation env ids (past ++ [e]) k =
    conversation env ids past k ++ (announcedIn env ids k e).toList :=
  filterMap_snoc _ past e

theorem heardOf_snoc (h : received c e = none) : heardOf (past ++ [e]) c = heardOf past c := by
  rw [heardOf, filterMap_snoc, h, Option.toList_none, List.append_nil, heardOf]

theorem announcedIn_of_none (h : announced env ids e = none) : announcedIn env ids k e = none := by
  rw [announcedIn, h, Option.bind_none]

theorem heardBy_of_roomOf (h : roomOf s' c = none) : heardBy env ids past s' c = [] := by
  rw [heardBy, h]
  rfl

/-- A client that stays in its room hears what is told there. -/
theorem heardBy_snoc_of_some {j : Fin m} {x : RoomChatMsg}
    (hroom : roomOf s' d = roomOf e.pre.server d) (h : announced env ids e = some (j, x)) :
    heardBy env ids (past ++ [e]) s' d = if roomOf e.pre.server d = some j then
      heardBy env ids past e.pre.server d ++ [x] else heardBy env ids past e.pre.server d := by
  rw [heardBy, heardBy, hroom]
  cases hr : roomOf e.pre.server d with
  | none => simp
  | some k =>
    simp only [Option.elim_some, Option.some.injEq]
    rw [stay_snoc_of_eq hr, conversation_snoc, announcedIn, h, Option.bind_some]
    by_cases hk : j = k
    · rw [if_pos hk, if_pos hk.symm]
      rfl
    · rw [if_neg hk, if_neg (Ne.symm hk)]
      exact List.append_nil _

theorem heardBy_snoc_of_none (hroom : roomOf s' d = roomOf e.pre.server d)
    (h : announced env ids e = none) :
    heardBy env ids (past ++ [e]) s' d = heardBy env ids past e.pre.server d := by
  rw [heardBy, heardBy, hroom]
  cases hr : roomOf e.pre.server d with
  | none => rfl
  | some k =>
    simp only [Option.elim_some]
    rw [stay_snoc_of_eq hr, conversation_snoc, announcedIn_of_none h]
    exact List.append_nil _

/-- Everybody hears what is told in its room, and starts afresh in a new one. -/
theorem heardBy_of_turn {hear : Fin n → List RoomChatMsg → List RoomChatMsg}
    (turn : Turn c (roomOf e.pre.server) (roomOf s') (announced env ids e) hear) (d : Fin n) :
    hear d (heardBy env ids past e.pre.server d) = heardBy env ids (past ++ [e]) s' d := by
  cases turn with
  | unheard hrooms hnone hhear =>
    rw [hhear, heardBy_snoc_of_none (congrFun hrooms d) hnone]
  | said k x hc hrooms hsome hhear =>
    rw [hhear, heardBy_snoc_of_some (congrFun hrooms d) hsome]
  | entered k x hc hrooms hsome hhear =>
    have hroom := congrFun hrooms d
    rw [hhear]
    by_cases hd : d = c
    · subst hd
      rw [Function.update_self] at hroom
      have hnot : roomOf e.pre.server d ≠ some k := by simp [hc]
      rw [if_neg hnot, heardBy_of_roomOf hc, heardBy, hroom, Option.elim_some,
        stay_snoc_of_ne hnot]
      rfl
    · rw [Function.update_of_ne hd] at hroom
      rw [heardBy_snoc_of_some hroom hsome]
  | left k x hc hrooms hsome hhear =>
    have hroom := congrFun hrooms d
    rw [hhear]
    by_cases hd : d = c
    · subst hd
      rw [Function.update_self] at hroom
      rw [if_pos rfl, heardBy_of_roomOf hroom]
    · rw [Function.update_of_ne hd] at hroom
      rw [if_neg hd, heardBy_snoc_of_some hroom hsome]

/-- The messages of a client since its entry and those in its queue are those it has typed
since then. -/
def SpeaksInOrder (env : Env δ) (ids : Fin n → UserId) (past : History n m δ) (s : Server n m δ)
    (c : Fin n) (queued : List String) : Prop :=
  ∀ k, roomOf s c = some k →
    (stay past c k).filterMap (spoken env ids c k) ++ queued = (stay past c k).filterMap (typed c)

/-- A step, by what it does to the messages of a client in its room. A client that enters
a room has none. -/
theorem SpeaksInOrder.snoc {queued queued' : List String}
    (h : SpeaksInOrder env ids past e.pre.server c queued)
    (hstays : ∀ k, roomOf e.pre.server c = some k →
      (spoken env ids c k e).toList ++ queued' = queued ++ (typed c e).toList)
    (henters : roomOf e.pre.server c ≠ roomOf s' c → roomOf s' c ≠ none → queued' = []) :
    SpeaksInOrder env ids (past ++ [e]) s' c queued' := by
  intro k hk
  by_cases hroom : roomOf e.pre.server c = some k
  · rw [stay_snoc_of_eq hroom, filterMap_snoc, filterMap_snoc, List.append_assoc, hstays k hroom,
      ← List.append_assoc, h k hroom]
  · rw [stay_snoc_of_ne hroom, henters (fun heq => hroom (heq.trans hk)) (by simp [hk])]
    rfl

/-- A step that is none of the client's -/
theorem SpeaksInOrder.skip {queued : List String}
    (h : SpeaksInOrder env ids past e.pre.server c queued)
    (hspoken : ∀ k, spoken env ids c k e = none) (htyped : typed c e = none)
    (hroom : roomOf s' c = roomOf e.pre.server c) :
    SpeaksInOrder env ids (past ++ [e]) s' c queued := by
  refine h.snoc (fun k _ => ?_) fun hne => absurd hroom.symm hne
  rw [hspoken, htyped]
  exact (List.append_nil queued).symm

end stay

/-! ## What holds of every client -/

/-- A client that has logged in: what it has posted and what it is told -/
structure Follows (ids : Fin n → UserId) (env : Env δ) (past : History n m δ) (s : Server n m δ)
    (c : Fin n) (form : ChatForm) (packets : List Packet) (queue : List Posted)
    (told : List Told) : Prop where
  sendPacketQueue : form.sendPacketQueue = queue.map Posted.frame
  packets : packets = told.map (Told.packet env)
  speaks : Speaks c (view s c) (told.filterMap Told.ack) queue form.toForm1
  box : form.listBoxRoomChatMsg = boxOf (heardOf past c)
  hears : hearAll env told ((heardOf past c).map Heard.msg) = heardBy env ids past s c
  messages : SpeaksInOrder env ids past s c (queue.filterMap Posted.message?)

/-- A client that has logged in -/
def Followed (ids : Fin n → UserId) (env : Env δ) (past : History n m δ) (s : Server n m δ)
    (c : Fin n) (form : ChatForm) (packets : List Packet) : Prop :=
  ∃ queue told, Follows ids env past s c form packets queue told

/-- A slot without a client -/
structure Silent (form : ChatForm) (packets : List Packet) : Prop extends
    Idle form.toForm1 packets where
  chatSend : form.chatSend = false

structure Invariant (ids : Fin n → UserId) (env : Env δ) (past : History n m δ)
    (σ : ChatRooms n m δ) : Prop where
  online : Online ids σ.server
  followed : ∀ c, LoggedIn σ.server c → Followed ids env past σ.server c (σ.form c) (σ.packets c)
  silent : ∀ c, ¬LoggedIn σ.server c → Silent (σ.form c) (σ.packets c)

section

variable {ids : Fin n → UserId} {env : Env δ} {past : History n m δ} {σ σ' : ChatRooms n m δ}
  {c d : Fin n} {form form' : ChatForm} {packets : List Packet}

theorem Start.invariant (h : Start ids σ) (env : Env δ) : Invariant ids env [] σ := by
  have hlobby := h.lobby.invariant env.unset
  refine ⟨hlobby.online, fun c hc => ?_, fun c hc => ⟨hlobby.idle c hc, h.chatSend c⟩⟩
  have hroom : roomOf σ.server c = none := roomOf_of_not_inRoom (h.lobby.outside c)
  have hqueue := (h.lobby.sendPacketQueue c).trans (if_pos hc)
  refine ⟨[.request .lobbyInfo], [], hqueue, h.lobby.packets c, ?_, ?_, ?_, ?_⟩
  · have hview : view σ.server c = none := view_of_not_inRoom (h.lobby.outside c)
    rw [hview]
    have henter : (σ.form c).roomEnterBtn = false := h.lobby.roomEnterBtn c
    have hexit : (σ.form c).roomExit = false := h.lobby.roomExit c
    refine ⟨(h.lobby.roomListRefreshBtn c).trans henter.symm, (h.chatSend c).trans hexit.symm,
      ⟨[], ?_⟩, fun message hmem => ?_⟩
    · rw [henter, hexit]
      exact .left ⟨[], rfl, by simp⟩
    · cases List.mem_singleton.mp hmem
  · rw [h.listBoxRoomChatMsg]
    rfl
  · rw [hearAll_nil, heardBy_of_roomOf hroom]
    rfl
  · intro k hk
    rw [hroom] at hk
    cases hk

/-- A step of a client at its own form and packets -/
theorem Followed.skip (h : Followed ids env past σ.server d form packets) {a : RoomAction n}
    (hserver : σ'.server = σ.server) (hannounced : announced env ids ⟨σ, a, σ'⟩ = none)
    (hspoken : ∀ k, spoken env ids d k ⟨σ, a, σ'⟩ = none) (htyped : typed d ⟨σ, a, σ'⟩ = none)
    (hreceived : received d ⟨σ, a, σ'⟩ = none) :
    Followed ids env (past ++ [⟨σ, a, σ'⟩]) σ'.server d form packets := by
  rcases h with ⟨queue, told, h⟩
  rw [hserver]
  refine ⟨queue, told, h.sendPacketQueue, h.packets, h.speaks, ?_, ?_, ?_⟩
  · rw [heardOf_snoc hreceived]
    exact h.box
  · rw [heardOf_snoc hreceived, h.hears, heardBy_snoc_of_none rfl hannounced]
  · exact h.messages.skip hspoken htyped rfl

/-- A click posts a request. -/
theorem Followed.click (h : Followed ids env past σ.server c form packets) {button : Button}
    (hclick : form.click button = some form') (hserver : σ'.server = σ.server) :
    Followed ids env (past ++ [⟨σ, .click c button, σ'⟩]) σ'.server c form' packets := by
  rcases h with ⟨queue, told, h⟩
  rcases Option.map_eq_some_iff.mp hclick with ⟨form1, hform1, rfl⟩
  rcases h.speaks.click hform1 with ⟨r, hqueue, hspeaks⟩
  rw [hserver]
  refine ⟨queue ++ [.request r], told, ?_, h.packets, hspeaks, ?_, ?_, ?_⟩
  · rw [List.map_append, ← h.sendPacketQueue]
    exact hqueue
  · rw [heardOf_snoc rfl]
    exact h.box
  · rw [heardOf_snoc rfl, h.hears, heardBy_snoc_of_none rfl rfl]
  · rw [filterMap_message?_snoc]
    exact h.messages.skip (fun _ => rfl) rfl rfl

/-- A message is typed. -/
theorem Followed.chatSend (h : Followed ids env past σ.server c form packets) {chatBox : String}
    (hclick : form.chatSendClick chatBox = some form') (hserver : σ'.server = σ.server) :
    Followed ids env (past ++ [⟨σ, .chatSend c chatBox, σ'⟩]) σ'.server c form' packets := by
  rcases h with ⟨queue, told, h⟩
  rcases h.speaks.chatSendClick hclick with ⟨message, rfl, hbox, hqueue, hspeaks⟩
  rw [hserver]
  refine ⟨queue ++ [.roomChat message], told, ?_, h.packets, hspeaks, ?_, ?_, ?_⟩
  · rw [hqueue, h.sendPacketQueue, List.map_append, List.map_singleton]
  · rw [heardOf_snoc rfl, hbox]
    exact h.box
  · rw [heardOf_snoc rfl, h.hears, heardBy_snoc_of_none rfl rfl]
  · have htyped : typed c ⟨σ, .chatSend c message.1, σ'⟩ = some (replaceZero message.1) :=
      if_pos rfl
    refine h.messages.snoc (fun k _ => ?_) fun hne => absurd rfl hne
    rw [List.filterMap_append, htyped]
    rfl

/-- A packet is processed. -/
theorem Followed.process {packet : Packet}
    (h : Followed ids env past σ.server c (σ.form c) (σ.packets c))
    (hhead : σ.packets c = packet :: packets)
    (hprocess : (σ.form c).packetProcess packet = some form') (hserver : σ'.server = σ.server) :
    Followed ids env (past ++ [⟨σ, .process c, σ'⟩]) σ'.server c form' packets := by
  rcases h with ⟨queue, told, h⟩
  have htold := hhead.symm.trans h.packets
  cases told with
  | nil => exact absurd htold (by simp)
  | cons x told =>
    rcases List.cons.inj htold with ⟨rfl, hpackets⟩
    have hform1 := (σ.form c).packetProcess_toForm1 (x.packet env)
    rw [hprocess] at hform1
    have hspeaks := h.speaks
    have hacks : (x :: told).filterMap Told.ack = x.ack.toList ++ told.filterMap Told.ack := by
      cases hack : x.ack <;> simp [hack]
    rw [hacks] at hspeaks
    rcases hspeaks.process (Form1.answered_of_packetProcess x hform1.symm) with
      ⟨posted, hqueue, hnext⟩
    have hreceived : received c ⟨σ, .process c, σ'⟩ = some (x.received env (σ.form c)) := by
      refine (if_pos rfl).trans ?_
      rw [hhead]
      rfl
    have hheard : heardOf (past ++ [⟨σ, .process c, σ'⟩]) c =
        heardIn (past.filterMap (received c) ++ [x.received env (σ.form c)]) := by
      rw [heardOf, filterMap_snoc, hreceived, Option.toList_some]
    rcases box_of_packetProcess x h.box hprocess with ⟨hbox, hmsgs⟩
    rw [hserver]
    refine ⟨queue ++ posted.map Posted.request, told, ?_, hpackets, hnext, ?_, ?_, ?_⟩
    · rw [hqueue, h.sendPacketQueue, List.map_append, List.map_map]
      rfl
    · rw [hheard]
      exact hbox
    · rw [hheard, hmsgs, ← hearAll_cons, heardBy_snoc_of_none rfl rfl]
      exact h.hears
    · have hmessages : (queue ++ posted.map Posted.request).filterMap Posted.message? =
          queue.filterMap Posted.message? := by
        rw [List.filterMap_append, List.filterMap_map]
        simp [Function.comp_def, Posted.message?]
      rw [hmessages]
      exact h.messages.skip (fun _ => rfl) rfl rfl

/-! ## The server takes what is posted -/

variable {p : Posted} {sent : List (Sent n)} {told : Fin n → List Told} {queue : List Bytes}

theorem announced_dispatch (σ' : ChatRooms n m δ) (hqueue : (σ.form c).sendPacketQueue = p.frame :: queue) :
    announced env ids ⟨σ, .dispatch c, σ'⟩ = announcement env ids σ.server c p.frame := by
  change (σ.form c).sendPacketQueue.head?.bind _ = _
  rw [hqueue]
  rfl

/-- What is told to a client comes behind the packets on their way to it. -/
theorem hears_dispatch (h : Taken ids env c p σ.server σ'.server sent told)
    (hqueue : (σ.form c).sendPacketQueue = p.frame :: queue) {pending : List Told}
    {heard : List RoomChatMsg} (hhears : hearAll env pending heard = heardBy env ids past σ.server d) :
    hearAll env (pending ++ told d) heard =
      heardBy env ids (past ++ [⟨σ, .dispatch c, σ'⟩]) σ'.server d := by
  have hturn := h.turn
  rw [← announced_dispatch σ' hqueue] at hturn
  rw [hearAll_append, hhears]
  exact heardBy_of_turn (e := ⟨σ, .dispatch c, σ'⟩) hturn d

/-- A client that posted something else -/
theorem Followed.other (h : Followed ids env past σ.server d form packets) (hd : d ≠ c)
    (htaken : Taken ids env c p σ.server σ'.server sent told)
    (hqueue : (σ.form c).sendPacketQueue = p.frame :: queue) :
    Followed ids env (past ++ [⟨σ, .dispatch c, σ'⟩]) σ'.server d form
      (packets ++ sentTo sent d) := by
  rcases h with ⟨posted, pending, h⟩
  refine ⟨posted, pending ++ told d, h.sendPacketQueue, ?_, ?_, ?_, ?_, ?_⟩
  · rw [h.packets, htaken.sent, List.map_append]
  · rw [List.filterMap_append]
    exact htaken.speaks_other hd h.speaks
  · rw [heardOf_snoc rfl]
    exact h.box
  · rw [heardOf_snoc rfl]
    exact hears_dispatch htaken hqueue h.hears
  · exact h.messages.skip (fun k => if_neg (Ne.symm hd)) rfl (htaken.turn.rooms_other hd)

/-- What the room is told of it is what has been in the queue. -/
theorem spoken_dispatch (honline : Online ids σ.server) (hc : LoggedIn σ.server c)
    (hqueue : (σ.form c).sendPacketQueue = p.frame :: queue) {k : Fin m}
    (hk : roomOf σ.server c = some k) :
    spoken env ids c k ⟨σ, .dispatch c, σ'⟩ = p.message? := by
  have hspoken : spoken env ids c k ⟨σ, .dispatch c, σ'⟩ =
      (announcedIn env ids k ⟨σ, .dispatch c, σ'⟩).bind RoomChatMsg.message? := if_pos rfl
  rw [hspoken, announcedIn, announced_dispatch σ' hqueue]
  cases p with
  | request r =>
    cases hx : announcement env ids σ.server c (Posted.request r).frame with
    | none => rfl
    | some x =>
      have hnone := message_announcement_request honline hc r hx
      rw [Option.bind_some]
      split_ifs
      · exact hnone
      · rfl
  | roomChat message =>
    rw [announcement_roomChat honline hc, hk, Option.map_some, Option.bind_some, if_pos rfl]
    rfl

/-- The client that posted it -/
theorem Follows.own {posted : List Posted} {pending : List Told}
    (h : Follows ids env past σ.server c (σ.form c) packets (p :: posted) pending)
    (honline : Online ids σ.server) (hc : LoggedIn σ.server c)
    (htaken : Taken ids env c p σ.server σ'.server sent told) :
    Followed ids env (past ++ [⟨σ, .dispatch c, σ'⟩]) σ'.server c
      { σ.form c with sendPacketQueue := posted.map Posted.frame } (packets ++ sentTo sent c) := by
  have hspeaks := h.speaks
  have hkept := htaken.speaks_own hspeaks
  refine ⟨posted, pending ++ told c, rfl, ?_, ?_, ?_, ?_, ?_⟩
  · rw [h.packets, htaken.sent, List.map_append]
  · rw [List.filterMap_append]
    exact ⟨hkept.buttons, hkept.chatSend, hkept.phase, hkept.messages⟩
  · rw [heardOf_snoc rfl]
    exact h.box
  · rw [heardOf_snoc rfl]
    exact hears_dispatch htaken h.sendPacketQueue h.hears
  · refine h.messages.snoc (fun k hk => ?_) fun hne hnone => htaken.no_messages hspeaks hne hnone
    rw [spoken_dispatch honline hc h.sendPacketQueue hk]
    have htyped : typed c ⟨σ, .dispatch c, σ'⟩ = none := rfl
    rw [htyped, Option.toList_none, List.append_nil]
    cases p <;> rfl

theorem EntrySucceeds.hasSpace {number : Int32} (hspace : σ.EntrySucceeds (.dispatch c))
    (h : Online ids σ.server) (hc : (σ.server.mUserObjPool c).mState = .inLobby)
    (hqueue : (σ.form c).sendPacketQueue = (Posted.request (.roomEnter number)).frame :: queue) :
    σ.server.HasSpace number := by
  have hhandler := handler_posted h (.inl hc) (.request (.roomEnter number))
  rw [hc] at hhandler
  have hfound := hspace (Posted.request (.roomEnter number)).frame
    (congrArg List.head? hqueue) hhandler
  rwa [← roomNumber_frame number]

/-- What a client posts first is processed; an entry has to find space. -/
theorem Invariant.dispatched (h : Invariant ids env past σ) (hids : Function.Injective ids)
    (hstep : σ.step env (.dispatch c) = some σ') (hspace : σ.EntrySucceeds (.dispatch c)) :
    LoggedIn σ.server c ∧ ∃ p posted pending sent told,
      Follows ids env past σ.server c (σ.form c) (σ.packets c) (p :: posted) pending ∧
        σ.server.processEvent env (frameEvent c p.frame) = some (σ'.server, sent) ∧
        Taken ids env c p σ.server σ'.server sent told ∧
        σ'.form = Function.update σ.form c
          { σ.form c with sendPacketQueue := posted.map Posted.frame } ∧
        σ'.packets = fun d => σ.packets d ++ sentTo sent d := by
  have hc : LoggedIn σ.server c := by
    by_contra hc
    simp [step, (h.silent c hc).sendPacketQueue] at hstep
  rcases h.followed c hc with ⟨queue, pending, hfollows⟩
  have hqueue := hfollows.sendPacketQueue
  cases queue with
  | nil => simp [step, hqueue] at hstep
  | cons p posted =>
    rcases exists_taken env h.online hids hc p (by
      rintro number rfl hlobby
      exact hspace.hasSpace h.online hlobby hqueue) with ⟨server, sent, told, hevent, htaken⟩
    rw [step, hqueue, List.map_cons] at hstep
    simp only [hevent, Option.map_some, Option.some.injEq] at hstep
    subst hstep
    exact ⟨hc, p, posted, pending, sent, told, hfollows, hevent, htaken, rfl, rfl⟩

theorem Invariant.dispatch (h : Invariant ids env past σ) (hids : Function.Injective ids)
    (hstep : σ.step env (.dispatch c) = some σ') (hspace : σ.EntrySucceeds (.dispatch c)) :
    Invariant ids env (past ++ [⟨σ, .dispatch c, σ'⟩]) σ' := by
  rcases h.dispatched hids hstep hspace with
    ⟨hc, p, posted, pending, sent, told, hfollows, -, htaken, hforms, hpackets⟩
  refine ⟨htaken.online, fun d hd => ?_, fun d hd => ?_⟩
  · rw [htaken.loggedIn] at hd
    rw [hforms, hpackets]
    by_cases hdc : d = c
    · subst hdc
      rw [Function.update_self]
      exact hfollows.own h.online hd htaken
    · rw [Function.update_of_ne hdc]
      exact (h.followed d hd).other hdc htaken hfollows.sendPacketQueue
  · rw [htaken.loggedIn] at hd
    have hdc : d ≠ c := fun hdc => hd (hdc ▸ hc)
    have hroom : roomOf σ.server d = none := roomOf_of_not_inRoom fun hin => hd (.inr hin)
    have hsent : sentTo sent d = [] := by
      rw [htaken.sent, htaken.nothing d hdc hroom, List.map_nil]
    rw [hforms, hpackets, Function.update_of_ne hdc]
    dsimp only
    rw [hsent, List.append_nil]
    exact h.silent d hd

theorem Invariant.client (h : Invariant ids env past σ) (hc : LoggedIn σ.server c)
    {a : RoomAction n} {form : ChatForm} {packets : List Packet}
    (hforms : σ'.form = Function.update σ.form c form)
    (hpackets : σ'.packets = Function.update σ.packets c packets) (hserver : σ'.server = σ.server)
    (hother : ∀ d ≠ c, announced env ids ⟨σ, a, σ'⟩ = none ∧
      (∀ k, spoken env ids d k ⟨σ, a, σ'⟩ = none) ∧ typed d ⟨σ, a, σ'⟩ = none ∧
        received d ⟨σ, a, σ'⟩ = none)
    (hown : Followed ids env (past ++ [⟨σ, a, σ'⟩]) σ'.server c form packets) :
    Invariant ids env (past ++ [⟨σ, a, σ'⟩]) σ' := by
  refine ⟨hserver ▸ h.online, fun d hd => ?_, fun d hd => ?_⟩
  · rw [hforms, hpackets]
    by_cases hdc : d = c
    · subst hdc
      rw [Function.update_self, Function.update_self]
      exact hown
    · rw [Function.update_of_ne hdc, Function.update_of_ne hdc]
      rcases hother d hdc with ⟨hannounced, hspoken, htyped, hreceived⟩
      rw [hserver] at hd
      exact (h.followed d hd).skip hserver hannounced hspoken htyped hreceived
  · rw [hserver] at hd
    have hdc : d ≠ c := fun hdc => hd (hdc ▸ hc)
    rw [hforms, hpackets, Function.update_of_ne hdc, Function.update_of_ne hdc]
    exact h.silent d hd

theorem Invariant.click (h : Invariant ids env past σ) {button : Button}
    (hstep : σ.step env (.click c button) = some σ') :
    Invariant ids env (past ++ [⟨σ, .click c button, σ'⟩]) σ' := by
  rcases Option.map_eq_some_iff.mp hstep with ⟨form, hclick, rfl⟩
  have hc : LoggedIn σ.server c := by
    by_contra hc
    rcases Option.map_eq_some_iff.mp hclick with ⟨form1, hform1, -⟩
    rw [(h.silent c hc).toIdle.click] at hform1
    cases hform1
  refine h.client hc rfl (Function.update_eq_self c σ.packets).symm rfl
    (fun d hd => ⟨rfl, fun _ => rfl, rfl, rfl⟩) ?_
  exact (h.followed c hc).click hclick rfl

theorem Invariant.chatSend (h : Invariant ids env past σ) {chatBox : String}
    (hstep : σ.step env (.chatSend c chatBox) = some σ') :
    Invariant ids env (past ++ [⟨σ, .chatSend c chatBox, σ'⟩]) σ' := by
  rcases Option.map_eq_some_iff.mp hstep with ⟨form, hclick, rfl⟩
  have hc : LoggedIn σ.server c := by
    by_contra hc
    rw [ChatForm.chatSendClick, (h.silent c hc).chatSend] at hclick
    cases hclick
  refine h.client hc rfl (Function.update_eq_self c σ.packets).symm rfl
    (fun d hd => ⟨rfl, fun _ => rfl, if_neg (Ne.symm hd), rfl⟩) ?_
  exact (h.followed c hc).chatSend hclick rfl

/-- The packet that a client processes -/
theorem Invariant.processed (h : Invariant ids env past σ)
    (hstep : σ.step env (.process c) = some σ') : LoggedIn σ.server c ∧ ∃ x packets form,
      σ.packets c = Told.packet env x :: packets ∧
        (σ.form c).packetProcess (x.packet env) = some form ∧
        σ' = { σ with
          form := Function.update σ.form c form
          packets := Function.update σ.packets c packets } := by
  rw [step] at hstep
  cases hpackets : σ.packets c with
  | nil => simp [hpackets] at hstep
  | cons packet packets =>
    rw [hpackets] at hstep
    rcases Option.map_eq_some_iff.mp hstep with ⟨form, hprocess, rfl⟩
    have hc : LoggedIn σ.server c := by
      by_contra hc
      have hnil := (h.silent c hc).packets
      rw [hpackets] at hnil
      cases hnil
    rcases h.followed c hc with ⟨queue, told, hfollows⟩
    have htold := hpackets.symm.trans hfollows.packets
    cases told with
    | nil => cases htold
    | cons x told =>
      rcases List.cons.inj htold with ⟨rfl, -⟩
      exact ⟨hc, x, packets, form, rfl, hprocess, rfl⟩

theorem Invariant.process (h : Invariant ids env past σ)
    (hstep : σ.step env (.process c) = some σ') :
    Invariant ids env (past ++ [⟨σ, .process c, σ'⟩]) σ' := by
  rcases h.processed hstep with ⟨hc, x, packets, form, hpackets, hprocess, rfl⟩
  exact h.client hc rfl rfl rfl (fun d hd => ⟨rfl, fun _ => rfl, rfl, if_neg (Ne.symm hd)⟩)
    ((h.followed c hc).process hpackets hprocess rfl)

theorem Invariant.step (h : Invariant ids env past σ) (hids : Function.Injective ids)
    {a : RoomAction n} (hstep : σ.step env a = some σ') (hspace : σ.EntrySucceeds a) :
    Invariant ids env (past ++ [⟨σ, a, σ'⟩]) σ' := by
  cases a with
  | click c button => exact h.click hstep
  | chatSend c chatBox => exact h.chatSend hstep
  | dispatch c => exact h.dispatch hids hstep hspace
  | process c => exact h.process hstep

/-- The invariant of a run in which entries succeed -/
theorem Start.invariant_of_run {σ₀ : ChatRooms n m δ} (start : Start ids σ₀)
    (hids : Function.Injective ids) (env : Env δ) (run : Run (step env) σ₀ past σ)
    (enters : ∀ e ∈ past, e.pre.EntrySucceeds e.act) : Invariant ids env past σ := by
  apply run.invariant (C := fun _ e => e.pre.EntrySucceeds e.act)
    (P := fun past σ => Invariant ids env past σ) (start.invariant env)
  · exact fun _ _ _ _ _ h hstep hspace => h.step hids hstep hspace
  · exact atEach_const.mpr enters

/-- A member has heard a beginning of what its room has been told since its entry, and all
of it when no packet is on its way. -/
theorem Invariant.reads (h : Invariant ids env past σ) {k : Fin m}
    (hmem : c ∈ (σ.server.room k).mUserList) :
    (σ.form c).listBoxRoomChatMsg = boxOf (heardOf past c) ∧
      (heardOf past c).map Heard.msg <+: conversation env ids (stay past c k) k ∧
        (σ.packets c = [] →
          (heardOf past c).map Heard.msg = conversation env ids (stay past c k) k) := by
  have hroom : roomOf σ.server c = some k := (roomOf_eq_some h.online.membership).mpr hmem
  rcases h.followed c (.inr ((h.online.membership.mem_list c k).mp hmem).1) with
    ⟨queue, told, hfollows⟩
  have hheard := hfollows.hears
  rw [heardBy, hroom, Option.elim_some] at hheard
  refine ⟨hfollows.box, ?_, fun hpackets => ?_⟩
  · have hview := view_of_mem h.online.membership hmem
    rw [← hheard]
    exact prefix_hearAll (hfollows.speaks.not_leaving hview) _
  · have htold := hfollows.packets
    rw [hpackets, eq_comm, List.map_eq_nil_iff] at htold
    rw [← hheard, htold, hearAll_nil]

/-- What a member has typed since its entry is told, or is in its queue. -/
theorem Invariant.tells (h : Invariant ids env past σ) {k : Fin m}
    (hmem : c ∈ (σ.server.room k).mUserList) :
    (stay past c k).filterMap (spoken env ids c k) ++
        (σ.form c).sendPacketQueue.filterMap queuedMessage =
      (stay past c k).filterMap (typed c) := by
  have hroom : roomOf σ.server c = some k := (roomOf_eq_some h.online.membership).mpr hmem
  rcases h.followed c (.inr ((h.online.membership.mem_list c k).mp hmem).1) with
    ⟨queue, told, hfollows⟩
  have hqueued : queuedMessage ∘ Posted.frame = Posted.message? := funext queuedMessage_frame
  rw [hfollows.sendPacketQueue, List.filterMap_map, hqueued]
  exact hfollows.messages k hroom

end

/-! ## Whole runs -/

/-- A client lists the rooms and enters the first one. -/
def visitOf (c : Fin n) : List (RoomAction n) :=
  [.dispatch c, .process c, .process c, .click c (.roomEnterBtn 0), .dispatch c, .process c,
    .dispatch c, .process c]

/-- A run of two clients that passes a test: both enter room 0, and then what is given -/
theorem exists_conversation (actions : List (RoomAction 2))
    (test : History 2 10 Unit → ChatRooms 2 10 Unit → Bool)
    (h : twoLogins.any (fun r => (perform (step acceptingEnv) (ofServer r.2)
      (visitOf 0 ++ visitOf 1 ++ actions)).any fun r => test r.1 r.2) = true) :
    ∃ σ₀ past σ, Start twoIds σ₀ ∧ Run (step acceptingEnv) σ₀ past σ ∧
      test past σ = true := by
  rcases (Option.any_eq_true _ _).mp h with ⟨⟨past₀, s⟩, hlogins, hrun⟩
  obtain ⟨past, σ, run, htest⟩ := exists_run (step acceptingEnv) (ofServer s) _ test hrun
  exact ⟨_, past, σ, start_ofServer (start_of_twoLogins hlogins), run, htest⟩

section

variable {ids : Fin n → UserId} {past : History n m δ} {σ₀ σ : ChatRooms n m δ}

/-- Whoever is in a room: what the room has been told in its name since it entered, and
what is in its queue, are the messages that it has typed since then, each once, in the
order of typing. -/
theorem messages_told_as_typed (hids : Function.Injective ids) (env : Env δ)
    (start : Start ids σ₀) (run : Run (step env) σ₀ past σ)
    (enters : ∀ e ∈ past, e.pre.EntrySucceeds e.act) (k : Fin m) :
    ∀ c ∈ (σ.server.room k).mUserList,
      (stay past c k).filterMap (spoken env ids c k) ++
          (σ.form c).sendPacketQueue.filterMap queuedMessage =
        (stay past c k).filterMap (typed c) := by
  intro c hmem
  exact (start.invariant_of_run hids env run enters).tells hmem

/-- The first message has been told, the second one is in the queue. -/
theorem messages_told_as_typed_of_two : ∃ (σ₀ σ : ChatRooms 2 10 Unit) (past : History 2 10 Unit),
    Run (step acceptingEnv) σ₀ past σ ∧
      (stay past 0 0).filterMap (spoken acceptingEnv twoIds 0 0) = ["hi"] ∧
        (stay past 0 0).filterMap (typed 0) = ["hi", "ok"] ∧
          (σ.form 0).sendPacketQueue.filterMap queuedMessage = ["ok"] := by
  obtain ⟨σ₀, past, σ, start, run, h⟩ := exists_conversation
    [.chatSend 0 "hi", .chatSend 0 "ok", .dispatch 0]
    (fun past σ => (∀ e ∈ past, e.pre.EntrySucceeds e.act) ∧
      0 ∈ (σ.server.room 0).mUserList ∧
      (stay past 0 0).filterMap (spoken acceptingEnv twoIds 0 0) = ["hi"] ∧
      (stay past 0 0).filterMap (typed 0) = ["hi", "ok"]) (by decide +kernel)
  rcases of_decide_eq_true h with ⟨enters, hmem, hspoken, htyped⟩
  have htold := messages_told_as_typed twoIds_injective acceptingEnv start run enters 0 0
    hmem
  rw [hspoken, htyped] at htold
  exact ⟨σ₀, σ, past, run, hspoken, htyped, List.cons.inj htold |>.2⟩

end

end ChatRooms

end ChatServer.Client
