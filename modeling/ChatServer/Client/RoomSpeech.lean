import ChatServer.Client.ChatRooms

/-! # When a client speaks

The button that sends messages is enabled from the answer to `REQ_ROOM_INFO` to that to
`REQ_ROOM_LEAVE`. So no message that is typed in one visit to a room is processed in
another: those that a leave overtakes are ignored in the lobby.
-/

namespace ChatServer.Client
open Server

variable {n m : ℕ} {δ : Type*}

namespace Posted

def request? : Posted → Option Request
  | request r => some r
  | roomChat _ => none

/-- The message as it is displayed -/
def message? : Posted → Option String
  | request _ => none
  | roomChat message => some (replaceZero message.1)

/-- What a client posts in a room when it may leave -/
def OfVisit : Posted → Prop
  | request r => r.IsLeave
  | roomChat _ => True

end Posted

/-- When a client with messages in its queue may not leave, it has left, and then asks for
the rooms. -/
def MessagesFit (view : View n) (acks : List Notice.Ack) (queue : List Posted)
    (enter exit : Bool) : Prop :=
  ∀ message, .roomChat message ∈ queue → exit = true ∨ (view = none ∧ acks = [] ∧
    enter = false ∧ ∃ before, queue = before ++ [.request .lobbyInfo] ∧ ∀ p ∈ before, p.OfVisit)

theorem ofVisit_of_isLeave {queue : List Posted}
    (h : ∀ r ∈ queue.filterMap Posted.request?, r.IsLeave) : ∀ p ∈ queue, p.OfVisit := by
  intro p hp
  cases p with
  | request r => exact h r (List.mem_filterMap.mpr ⟨_, hp, rfl⟩)
  | roomChat message => trivial

section phase

variable {ids : Fin n → UserId} {c d : Fin n} {v v' : Fin n → View n} {view : View n} {r : Request}
  {acks : List Notice.Ack} {queue : List Request} {enter exit : Bool} {shown : List (Fin n)}
  {notices : Fin n → List Notice}

/-- The client that is told that it has left -/
theorem Phase.of_roomLeave (h : Phase c view (.roomLeave :: acks) queue enter exit shown) :
    view = none ∧ acks = [] ∧ enter = false ∧ ∀ r ∈ queue, r.IsLeave := by
  cases h with
  | leaving h => exact ⟨rfl, rfl, rfl, h⟩

/-- To a client in a room no answer to a leave is on its way. -/
theorem Phase.not_leaving {l : List (Fin n)}
    (h : Phase c (some l) acks queue enter exit shown) : .roomLeave ∉ acks := by
  cases h <;> simp

/-- A client enters a room when it may not leave one. -/
theorem Phase.of_roomEnter {number : Int32}
    (h : Phase c none acks (.roomEnter number :: queue) enter exit shown) : exit = false := by
  cases h with
  | free | refreshing | left => rfl
  | leaving h => cases h (.roomEnter number) List.mem_cons_self

/-- The request of the client itself -/
theorem Transition.phase_own (t : Transition ids c v r v' notices)
    (h : Phase c (v c) acks (r :: queue) enter exit shown) : ∃ shown',
      Phase c (v' c) (acks ++ (notices c).filterMap Notice.ack) queue enter exit shown' := by
  cases t with
  | ignoredInLobby hc hr =>
    rw [hc] at h ⊢
    simp only [List.filterMap_nil, List.append_nil]
    exact ⟨shown, h.ignoredInLobby hr⟩
  | ignoredInRoom hc hr =>
    rcases Option.ne_none_iff_exists'.mp hc with ⟨l, hl⟩
    rw [hl] at h ⊢
    simp only [List.filterMap_nil, List.append_nil]
    exact ⟨shown, h.ignoredInRoom hr⟩
  | lobbyInfo hc rooms =>
    rw [hc] at h ⊢
    simp only [if_true]
    exact ⟨shown, h.takeLobbyInfo⟩
  | @entered hc number l hl =>
    rw [hc] at h
    have hnot : c ∉ l := fun hmem => by simpa [hc] using (hl c).mp hmem
    simp only [if_true, true_or]
    exact ⟨shown, h.takeRoomEnter hnot⟩
  | @roomInfo l hc =>
    rw [hc] at h ⊢
    simp only [if_true]
    exact ⟨l, h.takeRoomInfo.1⟩
  | left hc hl =>
    rw [hc] at h
    simp only [if_true]
    exact ⟨[], h.takeRoomLeave⟩

/-- The request of another client -/
theorem Transition.phase_other (t : Transition ids c v r v' notices) (hd : d ≠ c)
    (h : Phase d (v d) acks queue enter exit shown) :
    (∃ shown', Phase d (v' d) acks queue enter exit shown') ∧
      (notices d).filterMap Notice.ack = [] ∧ (v d = none → v' d = none) := by
  cases t with
  | ignoredInLobby | ignoredInRoom => exact ⟨⟨shown, h⟩, rfl, id⟩
  | lobbyInfo | roomInfo =>
    simp only [if_neg hd]
    exact ⟨⟨shown, h⟩, rfl, id⟩
  | entered hc number hl =>
    simp only [hd, if_false, false_or]
    split_ifs with hmem
    · rw [(hl d).mp hmem] at h ⊢
      exact ⟨⟨_, h.change (f := (· ++ [c])) (Roster.after_append hmem [c])⟩, rfl, by simp⟩
    · exact ⟨⟨shown, h⟩, rfl, id⟩
  | left hc hl =>
    simp only [hd, if_false]
    split_ifs with hmem
    · rw [(hl d).mp hmem] at h ⊢
      exact ⟨⟨_, h.change (f := List.filter (· ≠ c)) (Roster.after_filter (by simpa using hd))⟩,
        rfl, by simp⟩
    · exact ⟨⟨shown, h⟩, rfl, id⟩

theorem Transition.roomEnter_of (t : Transition ids c v r v' notices) (hv : v c = none)
    (hv' : v' c ≠ none) : ∃ number, r = .roomEnter number := by
  cases t with
  | ignoredInLobby | ignoredInRoom | lobbyInfo | roomInfo => exact absurd hv hv'
  | entered hc number => exact ⟨number, rfl⟩
  | left => exact absurd (if_pos rfl) hv'

end phase

/-- A client that has logged in: its view, the answers on their way, what it has posted -/
structure Speaks (c : Fin n) (view : View n) (acks : List Notice.Ack) (queue : List Posted)
    (form : Form1) : Prop where
  buttons : form.roomListRefreshBtn = form.roomEnterBtn
  chatSend : form.chatSend = form.roomExit
  phase : ∃ shown, Phase c view acks (queue.filterMap Posted.request?) form.roomEnterBtn
    form.roomExit shown
  messages : MessagesFit view acks queue form.roomEnterBtn form.roomExit

theorem filterMap_request?_snoc (queue : List Posted) (r : Request) :
    (queue ++ [Posted.request r]).filterMap Posted.request? =
      queue.filterMap Posted.request? ++ [r] := by
  rw [List.filterMap_append]
  rfl

theorem filterMap_message?_snoc (queue : List Posted) (r : Request) :
    (queue ++ [Posted.request r]).filterMap Posted.message? = queue.filterMap Posted.message? := by
  rw [List.filterMap_append]
  exact List.append_nil _

namespace Speaks

variable {c d : Fin n} {view : View n} {acks : List Notice.Ack} {queue : List Posted}
  {form form' : Form1}

/-- A request is posted while messages may be in the queue. -/
theorem messages_snoc (h : Speaks c view acks queue form) (r : Request)
    (hbutton : form.roomEnterBtn = true ∨ form.roomExit = true) :
    ∀ message, Posted.roomChat message ∈ queue ++ [.request r] → form.roomExit = true := by
  intro message hmem
  rcases List.mem_append.mp hmem with hmem | hmem
  · rcases h.messages message hmem with hexit | ⟨-, -, henter, -⟩
    · exact hexit
    · exact hbutton.resolve_left (by simp [henter])
  · cases List.mem_singleton.mp hmem

/-- A click posts a request that fits the phase. -/
theorem click (h : Speaks c view acks queue form) {button : Button}
    (hclick : form.click button = some form') : ∃ r : Request,
      form'.sendPacketQueue = form.sendPacketQueue ++ [r.frame] ∧
        Speaks c view acks (queue ++ [.request r]) form' := by
  rcases h.phase with ⟨shown, hphase⟩
  cases button with
  | roomEnterBtn selectedIndex =>
    simp only [Form1.click, Form1.roomEnterBtnClick, Option.ite_none_right_eq_some,
      Option.some.injEq] at hclick
    rcases hclick with ⟨henter, rfl⟩
    have hmessages := h.messages_snoc (.roomEnter selectedIndex) (.inl henter)
    rw [henter] at hphase
    have hnext := hphase.clickEnter selectedIndex
    rw [← filterMap_request?_snoc, ← henter] at hnext
    exact ⟨.roomEnter selectedIndex, rfl, h.buttons, h.chatSend, ⟨shown, hnext⟩,
      fun message hmem => .inl (hmessages message hmem)⟩
  | roomListRefreshBtn =>
    simp only [Form1.click, Form1.roomListRefreshBtnClick, Option.ite_none_right_eq_some,
      Option.some.injEq] at hclick
    rcases hclick with ⟨hrefresh, rfl⟩
    have henter : form.roomEnterBtn = true := h.buttons.symm.trans hrefresh
    have hmessages := h.messages_snoc .lobbyInfo (.inl henter)
    rw [henter] at hphase
    have hnext := hphase.clickRefresh
    rw [← filterMap_request?_snoc] at hnext
    exact ⟨.lobbyInfo, rfl, rfl, h.chatSend, ⟨shown, hnext⟩,
      fun message hmem => .inl (hmessages message hmem)⟩
  | roomExit =>
    simp only [Form1.click, Form1.roomExitClick, Option.ite_none_right_eq_some,
      Option.some.injEq] at hclick
    rcases hclick with ⟨hexit, rfl⟩
    have hmessages := h.messages_snoc .roomLeave (.inr hexit)
    rw [hexit] at hphase
    have hnext := hphase.clickExit
    rw [← filterMap_request?_snoc, ← hexit] at hnext
    exact ⟨.roomLeave, rfl, h.buttons, h.chatSend, ⟨shown, hnext⟩,
      fun message hmem => .inl (hmessages message hmem)⟩

/-- A message is typed. -/
theorem chatSendClick {form form' : ChatForm} (h : Speaks c view acks queue form.toForm1)
    {chatBox : String} (hclick : form.chatSendClick chatBox = some form') :
    ∃ message : ChatText, message.1 = chatBox ∧
      form'.listBoxRoomChatMsg = form.listBoxRoomChatMsg ∧
      form'.sendPacketQueue = form.sendPacketQueue ++ [(Posted.roomChat message).frame] ∧
        Speaks c view acks (queue ++ [.roomChat message]) form'.toForm1 := by
  simp only [ChatForm.chatSendClick, Option.ite_none_right_eq_some, Option.bind_eq_bind,
    Option.bind_eq_some_iff, Option.some.injEq] at hclick
  rcases hclick with ⟨hsend, packet, hpacket, rfl⟩
  rcases ReqRoomChatPacket.setValue_new.mp hpacket with ⟨hlength, rfl⟩
  refine ⟨⟨chatBox, hlength⟩, rfl, rfl, rfl, h.buttons, h.chatSend, ?_, fun _ _ => .inl ?_⟩
  · rw [List.filterMap_append, List.filterMap_cons_none rfl, List.filterMap_nil, List.append_nil]
    exact h.phase
  · exact h.chatSend.symm.trans hsend

/-- An answer moves the buttons to the next phase and posts the request that follows. -/
theorem answered (a : Option Notice.Ack) (h : Speaks c view (a.toList ++ acks) queue form) :
    ∃ posted : List Request, (form.answered a).sendPacketQueue =
        form.sendPacketQueue ++ posted.map Request.frame ∧
      Speaks c view acks (queue ++ posted.map Posted.request) (form.answered a) := by
  rcases h.phase with ⟨shown, hphase⟩
  cases a with
  | none =>
    refine ⟨[], (List.append_nil _).symm, ?_⟩
    rw [List.map_nil, List.append_nil]
    exact h
  | some a =>
    -- an answer is on its way, so that messages wait only where the client may leave
    have hexit : ∀ message, Posted.roomChat message ∈ queue → form.roomExit = true := by
      intro message hmem
      rcases h.messages message hmem with hexit | ⟨-, hacks, -⟩
      · exact hexit
      · cases hacks
    have hposted {r : Request} : ∀ message, Posted.roomChat message ∈ queue ++ [.request r] →
        Posted.roomChat message ∈ queue := by
      intro message hmem
      simpa using hmem
    cases a with
    | lobbyInfo =>
      refine ⟨[], (List.append_nil _).symm, rfl, h.chatSend, ⟨shown, ?_⟩, fun message hmem => ?_⟩
      · rw [List.map_nil, List.append_nil]
        exact hphase.lobbyInfo
      · rw [List.map_nil, List.append_nil] at hmem
        exact .inl (hexit message hmem)
    | roomEnter =>
      refine ⟨[.roomInfo], rfl, rfl, h.chatSend, ⟨shown, ?_⟩, fun message hmem => ?_⟩
      · rw [List.map_singleton, filterMap_request?_snoc]
        exact hphase.roomEnter
      · exact .inl (hexit message (hposted message hmem))
    | roomInfo =>
      refine ⟨[], (List.append_nil _).symm, h.buttons, rfl, ⟨shown, ?_⟩, fun _ _ => .inl rfl⟩
      rw [List.map_nil, List.append_nil]
      exact hphase.roomInfo
    | roomLeave =>
      refine ⟨[.lobbyInfo], rfl, h.buttons, rfl, ⟨shown, ?_⟩, fun message hmem => .inr ?_⟩
      · rw [List.map_singleton, filterMap_request?_snoc]
        exact hphase.roomLeave
      · rcases hphase.of_roomLeave with ⟨hview, hacks, henter, hleaves⟩
        exact ⟨hview, hacks, henter, queue, rfl, ofVisit_of_isLeave hleaves⟩

/-- A packet is processed. -/
theorem process {told : Told} (h : Speaks c view (told.ack.toList ++ acks) queue form)
    (hanswered : form.Answered told.ack form') : ∃ posted : List Request,
      form'.sendPacketQueue = form.sendPacketQueue ++ posted.map Request.frame ∧
        Speaks c view acks (queue ++ posted.map Posted.request) form' := by
  rcases hanswered with ⟨⟨hrefresh, henter, hexit, hqueue⟩, hsend⟩
  rcases h.answered with ⟨posted, hposted, hspeaks⟩
  refine ⟨posted, hqueue.trans hposted, ?_, ?_, ?_, ?_⟩
  · rw [hrefresh, henter]
    exact hspeaks.buttons
  · rw [hsend, hexit]
    exact hspeaks.chatSend
  · rw [henter, hexit]
    exact hspeaks.phase
  · rw [henter, hexit]
    exact hspeaks.messages

/-- Of what a client in the lobby has posted in its visit, the rest comes before the rooms
are asked for. -/
theorem messages_tail {view' : View n} {acks' : List Notice.Ack} {p : Posted}
    (h : Speaks c view acks (p :: queue) form)
    (hignored : view = none → p.OfVisit → view' = none ∧ acks' = acks) :
    MessagesFit view' acks' queue form.roomEnterBtn form.roomExit := by
  intro message hmem
  rcases h.messages message (List.mem_cons_of_mem _ hmem) with
    hexit | ⟨hview, hacks, henter, before, hqueue, hvisit⟩
  · exact .inl hexit
  · cases before with
    | nil =>
      rw [(List.cons.inj hqueue).2] at hmem
      cases hmem
    | cons q before =>
      rcases List.cons.inj hqueue with ⟨rfl, hrest⟩
      rcases hignored hview (hvisit p List.mem_cons_self) with ⟨hview', hacks'⟩
      exact .inr ⟨hview', hacks'.trans hacks, henter, before, hrest,
        fun q hq => hvisit q (List.mem_cons_of_mem _ hq)⟩

variable {ids : Fin n → UserId} {v v' : Fin n → View n} {r : Request}
  {notices : Fin n → List Notice}

/-- The server takes a request of the client. -/
theorem own (h : Speaks c (v c) acks (.request r :: queue) form)
    (t : Transition ids c v r v' notices) :
    Speaks c (v' c) (acks ++ (notices c).filterMap Notice.ack) queue form := by
  rcases h.phase with ⟨shown, hphase⟩
  refine ⟨h.buttons, h.chatSend, t.phase_own hphase, h.messages_tail fun hview hleave => ?_⟩
  obtain rfl : r = .roomLeave := hleave
  cases t with
  | ignoredInLobby => exact ⟨hview, List.append_nil acks⟩
  | ignoredInRoom hc => exact absurd hview hc
  | left hc => exact absurd (hview.symm.trans hc) (by simp)

/-- The server takes a message of the client. -/
theorem own_roomChat {message : ChatText} (h : Speaks c view acks (.roomChat message :: queue) form) :
    Speaks c view acks queue form :=
  ⟨h.buttons, h.chatSend, h.phase, h.messages_tail fun hview _ => ⟨hview, rfl⟩⟩

/-- The server takes a request of another client. -/
theorem other (h : Speaks d (v d) acks queue form) (hd : d ≠ c)
    (t : Transition ids c v r v' notices) : Speaks d (v' d) acks queue form ∧
      (notices d).filterMap Notice.ack = [] := by
  rcases h.phase with ⟨shown, hphase⟩
  rcases t.phase_other hd hphase with ⟨hnext, hacks, hview⟩
  refine ⟨⟨h.buttons, h.chatSend, hnext, fun message hmem => ?_⟩, hacks⟩
  exact (h.messages message hmem).imp_right fun hleft => ⟨hview hleft.1, hleft.2⟩

theorem not_leaving {l : List (Fin n)} (h : Speaks c view acks queue form) (hview : view = some l) :
    .roomLeave ∉ acks := by
  rcases h.phase with ⟨shown, hphase⟩
  rw [hview] at hphase
  exact hphase.not_leaving

/-- A client that enters a room has no messages in its queue. -/
theorem no_messages {number : Int32}
    (h : Speaks c none acks (.request (.roomEnter number) :: queue) form) :
    queue.filterMap Posted.message? = [] := by
  rcases h.phase with ⟨shown, hphase⟩
  apply List.filterMap_eq_nil_iff.mpr
  intro p hp
  cases p with
  | request r => rfl
  | roomChat message =>
    rcases h.messages message (List.mem_cons_of_mem _ hp) with hexit | ⟨-, -, -, before, hqueue, hvisit⟩
    · rw [hphase.of_roomEnter] at hexit
      cases hexit
    · cases before with
      | nil => cases hqueue
      | cons q before =>
        obtain rfl := List.head_eq_of_cons_eq hqueue
        cases hvisit _ List.mem_cons_self

end Speaks

section taken

variable {ids : Fin n → UserId} {env : Env δ} {s s' : Server n m δ} {sent : List (Sent n)}
  {told : Fin n → List Told} {c d : Fin n} {p : Posted} {acks : List Notice.Ack}
  {queue : List Posted} {form : Form1}

theorem filterMap_ack_notices (notices : List Notice) :
    (notices.map Told.notice).filterMap Told.ack = notices.filterMap Notice.ack := by
  rw [List.filterMap_map]
  rfl

theorem filterMap_ack_of_notice? {told : List Told} (h : told.filterMap Told.notice? = []) :
    told.filterMap Told.ack = [] := by
  have hack : Told.ack = fun x => x.notice?.bind Notice.ack := rfl
  rw [hack, ← List.filterMap_filterMap, h, List.filterMap_nil]

/-- What the client has posted is processed. -/
theorem Taken.speaks_own (h : Taken ids env c p s s' sent told)
    (hspeaks : Speaks c (view s c) acks (p :: queue) form) :
    Speaks c (view s' c) (acks ++ (told c).filterMap Told.ack) queue form := by
  cases p with
  | request r =>
    rcases h.request r rfl with ⟨notices, ht, htold⟩
    rw [htold, filterMap_ack_notices]
    exact hspeaks.own ht
  | roomChat message =>
    rcases h.roomChat message rfl with ⟨rfl, hnotices⟩
    rw [filterMap_ack_of_notice? (hnotices _), List.append_nil]
    exact hspeaks.own_roomChat

/-- What another client has posted is processed. -/
theorem Taken.speaks_other (h : Taken ids env c p s s' sent told) (hd : d ≠ c)
    (hspeaks : Speaks d (view s d) acks queue form) :
    Speaks d (view s' d) (acks ++ (told d).filterMap Told.ack) queue form := by
  cases p with
  | request r =>
    rcases h.request r rfl with ⟨notices, ht, htold⟩
    rcases hspeaks.other hd ht with ⟨hnext, hacks⟩
    rw [htold, filterMap_ack_notices, hacks, List.append_nil]
    exact hnext
  | roomChat message =>
    rcases h.roomChat message rfl with ⟨rfl, hnotices⟩
    rw [filterMap_ack_of_notice? (hnotices _), List.append_nil]
    exact hspeaks

/-- Only a client that enters a room comes into one, and it has no messages in its queue. -/
theorem Taken.no_messages (h : Taken ids env c p s s' sent told)
    (hspeaks : Speaks c (view s c) acks (p :: queue) form) (hroom : roomOf s c ≠ roomOf s' c)
    (hnone : roomOf s' c ≠ none) : queue.filterMap Posted.message? = [] := by
  have hbefore : roomOf s c = none := by
    cases h.turn with
    | unheard hrooms => exact absurd (congrFun hrooms c).symm hroom
    | entered k x hc => exact hc
    | left k x hc hrooms => exact absurd (by rw [hrooms, Function.update_self]) hnone
    | said k x hc hrooms => exact absurd (congrFun hrooms c).symm hroom
  cases p with
  | request r =>
    rcases h.request r rfl with ⟨notices, ht, -⟩
    have hview : view s c = none := by rw [view_eq_roomOf, hbefore, Option.map_none]
    have hview' : view s' c ≠ none := by
      rw [view_eq_roomOf]
      simpa using hnone
    rcases ht.roomEnter_of hview hview' with ⟨number, rfl⟩
    rw [hview] at hspeaks
    exact hspeaks.no_messages
  | roomChat message =>
    rw [(h.roomChat message rfl).1] at hroom
    exact absurd rfl hroom

end taken

end ChatServer.Client
