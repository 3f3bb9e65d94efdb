import ChatServer.Client.RoomVisit
import ChatServer.Server.Membership
import ChatServer.Server.RoomEntry

/-! # The requests of the form at the server

The frame of a request reaches `ProcessRecvPacket` with the id and the size in its
header. What the handlers do with it is a `Transition` of the views of the clients.
-/

namespace ChatServer.Client
open Server

variable {n m : ℕ} {δ : Type*}

namespace Request

def packetId : Request → PacketId
  | lobbyInfo => .reqLobbyInfo
  | roomEnter _ => .reqRoomEnter
  | roomInfo => .reqRoomInfo
  | roomLeave => .reqRoomLeave

def bodyData : Request → Option Bytes
  | roomEnter roomNumber => some (reqRoomEnterBytes roomNumber)
  | _ => none

/-- What `PostSendPacket` puts into `SendPacketQueue` -/
def frame (r : Request) : Bytes := postSendPacket r.packetId r.bodyData

theorem frame_eq (r : Request) : r.frame = requestFrame r.packetId (r.bodyData.getD []) := by
  apply postSendPacket_eq_requestFrame
  cases r with
  | roomEnter number =>
    have hlength : (reqRoomEnterBytes number).length = 4 := rfl
    simp [bodyData, hlength]
  | lobbyInfo | roomInfo | roomLeave => decide

end Request

/-- The event in which a frame of client `c` is processed -/
def frameEvent (c : Fin n) (frame : Bytes) : Event n :=
  .frame c (PacketHeader.read frame).packetId (PacketHeader.read frame).packetLength frame

theorem read_frame_packetId (r : Request) :
    (PacketHeader.read r.frame).packetId = r.packetId.code := by
  have hread := read_requestFrame (r := []) r.packetId (r.bodyData.getD [])
  rw [List.append_nil] at hread
  rw [r.frame_eq, hread]

theorem roomNumber_frame (number : Int32) :
    int32At (Request.roomEnter number).frame roomNumberOffset = number := by
  have hdrop := drop_requestFrame (r := []) .reqRoomEnter (reqRoomEnterBytes number)
  rw [List.append_nil] at hdrop
  have hoffset : roomNumberOffset = packetHeaderLength := rfl
  rw [Request.frame_eq, hoffset, ← int32At_drop]
  change int32At ((requestFrame .reqRoomEnter (reqRoomEnterBytes number)).drop
    packetHeaderLength) 0 = number
  rw [hdrop]
  exact int32At_le32_append number []

/-- The packets that go to one client, in order -/
def sentTo (sent : List (Sent n)) (d : Fin n) : List Packet :=
  (sent.filter fun x => x.clientIndex = d).map Sent.packet

@[simp] theorem sentTo_append (sent sent' : List (Sent n)) (d : Fin n) :
    sentTo (sent ++ sent') d = sentTo sent d ++ sentTo sent' d := by simp [sentTo]

theorem sentTo_singleton (x : Sent n) (d : Fin n) :
    sentTo [x] d = if d = x.clientIndex then [x.packet] else [] := by
  by_cases h : d = x.clientIndex
  · simp [sentTo, h]
  · simp [sentTo, h, Ne.symm h]

/-- One packet to each member of a list -/
theorem sentTo_map {l : List (Fin n)} (hnodup : l.Nodup) (size : ℕ) (packet : Packet)
    (d : Fin n) : sentTo (l.map fun j => sendPacketFunc j size packet) d =
      if d ∈ l then [packet] else [] := by
  induction l with
  | nil => rfl
  | cons j l ih =>
    rw [List.nodup_cons] at hnodup
    rw [List.map_cons, ← List.singleton_append, sentTo_append, sentTo_singleton, ih hnodup.2]
    simp only [sendPacketFunc_clientIndex, sendPacketFunc_packet, List.mem_cons]
    by_cases hd : d = j
    · subst hd
      simp [hnodup.1]
    · simp [hd]

/-- A broadcast to a room, and the answer to the client that caused it -/
theorem sentTo_broadcast_ack {s : Server n m δ} {k : Fin m} (hnodup : (s.room k).mUserList.Nodup)
    (size : ℕ) (packet : Packet) (unset : UInt8) (c : Fin n) (packetId : PacketId)
    (result : ResultCode) (d : Fin n) :
    sentTo (s.broadcast k size packet ++ [sendAck unset c packetId result]) d =
      (if d ∈ (s.room k).mUserList then [packet] else []) ++
        if d = c then [ackPacket unset packetId result] else [] := by
  rw [sentTo_append, broadcast, sentTo_map hnodup, sentTo_singleton, sendAck_clientIndex]
  rfl

/-- The list of the room that a client is in -/
def view (s : Server n m δ) (c : Fin n) : View n :=
  if (s.mUserObjPool c).mState = .inRoom then (s.getRoom c).map fun k => (s.room k).mUserList
  else none

/-- The client has logged in. -/
def LoggedIn (s : Server n m δ) (c : Fin n) : Prop :=
  (s.mUserObjPool c).mState = .inLobby ∨ (s.mUserObjPool c).mState = .inRoom

instance (s : Server n m δ) : DecidablePred (LoggedIn s) := fun _ => instDecidableOr

/-- The lists of the rooms agree with the users, and those that have logged in have
their ids and the handlers of their states. -/
structure Online (ids : Fin n → UserId) (s : Server n m δ) : Prop where
  membership : s.Membership
  mUserID : ∀ c, LoggedIn s c → (s.mUserObjPool c).mUserID = getBytes (ids c).1
  handlers : ∀ c, LoggedIn s c →
    (s.mUserObjPool c).recvFuntionDictionary = (s.mUserObjPool c).mState.handlers

section view

variable {s s' : Server n m δ} {c : Fin n} {k : Fin m}

theorem view_of_not_inRoom (h : (s.mUserObjPool c).mState ≠ .inRoom) : view s c = none :=
  if_neg h

theorem view_of_mem (h : s.Membership) (hc : c ∈ (s.room k).mUserList) :
    view s c = some (s.room k).mUserList := by
  rcases (h.mem_list c k).mp hc with ⟨hstate, hroom⟩
  rw [view, if_pos hstate, hroom, Option.map_some]

theorem exists_room_of_inRoom (h : s.Membership) (hc : (s.mUserObjPool c).mState = .inRoom) :
    ∃ k, s.getRoom c = some k ∧ c ∈ (s.room k).mUserList := by
  rcases Option.ne_none_iff_exists'.mp (h.getRoom_ne_none c hc) with ⟨k, hk⟩
  exact ⟨k, hk, (h.mem_list c k).mpr ⟨hc, hk⟩⟩

theorem view_eq_some (h : s.Membership) {l : List (Fin n)} (hview : view s c = some l) :
    ∃ k, s.getRoom c = some k ∧ c ∈ (s.room k).mUserList ∧ l = (s.room k).mUserList := by
  have hc : (s.mUserObjPool c).mState = .inRoom := by
    by_contra hc
    simp [view_of_not_inRoom hc] at hview
  rcases exists_room_of_inRoom h hc with ⟨k, hk, hmem⟩
  rw [view_of_mem h hmem, Option.some.injEq] at hview
  exact ⟨k, hk, hmem, hview.symm⟩

theorem view_nodup (h : s.Membership) {l : List (Fin n)} (hview : view s c = some l) :
    l.Nodup := by
  rcases view_eq_some h hview with ⟨k, -, -, rfl⟩
  exact h.nodup k

/-- The members of a room are those whose view is its list. -/
theorem mem_iff_view (h : s.Membership) (c : Fin n) :
    c ∈ (s.room k).mUserList ↔ view s c = some (s.room k).mUserList := by
  refine ⟨view_of_mem h, fun hview => ?_⟩
  rcases view_eq_some h hview with ⟨k', -, hmem, hlist⟩
  rwa [hlist]

/-- Nothing about a client changes. -/
theorem view_congr (h : s.Membership) (huser : s'.mUserObjPool c = s.mUserObjPool c)
    (hnumber : s'.mRoomManager.getRoomByNumber = s.mRoomManager.getRoomByNumber)
    (hrooms : ∀ k, c ∈ (s.room k).mUserList → (s'.room k).mUserList = (s.room k).mUserList) :
    view s' c = view s c := by
  have hget : s'.getRoom c = s.getRoom c := by rw [getRoom, getRoom, huser, hnumber]
  by_cases hc : (s.mUserObjPool c).mState = .inRoom
  · rcases exists_room_of_inRoom h hc with ⟨k, hk, hmem⟩
    rw [view_of_mem h hmem, view, huser, if_pos hc, hget, hk, Option.map_some, hrooms k hmem]
  · rw [view_of_not_inRoom hc, view_of_not_inRoom (by rwa [huser])]

end view

/-! ## What the server does with a request -/

/-- A request of `c` is processed: the clients that are logged in stay so, and the
views and packets are those of a `Transition`. -/
structure Served (ids : Fin n → UserId) (unset : UInt8) (c : Fin n) (r : Request)
    (s s' : Server n m δ) (sent : List (Sent n)) (notices : Fin n → List Notice) : Prop where
  online : Online ids s'
  loggedIn : ∀ d, LoggedIn s' d ↔ LoggedIn s d
  transition : Transition ids c (view s) r (view s') notices
  sent : ∀ d, sentTo sent d = (notices d).map (Notice.packet unset)

section served

variable {ids : Fin n → UserId} {s : Server n m δ} {c : Fin n}

theorem handler_request (h : Online ids s) (hc : LoggedIn s c) (r : Request) :
    s.handler c r.packetId.code = (s.mUserObjPool c).mState.handlers r.packetId := by
  have hrequest : (dispatched (.frame c r.packetId.code 0 [])).bind ProcessFunction.request =
      some r.packetId := by cases r <;> rfl
  rw [handler, hrequest, ← h.handlers c hc]

theorem processEvent_request (env : Env δ) (h : Online ids s) (hc : LoggedIn s c) (r : Request) :
    s.processEvent env (frameEvent c r.frame) = s.runRecvFunction env c
      (PacketHeader.read r.frame).packetLength r.frame
      ((s.mUserObjPool c).mState.handlers r.packetId) := by
  rw [frameEvent, processEvent_frame, read_frame_packetId, handler_request h hc]

/-- A user that stays logged in keeps its id and has the handlers of its new state. -/
theorem Online.changeState (h : Online ids s) (hc : LoggedIn s c) (s' : Server n m δ)
    (f : User → User) {state : UserState} (hstate : state = .inLobby ∨ state = .inRoom)
    (husers : s'.mUserObjPool = (s.updateUser c fun u => User.changeState state (f u)).mUserObjPool)
    (hid : ∀ u, (f u).mUserID = u.mUserID) (hmembership : s'.Membership) :
    Online ids s' ∧ ∀ d, LoggedIn s' d ↔ LoggedIn s d := by
  have hne : state ≠ .none := by rcases hstate with rfl | rfl <;> decide
  have htable : ∀ u, (User.changeState state u).recvFuntionDictionary = state.handlers :=
    fun u => u.changeState_table (.inr hstate)
  have hlogged : ∀ d, LoggedIn s' d ↔ LoggedIn s d := by
    intro d
    rw [LoggedIn, husers]
    by_cases hd : d = c
    · subst hd
      rw [updateUser_self, User.changeState_mState _ hne]
      exact iff_of_true hstate hc
    · rw [updateUser_other _ _ _ hd]
      rfl
  refine ⟨⟨hmembership, fun d hd => ?_, fun d hd => ?_⟩, hlogged⟩
  · rw [husers]
    by_cases hdc : d = c
    · subst hdc
      rw [updateUser_self, User.changeState_mUserID, hid]
      exact h.mUserID d hc
    · rw [updateUser_other _ _ _ hdc]
      exact h.mUserID d ((hlogged d).mp hd)
  · rw [husers]
    by_cases hdc : d = c
    · subst hdc
      rw [updateUser_self, htable, User.changeState_mState _ hne]
    · rw [updateUser_other _ _ _ hdc]
      exact h.handlers d ((hlogged d).mp hd)

theorem Served.unchanged (h : Online ids s) {unset : UInt8} {r : Request} {sent : List (Sent n)}
    {notices : Fin n → List Notice} (ht : Transition ids c (view s) r (view s) notices)
    (hsent : ∀ d, sentTo sent d = (notices d).map (Notice.packet unset)) :
    Served ids unset c r s s sent notices := ⟨h, fun _ => .rfl, ht, hsent⟩

theorem served_lobbyInfo (env : Env δ) (h : Online ids s) (hc : view s c = none) :
    Served ids env.unset c .lobbyInfo s s (s.processLobbyInfo env c).2
      (fun d => if d = c then [.ackLobbyInfo, .notifyLobbyInfo s.mRoomManager.getRoomList]
        else []) := by
  apply Served.unchanged h (.lobbyInfo hc s.mRoomManager.getRoomList)
  intro d
  rw [processLobbyInfo, ← List.singleton_append, sentTo_append, sentTo_singleton,
    sentTo_singleton]
  by_cases hd : d = c
  · simp [hd, Notice.packet, sendAck]
  · simp [hd]

theorem served_roomInfo (env : Env δ) (h : Online ids s) {k : Fin m}
    (hroom : s.getRoom c = some k)
    (hc : c ∈ (s.room k).mUserList) : ∃ sent,
    s.processRoomInfo env c = some (s, sent) ∧
      Served ids env.unset c .roomInfo s s sent
        (fun d => if d = c then [.ackRoomInfo ((s.room k).mUserList.map ids)] else []) := by
  have hmembers : (s.room k).getRoomMemberList s.mUserObjPool =
      ((s.room k).mUserList.map ids).map fun id => getBytes id.1 := by
    rw [Room.getRoomMemberList, List.map_map]
    apply List.map_congr_left
    intro d hd
    exact h.mUserID d (.inr ((h.membership.mem_list d k).mp hd).1)
  rw [processRoomInfo, hroom]
  refine ⟨_, rfl, .unchanged h (.roomInfo (view_of_mem h.membership hc)) fun d => ?_⟩
  rw [sentTo_singleton]
  by_cases hd : d = c
  · rw [hd, sendPacketFunc_clientIndex, if_pos rfl, if_pos rfl, sendPacketFunc_packet]
    rw [List.map_singleton, Notice.packet, ← hmembers]
  · rw [sendPacketFunc_clientIndex, if_neg hd, if_neg hd]
    rfl

/-- The new member and those that were there see the new list. -/
theorem view_entered (h : s.Membership) {number : Int32} {k : Fin m} (count : UInt16)
    (hc : (s.mUserObjPool c).mState ≠ .inRoom)
    (hk : s.mRoomManager.getRoomByNumber number = some k) :
    view ((s.setRoom k ((s.room k).mUserList ++ [c]) count).putInRoom c number) = fun d =>
      if d = c ∨ d ∈ (s.room k).mUserList then some ((s.room k).mUserList ++ [c])
      else view s d := by
  have hlist : ∀ j, (((s.setRoom k ((s.room k).mUserList ++ [c]) count).putInRoom c
      number).room j).mUserList =
        if j = k then (s.room k).mUserList ++ [c] else (s.room j).mUserList := by
    intro j
    rw [putInRoom, updateUser_room, setRoom_mUserList]
  funext d
  split_ifs with hd
  · have hmem := membership_entered h count hc hk
    have hview := view_of_mem (c := d) (k := k) hmem (by
      rw [hlist, if_pos rfl]
      simpa [or_comm] using hd)
    rwa [hlist, if_pos rfl] at hview
  · rw [not_or] at hd
    apply view_congr h
    · exact updateUser_other _ _ _ hd.1
    · rfl
    · intro j hj
      rw [hlist, if_neg]
      rintro rfl
      exact hd.2 hj

/-- Those that stay see the list without the one that has left. -/
theorem view_left (h : s.Membership) {k : Fin m} (count : UInt16)
    (hc : (s.mUserObjPool c).mState = .inRoom) (hk : s.getRoom c = some k)
    (hother : ∀ j ∈ (s.room k).mUserList,
      (s.mUserObjPool j).mUserID = (s.mUserObjPool c).mUserID → j = c) :
    view ((s.setRoom k (s.stayers c k) count).updateUser c (User.changeState .inLobby)) = fun d =>
      if d = c then none
      else if d ∈ (s.room k).mUserList then some ((s.room k).mUserList.filter (· ≠ c))
      else view s d := by
  have hstayers : s.stayers c k = (s.room k).mUserList.filter (· ≠ c) := by
    apply List.filter_congr
    intro j hj
    apply decide_eq_decide.mpr
    refine ⟨fun hid hjc => hid (by rw [hjc]), fun hjc hid => hjc (hother j hj hid.symm)⟩
  have hlist : ∀ j, (((s.setRoom k (s.stayers c k) count).updateUser c
      (User.changeState .inLobby)).room j).mUserList =
        if j = k then s.stayers c k else (s.room j).mUserList := by
    intro j
    rw [updateUser_room, setRoom_mUserList]
  funext d
  split_ifs with hdc hd
  · subst hdc
    exact view_of_not_inRoom (by simp)
  · have hmem := (membership_left h count hc hk).mpr hother
    have hview := view_of_mem (c := d) (k := k) hmem (by
      rw [hlist, if_pos rfl, hstayers]
      simpa [hdc] using hd)
    rw [hlist, if_pos rfl] at hview
    rw [hview, hstayers]
  · apply view_congr h
    · exact updateUser_other _ _ _ hdc
    · rfl
    · intro j hj
      rw [hlist, if_neg]
      rintro rfl
      exact hd hj

theorem served_roomEnter (env : Env δ) (h : Online ids s) {number : Int32} {k : Fin m}
    (hc : (s.mUserObjPool c).mState = .inLobby)
    (hk : s.mRoomManager.getRoomByNumber number = some k)
    (hspace : (s.room k).getCurrentUserCount < (s.room k).getMaxUserCount) :
    ∃ s' sent, s.processEnterRoom env c (Request.roomEnter number).frame = (s', sent) ∧
      Served ids env.unset c (.roomEnter number) s s' sent
        (fun d => if d = c then [.ackRoomEnter]
          else if d ∈ (s.room k).mUserList then [.notifyRoomInfo (ids c)] else []) := by
  have hout : (s.mUserObjPool c).mState ≠ .inRoom := by simp [hc]
  have hnot := h.membership.not_mem hout k
  have hview := view_entered h.membership ((s.room k).mCurrentUserCount + 1) hout hk
  rcases h.changeState (.inl hc) ((s.setRoom k ((s.room k).mUserList ++ [c])
      ((s.room k).mCurrentUserCount + 1)).putInRoom c number)
    (fun u => { u with mRoomIndex := number }) (.inr rfl) rfl (fun _ => rfl)
    (membership_entered h.membership _ hout hk) with ⟨honline, hlogged⟩
  rw [processEnterRoom, roomNumber_frame, enterRoom_of_hasSpace hk hspace]
  refine ⟨_, _, rfl, honline, hlogged, ?_, fun d => ?_⟩
  · rw [hview]
    exact .entered (view_of_not_inRoom hout) number (mem_iff_view h.membership)
  · rw [sentTo_broadcast_ack (h.membership.nodup k), h.mUserID c (.inl hc)]
    by_cases hd : d = c
    · subst hd
      simp [hnot, Notice.packet]
    · by_cases hmem : d ∈ (s.room k).mUserList
      · simp [hd, hmem, Notice.packet]
      · simp [hd, hmem]

theorem served_roomLeave (env : Env δ) (h : Online ids s) (hids : Function.Injective ids)
    {k : Fin m} (hroom : s.getRoom c = some k) (hc : c ∈ (s.room k).mUserList) :
    ∃ s' sent, s.processLeaveRoom env c = (s', sent) ∧
      Served ids env.unset c .roomLeave s s' sent
        (fun d => if d = c then [.notifyRoomLeave (ids c), .ackRoomLeave]
          else if d ∈ (s.room k).mUserList then [.notifyRoomLeave (ids c)] else []) := by
  have hin := ((h.membership.mem_list c k).mp hc).1
  have hother : ∀ j ∈ (s.room k).mUserList,
      (s.mUserObjPool j).mUserID = (s.mUserObjPool c).mUserID → j = c := by
    intro j hj hid
    rw [h.mUserID j (.inr ((h.membership.mem_list j k).mp hj).1), h.mUserID c (.inr hin)] at hid
    exact hids (Subtype.ext (getBytes_injective hid))
  have hview := view_left h.membership (s.room k).mCurrentUserCount hin hroom hother
  rcases h.changeState (.inr hin) ((s.setRoom k (s.stayers c k)
      (s.room k).mCurrentUserCount).updateUser c (User.changeState .inLobby)) id (.inl rfl) rfl
    (fun _ => rfl) ((membership_left h.membership _ hin hroom).mpr hother) with ⟨honline, hlogged⟩
  have hleave : s.processLeaveRoom env c =
      ((s.setRoom k (s.stayers c k) (s.room k).mCurrentUserCount).updateUser c
        (User.changeState .inLobby),
      s.broadcast k notifyUserSize (notifyRoomLeavePacket (s.mUserObjPool c).mUserID) ++
        [sendAck env.unset c .ackRoomLeave .leaveRoomSuccess]) := by
    simp only [processLeaveRoom, leaveRoom]
    rw [s.mRoomManager.leaveUser_eq s.mUserObjPool c hroom]
    rfl
  rw [hleave]
  refine ⟨_, _, rfl, honline, hlogged, ?_, fun d => ?_⟩
  · rw [hview]
    exact .left (view_of_mem h.membership hc) (mem_iff_view h.membership)
  · rw [sentTo_broadcast_ack (h.membership.nodup k), h.mUserID c (.inr hin)]
    by_cases hd : d = c
    · subst hd
      simp [hc, Notice.packet]
    · by_cases hmem : d ∈ (s.room k).mUserList
      · simp [hd, hmem, Notice.packet]
      · simp [hd, hmem]

/-- One request of a client that is logged in, in every state: no handler crashes, and
an entry has to find space. -/
theorem exists_served (env : Env δ) (h : Online ids s) (hids : Function.Injective ids)
    (hc : LoggedIn s c) (r : Request) (hspace : ∀ number, r = .roomEnter number →
      (s.mUserObjPool c).mState = .inLobby → s.HasSpace number) :
    ∃ s' sent notices, s.processEvent env (frameEvent c r.frame) = some (s', sent) ∧
      Served ids env.unset c r s s' sent notices := by
  rw [processEvent_request env h hc]
  rcases hc with hlobby | hin
  · have hview : view s c = none := view_of_not_inRoom (by simp [hlobby])
    rw [hlobby]
    cases r with
    | lobbyInfo => exact ⟨_, _, _, rfl, served_lobbyInfo env h hview⟩
    | roomEnter number =>
      rcases hspace number rfl hlobby with ⟨k, hk, hlt⟩
      rcases served_roomEnter env h hlobby hk hlt with ⟨s', sent, heq, hserved⟩
      exact ⟨s', sent, _, congrArg some heq, hserved⟩
    | roomInfo =>
      exact ⟨s, [], _, rfl, .unchanged h (.ignoredInLobby hview (.inl rfl)) fun _ => rfl⟩
    | roomLeave =>
      exact ⟨s, [], _, rfl, .unchanged h (.ignoredInLobby hview (.inr rfl)) fun _ => rfl⟩
  · rcases exists_room_of_inRoom h.membership hin with ⟨k, hroom, hmem⟩
    have hview : view s c ≠ none := by simp [view_of_mem h.membership hmem]
    rw [hin]
    cases r with
    | lobbyInfo =>
      exact ⟨s, [], _, rfl, .unchanged h (.ignoredInRoom hview (.inl rfl)) fun _ => rfl⟩
    | roomEnter number =>
      exact ⟨s, [], _, rfl,
        .unchanged h (.ignoredInRoom hview (.inr ⟨number, rfl⟩)) fun _ => rfl⟩
    | roomInfo =>
      rcases served_roomInfo env h hroom hmem with ⟨sent, heq, hserved⟩
      exact ⟨s, sent, _, heq, hserved⟩
    | roomLeave =>
      rcases served_roomLeave env h hids hroom hmem with ⟨s', sent, heq, hserved⟩
      exact ⟨s', sent, _, congrArg some heq, hserved⟩

end served

end ChatServer.Client
