import ChatServer.Server.Admission
import ChatServer.Server.Authentication
import ChatServer.Server.Broadcast

/-! # Who hears of a room, and from whom

A notice about a room goes only to slots that the room has admitted, whatever has happened
to them since, and it names the user whose request caused it, who has logged in.
-/

namespace ChatServer.Server
open Recorded

variable {n m : ℕ} {δ : Type*} {env : Env δ} {s s' : Server n m δ} {out : List (Sent n)}
  {past : History n m δ} {i j : Fin n} {k : Fin m} {a : Event n}

/-- The packets that are sent to the members of a room -/
def roomNotices : List PacketId := [.notifyRoomInfo, .notifyRoomLeave, .notifyRoomChat]

/-- The room that a request is about: the one that its user asks for, or is in -/
def aboutRoom (s : Server n m δ) : Event n → Option (Fin m)
  | .frame i packetId _ p =>
    if s.handler i packetId = .processEnterRoom then
      s.mRoomManager.getRoomByNumber (int32At p roomNumberOffset)
    else s.getRoom i
  | .connect _ | .disconnect _ => none

/-- How often room `k` has admitted slot `j` since the start -/
def visits (env : Env δ) (past : History n m δ) (j : Fin n) (k : Fin m) : ℕ :=
  past.countP fun e => e.act.clientIndex = j ∧ admits env k e

theorem visits_snoc (env : Env δ) (past : History n m δ) (j : Fin n) (k : Fin m)
    (e : Entry (Server n m δ) (Event n)) : visits env (past ++ [e]) j k =
      visits env past j k + if e.act.clientIndex = j ∧ admits env k e then 1 else 0 := by
  rw [visits, List.countP_append, List.countP_singleton]
  simp only [decide_eq_true_eq]
  rfl

theorem visits_le_snoc (env : Env δ) (past : History n m δ) (j : Fin n) (k : Fin m)
    (e : Entry (Server n m δ) (Event n)) : visits env past j k ≤ visits env (past ++ [e]) j k := by
  rw [visits_snoc]
  exact Nat.le_add_right _ _

/-- The list of a room has a slot at most as often as the room has admitted it. -/
def ListsVisitors (env : Env δ) (past : History n m δ) (s : Server n m δ) : Prop :=
  ∀ k j, (s.room k).mUserList.count j ≤ visits env past j k

/-- An event after which every list is part of what it was -/
theorem ListsVisitors.keep (h : s.ListsVisitors env past)
    (hlist : ∀ k, (s'.room k).mUserList.Sublist (s.room k).mUserList) :
    s'.ListsVisitors env (past ++ [⟨s, a, s'⟩]) := by
  intro k j
  calc (s'.room k).mUserList.count j ≤ (s.room k).mUserList.count j := (hlist k).count_le j
    _ ≤ visits env past j k := h k j
    _ ≤ visits env (past ++ [⟨s, a, s'⟩]) j k := visits_le_snoc env past j k _

/-- A new entry of a list comes with an admission. -/
theorem ListsVisitors.entered (h : s.ListsVisitors env past) {packetId packetSize : UInt16}
    {p : Bytes} (hk : s.mRoomManager.getRoomByNumber (int32At p roomNumberOffset) = some k)
    (hlist : ∀ k', (s'.room k').mUserList =
      if k' = k then (s.room k).mUserList ++ [i] else (s.room k').mUserList)
    (hanswer : Answered (s.sent env (.frame i packetId packetSize p)) i .ackRoomEnter
      .enterRoomSuccess) :
    s'.ListsVisitors env (past ++ [⟨s, .frame i packetId packetSize p, s'⟩]) := by
  intro k' j
  have hle := h k' j
  rw [hlist]
  by_cases hk' : k' = k
  · subst hk'
    rw [if_pos rfl, List.count_append, visits_snoc, admits_frame, decide_eq_true hanswer, hk,
      decide_eq_true rfl]
    by_cases hj : i = j
    · subst hj
      rw [List.count_singleton_self, if_pos ⟨rfl, rfl⟩]
      exact Nat.add_le_add_right hle 1
    · rw [List.count_singleton, if_neg (by simpa using hj)]
      omega
  · rw [if_neg hk']
    exact hle.trans (visits_le_snoc env past j k' _)

theorem ListsVisitors.step (h : s.ListsVisitors env past) (hstep : s.step env a = some s') :
    s'.ListsVisitors env (past ++ [⟨s, a, s'⟩]) := by
  have he := effect_of_step hstep
  generalize hout : s.sent env a = out at he
  cases he with
  | connect | disconnectUnused | disconnect | ignored | accountCreated | loginRefused | loggedIn
  | lobbyInfo | enterRefused | roomInfo | leaveRefused | chatRefused | chat =>
    exact h.keep fun k => .refl _
  | entered hf hk =>
    refine h.entered hk (fun k' => ?_) (by simp [hout])
    rw [putInRoom, updateUser_room, setRoom_mUserList]
  | left hf hk =>
    refine h.keep fun k' => ?_
    rw [updateUser_room, setRoom_mUserList]
    split_ifs with hk'
    · subst hk'
      exact List.filter_sublist
    · exact .refl _

theorem listsVisitors_of_run {s₀ : Server n m δ} (run : Run (step env) s₀ past s)
    (hstart : ∀ k, (s₀.room k).mUserList = []) : s.ListsVisitors env past := by
  induction run with
  | nil =>
    intro k j
    rw [hstart]
    exact Nat.zero_le _
  | snoc _ hstep ih => exact ih.step hstep

/-! ## What a notice is -/

/-- The notices of an event: they go to the entries of one list, and are the packet of
that event, which names its user. -/
structure Notices (env : Env δ) (s : Server n m δ) (a : Event n) (out : List (Sent n))
    (k : Fin m) (i : Fin n) (p : Bytes) : Prop where
  about : s.aboutRoom a = some k
  slot : ∃ packetId packetSize, a = .frame i packetId packetSize p ∧
    ∃ state request, (s.handler i packetId).home = some (state, request) ∧ state ≠ .connected
  count : ∀ packetId ∈ roomNotices, ∀ j, notices out packetId j ≤ (s.room k).mUserList.count j
  packet : ∀ x ∈ out, ∀ packetId ∈ roomNotices, x.packet.packetId = packetId.code →
    x.packet ∈ [notifyRoomInfoPacket (s.mUserObjPool i).mUserID,
      notifyRoomLeavePacket (s.mUserObjPool i).mUserID,
      notifyRoomChatPacket env.unset (env.cStr (s.mUserObjPool i).mUserID) (p.drop messageOffset)]

/-- No packet of the list is a notice about a room. -/
def NoNotices (out : List (Sent n)) : Prop :=
  ∀ x ∈ out, ∀ packetId ∈ roomNotices, x.packet.packetId ≠ packetId.code

theorem noNotices_singleton (packetId : PacketId) {x : Sent n}
    (hx : x.packet.packetId = packetId.code) (h : packetId ∉ roomNotices) : NoNotices [x] := by
  intro y hy notice hnotice hcode
  rw [List.mem_singleton.mp hy, hx] at hcode
  exact h (PacketId.code_injective hcode ▸ hnotice)

theorem noNotices_sendAck {unset : UInt8} {packetId : PacketId} {result : ResultCode}
    (h : packetId ∉ roomNotices) : NoNotices [sendAck unset i packetId result] :=
  noNotices_singleton packetId rfl h

theorem NoNotices.append {out' : List (Sent n)} (h : NoNotices out) (h' : NoNotices out') :
    NoNotices (out ++ out') := List.forall_mem_append.mpr ⟨h, h'⟩

theorem NoNotices.notices_eq_zero (h : NoNotices out) {packetId : PacketId}
    (hid : packetId ∈ roomNotices) (j : Fin n) : notices out packetId j = 0 := by
  apply List.countP_eq_zero.mpr
  intro x hx hboth
  exact h x hx packetId hid (of_decide_eq_true hboth).2

theorem notices_broadcast_le {size : ℕ} {packet : Packet} {packetId : PacketId} :
    notices (s.broadcast k size packet) packetId j ≤ (s.room k).mUserList.count j := by
  rw [notices, broadcast, List.countP_map, List.count]
  apply List.countP_mono_left
  intro u _ hu
  exact beq_iff_eq.mpr (of_decide_eq_true hu).1

/-- A broadcast with an acknowledgement before or behind it -/
theorem notices_of_broadcast {packetId packetSize : UInt16} {p : Bytes} {size : ℕ} {packet : Packet}
    (acks acks' : List (Sent n)) {state : UserState} {request : PacketId}
    (habout : s.aboutRoom (.frame i packetId packetSize p) = some k)
    (hhome : (s.handler i packetId).home = some (state, request)) (hstate : state ≠ .connected)
    (hacks : NoNotices acks) (hacks' : NoNotices acks')
    (hpacket : packet ∈ [notifyRoomInfoPacket (s.mUserObjPool i).mUserID,
      notifyRoomLeavePacket (s.mUserObjPool i).mUserID,
      notifyRoomChatPacket env.unset (env.cStr (s.mUserObjPool i).mUserID)
        (p.drop messageOffset)]) :
    Notices env s (.frame i packetId packetSize p) (acks ++ s.broadcast k size packet ++ acks')
      k i p where
  about := habout
  slot := ⟨packetId, packetSize, rfl, state, request, hhome, hstate⟩
  count notice hnotice j := by
    rw [notices_append, notices_append, hacks.notices_eq_zero hnotice,
      hacks'.notices_eq_zero hnotice, Nat.zero_add, Nat.add_zero]
    exact notices_broadcast_le
  packet x hx notice hnotice hcode := by
    rcases List.mem_append.mp hx with hx | hx
    · rcases List.mem_append.mp hx with hx | hx
      · exact absurd hcode (hacks x hx notice hnotice)
      · rcases List.mem_map.mp hx with ⟨u, -, rfl⟩
        exact hpacket
    · exact absurd hcode (hacks' x hx notice hnotice)

/-- Three kinds of events send notices about a room. -/
theorem Effect.notices (he : Effect env s a s' out) :
    NoNotices out ∨ ∃ k i p, Notices env s a out k i p := by
  have hnil : NoNotices ([] : List (Sent n)) := List.forall_mem_nil _
  cases he with
  | connect | disconnectUnused | disconnect | ignored => exact .inl hnil
  | accountCreated | loginRefused | loggedIn | enterRefused | leaveRefused | chatRefused =>
    exact .inl (noNotices_sendAck (by decide))
  | roomInfo => exact .inl (noNotices_singleton .ackRoomInfo rfl (by decide))
  | lobbyInfo =>
    exact .inl (NoNotices.append (noNotices_sendAck (by decide))
      (noNotices_singleton .notifyLobbyInfo rfl (by decide)))
  | @entered i packetId packetSize p k hf hk =>
    have habout : s.aboutRoom (.frame i packetId packetSize p) = some k := (if_pos hf).trans hk
    refine .inr ⟨k, i, p, notices_of_broadcast [] _ habout (by rw [hf]; rfl) (by decide) hnil
      (noNotices_sendAck (by decide)) ?_⟩
    exact List.mem_cons_self
  | @left i packetId packetSize p k hf hk =>
    have habout : s.aboutRoom (.frame i packetId packetSize p) = some k :=
      (if_neg (by rw [hf]; decide)).trans hk
    refine .inr ⟨k, i, p, notices_of_broadcast [] _ habout (by rw [hf]; rfl) (by decide) hnil
      (noNotices_sendAck (by decide)) ?_⟩
    exact List.mem_cons_of_mem _ List.mem_cons_self
  | @chat i packetId packetSize p k hf hk =>
    have habout : s.aboutRoom (.frame i packetId packetSize p) = some k :=
      (if_neg (by rw [hf]; decide)).trans hk
    refine .inr ⟨k, i, p, ?_⟩
    rw [← List.append_nil (sendAck _ _ _ _ :: _)]
    refine notices_of_broadcast [_] [] habout (by rw [hf]; rfl) (by decide)
      (noNotices_sendAck (by decide)) hnil ?_
    exact List.mem_cons_of_mem _ (List.mem_cons_of_mem _ List.mem_cons_self)

/-! ## Whole runs -/

/-- A slot is sent no more notices about a room than the room has admitted it. -/
def HeardByVisitors (env : Env δ) (past : History n m δ)
    (e : Entry (Server n m δ) (Event n)) : Prop :=
  ∀ packetId ∈ roomNotices, ∀ j, notices (e.pre.sent env e.act) packetId j ≤
    (e.pre.aboutRoom e.act).elim 0 (visits env past j)

/-- Over every run, whatever connects, disconnects, enters and leaves: a slot hears of a
room no more often than the room has admitted it before, so not at all if it never has. -/
theorem notices_to_visitors_only (env : Env δ) (n : ℕ)
    (beginRoomNumber maxRoomCount maxRoomUserCount : Int32) (mem : Fin n → ℕ → UInt8) (db : δ)
    {past : History n maxRoomCount.toNatClampNeg δ}
    {s : Server n maxRoomCount.toNatClampNeg δ}
    (run : Run (step env) (init n beginRoomNumber maxRoomCount maxRoomUserCount mem db) past s) :
    AtEach (HeardByVisitors env) past := by
  refine run.atEach_of_invariant (C := fun _ _ => True) (P := fun _ _ => True) trivial
    (fun _ _ _ _ _ _ _ _ => trivial) ?_ (fun _ _ _ => trivial)
  intro past s a s' run _ hstep _ packetId hid j
  rcases (effect_of_step hstep).notices with hnone | ⟨k, i, p, h⟩
  · change notices (s.sent env a) packetId j ≤ _
    rw [hnone.notices_eq_zero hid]
    exact Nat.zero_le _
  · change notices (s.sent env a) packetId j ≤ (s.aboutRoom a).elim 0 (visits env past j)
    rw [h.about]
    exact (h.count packetId hid j).trans (listsVisitors_of_run run (fun _ => rfl) k j)

/-- A member disconnects and connects again without entering the room. A chat in the room
still reaches its slot, once, as the room has admitted it once. -/
theorem absent_visitor_hears : ∃ past s,
    Run (step acceptingEnv) (init 2 0 10 4 (fun _ _ => 0) ()) past s ∧
      AtEach (HeardByVisitors acceptingEnv) past ∧
      notices (s.sent acceptingEnv (.request 1 .reqRoomChat [])) .notifyRoomChat 0 = 1 := by
  obtain ⟨past, s, run, h⟩ := exists_run (step acceptingEnv) (init 2 0 10 4 (fun _ _ => 0) ())
    [.connect 0, .request 0 .reqLogin (reqLoginBody [65] [66]), .request 0 .reqRoomEnter (le32 0),
      .disconnect 0, .connect 0, .connect 1, .request 1 .reqLogin (reqLoginBody [67] [66]),
      .request 1 .reqRoomEnter (le32 0)]
    (fun _ s => notices (s.sent acceptingEnv (.request 1 .reqRoomChat [])) .notifyRoomChat 0 = 1)
    (by decide +kernel)
  exact ⟨past, s, run, notices_to_visitors_only acceptingEnv 2 0 10 4 _ () run,
    of_decide_eq_true h⟩

/-- A notice about a room is the packet for the user who caused it, and that user has
logged in on its current connection under the id that the notice names. -/
def NamesAuthor (env : Env δ) (past : History n m δ)
    (e : Entry (Server n m δ) (Event n)) : Prop :=
  ∀ x ∈ e.pre.sent env e.act, ∀ notice ∈ roomNotices, x.packet.packetId = notice.code →
    ∃ i packetId packetSize p userID, e.act = .frame i packetId packetSize p ∧
      Authenticated env past i userID ∧
      x.packet ∈ [notifyRoomInfoPacket userID, notifyRoomLeavePacket userID,
        notifyRoomChatPacket env.unset (env.cStr userID) (p.drop messageOffset)]

end ChatServer.Server
