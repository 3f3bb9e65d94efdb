import ChatServer.Server.Effect
import Mathlib.Data.List.Nodup

/-! # Who receives the broadcasts of a room

The members of a room are read off the history: a slot is a member from the entry
it was acknowledged until it leaves or its connection ends. `SendToAllUser` goes
through the list of the room, which keeps the slots of ended connections.
-/

namespace ChatServer.Server
open Recorded

variable {n m : ℕ} {δ : Type*}

/-- The room that slot `i` is a member of after one more entry. -/
def memberAfter (env : Env δ) (i : Fin n) (member : Option Int32)
    (e : Entry (Server n m δ) (Event n)) : Option Int32 :=
  match e.act with
  | .connect j => if j = i then none else member
  | .disconnect j => if j = i then none else member
  | .frame _ _ _ p =>
    if Answered (e.pre.sent env e.act) i .ackRoomEnter .enterRoomSuccess then
      some (int32At p roomNumberOffset)
    else if Answered (e.pre.sent env e.act) i .ackRoomLeave .leaveRoomSuccess then none
    else member

/-- The number of the room that the current connection of slot `i` has entered and
not left. -/
def memberOf (env : Env δ) (past : History n m δ) (i : Fin n) : Option Int32 :=
  past.foldl (memberAfter env i) none

/-- How many packets with this id go to a slot. -/
def notices (out : List (Sent n)) (packetId : PacketId) (j : Fin n) : ℕ :=
  out.countP fun x => x.clientIndex = j ∧ x.packet.packetId = packetId.code

/-- The packets with this id go once to each member of the room and to nobody else. -/
def ReachesMembers (env : Env δ) (past : History n m δ) (out : List (Sent n))
    (packetId : PacketId) (number : Int32) : Prop :=
  ∀ j, notices out packetId j = if memberOf env past j = some number then 1 else 0

/-- The broadcasts of an entry reach the members that there were before it; a chat
comes from one of them. -/
def BroadcastsExact (env : Env δ) (past : History n m δ) (e : Entry (Server n m δ) (Event n)) :
    Prop :=
  ∀ i packetId packetSize p, e.act = .frame i packetId packetSize p →
    (Answered (e.pre.sent env e.act) i .ackRoomChat .chatRoomSuccess →
      memberOf env past i = some (e.pre.mUserObjPool i).mRoomIndex ∧
      ReachesMembers env past (e.pre.sent env e.act) .notifyRoomChat
        (e.pre.mUserObjPool i).mRoomIndex) ∧
    (Answered (e.pre.sent env e.act) i .ackRoomEnter .enterRoomSuccess →
      ReachesMembers env past (e.pre.sent env e.act) .notifyRoomInfo
        (int32At p roomNumberOffset)) ∧
    (Answered (e.pre.sent env e.act) i .ackRoomLeave .leaveRoomSuccess →
      ReachesMembers env past (e.pre.sent env e.act) .notifyRoomLeave
        (e.pre.mUserObjPool i).mRoomIndex)

/-- The lists hold the members of the history and nobody else; somebody in a list is
in state `InRoom` and would be found in that room. -/
structure ListsRecord (env : Env δ) (past : History n m δ) (s : Server n m δ) : Prop where
  mem_list : ∀ i k, i ∈ (s.room k).mUserList ↔ memberOf env past i = some (s.room k).mRoomNum
  nodup : ∀ k, (s.room k).mUserList.Nodup
  inRoom : ∀ i k, i ∈ (s.room k).mUserList →
    (s.mUserObjPool i).mState = .inRoom ∧ s.getRoom i = some k

/-- No connection ends while its slot is in a list, a chat comes from somebody in the
list, and a leave finds no other member with its user's id. -/
def KeepsLists (s : Server n m δ) : Event n → Prop
  | .connect i => ∀ k, i ∉ (s.room k).mUserList
  | .disconnect i => ∀ k, i ∉ (s.room k).mUserList
  | .frame i packetId _ _ =>
    (s.handler i packetId = .processRoomChatMessage →
      ∀ k, s.getRoom i = some k → i ∈ (s.room k).mUserList) ∧
    (s.handler i packetId = .processLeaveRoom →
      ∀ k, s.getRoom i = some k → ∀ j ∈ (s.room k).mUserList,
        (s.mUserObjPool j).mUserID = (s.mUserObjPool i).mUserID → j = i)

instance (s : Server n m δ) : DecidablePred s.KeepsLists
  | .connect i | .disconnect i => inferInstanceAs (Decidable (∀ k, i ∉ (s.room k).mUserList))
  | .frame .. => instDecidableAnd

variable {env : Env δ} {s s' : Server n m δ} {past : History n m δ} {a : Event n}
  {out out' : List (Sent n)} {i j : Fin n} {k : Fin m}

@[simp] theorem memberOf_snoc (e : Entry (Server n m δ) (Event n)) :
    memberOf env (past ++ [e]) i = memberAfter env i (memberOf env past i) e := by
  simp [memberOf]

/-! ## Counting what is sent -/

@[simp] theorem notices_append (packetId : PacketId) :
    notices (out ++ out') packetId j = notices out packetId j + notices out' packetId j := by
  simp [notices]

theorem notices_sendAck {unset : UInt8} {packetId packetId' : PacketId} {result : ResultCode}
    (h : packetId' ≠ packetId) : notices [sendAck unset i packetId' result] packetId j = 0 := by
  simp [notices, sendAck, ackPacket, PacketId.code_injective.eq_iff, h]

/-- A broadcast counts a slot as often as the list does. -/
theorem notices_broadcast {size : ℕ} {packet : Packet} {packetId : PacketId}
    (h : packet.packetId = packetId.code) :
    notices (s.broadcast k size packet) packetId j = (s.room k).mUserList.count j := by
  simp only [notices, broadcast, List.countP_map, List.count, sendPacketFunc]
  congr 1
  funext x
  simp [h, Bool.beq_eq_decide_eq]

/-- Acknowledgements around a broadcast do not count. -/
theorem reachesMembers_append_ack {unset : UInt8} {packetId packetId' : PacketId}
    {result : ResultCode} {number : Int32} (h : packetId' ≠ packetId) :
    ReachesMembers env past (out ++ [sendAck unset i packetId' result]) packetId number ↔
      ReachesMembers env past out packetId number := by
  simp only [ReachesMembers, notices_append, notices_sendAck h, Nat.add_zero]

theorem reachesMembers_cons_ack {unset : UInt8} {packetId packetId' : PacketId}
    {result : ResultCode} {number : Int32} (h : packetId' ≠ packetId) :
    ReachesMembers env past (sendAck unset i packetId' result :: out) packetId number ↔
      ReachesMembers env past out packetId number := by
  rw [← List.singleton_append]
  simp only [ReachesMembers, notices_append, notices_sendAck h, Nat.zero_add]

namespace ListsRecord

/-- A slot in state other than `InRoom` is in no list. -/
theorem not_mem (h : s.ListsRecord env past) (hi : (s.mUserObjPool i).mState ≠ .inRoom)
    (k : Fin m) : i ∉ (s.room k).mUserList := fun hmem => hi (h.inRoom i k hmem).1

/-- A broadcast through the list of a room reaches its members. -/
theorem reaches (h : s.ListsRecord env past) {size : ℕ} {packet : Packet} {packetId : PacketId}
    (hpacket : packet.packetId = packetId.code) {number : Int32}
    (hnumber : (s.room k).mRoomNum = number) :
    ReachesMembers env past (s.broadcast k size packet) packetId number := by
  intro j
  rw [notices_broadcast hpacket, ← hnumber]
  split_ifs with hmember
  · exact List.count_eq_one_of_mem (h.nodup k) ((h.mem_list j k).mpr hmember)
  · exact List.count_eq_zero_of_not_mem fun hmem => hmember ((h.mem_list j k).mp hmem)

/-- What a step sends is exact, given that a chat comes from somebody in the list. -/
theorem broadcastsExact (h : s.ListsRecord env past) (hstep : s.step env a = some s')
    (hkeep : s.KeepsLists a) : BroadcastsExact env past ⟨s, a, s'⟩ := by
  rintro i packetId packetSize p rfl
  have he := effect_of_step hstep
  generalize hout : s.sent env (.frame i packetId packetSize p) = out at he
  cases he with
  | @entered _ _ _ _ k hf hk hspace =>
    refine ⟨fun hanswer => by simp at hanswer, fun _ => ?_, fun hanswer => by simp at hanswer⟩
    rw [reachesMembers_append_ack (by decide)]
    exact h.reaches rfl (s.mRoomManager.numbered _ _ hk)
  | @left _ _ _ _ k hf hk =>
    refine ⟨fun hanswer => by simp at hanswer, fun hanswer => by simp at hanswer, fun _ => ?_⟩
    rw [reachesMembers_append_ack (by decide)]
    exact h.reaches rfl (s.mRoomManager.numbered _ _ hk)
  | @chat _ _ _ _ k hf hk =>
    have hnumber := s.mRoomManager.numbered _ _ hk
    refine ⟨fun _ => ⟨?_, ?_⟩, fun hanswer => by simp at hanswer, fun hanswer => by simp at hanswer⟩
    · rw [← hnumber]
      exact (h.mem_list i k).mp (hkeep.1 hf k hk)
    · rw [reachesMembers_cons_ack (by decide)]
      exact h.reaches rfl hnumber
  | enterRefused hf hresult =>
    rcases hresult with ⟨rfl, -⟩ | ⟨rfl, -⟩ <;> simp
  | loginRefused | ignored | accountCreated | loggedIn | lobbyInfo | roomInfo | leaveRefused
  | chatRefused => simp

/-- Steps that touch no list, no user in a list and no membership. -/
theorem congr {past' : History n m δ} (h : s.ListsRecord env past)
    (hrooms : s'.mRoomManager = s.mRoomManager)
    (husers : ∀ j k, j ∈ (s.room k).mUserList → s'.mUserObjPool j = s.mUserObjPool j)
    (hmembers : ∀ j k, memberOf env past' j = some (s.room k).mRoomNum ↔
      memberOf env past j = some (s.room k).mRoomNum) : s'.ListsRecord env past' := by
  have hroom : ∀ k, s'.room k = s.room k := fun k => by rw [room, room, hrooms]
  refine ⟨fun i k => ?_, fun k => ?_, fun i k hi => ?_⟩
  · rw [hroom, h.mem_list, hmembers]
  · rw [hroom]
    exact h.nodup k
  · rw [hroom] at hi
    rw [getRoom, husers i k hi, hrooms]
    exact h.inRoom i k hi

/-- A system event of a slot that is in no list. -/
theorem system (h : s.ListsRecord env past) {f : User → User}
    (hi : ∀ k, i ∉ (s.room k).mUserList) (hact : a = .connect i ∨ a = .disconnect i)
    (hrooms : s'.mRoomManager = s.mRoomManager)
    (husers : s'.mUserObjPool = (s.updateUser i f).mUserObjPool) :
    s'.ListsRecord env (past ++ [⟨s, a, s'⟩]) := by
  refine h.congr hrooms (fun j k hj => ?_) fun j k => ?_
  · rw [husers]
    exact updateUser_other _ _ _ fun hji => hi k (hji ▸ hj)
  · have hafter : memberOf env (past ++ [⟨s, a, s'⟩]) j =
        if i = j then none else memberOf env past j := by
      rcases hact with rfl | rfl <;> simp [memberAfter]
    rw [hafter]
    split_ifs with hij
    · subst hij
      exact iff_of_false nofun fun hmember => hi k ((h.mem_list i k).mpr hmember)
    · rfl

/-- A frame that changes at most a user in no list. -/
theorem frame (h : s.ListsRecord env past) {packetId packetSize : UInt16} {p : Bytes}
    (hrooms : s'.mRoomManager = s.mRoomManager)
    (husers : ∀ j k, j ∈ (s.room k).mUserList → s'.mUserObjPool j = s.mUserObjPool j)
    (henter : ∀ j, ¬Answered (s.sent env (.frame i packetId packetSize p)) j .ackRoomEnter
      .enterRoomSuccess)
    (hleave : ∀ j, ¬Answered (s.sent env (.frame i packetId packetSize p)) j .ackRoomLeave
      .leaveRoomSuccess) :
    s'.ListsRecord env (past ++ [⟨s, .frame i packetId packetSize p, s'⟩]) := by
  apply h.congr hrooms husers
  intro j k
  simp [memberAfter, henter, hleave]

theorem entered (h : s.ListsRecord env past) {packetId packetSize : UInt16} {p : Bytes}
    {c : UInt16} (hi : (s.mUserObjPool i).mState ≠ .inRoom)
    (hk : s.mRoomManager.getRoomByNumber (int32At p roomNumberOffset) = some k)
    (hsent : ∀ j, Answered (s.sent env (.frame i packetId packetSize p)) j .ackRoomEnter
      .enterRoomSuccess ↔ i = j)
    (hleave : ∀ j, ¬Answered (s.sent env (.frame i packetId packetSize p)) j .ackRoomLeave
      .leaveRoomSuccess) (s'' : Server n m δ) :
    ((s.setRoom k ((s.room k).mUserList ++ [i]) c).putInRoom i
        (int32At p roomNumberOffset)).ListsRecord env
      (past ++ [⟨s, .frame i packetId packetSize p, s''⟩]) := by
  have hnumber := s.mRoomManager.numbered _ _ hk
  refine ⟨fun j l => ?_, fun l => ?_, fun j l hj => ?_⟩
  · simp only [putInRoom, updateUser_room, setRoom_mUserList, memberOf_snoc, memberAfter, hsent,
      hleave, if_false, setRoom_mRoomNum]
    by_cases hij : i = j
    · subst hij
      rw [if_pos rfl, ← hnumber, Option.some.injEq]
      split_ifs with hl
      · simp [hl]
      · exact iff_of_false (h.not_mem hi l) fun heq => hl (s.mRoomManager.distinct heq).symm
    · rw [if_neg hij]
      split_ifs with hl
      · subst hl
        simpa [Ne.symm hij] using h.mem_list j l
      · exact h.mem_list j l
  · apply s.setRoom_nodup k _ c h.nodup
    exact (h.nodup k).append (List.nodup_singleton i) (by simpa using h.not_mem hi k)
  · simp only [putInRoom, updateUser_room, setRoom_mUserList, getRoom, updateUser_mRoomManager,
      setRoom_getRoomByNumber] at hj ⊢
    by_cases hij : j = i
    · subst hij
      split_ifs at hj with hl
      · simp [hk, hl]
      · exact absurd hj (h.not_mem hi l)
    · rw [updateUser_other _ _ _ hij]
      apply h.inRoom j l
      split_ifs at hj with hl
      · subst hl
        simpa [hij] using hj
      · exact hj

/-- A leave takes exactly its own user out of the list. -/
theorem left (h : s.ListsRecord env past) {packetId packetSize : UInt16} {p : Bytes}
    {c : UInt16} (hk : s.getRoom i = some k)
    (hother : ∀ j ∈ (s.room k).mUserList,
      (s.mUserObjPool j).mUserID = (s.mUserObjPool i).mUserID → j = i)
    (henter : ∀ j, ¬Answered (s.sent env (.frame i packetId packetSize p)) j .ackRoomEnter
      .enterRoomSuccess)
    (hsent : ∀ j, Answered (s.sent env (.frame i packetId packetSize p)) j .ackRoomLeave
      .leaveRoomSuccess ↔ i = j) (s'' : Server n m δ) :
    ((s.setRoom k (s.stayers i k) c).updateUser i (User.changeState .inLobby)).ListsRecord env
      (past ++ [⟨s, .frame i packetId packetSize p, s''⟩]) := by
  have hstay : ∀ j, j ∈ s.stayers i k ↔ j ∈ (s.room k).mUserList ∧ j ≠ i := by
    intro j
    rw [stayers, List.mem_filter, decide_eq_true_eq]
    refine and_congr_right fun hj => ⟨fun hid hji => hid (by rw [hji]), fun hji hid => ?_⟩
    exact hji (hother j hj hid.symm)
  have hlist : ∀ j l, j ∈ (if l = k then s.stayers i k else (s.room l).mUserList) ↔
      j ∈ (s.room l).mUserList ∧ j ≠ i := by
    intro j l
    split_ifs with hl
    · rw [hstay, hl]
    · refine ⟨fun hj => ⟨hj, ?_⟩, fun hj => hj.1⟩
      rintro rfl
      exact hl (Option.some.inj ((h.inRoom j l hj).2.symm.trans hk))
  refine ⟨fun j l => ?_, fun l => ?_, fun j l hj => ?_⟩
  · simp only [updateUser_room, setRoom_mUserList, hlist, memberOf_snoc, memberAfter, henter,
      if_false, hsent, setRoom_mRoomNum]
    by_cases hij : i = j
    · simp [hij]
    · simpa [hij, Ne.symm hij] using h.mem_list j l
  · apply s.setRoom_nodup k _ c h.nodup
    exact (h.nodup k).filter _
  · simp only [updateUser_room, setRoom_mUserList, hlist] at hj
    rw [getRoom, updateUser_other _ _ _ hj.2]
    exact h.inRoom j l hj.1

theorem step (h : s.ListsRecord env past) (ht : s.TablesOk) (hstep : s.step env a = some s')
    (hkeep : s.KeepsLists a) : s'.ListsRecord env (past ++ [⟨s, a, s'⟩]) := by
  have he := effect_of_step hstep
  generalize hout : s.sent env a = out at he
  cases he with
  | connect i => exact h.system hkeep (.inl rfl) rfl rfl
  | disconnectUnused i =>
    refine h.system (f := id) hkeep (.inr rfl) rfl ?_
    simp [updateUser]
  | disconnect i => exact h.system hkeep (.inr rfl) rfl rfl
  | loggedIn hf =>
    have hstate := ht.mState_of_handler hf rfl
    refine h.frame rfl (fun j k hj => ?_) (by simp [hout]) (by simp [hout])
    apply updateUser_other
    rintro rfl
    exact h.not_mem (by simp [hstate]) k hj
  | enterRefused hf hresult =>
    have hstate := ht.mState_of_handler hf rfl
    refine h.frame rfl (fun j k hj => ?_) ?_ (by simp [hout])
    · apply updateUser_other
      rintro rfl
      exact h.not_mem (by simp [hstate]) k hj
    · rcases hresult with ⟨rfl, -⟩ | ⟨rfl, -⟩ <;> simp [hout]
  | entered hf hk hspace =>
    exact h.entered (by simp [ht.mState_of_handler hf rfl]) hk (by simp [hout]) (by simp [hout]) _
  | leaveRefused hf hk =>
    refine h.frame rfl (fun j k hj => ?_) (by simp [hout]) (by simp [hout])
    apply updateUser_other
    rintro rfl
    simp [(h.inRoom j k hj).2] at hk
  | left hf hk => exact h.left hk (hkeep.2 hf _ hk) (by simp [hout]) (by simp [hout]) _
  | ignored | accountCreated | loginRefused | lobbyInfo | roomInfo | chatRefused | chat =>
    exact h.frame rfl (fun _ _ _ => rfl) (by simp [hout]) (by simp [hout])

end ListsRecord

theorem init_listsRecord (env : Env δ) (n : ℕ)
    (beginRoomNumber maxRoomCount maxRoomUserCount : Int32) (mem : Fin n → ℕ → UInt8) (db : δ) :
    (init n beginRoomNumber maxRoomCount maxRoomUserCount mem db).ListsRecord env [] where
  mem_list _ _ := iff_of_false List.not_mem_nil nofun
  nodup _ := List.nodup_nil
  inRoom _ _ h := absurd h List.not_mem_nil

/-- In every run in which no connection ends while its slot is in a list, nobody chats
from outside the list and no leave finds a second member with its user's id, all
broadcasts reach exactly the members. -/
theorem broadcasts_exact (env : Env δ) (n : ℕ)
    (beginRoomNumber maxRoomCount maxRoomUserCount : Int32) (mem : Fin n → ℕ → UInt8) (db : δ)
    {past : History n maxRoomCount.toNatClampNeg δ} {s : Server n maxRoomCount.toNatClampNeg δ}
    (run : Run (step env) (init n beginRoomNumber maxRoomCount maxRoomUserCount mem db) past s)
    (keeps : ∀ e ∈ past, e.pre.KeepsLists e.act) : AtEach (BroadcastsExact env) past := by
  refine run.atEach_of_invariant (C := fun _ e => e.pre.KeepsLists e.act)
    (P := fun past s => s.ListsRecord env past ∧ s.TablesOk)
    ⟨init_listsRecord env n _ _ _ mem db, init_tablesOk n _ _ _ mem db⟩ ?_ ?_
    (atEach_const.mpr keeps)
  · intro past s a s' _ ⟨h, ht⟩ hstep hkeep
    exact ⟨h.step ht hstep hkeep, ht.step hstep⟩
  · intro past s a s' _ ⟨h, ht⟩ hstep hkeep
    exact h.broadcastsExact hstep hkeep

/-- Two users in a room, one chats, the other leaves, the first one chats again. -/
theorem broadcasts_exact_in_room_of_two : ∃ past s,
    Run (step acceptingEnv) (init 2 0 10 4 (fun _ _ => 0) ()) past s ∧
      AtEach (BroadcastsExact acceptingEnv) past ∧
      past.map (fun e => notices (e.pre.sent acceptingEnv e.act) .notifyRoomChat 1) =
        [0, 0, 0, 0, 0, 0, 1, 0, 0] := by
  obtain ⟨past, s, run, h⟩ := exists_run (step acceptingEnv) (init 2 0 10 4 (fun _ _ => 0) ())
    [.connect 0, .request 0 .reqLogin (reqLoginBody [65] [66]), .request 0 .reqRoomEnter (le32 0),
      .connect 1, .request 1 .reqLogin (reqLoginBody [67] [66]), .request 1 .reqRoomEnter (le32 0),
      .request 0 .reqRoomChat (blockAt [72, 105] 0 (maxChatMsgSize + 1)),
      .request 1 .reqRoomLeave [],
      .request 0 .reqRoomChat (blockAt [72, 105] 0 (maxChatMsgSize + 1))]
    (fun past _ => (∀ e ∈ past, e.pre.KeepsLists e.act) ∧
      past.map (fun e => notices (e.pre.sent acceptingEnv e.act) .notifyRoomChat 1) =
        [0, 0, 0, 0, 0, 0, 1, 0, 0]) (by decide +kernel)
  rcases of_decide_eq_true h with ⟨hkeeps, hnotices⟩
  exact ⟨past, s, run, broadcasts_exact acceptingEnv 2 0 10 4 _ () run hkeeps, hnotices⟩

/-- Slot 1 enters room 0 and disconnects. The next chat in the room is sent to slot 1,
which is not a member any more. -/
theorem chat_reaches_ended_connection : ∃ past s,
    Run (step acceptingEnv) (init 2 0 10 4 (fun _ _ => 0) ()) past s ∧
      ¬AtEach (BroadcastsExact acceptingEnv) past := by
  obtain ⟨past, s, run, h⟩ := exists_run (step acceptingEnv) (init 2 0 10 4 (fun _ _ => 0) ())
    [.connect 0, .request 0 .reqLogin (reqLoginBody [65] [66]), .request 0 .reqRoomEnter (le32 0),
      .connect 1, .request 1 .reqLogin (reqLoginBody [67] [66]), .request 1 .reqRoomEnter (le32 0),
      .disconnect 1, .request 0 .reqRoomChat (blockAt [72, 105] 0 (maxChatMsgSize + 1))]
    (fun past _ => ∃ e ∈ past[7]?,
      (e.act matches .frame 0 _ _ _) ∧
      Answered (e.pre.sent acceptingEnv e.act) 0 .ackRoomChat .chatRoomSuccess ∧
      memberOf acceptingEnv (past.take 7) 1 = none ∧
      notices (e.pre.sent acceptingEnv e.act) .notifyRoomChat 1 = 1) (by decide +kernel)
  rcases of_decide_eq_true h with ⟨e, he, hact, hanswered, hmember, hnotices⟩
  refine ⟨past, s, run, fun hexact => ?_⟩
  rcases e with ⟨pre, act, post⟩
  cases act with
  | connect => simp at hact
  | disconnect => simp at hact
  | frame i packetId packetSize p =>
    obtain rfl : i = 0 :=
      match i with
      | 0 => rfl
      | 1 => nomatch hact
    have hreach := ((hexact 7 _ he 0 packetId packetSize p rfl).1 hanswered).2 1
    rw [hnotices, hmember] at hreach
    simp at hreach

end ChatServer.Server
