import ChatServer.Server.Occupancy
import ChatServer.Server.OtherUsers

/-! # Admissions over the life of a room

The count of a room only grows, so it is the number of entries since the start, and a
room admits no more users than its maximum, ever. The requests that the server does not
survive are those for the members of a room which does not exist, and entries and leaves
under an id that is longer than its field.
-/

namespace ChatServer.Server
open Recorded

variable {n m : ℕ} {δ : Type*} {env : Env δ} {s s' : Server n m δ} {out : List (Sent n)}
  {past : History n m δ}

/-! ## Admissions -/

/-- The entry is a request for room `k` that was answered `ENTER_ROOM_SUCCESS`. -/
def admits (env : Env δ) (k : Fin m) (e : Entry (Server n m δ) (Event n)) : Bool :=
  match e.act with
  | .frame i _ _ p =>
    decide (Answered (e.pre.sent env e.act) i .ackRoomEnter .enterRoomSuccess) &&
      decide (e.pre.mRoomManager.getRoomByNumber (int32At p roomNumberOffset) = some k)
  | .connect _ | .disconnect _ => false

theorem admits_frame {k : Fin m} {i : Fin n} {packetId packetSize : UInt16} {p : Bytes} :
    admits env k ⟨s, .frame i packetId packetSize p, s'⟩ =
      (decide (Answered (s.sent env (.frame i packetId packetSize p)) i .ackRoomEnter
          .enterRoomSuccess) &&
        decide (s.mRoomManager.getRoomByNumber (int32At p roomNumberOffset) = some k)) := rfl

/-- How many users room `k` has admitted since the start -/
def admissions (env : Env δ) (past : History n m δ) (k : Fin m) : ℕ := past.countP (admits env k)

theorem admissions_snoc (env : Env δ) (past : History n m δ) (k : Fin m)
    (e : Entry (Server n m δ) (Event n)) :
    admissions env (past ++ [e]) k = admissions env past k + if admits env k e then 1 else 0 := by
  rw [admissions, List.countP_append, List.countP_singleton]
  rfl

/-- An event that admits nobody is one that does not answer with success. -/
theorem admits_eq_false {k : Fin m} {e : Entry (Server n m δ) (Event n)}
    (h : ∀ i packetId packetSize p, e.act = .frame i packetId packetSize p →
      ¬Answered (e.pre.sent env e.act) i .ackRoomEnter .enterRoomSuccess) :
    admits env k e = false := by
  rcases e with ⟨s, a, s'⟩
  cases a with
  | connect | disconnect => rfl
  | frame i packetId packetSize p =>
    have hnone := h i packetId packetSize p rfl
    rw [admits_frame, decide_eq_false hnone, Bool.false_and]

/-- In every room, the count is the number of admissions, and below or at the maximum. -/
def CountsAdmissions (env : Env δ) (maxRoomUserCount : Int32) (past : History n m δ)
    (s : Server n m δ) : Prop :=
  ∀ k, (s.room k).mCurrentUserCount.toNat = admissions env past k ∧
    (admissions env past k : ℤ) ≤ maxRoomUserCount.toInt

/-- An event that leaves the counts as they are and admits nobody -/
theorem CountsAdmissions.keep {maxRoomUserCount : Int32} {a : Event n}
    (h : s.CountsAdmissions env maxRoomUserCount past)
    (hcount : ∀ k, (s'.room k).mCurrentUserCount = (s.room k).mCurrentUserCount)
    (hnone : ∀ k, admits env k ⟨s, a, s'⟩ = false) :
    s'.CountsAdmissions env maxRoomUserCount (past ++ [⟨s, a, s'⟩]) := by
  intro k
  rw [hcount, admissions_snoc, hnone, if_neg Bool.false_ne_true, Nat.add_zero]
  exact h k

/-- A room below its maximum counts whom it admits. -/
theorem CountsAdmissions.entered {maxRoomUserCount : Int32}
    (h : s.CountsAdmissions env maxRoomUserCount past) (hmax : s.MaxUserCountIs maxRoomUserCount)
    (hle : maxRoomUserCount ≤ 65535) {i : Fin n} {k : Fin m} {packetId packetSize : UInt16}
    {p : Bytes} (hk : s.mRoomManager.getRoomByNumber (int32At p roomNumberOffset) = some k)
    (hspace : (s.room k).getCurrentUserCount < (s.room k).getMaxUserCount)
    (hroom : ∀ j, (s'.room j).mCurrentUserCount =
      if j = k then (s.room k).mCurrentUserCount + 1 else (s.room j).mCurrentUserCount)
    (hanswer : Answered (s.sent env (.frame i packetId packetSize p)) i .ackRoomEnter
      .enterRoomSuccess) :
    s'.CountsAdmissions env maxRoomUserCount
      (past ++ [⟨s, .frame i packetId packetSize p, s'⟩]) := by
  intro j
  have hj := h j
  rw [hroom, admissions_snoc, admits_frame, decide_eq_true hanswer, Bool.true_and, hk]
  by_cases hjk : j = k
  · subst hjk
    have hlt := Int32.le_iff_toInt_le.mp hle
    have htop : (65535 : Int32).toInt = 65535 := rfl
    rw [Room.getCurrentUserCount, Room.getMaxUserCount, hmax j] at hspace
    rw [if_pos rfl, if_pos (decide_eq_true rfl), UInt16.toNat_add, UInt16.toNat_one,
      Nat.mod_eq_of_lt (by omega)]
    omega
  · have hne : ¬some k = some j := fun heq => hjk (Option.some.inj heq).symm
    rw [if_neg hjk, if_neg (by simp [hne]), Nat.add_zero]
    exact hj

theorem CountsAdmissions.step {maxRoomUserCount : Int32} {a : Event n}
    (h : s.CountsAdmissions env maxRoomUserCount past) (hmax : s.MaxUserCountIs maxRoomUserCount)
    (hle : maxRoomUserCount ≤ 65535) (hstep : s.step env a = some s') :
    s'.CountsAdmissions env maxRoomUserCount (past ++ [⟨s, a, s'⟩]) := by
  have he := effect_of_step hstep
  have hanswers {out : List (Sent n)} (hout : s.sent env a = out) {k : Fin m}
      (hnone : ∀ i, ¬Answered out i .ackRoomEnter .enterRoomSuccess) :
      admits env k ⟨s, a, s'⟩ = false := by
    apply admits_eq_false
    intro i _ _ _ _
    rw [hout]
    exact hnone i
  generalize hout : s.sent env a = out at he
  cases he with
  | connect | disconnectUnused | disconnect | ignored =>
    exact h.keep (fun _ => rfl) fun _ => hanswers hout fun i => answered_nil
  | accountCreated | loginRefused | loggedIn | lobbyInfo | roomInfo | leaveRefused | chatRefused
  | chat => exact h.keep (fun _ => rfl) fun _ => hanswers hout (by simp)
  | enterRefused hf hresult =>
    refine h.keep (fun _ => rfl) fun _ => hanswers hout ?_
    rcases hresult with ⟨rfl, -⟩ | ⟨rfl, -⟩ <;> simp
  | left hf hk =>
    refine h.keep (fun j => ?_) fun _ => hanswers hout (by simp)
    rw [updateUser_room, setRoom_mCurrentUserCount]
    split_ifs with hj
    · rw [hj]
    · rfl
  | entered hf hk hspace =>
    refine h.entered hmax hle hk hspace (fun j => ?_) (by simp [hout])
    rw [putInRoom, updateUser_room, setRoom_mCurrentUserCount]

/-- A request for a room is refused as full exactly when the room has admitted as many
users as it may hold, whoever has left since. -/
def RefusesAfter (env : Env δ) (maxRoomUserCount : Int32) (past : History n m δ)
    (e : Entry (Server n m δ) (Event n)) : Prop :=
  ∀ i packetId packetSize p k, e.act = .frame i packetId packetSize p →
    e.pre.handler i packetId = .processEnterRoom →
    e.pre.mRoomManager.getRoomByNumber (int32At p roomNumberOffset) = some k →
    (e.pre.RefusedAsFull env i e.act ↔ (admissions env past k : ℤ) = maxRoomUserCount.toInt)

theorem CountsAdmissions.refusesAfter {maxRoomUserCount : Int32} {a : Event n}
    (h : s.CountsAdmissions env maxRoomUserCount past) (hmax : s.MaxUserCountIs maxRoomUserCount)
    (hstep : s.step env a = some s') :
    RefusesAfter env maxRoomUserCount past ⟨s, a, s'⟩ := by
  rintro i packetId packetSize p k rfl hf hk
  have hcount := h k
  have he := effect_of_step hstep
  have hspace (k' : Fin m) : (s.room k').getCurrentUserCount < (s.room k').getMaxUserCount ↔
      ((s.room k').mCurrentUserCount.toNat : ℤ) < maxRoomUserCount.toInt := by
    rw [Room.getCurrentUserCount, Room.getMaxUserCount, hmax k']
  unfold RefusedAsFull
  change (Answered (s.sent env _) i _ _ ∨ Answered (s.sent env _) i _ _) ↔ _
  generalize s.sent env (.frame i packetId packetSize p) = out at he
  cases he with
  | enterRefused hf' hresult =>
    rcases hresult with ⟨-, hnone⟩ | ⟨rfl, k', hk', hfull⟩
    · simp [hnone] at hk
    · obtain rfl : k' = k := Option.some.inj (hk'.symm.trans hk)
      have hnot := mt (hspace k').mpr (Int.not_lt.mpr hfull)
      exact iff_of_true (.inl (by simp)) (by omega)
  | entered hf' hk' hfree =>
    obtain rfl := Option.some.inj (hk'.symm.trans hk)
    have hlt := (hspace _).mp hfree
    exact iff_of_false (by simp) (by omega)
  | ignored hf' => rcases hf' with hf' | ⟨hf', -⟩ | ⟨hf', -⟩ <;> simp [hf] at hf'
  | accountCreated hf' | loginRefused hf' | loggedIn hf' | lobbyInfo hf' | roomInfo hf'
  | leaveRefused hf' | left hf' | chatRefused hf' | chat hf' => simp [hf] at hf'

theorem countsAdmissions_of_run {s₀ : Server n m δ} {maxRoomUserCount : Int32}
    (run : Run (step env) s₀ past s) (hmax : s₀.MaxUserCountIs maxRoomUserCount)
    (hzero : ∀ k, (s₀.room k).mCurrentUserCount = 0) (hnonneg : 0 ≤ maxRoomUserCount)
    (hle : maxRoomUserCount ≤ 65535) :
    s.CountsAdmissions env maxRoomUserCount past ∧ s.MaxUserCountIs maxRoomUserCount := by
  induction run with
  | nil =>
    refine ⟨fun k => ⟨?_, Int32.le_iff_toInt_le.mp hnonneg⟩, hmax⟩
    rw [hzero]
    rfl
  | snoc _ hstep ih => exact ⟨ih.1.step ih.2 hle hstep, ih.2.effect (effect_of_step hstep)⟩

/-- Over every run, the count of each room is the number of users that it has admitted
since the start. They are never more than its maximum, and from then on, and not before,
every request for the room is refused as full. -/
theorem admissions_limited (env : Env δ) (n : ℕ)
    (beginRoomNumber maxRoomCount maxRoomUserCount : Int32) (mem : Fin n → ℕ → UInt8) (db : δ)
    (hnonneg : 0 ≤ maxRoomUserCount) (hle : maxRoomUserCount ≤ 65535)
    {past : History n maxRoomCount.toNatClampNeg δ}
    {s : Server n maxRoomCount.toNatClampNeg δ}
    (run : Run (step env) (init n beginRoomNumber maxRoomCount maxRoomUserCount mem db) past s) :
    s.CountsAdmissions env maxRoomUserCount past ∧
      AtEach (RefusesAfter env maxRoomUserCount) past := by
  have hcounts := countsAdmissions_of_run run (fun _ => rfl) (fun _ => rfl) hnonneg hle
  refine ⟨hcounts.1, ?_⟩
  refine run.atEach_of_invariant (C := fun _ _ => True) (P := fun _ _ => True) trivial
    (fun _ _ _ _ _ _ _ _ => trivial) ?_ (fun _ _ _ => trivial)
  intro past s a s' run _ hstep _
  have h := countsAdmissions_of_run run (fun _ => rfl) (fun _ => rfl) hnonneg hle
  exact h.1.refusesAfter h.2 hstep

/-- Three users visit a room for two one after the other: the third is refused although
the room is empty. -/
theorem third_visit_refused : ∃ past s,
    Run (step acceptingEnv) (init 1 0 10 2 (fun _ _ => 0) ()) past s ∧
      (s.room ⟨0, by decide⟩).mUserList = [] ∧ admissions acceptingEnv past ⟨0, by decide⟩ = 2 ∧
      AtEach (RefusesAfter acceptingEnv 2) past ∧
      s.RefusedAsFull acceptingEnv 0 (.request 0 .reqRoomEnter (le32 0)) := by
  obtain ⟨past, s, run, h⟩ := exists_run (step acceptingEnv) (init 1 0 10 2 (fun _ _ => 0) ())
    [.connect 0, .request 0 .reqLogin (reqLoginBody [65] [66]), .request 0 .reqRoomEnter (le32 0),
      .request 0 .reqRoomLeave [], .request 0 .reqRoomEnter (le32 0), .request 0 .reqRoomLeave []]
    (fun _ s => (s.room ⟨0, by decide⟩).mUserList = [] ∧
      (s.room ⟨0, by decide⟩).mCurrentUserCount = 2 ∧
      s.sent acceptingEnv (.request 0 .reqRoomEnter (le32 0)) =
        [sendAck 0 0 .ackRoomEnter .roomFull]) (by decide +kernel)
  rcases of_decide_eq_true h with ⟨hlist, hcount, hsent⟩
  rcases admissions_limited acceptingEnv 1 0 10 2 _ () (by decide) (by decide) run with
    ⟨hcounts, hrefuses⟩
  refine ⟨past, s, run, hlist, ?_, hrefuses, .inl (by simp [hsent])⟩
  rw [← (hcounts ⟨0, by decide⟩).1, hcount]
  rfl

/-! ## The requests that end the server -/

/-- The number in the latest room request that was processed for slot `i`, until it leaves
or a system event of the slot is processed. -/
def askedAfter (i : Fin n) (asked : Option Int32) (e : Entry (Server n m δ) (Event n)) :
    Option Int32 :=
  match e.act with
  | .connect j | .disconnect j => if j = i then none else asked
  | .frame j packetId _ p =>
    if j = i then
      if e.pre.handler j packetId = .processEnterRoom then some (int32At p roomNumberOffset)
      else if e.pre.handler j packetId = .processLeaveRoom then none
      else asked
    else asked

def askedFor (past : History n m δ) (i : Fin n) : Option Int32 := past.foldl (askedAfter i) none

theorem askedFor_snoc (past : History n m δ) (i : Fin n)
    (e : Entry (Server n m δ) (Event n)) :
    askedFor (past ++ [e]) i = askedAfter i (askedFor past i) e := by
  rw [askedFor, List.foldl_append]
  rfl

/-- The table has the handler for `REQ_ROOM_INFO` as long as a room number counts, and that
number is the one in `mRoomIndex`. -/
def AskedOk (asked : Option Int32) (u : User) : Prop :=
  (u.recvFuntionDictionary .reqRoomInfo = .processRoomInfo ↔ asked.isSome) ∧
    ∀ number ∈ asked, u.mRoomIndex = number

theorem askedOk_none {u : User} (h : u.recvFuntionDictionary .reqRoomInfo ≠ .processRoomInfo) :
    AskedOk none u := ⟨iff_of_false h Bool.false_ne_true, nofun⟩

theorem askedAfter_frame {asked : Option Int32} {i : Fin n} {packetId packetSize : UInt16}
    {p : Bytes} : askedAfter i asked ⟨s, .frame i packetId packetSize p, s'⟩ =
      if s.handler i packetId = .processEnterRoom then some (int32At p roomNumberOffset)
      else if s.handler i packetId = .processLeaveRoom then none else asked := by
  simp only [askedAfter, if_true]

/-- A user who is put into the lobby has no handler for `REQ_ROOM_INFO`. -/
theorem askedOk_inLobby {u : User} (h : u.recvFuntionDictionary = UserState.inLobby.handlers) :
    AskedOk none u := by
  apply askedOk_none
  rw [h]
  decide

/-- Where the handler of another state runs, no room number counts. -/
theorem AskedOk.eq_none {asked : Option Int32} {i : Fin n} {packetId : UInt16} {f : RecvFunction}
    (h : AskedOk asked (s.mUserObjPool i)) (ht : s.TablesOk) (hf : s.handler i packetId = f)
    (hhome : f.home = some (.connected, .reqLogin)) : asked = none := by
  have hstate := ht.mState_of_handler hf hhome
  have htable : (s.mUserObjPool i).recvFuntionDictionary .reqRoomInfo ≠ .processRoomInfo := by
    rcases ht i with hreset | hhandlers
    · rw [hreset]
      decide
    · rw [hhandlers, hstate]
      decide
  by_contra hsome
  exact htable (h.1.mpr (Option.isSome_iff_ne_none.mpr hsome))

/-- A frame keeps what its own slot has to do with the number. -/
theorem AskedOk.frame {asked : Option Int32} {i : Fin n} {packetId packetSize : UInt16} {p : Bytes}
    (h : AskedOk asked (s.mUserObjPool i)) (ht : s.TablesOk)
    (he : Effect env s (.frame i packetId packetSize p) s' out) :
    AskedOk (askedAfter i asked ⟨s, .frame i packetId packetSize p, s'⟩) (s'.mUserObjPool i) := by
  rw [askedAfter_frame]
  cases he with
  | ignored hf =>
    have hother : s.handler i packetId ≠ .processEnterRoom ∧
        s.handler i packetId ≠ .processLeaveRoom := by
      rcases hf with hf | ⟨hf, -⟩ | ⟨hf, -⟩ <;> simp [hf]
    rw [if_neg hother.1, if_neg hother.2]
    exact h
  | accountCreated hf | loginRefused hf | lobbyInfo hf | roomInfo hf | chatRefused hf | chat hf =>
    rw [if_neg (by simp [hf]), if_neg (by simp [hf])]
    exact h
  | loggedIn hf =>
    rw [if_neg (by simp [hf]), if_neg (by simp [hf]), h.eq_none ht hf rfl]
    apply askedOk_inLobby
    rw [updateUser_self]
    rfl
  | enterRefused hf =>
    rw [if_pos hf, putInRoom, updateUser_self]
    exact ⟨iff_of_true rfl rfl, fun _ hnumber => Option.some.inj hnumber⟩
  | entered hf =>
    rw [if_pos hf, putInRoom, updateUser_self]
    exact ⟨iff_of_true rfl rfl, fun _ hnumber => Option.some.inj hnumber⟩
  | leaveRefused hf =>
    rw [if_neg (by simp [hf]), if_pos hf]
    apply askedOk_inLobby
    rw [updateUser_self]
    rfl
  | left hf =>
    rw [if_neg (by simp [hf]), if_pos hf]
    apply askedOk_inLobby
    rw [updateUser_self]
    rfl

/-- A slot that an event does not concern keeps its number. -/
theorem askedAfter_other {asked : Option Int32} {i : Fin n} {a : Event n}
    (hi : i ≠ a.clientIndex) : askedAfter i asked ⟨s, a, s'⟩ = asked := by
  cases a with
  | connect j | disconnect j => exact if_neg (Ne.symm hi)
  | frame j packetId packetSize p => exact if_neg (Ne.symm hi)

theorem askedOk_of_run {s₀ : Server n m δ} (run : Run (step env) s₀ past s) (ht : s₀.TablesOk)
    (hstart : ∀ i, (s₀.mUserObjPool i).recvFuntionDictionary = RecvTable.reset) (i : Fin n) :
    AskedOk (askedFor past i) (s.mUserObjPool i) := by
  induction run with
  | nil =>
    apply askedOk_none
    rw [hstart]
    decide
  | @snoc past s a s' run hstep ih =>
    have htables : s.TablesOk := run.state_invariant ht fun _ _ _ h hstep => h.step hstep
    have he := effect_of_step hstep
    rw [askedFor_snoc]
    by_cases hi : i = a.clientIndex
    · subst hi
      cases a with
      | connect i =>
        cases he
        apply (congrArg (AskedOk · _) (if_pos rfl)).mpr
        apply askedOk_none
        rw [processUserConnect]
        simp only [Event.clientIndex, updateUser_self]
        change RecvFunction.noop ≠ .processRoomInfo
        decide
      | disconnect i =>
        apply (congrArg (AskedOk · _) (if_pos rfl)).mpr
        cases he with
        | disconnectUnused i hstate =>
          apply askedOk_none
          rcases htables i with hreset | hhandlers
          · simp only [Event.clientIndex, hreset]
            decide
          · simp only [Event.clientIndex, hhandlers, hstate]
            decide
        | disconnect i hstate =>
          apply askedOk_none
          simp only [deleteUserInfo, Event.clientIndex, updateUser_self]
          change RecvFunction.noop ≠ .processRoomInfo
          decide
      | frame i packetId packetSize p => exact ih.frame htables he
    · rw [askedAfter_other hi, mUserObjPool_of_effect he hi]
      exact ih

/-- A user has the handlers for `REQ_ROOM_INFO` and `REQ_ROOM_LEAVE` at the same time. -/
theorem TablesOk.leave_iff_info {i : Fin n} (h : s.TablesOk) :
    (s.mUserObjPool i).recvFuntionDictionary .reqRoomLeave = .processLeaveRoom ↔
      (s.mUserObjPool i).recvFuntionDictionary .reqRoomInfo = .processRoomInfo := by
  rcases h i with hreset | hhandlers
  · rw [hreset]
    decide
  · rw [hhandlers]
    cases (s.mUserObjPool i).mState <;> decide

/-- The handler of a request of the rooms runs as long as a room number counts. -/
theorem AskedOk.handler_iff {asked : Option Int32} {i : Fin n}
    (h : AskedOk asked (s.mUserObjPool i)) (ht : s.TablesOk) :
    (s.handler i PacketId.reqRoomInfo.code = .processRoomInfo ↔ asked.isSome) ∧
      (s.handler i PacketId.reqRoomLeave.code = .processLeaveRoom ↔ asked.isSome) := by
  have hinfo : dispatched (.frame i PacketId.reqRoomInfo.code 0 []) = some .processRoomInfo := rfl
  have hleave : dispatched (.frame i PacketId.reqRoomLeave.code 0 []) = some .processLeaveRoom :=
    rfl
  rw [handler, handler, hinfo, hleave, ← h.1]
  exact ⟨.rfl, ht.leave_iff_info⟩

/-- The frames after which nothing is defined: a request for the members of a room that
does not exist, and the entry into a room with space or the leave from a room under an id
that is longer than its field. -/
inductive Stops (past : History n m δ) (s : Server n m δ) : Event n → Prop
  | unknownRoom {i : Fin n} {packetSize : UInt16} {p : Bytes} {number : Int32}
      (hasked : askedFor past i = some number)
      (hroom : s.mRoomManager.getRoomByNumber number = none) :
      Stops past s (.frame i PacketId.reqRoomInfo.code packetSize p)
  | longIdLeaves {i : Fin n} {packetSize : UInt16} {p : Bytes} {number : Int32}
      (hasked : askedFor past i = some number)
      (hroom : s.mRoomManager.getRoomByNumber number ≠ none)
      (hlong : maxUserIdLen + 1 < (s.mUserObjPool i).mUserID.length) :
      Stops past s (.frame i PacketId.reqRoomLeave.code packetSize p)
  | longIdEnters {i : Fin n} {packetSize : UInt16} {p : Bytes} {k : Fin m}
      (hhandler : s.handler i PacketId.reqRoomEnter.code = .processEnterRoom)
      (hroom : s.mRoomManager.getRoomByNumber (int32At p roomNumberOffset) = some k)
      (hspace : (s.room k).getCurrentUserCount < (s.room k).getMaxUserCount)
      (hlong : maxUserIdLen + 1 < (s.mUserObjPool i).mUserID.length) :
      Stops past s (.frame i PacketId.reqRoomEnter.code packetSize p)

theorem Stops.of_overrunsField {a : Event n} (ht : s.TablesOk)
    (hasked : ∀ i, AskedOk (askedFor past i) (s.mUserObjPool i)) (h : s.OverrunsField a) :
    Stops past s a := by
  cases a with
  | connect i | disconnect i => exact absurd h id
  | frame i packetId packetSize p =>
    rcases h with ⟨hcopies, hlong⟩
    rw [copyUserId_eq_none] at hlong
    cases hf : s.handler i packetId with
    | processEnterRoom =>
      obtain rfl := ht.packetId_of_handler hf rfl
      rw [hf, copyingRoom] at hcopies
      rcases Option.isSome_iff_exists.mp hcopies with ⟨k, hk⟩
      rcases Option.filter_eq_some_iff.mp hk with ⟨hroom, hspace⟩
      exact .longIdEnters hf hroom (of_decide_eq_true hspace) hlong
    | processLeaveRoom =>
      obtain rfl := ht.packetId_of_handler hf rfl
      rw [hf, copyingRoom] at hcopies
      have hsome := ((hasked i).handler_iff ht).2.mp hf
      rcases Option.isSome_iff_exists.mp hsome with ⟨number, hnumber⟩
      refine .longIdLeaves hnumber ?_ hlong
      rw [getRoom, (hasked i).2 number hnumber] at hcopies
      exact Option.isSome_iff_ne_none.mp hcopies
    | noop | processCreateAccount | processLogin | processLobbyInfo | processRoomInfo
    | processRoomChatMessage => simp [hf, copyingRoom] at hcopies

theorem Stops.not_defined {a : Event n} (ht : s.TablesOk)
    (hasked : ∀ i, AskedOk (askedFor past i) (s.mUserObjPool i)) (h : Stops past s a) :
    ¬s.Defined env a := by
  cases h with
  | @unknownRoom i _ _ number hnumber hroom =>
    have hf := ((hasked i).handler_iff ht).1.mpr (by rw [hnumber]; rfl)
    refine fun hdefined => hdefined.1 (processEvent_eq_none.mpr ⟨i, _, _, _, rfl, hf, ?_⟩)
    rwa [getRoom, (hasked i).2 number hnumber]
  | @longIdLeaves i _ _ number hnumber hroom hlong =>
    have hf := ((hasked i).handler_iff ht).2.mpr (by rw [hnumber]; rfl)
    refine fun hdefined => hdefined.2 ⟨?_, copyUserId_eq_none.mpr hlong⟩
    rw [hf, copyingRoom, getRoom, (hasked i).2 number hnumber]
    exact Option.isSome_iff_ne_none.mpr hroom
  | @longIdEnters i _ p k hf hroom hspace hlong =>
    refine fun hdefined => hdefined.2 ⟨?_, copyUserId_eq_none.mpr hlong⟩
    rw [hf, copyingRoom, hroom]
    simp [hspace]

end ChatServer.Server
