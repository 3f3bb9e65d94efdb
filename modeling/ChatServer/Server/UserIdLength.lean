import ChatServer.Server.Effect

/-! # The length of user ids

`EnterUser` and `LeaveUser` copy an id of any length into a field of eleven bytes. The
length is that of the string which `ProcessLogin` reads from the frame, and the string
ends at a zero byte only.
-/

namespace ChatServer

/-! ## The copy loops -/

/-- `field[i] = id[i]` for the rest of the id from index `i` on, or `none` once a byte
is written outside of the field. -/
def copyLoop (field : Bytes) (i : ℕ) : Bytes → Option Bytes
  | [] => some field
  | c :: id => if i < field.length then copyLoop (field.set i c) (i + 1) id else none

/-- The loop of `Room::EnterUser`, and of `Room::LeaveUser`, on its zeroed field. -/
def copyUserId (id : Bytes) : Option Bytes :=
  copyLoop (List.replicate (maxUserIdLen + 1) 0) 0 id

theorem copyLoop_eq {field id : Bytes} {i : ℕ} (hi : i ≤ field.length) :
    copyLoop field i id = if i + id.length ≤ field.length then
      some (field.take i ++ id ++ field.drop (i + id.length)) else none := by
  induction id generalizing field i with
  | nil => simp [copyLoop, hi]
  | cons c id ih =>
    by_cases hlt : i < field.length
    · have hset : i + 1 ≤ (field.set i c).length := by rwa [List.length_set]
      have htake : (field.set i c).take (i + 1) = field.take i ++ [c] := by
        rw [List.take_succ_eq_append_getElem (by rwa [List.length_set]), List.getElem_set_self,
          List.take_set_of_le (Nat.le_refl i)]
      have hdrop : (field.set i c).drop (i + 1 + id.length) =
          field.drop (i + (id.length + 1)) := by
        rw [List.drop_set_of_lt (by omega), Nat.add_assoc, Nat.add_comm 1]
      simp only [copyLoop, if_pos hlt, ih hset, List.length_set, htake, hdrop, List.length_cons]
      simp [Nat.add_assoc, Nat.add_comm 1]
    · simp only [copyLoop, if_neg hlt, List.length_cons]
      rw [if_neg (by omega)]

/-- A loop that stays inside leaves the field of the packets. -/
theorem copyUserId_eq (id : Bytes) : copyUserId id =
    if id.length ≤ maxUserIdLen + 1 then some (userIdField id) else none := by
  rw [copyUserId, copyLoop_eq (Nat.zero_le _)]
  simp only [Nat.zero_add, List.length_replicate]
  split_ifs with hlength
  · rw [List.take_zero, List.nil_append, List.drop_replicate, Option.some.injEq]
    have hlengths : (id ++ List.replicate (maxUserIdLen + 1 - id.length) 0).length =
        (userIdField id).length := by
      simp only [userIdField, blockAt, List.length_append, List.length_replicate, List.length_map,
        List.length_range]
      omega
    apply List.ext_getElem hlengths
    intro k hk _
    by_cases hinside : k < id.length
    · simp [userIdField, blockAt, byteAt, List.getElem_append_left hinside, hinside]
    · simp [userIdField, blockAt, byteAt, List.getElem_append_right (Nat.not_lt.mp hinside),
        Nat.not_lt.mp hinside]
  · rfl

/-- An id within the bound, whose copy stays inside the field and ends with a zero. -/
structure IdFits (id : Bytes) : Prop where
  short : id.length ≤ maxUserIdLen
  copied : ∃ field, copyUserId id = some field ∧ field[id.length]? = some 0

theorem copyUserId_eq_none {id : Bytes} :
    copyUserId id = none ↔ maxUserIdLen + 1 < id.length := by
  rw [copyUserId_eq, ite_eq_right_iff, imp_iff_not (Option.some_ne_none _), Nat.not_le]

theorem idFits_iff {id : Bytes} : IdFits id ↔ id.length ≤ maxUserIdLen := by
  constructor
  · exact IdFits.short
  · intro hshort
    have hlt : id.length < maxUserIdLen + 1 := Nat.lt_succ_of_le hshort
    refine ⟨hshort, userIdField id, by rw [copyUserId_eq, if_pos hlt.le], ?_⟩
    simp [userIdField, blockAt, byteAt, hlt]

/-! ## The string of a field -/

theorem takeWhile_length_le_iff {p : Bytes} {len : ℕ} :
    (p.takeWhile (· ≠ 0)).length ≤ len ↔ ∃ k ≤ len, byteAt p k = 0 := by
  induction p generalizing len with
  | nil => exact iff_of_true (Nat.zero_le _) ⟨0, Nat.zero_le _, rfl⟩
  | cons c p ih =>
    by_cases hc : c = 0
    · subst hc
      exact iff_of_true (Nat.zero_le _) ⟨0, Nat.zero_le _, rfl⟩
    · rw [List.takeWhile_cons_of_pos (by simpa using hc), List.length_cons]
      constructor
      · intro hlength
        rcases ih.mp (Nat.le_sub_of_add_le hlength) with ⟨k, hk, hzero⟩
        exact ⟨k + 1, by omega, hzero⟩
      · rintro ⟨k, hk, hzero⟩
        cases k with
        | zero => exact absurd hzero hc
        | succ k => exact Nat.add_le_of_le_sub (by omega) (ih.mpr ⟨k, by omega, hzero⟩)

/-- The string is short exactly if its terminator comes soon enough. -/
theorem stringAt_length_le_iff {p : Bytes} {offset len : ℕ} :
    (stringAt p offset).length ≤ len ↔ ∃ k ≤ len, byteAt p (offset + k) = 0 := by
  simp only [stringAt, takeWhile_length_le_iff, byteAt, List.getD_eq_getElem?_getD,
    List.getElem?_drop]

namespace Server
open Recorded

variable {n m : ℕ} {δ : Type*}

def UserIdsFit (s : Server n m δ) : Prop := ∀ i, IdFits (s.mUserObjPool i).mUserID

/-- The frame is a login request that the account database confirms, for an id that is
not logged in. -/
structure LoginAccepted (env : Env δ) (s : Server n m δ) (i : Fin n)
    (packetId packetSize : UInt16) (p : Bytes) : Prop where
  handler : s.handler i packetId = .processLogin
  size : packetSize.toNat = reqLoginPacketSize
  free : s.mUserIDDictionary (stringAt p userIdOffset) = none
  selected : (env.selectAccount s.mAccountDB (stringAt p userIdOffset)
    (stringAt p userPwOffset)).1 = true

instance (env : Env δ) (s : Server n m δ) (i : Fin n) (packetId packetSize : UInt16)
    (p : Bytes) : Decidable (s.LoginAccepted env i packetId packetSize p) :=
  decidable_of_iff (s.handler i packetId = .processLogin ∧
      packetSize.toNat = reqLoginPacketSize ∧
      s.mUserIDDictionary (stringAt p userIdOffset) = none ∧
      (env.selectAccount s.mAccountDB (stringAt p userIdOffset)
        (stringAt p userPwOffset)).1 = true)
    ⟨fun ⟨hf, hsize, hfree, hdb⟩ => ⟨hf, hsize, hfree, hdb⟩,
      fun ⟨hf, hsize, hfree, hdb⟩ => ⟨hf, hsize, hfree, hdb⟩⟩

/-- A login that is accepted has a zero byte in the field `UserID` of its frame. -/
def LoginIdTerminated (env : Env δ) (s : Server n m δ) : Event n → Prop
  | .frame i packetId packetSize p => s.LoginAccepted env i packetId packetSize p →
      ∃ k ≤ maxUserIdLen, byteAt p (userIdOffset + k) = 0
  | .connect _ | .disconnect _ => True

instance (env : Env δ) (s : Server n m δ) : DecidablePred (s.LoginIdTerminated env)
  | .frame i packetId packetSize p =>
    inferInstanceAs (Decidable (s.LoginAccepted env i packetId packetSize p →
      ∃ k ≤ maxUserIdLen, byteAt p (userIdOffset + k) = 0))
  | .connect _ | .disconnect _ => instDecidableTrue

variable {env : Env δ} {s s' : Server n m δ} {e : Event n} {out : List (Sent n)} {i : Fin n}
  {packetId packetSize : UInt16} {p : Bytes}

/-! ## Where an id comes from -/

/-- No event changes the user count. -/
theorem Effect.userCounts (he : Effect env s e s' out) :
    s'.mCurrentUserCnt = s.mCurrentUserCnt ∧ s'.mMaxUserCnt = s.mMaxUserCnt := by
  cases he <;> exact ⟨rfl, rfl⟩

/-- An id changes when its user is cleared and when a login is accepted. -/
theorem Effect.mUserID (he : Effect env s e s' out) (j : Fin n) :
    (s'.mUserObjPool j).mUserID = (s.mUserObjPool j).mUserID ∨
    (s'.mUserObjPool j).mUserID = [] ∨
    ∃ packetId packetSize p, e = .frame j packetId packetSize p ∧
      s.LoginAccepted env j packetId packetSize p ∧
      (s'.mUserObjPool j).mUserID = stringAt p userIdOffset := by
  cases he with
  | connect i =>
    by_cases hj : j = i
    · subst hj
      exact .inr (.inl (by simp [processUserConnect]))
    · exact .inl (by simp [processUserConnect, updateUser_other _ _ _ hj])
  | disconnect i =>
    by_cases hj : j = i
    · subst hj
      exact .inr (.inl (by simp [deleteUserInfo]))
    · exact .inl (by simp [deleteUserInfo, updateUser_other _ _ _ hj])
  | @loggedIn i packetId packetSize p db hf hsize hfree hdb =>
    by_cases hj : j = i
    · subst hj
      refine .inr (.inr ⟨packetId, packetSize, p, rfl, ⟨hf, hsize, hfree, by rw [hdb]⟩, ?_⟩)
      simp
    · exact .inl (by simp [updateUser_other _ _ _ hj])
  | enterRefused hf => exact .inl (updateUser_mUserID (by simp) j)
  | @entered i packetId packetSize p k hf hk hspace =>
    exact .inl (updateUser_mUserID (s := s.setRoom k _ _) (by simp) j)
  | leaveRefused hf => exact .inl (updateUser_mUserID (by simp) j)
  | @left i packetId packetSize p k hf hk =>
    exact .inl (updateUser_mUserID (s := s.setRoom k _ _) (by simp) j)
  | disconnectUnused | ignored | accountCreated | loginRefused | lobbyInfo | roomInfo |
    chatRefused | chat => exact .inl rfl

/-- An accepted login stores the string of its field. -/
theorem LoginAccepted.mUserID (h : s.LoginAccepted env i packetId packetSize p)
    (hspace : s.mCurrentUserCnt < s.mMaxUserCnt)
    (hstep : s.step env (.frame i packetId packetSize p) = some s') :
    (s'.mUserObjPool i).mUserID = stringAt p userIdOffset := by
  have hnotfull : ¬s.mCurrentUserCnt ≥ s.mMaxUserCnt := Int.not_le.mpr hspace
  have hlogin : (s.processLogin env i packetSize p).1 = s' := by
    simpa [step, processEvent_frame, h.handler, runRecvFunction] using hstep
  rw [← hlogin]
  simp [processLogin, h.size, checkLoginable, hnotfull, findUserIndexByID, h.free, h.selected]

/-! ## Copies that leave their field -/

/-- The room whose copy loop a handler runs: `EnterUser` if the room has space, and
`LeaveUser` always. -/
def copyingRoom (s : Server n m δ) (i : Fin n) (p : Bytes) : RecvFunction → Option (Fin m)
  | .processEnterRoom => (s.mRoomManager.getRoomByNumber (int32At p roomNumberOffset)).filter
      fun k => (s.room k).getCurrentUserCount < (s.room k).getMaxUserCount
  | .processLeaveRoom => s.getRoom i
  | _ => none

/-- The event makes a room copy the id of its user beyond the end of the field. What
happens after that is not defined. -/
def OverrunsField (s : Server n m δ) : Event n → Prop
  | .connect _ | .disconnect _ => False
  | .frame i packetId _ p => (s.copyingRoom i p (s.handler i packetId)).isSome ∧
      copyUserId (s.mUserObjPool i).mUserID = none

/-- The event dereferences no null room and stays inside the fields that it writes. -/
def Defined (env : Env δ) (s : Server n m δ) (e : Event n) : Prop :=
  s.processEvent env e ≠ none ∧ ¬s.OverrunsField e

/-! ## Runs -/

/-- While there is room for a user, a step keeps all ids within their fields exactly if
it accepts no login without a terminated id. -/
theorem UserIdsFit.step_iff (h : s.UserIdsFit) (hspace : 0 < n → s.mCurrentUserCnt < s.mMaxUserCnt)
    (hstep : s.step env e = some s') : s'.UserIdsFit ↔ s.LoginIdTerminated env e := by
  constructor
  · intro hfit
    cases e with
    | connect i => trivial
    | disconnect i => trivial
    | frame i packetId packetSize p =>
      intro haccepted
      have hshort := (hfit i).short
      rwa [haccepted.mUserID (hspace i.pos) hstep, stringAt_length_le_iff] at hshort
  · intro hterminated j
    rcases (effect_of_step hstep).mUserID j with hsame | hempty |
      ⟨packetId, packetSize, p, rfl, haccepted, hid⟩
    · rw [hsame]
      exact h j
    · rw [hempty]
      exact idFits_iff.mpr (Nat.zero_le _)
    · rw [hid, idFits_iff, stringAt_length_le_iff]
      exact hterminated haccepted

/-- In a run, all ids of all states fit exactly if every login that is accepted has a
terminated id. -/
theorem user_ids_fit_iff (env : Env δ) (n : ℕ)
    (beginRoomNumber maxRoomCount maxRoomUserCount : Int32) (mem : Fin n → ℕ → UInt8) (db : δ)
    {past : History n maxRoomCount.toNatClampNeg δ}
    {s : Server n maxRoomCount.toNatClampNeg δ}
    (run : Run (step env) (init n beginRoomNumber maxRoomCount maxRoomUserCount mem db) past s) :
    (∀ e ∈ past, e.post.UserIdsFit) ↔ ∀ e ∈ past, e.pre.LoginIdTerminated env e.act := by
  rw [← atEach_const, ← atEach_const]
  apply run.exact_iff (A := fun _ _ => True)
    (I := fun _ s => s.UserIdsFit ∧ (0 < n → s.mCurrentUserCnt < s.mMaxUserCnt))
  · exact ⟨fun _ => idFits_iff.mpr (Nat.zero_le _), fun hn => Int.natCast_pos.mpr hn⟩
  · rintro past s e s' ⟨hfit, hspace⟩ hstep - hterminated
    have hcounts := (effect_of_step hstep).userCounts
    rw [hcounts.1, hcounts.2]
    exact ⟨(hfit.step_iff hspace hstep).mpr hterminated, hspace⟩
  · rintro past s e s' ⟨hfit, hspace⟩ hstep -
    exact hfit.step_iff hspace hstep
  · exact atEach_const.mpr fun _ _ => trivial

/-- An id of ten bytes is logged in with. -/
theorem user_ids_fit_for_ten : ∃ past s,
    Run (step acceptingEnv) (init 1 0 10 4 (fun _ _ => 0) ()) past s ∧
      (∀ e ∈ past, e.post.UserIdsFit) ∧
      (s.mUserObjPool 0).mUserID = List.replicate 10 65 := by
  obtain ⟨past, s, run, h⟩ := exists_run (step acceptingEnv) (init 1 0 10 4 (fun _ _ => 0) ())
    [.connect 0, .request 0 .reqLogin (reqLoginBody (List.replicate 10 65) [66])]
    (fun past s => (∀ e ∈ past, e.pre.LoginIdTerminated acceptingEnv e.act) ∧
      (s.mUserObjPool 0).mUserID = List.replicate 10 65)
    (by decide +kernel)
  rcases of_decide_eq_true h with ⟨hterminated, hid⟩
  exact ⟨past, s, run, (user_ids_fit_iff acceptingEnv 1 0 10 4 _ () run).mpr hterminated, hid⟩

/-- The field `UserID` of a login is full, so the id goes on with the password. On the
entry into a room its twelve bytes are copied into the eleven of the field. -/
theorem full_id_field_overflows : ∃ past s,
    Run (step acceptingEnv) (init 1 0 10 4 (fun _ _ => 0) ()) past s ∧
      (s.mUserObjPool 0).mState = .inRoom ∧
      (s.mUserObjPool 0).mUserID = List.replicate 11 65 ++ [66] ∧
      copyUserId (s.mUserObjPool 0).mUserID = none ∧
      ¬∀ e ∈ past, e.post.UserIdsFit := by
  obtain ⟨past, s, run, h⟩ := exists_run (step acceptingEnv) (init 1 0 10 4 (fun _ _ => 0) ())
    [.connect 0, .request 0 .reqLogin (reqLoginBody (List.replicate 11 65) [66]),
      .request 0 .reqRoomEnter (le32 0)]
    (fun past s => (s.mUserObjPool 0).mState = .inRoom ∧
      (s.mUserObjPool 0).mUserID = List.replicate 11 65 ++ [66] ∧
      copyUserId (s.mUserObjPool 0).mUserID = none ∧
      ∃ e ∈ past, maxUserIdLen < (e.post.mUserObjPool 0).mUserID.length)
    (by decide +kernel)
  rcases of_decide_eq_true h with ⟨hstate, hid, hcopy, e, he, hlong⟩
  refine ⟨past, s, run, hstate, hid, hcopy, fun hall => ?_⟩
  exact absurd (hall e he 0).short (Nat.not_le.mpr hlong)

end Server

end ChatServer
