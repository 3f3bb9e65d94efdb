import ChatServer.Server.LoginTable
import ChatServer.Server.UserIdLength

/-! # What an event leaves alone

An event of one slot writes no other user. It writes the lists of rooms, and there
`Room::LeaveUser` removes entries by the ids that the users have at that moment.
Ids other than the empty one belong to one slot only, in every run.
-/

namespace ChatServer

/-- The slot of an event -/
def Event.clientIndex {n : ℕ} : Event n → Fin n
  | .connect i | .disconnect i | .frame i _ _ _ => i

namespace Server
open Recorded

variable {n m : ℕ} {δ : Type*}

/-- A user that has an id is found under it. -/
def IdsOwned (s : Server n m δ) : Prop :=
  ∀ j, (s.mUserObjPool j).mUserID ≠ [] →
    s.mUserIDDictionary (s.mUserObjPool j).mUserID = some j

variable {env : Env δ} {s s' : Server n m δ} {e : Event n} {out : List (Sent n)} {i j : Fin n}

theorem IdsOwned.inj (h : s.IdsOwned) (hid : (s.mUserObjPool i).mUserID ≠ [])
    (heq : (s.mUserObjPool j).mUserID = (s.mUserObjPool i).mUserID) : j = i := by
  have hi := h i hid
  have hj := h j (by rwa [heq])
  rw [heq] at hj
  exact Option.some.inj (hj.symm.trans hi)

theorem IdsOwned.congr (h : s.IdsOwned) (hdict : s'.mUserIDDictionary = s.mUserIDDictionary)
    (hids : ∀ j, (s'.mUserObjPool j).mUserID = (s.mUserObjPool j).mUserID) : s'.IdsOwned := by
  intro j hj
  rw [hids] at hj
  rw [hdict, hids]
  exact h j hj

/-- A connect clears the id and leaves its entry in the dictionary. -/
theorem IdsOwned.connect (h : s.IdsOwned) (i : Fin n) : (s.processUserConnect i).IdsOwned := by
  intro j hj
  by_cases hji : j = i
  · subst hji
    simp [processUserConnect] at hj
  · rw [processUserConnect, updateUser_other _ _ _ hji] at hj ⊢
    exact h j hj

/-- The erased id is not the id of another user. -/
theorem IdsOwned.deleteUserInfo (h : s.IdsOwned) (i : Fin n) : (s.deleteUserInfo i).IdsOwned := by
  intro j hj
  by_cases hji : j = i
  · subst hji
    simp [Server.deleteUserInfo] at hj
  · rw [Server.deleteUserInfo, updateUser_other _ _ _ hji, eraseUserID_mUserObjPool] at hj ⊢
    rw [updateUser_mUserIDDictionary, eraseUserID_mUserIDDictionary, Function.update_apply,
      if_neg]
    · exact h j hj
    · intro heq
      exact hji (h.inj (heq ▸ hj) heq)

/-- A login takes an id that nobody has. -/
theorem IdsOwned.login (h : s.IdsOwned) {id : Bytes} (hfree : s.mUserIDDictionary id = none)
    (db : δ) (i : Fin n) :
    ((s.recordLogin db id i).updateUser i (User.setLogin id)).IdsOwned := by
  intro j hj
  by_cases hji : j = i
  · subst hji
    simp
  · rw [updateUser_other _ _ _ hji, recordLogin_mUserObjPool] at hj ⊢
    rw [updateUser_mUserIDDictionary, recordLogin_mUserIDDictionary, Function.update_apply,
      if_neg]
    · exact h j hj
    · rintro rfl
      exact nomatch hfree.symm.trans (h j hj)

theorem IdsOwned.effect (h : s.IdsOwned) (he : Effect env s e s' out) : s'.IdsOwned := by
  cases he with
  | connect i => exact h.connect i
  | disconnect i => exact h.deleteUserInfo i
  | loggedIn _ _ hfree => exact h.login hfree _ _
  | enterRefused => exact h.congr rfl (updateUser_mUserID (by simp))
  | entered => exact h.congr rfl (updateUser_mUserID (s := s.setRoom _ _ _) (by simp))
  | leaveRefused => exact h.congr rfl (updateUser_mUserID (by simp))
  | left => exact h.congr rfl (updateUser_mUserID (s := s.setRoom _ _ _) (by simp))
  | disconnectUnused | ignored | accountCreated | loginRefused | lobbyInfo | roomInfo |
    chatRefused | chat => exact h.congr rfl fun _ => rfl

theorem init_idsOwned (n : ℕ) (beginRoomNumber maxRoomCount maxRoomUserCount : Int32)
    (mem : Fin n → ℕ → UInt8) (db : δ) :
    (init n beginRoomNumber maxRoomCount maxRoomUserCount mem db).IdsOwned :=
  fun _ h => absurd rfl h

/-- In every run an id that is not empty is the id of one user. -/
theorem idsOwned_of_run {n : ℕ} {beginRoomNumber maxRoomCount maxRoomUserCount : Int32}
    {mem : Fin n → ℕ → UInt8} {db : δ} {past : History n maxRoomCount.toNatClampNeg δ}
    {s : Server n maxRoomCount.toNatClampNeg δ}
    (run : Run (step env) (init n beginRoomNumber maxRoomCount maxRoomUserCount mem db) past s) :
    s.IdsOwned :=
  run.state_invariant (init_idsOwned n beginRoomNumber maxRoomCount maxRoomUserCount mem db)
    fun _ _ _ h hstep => h.effect (effect_of_step hstep)

/-! ## The other users and their entries in the lists -/

/-- The entries of users other than `i` are still in every list, in their order. -/
def KeepsEntries (s s' : Server n m δ) (i : Fin n) : Prop :=
  ∀ k, ((s.room k).mUserList.filter (· ≠ i)).Sublist (s'.room k).mUserList

/-- The event has a defined result, the records of all users but `i` stay what they
were, and so do their entries in the rooms. -/
def OthersUntouched (env : Env δ) (s : Server n m δ) (e : Event n) (i : Fin n) : Prop :=
  s.Defined env e ∧ ∃ s', s.step env e = some s' ∧
    (∀ j, j ≠ i → s'.mUserObjPool j = s.mUserObjPool j) ∧ s.KeepsEntries s' i

/-- Another user with an empty id is in the list of room `k`. -/
def BlankCompany (s : Server n m δ) (i : Fin n) (k : Fin m) : Prop :=
  ∃ j ∈ (s.room k).mUserList, j ≠ i ∧ (s.mUserObjPool j).mUserID = []

instance (s : Server n m δ) (i : Fin n) (k : Fin m) : Decidable (s.BlankCompany i k) :=
  inferInstanceAs (Decidable (∃ j ∈ (s.room k).mUserList, _))

/-- Nobody leaves under an empty id a room where another entry has an empty id as well. -/
def LeavesUnderOwnID (s : Server n m δ) : Event n → Prop
  | .connect _ | .disconnect _ => True
  | .frame i packetId _ _ =>
    s.handler i packetId = .processLeaveRoom → (s.mUserObjPool i).mUserID = [] →
      ∀ k, s.getRoom i = some k → ¬s.BlankCompany i k

/-- No room list is asked for without a room, no room copies an id that is longer than
the field, and nobody leaves under an empty id that another entry has as well. -/
def LeavesOthersAlone (s : Server n m δ) (e : Event n) : Prop :=
  s.LeavesUnderOwnID e ∧
  match e with
  | .connect _ | .disconnect _ => True
  | .frame i packetId _ p =>
    (s.handler i packetId = .processRoomInfo → s.getRoom i ≠ none) ∧
    ((s.copyingRoom i p (s.handler i packetId)).isSome →
      (s.mUserObjPool i).mUserID.length ≤ maxUserIdLen + 1)

instance (s : Server n m δ) : DecidablePred s.LeavesUnderOwnID
  | .connect _ | .disconnect _ => instDecidableTrue
  | .frame i packetId _ _ => inferInstanceAs (Decidable
      (s.handler i packetId = .processLeaveRoom → (s.mUserObjPool i).mUserID = [] →
        ∀ k, s.getRoom i = some k → ¬s.BlankCompany i k))

instance (s : Server n m δ) : DecidablePred s.LeavesOthersAlone
  | .connect _ | .disconnect _ => instDecidableAnd
  | .frame i packetId packetSize p => inferInstanceAs (Decidable
      (s.LeavesUnderOwnID (.frame i packetId packetSize p) ∧
        (s.handler i packetId = .processRoomInfo → s.getRoom i ≠ none) ∧
          ((s.copyingRoom i p (s.handler i packetId)).isSome →
            (s.mUserObjPool i).mUserID.length ≤ maxUserIdLen + 1)))

/-- An event that finds its room and a short id is defined. -/
theorem defined_iff (h : s.LeavesUnderOwnID e) : s.Defined env e ↔ s.LeavesOthersAlone e := by
  cases e with
  | connect i => simp [Defined, OverrunsField, LeavesOthersAlone, h, processEvent_connect]
  | disconnect i => simp [Defined, OverrunsField, LeavesOthersAlone, h, processEvent_disconnect]
  | frame i packetId packetSize p =>
    have hroom : s.processEvent env (.frame i packetId packetSize p) ≠ none ↔
        (s.handler i packetId = .processRoomInfo → s.getRoom i ≠ none) := by
      rw [ne_eq, processEvent_eq_none]
      constructor
      · exact fun hdefined hf hk => hdefined ⟨i, packetId, packetSize, p, rfl, hf, hk⟩
      · rintro hfound ⟨i, packetId, packetSize, p, heq, hf, hk⟩
        cases heq
        exact hfound hf hk
    rw [Defined, hroom, OverrunsField, copyUserId_eq_none, not_and, Nat.not_lt, LeavesOthersAlone]
    exact (and_iff_right h).symm

/-- No effect writes the record of a user other than that of the event's slot. -/
theorem mUserObjPool_of_effect (he : Effect env s e s' out) (hj : j ≠ e.clientIndex) :
    s'.mUserObjPool j = s.mUserObjPool j := by
  cases he with
  | connect i => exact updateUser_other _ _ _ hj
  | disconnect i => exact updateUser_other _ _ _ hj
  | loggedIn => exact updateUser_other _ _ _ hj
  | enterRefused => exact updateUser_other _ _ _ hj
  | entered => exact updateUser_other (s := s.setRoom _ _ _) _ _ hj
  | leaveRefused => exact updateUser_other _ _ _ hj
  | left => exact updateUser_other (s := s.setRoom _ _ _) _ _ hj
  | disconnectUnused | ignored | accountCreated | loginRefused | lobbyInfo | roomInfo |
    chatRefused | chat => rfl

/-- An event that writes no list. -/
theorem KeepsEntries.of_eq (h : ∀ k, (s'.room k).mUserList = (s.room k).mUserList) (i : Fin n) :
    s.KeepsEntries s' i := by
  intro k
  rw [h k]
  exact List.filter_sublist

theorem keepsEntries_setRoom {k : Fin m} {l : List (Fin n)} {c : UInt16} (f : User → User) :
    s.KeepsEntries ((s.setRoom k l c).updateUser i f) i ↔
      ((s.room k).mUserList.filter (· ≠ i)).Sublist l := by
  simp only [KeepsEntries, updateUser_room, setRoom_mUserList]
  constructor
  · intro h
    simpa using h k
  · intro h j
    split_ifs with hj
    · rwa [hj]
    · exact List.filter_sublist

/-- A leave keeps the entries of the others if it finds its user's id with none of
them, and two users that share an id have the empty one. -/
theorem stayers_sublist_iff (h : s.IdsOwned) {k : Fin m} :
    ((s.room k).mUserList.filter (· ≠ i)).Sublist (s.stayers i k) ↔
      ((s.mUserObjPool i).mUserID = [] → ¬s.BlankCompany i k) := by
  constructor
  · rintro hsub hblank ⟨j, hj, hji, hid⟩
    have hstay := hsub.subset (List.mem_filter.mpr ⟨hj, by simpa using hji⟩)
    simp [stayers, hblank, hid] at hstay
  · intro hcond
    have hne : ∀ j ∈ (s.room k).mUserList, j ≠ i →
        (s.mUserObjPool i).mUserID ≠ (s.mUserObjPool j).mUserID := by
      intro j hj hji hid
      by_cases hblank : (s.mUserObjPool i).mUserID = []
      · exact hcond hblank ⟨j, hj, hji, hid.symm.trans hblank⟩
      · exact hji (h.inj hblank hid.symm)
    have hfilter : (s.room k).mUserList.filter (· ≠ i) = (s.stayers i k).filter (· ≠ i) := by
      rw [stayers, List.filter_filter]
      apply List.filter_congr
      intro j hj
      by_cases hji : j = i
      · simp [hji]
      · simpa [hji] using hne j hj hji
    rw [hfilter]
    exact List.filter_sublist

/-- The entries of the others survive an effect exactly if it is not a leave under an
empty id that another entry has too. -/
theorem keepsEntries_of_effect (h : s.IdsOwned) (he : Effect env s e s' out) :
    s.KeepsEntries s' e.clientIndex ↔ s.LeavesUnderOwnID e := by
  cases he with
  | connect i => exact iff_of_true (.of_eq (fun _ => rfl) i) trivial
  | disconnectUnused i => exact iff_of_true (.of_eq (fun _ => rfl) i) trivial
  | disconnect i => exact iff_of_true (.of_eq (fun _ => rfl) i) trivial
  | ignored hf =>
    apply iff_of_true (.of_eq (fun _ => rfl) _)
    rcases hf with hf | ⟨hf, -⟩ | ⟨hf, -⟩ <;> simp [LeavesUnderOwnID, hf]
  | entered hf hk =>
    refine iff_of_true ((keepsEntries_setRoom _).mpr ?_) (by simp [LeavesUnderOwnID, hf])
    exact List.filter_sublist.trans (List.sublist_append_left _ _)
  | left hf hk =>
    rw [Event.clientIndex, keepsEntries_setRoom, stayers_sublist_iff h]
    simp [LeavesUnderOwnID, hf, hk]
  | roomInfo hf hk =>
    exact iff_of_true (.of_eq (fun _ => rfl) _) (by simp [LeavesUnderOwnID, hf, hk])
  | leaveRefused hf hk =>
    exact iff_of_true (.of_eq (fun _ => rfl) _) (by simp [LeavesUnderOwnID, hf, hk])
  | accountCreated hf | loginRefused hf | loggedIn hf | lobbyInfo hf | enterRefused hf
  | chatRefused hf | chat hf =>
    exact iff_of_true (.of_eq (fun _ => rfl) _) (by simp [LeavesUnderOwnID, hf])

/-- In every reachable state, an event of a slot is defined and leaves the records and the
room entries of all other users alone exactly if it is not a room list without a room, not
the entry or leave of a user whose id is longer than the field for it, and not a leave
under an empty id in the company of another empty id. -/
theorem others_untouched_iff (env : Env δ) (n : ℕ)
    (beginRoomNumber maxRoomCount maxRoomUserCount : Int32) (mem : Fin n → ℕ → UInt8) (db : δ)
    {past : History n maxRoomCount.toNatClampNeg δ} {s : Server n maxRoomCount.toNatClampNeg δ}
    (run : Run (step env) (init n beginRoomNumber maxRoomCount maxRoomUserCount mem db) past s)
    (e : Event n) : s.OthersUntouched env e e.clientIndex ↔ s.LeavesOthersAlone e := by
  have howned := idsOwned_of_run run
  constructor
  · rintro ⟨hdefined, s', hstep, -, hkeeps⟩
    rw [keepsEntries_of_effect howned (effect_of_step hstep)] at hkeeps
    exact (defined_iff hkeeps).mp hdefined
  · intro halone
    have hdefined : s.Defined env e := (defined_iff halone.1).mpr halone
    rcases Option.ne_none_iff_exists'.mp hdefined.1 with ⟨⟨s', out⟩, hevent⟩
    have hstep : s.step env e = some s' := congrArg (Option.map Prod.fst) hevent
    have he := effect_of_step hstep
    refine ⟨hdefined, s', hstep, fun j hj => mUserObjPool_of_effect he hj, ?_⟩
    exact (keepsEntries_of_effect howned he).mpr halone.1

/-- Two users in one room, and one of them leaves. -/
theorem others_untouched_by_leave : ∃ past s,
    Run (step acceptingEnv) (init 2 0 10 4 (fun _ _ => 0) ()) past s ∧
      (s.room ⟨0, by decide⟩).mUserList = [0, 1] ∧
      s.OthersUntouched acceptingEnv (.request 0 .reqRoomLeave []) 0 := by
  obtain ⟨past, s, run, h⟩ := exists_run (step acceptingEnv) (init 2 0 10 4 (fun _ _ => 0) ())
    [.connect 0, .connect 1, .request 0 .reqLogin (reqLoginBody [65] [66]),
      .request 1 .reqLogin (reqLoginBody [67] [66]), .request 0 .reqRoomEnter (le32 0),
      .request 1 .reqRoomEnter (le32 0)]
    (fun _ s => (s.room ⟨0, by decide⟩).mUserList = [0, 1] ∧
      s.LeavesOthersAlone (.request 0 .reqRoomLeave [])) (by decide +kernel)
  rcases of_decide_eq_true h with ⟨hlist, hcond⟩
  exact ⟨past, s, run, hlist,
    (others_untouched_iff acceptingEnv 2 0 10 4 _ () run (.request 0 .reqRoomLeave [])).mpr hcond⟩

/-- Slot 1 disconnects while in room 0, so its entry stays there with an empty id.
Slot 0, which is logged in under the empty id, leaves the room and takes the entry of
slot 1 along. -/
theorem leave_removes_blank_entry : ∃ past s,
    Run (step acceptingEnv) (init 2 0 10 4 (fun _ _ => 0) ()) past s ∧
      (s.room ⟨0, by decide⟩).mUserList = [0, 1] ∧
      ¬s.OthersUntouched acceptingEnv (.request 0 .reqRoomLeave []) 0 := by
  obtain ⟨past, s, run, h⟩ := exists_run (step acceptingEnv) (init 2 0 10 4 (fun _ _ => 0) ())
    [.connect 0, .connect 1, .request 0 .reqLogin (reqLoginBody [] [66]),
      .request 1 .reqLogin (reqLoginBody [67] [66]), .request 0 .reqRoomEnter (le32 0),
      .request 1 .reqRoomEnter (le32 0), .disconnect 1]
    (fun _ s => (s.room ⟨0, by decide⟩).mUserList = [0, 1] ∧
      ((s.step acceptingEnv (.request 0 .reqRoomLeave [])).map fun s' =>
        (s'.room ⟨0, by decide⟩).mUserList) = some []) (by decide +kernel)
  rcases of_decide_eq_true h with ⟨hlist, hleft⟩
  refine ⟨past, s, run, hlist, ?_⟩
  rintro ⟨-, s', hs', -, hkeeps⟩
  rw [hs', Option.map_some, Option.some.injEq] at hleft
  have hsub := hkeeps ⟨0, by decide⟩
  rw [hlist, hleft] at hsub
  exact absurd hsub (by decide)

end Server
end ChatServer
