import ChatServer.Server.Effect
import Mathlib.Data.List.Nodup

/-! # Room membership and user state

A user should be in a room's list exactly while its own state says so. A user that
connects again or disconnects while in a room stays in the list, a refused entry
leaves the user in state `InRoom`, and a leave removes every member with the
leaver's id. In a run without such steps the two sides agree.
-/

namespace ChatServer.Server
open Recorded

variable {n m : ℕ} {δ : Type*}

/-- The lists of the rooms agree with the states and room numbers of the users. -/
structure MembershipAgrees (s : Server n m δ) : Prop where
  mem_iff : ∀ u number, (∃ k, (s.room k).mRoomNum = number ∧ u ∈ (s.room k).mUserList) ↔
    (s.mUserObjPool u).mState = .inRoom ∧ (s.mUserObjPool u).mRoomIndex = number
  once : ∀ u k, u ∈ (s.room k).mUserList →
    (s.room k).mUserList.count u = 1 ∧ ∀ k', u ∈ (s.room k').mUserList → k' = k
  getRoom_ne_none : ∀ u, (s.mUserObjPool u).mState = .inRoom → s.getRoom u ≠ none

/-- The same with the room that `GetRoom` finds in place of room numbers. -/
structure Membership (s : Server n m δ) : Prop where
  mem_list : ∀ u k, u ∈ (s.room k).mUserList ↔
    (s.mUserObjPool u).mState = .inRoom ∧ s.getRoom u = some k
  nodup : ∀ k, (s.room k).mUserList.Nodup
  getRoom_ne_none : ∀ u, (s.mUserObjPool u).mState = .inRoom → s.getRoom u ≠ none

variable {env : Env δ} {s s' : Server n m δ} {out : List (Sent n)}

theorem mRoomNum_of_getRoom {u : Fin n} {k : Fin m} (h : s.getRoom u = some k) :
    (s.room k).mRoomNum = (s.mUserObjPool u).mRoomIndex := s.mRoomManager.numbered _ _ h

theorem membershipAgrees_iff : s.MembershipAgrees ↔ s.Membership := by
  constructor
  · intro h
    have room_eq : ∀ u k, (s.mUserObjPool u).mState = .inRoom →
        (s.room k).mRoomNum = (s.mUserObjPool u).mRoomIndex → s.getRoom u = some k := by
      intro u k hu hnum
      cases hk : s.getRoom u with
      | none => exact absurd hk (h.getRoom_ne_none u hu)
      | some j =>
        have hj : (s.room j).mRoomNum = (s.room k).mRoomNum := by
          rw [mRoomNum_of_getRoom hk, hnum]
        rw [s.mRoomManager.distinct hj]
    refine ⟨fun u k => ⟨fun hu => ?_, fun ⟨hu, hk⟩ => ?_⟩, fun k => ?_, h.getRoom_ne_none⟩
    · have hin := (h.mem_iff u _).mp ⟨k, rfl, hu⟩
      exact ⟨hin.1, room_eq u k hin.1 hin.2.symm⟩
    · have hex := (h.mem_iff u _).mpr ⟨hu, rfl⟩
      rcases hex with ⟨j, hnum, hj⟩
      have : some j = some k := by rw [← room_eq u j hu hnum, hk]
      rwa [← Option.some.inj this]
    · rw [List.nodup_iff_count_le_one]
      intro u
      by_cases hu : u ∈ (s.room k).mUserList
      · exact (h.once u k hu).1.le
      · rw [List.count_eq_zero_of_not_mem hu]
        exact Nat.zero_le _
  · intro h
    refine ⟨fun u number => ⟨?_, ?_⟩, fun u k hu => ⟨?_, fun k' hu' => ?_⟩, h.getRoom_ne_none⟩
    · rintro ⟨k, rfl, hu⟩
      have hin := (h.mem_list u k).mp hu
      exact ⟨hin.1, (mRoomNum_of_getRoom hin.2).symm⟩
    · rintro ⟨hu, rfl⟩
      cases hk : s.getRoom u with
      | none => exact absurd hk (h.getRoom_ne_none u hu)
      | some k => exact ⟨k, mRoomNum_of_getRoom hk, (h.mem_list u k).mpr ⟨hu, hk⟩⟩
    · exact List.count_eq_one_of_mem (h.nodup k) hu
    · have := ((h.mem_list u k').mp hu').2.symm.trans ((h.mem_list u k).mp hu).2
      exact Option.some.inj this

theorem Membership.not_mem (h : s.Membership) {u : Fin n}
    (hu : (s.mUserObjPool u).mState ≠ .inRoom) (k : Fin m) : u ∉ (s.room k).mUserList :=
  fun hmem => hu ((h.mem_list u k).mp hmem).1

/-- Membership depends on the rooms, the states and the room numbers only. -/
theorem Membership.congr (h : s.Membership) (hrooms : s'.mRoomManager = s.mRoomManager)
    (husers : ∀ u, (s'.mUserObjPool u).mState = (s.mUserObjPool u).mState ∧
      (s'.mUserObjPool u).mRoomIndex = (s.mUserObjPool u).mRoomIndex) : s'.Membership := by
  have hroom : s'.room = s.room := by
    funext k
    rw [room, room, hrooms]
  have hget : s'.getRoom = s.getRoom := by
    funext u
    simp only [getRoom, hrooms, (husers u).2]
  exact ⟨fun u k => by rw [hroom, hget, (husers u).1, h.mem_list],
    fun k => by rw [hroom]; exact h.nodup k,
    fun u hu => by rw [hget]; exact h.getRoom_ne_none u (by rwa [← (husers u).1])⟩

theorem Membership.recordLogin (h : s.Membership) (db : δ) (userID : Bytes) (i : Fin n) :
    (s.recordLogin db userID i).Membership := h.congr rfl fun _ => ⟨rfl, rfl⟩

theorem Membership.eraseUserID (h : s.Membership) (userID : Bytes) :
    (s.eraseUserID userID).Membership := h.congr rfl fun _ => ⟨rfl, rfl⟩

/-- When one user changes and no room does, the change has to match the lists. -/
theorem Membership.updateUser_iff (h : s.Membership) (i : Fin n) (f : User → User) :
    (s.updateUser i f).Membership ↔
      (∀ k, i ∈ (s.room k).mUserList ↔ (f (s.mUserObjPool i)).mState = .inRoom ∧
        s.mRoomManager.getRoomByNumber (f (s.mUserObjPool i)).mRoomIndex = some k) ∧
      ((f (s.mUserObjPool i)).mState = .inRoom →
        s.mRoomManager.getRoomByNumber (f (s.mUserObjPool i)).mRoomIndex ≠ none) := by
  constructor
  · intro h'
    have hmem := h'.mem_list i
    have hget := h'.getRoom_ne_none i
    simp only [getRoom, updateUser_self, updateUser_mRoomManager] at hmem hget
    exact ⟨hmem, hget⟩
  · rintro ⟨hmem, hget⟩
    refine ⟨fun u k => ?_, h.nodup, fun u hu => ?_⟩
    · by_cases hu : u = i
      · subst hu
        simpa [getRoom] using hmem k
      · simpa [getRoom, updateUser_other _ _ _ hu] using h.mem_list u k
    · by_cases hui : u = i
      · subst hui
        simpa [getRoom] using hget (by simpa using hu)
      · rw [updateUser_other _ _ _ hui] at hu
        simpa [getRoom, updateUser_other _ _ _ hui] using h.getRoom_ne_none u hu

/-- A user that was not in a room and is not in one now fits every list. -/
theorem Membership.updateUser_outside (h : s.Membership) {i : Fin n} {f : User → User}
    (hi : (s.mUserObjPool i).mState ≠ .inRoom) (hf : (f (s.mUserObjPool i)).mState ≠ .inRoom) :
    (s.updateUser i f).Membership :=
  (h.updateUser_iff i f).mpr
    ⟨fun k => iff_of_false (h.not_mem hi k) fun hin => hf hin.1, fun hin => absurd hin hf⟩

/-! ## The exact condition on one step -/

/-- The steps that keep lists and users in agreement. -/
def KeepsMembership (s : Server n m δ) : Event n → Prop
  | .connect i => (s.mUserObjPool i).mState ≠ .inRoom
  | .disconnect i =>
    (s.mUserObjPool i).mState ≠ .inRoom ∨ (s.mUserObjPool i).mRoomIndex = -1
  | .frame i packetId _ p =>
    (s.handler i packetId = .processEnterRoom →
      ∃ k, s.mRoomManager.getRoomByNumber (int32At p roomNumberOffset) = some k ∧
        (s.room k).getCurrentUserCount < (s.room k).getMaxUserCount) ∧
    (s.handler i packetId = .processLeaveRoom →
      ∀ k, s.getRoom i = some k → ∀ j ∈ (s.room k).mUserList,
        (s.mUserObjPool j).mUserID = (s.mUserObjPool i).mUserID → j = i)

instance (s : Server n m δ) : DecidablePred s.KeepsMembership
  | .connect i => inferInstanceAs (Decidable ((s.mUserObjPool i).mState ≠ .inRoom))
  | .disconnect _ => instDecidableOr
  | .frame .. => instDecidableAnd

theorem membership_connect (h : s.Membership) (i : Fin n) :
    (s.processUserConnect i).Membership ↔ (s.mUserObjPool i).mState ≠ .inRoom := by
  constructor
  · intro h' hin
    cases hk : s.getRoom i with
    | none => exact h.getRoom_ne_none i hin hk
    | some k =>
      have hmem : i ∈ (s.room k).mUserList := (h.mem_list i k).mpr ⟨hin, hk⟩
      have := ((h'.mem_list i k).mp hmem).1
      simp [processUserConnect] at this
  · intro hi
    exact h.updateUser_outside hi (by simp)

/-- `Clear` keeps `mState` and sets the room number to -1: the one room that a
disconnected member can be in is the room with that number. -/
theorem membership_deleteUserInfo (h : s.Membership) (i : Fin n) :
    (s.deleteUserInfo i).Membership ↔
      (s.mUserObjPool i).mState ≠ .inRoom ∨ (s.mUserObjPool i).mRoomIndex = -1 := by
  rw [deleteUserInfo, (h.eraseUserID _).updateUser_iff]
  simp only [eraseUserID, User.clear_mState, User.clear_mRoomIndex]
  constructor
  · rintro ⟨hmem, hget⟩
    by_cases hin : (s.mUserObjPool i).mState = .inRoom
    · right
      cases hk : s.mRoomManager.getRoomByNumber (-1) with
      | none => exact absurd hk (hget hin)
      | some k =>
        have hi := (h.mem_list i k).mp ((hmem k).mpr ⟨hin, hk⟩)
        exact s.mRoomManager.getRoomByNumber_inj hi.2 hk
    · exact .inl hin
  · intro hcond
    by_cases hin : (s.mUserObjPool i).mState = .inRoom
    · have hidx : (s.mUserObjPool i).mRoomIndex = -1 := by
        rcases hcond with hout | hidx
        · exact absurd hin hout
        · exact hidx
      rw [← hidx]
      exact ⟨h.mem_list i, h.getRoom_ne_none i⟩
    · exact ⟨fun k => iff_of_false (h.not_mem hin k) fun hin' => hin hin'.1,
        fun hin' => absurd hin' hin⟩

theorem membership_putInRoom (h : s.Membership) {i : Fin n} (number : Int32)
    (hi : (s.mUserObjPool i).mState ≠ .inRoom) : ¬(s.putInRoom i number).Membership := by
  intro h'
  rcases (h.updateUser_iff i _).mp h' with ⟨hmem, hget⟩
  simp only [ne_eq, reduceCtorEq, not_false_eq_true, User.changeState_mState, true_and,
    User.changeState_mRoomIndex, true_implies] at hmem hget
  cases hk : s.mRoomManager.getRoomByNumber number with
  | none => exact hget hk
  | some k => exact h.not_mem hi k ((hmem k).mpr hk)

theorem membership_entered (h : s.Membership) {i : Fin n} {number : Int32} {k : Fin m}
    (c : UInt16) (hi : (s.mUserObjPool i).mState ≠ .inRoom)
    (hk : s.mRoomManager.getRoomByNumber number = some k) :
    ((s.setRoom k ((s.room k).mUserList ++ [i]) c).putInRoom i number).Membership := by
  refine ⟨fun u j => ?_, fun j => ?_, fun u hu => ?_⟩
  · simp only [putInRoom, updateUser_room, setRoom_mUserList, getRoom, updateUser_mRoomManager,
      setRoom_getRoomByNumber]
    by_cases hui : u = i
    · subst hui
      simp only [updateUser_self, ne_eq, reduceCtorEq, not_false_eq_true, User.changeState_mState,
        User.changeState_mRoomIndex, hk, true_and, Option.some.injEq]
      by_cases hj : j = k
      · simp [hj]
      · simp only [hj, if_false, Ne.symm hj, iff_false]
        exact h.not_mem hi j
    · rw [updateUser_other _ _ _ hui, setRoom_mUserObjPool]
      by_cases hj : j = k
      · subst hj
        simpa [hui, getRoom] using h.mem_list u j
      · simpa [hj, getRoom] using h.mem_list u j
  · apply s.setRoom_nodup k _ c h.nodup
    exact (h.nodup k).append (List.nodup_singleton i) (by simpa using h.not_mem hi k)
  · simp only [putInRoom, getRoom, updateUser_mRoomManager, setRoom_getRoomByNumber]
    by_cases hui : u = i
    · subst hui
      simp [hk]
    · rw [putInRoom, updateUser_other _ _ _ hui] at hu
      rw [updateUser_other _ _ _ hui]
      exact h.getRoom_ne_none u hu

/-- A leave takes its own user out of its room, and must take nobody else. -/
theorem membership_left (h : s.Membership) {i : Fin n} {k : Fin m} (c : UInt16)
    (hi : (s.mUserObjPool i).mState = .inRoom) (hk : s.getRoom i = some k) :
    ((s.setRoom k (s.stayers i k) c).updateUser i (User.changeState .inLobby)).Membership ↔
      ∀ j ∈ (s.room k).mUserList,
        (s.mUserObjPool j).mUserID = (s.mUserObjPool i).mUserID → j = i := by
  constructor
  · intro h' j hj hid
    by_contra hne
    have hin := (h.mem_list j k).mp hj
    have hstay := (h'.mem_list j k).mpr (by
      simpa [getRoom, updateUser_other _ _ _ hne] using hin)
    simp [setRoom_mUserList, stayers, hid] at hstay
  · intro hcond
    refine ⟨fun u j => ?_, fun j => ?_, fun u hu => ?_⟩
    · simp only [updateUser_room, setRoom_mUserList, getRoom, updateUser_mRoomManager,
        setRoom_getRoomByNumber]
      by_cases hui : u = i
      · subst hui
        simp only [updateUser_self, ne_eq, reduceCtorEq, not_false_eq_true,
          User.changeState_mState, false_and, iff_false]
        split_ifs with hj
        · simp [stayers]
        · intro hmem
          have := ((h.mem_list u j).mp hmem).2
          exact hj (Option.some.inj (this.symm.trans hk))
      · rw [updateUser_other _ _ _ hui, setRoom_mUserObjPool]
        split_ifs with hj
        · subst hj
          rw [stayers, List.mem_filter]
          refine ⟨fun hmem => (h.mem_list u j).mp hmem.1, fun hin => ?_⟩
          have hmem := (h.mem_list u j).mpr hin
          refine ⟨hmem, ?_⟩
          simpa using fun hid => hui (hcond u hmem hid.symm)
        · exact h.mem_list u j
    · apply s.setRoom_nodup k _ c h.nodup
      exact (h.nodup k).filter _
    · simp only [getRoom, updateUser_mRoomManager, setRoom_getRoomByNumber]
      by_cases hui : u = i
      · subst hui
        simp at hu
      · rw [updateUser_other _ _ _ hui] at hu ⊢
        exact h.getRoom_ne_none u hu

/-- In agreement before a step, lists and users agree after it exactly if the step
is one of those that keep them. -/
theorem Membership.step_iff (h : s.Membership) (ht : s.TablesOk) {e : Event n}
    (he : Effect env s e s' out) : s'.Membership ↔ s.KeepsMembership e := by
  cases he with
  | connect i => exact membership_connect h i
  | disconnectUnused i hstate =>
    exact iff_of_true h (.inl (by simp [hstate]))
  | disconnect i hstate => exact membership_deleteUserInfo h i
  | ignored hf =>
    apply iff_of_true h
    rcases hf with hf | ⟨hf, -⟩ | ⟨hf, -⟩ <;> simp [KeepsMembership, hf]
  | accountCreated hf =>
    exact iff_of_true (h.congr rfl fun _ => ⟨rfl, rfl⟩) (by simp [KeepsMembership, hf])
  | loginRefused hf =>
    exact iff_of_true (h.congr rfl fun _ => ⟨rfl, rfl⟩) (by simp [KeepsMembership, hf])
  | loggedIn hf hsize hfree hdb =>
    refine iff_of_true ?_ (by simp [KeepsMembership, hf])
    have hstate := ht.mState_of_handler hf rfl
    exact (h.recordLogin _ _ _).updateUser_outside (by simp [hstate]) (by simp)
  | lobbyInfo hf => exact iff_of_true h (by simp [KeepsMembership, hf])
  | enterRefused hf hresult =>
    have hstate := ht.mState_of_handler hf rfl
    apply iff_of_false (membership_putInRoom h _ (by simp [hstate]))
    intro hkeep
    rcases hkeep.1 hf with ⟨k, hk, hspace⟩
    rcases hresult with ⟨-, hnone⟩ | ⟨-, k', hk', hfull⟩
    · simp [hnone] at hk
    · obtain rfl : k' = k := Option.some.inj (hk'.symm.trans hk)
      exact absurd hspace (by simpa using hfull)
  | entered hf hk hspace =>
    have hstate := ht.mState_of_handler hf rfl
    apply iff_of_true (membership_entered h _ (by simp [hstate]) hk)
    simp only [KeepsMembership, hf, reduceCtorEq, false_implies, and_true, true_implies]
    exact ⟨_, hk, hspace⟩
  | roomInfo hf => exact iff_of_true h (by simp [KeepsMembership, hf])
  | leaveRefused hf hk =>
    exact absurd hk (h.getRoom_ne_none _ (ht.mState_of_handler hf rfl))
  | left hf hk =>
    rw [membership_left h _ (ht.mState_of_handler hf rfl) hk]
    simp [KeepsMembership, hf, hk]
  | chatRefused hf => exact iff_of_true h (by simp [KeepsMembership, hf])
  | chat hf => exact iff_of_true h (by simp [KeepsMembership, hf])

/-- No event of an agreeing state dereferences a null room. -/
theorem Membership.no_crash (h : s.Membership) (ht : s.TablesOk) (e : Event n) :
    s.processEvent env e ≠ none := by
  intro hnone
  rcases processEvent_eq_none.mp hnone with ⟨i, packetId, packetSize, p, -, hf, hk⟩
  exact h.getRoom_ne_none i (ht.mState_of_handler hf rfl) hk

/-- Lists and users agree, and no event dereferences a null room. -/
def RoomsConsistent (env : Env δ) (s : Server n m δ) : Prop :=
  s.MembershipAgrees ∧ ∀ e, s.processEvent env e ≠ none

theorem roomsConsistent_iff (ht : s.TablesOk) : s.RoomsConsistent env ↔ s.Membership := by
  rw [RoomsConsistent, membershipAgrees_iff]
  exact ⟨fun h => h.1, fun h => ⟨h, h.no_crash ht⟩⟩

theorem init_membership (n : ℕ) (beginRoomNumber maxRoomCount maxRoomUserCount : Int32)
    (mem : Fin n → ℕ → UInt8) (db : δ) :
    (init n beginRoomNumber maxRoomCount maxRoomUserCount mem db).Membership where
  mem_list _ _ := iff_of_false List.not_mem_nil (fun h => nomatch h.1)
  nodup _ := List.nodup_nil
  getRoom_ne_none _ h := nomatch h

/-- Over every run, all states are consistent exactly when no user connects or
disconnects while in a room, no entry is refused and no leave finds a second
member with its user's id. -/
theorem rooms_consistent_iff (env : Env δ) (n : ℕ)
    (beginRoomNumber maxRoomCount maxRoomUserCount : Int32) (mem : Fin n → ℕ → UInt8) (db : δ)
    {past : History n maxRoomCount.toNatClampNeg δ}
    {s : Server n maxRoomCount.toNatClampNeg δ}
    (run : Run (step env) (init n beginRoomNumber maxRoomCount maxRoomUserCount mem db) past s) :
    ((init n beginRoomNumber maxRoomCount maxRoomUserCount mem db).RoomsConsistent env ∧
        ∀ e ∈ past, e.post.RoomsConsistent env) ↔
      ∀ e ∈ past, e.pre.KeepsMembership e.act := by
  have hinit := init_membership n beginRoomNumber maxRoomCount maxRoomUserCount mem db
  have htables := init_tablesOk n beginRoomNumber maxRoomCount maxRoomUserCount mem db
  rw [and_iff_right ((roomsConsistent_iff htables).mpr hinit), ← atEach_const, ← atEach_const]
  refine run.exact_iff (A := fun _ _ => True) (I := fun _ s => s.Membership ∧ s.TablesOk)
    ⟨hinit, htables⟩ ?_ ?_ (fun _ _ _ => trivial)
  · intro past s a s' ⟨h, ht⟩ hstep _ hkeep
    exact ⟨(h.step_iff ht (effect_of_step hstep)).mpr hkeep, ht.step hstep⟩
  · intro past s a s' ⟨h, ht⟩ hstep _
    rw [roomsConsistent_iff (ht.step hstep)]
    exact h.step_iff ht (effect_of_step hstep)

/-- A user that enters a room and leaves it again. -/
theorem rooms_consistent_after_visit : ∃ past s,
    Run (step acceptingEnv) (init 1 0 10 4 (fun _ _ => 0) ()) past s ∧ past.length = 4 ∧
      ∀ e ∈ past, e.post.RoomsConsistent acceptingEnv := by
  obtain ⟨past, s, run, h⟩ := exists_run (step acceptingEnv)
    (init 1 0 10 4 (fun _ _ => 0) ())
    [.connect 0, .request 0 .reqLogin (reqLoginBody [65] [66]),
      .request 0 .reqRoomEnter (le32 0), .request 0 .reqRoomLeave []]
    (fun past _ => past.length = 4 ∧ ∀ e ∈ past, e.pre.KeepsMembership e.act)
    (by decide +kernel)
  rcases of_decide_eq_true h with ⟨hlength, hkeep⟩
  exact ⟨past, s, run, hlength,
    ((rooms_consistent_iff acceptingEnv 1 0 10 4 _ () run).mpr hkeep).2⟩

/-- A user that disconnects while in room 0 stays in its list, in state `InRoom`, with
the room number -1. -/
theorem disconnected_member_stays : ∃ past s,
    Run (step acceptingEnv) (init 1 0 10 4 (fun _ _ => 0) ()) past s ∧ ¬s.MembershipAgrees := by
  obtain ⟨past, s, run, h⟩ := exists_run (step acceptingEnv)
    (init 1 0 10 4 (fun _ _ => 0) ())
    [.connect 0, .request 0 .reqLogin (reqLoginBody [65] [66]),
      .request 0 .reqRoomEnter (le32 0), .disconnect 0]
    (fun _ s => (s.room ⟨0, by decide⟩).mUserList = [0] ∧
      (s.room ⟨0, by decide⟩).mRoomNum = 0 ∧ (s.mUserObjPool 0).mRoomIndex = -1)
    (by decide +kernel)
  rcases of_decide_eq_true h with ⟨hlist, hnum, hidx⟩
  refine ⟨past, s, run, fun hagrees => ?_⟩
  have hmem : (0 : Fin 1) ∈ (s.room ⟨0, by decide⟩).mUserList :=
    hlist ▸ List.mem_singleton.mpr rfl
  have := ((hagrees.mem_iff 0 0).mp ⟨_, hnum, hmem⟩).2
  exact absurd (hidx.symm.trans this) (by decide)

end ChatServer.Server
