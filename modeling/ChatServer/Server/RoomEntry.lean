import ChatServer.Server.Effect

/-! # A room entry as one transaction

`RoomManager::EnterUser` refuses an entry without writing a room. Its caller
`User::EnterRoom` stores the room number and moves the user into state `InRoom`
whatever the result is.
-/

namespace ChatServer.Server
open Recorded

variable {n m : ℕ} {δ : Type*}

/-- What a refused entry may leave behind: nothing, so the user is still outside. -/
structure EntryRefused (s s' : Server n m δ) (i : Fin n) (sent : List (Sent n)) : Prop where
  state : (s'.mUserObjPool i).mState = (s.mUserObjPool i).mState
  roomIndex : (s'.mUserObjPool i).mRoomIndex = (s.mUserObjPool i).mRoomIndex
  table : (s'.mUserObjPool i).recvFuntionDictionary = (s.mUserObjPool i).recvFuntionDictionary
  outside : (s'.mUserObjPool i).recvFuntionDictionary .reqRoomInfo = .noop ∧
    (s'.mUserObjPool i).recvFuntionDictionary .reqRoomChat = .noop
  rooms : ∀ k, s'.room k = s.room k
  others : ∀ j, j ≠ i → s'.mUserObjPool j = s.mUserObjPool j
  silent : sent = []

/-- What an entry that is reported as successful does. -/
structure EntryTaken (s s' : Server n m δ) (i : Fin n) (number : Int32) : Prop where
  state : (s'.mUserObjPool i).mState = .inRoom
  roomIndex : (s'.mUserObjPool i).mRoomIndex = number
  rooms : ∃ k, (s.room k).mRoomNum = number ∧ ∀ j, (s'.room j).mUserList =
    if j = k then (s.room j).mUserList ++ [i] else (s.room j).mUserList

/-- `EnterRoom` does all of an entry or nothing, as its result says. -/
def EntryAtomic (s : Server n m δ) (i : Fin n) (number : Int32) : Prop :=
  ((s.enterRoom i number).1 ≠ .enterRoomSuccess →
    s.EntryRefused (s.enterRoom i number).2.1 i (s.enterRoom i number).2.2) ∧
  ((s.enterRoom i number).1 = .enterRoomSuccess →
    s.EntryTaken (s.enterRoom i number).2.1 i number)

/-- The number is that of a room with space left. -/
def HasSpace (s : Server n m δ) (number : Int32) : Prop :=
  ∃ k, s.mRoomManager.getRoomByNumber number = some k ∧
    (s.room k).getCurrentUserCount < (s.room k).getMaxUserCount

instance (s : Server n m δ) (number : Int32) : Decidable (s.HasSpace number) := by
  unfold HasSpace
  infer_instance

variable {s : Server n m δ} {i : Fin n} {number : Int32}

theorem enterRoom_of_hasSpace {k : Fin m} (hk : s.mRoomManager.getRoomByNumber number = some k)
    (hspace : (s.room k).getCurrentUserCount < (s.room k).getMaxUserCount) :
    s.enterRoom i number = (.enterRoomSuccess,
      (s.setRoom k ((s.room k).mUserList ++ [i]) ((s.room k).mCurrentUserCount + 1)).putInRoom i
        number,
      s.broadcast k notifyUserSize (notifyRoomInfoPacket (s.mUserObjPool i).mUserID)) := by
  simp only [enterRoom]
  rw [s.mRoomManager.enterUser_eq s.mUserObjPool i hk, if_neg (Int.not_le.mpr hspace)]
  rfl

/-- A refusal is decided before any room is written, and then the user is written. -/
theorem enterRoom_of_not_hasSpace (h : ¬s.HasSpace number) :
    ∃ result, result ≠ .enterRoomSuccess ∧
      s.enterRoom i number = (result, s.putInRoom i number, []) := by
  simp only [enterRoom]
  cases hk : s.mRoomManager.getRoomByNumber number with
  | none =>
    simp only [RoomManager.enterUser, hk]
    exact ⟨.roomInvalidIndex, by decide, rfl⟩
  | some k =>
    rw [s.mRoomManager.enterUser_eq s.mUserObjPool i hk]
    have hfull : ¬(s.room k).getCurrentUserCount < (s.room k).getMaxUserCount :=
      fun hspace => h ⟨k, hk, hspace⟩
    rw [if_pos (Int.not_lt.mp hfull)]
    exact ⟨.roomFull, by decide, rfl⟩

theorem entryTaken_of_hasSpace {k : Fin m}
    (hk : s.mRoomManager.getRoomByNumber number = some k) (c : UInt16) :
    s.EntryTaken ((s.setRoom k ((s.room k).mUserList ++ [i]) c).putInRoom i number) i number where
  state := by simp [putInRoom]
  roomIndex := by simp [putInRoom]
  rooms := by
    refine ⟨k, s.mRoomManager.numbered _ _ hk, fun j => ?_⟩
    rw [putInRoom, updateUser_room, setRoom_mUserList]
    split_ifs with hj
    · rw [hj]
    · rfl

/-- A user in the lobby that is refused does not stay there. -/
theorem putInRoom_not_entryRefused (hstate : (s.mUserObjPool i).mState = .inLobby)
    (sent : List (Sent n)) : ¬s.EntryRefused (s.putInRoom i number) i sent := by
  intro h
  have hin : ((s.putInRoom i number).mUserObjPool i).mState = .inRoom := by simp [putInRoom]
  exact absurd (hin.symm.trans (h.state.trans hstate)) (by decide)

/-- In every state, `EnterRoom` of a user in the lobby is a transaction exactly for
the numbers of rooms with space left. -/
theorem room_entry_atomic_iff {s : Server n m δ} {i : Fin n}
    (hstate : (s.mUserObjPool i).mState = .inLobby) (number : Int32) :
    s.EntryAtomic i number ↔ s.HasSpace number := by
  by_cases hspace : s.HasSpace number
  · apply iff_of_true _ hspace
    rcases hspace with ⟨k, hk, hlt⟩
    rw [EntryAtomic, enterRoom_of_hasSpace hk hlt]
    exact ⟨fun hresult => absurd rfl hresult, fun _ => entryTaken_of_hasSpace hk _⟩
  · apply iff_of_false _ hspace
    rcases enterRoom_of_not_hasSpace (i := i) hspace with ⟨result, hresult, heq⟩
    rw [EntryAtomic, heq]
    exact fun h => putInRoom_not_entryRefused hstate _ (h.1 hresult)

/-- A user that has logged in enters room 3. -/
theorem room_entry_atomic_for_first_member : ∃ past s,
    Run (step acceptingEnv) (init 1 0 10 4 (fun _ _ => 0) ()) past s ∧
      (s.mUserObjPool 0).mState = .inLobby ∧ s.EntryAtomic 0 3 := by
  obtain ⟨past, s, run, h⟩ := exists_run (step acceptingEnv) (init 1 0 10 4 (fun _ _ => 0) ())
    [.connect 0, .request 0 .reqLogin (reqLoginBody [65] [66])]
    (fun _ s => (s.mUserObjPool 0).mState = .inLobby ∧ s.HasSpace 3) (by decide +kernel)
  rcases of_decide_eq_true h with ⟨hstate, hspace⟩
  exact ⟨past, s, run, hstate, (room_entry_atomic_iff hstate 3).mpr hspace⟩

/-- Rooms 0 to 9 exist. The entry into room 10 is refused and ends in state `InRoom`. -/
theorem refused_entry_moves_user : ∃ past s,
    Run (step acceptingEnv) (init 1 0 10 4 (fun _ _ => 0) ()) past s ∧
      (s.mUserObjPool 0).mState = .inLobby ∧ (s.enterRoom 0 10).1 = .roomInvalidIndex ∧
      ((s.enterRoom 0 10).2.1.mUserObjPool 0).mState = .inRoom ∧ ¬s.EntryAtomic 0 10 := by
  obtain ⟨past, s, run, h⟩ := exists_run (step acceptingEnv) (init 1 0 10 4 (fun _ _ => 0) ())
    [.connect 0, .request 0 .reqLogin (reqLoginBody [65] [66])]
    (fun _ s => (s.mUserObjPool 0).mState = .inLobby ∧
      (s.enterRoom 0 10).1 = .roomInvalidIndex ∧
      ((s.enterRoom 0 10).2.1.mUserObjPool 0).mState = .inRoom) (by decide +kernel)
  rcases of_decide_eq_true h with ⟨hstate, hresult, hin⟩
  refine ⟨past, s, run, hstate, hresult, hin, fun hatomic => ?_⟩
  have hrefused := hatomic.1 (by rw [hresult]; decide)
  exact absurd (hin.symm.trans (hrefused.state.trans hstate)) (by decide)

end ChatServer.Server
