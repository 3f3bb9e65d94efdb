import ChatServer.Room.Room

/-! # The room manager

`mRoomList` is filled once by `Init`, so a room pointer is an index below the
number of rooms. The manager carries the facts about numbering that `Init`
establishes and that no operation changes.
-/

namespace ChatServer

/-- The index computed by `GetRoomByNumber`, or `none` for a null pointer. An index
outside the vector has no defined behaviour; `Init` excludes it. -/
def roomIndex (m : ℕ) (mBeginRoomNumber mEndRoomNumber number : Int32) : Option (Fin m) :=
  if number < mBeginRoomNumber ∨ number ≥ mEndRoomNumber then none
  else
    let index := (number - mBeginRoomNumber).toNatClampNeg
    if h : index < m then some ⟨index, h⟩ else none

structure RoomManager (n m : ℕ) where
  mRoomList : Fin m → Room n
  mBeginRoomNumber : Int32
  mEndRoomNumber : Int32
  numbered : ∀ number k, roomIndex m mBeginRoomNumber mEndRoomNumber number = some k →
    (mRoomList k).mRoomNum = number
  distinct : Function.Injective fun k => (mRoomList k).mRoomNum

/-- In range, the room at the computed index was given that number. -/
theorem roomIndex_number {begin maxRoomCount number : Int32} {k : Fin maxRoomCount.toNatClampNeg}
    (h : roomIndex maxRoomCount.toNatClampNeg begin (begin + maxRoomCount) number = some k) :
    Int32.ofNat k + begin = number := by
  simp only [roomIndex, Option.ite_none_left_eq_some, Option.dite_none_right_eq_some,
    Option.some.injEq] at h
  rcases h with ⟨hrange, hlt, rfl⟩
  simp only [not_or, Int32.not_lt, ge_iff_le, Int32.not_le] at hrange
  have hnonneg : 0 ≤ number - begin := by
    have h₁ := Int32.le_iff_toInt_le.mp hrange.1
    have h₂ := Int32.lt_iff_toInt_lt.mp hrange.2
    have := number.toInt_lt
    have := begin.le_toInt
    have := maxRoomCount.toInt_lt
    have := maxRoomCount.le_toInt
    have := begin.toInt_lt
    have hpos : 0 < maxRoomCount.toInt := by
      have : maxRoomCount.toNatClampNeg = maxRoomCount.toInt.toNat := rfl
      omega
    have hend : (begin + maxRoomCount).toInt = begin.toInt + maxRoomCount.toInt ∨
        (begin + maxRoomCount).toInt < begin.toInt := by
      rw [Int32.toInt_add, Int.bmod_def]
      split_ifs <;> omega
    rw [Int32.le_iff_toInt_le, Int32.toInt_sub, Int32.toInt_zero, Int.bmod_def]
    split_ifs <;> omega
  rw [Int32.ofNat_toNatClampNeg _ hnonneg, Int32.sub_add_cancel]

namespace RoomManager

variable {n m : ℕ}

/-- `RoomManager::Init` -/
def init (n : ℕ) (beginRoomNumber maxRoomCount maxRoomUserCount : Int32) :
    RoomManager n maxRoomCount.toNatClampNeg where
  mRoomList i := Room.init (Int32.ofNat i + beginRoomNumber) maxRoomUserCount
  mBeginRoomNumber := beginRoomNumber
  mEndRoomNumber := beginRoomNumber + maxRoomCount
  numbered _ _ h := roomIndex_number h
  distinct := by
    intro i j h
    have hi := i.isLt
    have hj := j.isLt
    have := maxRoomCount.toNatClampNeg_lt
    have h' : Int32.ofNat i = Int32.ofNat j := (Int32.add_left_inj _).mp h
    have := congrArg Int32.toInt h'
    rw [Int32.toInt_ofNat_of_lt (by omega), Int32.toInt_ofNat_of_lt (by omega)] at this
    exact Fin.ext (by exact_mod_cast this)

/-- `RoomManager::GetRoomByNumber` -/
def getRoomByNumber (rm : RoomManager n m) (number : Int32) : Option (Fin m) :=
  roomIndex m rm.mBeginRoomNumber rm.mEndRoomNumber number

/-- `RoomManager::GetRoomList` -/
def getRoomList (rm : RoomManager n m) : List Int32 :=
  List.ofFn fun k => (rm.mRoomList k).mRoomNum

/-- Store the new list and count of one room; its number stays. -/
def setRoom (rm : RoomManager n m) (k : Fin m) (mUserList : List (Fin n))
    (mCurrentUserCount : UInt16) : RoomManager n m where
  mRoomList := Function.update rm.mRoomList k
    { rm.mRoomList k with mUserList := mUserList, mCurrentUserCount := mCurrentUserCount }
  mBeginRoomNumber := rm.mBeginRoomNumber
  mEndRoomNumber := rm.mEndRoomNumber
  numbered number j h := by
    rw [Function.update_apply]
    split_ifs with hj
    · subst hj
      exact rm.numbered number j h
    · exact rm.numbered number j h
  distinct := by
    have hnum : (fun j => (Function.update rm.mRoomList k { rm.mRoomList k with
        mUserList := mUserList, mCurrentUserCount := mCurrentUserCount } j).mRoomNum) =
          fun j => (rm.mRoomList j).mRoomNum := by
      funext j
      rw [Function.update_apply]
      split_ifs with hj
      · rw [hj]
      · rfl
    rw [hnum]
    exact rm.distinct

/-- `RoomManager::EnterUser` -/
def enterUser (rm : RoomManager n m) (users : Fin n → User) (roomNumber : Int32) (user : Fin n) :
    ResultCode × RoomManager n m × List (Sent n) :=
  match rm.getRoomByNumber roomNumber with
  | none => (.roomInvalidIndex, rm, [])
  | some k =>
    let room := rm.mRoomList k
    if room.getCurrentUserCount ≥ room.getMaxUserCount then (.roomFull, rm, [])
    else
      let (result, room, sent) := room.enterUser users user
      (result, rm.setRoom k room.mUserList room.mCurrentUserCount, sent)

/-- `RoomManager::LeaveUser` -/
def leaveUser (rm : RoomManager n m) (users : Fin n → User) (roomNumber : Int32) (user : Fin n) :
    ResultCode × RoomManager n m × List (Sent n) :=
  match rm.getRoomByNumber roomNumber with
  | none => (.roomInvalidIndex, rm, [])
  | some k =>
    let (result, room, sent) := (rm.mRoomList k).leaveUser users user
    (result, rm.setRoom k room.mUserList room.mCurrentUserCount, sent)

variable (rm : RoomManager n m) (k : Fin m) (l : List (Fin n)) (c : UInt16)

@[simp] theorem getRoomByNumber_setRoom (number : Int32) :
    (rm.setRoom k l c).getRoomByNumber number = rm.getRoomByNumber number := rfl

theorem setRoom_self : (rm.setRoom k l c).mRoomList k =
    { rm.mRoomList k with mUserList := l, mCurrentUserCount := c } := by simp [setRoom]

theorem setRoom_other {j : Fin m} (h : j ≠ k) :
    (rm.setRoom k l c).mRoomList j = rm.mRoomList j := by simp [setRoom, h]

@[simp] theorem mRoomNum_setRoom (j : Fin m) :
    ((rm.setRoom k l c).mRoomList j).mRoomNum = (rm.mRoomList j).mRoomNum := by
  by_cases h : j = k
  · subst h
    rw [setRoom_self]
  · rw [setRoom_other rm k l c h]

@[simp] theorem mMaxUserCount_setRoom (j : Fin m) :
    ((rm.setRoom k l c).mRoomList j).mMaxUserCount = (rm.mRoomList j).mMaxUserCount := by
  by_cases h : j = k
  · subst h
    rw [setRoom_self]
  · rw [setRoom_other rm k l c h]

theorem mUserList_setRoom (j : Fin m) : ((rm.setRoom k l c).mRoomList j).mUserList =
    if j = k then l else (rm.mRoomList j).mUserList := by
  split_ifs with h
  · subst h
    rw [setRoom_self]
  · rw [setRoom_other rm k l c h]

theorem mCurrentUserCount_setRoom (j : Fin m) :
    ((rm.setRoom k l c).mRoomList j).mCurrentUserCount =
      if j = k then c else (rm.mRoomList j).mCurrentUserCount := by
  split_ifs with h
  · subst h
    rw [setRoom_self]
  · rw [setRoom_other rm k l c h]

/-- Two numbers that lead to one room are equal. -/
theorem getRoomByNumber_inj {number number' : Int32} {k : Fin m}
    (h : rm.getRoomByNumber number = some k) (h' : rm.getRoomByNumber number' = some k) :
    number = number' := (rm.numbered _ _ h).symm.trans (rm.numbered _ _ h')

/-- A room below its maximum takes the user; the second test, in `Room::EnterUser`,
repeats the first. -/
theorem enterUser_eq (users : Fin n → User) {number : Int32} {k : Fin m} (user : Fin n)
    (h : rm.getRoomByNumber number = some k) :
    rm.enterUser users number user =
      if (rm.mRoomList k).getCurrentUserCount ≥ (rm.mRoomList k).getMaxUserCount then
        (.roomFull, rm, [])
      else (.enterRoomSuccess,
        rm.setRoom k ((rm.mRoomList k).mUserList ++ [user])
          ((rm.mRoomList k).mCurrentUserCount + 1),
        (rm.mRoomList k).mUserList.map fun pUser => sendPacketFunc pUser
          (packetHeaderLength + (maxUserIdLen + 1)) (notifyRoomInfoPacket (users user).mUserID)) := by
  simp only [enterUser, h, Room.enterUser, Room.sendToAllUser_false]
  split_ifs with hfull
  · rfl
  · rfl

theorem leaveUser_eq (users : Fin n → User) {number : Int32} {k : Fin m} (user : Fin n)
    (h : rm.getRoomByNumber number = some k) :
    rm.leaveUser users number user = (.leaveRoomSuccess,
      rm.setRoom k ((rm.mRoomList k).mUserList.filter
          fun pUser => (users user).mUserID ≠ (users pUser).mUserID)
        (rm.mRoomList k).mCurrentUserCount,
      (rm.mRoomList k).mUserList.map fun pUser => sendPacketFunc pUser
        (packetHeaderLength + (maxUserIdLen + 1))
        (notifyRoomLeavePacket (users user).mUserID)) := by
  simp only [leaveUser, h, Room.leaveUser, Room.sendToAllUser_false]

end RoomManager
end ChatServer
