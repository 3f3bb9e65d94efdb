import ChatServer.Room.RoomManager

/-! # The state of the packet-processing thread

`User`, `UserManager`, `Room` and `RoomManager` point at each other; here they are
one record, and an operation of one object that writes another returns the record.
-/

namespace ChatServer

/-- `AccountDB` over an arbitrary store: both calls may write it. -/
structure AccountDB (δ : Type*) where
  createAccount : δ → Bytes → Bytes → Bool × δ
  selectAccount : δ → Bytes → Bytes → Bool × δ

/-- What the handlers use from outside: the account database, the value of bytes
that are sent without having been assigned, and the memory after the terminator
of the string that `c_str()` returns. -/
structure Env (δ : Type*) extends AccountDB δ where
  unset : UInt8
  cStrTail : Bytes → Bytes

/-- The memory behind `id.c_str()` -/
def Env.cStr {δ : Type*} (env : Env δ) (id : Bytes) : Bytes := id ++ 0 :: env.cStrTail id

structure Server (n m : ℕ) (δ : Type*) where
  mUserObjPool : Fin n → User
  mUserIDDictionary : Bytes → Option (Fin n)
  mCurrentUserCnt : ℤ
  mMaxUserCnt : ℤ
  mRoomManager : RoomManager n m
  mAccountDB : δ

namespace Server

variable {n m : ℕ} {δ : Type*}

/-- The state that `ChatServer::Init` builds, with whatever the packet buffers hold. -/
def init (n : ℕ) (beginRoomNumber maxRoomCount maxRoomUserCount : Int32)
    (mem : Fin n → ℕ → UInt8) (mAccountDB : δ) : Server n maxRoomCount.toNatClampNeg δ where
  mUserObjPool i := User.init (mem i)
  mUserIDDictionary _ := none
  mCurrentUserCnt := 0
  mMaxUserCnt := n
  mRoomManager := RoomManager.init n beginRoomNumber maxRoomCount maxRoomUserCount
  mAccountDB := mAccountDB

abbrev room (s : Server n m δ) (k : Fin m) : Room n := s.mRoomManager.mRoomList k

/-- Write the user of one slot. -/
def updateUser (s : Server n m δ) (i : Fin n) (f : User → User) : Server n m δ :=
  { s with mUserObjPool := Function.update s.mUserObjPool i (f (s.mUserObjPool i)) }

section updateUser

variable (s : Server n m δ) (i : Fin n) (f : User → User)

@[simp] theorem updateUser_self : (s.updateUser i f).mUserObjPool i = f (s.mUserObjPool i) := by
  simp [updateUser]

theorem updateUser_other {j : Fin n} (h : j ≠ i) :
    (s.updateUser i f).mUserObjPool j = s.mUserObjPool j := by simp [updateUser, h]

theorem updateUser_apply (j : Fin n) : (s.updateUser i f).mUserObjPool j =
    if j = i then f (s.mUserObjPool i) else s.mUserObjPool j := by
  simp [updateUser, Function.update_apply]

variable {s i f} in
/-- A user update that keeps the id keeps all ids. -/
theorem updateUser_mUserID (hf : (f (s.mUserObjPool i)).mUserID = (s.mUserObjPool i).mUserID)
    (j : Fin n) : ((s.updateUser i f).mUserObjPool j).mUserID = (s.mUserObjPool j).mUserID := by
  rw [updateUser_apply]
  split_ifs with hj
  · rw [hf, hj]
  · rfl

@[simp] theorem updateUser_mUserIDDictionary :
    (s.updateUser i f).mUserIDDictionary = s.mUserIDDictionary := rfl

@[simp] theorem updateUser_mRoomManager :
    (s.updateUser i f).mRoomManager = s.mRoomManager := rfl

@[simp] theorem updateUser_room (k : Fin m) : (s.updateUser i f).room k = s.room k := rfl

@[simp] theorem updateUser_mCurrentUserCnt :
    (s.updateUser i f).mCurrentUserCnt = s.mCurrentUserCnt := rfl

@[simp] theorem updateUser_mMaxUserCnt :
    (s.updateUser i f).mMaxUserCnt = s.mMaxUserCnt := rfl

@[simp] theorem updateUser_mAccountDB :
    (s.updateUser i f).mAccountDB = s.mAccountDB := rfl

end updateUser

/-! ## `UserManager` -/

/-- `UserManager::FindUserIndexByID`; `none` is the result -1. -/
def findUserIndexByID (s : Server n m δ) (userID : Bytes) : Option (Fin n) :=
  s.mUserIDDictionary userID

/-- `UserManager::AddUser`; `insert` keeps an entry that exists. -/
def addUser (s : Server n m δ) (userID : Bytes) (clientIndex : Fin n) : Server n m δ :=
  let s := s.updateUser clientIndex (User.setLogin userID)
  { s with
    mUserIDDictionary := Function.update s.mUserIDDictionary userID
      (s.mUserIDDictionary userID <|> some clientIndex) }

/-- `mUserIDDictionary.erase` -/
def eraseUserID (s : Server n m δ) (userID : Bytes) : Server n m δ :=
  { s with mUserIDDictionary := Function.update s.mUserIDDictionary userID none }

@[simp] theorem eraseUserID_mUserObjPool (s : Server n m δ) (userID : Bytes) :
    (s.eraseUserID userID).mUserObjPool = s.mUserObjPool := rfl

@[simp] theorem eraseUserID_mUserIDDictionary (s : Server n m δ) (userID : Bytes) :
    (s.eraseUserID userID).mUserIDDictionary =
      Function.update s.mUserIDDictionary userID none := rfl

/-- `UserManager::DeleteUserInfo` -/
def deleteUserInfo (s : Server n m δ) (user : Fin n) : Server n m δ :=
  (s.eraseUserID (s.mUserObjPool user).mUserID).updateUser user User.clear

/-- `UserManager::CheckLoginable` -/
def checkLoginable (db : AccountDB δ) (s : Server n m δ) (clientIndex : Fin n)
    (userID password : Bytes) : ResultCode × Server n m δ :=
  if s.mCurrentUserCnt ≥ s.mMaxUserCnt then (.loginUserUsedAllObj, s)
  else
    match s.findUserIndexByID userID with
    | some _ => (.loginUserAlready, s)
    | none =>
      let (selected, mAccountDB) := db.selectAccount s.mAccountDB userID password
      let s := { s with mAccountDB := mAccountDB }
      if selected then (.loginSuccess, s.addUser userID clientIndex)
      else (.loginUserInvalidPw, s)

/-- `UserManager::CreateAccount` -/
def createAccount (db : AccountDB δ) (s : Server n m δ) (userID password : Bytes) :
    Bool × Server n m δ :=
  let (created, mAccountDB) := db.createAccount s.mAccountDB userID password
  (created, { s with mAccountDB := mAccountDB })

/-! ## `User` and its rooms -/

/-- `User::EnterRoom`: the room number and the state are stored whatever
`RoomManager::EnterUser` returns. -/
def enterRoom (s : Server n m δ) (i : Fin n) (roomIndex : Int32) :
    ResultCode × Server n m δ × List (Sent n) :=
  let (result, rooms, sent) := s.mRoomManager.enterUser s.mUserObjPool roomIndex i
  let s := updateUser { s with mRoomManager := rooms } i fun u =>
    User.changeState .inRoom { u with mRoomIndex := roomIndex }
  (result, s, sent)

/-- `User::LeaveRoom`; `mRoomIndex` keeps its value. -/
def leaveRoom (s : Server n m δ) (i : Fin n) : ResultCode × Server n m δ × List (Sent n) :=
  let (result, rooms, sent) :=
    s.mRoomManager.leaveUser s.mUserObjPool (s.mUserObjPool i).mRoomIndex i
  let s := updateUser { s with mRoomManager := rooms } i (User.changeState .inLobby)
  (result, s, sent)

/-- `User::GetRoom`; `none` is the null pointer. -/
def getRoom (s : Server n m δ) (i : Fin n) : Option (Fin m) :=
  s.mRoomManager.getRoomByNumber (s.mUserObjPool i).mRoomIndex

/-- `PacketManager::ClearConnectionInfo` -/
def clearConnectionInfo (s : Server n m δ) (i : Fin n) : Server n m δ :=
  if (s.mUserObjPool i).mState ≠ .none then s.deleteUserInfo i else s

end Server
end ChatServer
