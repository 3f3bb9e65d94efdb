import ChatServer.User.ReceiveBuffer
import Mathlib.Logic.Function.Basic

/-! # Users, their states and their handler tables

`recvFuntionDictionary` decides which requests of a user have an effect. It is
rewritten by the `Enter` of the state objects, by `ResetRecvFunction` and by
`Clear`. `ChangeState(None)` returns without assigning `mState`, so a cleared
user keeps the state it had.
-/

namespace ChatServer

/-- `UserState` -/
inductive UserState where
  | none | connected | disconnect | inLobby | roomEnter | inRoom | roomExit
  deriving DecidableEq, Repr

/-- The functions stored in `recvFuntionDictionary`: the empty lambda of
`ResetRecvFunction` and the handlers of the state objects. -/
inductive RecvFunction where
  | noop
  | processCreateAccount | processLogin
  | processLobbyInfo | processEnterRoom
  | processRoomInfo | processLeaveRoom | processRoomChatMessage
  deriving DecidableEq, Repr

abbrev RecvTable := PacketId → RecvFunction

/-- The table that `User::ResetRecvFunction` writes. -/
def RecvTable.reset : RecvTable := fun _ => .noop

/-- The table after `ResetRecvFunction` and the assignments in the `Enter` of
`UserStateConnected`, `UserStateInLobby` or `UserStateInRoom`. -/
def UserState.handlers : UserState → RecvTable
  | connected => Function.update (Function.update RecvTable.reset
      .reqCreateAccount .processCreateAccount) .reqLogin .processLogin
  | inLobby => Function.update (Function.update RecvTable.reset
      .reqLobbyInfo .processLobbyInfo) .reqRoomEnter .processEnterRoom
  | inRoom => Function.update (Function.update (Function.update RecvTable.reset
      .reqRoomInfo .processRoomInfo) .reqRoomLeave .processLeaveRoom)
      .reqRoomChat .processRoomChatMessage
  | _ => RecvTable.reset

structure User extends ReceiveBuffer where
  mRoomIndex : Int32
  mUserID : Bytes
  mState : UserState
  recvFuntionDictionary : RecvTable

namespace User

/-- The `Enter` of the state object of `state`. `UserStateNone` and
`UserStateDisConnect` do nothing there. -/
def enter (state : UserState) (u : User) : User :=
  match state with
  | .connected | .inLobby | .inRoom => { u with recvFuntionDictionary := state.handlers }
  | _ => u

/-- `User::ChangeState`; `Exit` does nothing in all states. -/
def changeState (newState : UserState) (u : User) : User :=
  match newState with
  | .none => u
  | _ => enter newState { u with mState := newState }

def resetRecvFunction (u : User) : User := { u with recvFuntionDictionary := RecvTable.reset }

/-- `User::Clear` -/
def clear (u : User) : User :=
  let u := { u with mRoomIndex := -1, mUserID := [] }
  let u := resetRecvFunction (changeState .none u)
  { u with toReceiveBuffer := u.toReceiveBuffer.clear }

/-- `User::SetLogin` -/
def setLogin (userID : Bytes) (u : User) : User :=
  { changeState .inLobby u with mUserID := userID }

/-- A user after `User::Init`, with whatever the new buffer holds. `mState` is
zero-initialised, that is `None`. -/
def init (mem : ℕ → UInt8) : User :=
  resetRecvFunction (changeState .none
    { mPacketDataBuffer := mem, mPacketDataBufferWPos := 0, mPacketDataBufferRPos := 0
      mRoomIndex := -1, mUserID := [], mState := .none, recvFuntionDictionary := RecvTable.reset })

variable (u : User)

@[simp] theorem clear_mState : u.clear.mState = u.mState := rfl
@[simp] theorem clear_mUserID : u.clear.mUserID = [] := rfl
@[simp] theorem clear_mRoomIndex : u.clear.mRoomIndex = -1 := rfl
@[simp] theorem clear_table : u.clear.recvFuntionDictionary = RecvTable.reset := rfl
@[simp] theorem clear_buffer : u.clear.toReceiveBuffer = u.toReceiveBuffer.clear := rfl

@[simp] theorem changeState_mUserID (state : UserState) :
    (changeState state u).mUserID = u.mUserID := by cases state <;> rfl

@[simp] theorem changeState_mRoomIndex (state : UserState) :
    (changeState state u).mRoomIndex = u.mRoomIndex := by cases state <;> rfl

@[simp] theorem changeState_buffer (state : UserState) :
    (changeState state u).toReceiveBuffer = u.toReceiveBuffer := by cases state <;> rfl

@[simp] theorem changeState_mState {state : UserState} (h : state ≠ .none) :
    (changeState state u).mState = state := by
  cases state <;> first | rfl | exact absurd rfl h

/-- The three states that users are put into rewrite the whole table. -/
@[simp] theorem changeState_table {state : UserState}
    (h : state = .connected ∨ state = .inLobby ∨ state = .inRoom) :
    (changeState state u).recvFuntionDictionary = state.handlers := by
  rcases h with rfl | rfl | rfl <;> rfl

@[simp] theorem setLogin_mState (id : Bytes) : (setLogin id u).mState = .inLobby := rfl
@[simp] theorem setLogin_mUserID (id : Bytes) : (setLogin id u).mUserID = id := rfl
@[simp] theorem setLogin_mRoomIndex (id : Bytes) : (setLogin id u).mRoomIndex = u.mRoomIndex := rfl
@[simp] theorem setLogin_table (id : Bytes) :
    (setLogin id u).recvFuntionDictionary = UserState.inLobby.handlers := rfl
@[simp] theorem setLogin_buffer (id : Bytes) :
    (setLogin id u).toReceiveBuffer = u.toReceiveBuffer := rfl

/-- The login handler sets the login a second time, which changes nothing. -/
@[simp] theorem setLogin_setLogin (id : Bytes) : setLogin id (setLogin id u) = setLogin id u := rfl

/-- The table holds the handlers of the current state, or none at all. -/
def TableOk : Prop :=
  u.recvFuntionDictionary = RecvTable.reset ∨ u.recvFuntionDictionary = u.mState.handlers

end User

/-- The state whose `Enter` installs a handler, and the request it serves. -/
def RecvFunction.home : RecvFunction → Option (UserState × PacketId)
  | noop => none
  | processCreateAccount => some (.connected, .reqCreateAccount)
  | processLogin => some (.connected, .reqLogin)
  | processLobbyInfo => some (.inLobby, .reqLobbyInfo)
  | processEnterRoom => some (.inLobby, .reqRoomEnter)
  | processRoomInfo => some (.inRoom, .reqRoomInfo)
  | processLeaveRoom => some (.inRoom, .reqRoomLeave)
  | processRoomChatMessage => some (.inRoom, .reqRoomChat)

theorem UserState.handlers_eq {state : UserState} {packetId : PacketId} {f : RecvFunction}
    (h : state.handlers packetId = f) (hf : f ≠ .noop) : f.home = some (state, packetId) := by
  subst h
  revert hf
  cases state <;> cases packetId <;> first | (intro h; exact absurd rfl h) | (intro _; rfl)

/-- A handler that is installed tells the state of the user. -/
theorem User.TableOk.state_of_handler {u : User} (hu : u.TableOk) {packetId : PacketId}
    {f : RecvFunction} (h : u.recvFuntionDictionary packetId = f) (hf : f ≠ .noop) :
    f.home = some (u.mState, packetId) := by
  rcases hu with hu | hu <;> rw [hu] at h
  · exact absurd h.symm hf
  · exact UserState.handlers_eq h hf

end ChatServer
