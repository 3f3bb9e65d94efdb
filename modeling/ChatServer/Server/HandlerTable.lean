import ChatServer.Server.LoginTable

/-! # State and handler table

The state of a user is written by `ChangeState`, its table by `Enter`, by
`ResetRecvFunction` and by `Clear`. They agree for a connected user; a disconnect
clears the table and leaves the state.
-/

namespace ChatServer

/-- The requests that a state serves. -/
def UserState.requests : UserState → List PacketId
  | connected => [.reqCreateAccount, .reqLogin]
  | inLobby => [.reqLobbyInfo, .reqRoomEnter]
  | inRoom => [.reqRoomInfo, .reqRoomLeave, .reqRoomChat]
  | none | disconnect | roomEnter | roomExit => []

theorem UserState.handlers_ne_noop (state : UserState) (request : PacketId) :
    state.handlers request ≠ .noop ↔ request ∈ state.requests := by
  cases state <;> cases request <;> decide

namespace Server
open Recorded

variable {n m : ℕ} {δ : Type*}

/-- The table has the requests of the state, and the state is `None` without a
connection only. -/
structure InStep (connected : Bool) (u : User) : Prop where
  requests : ∀ request, u.recvFuntionDictionary request ≠ .noop ↔ request ∈ u.mState.requests
  established : u.mState = .none ↔ connected = false

def HandlersAgree (past : History n m δ) (s : Server n m δ) : Prop :=
  ∀ i, InStep (connected past i) (s.mUserObjPool i)

namespace InStep

variable {connected : Bool} {u : User} {state : UserState}

theorem init (mem : ℕ → UInt8) : InStep false (User.init mem) where
  requests request := by simp [User.init, User.resetRecvFunction, User.changeState,
    RecvTable.reset, UserState.requests]
  established := by simp [User.init, User.resetRecvFunction, User.changeState]

/-- `ChangeState` puts both in step when it runs an `Enter`. -/
theorem changeState (u : User) (hstate : state = .connected ∨ state = .inLobby ∨ state = .inRoom) :
    InStep true (User.changeState state u) where
  requests request := by
    have hne : state ≠ .none := by rcases hstate with rfl | rfl | rfl <;> decide
    rw [User.changeState_table u hstate, User.changeState_mState u hne]
    exact state.handlers_ne_noop request
  established := by
    rcases hstate with rfl | rfl | rfl <;> simp

theorem setLogin (id : Bytes) (u : User) : InStep true (User.setLogin id u) where
  requests request := by
    rw [User.setLogin_table, User.setLogin_mState]
    exact UserState.inLobby.handlers_ne_noop request
  established := by simp

/-- `Clear` resets the table and keeps the state. -/
theorem clear_iff (h : InStep connected u) : InStep false u.clear ↔ connected = false := by
  constructor
  · intro h'
    exact h.established.mp (h'.established.mpr rfl)
  · intro hc
    have hnone := h.established.mpr hc
    refine ⟨fun request => ?_, ?_⟩
    · simp [RecvTable.reset, hnone, UserState.requests]
    · simp [hnone]

end InStep

variable {env : Env δ} {s s' : Server n m δ} {past : History n m δ} {a : Event n} {i : Fin n}

/-- Only a connected slot has a handler to run. -/
theorem HandlersAgree.connected_of_handler (h : s.HandlersAgree past) {packetId : UInt16}
    {f : RecvFunction} (hf : s.handler i packetId = f) (hne : f ≠ .noop) :
    connected past i = true := by
  rcases table_of_handler hf hne with ⟨request, htable, -⟩
  have hmem := ((h i).requests request).mp (htable ▸ hne)
  by_contra hc
  rw [(h i).established.mpr (by simpa using hc)] at hmem
  exact List.not_mem_nil hmem

/-- A frame that writes no user. -/
theorem HandlersAgree.of_frame (h : s.HandlersAgree past) {packetId packetSize : UInt16}
    {p : Bytes} (husers : s'.mUserObjPool = s.mUserObjPool) :
    s'.HandlersAgree (past ++ [⟨s, .frame i packetId packetSize p, s'⟩]) := by
  intro j
  rw [connected_snoc, husers]
  exact h j

/-- A frame that moves its connected user to another state. -/
theorem HandlersAgree.of_changeState (h : s.HandlersAgree past) {packetId packetSize : UInt16}
    {p : Bytes} {u : User} (husers : s'.mUserObjPool = Function.update s.mUserObjPool i u)
    (hc : connected past i = true) (hu : InStep true u) :
    s'.HandlersAgree (past ++ [⟨s, .frame i packetId packetSize p, s'⟩]) := by
  intro j
  rw [connected_snoc, husers]
  by_cases hj : j = i
  · subst hj
    simpa [connectedAfter, hc] using hu
  · simpa [connectedAfter, hj] using h j

/-- No connection ends. -/
def KeepsHandlers (past : History n m δ) (e : Entry (Server n m δ) (Event n)) : Prop :=
  match e.act with
  | .disconnect i => connected past i = false
  | .connect _ | .frame .. => True

instance (past : History n m δ) : ∀ e, Decidable (KeepsHandlers past e)
  | ⟨_, .disconnect i, _⟩ => inferInstanceAs (Decidable (connected past i = false))
  | ⟨_, .connect _, _⟩ | ⟨_, .frame .., _⟩ => instDecidableTrue

theorem handlersAgree_connect (h : s.HandlersAgree past) (s' : Server n m δ) :
    (s.processUserConnect i).HandlersAgree (past ++ [⟨s, .connect i, s'⟩]) := by
  intro j
  rw [connected_snoc]
  by_cases hj : j = i
  · subst hj
    simpa [connectedAfter, processUserConnect] using InStep.changeState _ (.inl rfl)
  · simpa [connectedAfter, processUserConnect, updateUser_other _ _ _ hj, Ne.symm hj] using h j

theorem handlersAgree_disconnect (h : s.HandlersAgree past) (s' : Server n m δ) :
    (s.deleteUserInfo i).HandlersAgree (past ++ [⟨s, .disconnect i, s'⟩]) ↔
      connected past i = false := by
  rw [← (h i).clear_iff]
  constructor
  · intro h'
    have hi := h' i
    rw [connected_snoc] at hi
    simpa [connectedAfter, deleteUserInfo] using hi
  · intro hi j
    rw [connected_snoc]
    by_cases hj : j = i
    · subst hj
      simpa [connectedAfter, deleteUserInfo] using hi
    · simpa [connectedAfter, deleteUserInfo, updateUser_other _ _ _ hj, Ne.symm hj] using h j

/-- In step before an event, states and tables are in step after it exactly if the
event is not the end of a connection. -/
theorem HandlersAgree.step_iff (h : s.HandlersAgree past) (hstep : s.step env a = some s') :
    s'.HandlersAgree (past ++ [⟨s, a, s'⟩]) ↔ KeepsHandlers past ⟨s, a, s'⟩ := by
  have he := effect_of_step hstep
  have online : ∀ {i packetId f}, s.handler i packetId = f → f ≠ .noop →
      connected past i = true := fun hf hne => h.connected_of_handler hf hne
  generalize s.sent env a = out at he
  cases he with
  | connect i => exact iff_of_true (handlersAgree_connect h _) trivial
  | disconnectUnused i hstate =>
    have hc := (h i).established.mp hstate
    apply iff_of_true _ hc
    intro j
    rw [connected_snoc]
    by_cases hj : j = i
    · subst hj
      simpa [connectedAfter, hc] using h j
    · simpa [connectedAfter, Ne.symm hj] using h j
  | disconnect i => exact handlersAgree_disconnect h _
  | loggedIn hf =>
    exact iff_of_true (h.of_changeState rfl (online hf (by decide)) (InStep.setLogin _ _)) trivial
  | enterRefused hf | entered hf =>
    exact iff_of_true (h.of_changeState rfl (online hf (by decide))
      (InStep.changeState _ (.inr (.inr rfl)))) trivial
  | leaveRefused hf | left hf =>
    exact iff_of_true (h.of_changeState rfl (online hf (by decide))
      (InStep.changeState _ (.inr (.inl rfl)))) trivial
  | ignored | accountCreated | loginRefused | lobbyInfo | roomInfo | chatRefused | chat =>
    exact iff_of_true (h.of_frame rfl) trivial

/-- Over every run, all states have users whose tables match their states and whose
states tell whether they are connected exactly when no connection ends. -/
theorem handlers_agree_iff (env : Env δ) (n : ℕ)
    (beginRoomNumber maxRoomCount maxRoomUserCount : Int32) (mem : Fin n → ℕ → UInt8) (db : δ)
    {past : History n maxRoomCount.toNatClampNeg δ} {s : Server n maxRoomCount.toNatClampNeg δ}
    (run : Run (step env) (init n beginRoomNumber maxRoomCount maxRoomUserCount mem db) past s) :
    ((init n beginRoomNumber maxRoomCount maxRoomUserCount mem db).HandlersAgree [] ∧
        AtEach (fun past e => e.post.HandlersAgree (past ++ [e])) past) ↔
      AtEach KeepsHandlers past := by
  have hinit : (init n beginRoomNumber maxRoomCount maxRoomUserCount mem db).HandlersAgree [] :=
    fun i => InStep.init (mem i)
  rw [and_iff_right hinit]
  refine run.exact_iff (A := fun _ _ => True) (I := fun past s => s.HandlersAgree past) hinit
    ?_ ?_ (fun _ _ _ => trivial)
  · intro past s a s' h hstep _ hkeep
    exact (h.step_iff hstep).mpr hkeep
  · intro past s a s' h hstep _
    exact h.step_iff hstep

/-- Slot 0 visits a room and stays connected, slot 1 disconnects without having been
connected. -/
theorem handlers_agree_through_a_visit : ∃ past s,
    Run (step acceptingEnv) (init 2 0 10 4 (fun _ _ => 0) ()) past s ∧ past.length = 5 ∧
      AtEach (fun past e => e.post.HandlersAgree (past ++ [e])) past := by
  obtain ⟨past, s, run, h⟩ := exists_run (step acceptingEnv) (init 2 0 10 4 (fun _ _ => 0) ())
    [.connect 0, .request 0 .reqLogin (reqLoginBody [65] [66]), .disconnect 1,
      .request 0 .reqRoomEnter (le32 0), .request 0 .reqRoomLeave []]
    (fun past _ => past.length = 5 ∧ AtEach KeepsHandlers past) (by decide +kernel)
  rcases of_decide_eq_true h with ⟨hlength, hkeep⟩
  exact ⟨past, s, run, hlength,
    ((handlers_agree_iff acceptingEnv 2 0 10 4 _ () run).mpr hkeep).2⟩

/-- After a connect and a disconnect the state is still `Connected`, and the table
is empty. -/
theorem disconnected_user_keeps_state : ∃ past s,
    Run (step acceptingEnv) (init 1 0 10 4 (fun _ _ => 0) ()) past s ∧ ¬s.HandlersAgree past := by
  obtain ⟨past, s, run, h⟩ := exists_run (step acceptingEnv) (init 1 0 10 4 (fun _ _ => 0) ())
    [.connect 0, .disconnect 0]
    (fun past s => connected past 0 = false ∧ (s.mUserObjPool 0).mState = .connected)
    (by decide +kernel)
  rcases of_decide_eq_true h with ⟨hc, hstate⟩
  refine ⟨past, s, run, fun hagree => ?_⟩
  exact absurd (hstate.symm.trans ((hagree 0).established.mpr hc)) (by decide)

end Server
end ChatServer
