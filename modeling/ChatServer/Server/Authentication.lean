import ChatServer.Server.Effect

/-! # Authentication gates the chat service

A handler of the lobby or of a room is only ever installed by a successful login,
whatever the order of events, and every connect and disconnect takes it away.
-/

namespace ChatServer.Server
open Recorded

variable {n m : ℕ} {δ : Type*}

/-- The event is a connect or a disconnect of slot `i`. -/
def SystemEventOf (i : Fin n) : Event n → Prop
  | .connect j => j = i
  | .disconnect j => j = i
  | .frame .. => False

/-- The entries end with a connect of slot `i` and then no system event of it. -/
def ConnectedSince (past : History n m δ) (i : Fin n) : Prop :=
  ∃ before c since, past = before ++ c :: since ∧ c.act = .connect i ∧
    ∀ e ∈ since, ¬SystemEventOf i e.act

/-- A login request of slot `i`, of the exact size, was answered with success, and the
account database had confirmed this id together with the password of the frame. -/
def LoginSucceeded (env : Env δ) (i : Fin n) (userID : Bytes)
    (e : Entry (Server n m δ) (Event n)) : Prop :=
  ∃ packetSize p, e.act = .frame i PacketId.reqLogin.code packetSize p ∧
    packetSize.toNat = reqLoginPacketSize ∧
    Answered (e.pre.sent env e.act) i .ackLogin .loginSuccess ∧
    userID = stringAt p userIdOffset ∧
    (env.selectAccount e.pre.mAccountDB userID (stringAt p userPwOffset)).1 = true

/-- Since its latest connect, and with no disconnect since, slot `i` has logged in. -/
def Authenticated (env : Env δ) (past : History n m δ) (i : Fin n)
    (userID : Bytes) : Prop :=
  ∃ before l since, past = before ++ l :: since ∧ ConnectedSince before i ∧
    LoginSucceeded env i userID l ∧ ∀ e ∈ since, ¬SystemEventOf i e.act

variable {env : Env δ} {s s' : Server n m δ} {past : History n m δ}
  {a : Event n} {i : Fin n} {userID : Bytes}

theorem ConnectedSince.snoc (h : ConnectedSince past i) {e : Entry (Server n m δ) (Event n)}
    (he : ¬SystemEventOf i e.act) : ConnectedSince (past ++ [e]) i := by
  rcases h with ⟨before, c, since, rfl, hc, hsince⟩
  refine ⟨before, c, since ++ [e], by simp, hc, fun f hf => ?_⟩
  rcases List.mem_append.mp hf with hf | hf
  · exact hsince f hf
  · rwa [List.mem_singleton.mp hf]

theorem Authenticated.snoc (h : Authenticated env past i userID)
    {e : Entry (Server n m δ) (Event n)} (he : ¬SystemEventOf i e.act) :
    Authenticated env (past ++ [e]) i userID := by
  rcases h with ⟨before, l, since, rfl, hconnected, hl, hsince⟩
  refine ⟨before, l, since ++ [e], by simp, hconnected, hl, fun f hf => ?_⟩
  rcases List.mem_append.mp hf with hf | hf
  · exact hsince f hf
  · rwa [List.mem_singleton.mp hf]

/-- What the handler table of slot `i` tells about the history of the slot. -/
inductive Gate (env : Env δ) (past : History n m δ) (i : Fin n)
    (u : User) : Prop
  | closed (htable : u.recvFuntionDictionary = RecvTable.reset)
  | login (htable : u.recvFuntionDictionary = UserState.connected.handlers)
      (hconnected : ConnectedSince past i)
  | service (htable : u.recvFuntionDictionary = UserState.inLobby.handlers ∨
        u.recvFuntionDictionary = UserState.inRoom.handlers)
      (hlogin : Authenticated env past i u.mUserID)

def GatesOk (env : Env δ) (past : History n m δ) (s : Server n m δ) :
    Prop :=
  ∀ i, Gate env past i (s.mUserObjPool i)

theorem Gate.snoc {u : User} (h : Gate env past i u) {e : Entry (Server n m δ) (Event n)}
    (he : ¬SystemEventOf i e.act) : Gate env (past ++ [e]) i u := by
  cases h with
  | closed htable => exact .closed htable
  | login htable hconnected => exact .login htable (hconnected.snoc he)
  | service htable hlogin => exact .service htable (hlogin.snoc he)

/-- A handler of state `Connected` runs only for a connected slot. -/
theorem GatesOk.connectedSince (h : s.GatesOk env past) {packetId : UInt16} {f : RecvFunction}
    (hf : s.handler i packetId = f) {request : PacketId}
    (hhome : f.home = some (.connected, request)) : ConnectedSince past i := by
  have hne : f ≠ .noop := by
    rintro rfl
    exact nomatch hhome
  rcases table_of_handler hf hne with ⟨request', htable, -⟩
  cases h i with
  | closed hreset =>
    rw [hreset] at htable
    exact absurd htable.symm hne
  | login _ hconnected => exact hconnected
  | service hservice =>
    rcases hservice with hlobby | hroom
    · rw [hlobby] at htable
      simpa [hhome] using UserState.handlers_eq htable hne
    · rw [hroom] at htable
      simpa [hhome] using UserState.handlers_eq htable hne

/-- Every other handler runs only for a slot that has logged in. -/
theorem GatesOk.authenticated (h : s.GatesOk env past) {packetId : UInt16} {f : RecvFunction}
    (hf : s.handler i packetId = f) {state : UserState} {request : PacketId}
    (hhome : f.home = some (state, request)) (hstate : state ≠ .connected) :
    Authenticated env past i (s.mUserObjPool i).mUserID := by
  have hne : f ≠ .noop := by
    rintro rfl
    exact nomatch hhome
  rcases table_of_handler hf hne with ⟨request', htable, -⟩
  cases h i with
  | closed hreset =>
    rw [hreset] at htable
    exact absurd htable.symm hne
  | login hconnected =>
    rw [hconnected] at htable
    have := (UserState.handlers_eq htable hne).symm.trans hhome
    exact absurd (congrArg Prod.fst (Option.some.inj this)).symm hstate
  | service _ hlogin => exact hlogin

theorem GatesOk.of_frame (h : s.GatesOk env past) {packetId packetSize : UInt16} {p : Bytes}
    (husers : s'.mUserObjPool = s.mUserObjPool) :
    s'.GatesOk env (past ++ [⟨s, .frame i packetId packetSize p, s'⟩]) := by
  intro j
  rw [husers]
  exact (h j).snoc not_false

theorem GatesOk.of_update (h : s.GatesOk env past) {packetId packetSize : UInt16} {p : Bytes}
    {u : User} (husers : s'.mUserObjPool = Function.update s.mUserObjPool i u)
    (hu : Gate env (past ++ [⟨s, .frame i packetId packetSize p, s'⟩]) i u) :
    s'.GatesOk env (past ++ [⟨s, .frame i packetId packetSize p, s'⟩]) := by
  intro j
  rw [husers, Function.update_apply]
  split_ifs with hj
  · rwa [hj]
  · exact (h j).snoc not_false

/-- Moves between lobby and room keep the id that the slot logged in with. -/
theorem GatesOk.move (h : s.GatesOk env past) {packetId packetSize : UInt16} {p : Bytes}
    {f : RecvFunction} (hf : s.handler i packetId = f) {state : UserState} {request : PacketId}
    (hhome : f.home = some (state, request)) (hstate : state ≠ .connected) {u : User}
    (husers : s'.mUserObjPool = Function.update s.mUserObjPool i u)
    (htable : u.recvFuntionDictionary = UserState.inLobby.handlers ∨
      u.recvFuntionDictionary = UserState.inRoom.handlers)
    (hid : u.mUserID = (s.mUserObjPool i).mUserID) :
    s'.GatesOk env (past ++ [⟨s, .frame i packetId packetSize p, s'⟩]) := by
  refine h.of_update husers (.service htable ?_)
  rw [hid]
  exact (h.authenticated hf hhome hstate).snoc not_false

theorem GatesOk.step (h : s.GatesOk env past) (ht : s.TablesOk) (hstep : s.step env a = some s') :
    s'.GatesOk env (past ++ [⟨s, a, s'⟩]) := by
  have he := effect_of_step hstep
  generalize hout : s.sent env a = out at he
  cases he with
  | connect i =>
    intro j
    by_cases hj : j = i
    · subst hj
      refine .login (by simp [processUserConnect]) ⟨past, _, [], rfl, rfl, ?_⟩
      simp
    · rw [processUserConnect, updateUser_other _ _ _ hj]
      exact (h j).snoc fun hji => hj hji.symm
  | disconnectUnused i hstate =>
    intro j
    by_cases hj : j = i
    · subst hj
      apply Gate.closed
      rcases ht j with hreset | htable
      · exact hreset
      · rw [htable, hstate]
        rfl
    · exact (h j).snoc fun hji => hj hji.symm
  | disconnect i =>
    intro j
    by_cases hj : j = i
    · subst hj
      exact .closed (by simp [deleteUserInfo])
    · rw [deleteUserInfo, updateUser_other _ _ _ hj]
      exact (h j).snoc fun hji => hj hji.symm
  | @loggedIn i packetId packetSize p db hf hsize hfree hdb =>
    refine h.of_update rfl (.service (.inl rfl) ?_)
    have hcode := ht.packetId_of_handler hf rfl
    refine ⟨past, _, [], rfl, h.connectedSince hf rfl, ⟨packetSize, p, by rw [hcode],
      hsize, ?_, rfl, by rw [User.setLogin_mUserID, hdb]⟩, by simp⟩
    simp [hout]
  | enterRefused hf => exact h.move hf rfl (by decide) rfl (.inr (by simp)) (by simp)
  | entered hf => exact h.move hf rfl (by decide) rfl (.inr (by simp)) (by simp)
  | leaveRefused hf => exact h.move hf rfl (by decide) rfl (.inl (by simp)) (by simp)
  | left hf => exact h.move hf rfl (by decide) rfl (.inl (by simp)) (by simp)
  | ignored | accountCreated | loginRefused | lobbyInfo | roomInfo | chatRefused | chat =>
    exact h.of_frame rfl

/-! ## The gate -/

/-- The requests of the chat service. -/
def chatServiceIds : List PacketId :=
  [.reqLobbyInfo, .reqRoomEnter, .reqRoomInfo, .reqRoomLeave, .reqRoomChat]

/-- A request of the chat service that sends a packet or changes the server comes from
a slot that has logged in with the id it now has. -/
def ChatServiceGated (env : Env δ) (past : History n m δ)
    (e : Entry (Server n m δ) (Event n)) : Prop :=
  ∀ i packetId packetSize p, packetId ∈ chatServiceIds.map PacketId.code →
    e.act = .frame i packetId packetSize p →
    e.pre.sent env e.act ≠ [] ∨ e.post ≠ e.pre →
      Authenticated env past i (e.pre.mUserObjPool i).mUserID

theorem GatesOk.chatServiceGated (h : s.GatesOk env past) (ht : s.TablesOk)
    (hstep : s.step env a = some s') : ChatServiceGated env past ⟨s, a, s'⟩ := by
  rintro i packetId packetSize p hservice rfl hacts
  have he := effect_of_step hstep
  generalize hout : s.sent env (.frame i packetId packetSize p) = out at he
  have hne : s.handler i packetId ≠ .noop := by
    intro hnoop
    cases he with
    | ignored => simp [hout] at hacts
    | accountCreated hf | loginRefused hf | loggedIn hf | lobbyInfo hf | enterRefused hf
    | entered hf | roomInfo hf | leaveRefused hf | left hf | chatRefused hf | chat hf =>
      exact nomatch hnoop.symm.trans hf
  rcases handler_eq_of_tableOk (ht i) rfl hne with ⟨request, hhome, hcode⟩
  apply h.authenticated rfl hhome
  intro hstate
  -- the handlers of state `Connected` serve no request of the chat service
  rcases List.mem_map.mp hservice with ⟨request', hmem, hcode'⟩
  obtain rfl := PacketId.code_injective (hcode'.trans hcode)
  rw [hstate] at hhome
  cases hf : s.handler i packetId <;> simp [hf, RecvFunction.home] at hhome <;> subst hhome <;>
    exact absurd hmem (by decide)

/-- No frame of a client is dispatched to the functions for system packets. -/
theorem client_frame_no_system (i : Fin n) (packetId packetSize : UInt16) (p : Bytes) :
    dispatched (.frame i packetId packetSize p) ≠ some .processUserConnect ∧
      dispatched (.frame i packetId packetSize p) ≠ some .processUserDisConnect := by
  constructor
  · intro h
    rcases dispatched_frame h with ⟨request, hrequest, -⟩
    exact nomatch hrequest
  · intro h
    rcases dispatched_frame h with ⟨request, hrequest, -⟩
    exact nomatch hrequest

theorem init_gatesOk (env : Env δ) (n : ℕ)
    (beginRoomNumber maxRoomCount maxRoomUserCount : Int32) (mem : Fin n → ℕ → UInt8) (db : δ) :
    (init n beginRoomNumber maxRoomCount maxRoomUserCount mem db).GatesOk env [] :=
  fun _ => .closed rfl

/-- In every run, all requests of the chat service that have any effect are gated by
a login, and no frame of a client connects or disconnects a user. -/
theorem chat_service_gated (env : Env δ) (n : ℕ)
    (beginRoomNumber maxRoomCount maxRoomUserCount : Int32) (mem : Fin n → ℕ → UInt8) (db : δ)
    {past : History n maxRoomCount.toNatClampNeg δ}
    {s : Server n maxRoomCount.toNatClampNeg δ}
    (run : Run (step env) (init n beginRoomNumber maxRoomCount maxRoomUserCount mem db) past s) :
    AtEach (ChatServiceGated env) past ∧
      AtEach (fun _ e => ∀ i packetId packetSize p, e.act = .frame i packetId packetSize p →
        dispatched e.act ≠ some .processUserConnect ∧
          dispatched e.act ≠ some .processUserDisConnect) past := by
  constructor
  · refine run.atEach_of_invariant (C := fun _ _ => True)
      (P := fun past s => s.GatesOk env past ∧ s.TablesOk)
      ⟨init_gatesOk env n _ _ _ mem db, init_tablesOk n _ _ _ mem db⟩ ?_ ?_ fun _ _ _ => trivial
    · intro past s a s' _ ⟨h, ht⟩ hstep _
      exact ⟨h.step ht hstep, ht.step hstep⟩
    · intro past s a s' _ ⟨h, ht⟩ hstep _
      exact h.chatServiceGated ht hstep
  · intro k e _ i packetId packetSize p hact
    rw [hact]
    exact client_frame_no_system i packetId packetSize p

/-- A slot logs in and asks for the lobby, and is sent two packets. -/
theorem lobby_request_gated : ∃ past s,
    Run (step acceptingEnv) (init 1 0 10 4 (fun _ _ => 0) ()) past s ∧
      AtEach (ChatServiceGated acceptingEnv) past ∧
      past.map (fun e => (e.pre.sent acceptingEnv e.act).length) = [0, 1, 2] := by
  obtain ⟨past, s, run, h⟩ := exists_run (step acceptingEnv) (init 1 0 10 4 (fun _ _ => 0) ())
    [.connect 0, .request 0 .reqLogin (reqLoginBody [65] [66]), .request 0 .reqLobbyInfo []]
    (fun past _ => past.map (fun e => (e.pre.sent acceptingEnv e.act).length) = [0, 1, 2])
    (by decide +kernel)
  exact ⟨past, s, run, (chat_service_gated acceptingEnv 1 0 10 4 _ () run).1, of_decide_eq_true h⟩

end ChatServer.Server
