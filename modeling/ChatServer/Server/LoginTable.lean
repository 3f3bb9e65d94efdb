import ChatServer.Server.Effect

/-! # The login table

`mUserIDDictionary` should map an id exactly to the slot that is logged in under it.
Who is logged in is read off the history of a run. A disconnect erases the entry of
whatever `mUserID` holds, and that is the empty id for a slot that never logged in.
-/

namespace ChatServer.Server
open Recorded

variable {n m : ℕ} {δ : Type*}

/-- Whether slot `i` is connected after one more entry. -/
def connectedAfter (i : Fin n) (connected : Bool) (e : Entry (Server n m δ) (Event n)) : Bool :=
  match e.act with
  | .connect j => if j = i then true else connected
  | .disconnect j => if j = i then false else connected
  | .frame .. => connected

/-- The latest system event of slot `i` is a connect. -/
def connected (past : History n m δ) (i : Fin n) : Bool := past.foldl (connectedAfter i) false

/-- Whether slot `i` is logged in after one more entry. -/
def loggedInAfter (env : Env δ) (i : Fin n) (loggedIn : Bool)
    (e : Entry (Server n m δ) (Event n)) : Bool :=
  match e.act with
  | .connect j => if j = i then false else loggedIn
  | .disconnect j => if j = i then false else loggedIn
  | .frame .. => loggedIn || decide (Answered (e.pre.sent env e.act) i .ackLogin .loginSuccess)

/-- Slot `i` was answered `LOGIN_SUCCESS`, with no connect or disconnect since. -/
def loggedIn (env : Env δ) (past : History n m δ) (i : Fin n) : Bool :=
  past.foldl (loggedInAfter env i) false

/-- The system events of every slot alternate, beginning with a connect. -/
def Alternates (past : History n m δ) (e : Entry (Server n m δ) (Event n)) : Prop :=
  match e.act with
  | .connect i => connected past i = false
  | .disconnect i => connected past i = true
  | .frame .. => True

instance (past : History n m δ) (e : Entry (Server n m δ) (Event n)) :
    Decidable (Alternates past e) := by
  unfold Alternates
  split <;> infer_instance

variable {env : Env δ} {s s' : Server n m δ} {past : History n m δ} {a : Event n}
  {out : List (Sent n)} {i j : Fin n}

@[simp] theorem connected_snoc (e : Entry (Server n m δ) (Event n)) :
    connected (past ++ [e]) i = connectedAfter i (connected past i) e := by
  simp [connected]

@[simp] theorem loggedIn_snoc (e : Entry (Server n m δ) (Event n)) :
    loggedIn env (past ++ [e]) i = loggedInAfter env i (loggedIn env past i) e := by
  simp [loggedIn]

/-! ## What history and user have in common -/

/-- A slot without connection has no handlers and is not logged in; a slot that is
not logged in has no id, one that is has left state `Connected`. -/
structure SlotOk (connected loggedIn : Bool) (u : User) : Prop where
  offline : connected = false → u.recvFuntionDictionary = RecvTable.reset ∧ loggedIn = false
  online : connected = true → u.mState ≠ .none
  inside : loggedIn = true → u.mState = .inLobby ∨ u.mState = .inRoom
  blank : loggedIn = false → u.mUserID = []

def SlotsOk (env : Env δ) (past : History n m δ) (s : Server n m δ) : Prop :=
  ∀ i, SlotOk (connected past i) (loggedIn env past i) (s.mUserObjPool i)

namespace SlotOk

variable {c l : Bool} {u : User}

theorem init (mem : ℕ → UInt8) : SlotOk false false (User.init mem) where
  offline _ := ⟨rfl, rfl⟩
  online h := nomatch h
  inside h := nomatch h
  blank _ := rfl

theorem connect (u : User) : SlotOk true false (User.changeState .connected u.clear) where
  offline h := nomatch h
  online _ := by simp
  inside h := nomatch h
  blank _ := by simp

theorem disconnect (u : User) : SlotOk false false u.clear where
  offline _ := ⟨rfl, rfl⟩
  online h := nomatch h
  inside h := nomatch h
  blank _ := rfl

theorem login (hc : c = true) (id : Bytes) (u : User) : SlotOk c true (User.setLogin id u) where
  offline h := absurd (h.symm.trans hc) (by decide)
  online _ := by simp
  inside _ := .inl rfl
  blank h := nomatch h

theorem enterRoom (h : SlotOk c l u) (hc : c = true) (number : Int32) :
    SlotOk c l (User.changeState .inRoom { u with mRoomIndex := number }) where
  offline hc' := absurd (hc'.symm.trans hc) (by decide)
  online _ := by simp
  inside _ := .inr (by simp)
  blank hl := by simpa using h.blank hl

theorem leaveRoom (h : SlotOk c l u) (hc : c = true) :
    SlotOk c l (User.changeState .inLobby u) where
  offline hc' := absurd (hc'.symm.trans hc) (by decide)
  online _ := by simp
  inside _ := .inl (by simp)
  blank hl := by simpa using h.blank hl

end SlotOk

/-- Only a connected slot has a handler to run. -/
theorem SlotsOk.connected_of_handler (h : s.SlotsOk env past) {packetId : UInt16}
    {f : RecvFunction} (hf : s.handler i packetId = f) (hne : f ≠ .noop) :
    connected past i = true := by
  by_contra hc
  have hreset := ((h i).offline (by simpa using hc)).1
  rcases table_of_handler hf hne with ⟨request, htable, -⟩
  rw [hreset] at htable
  exact hne htable.symm

/-- A frame that answers no login success and leaves the users alone changes nothing. -/
theorem SlotsOk.of_frame (h : s.SlotsOk env past) {packetId packetSize : UInt16} {p : Bytes}
    (husers : s'.mUserObjPool = s.mUserObjPool)
    (hsent : ∀ j, ¬Answered (s.sent env (.frame i packetId packetSize p)) j .ackLogin
      .loginSuccess) :
    s'.SlotsOk env (past ++ [⟨s, .frame i packetId packetSize p, s'⟩]) := by
  intro j
  simpa [connectedAfter, loggedInAfter, hsent, husers] using h j

/-- The same when the user of the frame's slot changes within its state. -/
theorem SlotsOk.of_update (h : s.SlotsOk env past) {packetId packetSize : UInt16} {p : Bytes}
    {u : User} (husers : s'.mUserObjPool = Function.update s.mUserObjPool i u)
    (hu : SlotOk (connected past i) (loggedIn env past i) u)
    (hsent : ∀ j, ¬Answered (s.sent env (.frame i packetId packetSize p)) j .ackLogin
      .loginSuccess) :
    s'.SlotsOk env (past ++ [⟨s, .frame i packetId packetSize p, s'⟩]) := by
  intro j
  by_cases hj : j = i
  · subst hj
    simpa [connectedAfter, loggedInAfter, hsent, husers] using hu
  · simpa [connectedAfter, loggedInAfter, hsent, husers, hj] using h j

theorem SlotsOk.step (h : s.SlotsOk env past) (hstep : s.step env a = some s')
    (halt : Alternates past ⟨s, a, s'⟩) : s'.SlotsOk env (past ++ [⟨s, a, s'⟩]) := by
  have he := effect_of_step hstep
  have online : ∀ {i packetId f}, s.handler i packetId = f → f ≠ .noop →
      connected past i = true := fun hf hne => h.connected_of_handler hf hne
  generalize hout : s.sent env a = out at he
  cases he with
  | connect i =>
    intro j
    by_cases hj : j = i
    · subst hj
      simpa [connectedAfter, loggedInAfter, processUserConnect] using SlotOk.connect _
    · simpa [connectedAfter, loggedInAfter, processUserConnect, updateUser_other _ _ _ hj,
        Ne.symm hj] using h j
  | disconnectUnused i hstate =>
    exact absurd hstate ((h i).online halt)
  | disconnect i hstate =>
    intro j
    by_cases hj : j = i
    · subst hj
      simpa [connectedAfter, loggedInAfter, deleteUserInfo] using SlotOk.disconnect _
    · simpa [connectedAfter, loggedInAfter, deleteUserInfo, updateUser_other _ _ _ hj,
        Ne.symm hj] using h j
  | @loggedIn i packetId packetSize p db hf =>
    intro j
    have hc := online hf (by decide)
    by_cases hj : j = i
    · subst hj
      simpa [connectedAfter, loggedInAfter, hout] using SlotOk.login hc _ _
    · simpa [connectedAfter, loggedInAfter, hout, updateUser_other _ _ _ hj, Ne.symm hj] using h j
  | enterRefused hf | entered hf =>
    exact h.of_update rfl ((h _).enterRoom (online hf (by decide)) _) (by simp [hout])
  | leaveRefused hf | left hf =>
    exact h.of_update rfl ((h _).leaveRoom (online hf (by decide))) (by simp [hout])
  | loginRefused hf hsize hresult => exact h.of_frame rfl (by simp [hout, hresult])
  | ignored | accountCreated | lobbyInfo | roomInfo | chatRefused | chat =>
    exact h.of_frame rfl (by simp [hout])

/-! ## The table and the logged-in slots -/

/-- The dictionary maps an id to a slot exactly when the slot is logged in with it. -/
def LoginTableAgrees (env : Env δ) (past : History n m δ) (s : Server n m δ) : Prop :=
  ∀ id i, s.mUserIDDictionary id = some i ↔
    loggedIn env past i = true ∧ (s.mUserObjPool i).mUserID = id

/-- No two slots are logged in under one id. -/
def LoginsDistinct (env : Env δ) (past : History n m δ) (s : Server n m δ) : Prop :=
  ∀ i j, loggedIn env past i = true → loggedIn env past j = true →
    (s.mUserObjPool i).mUserID = (s.mUserObjPool j).mUserID → i = j

/-- A login is answered `LOGIN_USER_ALREADY` only if a slot is logged in with its id. -/
def AlreadyJustified (env : Env δ) (past : History n m δ)
    (e : Entry (Server n m δ) (Event n)) : Prop :=
  ∀ i packetId packetSize p, e.act = .frame i packetId packetSize p →
    Answered (e.pre.sent env e.act) i .ackLogin .loginUserAlready →
      ∃ j, loggedIn env past j = true ∧
        (e.pre.mUserObjPool j).mUserID = stringAt p userIdOffset

theorem LoginTableAgrees.distinct (h : s.LoginTableAgrees env past) :
    s.LoginsDistinct env past := by
  intro i j hi hj hid
  have h₁ := (h _ i).mpr ⟨hi, rfl⟩
  have h₂ := (h _ j).mpr ⟨hj, hid.symm⟩
  exact Option.some.inj (h₁.symm.trans h₂)

theorem LoginTableAgrees.alreadyJustified (h : s.LoginTableAgrees env past)
    (hstep : s.step env a = some s') : AlreadyJustified env past ⟨s, a, s'⟩ := by
  rintro i packetId packetSize p rfl hanswered
  have he := effect_of_step hstep
  generalize s.sent env (.frame i packetId packetSize p) = out at he hanswered
  cases he with
  | loginRefused hf hsize hresult halready =>
    simp only [answered_cons, sendAck_clientIndex, sendAck_answers, true_and, answered_nil,
      or_false] at hanswered
    cases hdict : s.mUserIDDictionary (stringAt p userIdOffset) with
    | none => exact absurd hdict (halready hanswered)
    | some j => exact ⟨j, (h _ j).mp hdict⟩
  | _ => simp at hanswered

/-- A disconnect of a user whose id is empty, as it is without a login, finds no
entry of another slot under the empty id. -/
def KeepsLoginTable (s : Server n m δ) : Event n → Prop
  | .disconnect i => (s.mUserObjPool i).mUserID = [] →
      s.mUserIDDictionary [] = none ∨ s.mUserIDDictionary [] = some i
  | _ => True

instance (s : Server n m δ) : DecidablePred s.KeepsLoginTable
  | .disconnect i => inferInstanceAs (Decidable ((s.mUserObjPool i).mUserID = [] →
      s.mUserIDDictionary [] = none ∨ s.mUserIDDictionary [] = some i))
  | .connect _ | .frame .. => instDecidableTrue

/-- A frame that changes neither the dictionary nor an id nor a login. -/
theorem LoginTableAgrees.of_frame (h : s.LoginTableAgrees env past) {packetId packetSize : UInt16}
    {p : Bytes} (hdict : s'.mUserIDDictionary = s.mUserIDDictionary)
    (hids : ∀ j, (s'.mUserObjPool j).mUserID = (s.mUserObjPool j).mUserID)
    (hsent : ∀ j, ¬Answered (s.sent env (.frame i packetId packetSize p)) j .ackLogin
      .loginSuccess) :
    s'.LoginTableAgrees env (past ++ [⟨s, .frame i packetId packetSize p, s'⟩]) := by
  intro id j
  rw [hdict, hids, loggedIn_snoc]
  simpa [loggedInAfter, hsent] using h id j

theorem loginTable_connect (h : s.LoginTableAgrees env past)
    (hout : loggedIn env past i = false) (s' : Server n m δ) :
    (s.processUserConnect i).LoginTableAgrees env (past ++ [⟨s, .connect i, s'⟩]) := by
  intro id j
  have hj := h id j
  rw [loggedIn_snoc]
  by_cases hji : j = i
  · subst hji
    simpa [processUserConnect, loggedInAfter, hout] using hj
  · simpa [processUserConnect, loggedInAfter, updateUser_other _ _ _ hji, Ne.symm hji] using hj

/-- `erase` removes the entry under the user's id, whoever it belongs to. -/
theorem loginTable_deleteUserInfo (h : s.LoginTableAgrees env past) (s' : Server n m δ) :
    (s.deleteUserInfo i).LoginTableAgrees env (past ++ [⟨s, .disconnect i, s'⟩]) ↔
      ∀ j, s.mUserIDDictionary (s.mUserObjPool i).mUserID = some j → j = i := by
  have hdict : ∀ id, (s.deleteUserInfo i).mUserIDDictionary id =
      if id = (s.mUserObjPool i).mUserID then none else s.mUserIDDictionary id := by
    intro id
    simp [deleteUserInfo, Function.update_apply]
  have hpool : ∀ {j}, j ≠ i → (s.deleteUserInfo i).mUserObjPool j = s.mUserObjPool j := by
    intro j hj
    simp [deleteUserInfo, updateUser_other _ _ _ hj]
  have hlogged : ∀ {j}, j ≠ i → loggedIn env (past ++ [⟨s, .disconnect i, s'⟩]) j =
      loggedIn env past j := by
    intro j hj
    simp [loggedInAfter, Ne.symm hj]
  have hself : loggedIn env (past ++ [⟨s, .disconnect i, s'⟩]) i = false := by
    simp [loggedInAfter]
  constructor
  · intro h' j hj
    by_contra hji
    have hin := (h _ j).mp hj
    have herased := (h' _ j).mpr ⟨by rw [hlogged hji, hin.1], by rw [hpool hji, hin.2]⟩
    rw [hdict, if_pos rfl] at herased
    exact nomatch herased
  · intro hcond id j
    rw [hdict]
    by_cases hji : j = i
    · subst hji
      rw [hself]
      simp only [Bool.false_eq_true, false_and, iff_false]
      split_ifs with hid
      · simp
      · intro hj
        exact hid ((h id j).mp hj).2.symm
    · rw [hlogged hji, hpool hji]
      split_ifs with hid
      · subst hid
        exact iff_of_false (by simp) fun hin => hji (hcond j ((h _ j).mpr hin))
      · exact h id j

/-- A logged-in slot finds its own entry there; a slot without a login, whose id is
empty, may find the one of whoever is logged in under the empty id. -/
theorem loginTable_disconnect (h : s.LoginTableAgrees env past) (hslots : s.SlotsOk env past)
    (s' : Server n m δ) :
    (s.deleteUserInfo i).LoginTableAgrees env (past ++ [⟨s, .disconnect i, s'⟩]) ↔
      ((s.mUserObjPool i).mUserID = [] →
        s.mUserIDDictionary [] = none ∨ s.mUserIDDictionary [] = some i) := by
  rw [loginTable_deleteUserInfo h s']
  constructor
  · intro hcond hblank
    rw [hblank] at hcond
    cases hj : s.mUserIDDictionary [] with
    | none => exact .inl rfl
    | some j => exact .inr (by rw [hcond j hj])
  · intro hcond j hj
    by_cases hlog : loggedIn env past i = true
    · have hi := (h _ i).mpr ⟨hlog, rfl⟩
      exact Option.some.inj (hj.symm.trans hi)
    · have hblank := (hslots i).blank (by simpa using hlog)
      rw [hblank] at hj
      rcases hcond hblank with hnone | hi
      · exact nomatch hj.symm.trans hnone
      · exact Option.some.inj (hj.symm.trans hi)

/-- A login under a free id adds the one entry that the new login needs. -/
theorem loginTable_login (h : s.LoginTableAgrees env past) {packetId packetSize : UInt16}
    {p : Bytes} {id : Bytes} {db : δ} (hout : loggedIn env past i = false)
    (hfree : s.mUserIDDictionary id = none) (s' : Server n m δ)
    (hsent : ∀ j, Answered (s.sent env (.frame i packetId packetSize p)) j .ackLogin
      .loginSuccess ↔ i = j) :
    ((s.recordLogin db id i).updateUser i (User.setLogin id)).LoginTableAgrees env
      (past ++ [⟨s, .frame i packetId packetSize p, s'⟩]) := by
  intro id' j
  have hj := h id' j
  simp only [loggedIn_snoc, loggedInAfter, hsent, updateUser_mUserIDDictionary,
    recordLogin_mUserIDDictionary, Function.update_apply]
  by_cases hji : j = i
  · subst hji
    by_cases hid : id' = id
    · simp [hid]
    · simpa [hid, hout, Ne.symm hid] using hj
  · rw [updateUser_other _ _ _ hji, recordLogin_mUserObjPool]
    by_cases hid : id' = id
    · subst hid
      simpa [hfree, Ne.symm hji] using hj
    · simpa [hid, Ne.symm hji] using hj

/-- In agreement before a step, the table agrees after it exactly if the step is not
a disconnect that erases the entry of another slot. -/
theorem LoginTableAgrees.step_iff (h : s.LoginTableAgrees env past)
    (hslots : s.SlotsOk env past) (ht : s.TablesOk) (hstep : s.step env a = some s')
    (halt : Alternates past ⟨s, a, s'⟩) :
    s'.LoginTableAgrees env (past ++ [⟨s, a, s'⟩]) ↔ s.KeepsLoginTable a := by
  have he := effect_of_step hstep
  generalize hout : s.sent env a = out at he
  cases he with
  | connect i =>
    exact iff_of_true (loginTable_connect h ((hslots i).offline halt).2 _) trivial
  | disconnectUnused i hstate => exact absurd hstate ((hslots i).online halt)
  | disconnect i => exact loginTable_disconnect h hslots _
  | @loggedIn i packetId packetSize p db hf hsize hfree hdb =>
    have hlog : loggedIn env past i = false := by
      by_contra hin
      have hstate := ht.mState_of_handler hf rfl
      rcases (hslots i).inside (by simpa using hin) with hlobby | hroom
      · exact absurd (hstate.symm.trans hlobby) (by decide)
      · exact absurd (hstate.symm.trans hroom) (by decide)
    exact iff_of_true (loginTable_login h hlog hfree _ (by simp [hout])) trivial
  | enterRefused =>
    exact iff_of_true (h.of_frame rfl (updateUser_mUserID (by simp)) (by simp [hout])) trivial
  | entered =>
    refine iff_of_true (h.of_frame rfl ?_ (by simp [hout])) trivial
    exact updateUser_mUserID (s := s.setRoom _ _ _) (by simp)
  | leaveRefused =>
    exact iff_of_true (h.of_frame rfl (updateUser_mUserID (by simp)) (by simp [hout])) trivial
  | left =>
    refine iff_of_true (h.of_frame rfl ?_ (by simp [hout])) trivial
    exact updateUser_mUserID (s := s.setRoom _ _ _) (by simp)
  | loginRefused hf hsize hresult =>
    exact iff_of_true (h.of_frame rfl (fun _ => rfl) (by simp [hout, hresult])) trivial
  | ignored | accountCreated | lobbyInfo | roomInfo | chatRefused | chat =>
    exact iff_of_true (h.of_frame rfl (fun _ => rfl) (by simp [hout])) trivial

/-- The login table is right after an entry, and the entry's answer was justified. -/
def LoginTableRight (env : Env δ) (past : History n m δ) (e : Entry (Server n m δ) (Event n)) :
    Prop :=
  e.post.LoginTableAgrees env (past ++ [e]) ∧ e.post.LoginsDistinct env (past ++ [e]) ∧
    AlreadyJustified env past e

/-- Over every run in which the system events of each slot alternate, the table is
the table of the logged-in slots in all states, no two slots share an id and every
`LOGIN_USER_ALREADY` is justified, exactly when no disconnect of a slot that is not
logged in finds another slot's entry under the empty id. -/
theorem login_table_right_iff (env : Env δ) (n : ℕ)
    (beginRoomNumber maxRoomCount maxRoomUserCount : Int32) (mem : Fin n → ℕ → UInt8) (db : δ)
    {past : History n maxRoomCount.toNatClampNeg δ} {s : Server n maxRoomCount.toNatClampNeg δ}
    (run : Run (step env) (init n beginRoomNumber maxRoomCount maxRoomUserCount mem db) past s)
    (alternates : AtEach Alternates past) :
    ((init n beginRoomNumber maxRoomCount maxRoomUserCount mem db).LoginTableAgrees env [] ∧
        AtEach (LoginTableRight env) past) ↔
      ∀ e ∈ past, e.pre.KeepsLoginTable e.act := by
  have hinit : (init n beginRoomNumber maxRoomCount maxRoomUserCount mem db).LoginTableAgrees
      env [] := fun id i => iff_of_false (fun h => nomatch h) fun h => nomatch h.1
  have hslots : (init n beginRoomNumber maxRoomCount maxRoomUserCount mem db).SlotsOk env [] :=
    fun i => SlotOk.init (mem i)
  have htables := init_tablesOk n beginRoomNumber maxRoomCount maxRoomUserCount mem db
  rw [and_iff_right hinit, ← atEach_const]
  refine run.exact_iff (A := Alternates)
    (I := fun past s => s.LoginTableAgrees env past ∧ s.SlotsOk env past ∧ s.TablesOk)
    ⟨hinit, hslots, htables⟩ ?_ ?_ alternates
  · intro past s a s' ⟨h, hs, ht⟩ hstep halt hkeep
    exact ⟨(h.step_iff hs ht hstep halt).mpr hkeep, hs.step hstep halt, ht.step hstep⟩
  · intro past s a s' ⟨h, hs, ht⟩ hstep halt
    rw [← h.step_iff hs ht hstep halt]
    exact ⟨fun hright => hright.1, fun h' => ⟨h', h'.distinct, h.alreadyJustified hstep⟩⟩

/-- Two slots log in, the second one also tries the id of the first, and both
disconnect. -/
theorem login_table_right_for_two_users : ∃ past s,
    Run (step acceptingEnv) (init 2 0 10 4 (fun _ _ => 0) ()) past s ∧ past.length = 7 ∧
      AtEach (LoginTableRight acceptingEnv) past := by
  obtain ⟨past, s, run, h⟩ := exists_run (step acceptingEnv) (init 2 0 10 4 (fun _ _ => 0) ())
    [.connect 0, .connect 1, .request 0 .reqLogin (reqLoginBody [65] [66]),
      .request 1 .reqLogin (reqLoginBody [65] [66]), .request 1 .reqLogin (reqLoginBody [67] [66]),
      .disconnect 0, .disconnect 1]
    (fun past _ => past.length = 7 ∧ AtEach Alternates past ∧
      ∀ e ∈ past, e.pre.KeepsLoginTable e.act) (by decide +kernel)
  rcases of_decide_eq_true h with ⟨hlength, halt, hkeep⟩
  exact ⟨past, s, run, hlength,
    ((login_table_right_iff acceptingEnv 2 0 10 4 _ () run halt).mpr hkeep).2⟩

/-- Slot 0 logs in with the empty id. Slot 1 connects and disconnects without a login,
and takes slot 0 out of the table. -/
theorem unused_connection_erases_empty_id : ∃ past s,
    Run (step acceptingEnv) (init 2 0 10 4 (fun _ _ => 0) ()) past s ∧
      AtEach Alternates past ∧ ¬s.LoginTableAgrees acceptingEnv past := by
  obtain ⟨past, s, run, h⟩ := exists_run (step acceptingEnv) (init 2 0 10 4 (fun _ _ => 0) ())
    [.connect 0, .request 0 .reqLogin (reqLoginBody [] [66]), .connect 1, .disconnect 1]
    (fun past s => AtEach Alternates past ∧ s.mUserIDDictionary [] = none ∧
      loggedIn acceptingEnv past 0 = true ∧ (s.mUserObjPool 0).mUserID = []) (by decide +kernel)
  rcases of_decide_eq_true h with ⟨halt, hnone, hlogged, hid⟩
  refine ⟨past, s, run, halt, fun hagrees => ?_⟩
  exact nomatch hnone.symm.trans ((hagrees [] 0).mpr ⟨hlogged, hid⟩)

end ChatServer.Server
