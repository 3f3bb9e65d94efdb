import ChatServer.Server.Effect
import Mathlib.Data.List.TakeWhile

/-! # The account database

All calls use one statement handle. `usp_Account_Create` ends with a select, so a
successful creation leaves a result set open; `CreateAccount` does not close it, and
`SQLExecDirect` fails on a handle whose result set is open. For a taken id the
procedure returns status 1, which is not an error of the call.
-/

namespace ChatServer

/-- A value of an `NVARCHAR` column -/
abbrev NVarChar := List UInt16

/-- `dbo.Account`: the password by `LoginID`, which is the primary key. -/
abbrev AccountTable := NVarChar → Option NVarChar

def maxColumnLength : ℕ := 10

/-- A `SQL_C_CHAR` parameter as the column stores it, character by character. -/
def widen (s : Bytes) : NVarChar := s.map UInt8.toUInt16

/-- `std::string(ws.begin(), ws.end())` -/
def narrow (ws : NVarChar) : Bytes := ws.map UInt16.toUInt8

/-- `usp_Account_Select`, with the third column of the rows. -/
def uspAccountSelect (account : AccountTable) (loginID : NVarChar) : List NVarChar :=
  (account loginID).toList

/-- `usp_Account_Create`: the table after it and its result set, if it returns one, or
`none` when it throws. -/
def uspAccountCreate (account : AccountTable) (loginID password : NVarChar) :
    Option (AccountTable × Option (List NVarChar)) :=
  if loginID.length > maxColumnLength ∨ password.length > maxColumnLength then none
  else
    match account loginID with
    | some _ => some (account, none)
    | none =>
      let account := Function.update account loginID (some password)
      some (account, some (uspAccountSelect account loginID))

/-- `SQLRETURN`, as far as the calls distinguish it. -/
inductive SqlReturn where
  | success | successWithInfo | error
  deriving DecidableEq, Repr

/-- The database and the statement handle `hstmt` with its open result set. -/
structure Statement where
  account : AccountTable
  resultSet : Option (List NVarChar)

namespace Statement
open Recorded

/-- `SQLExecDirect`; an open result set is an invalid cursor state. -/
def execDirect (s : Statement)
    (call : AccountTable → Option (AccountTable × Option (List NVarChar))) :
    SqlReturn × Statement :=
  match s.resultSet with
  | some _ => (.error, s)
  | none =>
    match call s.account with
    | none => (.error, s)
    | some (account, resultSet) => (.success, { account := account, resultSet := resultSet })

/-- `SQLFreeStmt` with `SQL_CLOSE` -/
def freeStmt (s : Statement) : Statement := { s with resultSet := none }

@[simp] theorem freeStmt_resultSet (s : Statement) : s.freeStmt.resultSet = none := rfl
@[simp] theorem freeStmt_account (s : Statement) : s.freeStmt.account = s.account := rfl

/-- `AccountDB::CreateAccount`; the handle is left as the call leaves it. -/
def createAccount (s : Statement) (id pw : Bytes) : Bool × Statement :=
  let (ret, s) := s.execDirect fun account => uspAccountCreate account (widen id) (widen pw)
  if ret = .success ∨ ret = .successWithInfo then (true, s) else (false, s)

/-- `SQLGetData` into ten wide characters, the last of which is the terminator, and the
string built from them. -/
def getData (password : NVarChar) : Bytes :=
  narrow ((password.take 9).takeWhile (· ≠ 0))

/-- The loop over `SQLFetch` -/
def fetchLoop (pw : Bytes) : List NVarChar → Bool
  | [] => false
  | password :: rest => if getData password = pw then true else fetchLoop pw rest

/-- `AccountDB::SelectAccount` -/
def selectAccount (s : Statement) (id pw : Bytes) : Bool × Statement :=
  let (ret, s) := s.execDirect fun account =>
    some (account, some (uspAccountSelect account (widen id)))
  if ret = .success ∨ ret = .successWithInfo then
    (fetchLoop pw (s.resultSet.getD []), s.freeStmt)
  else (false, s.freeStmt)

/-- The account database that the server runs on. -/
def accountDB : AccountDB Statement where
  createAccount := createAccount
  selectAccount := selectAccount

/-! ## What each call does -/

variable {s : Statement} {id pw : Bytes}

theorem uspAccountCreate_of_short (account : AccountTable) (hid : id.length ≤ maxColumnLength)
    (hpw : pw.length ≤ maxColumnLength) :
    uspAccountCreate account (widen id) (widen pw) =
      match account (widen id) with
      | some _ => some (account, none)
      | none => some (Function.update account (widen id) (some (widen pw)), some [widen pw]) := by
  have hfits : ¬((widen id).length > maxColumnLength ∨ (widen pw).length > maxColumnLength) := by
    simp only [widen, List.length_map]
    omega
  rw [uspAccountCreate, if_neg hfits]
  cases account (widen id) with
  | some _ => rfl
  | none => simp [uspAccountSelect]

theorem createAccount_of_open (h : s.resultSet ≠ none) : s.createAccount id pw = (false, s) := by
  cases hset : s.resultSet with
  | none => exact absurd hset h
  | some rows => simp [createAccount, execDirect, hset]

/-- Status 1 is reported as success. -/
theorem createAccount_of_taken (h : s.resultSet = none) (hid : id.length ≤ maxColumnLength)
    (hpw : pw.length ≤ maxColumnLength) (htaken : s.account (widen id) ≠ none) :
    s.createAccount id pw = (true, s.freeStmt) := by
  cases hrow : s.account (widen id) with
  | none => exact absurd hrow htaken
  | some password =>
    simp only [createAccount, execDirect, h, uspAccountCreate_of_short _ hid hpw, hrow]
    rfl

theorem createAccount_of_free (h : s.resultSet = none) (hid : id.length ≤ maxColumnLength)
    (hpw : pw.length ≤ maxColumnLength) (hfree : s.account (widen id) = none) :
    s.createAccount id pw = (true,
      { account := Function.update s.account (widen id) (some (widen pw))
        resultSet := some [widen pw] }) := by
  simp only [createAccount, execDirect, h, uspAccountCreate_of_short _ hid hpw, hfree]
  rfl

/-- A row of the id has the password, as far as it is fetched. -/
def Matches (account : AccountTable) (id pw : Bytes) : Prop :=
  ∃ password, account (widen id) = some password ∧ getData password = pw

instance (account : AccountTable) (id pw : Bytes) : Decidable (Matches account id pw) :=
  match h : account (widen id) with
  | none => isFalse fun ⟨_, hrow, _⟩ => nomatch h.symm.trans hrow
  | some password =>
    decidable_of_iff (getData password = pw)
      ⟨fun hpw => ⟨password, h, hpw⟩, fun ⟨_, hrow, hpw⟩ =>
        Option.some.inj (h.symm.trans hrow) ▸ hpw⟩

theorem fetchLoop_uspAccountSelect (account : AccountTable) :
    fetchLoop pw (uspAccountSelect account (widen id)) = decide (Matches account id pw) := by
  cases hrow : account (widen id) with
  | none => simp [uspAccountSelect, hrow, fetchLoop, Matches]
  | some password => simp [uspAccountSelect, hrow, fetchLoop, Matches]

theorem selectAccount_of_open (h : s.resultSet ≠ none) :
    s.selectAccount id pw = (false, s.freeStmt) := by
  cases hset : s.resultSet with
  | none => exact absurd hset h
  | some rows => simp [selectAccount, execDirect, hset]

theorem selectAccount_of_closed (h : s.resultSet = none) :
    s.selectAccount id pw = (decide (Matches s.account id pw), s.freeStmt) := by
  simp only [selectAccount, execDirect, h, true_or, if_true, Option.getD_some,
    fetchLoop_uspAccountSelect]
  rfl

/-! ## The password check

The fetch buffer has ten units with its terminator, one less than a column value may
have, and the fetched units are cut to bytes.
-/

@[simp] theorem narrow_widen (pw : Bytes) : narrow (widen pw) = pw := by
  induction pw with
  | nil => rfl
  | cons c pw ih =>
    simp only [narrow, widen, List.map_cons, UInt8.toUInt8_toUInt16] at ih ⊢
    rw [ih]

theorem widen_narrow_iff (ws : NVarChar) : widen (narrow ws) = ws ↔ ∀ u ∈ ws, u < 256 := by
  have hunit (u : UInt16) : u.toUInt8.toUInt16 = u ↔ u < 256 := by
    rw [← UInt16.toNat_inj, UInt16.lt_iff_toNat_lt, UInt8.toNat_toUInt16, UInt16.toNat_toUInt8]
    exact Nat.mod_eq_iff_lt (by decide)
  induction ws with
  | nil => exact iff_of_true rfl (by simp)
  | cons u ws ih =>
    simp only [widen, narrow] at ih ⊢
    simp only [List.map_cons, List.cons.injEq, hunit, ih, List.forall_mem_cons]

/-- The values that come back from the column whole. -/
theorem widen_getData_iff (stored : NVarChar) :
    widen (getData stored) = stored ↔ stored.length ≤ 9 ∧ ∀ u ∈ stored, u ≠ 0 ∧ u < 256 := by
  have hfetched : ((stored.take 9).takeWhile (· ≠ 0)).length ≤ (stored.take 9).length :=
    (List.takeWhile_sublist _).length_le
  constructor
  · intro h
    have hlength := congrArg List.length h
    simp only [getData, widen, narrow, List.length_map] at hlength
    have hshort : stored.length ≤ 9 := by
      rw [List.length_take] at hfetched
      omega
    rw [getData, List.take_of_length_le hshort] at h
    rw [List.take_of_length_le hshort] at hlength
    have hwhole := (List.takeWhile_prefix _).eq_of_length hlength
    rw [hwhole, widen_narrow_iff] at h
    have hnonzero := List.takeWhile_eq_self_iff.mp hwhole
    exact ⟨hshort, fun u hu => ⟨of_decide_eq_true (hnonzero u hu), h u hu⟩⟩
  · rintro ⟨hshort, hunits⟩
    have hwhole : stored.takeWhile (· ≠ 0) = stored :=
      List.takeWhile_eq_self_iff.mpr fun u hu => decide_eq_true (hunits u hu).1
    rw [getData, List.take_of_length_le hshort, hwhole, widen_narrow_iff]
    exact fun u hu => (hunits u hu).2

/-- Exactly the stored password is accepted. On a closed handle this is so for the
passwords of at most 9 units, all of them nonzero bytes; on an open one, where nothing
is accepted, for those that no byte string spells. -/
theorem password_check_exact_iff {stored : NVarChar} (hrow : s.account (widen id) = some stored) :
    (∀ pw, (s.selectAccount id pw).1 = true ↔ widen pw = stored) ↔
      if s.resultSet = none then stored.length ≤ 9 ∧ ∀ u ∈ stored, u ≠ 0 ∧ u < 256
      else ∃ u ∈ stored, 256 ≤ u := by
  by_cases hset : s.resultSet = none
  · have haccepted (pw : Bytes) : (s.selectAccount id pw).1 = true ↔ getData stored = pw := by
      simp [selectAccount_of_closed hset, Matches, hrow]
    simp only [haccepted, if_pos hset, ← widen_getData_iff]
    constructor
    · exact fun h => (h _).mp rfl
    · intro h pw
      constructor
      · exact fun hpw => hpw ▸ h
      · intro hpw
        rw [← narrow_widen pw, hpw, ← h, narrow_widen, h]
  · simp only [selectAccount_of_open hset, Bool.false_eq_true, false_iff, if_neg hset]
    constructor
    · intro h
      by_contra hbytes
      push Not at hbytes
      refine h _ ((widen_narrow_iff stored).mpr fun u hu => ?_)
      exact UInt16.not_le.mp (hbytes u hu)
    · rintro ⟨u, hu, hwide⟩ pw hpw
      rw [← hpw] at hu
      have hbytes := (widen_narrow_iff (widen pw)).mp (by rw [narrow_widen]) u hu
      exact absurd hbytes (UInt16.not_lt.mpr hwide)

/-- The one row of the table has the password 1234. -/
theorem password_check_exact_for_four :
    let s : Statement := ⟨fun id => if id = [65] then some [49, 50, 51, 52] else none, none⟩
    (∀ pw, (s.selectAccount [65] pw).1 = true ↔ widen pw = [49, 50, 51, 52]) ∧
      (s.selectAccount [65] [49, 50, 51, 52]).1 = true := by
  constructor
  · apply (password_check_exact_iff rfl).mpr
    simp
  · decide

/-- The row of A has ten characters. They are rejected, and the first nine of them are
accepted. -/
theorem nine_of_ten_characters_accepted :
    let digits : Bytes := [48, 49, 50, 51, 52, 53, 54, 55, 56, 57]
    let s : Statement := ⟨fun id => if id = [65] then some (widen digits) else none, none⟩
    s.account (widen [65]) = some (widen digits) ∧ (widen digits).length ≤ maxColumnLength ∧
      (s.selectAccount [65] digits).1 = false ∧
      (s.selectAccount [65] (digits.take 9)).1 = true ∧
      ¬∀ pw, (s.selectAccount [65] pw).1 = true ↔ widen pw = widen digits := by
  refine ⟨by decide, by decide, by decide, by decide, fun h => ?_⟩
  exact absurd ((h [48, 49, 50, 51, 52, 53, 54, 55, 56, 57]).mpr rfl) (by decide)

/-! ## Sequences of calls -/

/-- A call of either function -/
inductive Call where
  | create (id pw : Bytes)
  | select (id pw : Bytes)

def call (s : Statement) : Call → Bool × Statement
  | .create id pw => s.createAccount id pw
  | .select id pw => s.selectAccount id pw

def step (s : Statement) (c : Call) : Option Statement := some (s.call c).2

/-- Both arguments have at most 10 characters. -/
def Call.Short : Call → Prop
  | create id pw | select id pw => id.length ≤ maxColumnLength ∧ pw.length ≤ maxColumnLength

instance : DecidablePred Call.Short
  | .create .. | .select .. => instDecidableAnd

/-- A creation succeeds exactly if its id had no row and now has one with the password. -/
def CreationReported (s : Statement) : Call → Prop
  | .create id pw => (s.createAccount id pw).1 = true ↔
      s.account (widen id) = none ∧
        (s.createAccount id pw).2.account (widen id) = some (widen pw)
  | .select .. => True

/-- The result is the one on a fresh handle over the same table. -/
def HistoryFree (s : Statement) (c : Call) : Prop := (s.call c).1 = (s.freeStmt.call c).1

/-- What a call needs: for a creation a closed handle and a free id, for a select a
closed handle or no row to be found. -/
def Reports (s : Statement) : Call → Prop
  | .create id _ => s.resultSet = none ∧ s.account (widen id) = none
  | .select id pw => s.resultSet = none ∨ ¬Matches s.account id pw

instance (s : Statement) : DecidablePred s.Reports
  | .create .. => instDecidableAnd
  | .select .. => instDecidableOr

theorem create_right_iff (hid : id.length ≤ maxColumnLength) (hpw : pw.length ≤ maxColumnLength) :
    s.CreationReported (.create id pw) ∧ s.HistoryFree (.create id pw) ↔
      s.Reports (.create id pw) := by
  simp only [CreationReported, HistoryFree, Reports, call]
  have hfresh : (s.freeStmt.createAccount id pw).1 = true := by
    by_cases hrow : s.freeStmt.account (widen id) = none
    · rw [createAccount_of_free s.freeStmt_resultSet hid hpw hrow]
    · rw [createAccount_of_taken s.freeStmt_resultSet hid hpw hrow]
  rw [hfresh]
  by_cases hset : s.resultSet = none
  · by_cases hrow : s.account (widen id) = none
    · rw [createAccount_of_free hset hid hpw hrow]
      simp [hset, hrow]
    · rw [createAccount_of_taken hset hid hpw hrow]
      simp [hrow]
  · rw [createAccount_of_open hset]
    simp [hset]

theorem select_right_iff : s.HistoryFree (.select id pw) ↔ s.Reports (.select id pw) := by
  simp only [HistoryFree, Reports, call]
  rw [selectAccount_of_closed s.freeStmt_resultSet]
  by_cases hset : s.resultSet = none
  · rw [selectAccount_of_closed hset]
    exact iff_of_true rfl (.inl hset)
  · rw [selectAccount_of_open hset, freeStmt_account, eq_comm, decide_eq_false_iff_not]
    simp [hset]

theorem call_right_iff {c : Call} (hshort : c.Short) :
    s.CreationReported c ∧ s.HistoryFree c ↔ s.Reports c := by
  cases c with
  | create id pw => exact create_right_iff hshort.1 hshort.2
  | select id pw =>
    rw [← select_right_iff]
    exact and_iff_right trivial

/-- Over every sequence of calls with arguments of at most 10 characters, all creations
are reported as they are and all results are free of history exactly when every
creation meets a closed handle and a free id, and every select a closed handle or no
row with its password. -/
theorem account_calls_right_iff (account : AccountTable) {past : List (Entry Statement Call)}
    {s : Statement} (run : Run step { account := account, resultSet := none } past s)
    (short : ∀ e ∈ past, e.act.Short) :
    (∀ e ∈ past, e.pre.CreationReported e.act ∧ e.pre.HistoryFree e.act) ↔
      ∀ e ∈ past, e.pre.Reports e.act := by
  rw [← atEach_const, ← atEach_const]
  refine run.exact_iff (A := fun _ e => e.act.Short) (I := fun _ _ => True) trivial
    (fun _ _ _ _ _ _ _ _ => trivial) ?_ (atEach_const.mpr short)
  intro past s c s' _ _ hshort
  exact call_right_iff hshort

/-- A table with one row. A select finds it, a creation adds a second row, a select with
a wrong password comes to the open handle, and a creation adds a third row. -/
theorem account_calls_right_for_new_ids : ∃ past s,
    Run step { account := fun id => if id = [67] then some [68] else none, resultSet := none }
      past s ∧ past.length = 4 ∧
      ∀ e ∈ past, e.pre.CreationReported e.act ∧ e.pre.HistoryFree e.act := by
  obtain ⟨past, s, run, h⟩ := exists_run step
    { account := fun id => if id = [67] then some [68] else none, resultSet := none }
    [.select [67] [68], .create [65] [49], .select [65] [50], .create [66] [49]]
    (fun past _ => past.length = 4 ∧ (∀ e ∈ past, e.act.Short) ∧
      ∀ e ∈ past, e.pre.Reports e.act) (by decide +kernel)
  rcases of_decide_eq_true h with ⟨hlength, hshort, hcond⟩
  exact ⟨past, s, run, hlength, (account_calls_right_iff _ run hshort).mpr hcond⟩

/-- On an empty table: the account A is created, the creation of B fails on the open
result set, and after a select the second creation of A succeeds. -/
theorem creation_depends_on_handle : ∃ past s,
    Run step { account := fun _ => none, resultSet := none } past s ∧
      (∀ e ∈ past, e.act.Short) ∧
      (past.map fun e => (e.pre.call e.act).1) = [true, false, false, true] ∧
      ¬∀ e ∈ past, e.pre.CreationReported e.act ∧ e.pre.HistoryFree e.act := by
  obtain ⟨past, s, run, h⟩ := exists_run step { account := fun _ => none, resultSet := none }
    [.create [65] [49], .create [66] [49], .select [65] [49], .create [65] [50]]
    (fun past _ => (∀ e ∈ past, e.act.Short) ∧
      (past.map fun e => (e.pre.call e.act).1) = [true, false, false, true] ∧
      ∃ e ∈ past, (e.pre.call e.act).1 = false ∧ (e.pre.freeStmt.call e.act).1 = true)
    (by decide +kernel)
  rcases of_decide_eq_true h with ⟨hshort, hresults, e, he, hfalse, htrue⟩
  refine ⟨past, s, run, hshort, hresults, fun hall => ?_⟩
  exact absurd (hfalse.symm.trans ((hall e he).2.trans htrue)) (by decide)

end Statement

/-- The answer to a creation request is the result of `CreateAccount`. -/
theorem Server.createAccount_answered {n m : ℕ} {env : Env Statement} {s : Server n m Statement}
    (hdb : env.toAccountDB = Statement.accountDB) (i : Fin n) {packetSize : UInt16} {p : Bytes}
    (hsize : packetSize.toNat = reqCreateAccountPacketSize) :
    Answered (s.processCreateAccount env i packetSize p).2 i .ackCreateAccount .none ↔
      (s.mAccountDB.createAccount (stringAt p userIdOffset) (stringAt p userPwOffset)).1 =
        true := by
  simp only [processCreateAccount, hsize, ne_eq, not_true_eq_false, if_false, createAccount, hdb,
    Statement.accountDB, answered_cons, sendAck_clientIndex, sendAck_answers, true_and,
    answered_nil, or_false]
  split_ifs with hcreated
  · exact iff_of_true rfl hcreated
  · exact iff_of_false (by decide) hcreated

end ChatServer
