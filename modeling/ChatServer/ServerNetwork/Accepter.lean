import ChatServer.Library.Run

/-! # The reuse of slots

`AccepterThread` posts an accept on a slot without a socket as soon as the time in
`mLatestClosedTimeSec` is more than three seconds back. `PostAccept` sets that time to
`UINT32_MAX`, and nothing sets it afterwards.
-/

namespace ChatServer.Network
open Recorded

/-- The fields of a `ClientInfo` on which its reuse depends; `none` is `INVALID_SOCKET`. -/
structure ClientInfo where
  mSock : Option ℕ
  mLatestClosedTimeSec : UInt64
  deriving DecidableEq

/-- `UINT32_MAX` -/
def uint32Max : UInt64 := 4294967295

/-- `RE_USE_SESSION_WAIT_TIMESEC` -/
def reUseSessionWaitTimeSec : UInt64 := 3

namespace ClientInfo

def init : ClientInfo := { mSock := none, mLatestClosedTimeSec := 0 }

def isConnected (c : ClientInfo) : Bool := c.mSock ≠ none

/-- `ClientInfo::PostAccept` with what `WSASocket` returns, and whether `AcceptEx` takes
the request. The time it is given is not used. -/
def postAccept (c : ClientInfo) (wsaSocket : Option ℕ) (acceptEx : Bool)
    (_curTimeSec : UInt64) : ClientInfo × Bool :=
  let c := { c with mLatestClosedTimeSec := uint32Max }
  let c := { c with mSock := wsaSocket }
  if c.mSock = none then (c, false)
  else if acceptEx = false then (c, false)
  else (c, true)

/-- `ClientInfo::Close` -/
def close (c : ClientInfo) : ClientInfo := { c with mSock := none }

/-- The tests in the loop of `AccepterThread` before the call of `PostAccept` -/
def accepterTest (c : ClientInfo) (curTimeSec : Int64) : Bool :=
  if c.isConnected then false
  else if curTimeSec.toUInt64 < c.mLatestClosedTimeSec then false
  else
    let diff := curTimeSec.toUInt64 - c.mLatestClosedTimeSec
    if diff ≤ reUseSessionWaitTimeSec then false else true

end ClientInfo

/-- What the system answers to one call of `PostAccept` -/
structure PostResult where
  wsaSocket : Option ℕ
  acceptEx : Bool

/-- A `ClientInfo` with what the system knows about it: whether `mSock` waits in
`AcceptEx` or has an open connection, and how many accepts were posted and have not
completed. The last two fields are the time of the last close, and of the last close or
failed post. -/
structure Slot where
  client : ClientInfo
  waiting : Bool
  established : Bool
  accepts : ℕ
  lastClosed : Option Int64
  lastFreed : Option Int64

namespace Slot

def init : Slot :=
  { client := .init, waiting := false, established := false, accepts := 0
    lastClosed := none, lastFreed := none }

/-- What the loop of `AccepterThread` does for one client -/
def accepter (s : Slot) (curTimeSec : Int64) (r : PostResult) : Slot :=
  if s.client.accepterTest curTimeSec then
    match s.client.postAccept r.wsaSocket r.acceptEx curTimeSec.toUInt64 with
    | (client, true) =>
      { s with client, waiting := true, established := false, accepts := s.accepts + 1 }
    | (client, false) =>
      { s with client, waiting := false, established := false, lastFreed := some curTimeSec }
  else s

/-- `IOCPServer::CloseSocket` at the given time. An accept that waits on the socket is
still to complete. -/
def closeSocket (s : Slot) (time : Int64) : Slot :=
  { s with
    client := s.client.close, waiting := false, established := false
    lastClosed := some time, lastFreed := some time }

/-- A completed accept, with the result of `AcceptCompletion` -/
def acceptCompletion (s : Slot) (time : Int64) (ok : Bool) : Option Slot :=
  if s.waiting then
    let s := { s with waiting := false, established := true, accepts := s.accepts - 1 }
    some (if ok then s else s.closeSocket time)
  else none

end Slot

/-- The slots and the last reading of the clock -/
structure Slots (n : ℕ) where
  now : Int64
  slot : Fin n → Slot

/-- What happens to the slots, with the time at which it happens. A close may come for any
slot at any time. -/
inductive SlotEvent (n : ℕ) where
  | accepterThread (curTimeSec : Int64) (results : Fin n → PostResult)
  | acceptCompletion (time : Int64) (i : Fin n) (ok : Bool)
  | closeSocket (time : Int64) (i : Fin n)

def SlotEvent.time {n : ℕ} : SlotEvent n → Int64
  | .accepterThread curTimeSec _ => curTimeSec
  | .acceptCompletion time _ _ => time
  | .closeSocket time _ => time

namespace Slots
variable {n : ℕ}

def init (n : ℕ) (now : Int64) : Slots n := { now := now, slot := fun _ => .init }

/-- The clock does not go back. -/
def step (s : Slots n) (e : SlotEvent n) : Option (Slots n) :=
  if e.time < s.now then none
  else
    match e with
    | .accepterThread curTimeSec results =>
      some { now := curTimeSec, slot := fun i => (s.slot i).accepter curTimeSec (results i) }
    | .acceptCompletion time i ok =>
      ((s.slot i).acceptCompletion time ok).map fun slot =>
        { now := time, slot := Function.update s.slot i slot }
    | .closeSocket time i =>
      some { now := time, slot := Function.update s.slot i ((s.slot i).closeSocket time) }

end Slots

/-- From now on a pass calls `PostAccept` on the slot when the slot was freed more than
three seconds before, and does not within three seconds of a close. -/
structure Slot.ReusedInTime (s : Slot) (now : Int64) : Prop where
  available : ∀ freed t, s.lastFreed = some freed → now ≤ t →
    freed.toInt + 3 < t.toInt → s.client.accepterTest t = true
  waits : ∀ closed t, s.lastClosed = some closed → now ≤ t →
    t.toInt ≤ closed.toInt + 3 → s.client.accepterTest t = false

/-- The slot is reused in time if it has no open connection and no accept outstanding. -/
def Slot.FreeInTime (s : Slot) (now : Int64) : Prop :=
  s.established = false → s.accepts = 0 → s.ReusedInTime now

def Slots.FreeInTime {n : ℕ} (s : Slots n) : Prop := ∀ i, (s.slot i).FreeInTime s.now

/-! ## When the slots are reused in time -/

/-- At a close `mLatestClosedTimeSec` happens to hold the time of the close. -/
def Slot.StampedAt (s : Slot) (time : Int64) : Prop :=
  time.toInt = s.client.mLatestClosedTimeSec.toNat

/-- A failed post does no harm: the clock has reached `UINT32_MAX` when `WSASocket` fails,
or ends within three seconds when `AcceptEx` fails. -/
def PostResult.Harmless (r : PostResult) (curTimeSec : Int64) : Prop :=
  match r.wsaSocket, r.acceptEx with
  | none, _ => 4294967295 ≤ curTimeSec.toInt
  | some _, false => 9223372036854775804 ≤ curTimeSec.toInt
  | some _, true => True

/-- Slot `i` has an accept outstanding afterwards, or its failed post is harmless and its
close is stamped. -/
def Slot.KeepsTime {n : ℕ} (s : Slot) (i : Fin n) : SlotEvent n → Prop
  | .accepterThread curTimeSec results => s.accepts = 0 →
      s.client.accepterTest curTimeSec = true → (results i).Harmless curTimeSec
  | .acceptCompletion time j ok => j = i → ok = false → s.accepts ≤ 1 → s.StampedAt time
  | .closeSocket time j => j = i → s.accepts = 0 → s.StampedAt time

def Slots.KeepsTime {n : ℕ} (s : Slots n) (e : SlotEvent n) : Prop :=
  ∀ i, (s.slot i).KeepsTime i e

instance (s : Slot) (time : Int64) : Decidable (s.StampedAt time) :=
  inferInstanceAs (Decidable (time.toInt = s.client.mLatestClosedTimeSec.toNat))

instance : ∀ (r : PostResult) (curTimeSec : Int64), Decidable (r.Harmless curTimeSec)
  | ⟨none, _⟩, curTimeSec => inferInstanceAs (Decidable (4294967295 ≤ curTimeSec.toInt))
  | ⟨some _, false⟩, curTimeSec =>
    inferInstanceAs (Decidable (9223372036854775804 ≤ curTimeSec.toInt))
  | ⟨some _, true⟩, _ => instDecidableTrue

instance {n : ℕ} (s : Slot) (i : Fin n) : ∀ e : SlotEvent n, Decidable (s.KeepsTime i e)
  | .accepterThread curTimeSec results => inferInstanceAs (Decidable (s.accepts = 0 →
      s.client.accepterTest curTimeSec = true → (results i).Harmless curTimeSec))
  | .acceptCompletion time j ok => inferInstanceAs (Decidable (j = i → ok = false →
      s.accepts ≤ 1 → s.StampedAt time))
  | .closeSocket time j =>
    inferInstanceAs (Decidable (j = i → s.accepts = 0 → s.StampedAt time))

instance {n : ℕ} (s : Slots n) (e : SlotEvent n) : Decidable (s.KeepsTime e) :=
  inferInstanceAs (Decidable (∀ i, (s.slot i).KeepsTime i e))

/-! ## The time tests -/

variable {c : ClientInfo} {t time : Int64}

theorem toInt_eq (t : Int64) :
    t.toInt = if t.toUInt64.toNat < 9223372036854775808 then (t.toUInt64.toNat : ℤ)
      else (t.toUInt64.toNat : ℤ) - 18446744073709551616 := by
  rw [Int64.toInt, BitVec.toInt_eq_toNat_cond, Int64.toNat_toBitVec]
  split_ifs <;> omega

/-- On a slot without a socket the tests compare the clock with `mLatestClosedTimeSec`. -/
theorem accepterTest_iff (hsock : c.mSock = none) (hlatest : c.mLatestClosedTimeSec ≤ uint32Max) :
    c.accepterTest t = true ↔
      t.toInt < 0 ∨ (c.mLatestClosedTimeSec.toNat : ℤ) + 3 < t.toInt := by
  have hlt : t.toUInt64.toNat < 2 ^ 64 := t.toUInt64.toNat_lt
  have hmax : c.mLatestClosedTimeSec.toNat ≤ 4294967295 := hlatest
  rw [toInt_eq, ClientInfo.accepterTest, ClientInfo.isConnected, hsock]
  simp only [ne_eq, not_true_eq_false, decide_false, Bool.false_eq_true, if_false]
  by_cases hbefore : t.toUInt64 < c.mLatestClosedTimeSec
  · have hbefore' : t.toUInt64.toNat < c.mLatestClosedTimeSec.toNat := hbefore
    rw [if_pos hbefore, if_pos (by omega)]
    simp only [Bool.false_eq_true, false_iff]
    omega
  · have hle : c.mLatestClosedTimeSec ≤ t.toUInt64 := UInt64.not_lt.mp hbefore
    have hle' : c.mLatestClosedTimeSec.toNat ≤ t.toUInt64.toNat := hle
    have hdiff : t.toUInt64 - c.mLatestClosedTimeSec ≤ reUseSessionWaitTimeSec ↔
        t.toUInt64.toNat ≤ c.mLatestClosedTimeSec.toNat + 3 := by
      rw [UInt64.le_iff_toNat_le, UInt64.toNat_sub_of_le _ _ hle]
      change _ ≤ 3 ↔ _
      omega
    rw [if_neg hbefore]
    by_cases hwait : t.toUInt64.toNat ≤ c.mLatestClosedTimeSec.toNat + 3
    · rw [if_pos (hdiff.mpr hwait), if_pos (by omega)]
      simp only [Bool.false_eq_true, false_iff]
      omega
    · rw [if_neg (fun h => hwait (hdiff.mp h))]
      simp only [true_iff]
      split_ifs <;> omega

/-- A slot with a socket is never reused. -/
theorem accepterTest_of_sock (hsock : c.mSock ≠ none) : c.accepterTest t = false := by
  rw [ClientInfo.accepterTest, ClientInfo.isConnected, decide_eq_true hsock]
  rfl

theorem mSock_of_accepterTest (h : c.accepterTest t = true) : c.mSock = none := by
  by_contra hsock
  rw [accepterTest_of_sock hsock] at h
  cases h

theorem toInt_lt (t : Int64) : t.toInt < 9223372036854775808 := by
  have := t.toInt_lt
  omega

theorem le_toInt (t : Int64) : -9223372036854775808 ≤ t.toInt := by
  have := t.le_toInt
  omega

/-- A reading of the clock -/
theorem exists_time {k : ℤ} (hlow : -9223372036854775808 ≤ k) (hhigh : k < 9223372036854775808) :
    ∃ t : Int64, t.toInt = k :=
  ⟨Int64.ofInt k, Int64.toInt_ofInt_of_le (by omega) (by omega)⟩

/-- After a close the slot is reused in time exactly when `mLatestClosedTimeSec` holds the
time of the close. -/
theorem closed_iff (time : Int64) (hsock : c.mSock = none)
    (hlatest : c.mLatestClosedTimeSec ≤ uint32Max) :
    (∀ t : Int64, time ≤ t → (time.toInt + 3 < t.toInt → c.accepterTest t = true) ∧
      (t.toInt ≤ time.toInt + 3 → c.accepterTest t = false)) ↔
      time.toInt = c.mLatestClosedTimeSec.toNat := by
  have hmax : c.mLatestClosedTimeSec.toNat ≤ 4294967295 := hlatest
  have hlow := le_toInt time
  have hhigh := toInt_lt time
  simp only [← Bool.not_eq_true, accepterTest_iff hsock hlatest, Int64.le_iff_toInt_le]
  constructor
  · intro h
    have hnow := (h time (by omega)).2 (by omega)
    rcases Int.lt_trichotomy time.toInt c.mLatestClosedTimeSec.toNat with hlt | heq | hgt
    · rcases exists_time (k := time.toInt + 4) (by omega) (by omega) with ⟨t, ht⟩
      have := (h t (by omega)).1 (by omega)
      omega
    · exact heq
    · rcases exists_time (k := c.mLatestClosedTimeSec.toNat + 4) (by omega) (by omega) with ⟨t, ht⟩
      have := (h t (by omega)).2 (by omega)
      omega
  · intro h t ht
    constructor
    · intro hlate
      omega
    · intro hearly
      omega

/-- After a failure of `WSASocket` the slot is available in time exactly when the clock has
reached the value that `PostAccept` leaves in `mLatestClosedTimeSec`. -/
theorem wsaSocket_failed_iff :
    (∀ t : Int64, time ≤ t → time.toInt + 3 < t.toInt →
      ({ mSock := none, mLatestClosedTimeSec := uint32Max } : ClientInfo).accepterTest t = true) ↔
      4294967295 ≤ time.toInt := by
  have hlow := le_toInt time
  have hhigh := toInt_lt time
  have hmax : uint32Max.toNat = 4294967295 := rfl
  simp only [accepterTest_iff (c := ⟨none, uint32Max⟩) rfl UInt64.le_rfl, Int64.le_iff_toInt_le,
    hmax]
  constructor
  · intro h
    by_contra hlt
    rcases exists_time (k := 4294967298) (by omega) (by omega) with ⟨t, ht⟩
    have := h t (by omega) (by omega)
    omega
  · intro h t ht hlate
    omega

/-- After a failure of `AcceptEx` the slot keeps its socket, and is available in time only
when the clock has no reading left. -/
theorem acceptEx_failed_iff (hsock : c.mSock ≠ none) :
    (∀ t : Int64, time ≤ t → time.toInt + 3 < t.toInt → c.accepterTest t = true) ↔
      9223372036854775804 ≤ time.toInt := by
  have hhigh := toInt_lt time
  have hlow := le_toInt time
  simp only [accepterTest_of_sock hsock, Int64.le_iff_toInt_le]
  constructor
  · intro h
    by_contra hlt
    rcases exists_time (k := time.toInt + 4) (by omega) (by omega) with ⟨t, ht⟩
    have := h t (by omega) (by omega)
    cases this
  · intro h t ht hlate
    have := toInt_lt t
    omega

/-! ## One step -/

variable {s : Slot} {r : PostResult} {now : Int64}

/-- What holds of every slot: the stamp is 0 or `UINT32_MAX`, and an accept or a connection
has a socket. -/
structure Slot.Sound (s : Slot) : Prop where
  stamp_le : s.client.mLatestClosedTimeSec ≤ uint32Max
  sock : s.waiting = true ∨ s.established = true → s.client.mSock ≠ none

theorem Slot.init_sound : Slot.init.Sound where
  stamp_le := by decide
  sock := by simp [init]

theorem Slot.Sound.closeSocket (h : s.Sound) : (s.closeSocket time).Sound where
  stamp_le := h.stamp_le
  sock := by simp [Slot.closeSocket]

theorem Slot.Sound.acceptCompletion {s' : Slot} {ok : Bool} (h : s.Sound)
    (hstep : s.acceptCompletion time ok = some s') : s'.Sound := by
  unfold Slot.acceptCompletion at hstep
  split_ifs at hstep with hwaiting hok
  all_goals obtain rfl := Option.some.inj hstep
  · exact ⟨h.stamp_le, fun _ => h.sock (.inl hwaiting)⟩
  · exact ⟨h.stamp_le, by simp [Slot.closeSocket]⟩

theorem Slot.Sound.accepter (h : s.Sound) : (s.accepter time r).Sound := by
  rcases r with ⟨_ | k, _ | _⟩
  all_goals
    unfold Slot.accepter
    split_ifs
    · exact ⟨UInt64.le_rfl, by simp [ClientInfo.postAccept]⟩
    · exact h

theorem Slot.FreeInTime.later (h : s.FreeInTime now) (hle : now ≤ time) : s.FreeInTime time := by
  intro hopen haccepts
  have hfree := h hopen haccepts
  exact
    { available := fun freed t hfreed ht => hfree.available freed t hfreed (Int64.le_trans hle ht)
      waits := fun closed t hclosed ht => hfree.waits closed t hclosed (Int64.le_trans hle ht) }

theorem Slot.init_freeInTime : Slot.init.FreeInTime now := by
  intro _ _
  exact { available := nofun, waits := nofun }

theorem Slot.closeSocket_freeInTime (h : s.Sound) :
    (s.closeSocket time).FreeInTime time ↔ (s.accepts = 0 → s.StampedAt time) := by
  have hiff := closed_iff (c := s.client.close) time rfl h.stamp_le
  constructor
  · intro hfree haccepts
    have hreused := hfree rfl haccepts
    exact hiff.mp fun t ht => ⟨hreused.available time t rfl ht, hreused.waits time t rfl ht⟩
  · intro hstamp _ haccepts
    have hboth := hiff.mpr (hstamp haccepts)
    constructor
    · intro freed t hfreed ht
      obtain rfl : time = freed := Option.some.inj hfreed
      exact (hboth t ht).1
    · intro closed t hclosed ht
      obtain rfl : time = closed := Option.some.inj hclosed
      exact (hboth t ht).2

theorem Slot.acceptCompletion_freeInTime {s' : Slot} {ok : Bool} (h : s.Sound)
    (hstep : s.acceptCompletion time ok = some s') :
    s'.FreeInTime time ↔ (ok = false → s.accepts ≤ 1 → s.StampedAt time) := by
  unfold acceptCompletion at hstep
  split_ifs at hstep with hwaiting hok
  all_goals obtain rfl := Option.some.inj hstep
  · constructor
    · intro _ hfails
      rw [hok] at hfails
      cases hfails
    · intro _ hopen
      cases hopen
  · have hsound : ({ s with waiting := false, established := true, accepts := s.accepts - 1 } :
        Slot).Sound := ⟨h.stamp_le, fun _ => h.sock (.inl hwaiting)⟩
    rw [closeSocket_freeInTime hsound]
    constructor
    · intro hstamp _ hone
      exact hstamp (Nat.sub_eq_zero_of_le hone)
    · intro hstamp hone
      exact hstamp (by simpa using hok) (Nat.sub_eq_zero_iff_le.mp hone)

/-- A post is made when the wait after the last close is over. -/
theorem Slot.FreeInTime.closed_lt (h : s.FreeInTime now) (hle : now ≤ time)
    (hopen : s.established = false) (haccepts : s.accepts = 0)
    (htest : s.client.accepterTest time = true) {closed : Int64}
    (hclosed : s.lastClosed = some closed) : closed.toInt + 3 < time.toInt := by
  by_contra hearly
  have := (h hopen haccepts).waits closed time hclosed hle (by omega)
  rw [htest] at this
  cases this

/-- The slot after a failed post is reused in time when it is available in time. -/
theorem Slot.FreeInTime.failed_iff {client : ClientInfo} (h : s.FreeInTime now) (hle : now ≤ time)
    (hopen : s.established = false) (htest : s.client.accepterTest time = true) :
    ({ s with client, waiting := false, established := false, lastFreed := some time } :
        Slot).FreeInTime time ↔
      (s.accepts = 0 → ∀ t : Int64, time ≤ t → time.toInt + 3 < t.toInt →
        client.accepterTest t = true) := by
  constructor
  · intro hfree haccepts t ht hlate
    exact (hfree rfl haccepts).available time t rfl ht hlate
  · intro havailable _ haccepts
    constructor
    · intro freed t hfreed ht
      obtain rfl : time = freed := Option.some.inj hfreed
      exact havailable haccepts t ht
    · intro closed t hclosed ht hearly
      have hlt := h.closed_lt hle hopen haccepts htest hclosed
      rw [Int64.le_iff_toInt_le] at ht
      omega

theorem Slot.accepter_freeInTime (h : s.Sound) (hfree : s.FreeInTime now) (hle : now ≤ time) :
    (s.accepter time r).FreeInTime time ↔
      (s.accepts = 0 → s.client.accepterTest time = true → r.Harmless time) := by
  by_cases htest : s.client.accepterTest time = true
  · have hsock := mSock_of_accepterTest htest
    have hopen : s.established = false := by
      by_contra hopen
      exact h.sock (.inr (by simpa using hopen)) hsock
    simp only [htest, forall_const]
    rcases r with ⟨_ | k, ok⟩
    · -- `WSASocket` fails
      rw [accepter, if_pos htest]
      change (Slot.mk _ _ _ _ _ _).FreeInTime time ↔ _
      rw [hfree.failed_iff hle hopen htest, wsaSocket_failed_iff]
      exact Iff.rfl
    · rw [accepter, if_pos htest]
      cases ok
      · -- `AcceptEx` fails
        change (Slot.mk _ _ _ _ _ _).FreeInTime time ↔ _
        rw [hfree.failed_iff hle hopen htest, acceptEx_failed_iff (Option.some_ne_none k)]
        exact Iff.rfl
      · -- the accept is outstanding
        constructor
        · intro _ _
          trivial
        · intro _ _ haccepts
          cases haccepts
  · rw [accepter, if_neg htest]
    constructor
    · intro _ _ hpost
      exact absurd hpost htest
    · intro _
      exact hfree.later hle

/-! ## Whole runs -/

variable {n : ℕ} {σ σ' : Slots n} {e : SlotEvent n}

/-- What an event does to slot `i` -/
inductive SlotStep (i : Fin n) (s : Slot) : SlotEvent n → Slot → Prop
  | accepter (t : Int64) (results : Fin n → PostResult) :
      SlotStep i s (.accepterThread t results) (s.accepter t (results i))
  | completion (t : Int64) (ok : Bool) {s' : Slot} (h : s.acceptCompletion t ok = some s') :
      SlotStep i s (.acceptCompletion t i ok) s'
  | close (t : Int64) : SlotStep i s (.closeSocket t i) (s.closeSocket t)
  | otherCompletion (t : Int64) (ok : Bool) {j : Fin n} (h : j ≠ i) :
      SlotStep i s (.acceptCompletion t j ok) s
  | otherClose (t : Int64) {j : Fin n} (h : j ≠ i) : SlotStep i s (.closeSocket t j) s

theorem Slots.slotStep_of_step (hstep : σ.step e = some σ') :
    σ.now ≤ e.time ∧ σ'.now = e.time ∧ ∀ i, SlotStep i (σ.slot i) e (σ'.slot i) := by
  unfold Slots.step at hstep
  split_ifs at hstep with htime
  refine ⟨Int64.not_lt.mp htime, ?_⟩
  cases e with
  | accepterThread t results =>
    obtain rfl := Option.some.inj hstep
    exact ⟨rfl, fun i => .accepter t results⟩
  | acceptCompletion t j ok =>
    rcases Option.map_eq_some_iff.mp hstep with ⟨slot, hslot, rfl⟩
    refine ⟨rfl, fun i => ?_⟩
    rcases eq_or_ne j i with rfl | hne
    · simpa using SlotStep.completion t ok hslot
    · simpa [Function.update_of_ne hne.symm] using SlotStep.otherCompletion t ok hne
  | closeSocket t j =>
    obtain rfl := Option.some.inj hstep
    refine ⟨rfl, fun i => ?_⟩
    rcases eq_or_ne j i with rfl | hne
    · simpa using SlotStep.close t
    · simpa [Function.update_of_ne hne.symm] using SlotStep.otherClose t hne

theorem Slot.Sound.step {i : Fin n} {s' : Slot} (h : s.Sound) (hstep : SlotStep i s e s') :
    s'.Sound := by
  cases hstep with
  | accepter t results => exact h.accepter
  | completion t ok hslot => exact h.acceptCompletion hslot
  | close t => exact h.closeSocket
  | otherCompletion t ok hne => exact h
  | otherClose t hne => exact h

/-- One event leaves a slot that is reused in time if and only if it keeps its time. -/
theorem Slot.FreeInTime.step_iff {i : Fin n} {s' : Slot} (hfree : s.FreeInTime now)
    (h : s.Sound) (hle : now ≤ e.time) (hstep : SlotStep i s e s') :
    s'.FreeInTime e.time ↔ s.KeepsTime i e := by
  cases hstep with
  | accepter t results => exact accepter_freeInTime h hfree hle
  | completion t ok hslot =>
    rw [SlotEvent.time, acceptCompletion_freeInTime h hslot]
    simp [KeepsTime]
  | close t =>
    rw [SlotEvent.time, closeSocket_freeInTime h]
    simp [KeepsTime]
  | otherCompletion t ok hne =>
    simp [KeepsTime, hne, hfree.later hle]
  | otherClose t hne =>
    simp [KeepsTime, hne, hfree.later hle]

/-- Over every run, the slots are reused in time after each step exactly when each failed
post is harmless and each close happens at the very second that `mLatestClosedTimeSec`
holds. -/
theorem slots_reused_iff {n : ℕ} {start : Int64} {past : List (Entry (Slots n) (SlotEvent n))}
    {σ : Slots n} (run : Run Slots.step (.init n start) past σ) :
    (∀ e ∈ past, e.post.FreeInTime) ↔ ∀ e ∈ past, e.pre.KeepsTime e.act := by
  rw [← atEach_const, ← atEach_const]
  refine run.exact_iff (A := fun _ _ => True)
    (I := fun _ s => (∀ i, (s.slot i).Sound) ∧ s.FreeInTime) ?_ ?_ ?_ (fun _ _ _ => trivial)
  · exact ⟨fun _ => Slot.init_sound, fun _ => Slot.init_freeInTime⟩
  · intro past s e s' hI hstep _ hkeeps
    rcases Slots.slotStep_of_step hstep with ⟨hle, hnow, hslots⟩
    refine ⟨fun i => (hI.1 i).step (hslots i), fun i => ?_⟩
    rw [hnow]
    exact ((hI.2 i).step_iff (hI.1 i) hle (hslots i)).mpr (hkeeps i)
  · intro past s e s' hI hstep _
    rcases Slots.slotStep_of_step hstep with ⟨hle, hnow, hslots⟩
    refine forall_congr' fun i => ?_
    rw [hnow]
    exact (hI.2 i).step_iff (hI.1 i) hle (hslots i)

/-- A connection that is closed at second `UINT32_MAX` -/
theorem slot_reused_after_close : ∃ past σ,
    Run Slots.step (.init 1 4) past σ ∧ (σ.slot 0).lastClosed = some 4294967295 ∧
      (∀ e ∈ past, e.post.FreeInTime) := by
  obtain ⟨past, σ, run, h⟩ := exists_run Slots.step (.init 1 4)
    [.accepterThread 4 fun _ => { wsaSocket := some 0, acceptEx := true },
      .acceptCompletion 5 0 true, .closeSocket 4294967295 0]
    (fun past σ => (σ.slot 0).lastClosed = some 4294967295 ∧
      ∀ e ∈ past, e.pre.KeepsTime e.act) (by decide +kernel)
  rcases of_decide_eq_true h with ⟨hclosed, hkeeps⟩
  exact ⟨past, σ, run, hclosed, (slots_reused_iff run).mpr hkeeps⟩

/-- A connection that is closed at second 10. A pass at second 14 does not reuse its slot. -/
theorem closed_slot_not_reused : ∃ past σ,
    Run Slots.step (.init 1 4) past σ ∧ (σ.slot 0).established = false ∧
      (σ.slot 0).accepts = 0 ∧ (σ.slot 0).lastClosed = some 10 ∧
      (σ.slot 0).client.accepterTest 14 = false ∧ ¬σ.FreeInTime := by
  obtain ⟨past, σ, run, h⟩ := exists_run Slots.step (.init 1 4)
    [.accepterThread 4 fun _ => { wsaSocket := some 0, acceptEx := true },
      .acceptCompletion 5 0 true, .closeSocket 10 0]
    (fun _ σ => (σ.slot 0).established = false ∧ (σ.slot 0).accepts = 0 ∧
      (σ.slot 0).lastClosed = some 10 ∧ (σ.slot 0).client.accepterTest 14 = false ∧
      (σ.slot 0).lastFreed = some 10 ∧ σ.now ≤ 14) (by decide +kernel)
  rcases of_decide_eq_true h with ⟨hopen, haccepts, hclosed, htest, hfreed, hnow⟩
  refine ⟨past, σ, run, hopen, haccepts, hclosed, htest, fun hfree => ?_⟩
  have havailable := (hfree 0 hopen haccepts).available 10 14 hfreed hnow (by decide)
  rw [htest] at havailable
  cases havailable

end ChatServer.Network
