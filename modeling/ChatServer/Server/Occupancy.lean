import ChatServer.Server.Effect

/-! # The member count of a room

`mCurrentUserCount` is counted up by every entry and never down. A leave that
takes anybody out of the list leaves the count too high for the rest of the run.
-/

namespace ChatServer.Server
open Recorded

variable {n m : ℕ} {δ : Type*} {env : Env δ} {s s' : Server n m δ} {out : List (Sent n)}

/-- In every room the count is the length of the list, and at most the maximum. -/
def Accounted (s : Server n m δ) : Prop :=
  ∀ k, (s.room k).getCurrentUserCount = (s.room k).mUserList.length ∧
    (s.room k).getCurrentUserCount ≤ (s.room k).getMaxUserCount

/-- The request of `i` is answered that the room is full. -/
def RefusedAsFull (env : Env δ) (s : Server n m δ) (i : Fin n) (e : Event n) : Prop :=
  Answered (s.sent env e) i .ackRoomEnter .roomFull ∨
    Answered (s.sent env e) i .ackRoomEnter .enterRoomFullUser

/-- An enter request for an existing room is refused as full exactly when the list
of the room has `GetMaxUserCount()` entries. -/
def RefusesWhenFull (env : Env δ) (s : Server n m δ) (e : Event n) : Prop :=
  ∀ i packetId packetSize p k, e = .frame i packetId packetSize p →
    s.handler i packetId = .processEnterRoom →
    s.mRoomManager.getRoomByNumber (int32At p roomNumberOffset) = some k →
    (s.RefusedAsFull env i e ↔
      ((s.room k).mUserList.length : ℤ) = (s.room k).getMaxUserCount)

/-- The event is a leave that takes an entry out of its user's room. -/
def TakesOut (s : Server n m δ) : Event n → Prop
  | .frame i packetId _ _ =>
    s.handler i packetId = .processLeaveRoom ∧
      ∃ k, s.getRoom i = some k ∧ ∃ j ∈ (s.room k).mUserList,
        (s.mUserObjPool j).mUserID = (s.mUserObjPool i).mUserID
  | _ => False

instance (s : Server n m δ) : DecidablePred s.TakesOut
  | .frame .. => instDecidableAnd
  | .connect _ | .disconnect _ => instDecidableFalse

/-- Every room was initialised with this maximum, which a `UINT16` can count up to. -/
def MaxUserCountIs (s : Server n m δ) (maxRoomUserCount : Int32) : Prop :=
  ∀ k, (s.room k).mMaxUserCount = maxRoomUserCount

theorem MaxUserCountIs.effect {maxRoomUserCount : Int32} {e : Event n}
    (h : s.MaxUserCountIs maxRoomUserCount) (he : Effect env s e s' out) :
    s'.MaxUserCountIs maxRoomUserCount := by
  intro k
  cases he with
  | entered => exact (setRoom_mMaxUserCount _ _ _ _ k).trans (h k)
  | left => exact (setRoom_mMaxUserCount _ _ _ _ k).trans (h k)
  | _ => exact h k

/-- A room below its maximum counts its new member. -/
theorem accounted_entered {i : Fin n} {k : Fin m} {number : Int32}
    (hmax : (s.room k).mMaxUserCount ≤ 65535) (h : s.Accounted)
    (hspace : (s.room k).getCurrentUserCount < (s.room k).getMaxUserCount) :
    ((s.setRoom k ((s.room k).mUserList ++ [i]) ((s.room k).mCurrentUserCount + 1)).putInRoom i
      number).Accounted := by
  intro j
  have hj := h j
  have hlt := Int32.le_iff_toInt_le.mp hmax
  simp only [Room.getCurrentUserCount, Room.getMaxUserCount] at hspace hj ⊢
  simp only [putInRoom, updateUser_room, setRoom_mUserList, setRoom_mCurrentUserCount,
    setRoom_mMaxUserCount]
  split_ifs with hjk
  · subst hjk
    have hadd : ((s.room j).mCurrentUserCount + 1).toNat =
        (s.room j).mCurrentUserCount.toNat + 1 := by
      rw [UInt16.toNat_add, UInt16.toNat_one, Nat.mod_eq_of_lt]
      have : (65535 : Int32).toInt = 65535 := rfl
      omega
    rw [hadd, List.length_append, List.length_singleton]
    omega
  · exact hj

/-- A leave keeps the count, so it must keep the whole list. -/
theorem accounted_left {i : Fin n} {k : Fin m} (h : s.Accounted) :
    ((s.setRoom k (s.stayers i k) (s.room k).mCurrentUserCount).updateUser i
        (User.changeState .inLobby)).Accounted ↔
      ∀ j ∈ (s.room k).mUserList, (s.mUserObjPool j).mUserID ≠ (s.mUserObjPool i).mUserID := by
  have hk := h k
  simp only [Room.getCurrentUserCount, Room.getMaxUserCount] at hk
  have hall : (s.stayers i k).length = (s.room k).mUserList.length ↔
      ∀ j ∈ (s.room k).mUserList,
        (s.mUserObjPool j).mUserID ≠ (s.mUserObjPool i).mUserID := by
    rw [stayers, List.length_filter_eq_length_iff]
    simp only [decide_eq_true_eq, ne_comm]
  rw [← hall]
  constructor
  · intro h'
    have hk' := h' k
    simp only [Room.getCurrentUserCount, updateUser_room, setRoom_mUserList,
      setRoom_mCurrentUserCount, if_true] at hk'
    omega
  · intro hlen j
    have hj := h j
    simp only [Room.getCurrentUserCount, Room.getMaxUserCount, updateUser_room, setRoom_mUserList,
      setRoom_mCurrentUserCount, setRoom_mMaxUserCount] at hj ⊢
    split_ifs with hjk
    · subst hjk
      omega
    · exact hj

/-- With the counts right before a step, they are right after it exactly if it is
not a leave that takes somebody out. -/
theorem Accounted.step_iff {maxRoomUserCount : Int32} (h : s.Accounted)
    (hmax : s.MaxUserCountIs maxRoomUserCount) (hle : maxRoomUserCount ≤ 65535) {e : Event n}
    (he : Effect env s e s' out) : s'.Accounted ↔ ¬s.TakesOut e := by
  cases he with
  | connect | disconnectUnused | disconnect => exact iff_of_true h not_false
  | ignored hf =>
    apply iff_of_true h
    intro htakes
    rcases hf with hf | ⟨hf, -⟩ | ⟨hf, -⟩ <;> simp [htakes.1] at hf
  | entered hf hk hspace =>
    apply iff_of_true (accounted_entered (by rw [hmax]; exact hle) h hspace)
    intro htakes
    simp [htakes.1] at hf
  | left hf hk =>
    rw [accounted_left h]
    simp [TakesOut, hf, hk]
  | leaveRefused hf hk =>
    apply iff_of_true h
    intro htakes
    rcases htakes with ⟨-, k, hk', -⟩
    simp [hk] at hk'
  | accountCreated hf | loginRefused hf | loggedIn hf | lobbyInfo hf | enterRefused hf
  | roomInfo hf | chatRefused hf | chat hf =>
    apply iff_of_true h
    intro htakes
    simp [htakes.1] at hf

/-- The enter handler compares the count, so right counts give right refusals. -/
theorem Accounted.refusesWhenFull (h : s.Accounted) {e : Event n} (hstep : s.step env e = some s') :
    s.RefusesWhenFull env e := by
  rintro i packetId packetSize p k rfl hf hk
  have hcount := h k
  have he := effect_of_step hstep
  unfold RefusedAsFull
  generalize s.sent env (.frame i packetId packetSize p) = out at he
  cases he with
  | enterRefused hf' hresult =>
    rcases hresult with ⟨-, hnone⟩ | ⟨rfl, k', hk', hfull⟩
    · simp [hnone] at hk
    · obtain rfl : k' = k := Option.some.inj (hk'.symm.trans hk)
      exact iff_of_true (.inl (by simp)) (by omega)
  | entered hf' hk' hspace =>
    obtain rfl := Option.some.inj (hk'.symm.trans hk)
    exact iff_of_false (by simp) (by omega)
  | ignored hf' => rcases hf' with hf' | ⟨hf', -⟩ | ⟨hf', -⟩ <;> simp [hf] at hf'
  | accountCreated hf' | loginRefused hf' | loggedIn hf' | lobbyInfo hf' | roomInfo hf'
  | leaveRefused hf' | left hf' | chatRefused hf' | chat hf' => simp [hf] at hf'

theorem init_accounted (n : ℕ) (beginRoomNumber maxRoomCount : Int32) {maxRoomUserCount : Int32}
    (mem : Fin n → ℕ → UInt8) (db : δ) (hnonneg : 0 ≤ maxRoomUserCount) :
    (init n beginRoomNumber maxRoomCount maxRoomUserCount mem db).Accounted :=
  fun _ => ⟨rfl, Int32.le_iff_toInt_le.mp hnonneg⟩

/-- Over every run, all counts are right and all refusals for lack of room are
justified exactly when no leave takes an entry out of a list. -/
theorem occupancy_accounted_iff (env : Env δ) (n : ℕ)
    (beginRoomNumber maxRoomCount maxRoomUserCount : Int32) (mem : Fin n → ℕ → UInt8) (db : δ)
    (hnonneg : 0 ≤ maxRoomUserCount) (hle : maxRoomUserCount ≤ 65535)
    {past : History n maxRoomCount.toNatClampNeg δ}
    {s : Server n maxRoomCount.toNatClampNeg δ}
    (run : Run (step env) (init n beginRoomNumber maxRoomCount maxRoomUserCount mem db) past s) :
    ((init n beginRoomNumber maxRoomCount maxRoomUserCount mem db).Accounted ∧
        ∀ e ∈ past, e.post.Accounted ∧ e.pre.RefusesWhenFull env e.act) ↔
      ∀ e ∈ past, ¬e.pre.TakesOut e.act := by
  have hinit := init_accounted n beginRoomNumber maxRoomCount mem db hnonneg
  rw [and_iff_right hinit, ← atEach_const, ← atEach_const]
  refine run.exact_iff (A := fun _ _ => True)
    (I := fun _ s => s.Accounted ∧ s.MaxUserCountIs maxRoomUserCount)
    ⟨hinit, fun _ => rfl⟩ ?_ ?_ (fun _ _ _ => trivial)
  · intro past s a s' ⟨h, hmax⟩ hstep _ hkeep
    have he := effect_of_step hstep
    exact ⟨(h.step_iff hmax hle he).mpr hkeep, hmax.effect he⟩
  · intro past s a s' ⟨h, hmax⟩ hstep _
    rw [and_iff_left (h.refusesWhenFull hstep)]
    exact h.step_iff hmax hle (effect_of_step hstep)

/-- Two users enter a room for two, chat, and a third one is refused. -/
theorem occupancy_accounted_without_leave : ∃ past s,
    Run (step acceptingEnv) (init 3 0 10 2 (fun _ _ => 0) ()) past s ∧ past.length = 10 ∧
      ∀ e ∈ past, e.post.Accounted ∧ e.pre.RefusesWhenFull acceptingEnv e.act := by
  obtain ⟨past, s, run, h⟩ := exists_run (step acceptingEnv) (init 3 0 10 2 (fun _ _ => 0) ())
    [.connect 0, .request 0 .reqLogin (reqLoginBody [65] [66]), .request 0 .reqRoomEnter (le32 0),
      .connect 1, .request 1 .reqLogin (reqLoginBody [67] [66]), .request 1 .reqRoomEnter (le32 0),
      .request 0 .reqRoomChat (blockAt [72, 105] 0 (maxChatMsgSize + 1)),
      .connect 2, .request 2 .reqLogin (reqLoginBody [68] [66]), .request 2 .reqRoomEnter (le32 0)]
    (fun past _ => past.length = 10 ∧ ∀ e ∈ past, ¬e.pre.TakesOut e.act) (by decide +kernel)
  rcases of_decide_eq_true h with ⟨hlength, hkeep⟩
  exact ⟨past, s, run, hlength,
    ((occupancy_accounted_iff acceptingEnv 3 0 10 2 _ () (by decide) (by decide) run).mpr hkeep).2⟩

/-- A user enters a room for one user and leaves it. The list is empty, the count is
one, and the user's next attempt to enter is refused. -/
theorem left_room_stays_full : ∃ past s,
    Run (step acceptingEnv) (init 1 0 10 1 (fun _ _ => 0) ()) past s ∧ ¬s.Accounted ∧
      (s.room ⟨0, by decide⟩).mUserList = [] ∧
      s.RefusedAsFull acceptingEnv 0 (.request 0 .reqRoomEnter (le32 0)) := by
  obtain ⟨past, s, run, h⟩ := exists_run (step acceptingEnv) (init 1 0 10 1 (fun _ _ => 0) ())
    [.connect 0, .request 0 .reqLogin (reqLoginBody [65] [66]), .request 0 .reqRoomEnter (le32 0),
      .request 0 .reqRoomLeave []]
    (fun _ s => (s.room ⟨0, by decide⟩).mUserList = [] ∧
      (s.room ⟨0, by decide⟩).mCurrentUserCount = 1 ∧
      s.sent acceptingEnv (.request 0 .reqRoomEnter (le32 0)) =
        [sendAck 0 0 .ackRoomEnter .roomFull]) (by decide +kernel)
  rcases of_decide_eq_true h with ⟨hlist, hcount, hsent⟩
  refine ⟨past, s, run, fun haccounted => ?_, hlist, ?_⟩
  · have := (haccounted ⟨0, by decide⟩).1
    rw [Room.getCurrentUserCount, hlist, hcount] at this
    exact absurd this (by decide)
  · exact .inl (by simp [hsent])

end ChatServer.Server
