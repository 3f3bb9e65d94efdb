import ChatServer.Client.Convergence
import Mathlib.Algebra.BigOperators.Group.Finset.Piecewise
import Mathlib.Algebra.GroupWithZero.Nat
import Mathlib.Algebra.Order.BigOperators.Group.Finset

/-! # The chat settles

Without further clicks, what is under way dies down: what a step leaves behind weighs less
than what it has taken. Then every client that has logged in has the buttons of its place.
-/

namespace ChatServer.Client
open Recorded Server

variable {n m : ℕ} {δ : Type*}

/-! ## Weights -/

/-- How many steps may follow from a request, its own included. An entry and a leave are
also told to the members of the room. -/
def Request.weight (n : ℕ) : Request → ℕ
  | lobbyInfo => 3
  | roomEnter _ => n + 4
  | roomInfo => 2
  | roomLeave => n + 6

/-- The form asks for the members after an entry, and for the rooms after a leave. -/
def Notice.weight : Notice → ℕ
  | ackRoomEnter => 3
  | ackRoomLeave => 4
  | _ => 1

/-- The weight of the request in a frame -/
def frameWeight (n : ℕ) (frame : Bytes) : ℕ :=
  let packetId := (PacketHeader.read frame).packetId
  if packetId = PacketId.reqRoomEnter.code then n + 4
  else if packetId = PacketId.reqRoomLeave.code then n + 6
  else if packetId = PacketId.reqLobbyInfo.code then 3
  else 2

/-- The weight of the notice in a packet -/
def packetWeight (packet : Packet) : ℕ :=
  if packet.packetId = PacketId.ackRoomEnter.code then 3
  else if packet.packetId = PacketId.ackRoomLeave.code then 4
  else 1

/-- What is under way from a form, and to it -/
def clientWeight (n : ℕ) (form : Form1) (packets : List Packet) : ℕ :=
  (form.sendPacketQueue.map (frameWeight n)).sum + (packets.map packetWeight).sum

def ChatSystem.weight (σ : ChatSystem n m δ) : ℕ := ∑ c, clientWeight n (σ.form c) (σ.packets c)

theorem frameWeight_frame (n : ℕ) (r : Request) : frameWeight n r.frame = r.weight n := by
  rw [frameWeight, read_frame_packetId]
  cases r <;> rfl

theorem packetWeight_packet (unset : UInt8) (notice : Notice) :
    packetWeight (notice.packet unset) = notice.weight := by
  cases notice <;> rfl

/-- What the server sends on a request weighs less than the request. -/
theorem Transition.weight {ids : Fin n → UserId} {c : Fin n} {v v' : Fin n → View n} {r : Request}
    {notices : Fin n → List Notice} (t : Transition ids c v r v' notices) :
    ∑ d, ((notices d).map Notice.weight).sum < r.weight n := by
  have hown (w : ℕ) : ∑ d : Fin n, (if d = c then w else 0) = w := by
    rw [Finset.sum_ite_eq', if_pos (Finset.mem_univ c)]
  -- one notice to each member of the room at most, and the answer to `c`
  have hroom (w : ℕ) (hle : ∀ d, ((notices d).map Notice.weight).sum ≤ (if d = c then w else 0) + 1) :
      ∑ d, ((notices d).map Notice.weight).sum ≤ w + n := by
    calc ∑ d, ((notices d).map Notice.weight).sum
        ≤ ∑ d : Fin n, ((if d = c then w else 0) + 1) := Finset.sum_le_sum fun d _ => hle d
      _ = w + n := by simp [Finset.sum_add_distrib, hown]
  cases t with
  | ignoredInLobby hc hr =>
    simp only [List.map_nil, List.sum_nil, Finset.sum_const_zero]
    rcases hr with rfl | rfl <;> simp [Request.weight]
  | ignoredInRoom hc hr =>
    simp only [List.map_nil, List.sum_nil, Finset.sum_const_zero]
    rcases hr with rfl | ⟨number, rfl⟩ <;> simp [Request.weight]
  | lobbyInfo hc rooms =>
    have hsum (d : Fin n) : ((if d = c then [Notice.ackLobbyInfo, .notifyLobbyInfo rooms]
        else []).map Notice.weight).sum = if d = c then 2 else 0 := by
      split_ifs <;> rfl
    simp only [hsum, hown]
    exact Nat.lt_succ_self 2
  | roomInfo hc =>
    rename_i l
    have hsum (d : Fin n) : ((if d = c then [Notice.ackRoomInfo (l.map ids)]
        else []).map Notice.weight).sum = if d = c then 1 else 0 := by
      split_ifs <;> rfl
    simp only [hsum, hown]
    exact Nat.lt_succ_self 1
  | entered hc number hl =>
    have hle := hroom 3 fun d => by
      dsimp only
      split_ifs <;> simp [Notice.weight]
    rw [Request.weight]
    omega
  | left hc hl =>
    have hle := hroom 5 fun d => by
      dsimp only
      split_ifs <;> simp [Notice.weight]
    rw [Request.weight]
    omega

/-- The request that an answer makes the form post weighs less than the answer. -/
theorem answered_weight (n : ℕ) (form : Form1) (notice : Notice) :
    (((form.answered notice.ack).sendPacketQueue).map (frameWeight n)).sum <
      (form.sendPacketQueue.map (frameWeight n)).sum + notice.weight := by
  have hpost (r : Request) : ((form.sendPacketQueue ++ [r.frame]).map (frameWeight n)).sum =
      (form.sendPacketQueue.map (frameWeight n)).sum + r.weight n := by
    rw [List.map_append, List.sum_append, List.map_singleton, List.sum_singleton, frameWeight_frame]
  cases notice with
  | ackRoomEnter =>
    have hnext := hpost .roomInfo
    exact hnext.trans_lt (Nat.add_lt_add_left (Nat.lt_succ_self 2) _)
  | ackRoomLeave =>
    have hnext := hpost .lobbyInfo
    exact hnext.trans_lt (Nat.add_lt_add_left (Nat.lt_succ_self 3) _)
  | ackLobbyInfo | notifyLobbyInfo | ackRoomInfo | notifyRoomInfo | notifyRoomLeave =>
    exact Nat.lt_succ_self _

/-! ## Each answer and each packet lowers the weight -/

namespace ChatSystem

variable {ids : Fin n → UserId} {env : Env δ} {unset : UInt8} {σ σ' : ChatSystem n m δ} {c : Fin n}

/-- A client with anything under way has logged in. -/
theorem Invariant.loggedIn_of_busy (h : Invariant ids unset σ)
    (hbusy : (σ.form c).sendPacketQueue ≠ [] ∨ σ.packets c ≠ []) : LoggedIn σ.server c := by
  by_contra hc
  have hidle := h.idle c hc
  exact hbusy.elim (fun hqueue => hqueue hidle.sendPacketQueue) fun hpackets => hpackets hidle.packets

theorem Invariant.weight_process (h : Invariant ids unset σ)
    (hstep : σ.step env (.process c) = some σ') : σ'.weight < σ.weight := by
  rw [step] at hstep
  cases hpackets : σ.packets c with
  | nil => simp [hpackets] at hstep
  | cons packet packets =>
    simp only [hpackets] at hstep
    rcases Option.map_eq_some_iff.mp hstep with ⟨form, hprocess, rfl⟩
    have hc := h.loggedIn_of_busy (c := c) (.inr (by simp [hpackets]))
    rcases h.tracked c hc with ⟨queue, notices, users, shown, htracks⟩
    have hnotices := hpackets.symm.trans htracks.packets
    cases notices with
    | nil => cases hnotices
    | cons notice notices =>
      obtain ⟨rfl, -⟩ := List.cons.inj hnotices
      rcases packetProcess_notice unset htracks.shows notice
        (fun members hmembers => htracks.counts members (by simp [hmembers])) with
        ⟨form', hform, -, hsame⟩
      obtain rfl : form' = form := Option.some.inj (hform.symm.trans hprocess)
      have hlt : clientWeight n form' packets < clientWeight n (σ.form c) (σ.packets c) := by
        have hanswered := answered_weight n (σ.form c) notice
        rw [← hsame.sendPacketQueue] at hanswered
        rw [clientWeight, clientWeight, hpackets, List.map_cons, List.sum_cons, packetWeight_packet]
        omega
      apply Finset.sum_lt_sum
      · intro d _
        by_cases hd : d = c
        · subst hd
          simpa using hlt.le
        · simp [hd]
      · exact ⟨c, Finset.mem_univ c, by simpa using hlt⟩

/-- The request goes, and its notices come. -/
theorem Invariant.weight_dispatch (h : Invariant ids env.unset σ) (hids : Function.Injective ids)
    (hstep : σ.step env (.dispatch c) = some σ') (hspace : σ.EntrySucceeds (.dispatch c)) :
    σ'.weight < σ.weight := by
  have hc : LoggedIn σ.server c := by
    apply h.loggedIn_of_busy
    left
    intro hqueue
    simp [step, hqueue] at hstep
  rcases h.tracked c hc with ⟨queue, pending, users, shown, htracks⟩
  have hqueue := htracks.sendPacketQueue
  cases queue with
  | nil => simp [step, hqueue] at hstep
  | cons r queue =>
    rcases exists_served env h.online hids hc r (by
      rintro number rfl hlobby
      exact hspace.hasSpace h.online hlobby hqueue) with ⟨server, sent, notices, hevent, hserved⟩
    rw [step, hqueue, List.map_cons] at hstep
    simp only [hevent, Option.map_some, Option.some.injEq] at hstep
    subst hstep
    have hclient (d : Fin n) : clientWeight n
          (Function.update σ.form c { σ.form c with
            sendPacketQueue := queue.map Request.frame } d) (σ.packets d ++ sentTo sent d) +
          (if d = c then r.weight n else 0) =
        clientWeight n (σ.form d) (σ.packets d) + ((notices d).map Notice.weight).sum := by
      have hsent : ((sentTo sent d).map packetWeight).sum = ((notices d).map Notice.weight).sum := by
        rw [hserved.sent, List.map_map]
        congr 2
        funext notice
        exact packetWeight_packet env.unset notice
      rw [clientWeight, clientWeight, List.map_append, List.sum_append, hsent]
      by_cases hd : d = c
      · subst hd
        rw [Function.update_self, if_pos rfl, hqueue, List.map_cons, List.map_cons, List.sum_cons,
          frameWeight_frame]
        dsimp only
        omega
      · rw [Function.update_of_ne hd, if_neg hd]
        omega
    have hsum := Finset.sum_congr rfl fun (d : Fin n) (_ : d ∈ Finset.univ) => hclient d
    rw [Finset.sum_add_distrib, Finset.sum_add_distrib, Finset.sum_ite_eq',
      if_pos (Finset.mem_univ c)] at hsum
    exact Nat.lt_of_add_lt_add_right
      (hsum.trans_lt (Nat.add_lt_add_left hserved.transition.weight _))

/-! ## What is under way can go on -/

theorem Invariant.dispatch_enabled (h : Invariant ids env.unset σ)
    (hqueue : (σ.form c).sendPacketQueue ≠ []) : σ.step env (.dispatch c) ≠ none := by
  have hc := h.loggedIn_of_busy (.inl hqueue)
  rcases h.tracked c hc with ⟨queue, notices, users, shown, htracks⟩
  cases queue with
  | nil => exact absurd htracks.sendPacketQueue hqueue
  | cons r queue =>
    have hevent : σ.server.processEvent env (frameEvent c r.frame) ≠ none := by
      rw [processEvent_request env h.online hc]
      rcases hc with hlobby | hin
      · rw [hlobby]
        cases r <;> exact Option.some_ne_none _
      · rcases exists_room_of_inRoom h.online.membership hin with ⟨k, hroom, -⟩
        rw [hin]
        cases r with
        | roomInfo =>
          change σ.server.processRoomInfo env c ≠ none
          rw [processRoomInfo, hroom]
          exact Option.some_ne_none _
        | lobbyInfo | roomEnter | roomLeave => exact Option.some_ne_none _
    rw [step, htracks.sendPacketQueue, List.map_cons]
    exact fun hnone => hevent (Option.map_eq_none_iff.mp hnone)

theorem Invariant.process_enabled (h : Invariant ids unset σ) (hpackets : σ.packets c ≠ []) :
    σ.step env (.process c) ≠ none := by
  have hc := h.loggedIn_of_busy (.inr hpackets)
  rcases h.tracked c hc with ⟨queue, notices, users, shown, htracks⟩
  cases notices with
  | nil => exact absurd htracks.packets hpackets
  | cons notice notices =>
    rcases packetProcess_notice unset htracks.shows notice
      (fun members hmembers => htracks.counts members (by simp [hmembers])) with ⟨form', hform, -⟩
    rw [step, htracks.packets, List.map_cons]
    simp only [hform, Option.map_some]
    exact Option.some_ne_none _

/-- No request can be answered and no packet processed. -/
def Settled (env : Env δ) (σ : ChatSystem n m δ) : Prop :=
  ∀ c, σ.step env (.dispatch c) = none ∧ σ.step env (.process c) = none

theorem Invariant.quiet_of_settled (h : Invariant ids env.unset σ) (hsettled : σ.Settled env) :
    σ.Quiet := by
  intro c
  constructor
  · by_contra hqueue
    exact h.dispatch_enabled hqueue (hsettled c).1
  · by_contra hpackets
    exact h.process_enabled hpackets (hsettled c).2

/-! ## The buttons -/

/-- In the lobby a client can enter a room or refresh the list, in a room it can leave. -/
def Ready (σ : ChatSystem n m δ) : Prop :=
  ∀ c, ((σ.server.mUserObjPool c).mState = .inLobby → (σ.form c).roomEnterBtn = true ∧
      (σ.form c).roomListRefreshBtn = true ∧ (σ.form c).roomExit = false) ∧
    ((σ.server.mUserObjPool c).mState = .inRoom → (σ.form c).roomEnterBtn = false ∧
      (σ.form c).roomListRefreshBtn = false ∧ (σ.form c).roomExit = true)

instance (σ : ChatSystem n m δ) : Decidable σ.Ready := by
  unfold Ready
  infer_instance

end ChatSystem

theorem Phase.quiet_buttons {c : Fin n} {view : View n} {enter exit : Bool} {shown : List (Fin n)}
    (h : Phase c view [] [] enter exit shown) :
    view = none ∧ enter = true ∧ exit = false ∨ view ≠ none ∧ enter = false ∧ exit = true := by
  cases h with
  | free h => exact .inl ⟨rfl, rfl, rfl⟩
  | refreshing h => exact absurd rfl h.ne_nil
  | asking h => exact absurd rfl h.ne_nil
  | inside h => exact .inr ⟨Option.some_ne_none _, rfl, rfl⟩
  | left h => exact absurd rfl h.ne_nil

namespace ChatSystem

variable {ids : Fin n → UserId} {env : Env δ} {unset : UInt8} {σ₀ σ₁ σ : ChatSystem n m δ}

theorem Invariant.ready (h : Invariant ids unset σ) (quiet : σ.Quiet) : σ.Ready := by
  have hbuttons (c : Fin n) (hc : LoggedIn σ.server c) :
      (σ.form c).roomListRefreshBtn = (σ.form c).roomEnterBtn ∧
        (view σ.server c = none ∧ (σ.form c).roomEnterBtn = true ∧ (σ.form c).roomExit = false ∨
          view σ.server c ≠ none ∧ (σ.form c).roomEnterBtn = false ∧ (σ.form c).roomExit = true) := by
    rcases h.tracked c hc with ⟨queue, notices, users, shown, htracks⟩
    have hqueue := htracks.sendPacketQueue
    have hpackets := htracks.packets
    have hphase := htracks.phase
    rw [(quiet c).1, eq_comm, List.map_eq_nil_iff] at hqueue
    rw [(quiet c).2, eq_comm, List.map_eq_nil_iff] at hpackets
    rw [hqueue, hpackets] at hphase
    exact ⟨htracks.buttons, hphase.quiet_buttons⟩
  intro c
  constructor
  · intro hlobby
    have hview : view σ.server c = none := view_of_not_inRoom (by simp [hlobby])
    rcases hbuttons c (.inl hlobby) with ⟨hsame, ⟨-, henter, hexit⟩ | ⟨hnone, -⟩⟩
    · exact ⟨henter, hsame.trans henter, hexit⟩
    · exact absurd hview hnone
  · intro hin
    rcases exists_room_of_inRoom h.online.membership hin with ⟨k, -, hmem⟩
    have hview := view_of_mem h.online.membership hmem
    rcases hbuttons c (.inr hin) with ⟨hsame, ⟨hnone, -⟩ | ⟨-, henter, hexit⟩⟩
    · rw [hview] at hnone
      cases hnone
    · exact ⟨henter, hsame.trans henter, hexit⟩

/-- The invariant of a run in which entries succeed and snapshots close -/
theorem Start.invariant_of_run {past : List (Entry (ChatSystem n m δ) (Action n))}
    (start : Start ids σ₀) (hids : Function.Injective ids) (env : Env δ)
    (run : Run (step env) σ₀ past σ) (enters : ∀ e ∈ past, e.pre.EntrySucceeds e.act)
    (closes : ∀ e ∈ past, e.pre.SnapshotCloses e.act) : Invariant ids env.unset σ := by
  apply run.invariant (C := fun _ e => e.pre.EntrySucceeds e.act ∧ e.pre.SnapshotCloses e.act)
    (P := fun _ σ => Invariant ids env.unset σ) (start.invariant env.unset)
  · rintro past σ a σ' - h hstep ⟨hspace, hclose⟩
    cases a with
    | click c button => exact h.click hstep
    | dispatch c => exact h.dispatch hids hstep hspace hclose
    | process c => exact h.process hstep
  · exact atEach_const.mpr fun e he => ⟨enters e he, closes e he⟩

/-- A click of a user -/
def IsClick : Action n → Prop
  | .click .. => True
  | .dispatch _ | .process _ => False

instance : DecidablePred (IsClick (n := n))
  | .click .. => instDecidableTrue
  | .dispatch _ | .process _ => instDecidableFalse

/-- After any run, the clicks are answered: without new ones no more steps follow than the
weight of what is under way, and when none is possible, nothing is under way and all
clients have the buttons of the lobby or of their room. -/
theorem clicks_are_answered (hids : Function.Injective ids) (env : Env δ)
    {past rest : List (Entry (ChatSystem n m δ) (Action n))} (start : Start ids σ₀)
    (run : Run (step env) σ₀ past σ₁) (settling : Run (step env) σ₁ rest σ)
    (unclicked : ∀ e ∈ rest, ¬IsClick e.act)
    (enters : ∀ e ∈ past ++ rest, e.pre.EntrySucceeds e.act)
    (closes : ∀ e ∈ past ++ rest, e.pre.SnapshotCloses e.act) :
    rest.length ≤ σ₁.weight ∧ (σ.Settled env → σ.Quiet ∧ σ.Ready) := by
  have hinvariant := start.invariant_of_run hids env run
    (fun e he => enters e (List.mem_append_left _ he)) fun e he => closes e (List.mem_append_left _ he)
  have hlowers : rest.length + σ.weight ≤ σ₁.weight ∧ Invariant ids env.unset σ := by
    apply settling.length_le (C := fun e => ¬IsClick e.act ∧ e.pre.EntrySucceeds e.act ∧
      e.pre.SnapshotCloses e.act) weight hinvariant
    · rintro σ a σ' h hstep ⟨hclick, hspace, hclose⟩
      cases a with
      | click c button => exact absurd trivial hclick
      | dispatch c =>
        exact ⟨h.dispatch hids hstep hspace hclose, h.weight_dispatch hids hstep hspace⟩
      | process c => exact ⟨h.process hstep, h.weight_process hstep⟩
    · intro e he
      exact ⟨unclicked e he, enters e (List.mem_append_right _ he),
        closes e (List.mem_append_right _ he)⟩
  refine ⟨by omega, fun hsettled => ?_⟩
  have quiet := hlowers.2.quiet_of_settled hsettled
  exact ⟨quiet, hlowers.2.ready quiet⟩

/-- Client 1 enters a room, and four steps follow. -/
theorem clicks_are_answered_for_one : ∃ (σ₁ σ : ChatSystem 2 10 Unit)
    (rest : List (Entry (ChatSystem 2 10 Unit) (Action 2))),
      Run (step acceptingEnv) σ₁ rest σ ∧ rest.length = 4 ∧ 4 ≤ σ₁.weight ∧ σ.Quiet ∧ σ.Ready := by
  obtain ⟨σ₀, entries, σ, start, run, h⟩ := exists_run_of_two
    [.dispatch 0, .process 0, .process 0, .dispatch 1, .process 1, .process 1,
      .click 1 (.roomEnterBtn 0), .dispatch 1, .process 1, .dispatch 1, .process 1]
    (fun entries σ => (entries.drop 7).length = 4 ∧ (∀ e ∈ entries.drop 7, ¬IsClick e.act) ∧
      (∀ e ∈ entries.take 7 ++ entries.drop 7, e.pre.EntrySucceeds e.act) ∧
      (∀ e ∈ entries.take 7 ++ entries.drop 7, e.pre.SnapshotCloses e.act) ∧
      ∀ c, (σ.step acceptingEnv (.dispatch c)).isNone ∧ (σ.step acceptingEnv (.process c)).isNone)
    (by decide +kernel)
  rcases of_decide_eq_true h with ⟨hlength, unclicked, enters, closes, hsettled⟩
  rw [← List.take_append_drop 7 entries] at run
  rcases run.append_split with ⟨σ₁, run, settling⟩
  rcases clicks_are_answered twoIds_injective acceptingEnv start run settling unclicked enters closes
    with ⟨hle, hready⟩
  have hsettled : σ.Settled acceptingEnv := fun c =>
    ⟨Option.isNone_iff_eq_none.mp (hsettled c).1, Option.isNone_iff_eq_none.mp (hsettled c).2⟩
  exact ⟨σ₁, σ, entries.drop 7, settling, hlength, hlength.symm.trans_le hle, hready hsettled⟩

end ChatSystem

end ChatServer.Client
