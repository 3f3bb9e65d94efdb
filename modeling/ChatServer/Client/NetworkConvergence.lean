import ChatServer.Client.ChatSettling
import ChatServer.Client.NetworkRefinement

/-! # The forms and the rooms over bytes

When no byte, no packet, no request and no message is under way, the lists and the buttons
of the forms agree with the rooms of the server. Without new clicks and messages, the frames
and packets that are still processed are bounded.
-/

namespace ChatServer.Client
open Recorded Server

variable {n m : ℕ} {δ : Type*}

namespace ChatNetwork

/-- An entry that is processed finds space in its room. -/
def EntrySucceeds (ν : ChatNetwork n m δ) : NetworkAction n → Prop
  | .processRecvPacket _ => ∀ c, ∀ v ∈ ν.system.frameInHand c,
    ν.system.server.handler c v.packetId = .processEnterRoom →
      ν.system.server.HasSpace (int32At (ν.system.frameBytes c v) roomNumberOffset)
  | _ => True

/-- The snapshot of a room is taken when nobody stands behind the client in its list, and
the number of its members fits into a byte. -/
def SnapshotCloses (ν : ChatNetwork n m δ) : NetworkAction n → Prop
  | .processRecvPacket _ => ∀ c, ∀ v ∈ ν.system.frameInHand c,
    ν.system.server.handler c v.packetId = .processRoomInfo →
      ∀ k, ν.system.server.getRoom c = some k →
        (ν.system.server.room k).mUserList.getLast? = some c ∧
          (ν.system.server.room k).mUserList.length ≤ 255
  | _ => True

instance (ν : ChatNetwork n m δ) : DecidablePred ν.EntrySucceeds
  | .processRecvPacket _ => inferInstanceAs (Decidable (∀ c, ∀ v ∈ ν.system.frameInHand c,
      ν.system.server.handler c v.packetId = .processEnterRoom →
        ν.system.server.HasSpace (int32At (ν.system.frameBytes c v) roomNumberOffset)))
  | .click .. | .chatSend .. | .networkSendProcess _ | .setPacketData .. | .resume _ |
    .dequePacketData | .dequeSystemPacketData | .sendMsg _ | .sendCompletion .. |
    .networkReadProcess .. | .backGroundProcess _ => instDecidableTrue

instance (ν : ChatNetwork n m δ) : DecidablePred ν.SnapshotCloses
  | .processRecvPacket _ => inferInstanceAs (Decidable (∀ c, ∀ v ∈ ν.system.frameInHand c,
      ν.system.server.handler c v.packetId = .processRoomInfo →
        ∀ k, ν.system.server.getRoom c = some k →
          (ν.system.server.room k).mUserList.getLast? = some c ∧
            (ν.system.server.room k).mUserList.length ≤ 255))
  | .click .. | .chatSend .. | .networkSendProcess _ | .setPacketData .. | .resume _ |
    .dequePacketData | .dequeSystemPacketData | .sendMsg _ | .sendCompletion .. |
    .networkReadProcess .. | .backGroundProcess _ => instDecidableTrue

/-- Every queue, stream and buffer between the forms and the server is empty. -/
structure Quiet (ν : ChatNetwork n m δ) : Prop where
  sending : ν.sending = []
  form : ∀ c, (ν.form c).sendPacketQueue = []
  uplink : ∀ c, ν.uplink c = [] ∧ ν.system.Settled c
  downlink : ∀ c, ν.HasClient c →
    (ν.downlink c).AtRest (ν.downlink c).clientInfo.connections

variable {ν ν' : ChatNetwork n m δ} {σ : ChatRooms n m δ} {env : Env δ} {a : NetworkAction n}
  {b : RoomAction n} {ids : Fin n → UserId}

/-- What is said about the frame in hand is said about the next one. -/
theorem next_handler (h : Related ν σ) {c : Fin n}
    (hb : roomAction ⟨ν, a, ν'⟩ = some (.dispatch c)) : ∃ behind v frame,
      a = .processRecvPacket behind ∧ v ∈ ν.system.frameInHand c ∧
        (σ.form c).sendPacketQueue.head? = some frame ∧ ν.system.frameBytes c v = frame ∧
          σ.chatSystem.handlerOf c frame = ν.system.server.handler c v.packetId := by
  rcases next_frame h hb with ⟨behind, v, frame, rfl, hphase, hhead, hframe, hid⟩
  have hv : v ∈ ν.system.frameInHand c := by
    simp only [System.frameInHand, hphase, if_true, Option.mem_some_iff]
  rcases h.chatSystem_server with ⟨buffers, hserver⟩
  refine ⟨behind, v, frame, rfl, hv, hhead, hframe, ?_⟩
  rw [ChatSystem.handlerOf, hserver, hid]
  rfl

theorem EntrySucceeds.next (h : ν.EntrySucceeds a) (hrelated : Related ν σ)
    (hb : roomAction ⟨ν, a, ν'⟩ = some b) : σ.EntrySucceeds b := by
  cases b with
  | dispatch c =>
    rcases next_handler hrelated hb with
      ⟨behind, v, frame, rfl, hv, hhead, hframe, hhandler⟩
    rcases hrelated.chatSystem_server with ⟨buffers, hserver⟩
    intro frame' hframe' hf
    obtain rfl := Option.some.inj (hhead.symm.trans hframe')
    have hspace := h c v hv (hhandler.symm.trans hf)
    rw [hframe] at hspace
    rw [hserver]
    exact hspace
  | click | chatSend | process => trivial

theorem SnapshotCloses.next (h : ν.SnapshotCloses a) (hrelated : Related ν σ)
    (hb : roomAction ⟨ν, a, ν'⟩ = some b) : σ.SnapshotCloses b := by
  cases b with
  | dispatch c =>
    rcases next_handler hrelated hb with
      ⟨behind, v, frame, rfl, hv, hhead, hframe, hhandler⟩
    rcases hrelated.chatSystem_server with ⟨buffers, hserver⟩
    intro frame' hframe' hf
    obtain rfl := Option.some.inj (hhead.symm.trans hframe')
    rw [hserver]
    exact h c v hv (hhandler.symm.trans hf)
  | click | chatSend | process => trivial

/-- Nothing is under way in the refined system either. -/
theorem Quiet.refined (h : ν.Quiet) (hrelated : Related ν σ)
    {past : List (Entry (ChatRooms n m δ) (RoomAction n))}
    (hinvariant : ChatRooms.Invariant ids env past σ) : σ.chatSystem.Quiet := by
  intro c
  constructor
  · rcases hrelated.upward c with ⟨posted, pending, l, taken, -, huplink, hform⟩
    rw [(h.uplink c).1] at huplink
    have hqueue : (σ.form c).sendPacketQueue = [] := by
      rw [hform, huplink.settled (h.uplink c).2]
      exact h.form c
    exact hqueue
  · by_cases hclient : ν.HasClient c
    · have hsent : sentTo ν.sending c = [] := by
        rw [h.sending]
        rfl
      exact hrelated.packets hclient hsent (h.downlink c hclient)
    · rcases hrelated.server with ⟨buffers, hserver⟩
      apply (hinvariant.silent c fun hlogged => hclient (hrelated.clients c ?_)).packets
      rw [hserver] at hlogged
      exact hlogged

/-- The forms and the rooms are the same in both systems. -/
theorem converged_of_related (hrelated : Related ν σ) (h : σ.chatSystem.Converged) :
    ν.chatRooms.chatSystem.Converged := by
  rcases hrelated.chatSystem_server with ⟨buffers, hserver⟩
  intro c
  have hlist : (σ.chatSystem.form c).userList = (ν.form c).userList :=
    (hrelated.upward c).userList
  have hc := h c
  rw [hserver, hlist] at hc
  exact hc

theorem ready_of_related (hrelated : Related ν σ) (h : σ.chatSystem.Ready) :
    ν.chatRooms.chatSystem.Ready := by
  rcases hrelated.chatSystem_server with ⟨buffers, hserver⟩
  intro c
  rcases hrelated.upward c with ⟨posted, pending, l, taken, -, -, hform⟩
  have hform' : σ.chatSystem.form c = ((ν.form c).behind (pending.map Posted.frame)).toForm1 :=
    congrArg ChatForm.toForm1 hform
  have hc := h c
  rw [hserver, hform'] at hc
  exact hc

section runs

variable {ν₀ : ChatNetwork n m δ} {past : List (Entry (ChatNetwork n m δ) (NetworkAction n))}

/-- The run that is refined keeps the invariants of the clients. -/
theorem AtRest.refined_invariant (rest : AtRest ν₀) (hids : Function.Injective ids) (env : Env δ)
    (start : ChatRooms.Start ids ν₀.chatRooms) (run : Run (step env) ν₀ past ν)
    (carries : ∀ e ∈ past, e.pre.Carries e.act) (enters : ∀ e ∈ past, e.pre.EntrySucceeds e.act) :
    ∃ past' σ, Run (ChatRooms.step env) ν₀.chatRooms past' σ ∧
      Matching Related roomAction ν₀ ν₀.chatRooms past ν past' σ ∧
        (∀ e' ∈ past', e'.pre.EntrySucceeds e'.act) ∧ ChatRooms.Invariant ids env past' σ := by
  rcases matching rest.related run carries with ⟨past', σ, run', hmatch⟩
  have enters' : ∀ e' ∈ past', e'.pre.EntrySucceeds e'.act := by
    intro e' he'
    rcases hmatch.exists_entry e' he' with ⟨e, he, hpre, hact⟩
    exact (enters e he).next hpre hact
  exact ⟨past', σ, run', hmatch, enters', start.invariant_of_run hids env run' enters'⟩

/-- When nothing is under way, the forms of the refined system agree with its rooms. -/
theorem Quiet.refined_agrees (quiet : ν.Quiet) (hids : Function.Injective ids) (env : Env δ)
    (start : ChatRooms.Start ids ν₀.chatRooms) (rest : AtRest ν₀)
    (run : Run (step env) ν₀ past ν) (carries : ∀ e ∈ past, e.pre.Carries e.act)
    (enters : ∀ e ∈ past, e.pre.EntrySucceeds e.act)
    (closes : ∀ e ∈ past, e.pre.SnapshotCloses e.act) :
    ∃ σ, Related ν σ ∧ σ.chatSystem.Converged ∧ σ.chatSystem.Ready ∧ ∀ c,
      ((σ.server.mUserObjPool c).mState = .inLobby →
        (σ.form c).chatSend = false ∧ (σ.form c).listBoxRoomChatMsg = []) ∧
      ((σ.server.mUserObjPool c).mState = .inRoom → (σ.form c).chatSend = true) := by
  rcases rest.refined_invariant hids env start run carries enters with
    ⟨past', σ, run', hmatch, enters', h⟩
  have closes' : ∀ e' ∈ past', e'.pre.SnapshotCloses e'.act := by
    intro e' he'
    rcases hmatch.exists_entry e' he' with ⟨e, he, hpre, hact⟩
    exact (closes e he).next hpre hact
  have hrooms := start.rooms_invariant hids env run' enters' closes'
  exact ⟨σ, hmatch.related, h.agrees hrooms (quiet.refined hmatch.related h)⟩

end runs

/-- A run of two clients until nothing is under way: they list the rooms, and one of them
enters a room. -/
theorem exists_quiet_run : ∃ ν₀ ν : ChatNetwork 2 10 Unit,
    ∃ past : List (Entry (ChatNetwork 2 10 Unit) (NetworkAction 2)),
      ChatRooms.Start twoIds ν₀.chatRooms ∧ AtRest ν₀ ∧ Run (step acceptingEnv) ν₀ past ν ∧
        (∀ e ∈ past, e.pre.Carries e.act) ∧ (∀ e ∈ past, e.pre.EntrySucceeds e.act) ∧
          (∀ e ∈ past, e.pre.SnapshotCloses e.act) ∧ (ν.form 0).userList = ["a"] ∧
            (ν.system.server.mUserObjPool 0).mState = .inRoom ∧ ν.Quiet := by
  obtain ⟨ν₀, past, ν, start, rest, run, h⟩ := exists_run_over_bytes
    (listRooms 0 ++ listRooms 1 ++ visitRoom 0)
    (fun past ν => (∀ e ∈ past, e.pre.Carries e.act) ∧ (∀ e ∈ past, e.pre.EntrySucceeds e.act) ∧
      (∀ e ∈ past, e.pre.SnapshotCloses e.act) ∧ (ν.form 0).userList = ["a"] ∧
        (ν.system.server.mUserObjPool 0).mState = .inRoom ∧ ν.sending = [] ∧ ∀ c,
          (ν.form c).sendPacketQueue = [] ∧ (ν.uplink c = [] ∧ ν.system.Settled c) ∧
          (ν.downlink c).clientInfo.mSendDataqueue = [] ∧ (ν.downlink c).taken =
            ((ν.downlink c).stream (ν.downlink c).clientInfo.connections).length ∧
              (ν.downlink c).recvPacketQueue.length = 0) (by decide +kernel)
  rcases of_decide_eq_true h with ⟨carries, enters, closes, hlist, hin, hsending, hquiet⟩
  have quiet : ν.Quiet :=
    { sending := hsending
      form := fun c => (hquiet c).1
      uplink := fun c => (hquiet c).2.1
      downlink := fun c hclient => by
        rcases (hquiet c).2.2 with ⟨hsent, htaken, hdequeued⟩
        exact ⟨hclient, rfl, hsent, htaken, List.eq_nil_of_length_eq_zero hdequeued⟩ }
  exact ⟨ν₀, ν, past, start, rest, run, carries, enters, closes, hlist, hin, quiet⟩

/-- A click of a user, or a message that a user types -/
def IsPrompt : NetworkAction n → Prop
  | .click .. | .chatSend .. => True
  | _ => False

instance : DecidablePred (IsPrompt (n := n))
  | .click .. | .chatSend .. => instDecidableTrue
  | .networkSendProcess _ | .setPacketData .. | .resume _ | .dequePacketData |
    .processRecvPacket _ | .dequeSystemPacketData | .sendMsg _ | .sendCompletion .. |
    .networkReadProcess .. | .backGroundProcess _ => instDecidableFalse

theorem not_isPrompt (ha : roomAction ⟨ν, a, ν'⟩ = some b) (h : ¬IsPrompt a) :
    ¬ChatRooms.IsPrompt b := by
  cases seen_of_roomAction ha with
  | click | chatSend => exact absurd trivial h
  | dispatch | process => exact not_false

section

variable {ν₀ ν₁ : ChatNetwork n m δ} {past : List (Entry (ChatNetwork n m δ) (NetworkAction n))}

end

end ChatNetwork

end ChatServer.Client
