import ChatServer.PacketManager.Delivery
import ChatServer.Library.Alternation

/-! # The order of the events of a connection

Notifications and system packets travel in two queues, and a worker may stop between
any two pushes. The frames of a connection lie between its connect and its
disconnect as long as its data is stored after the connect was handled, and no
system packet of the slot overtakes a notification.
-/

namespace ChatServer
open LinearMemory Framing Alternation

namespace SlotLog

/-- The connect of this connection has been handled and its disconnect has not. -/
def Connected (l : SlotLog) (connection : ℕ) : Prop :=
  (.sysUserConnect, connection) ∈ l.handled ∧ (.sysUserDisconnect, connection) ∉ l.handled

/-- Moreover the connect is the last system packet of the slot that was handled. -/
def Current (l : SlotLog) (connection : ℕ) : Prop :=
  l.handled.getLast? = some (.sysUserConnect, connection) ∧
    (.sysUserDisconnect, connection) ∉ l.handled

instance (l : SlotLog) (connection : ℕ) : Decidable (l.Connected connection) := by
  unfold Connected
  infer_instance

instance (l : SlotLog) (connection : ℕ) : Decidable (l.Current connection) := by
  unfold Current
  infer_instance

theorem Current.connected {l : SlotLog} {connection : ℕ} (h : l.Current connection) :
    l.Connected connection := ⟨List.mem_of_getLast? h.1, h.2⟩

end SlotLog

namespace System

variable {n m : ℕ} {δ : Type*}

/-- 1 if this turn of `ProcessPacket` has called `DequePacketData` already. -/
def dequeued (s : System n m δ) : ℕ := if s.phase = .dequePacketData then 0 else 1

/-- A system packet and a notification of one slot are pushed such that the
notification is taken first. -/
def PushedInOrder (s : System n m δ) : Worker n → Prop
  | .pushSystemPacket packet => packet.clientIndex ∉
      s.mInComingPacketUserIndex.drop (s.mSystemPacketQueue.length + 1 - s.dequeued)
  | .enqueuePacketData i _ => ∀ packet ∈
      s.mSystemPacketQueue.take (s.mInComingPacketUserIndex.length + s.dequeued),
      i ≠ packet.clientIndex

instance (s : System n m δ) : DecidablePred s.PushedInOrder
  | .pushSystemPacket _ => instDecidableNot
  | .enqueuePacketData i _ => inferInstanceAs (Decidable (∀ packet ∈
      s.mSystemPacketQueue.take (s.mInComingPacketUserIndex.length + s.dequeued),
      i ≠ packet.clientIndex))

/-- Receives come in time; data is stored while its connection is the current one of the
slot; pushes are in order; and no system packet of a slot is taken while a worker is
between `SetPacketData` and `EnqueuePacketData` for it. -/
def InOrder (before : Trace n m δ) (e : Recorded.Entry (System n m δ) (Action n)) : Prop :=
  ReceivesInTime e ∧
  match e.act with
  | .setPacketData i connection _ => (before.log i).Current connection
  | .resume worker => ∀ w ∈ e.pre.workers[worker]?, e.pre.PushedInOrder w
  | .dequeSystemPacketData => ∀ packet ∈ e.pre.mSystemPacketQueue.head?,
      e.pre.workers.countP (Worker.notifies packet.clientIndex) = 0
  | _ => True

instance (before : Trace n m δ) : DecidablePred (InOrder before)
  | ⟨s, .setPacketData i connection pData, s'⟩ => inferInstanceAs (Decidable
      (ReceivesInTime ⟨s, .setPacketData i connection pData, s'⟩ ∧
        (before.log i).Current connection))
  | ⟨s, .resume worker, s'⟩ => inferInstanceAs (Decidable
      (ReceivesInTime ⟨s, .resume worker, s'⟩ ∧ ∀ w ∈ s.workers[worker]?, s.PushedInOrder w))
  | ⟨s, .dequeSystemPacketData, s'⟩ => inferInstanceAs (Decidable
      (ReceivesInTime ⟨s, .dequeSystemPacketData, s'⟩ ∧
        ∀ packet ∈ s.mSystemPacketQueue.head?,
          s.workers.countP (Worker.notifies packet.clientIndex) = 0))
  | ⟨_, .acceptCompletion .., _⟩ | ⟨_, .close _, _⟩ | ⟨_, .dequePacketData, _⟩ |
    ⟨_, .processRecvPacket _, _⟩ => inferInstanceAs (Decidable (True ∧ True))

/-- All bytes of the frame in hand are from a connection whose connect has been handled
and whose disconnect has not. -/
def FromConnected (before : Trace n m δ) : Phase n → Prop
  | .processRecvPacket i v => (before.log i).inHand.length = v.dataSize.toNat ∧
      ∀ connection ∈ (before.log i).inHand, (before.log i).Connected connection
  | _ => True

instance (before : Trace n m δ) : DecidablePred (FromConnected before)
  | .processRecvPacket .. => instDecidableAnd
  | .dequePacketData | .dequeSystemPacketData => instDecidableTrue

/-- Every frame that is dispatched is from a connected client. -/
def DispatchedInOrder (before : Trace n m δ) (e : Recorded.Entry (System n m δ) (Action n)) : Prop :=
  match e.act with
  | .processRecvPacket _ => FromConnected before e.pre.phase
  | _ => True

instance (before : Trace n m δ) : DecidablePred (DispatchedInOrder before)
  | ⟨s, .processRecvPacket _, _⟩ => inferInstanceAs (Decidable (FromConnected before s.phase))
  | ⟨_, .acceptCompletion .., _⟩ | ⟨_, .setPacketData .., _⟩ | ⟨_, .close _, _⟩ |
    ⟨_, .resume _, _⟩ | ⟨_, .dequePacketData, _⟩ | ⟨_, .dequeSystemPacketData, _⟩ =>
    instDecidableTrue

/-- When a system packet of a slot is handled, no notification of the slot is queued, and
all frames that the slot has received are dispatched. -/
def HandledInOrder (before : Trace n m δ) (e : Recorded.Entry (System n m δ) (Action n)) : Prop :=
  match e.act with
  | .dequeSystemPacketData => ∀ packet ∈ e.pre.mSystemPacketQueue.head?,
      packet.clientIndex ∉ e.pre.mInComingPacketUserIndex ∧
      ∀ fs, (∀ f ∈ fs, requestFormat.WellFormed f) →
        (before.log packet.clientIndex).received <+: fs.flatten →
        (before.log packet.clientIndex).dispatched =
          (within fs (before.log packet.clientIndex).received.length).filter aboveSysEnd
  | _ => True

variable {env : Env δ} {s s' : System n m δ} {i : Fin n} {l l' : SlotLog}

/-- Every unread byte, and every byte of the frame in hand, is from the current
connection of the slot. -/
structure Owned (i : Fin n) (l : SlotLog) (s : System n m δ) : Prop where
  length_owners : l.owners.length = (s.buffer i).unread.length
  owners : ∀ connection ∈ l.owners, l.Current connection
  inHand : ∀ v ∈ s.frameInHand i, l.inHand.length = v.dataSize.toNat ∧
    ∀ connection ∈ l.inHand, l.Current connection
  connected : ∀ connection, (.sysUserConnect, connection) ∈ l.handled →
    (s.server.mUserObjPool i).mState ≠ .none

/-- A slot that a step does not concern keeps what holds of it. -/
theorem Owned.congr (h : Owned i l s) (howners : l'.owners = l.owners)
    (hinHand : l'.inHand = l.inHand) (hhandled : l'.handled = l.handled)
    (hbuffer : s'.buffer i = s.buffer i) (hframe : ∀ v ∈ s'.frameInHand i, v ∈ s.frameInHand i)
    (hstate : (s.server.mUserObjPool i).mState ≠ .none →
      (s'.server.mUserObjPool i).mState ≠ .none) : Owned i l' s' := by
  have hcurrent (connection : ℕ) : l'.Current connection ↔ l.Current connection := by
    rw [SlotLog.Current, SlotLog.Current, hhandled]
  refine ⟨by rw [howners, hbuffer, h.length_owners], ?_, ?_, ?_⟩
  · simpa only [howners, hcurrent] using h.owners
  · intro v hv
    simpa only [hinHand, hcurrent] using h.inHand v (hframe v hv)
  · intro connection hmem
    exact hstate (h.connected connection (hhandled ▸ hmem))

/-- Stored bytes belong to the connection they arrived on, the current one. -/
theorem Owned.received (h : Owned i l s) (hv : (s.buffer i).Valid) {connection : ℕ} {pData : Bytes}
    (hcap : (s.buffer i).unread.length + pData.length ≤ packetDataBufferSize.toNat)
    (hcurrent : l.Current connection) (hbuffer : s'.buffer i = (s.buffer i).setPacketData pData)
    (hframe : s'.frameInHand i = s.frameInHand i)
    (hstate : (s.server.mUserObjPool i).mState ≠ .none →
      (s'.server.mUserObjPool i).mState ≠ .none) :
    Owned i { l with
      received := l.received ++ pData
      owners := l.owners ++ List.replicate pData.length connection } s' := by
  refine ⟨?_, ?_, ?_, ?_⟩
  · rw [hbuffer, (hv.setPacketData hcap).2, List.length_append, List.length_append,
      h.length_owners, List.length_replicate]
  · intro k hk
    rcases List.mem_append.mp hk with hk | hk
    · exact h.owners k hk
    · rw [List.eq_of_mem_replicate hk]
      exact hcurrent
  · rw [hframe]
    exact h.inHand
  · exact fun k hk => hstate (h.connected k hk)

/-- A frame that is taken keeps the owners of its bytes. -/
theorem Owned.frame (h : Owned i l s) (hv : (s.buffer i).Valid) {v : PacketView} {b : ReceiveBuffer}
    (hget : (s.buffer i).getPacket = (some v, b)) (hbuffer : s'.buffer i = b)
    (hframe : ∀ w ∈ s'.frameInHand i, w = v)
    (hstate : (s.server.mUserObjPool i).mState ≠ .none →
      (s'.server.mUserObjPool i).mState ≠ .none) :
    Owned i { l with
      owners := l.owners.drop v.dataSize.toNat
      inHand := l.owners.take v.dataSize.toNat } s' := by
  have hspec := hv.getPacket
  cases hnext : requestFormat.next (s.buffer i).unread with
  | none =>
    rw [hnext] at hspec
    simp [hget] at hspec
  | some r =>
    rcases r with ⟨f, rest⟩
    rw [hnext] at hspec
    rcases hspec with ⟨b', hb', -, hunread, -, hsize, -⟩
    obtain ⟨rfl, rfl⟩ : (s.buffer i).viewAt = v ∧ b' = b := by simpa [hget, eq_comm] using hb'
    have hlen := h.length_owners
    rw [← Format.append_of_next hnext, List.length_append] at hlen
    refine ⟨?_, ?_, ?_, ?_⟩
    · rw [hbuffer, hunread, List.length_drop, hlen, hsize, Nat.add_sub_cancel_left]
    · exact fun k hk => h.owners k (List.mem_of_mem_drop hk)
    · intro w hw
      rw [hframe w hw]
      refine ⟨?_, fun k hk => h.owners k (List.mem_of_mem_take hk)⟩
      rw [List.length_take, hlen, hsize, Nat.min_eq_left (Nat.le_add_right _ _)]
    · exact fun k hk => hstate (h.connected k hk)

/-- A system packet clears the buffer of its slot, unless the slot was never connected,
and then there is nothing in it. -/
theorem Owned.systemPacket (h : Owned i l s) {packet : SystemPacket n}
    {rest : List (SystemPacket n)} {out : List (Sent n)}
    (hqueue : s.mSystemPacketQueue = packet :: rest)
    (he : Server.Effect env s.server packet.event s'.server out)
    (hframe : s'.frameInHand i = none) :
    Owned i (l.next i ⟨s, .dequeSystemPacketData, s'⟩) s' := by
  have hbuffer : s'.buffer i = if s.server.Clears i packet.event then (s.buffer i).clear
    else s.buffer i := he.toReceiveBuffer i
  have hinHand {l : SlotLog} : ∀ v ∈ s'.frameInHand i, l.inHand.length = v.dataSize.toNat ∧
      ∀ connection ∈ l.inHand, l.Current connection := by simp [hframe]
  rw [SlotLog.next_systemPacket hqueue]
  by_cases hclears : s.server.Clears i packet.event
  · rw [if_pos hclears] at hbuffer ⊢
    refine ⟨?_, ?_, hinHand, fun _ _ => he.mState_of_clears hclears⟩
    · rw [hbuffer, ReceiveBuffer.unread_clear]
      rfl
    · exact fun _ hk => absurd hk List.not_mem_nil
  rw [if_neg hclears] at hbuffer ⊢
  by_cases hi : packet.clientIndex = i
  · rw [Server.clears_event, not_and_or, not_or, not_not] at hclears
    rcases hclears with hne | ⟨hid, hstate⟩
    · exact absurd hi hne
    -- no connect of the slot has been handled, so no byte has an owner
    have hnone (connection : ℕ) : (.sysUserConnect, connection) ∉ l.handled :=
      fun hmem => h.connected connection hmem hstate
    have howners : l.owners = [] := List.eq_nil_iff_forall_not_mem.mpr
      fun k hk => hnone k (h.owners k hk).connected.1
    refine ⟨by rw [hbuffer, h.length_owners], ?_, hinHand, fun k hk => ?_⟩
    · simp [howners]
    · rw [if_pos hi, List.mem_append, List.mem_singleton, Prod.mk.injEq] at hk
      rcases hk with hk | ⟨hk, -⟩
      · exact absurd hk (hnone k)
      · exact absurd hk.symm hid
  · rw [if_neg hi]
    exact h.congr rfl rfl rfl hbuffer (by simp [hframe]) fun hstate => he.mState_ne_none hstate

/-- A slot that has been connected once is never in state `None` again. -/
theorem Transition.mState_ne_none {a : Action n} (ht : Transition env s a s')
    (h : (s.server.mUserObjPool i).mState ≠ .none) :
    (s'.server.mUserObjPool i).mState ≠ .none := by
  cases ht with
  | accepted | closed | pushed | enqueued | noNotification | noSystemPacket => exact h
  | received | noFrame | frame =>
    intro hnone
    exact h ((Server.setBuffer_mState _ _ _).symm.trans hnone)
  | processed hphase he => exact he.mState_ne_none h
  | systemPacket hphase hqueue he => exact he.mState_ne_none h

theorem Owned.step (h : Owned i l s) (hv : (s.buffer i).Valid) {a : Action n}
    (hstep : SlotStep env i l s a s' l')
    (hstate : (s.server.mUserObjPool i).mState ≠ .none →
      (s'.server.mUserObjPool i).mState ≠ .none) (hintime : ReceivesInTime ⟨s, a, s'⟩)
    (hcurrent : ∀ connection pData, a = .setPacketData i connection pData → l.Current connection) :
    Owned i l' s' := by
  cases hstep with
  | other hbuffer hnotifications hinHand | noFrame hget hbuffer hnotifications hinHand =>
    exact h.congr rfl rfl rfl hbuffer (by simp [hinHand]) hstate
  | received hbuffer hnotifications hinHand =>
    exact h.received hv hintime.1 (hcurrent _ _ rfl) hbuffer hinHand hstate
  | @frame v b _ hget hbuffer hnotifications hbefore hinHand =>
    refine h.frame hv hget hbuffer (fun w hw => ?_) hstate
    rw [hinHand] at hw
    split_ifs at hw
    · exact (Option.some.inj hw).symm
    · exact nomatch hw
  | processed hbefore hbuffer hnotifications hinHand =>
    exact h.congr rfl rfl rfl hbuffer (by simp [hinHand]) hstate
  | systemPacket hqueue he hnotifications hbefore hinHand =>
    exact h.systemPacket hqueue he hinHand

/-! ## The two queues -/

/-- The notifications of a slot are taken before its system packets. -/
def NotificationsAhead (s : System n m δ) : Prop :=
  Ahead id SystemPacket.clientIndex s.dequeued s.mInComingPacketUserIndex s.mSystemPacketQueue

theorem NotificationsAhead.step {before : Trace n m δ} (h : s.NotificationsAhead) {a : Action n}
    (ht : Transition env s a s') (hin : InOrder before ⟨s, a, s'⟩) : s'.NotificationsAhead := by
  have horder := hin.2
  unfold NotificationsAhead at h ⊢
  cases ht with
  | accepted | received | closed => exact h
  | pushed hworker =>
    exact h.push_right fun i hi hkey => horder _ hworker (hkey ▸ hi)
  | enqueued hworker =>
    exact h.push_left (horder _ hworker)
  | noNotification hphase hqueue =>
    rw [hqueue]
    exact Ahead.nil_left
  | noFrame hphase hqueue hget =>
    rw [dequeued, if_pos hphase, hqueue] at h
    exact h.take_left
  | @frame i rest v b hphase hqueue hget =>
    rw [dequeued, if_pos hphase, hqueue] at h
    have hdone : (if v.packetId > PacketId.sysEnd.code then Phase.processRecvPacket i v
        else Phase.dequeSystemPacketData) ≠ .dequePacketData := by split_ifs <;> simp
    rw [dequeued, if_neg hdone]
    exact h.take_left
  | processed hphase he =>
    rw [dequeued, if_neg (by simp [hphase])] at h
    exact h
  | noSystemPacket hphase hqueue =>
    rw [hqueue]
    exact Ahead.nil_right
  | systemPacket hphase hqueue he =>
    rw [dequeued, if_neg (by simp [hphase]), hqueue] at h
    exact h.take_right

/-! ## Whole runs -/

/-- What all steps of a run in order keep. -/
structure Ordered (past : Trace n m δ) (s : System n m δ) : Prop where
  ahead : s.NotificationsAhead
  owned : ∀ i, Owned i (past.log i) s
  delivers : ∀ i fs, (∀ f ∈ fs, requestFormat.WellFormed f) →
    ∃ taken, Delivers i fs (past.log i) s taken

theorem Ordered.valid {past : Trace n m δ} (h : Ordered past s) (i : Fin n) :
    (s.buffer i).Valid := by
  rcases h.delivers i [] (by simp) with ⟨_, hdelivers⟩
  exact hdelivers.valid

theorem ordered_init (beginRoomNumber maxRoomCount maxRoomUserCount : Int32)
    (mem : Fin n → ℕ → UInt8) (db : δ) :
    Ordered [] (init (Server.init n beginRoomNumber maxRoomCount maxRoomUserCount mem db)) where
  ahead := Ahead.nil_left
  owned i := ⟨rfl, fun _ hk => absurd hk List.not_mem_nil,
    fun _ hv => absurd hv (by simp [frameInHand, init]), fun _ hk => absurd hk List.not_mem_nil⟩
  delivers i fs _ := ⟨[], delivers_init i fs _ _ _ mem db⟩

theorem Ordered.step {past : Trace n m δ} (h : Ordered past s) {a : Action n}
    (hstep : s.step env a = some s') (hin : InOrder past ⟨s, a, s'⟩) :
    Ordered (past ++ [⟨s, a, s'⟩]) s' := by
  have ht := transition_of_step hstep
  refine ⟨h.ahead.step ht hin, fun i => ?_, fun i fs hfs => ?_⟩
  · rw [Trace.log_snoc]
    apply (h.owned i).step (h.valid i) (slotStep_of_transition ht i _) ht.mState_ne_none hin.1
    rintro connection pData rfl
    exact hin.2
  · rcases h.delivers i fs hfs with ⟨_, hdelivers⟩
    rw [Trace.log_snoc]
    exact hdelivers.step hfs (slotStep_of_transition ht i _) hin.1

theorem Ordered.dispatchedInOrder {past : Trace n m δ} (h : Ordered past s) {a : Action n} :
    DispatchedInOrder past ⟨s, a, s'⟩ := by
  cases a with
  | processRecvPacket behind =>
    cases hphase : s.phase with
    | processRecvPacket i v =>
      rcases (h.owned i).inHand v (by simp [frameInHand, hphase]) with ⟨hlen, hcurrent⟩
      simp only [DispatchedInOrder, FromConnected, hphase]
      exact ⟨hlen, fun k hk => (hcurrent k hk).connected⟩
    | dequePacketData | dequeSystemPacketData =>
      simp only [DispatchedInOrder, FromConnected, hphase]
  | acceptCompletion | setPacketData | close | resume | dequePacketData |
    dequeSystemPacketData => trivial

theorem Ordered.handledInOrder {past : Trace n m δ} (h : Ordered past s) {a : Action n}
    (hstep : s.step env a = some s') (hin : InOrder past ⟨s, a, s'⟩) :
    HandledInOrder past ⟨s, a, s'⟩ := by
  cases transition_of_step hstep with
  | noSystemPacket hphase hqueue =>
    intro packet hhead
    simp [hqueue] at hhead
  | @systemPacket packet rest server out hphase hqueue he =>
    intro packet' hhead
    obtain rfl : packet = packet' := by simpa [hqueue] using hhead
    have hahead := h.ahead
    rw [NotificationsAhead, dequeued, if_neg (by simp [hphase]), hqueue] at hahead
    have hnone : packet.clientIndex ∉ s.mInComingPacketUserIndex :=
      fun hmem => hahead.front_right _ hmem rfl
    refine ⟨hnone, fun fs hfs hr => ?_⟩
    rcases h.delivers packet.clientIndex fs hfs with ⟨_, hdelivers⟩
    refine (hdelivers.settled hfs hr ⟨?_, by simp [frameInHand, hphase]⟩).1
    rw [notifications, List.count_eq_zero_of_not_mem hnone, Nat.zero_add]
    exact hin.2 packet hhead
  | accepted | received | closed | pushed | enqueued | noNotification | noFrame | frame |
    processed => trivial

/-- As long as all steps are in order: frames are dispatched between the connect and the
disconnect of the connection they arrived on, and no system packet of a slot is
handled while a notification is queued or a received frame is not dispatched. -/
theorem events_in_order {beginRoomNumber maxRoomCount maxRoomUserCount : Int32}
    {mem : Fin n → ℕ → UInt8} {db : δ} {past : Trace n maxRoomCount.toNatClampNeg δ}
    {s : System n maxRoomCount.toNatClampNeg δ}
    (run : Recorded.Run (step env)
      (init (Server.init n beginRoomNumber maxRoomCount maxRoomUserCount mem db)) past s)
    (meets : Recorded.AtEach InOrder past) :
    Recorded.AtEach (fun before e => DispatchedInOrder before e ∧ HandledInOrder before e) past :=
  run.atEach_of_invariant (P := Ordered) (ordered_init _ _ _ mem db)
    (fun _ _ _ _ _ h hstep hin => h.step hstep hin)
    (fun _ _ _ _ _ h hstep hin => ⟨h.dispatchedInOrder, h.handledInOrder hstep hin⟩) meets

/-- A client that logs in and leaves, and the next one on its slot. -/
theorem events_in_order_across_reuse :
    ∃ (past : Trace 1 (Int32.toNatClampNeg 10) Unit) (s : System 1 (Int32.toNatClampNeg 10) Unit),
      Recorded.Run (step Server.acceptingEnv) (init (Server.init 1 0 10 4 (fun _ _ => 0) ())) past s ∧
      (past.log 0).handled =
        [(.sysUserConnect, 1), (.sysUserDisconnect, 1), (.sysUserConnect, 2)] ∧
      Recorded.AtEach (fun before e => DispatchedInOrder before e ∧ HandledInOrder before e) past := by
  rcases Recorded.exists_run (step Server.acceptingEnv)
    (init (Server.init 1 0 10 4 (fun _ _ => 0) ()))
    [.acceptCompletion 0 true, .resume 0, .dequePacketData, .dequeSystemPacketData,
      .setPacketData 0 1 (requestFrame .reqLogin (reqLoginBody [65] [66])), .resume 0, .close 0,
      .resume 0, .dequePacketData, .processRecvPacket [], .dequeSystemPacketData,
      .acceptCompletion 0 true, .resume 0, .dequePacketData, .dequeSystemPacketData,
      .setPacketData 0 2 (requestFrame .reqLogin (reqLoginBody [65] [66])), .resume 0,
      .dequePacketData, .processRecvPacket [], .dequeSystemPacketData]
    (fun past _ => Recorded.AtEach InOrder past ∧ (Trace.log past 0).handled =
      [(.sysUserConnect, 1), (.sysUserDisconnect, 1), (.sysUserConnect, 2)])
    (by decide +kernel) with ⟨past, s, run, htest⟩
  rcases of_decide_eq_true htest with ⟨meets, hhandled⟩
  exact ⟨past, s, run, hhandled, events_in_order run meets⟩

/-- The first receive is posted before the push of `OnConnect`: a worker that is slow
there lets the login through before the connect. -/
theorem login_dispatched_before_connect :
    ∃ (past : Trace 1 (Int32.toNatClampNeg 10) Unit) (s : System 1 (Int32.toNatClampNeg 10) Unit),
      Recorded.Run (step Server.acceptingEnv) (init (Server.init 1 0 10 4 (fun _ _ => 0) ())) past s ∧
      (past.log 0).handled = [] ∧
      (past.log 0).dispatched = [requestFrame .reqLogin (reqLoginBody [65] [66])] ∧
      ¬Recorded.AtEach DispatchedInOrder past := by
  rcases Recorded.exists_run (step Server.acceptingEnv)
    (init (Server.init 1 0 10 4 (fun _ _ => 0) ()))
    [.acceptCompletion 0 true,
      .setPacketData 0 1 (requestFrame .reqLogin (reqLoginBody [65] [66])), .resume 1,
      .dequePacketData, .processRecvPacket []]
    (fun past _ => (Trace.log past 0).handled = [] ∧
      (Trace.log past 0).dispatched = [requestFrame .reqLogin (reqLoginBody [65] [66])] ∧
      ¬Recorded.AtEach DispatchedInOrder past)
    (by decide +kernel) with ⟨past, s, run, htest⟩
  exact ⟨past, s, run, of_decide_eq_true htest⟩

end System
end ChatServer
