import ChatServer.PacketManager.ProcessThread
import Mathlib.Data.List.Perm.Basic

/-! # Requests are dispatched

`DequePacketData` takes at most one frame for a notification, and there is one
notification for a receive. So every request is dispatched as long as no receive
completes more frames than there are notifications for, and the buffer has room.
-/

namespace ChatServer
open LinearMemory Framing

/-- The worker is about to queue a notification for slot `i`. -/
def Worker.notifies {n : ℕ} (i : Fin n) : Worker n → Bool
  | .pushSystemPacket _ => false
  | .enqueuePacketData j _ => j = i

namespace System

variable {n m : ℕ} {δ : Type*}

/-- The notifications of a slot that are queued or that a worker is about to queue. -/
def notifications (s : System n m δ) (i : Fin n) : ℕ :=
  s.mInComingPacketUserIndex.count i + s.workers.countP (Worker.notifies i)

/-- The frame of slot `i` that `DequePacketData` has returned and that has not been
passed to `ProcessRecvPacket`. -/
def frameInHand (s : System n m δ) (i : Fin n) : Option PacketView :=
  match s.phase with
  | .processRecvPacket j v => if j = i then some v else none
  | _ => none

/-- The bytes that `pDataPtr` and `DataSize` of a frame of slot `i` stand for now. -/
def frameBytes (s : System n m δ) (i : Fin n) (v : PacketView) : Bytes :=
  window (s.buffer i).mPacketDataBuffer v.pDataPtr v.dataSize.toNat

/-- The test of `ProcessPacket` for data packets -/
def aboveSysEnd (f : Bytes) : Bool := (PacketHeader.read f).packetId > PacketId.sysEnd.code

/-- A receive fits into the buffer, completes no more frames than there are
notifications for, its own included, and spares the frame that is being dispatched. -/
def ReceivesInTime (e : Recorded.Entry (System n m δ) (Action n)) : Prop :=
  match e.act with
  | .setPacketData i _ pData =>
    (e.pre.buffer i).unread.length + pData.length ≤ packetDataBufferSize.toNat ∧
    (requestFormat.complete ((e.pre.buffer i).unread ++ pData)).length ≤
      e.pre.notifications i + 1 ∧
    ∀ v ∈ e.pre.frameInHand i,
      (e.pre.buffer i).Spares pData.length v.pDataPtr v.dataSize.toNat
  | _ => True

instance : DecidablePred (ReceivesInTime (n := n) (m := m) (δ := δ))
  | ⟨_, .setPacketData .., _⟩ => instDecidableAnd
  | ⟨_, .acceptCompletion .., _⟩ | ⟨_, .close _, _⟩ | ⟨_, .resume _, _⟩ |
    ⟨_, .dequePacketData, _⟩ | ⟨_, .processRecvPacket _, _⟩ | ⟨_, .dequeSystemPacketData, _⟩ =>
    instDecidableTrue

/-- All notifications of the slot have been used up and no frame of it is in hand. -/
def Settled (s : System n m δ) (i : Fin n) : Prop :=
  s.notifications i = 0 ∧ s.frameInHand i = none

instance (s : System n m δ) (i : Fin n) : Decidable (s.Settled i) := by
  unfold Settled
  infer_instance

variable {env : Env δ} {s s' : System n m δ} {i : Fin n} {fs : List Bytes} {l l' : SlotLog}
  {taken : List Bytes}

/-- What `GetPacket` took of the stream `fs` is dispatched up to the frame in hand, and
the notifications pay for the frames that are still in the buffer. -/
structure Delivers (i : Fin n) (fs : List Bytes) (l : SlotLog) (s : System n m δ)
    (taken : List Bytes) : Prop where
  valid : (s.buffer i).Valid
  reads : Reads requestFormat fs l.received taken (s.buffer i).unread (s.notifications i)
  dispatched : l.received <+: fs.flatten →
    l.dispatched ++ ((s.frameInHand i).map (s.frameBytes i)).toList = taken.filter aboveSysEnd

/-! ## Notifications -/

theorem countP_eraseIdx {α : Type*} {xs : List α} {k : ℕ} {x : α} (h : xs[k]? = some x)
    (p : α → Bool) : xs.countP p = (xs.eraseIdx k).countP p + if p x then 1 else 0 := by
  rcases List.getElem?_eq_some_iff.mp h with ⟨hk, rfl⟩
  rw [← (List.getElem_cons_eraseIdx_perm hk).countP_eq, List.countP_cons]

theorem buffer_setBuffer_self (i : Fin n) (b : ReceiveBuffer) :
    ((s.server.setBuffer i b).mUserObjPool i).toReceiveBuffer = b :=
  (s.server.setBuffer_toReceiveBuffer i i b).trans (if_pos rfl)

theorem buffer_setBuffer_of_ne {j : Fin n} (hj : j ≠ i) (b : ReceiveBuffer) :
    ((s.server.setBuffer j b).mUserObjPool i).toReceiveBuffer = s.buffer i :=
  (s.server.setBuffer_toReceiveBuffer j i b).trans (if_neg (Ne.symm hj))

/-! ## What a step is for one slot -/

/-- What a step does to the buffer and the notifications of slot `i`, and the account of
the slot afterwards. -/
inductive SlotStep (env : Env δ) (i : Fin n) (l : SlotLog) (s : System n m δ) :
    Action n → System n m δ → SlotLog → Prop
  | other {a : Action n} {s' : System n m δ} (hbuffer : s'.buffer i = s.buffer i)
      (hnotifications : s'.notifications i = s.notifications i)
      (hinHand : s'.frameInHand i = s.frameInHand i) : SlotStep env i l s a s' l
  | received {connection : ℕ} {pData : Bytes} {s' : System n m δ}
      (hbuffer : s'.buffer i = (s.buffer i).setPacketData pData)
      (hnotifications : s'.notifications i = s.notifications i + 1)
      (hinHand : s'.frameInHand i = s.frameInHand i) :
      SlotStep env i l s (.setPacketData i connection pData) s'
        { l with
          received := l.received ++ pData
          owners := l.owners ++ List.replicate pData.length connection }
  | noFrame {s' : System n m δ} (hget : (s.buffer i).getPacket = (none, s.buffer i))
      (hbuffer : s'.buffer i = s.buffer i)
      (hnotifications : s'.notifications i + 1 = s.notifications i)
      (hinHand : s'.frameInHand i = s.frameInHand i) : SlotStep env i l s .dequePacketData s' l
  | frame {v : PacketView} {b : ReceiveBuffer} {s' : System n m δ}
      (hget : (s.buffer i).getPacket = (some v, b)) (hbuffer : s'.buffer i = b)
      (hnotifications : s'.notifications i + 1 = s.notifications i)
      (hbefore : s.frameInHand i = none)
      (hinHand : s'.frameInHand i = if v.packetId > PacketId.sysEnd.code then some v else none) :
      SlotStep env i l s .dequePacketData s'
        { l with
          owners := l.owners.drop v.dataSize.toNat
          inHand := l.owners.take v.dataSize.toNat }
  | processed {v : PacketView} {behind : Bytes} {s' : System n m δ}
      (hbefore : s.frameInHand i = some v) (hbuffer : s'.buffer i = s.buffer i)
      (hnotifications : s'.notifications i = s.notifications i)
      (hinHand : s'.frameInHand i = none) :
      SlotStep env i l s (.processRecvPacket behind) s'
        { l with dispatched := l.dispatched ++ [s.frameBytes i v] }
  | systemPacket {packet : SystemPacket n} {rest : List (SystemPacket n)} {out : List (Sent n)}
      {s' : System n m δ} (hqueue : s.mSystemPacketQueue = packet :: rest)
      (he : Server.Effect env s.server packet.event s'.server out)
      (hnotifications : s'.notifications i = s.notifications i)
      (hbefore : s.frameInHand i = none) (hinHand : s'.frameInHand i = none) :
      SlotStep env i l s .dequeSystemPacketData s' (l.next i ⟨s, .dequeSystemPacketData, s'⟩)

/-- Every step of the system is one of these for slot `i`. -/
theorem slotStep_of_transition {a : Action n} (ht : Transition env s a s') (i : Fin n)
    (l : SlotLog) : SlotStep env i l s a s' (l.next i ⟨s, a, s'⟩) := by
  cases ht with
  | accepted | closed =>
    exact .other rfl (by simp [notifications, Worker.notifies]) rfl
  | @received j connection pData =>
    rw [SlotLog.next_setPacketData]
    by_cases hj : j = i
    · subst hj
      rw [if_pos rfl]
      refine .received (buffer_setBuffer_self j _) ?_ rfl
      simp [notifications, Worker.notifies, Nat.add_assoc]
    · rw [if_neg hj]
      refine .other (buffer_setBuffer_of_ne hj _) ?_ rfl
      simp [notifications, Worker.notifies, hj]
  | pushed hworker =>
    refine .other rfl ?_ rfl
    simp only [notifications, countP_eraseIdx hworker (Worker.notifies i), Worker.notifies,
      Bool.false_eq_true, if_false, Nat.add_zero]
  | @enqueued worker j connection hworker =>
    refine .other rfl ?_ rfl
    simp only [notifications, countP_eraseIdx hworker (Worker.notifies i), Worker.notifies,
      List.count_append, List.count_singleton, decide_eq_true_eq, beq_iff_eq]
    omega
  | noNotification hphase hqueue =>
    rw [SlotLog.next_noNotification hqueue]
    refine .other rfl rfl ?_
    simp [frameInHand, hphase]
  | @noFrame j rest hphase hqueue hget =>
    rw [SlotLog.next_noFrame hqueue hget]
    by_cases hj : j = i
    · subst hj
      refine .noFrame hget (buffer_setBuffer_self j _) ?_ ?_
      · simp [notifications, hqueue]
        omega
      · simp [frameInHand, hphase]
    · refine .other (buffer_setBuffer_of_ne hj _) ?_ ?_
      · simp [notifications, hqueue, hj]
      · simp [frameInHand, hphase]
  | @frame j rest v b hphase hqueue hget =>
    rw [SlotLog.next_frame hqueue hget]
    by_cases hj : j = i
    · subst hj
      rw [if_pos rfl]
      refine .frame hget (buffer_setBuffer_self j _) ?_ ?_ ?_
      · simp [notifications, hqueue]
        omega
      · simp [frameInHand, hphase]
      · by_cases habove : v.packetId > PacketId.sysEnd.code
        · simp [frameInHand, habove]
        · simp [frameInHand, habove]
    · rw [if_neg hj]
      refine .other (buffer_setBuffer_of_ne hj _) ?_ ?_
      · simp [notifications, hqueue, hj]
      · by_cases habove : v.packetId > PacketId.sysEnd.code
        · simp [frameInHand, habove, hphase, hj]
        · simp [frameInHand, habove, hphase]
  | @processed j v behind server out hphase he =>
    have hbuffer : (server.mUserObjPool i).toReceiveBuffer = s.buffer i :=
      he.toReceiveBuffer_frame i
    rw [SlotLog.next_processRecvPacket hphase]
    by_cases hj : j = i
    · subst hj
      rw [if_pos rfl]
      exact .processed (by simp [frameInHand, hphase]) hbuffer rfl rfl
    · rw [if_neg hj]
      refine .other hbuffer rfl ?_
      simp [frameInHand, hphase, hj]
  | noSystemPacket hphase hqueue =>
    rw [SlotLog.next_noSystemPacket hqueue]
    refine .other rfl rfl ?_
    simp [frameInHand, hphase]
  | systemPacket hphase hqueue he =>
    exact .systemPacket hqueue he rfl (by simp [frameInHand, hphase]) rfl

/-! ## The steps of one slot -/

/-- A slot that a step does not concern keeps what holds of it. -/
theorem Delivers.congr (h : Delivers i fs l s taken) (hreceived : l'.received = l.received)
    (hdispatched : l'.dispatched = l.dispatched) (hbuffer : s'.buffer i = s.buffer i)
    (hnotifications : s'.notifications i = s.notifications i)
    (hinHand : s'.frameInHand i = s.frameInHand i) : Delivers i fs l' s' taken where
  valid := hbuffer ▸ h.valid
  reads := by
    rw [hreceived, hbuffer, hnotifications]
    exact h.reads
  dispatched hr := by
    have hbytes : s'.frameBytes i = s.frameBytes i := by
      funext v
      rw [frameBytes, frameBytes, hbuffer]
    rw [hreceived] at hr
    rw [hdispatched, hinHand, hbytes]
    exact h.dispatched hr

/-- A worker stores what it received. -/
theorem Delivers.received (h : Delivers i fs l s taken) {connection : ℕ} {pData : Bytes}
    (hintime : ReceivesInTime ⟨s, .setPacketData i connection pData, s'⟩)
    (hbuffer : s'.buffer i = (s.buffer i).setPacketData pData)
    (hnotifications : s'.notifications i = s.notifications i + 1)
    (hinHand : s'.frameInHand i = s.frameInHand i)
    (hreceived : l'.received = l.received ++ pData) (hdispatched : l'.dispatched = l.dispatched) :
    Delivers i fs l' s' taken := by
  rcases hintime with ⟨hcap, hpaid, hspares⟩
  rcases h.valid.setPacketData hcap with ⟨hvalid, hunread⟩
  refine ⟨hbuffer ▸ hvalid, ?_, fun hr => ?_⟩
  · rw [hreceived, hbuffer, hunread, hnotifications]
    exact h.reads.append hpaid
  · rw [hreceived] at hr
    rw [hdispatched, hinHand, ← h.dispatched ((List.prefix_append _ _).trans hr)]
    -- the frame in hand still has its bytes
    cases hhand : s.frameInHand i with
    | none => rfl
    | some v =>
      have hsame := h.valid.window_setPacketData hcap (hspares v hhand)
      simp only [Option.map_some, frameBytes, hbuffer, hsame]

/-- A notification finds no complete frame. -/
theorem Delivers.noFrame (h : Delivers i fs l s taken)
    (hget : (s.buffer i).getPacket = (none, s.buffer i))
    (hbuffer : s'.buffer i = s.buffer i)
    (hnotifications : s'.notifications i + 1 = s.notifications i)
    (hinHand : s'.frameInHand i = s.frameInHand i) : Delivers i fs l s' taken := by
  have hnext : requestFormat.next (s.buffer i).unread = none := by
    have hspec := h.valid.getPacket
    cases hn : requestFormat.next (s.buffer i).unread with
    | none => rfl
    | some r =>
      rw [hn] at hspec
      rcases hspec with ⟨b', hsome, -⟩
      simp [hget] at hsome
  have hreads := h.reads
  rw [← hnotifications] at hreads
  refine ⟨hbuffer ▸ h.valid, ?_, fun hr => ?_⟩
  · rw [hbuffer]
    exact hreads.skip hnext
  · have hbytes : s'.frameBytes i = s.frameBytes i := by
      funext v
      rw [frameBytes, frameBytes, hbuffer]
    rw [hinHand, hbytes]
    exact h.dispatched hr

/-- A notification takes the frame at the front of the unread bytes. -/
theorem Delivers.frame (hfs : ∀ f ∈ fs, requestFormat.WellFormed f) (h : Delivers i fs l s taken)
    {v : PacketView} {b : ReceiveBuffer} (hget : (s.buffer i).getPacket = (some v, b))
    (hbuffer : s'.buffer i = b) (hnotifications : s'.notifications i + 1 = s.notifications i)
    (hbefore : s.frameInHand i = none)
    (hinHand : s'.frameInHand i = if v.packetId > PacketId.sysEnd.code then some v else none)
    (hreceived : l'.received = l.received) (hdispatched : l'.dispatched = l.dispatched) :
    ∃ taken', Delivers i fs l' s' taken' := by
  have hspec := h.valid.getPacket
  have hreads := h.reads
  rw [← hnotifications] at hreads
  cases hnext : requestFormat.next (s.buffer i).unread with
  | none =>
    rw [hnext] at hspec
    simp [hget] at hspec
  | some r =>
    rcases r with ⟨f, rest⟩
    rw [hnext] at hspec
    rcases hspec with ⟨b', hb', hvalid, hunread, hmem, hsize, -, hframe⟩
    obtain ⟨rfl, rfl⟩ : (s.buffer i).viewAt = v ∧ b' = b := by simpa [hget, eq_comm] using hb'
    refine ⟨taken ++ [f], hbuffer ▸ hvalid, ?_, fun hr => ?_⟩
    · rw [hreceived, hbuffer, hunread]
      exact hreads.take hfs hnext
    · rw [hreceived] at hr
      rcases hreads.next_frame hfs hr hnext with ⟨fs', hstream⟩
      have hf : requestFormat.WellFormed f := hfs f (by simp [hstream])
      -- the id that `GetPacket` returns is the one in the frame
      have hid : (s.buffer i).viewAt.packetId = (PacketHeader.read f).packetId := by
        rw [ReceiveBuffer.viewAt, ← Format.append_of_next hnext, PacketHeader.read_append hf.1]
      have hbytes : s'.frameBytes i (s.buffer i).viewAt = f := by
        rw [frameBytes, hbuffer, hmem, hsize]
        exact hframe
      have hdone := h.dispatched hr
      rw [hbefore, Option.map_none, Option.toList_none, List.append_nil] at hdone
      rw [hdispatched, hinHand, hdone, List.filter_append]
      by_cases habove : (s.buffer i).viewAt.packetId > PacketId.sysEnd.code
      · rw [if_pos habove, Option.map_some, hbytes, Option.toList_some,
          List.filter_singleton, aboveSysEnd, ← hid, decide_eq_true habove]
        rfl
      · rw [if_neg habove, Option.map_none, Option.toList_none, List.filter_singleton, aboveSysEnd,
          ← hid, decide_eq_false habove]
        rfl

/-- The frame in hand is passed to `ProcessRecvPacket`. -/
theorem Delivers.processed (h : Delivers i fs l s taken) {v : PacketView}
    (hbefore : s.frameInHand i = some v) (hbuffer : s'.buffer i = s.buffer i)
    (hnotifications : s'.notifications i = s.notifications i) (hinHand : s'.frameInHand i = none)
    (hreceived : l'.received = l.received)
    (hdispatched : l'.dispatched = l.dispatched ++ [s.frameBytes i v]) :
    Delivers i fs l' s' taken := by
  refine ⟨hbuffer ▸ h.valid, ?_, fun hr => ?_⟩
  · rw [hreceived, hbuffer, hnotifications]
    exact h.reads
  · rw [hreceived] at hr
    have hdone := h.dispatched hr
    rw [hbefore] at hdone
    rw [hdispatched, hinHand, ← hdone]
    simp

/-- `User::Clear` starts a new stream. -/
theorem delivers_cleared {b : ReceiveBuffer} (hbuffer : s'.buffer i = b.clear)
    (hinHand : s'.frameInHand i = none) (hreceived : l'.received = [])
    (hdispatched : l'.dispatched = []) : Delivers i fs l' s' [] := by
  refine ⟨hbuffer ▸ b.clear_valid, ?_, fun _ => ?_⟩
  · rw [hreceived, hbuffer, b.unread_clear]
    exact Reads.start _ _ _
  · rw [hdispatched, hinHand]
    rfl

/-- One step keeps the account of every slot. -/
theorem Delivers.step (hfs : ∀ f ∈ fs, requestFormat.WellFormed f) (h : Delivers i fs l s taken)
    {a : Action n} (hstep : SlotStep env i l s a s' l') (hintime : ReceivesInTime ⟨s, a, s'⟩) :
    ∃ taken', Delivers i fs l' s' taken' := by
  cases hstep with
  | other hbuffer hnotifications hinHand =>
    exact ⟨taken, h.congr rfl rfl hbuffer hnotifications hinHand⟩
  | received hbuffer hnotifications hinHand =>
    exact ⟨taken, h.received hintime hbuffer hnotifications hinHand rfl rfl⟩
  | noFrame hget hbuffer hnotifications hinHand =>
    exact ⟨taken, h.noFrame hget hbuffer hnotifications hinHand⟩
  | frame hget hbuffer hnotifications hbefore hinHand =>
    exact h.frame hfs hget hbuffer hnotifications hbefore hinHand rfl rfl
  | processed hbefore hbuffer hnotifications hinHand =>
    exact ⟨taken, h.processed hbefore hbuffer hnotifications hinHand rfl rfl⟩
  | @systemPacket packet rest out _ hqueue he hnotifications hbefore hinHand =>
    have hbuffer := he.toReceiveBuffer i
    rw [SlotLog.next_systemPacket hqueue]
    by_cases hclears : s.server.Clears i packet.event
    · rw [if_pos hclears] at hbuffer ⊢
      exact ⟨[], delivers_cleared hbuffer hinHand rfl rfl⟩
    · rw [if_neg hclears] at hbuffer ⊢
      exact ⟨taken, h.congr rfl rfl hbuffer hnotifications (hinHand.trans hbefore.symm)⟩

theorem delivers_init (i : Fin n) (fs : List Bytes)
    (beginRoomNumber maxRoomCount maxRoomUserCount : Int32) (mem : Fin n → ℕ → UInt8) (db : δ) :
    Delivers i fs SlotLog.start
      (init (Server.init n beginRoomNumber maxRoomCount maxRoomUserCount mem db)) [] :=
  delivers_cleared (b := ⟨mem i, 0, 0⟩) rfl rfl rfl rfl

/-- What every run keeps whose receives come in time. -/
theorem delivers_of_run {beginRoomNumber maxRoomCount maxRoomUserCount : Int32}
    {mem : Fin n → ℕ → UInt8} {db : δ} {past : Trace n maxRoomCount.toNatClampNeg δ}
    {s : System n maxRoomCount.toNatClampNeg δ}
    (run : Recorded.Run (step env)
      (init (Server.init n beginRoomNumber maxRoomCount maxRoomUserCount mem db)) past s)
    (meets : ∀ e ∈ past, ReceivesInTime e) (i : Fin n) (hfs : ∀ f ∈ fs, requestFormat.WellFormed f) :
    ∃ taken, Delivers i fs (past.log i) s taken :=
  run.invariant (C := fun _ e => ReceivesInTime e)
    (P := fun past s => ∃ taken, Delivers i fs (Trace.log past i) s taken)
    ⟨[], delivers_init i fs _ _ _ mem db⟩
    (fun _ _ _ _ _ ⟨_, h⟩ hstep hintime => by
      rw [Trace.log_snoc]
      exact h.step hfs (slotStep_of_transition (transition_of_step hstep) i _) hintime)
    (Recorded.atEach_const.mpr meets)

/-- With no notification left, all frames have been taken and dispatched. -/
theorem Delivers.settled (h : Delivers i fs l s taken) (hfs : ∀ f ∈ fs, requestFormat.WellFormed f)
    (hr : l.received <+: fs.flatten) (hsettled : s.Settled i) :
    l.dispatched = (within fs l.received.length).filter aboveSysEnd ∧
      requestFormat.next (s.buffer i).unread = none := by
  have hreads := h.reads
  have hdone := h.dispatched hr
  rw [hsettled.1] at hreads
  rw [hsettled.2, Option.map_none, Option.toList_none, List.append_nil,
    hreads.taken_eq_within hfs hr] at hdone
  refine ⟨hdone, ?_⟩
  cases hnext : requestFormat.next (s.buffer i).unread with
  | none => rfl
  | some r =>
    have hnone : (requestFormat.complete (s.buffer i).unread).length = 0 :=
      Nat.le_zero.mp (hreads.complete_le hr)
    rcases hreads.next_frame hfs hr hnext with ⟨fs', hstream⟩
    have hpos := requestFormat.headerSize_pos.trans_le (hfs r.1 (by simp [hstream])).1
    have := Format.length_complete_of_next hnext (List.ne_nil_of_length_pos hpos)
    omega

/-- As long as the receives come in time, whatever the workers and the process thread
do in between: when a slot has settled, the frames that it received since its buffer
was cleared have been dispatched, each once and in order, apart from those with an id
of the system; and no complete frame is left in the buffer. -/
theorem requests_dispatched {beginRoomNumber maxRoomCount maxRoomUserCount : Int32}
    {mem : Fin n → ℕ → UInt8} {db : δ} {past : Trace n maxRoomCount.toNatClampNeg δ}
    {s : System n maxRoomCount.toNatClampNeg δ}
    (run : Recorded.Run (step env)
      (init (Server.init n beginRoomNumber maxRoomCount maxRoomUserCount mem db)) past s)
    (meets : ∀ e ∈ past, ReceivesInTime e) (i : Fin n) (hfs : ∀ f ∈ fs, requestFormat.WellFormed f)
    (hr : (past.log i).received <+: fs.flatten) (hsettled : s.Settled i) :
    (past.log i).dispatched = (within fs (past.log i).received.length).filter aboveSysEnd ∧
      requestFormat.next (s.buffer i).unread = none := by
  rcases delivers_of_run run meets i hfs with ⟨taken, h⟩
  exact h.settled hfs hr hsettled

/-- A login that arrives in two parts and a lobby request: both are dispatched. -/
theorem requests_dispatched_for_split_frame :
    ∃ (past : Trace 1 (Int32.toNatClampNeg 10) Unit) (s : System 1 (Int32.toNatClampNeg 10) Unit),
      Recorded.Run (step Server.acceptingEnv) (init (Server.init 1 0 10 4 (fun _ _ => 0) ())) past s ∧
      s.Settled 0 ∧ (past.log 0).dispatched =
        [requestFrame .reqLogin (reqLoginBody [65] [66]), requestFrame .reqLobbyInfo []] ∧
      requestFormat.next (s.buffer 0).unread = none := by
  let login := requestFrame .reqLogin (reqLoginBody [65] [66])
  rcases Recorded.exists_run (step Server.acceptingEnv)
    (init (Server.init 1 0 10 4 (fun _ _ => 0) ()))
    [.acceptCompletion 0 true, .resume 0, .dequePacketData, .dequeSystemPacketData,
      .setPacketData 0 1 (login.take 10), .resume 0, .dequePacketData,
      .setPacketData 0 1 (login.drop 10), .dequeSystemPacketData, .resume 0,
      .setPacketData 0 1 (requestFrame .reqLobbyInfo []), .dequePacketData, .processRecvPacket [],
      .resume 0, .dequeSystemPacketData, .dequePacketData, .processRecvPacket [],
      .dequeSystemPacketData]
    (fun past s => (∀ e ∈ past, ReceivesInTime e) ∧ s.Settled 0 ∧
      (Trace.log past 0).received = [login, requestFrame .reqLobbyInfo []].flatten)
    (by decide +kernel) with ⟨past, s, run, htest⟩
  rcases of_decide_eq_true htest with ⟨meets, hsettled, hreceived⟩
  have hframes : ∀ f ∈ [login, requestFrame .reqLobbyInfo []], requestFormat.WellFormed f := by
    decide +kernel
  have h := requests_dispatched run meets 0 hframes (by rw [hreceived]) hsettled
  rw [hreceived] at h
  exact ⟨past, s, run, hsettled, h.1.trans (by decide +kernel), h.2⟩

/-- Two requests in one receive: one notification is queued and one request dispatched,
and with empty queues the other one stays in the buffer. -/
theorem merged_requests_leave_one_behind :
    ∃ (past : Trace 1 (Int32.toNatClampNeg 10) Unit) (s : System 1 (Int32.toNatClampNeg 10) Unit),
      Recorded.Run (step Server.acceptingEnv) (init (Server.init 1 0 10 4 (fun _ _ => 0) ())) past s ∧
      s.mInComingPacketUserIndex = [] ∧ s.workers = [] ∧ s.phase = .dequePacketData ∧
      (past.log 0).received =
        [requestFrame .reqLobbyInfo [], requestFrame .reqLobbyInfo []].flatten ∧
      (past.log 0).dispatched = [requestFrame .reqLobbyInfo []] ∧
      (s.buffer 0).unread = requestFrame .reqLobbyInfo [] := by
  rcases Recorded.exists_run (step Server.acceptingEnv)
    (init (Server.init 1 0 10 4 (fun _ _ => 0) ()))
    [.acceptCompletion 0 true, .resume 0, .dequePacketData, .dequeSystemPacketData,
      .setPacketData 0 1 (requestFrame .reqLobbyInfo [] ++ requestFrame .reqLobbyInfo []),
      .resume 0, .dequePacketData, .processRecvPacket [], .dequeSystemPacketData,
      .dequePacketData, .dequeSystemPacketData]
    (fun past s => s.mInComingPacketUserIndex = [] ∧ s.workers = [] ∧ s.phase = .dequePacketData ∧
      (Trace.log past 0).received =
        [requestFrame .reqLobbyInfo [], requestFrame .reqLobbyInfo []].flatten ∧
      (Trace.log past 0).dispatched = [requestFrame .reqLobbyInfo []] ∧
      (s.buffer 0).unread = requestFrame .reqLobbyInfo [])
    (by decide +kernel) with ⟨past, s, run, htest⟩
  exact ⟨past, s, run, of_decide_eq_true htest⟩

end System
end ChatServer
