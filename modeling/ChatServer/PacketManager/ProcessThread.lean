import ChatServer.Server.Effect

/-! # The workers and the process thread

Workers store received bytes and push into two queues. The process thread takes one
notification and one system packet in each turn of `ProcessPacket`. A step is what
one thread does without another thread seeing a part of it.
-/

namespace ChatServer
open LinearMemory

/-- `PACKET_ID` of a packet in `mSystemPacketQueue` -/
inductive SystemPacketId where
  | sysUserConnect | sysUserDisconnect
  deriving DecidableEq, Repr

/-- A `PacketInfo` in `mSystemPacketQueue`. The connection it is about, the how many-th
of its slot, is not part of it in the source; no step looks at it. -/
structure SystemPacket (n : ℕ) where
  clientIndex : Fin n
  packetId : SystemPacketId
  connection : ℕ
  deriving DecidableEq

/-- What `ProcessRecvPacket` is called for. -/
def SystemPacket.event {n : ℕ} (p : SystemPacket n) : Event n :=
  match p.packetId with
  | .sysUserConnect => .connect p.clientIndex
  | .sysUserDisconnect => .disconnect p.clientIndex

/-- A worker between two steps, with what it does next: the push of `OnConnect` or
`OnClose`, or the `EnqueuePacketData` that follows a `SetPacketData`. -/
inductive Worker (n : ℕ) where
  | pushSystemPacket (packet : SystemPacket n)
  | enqueuePacketData (clientIndex : Fin n) (connection : ℕ)
  deriving DecidableEq

/-- Where the loop of `ProcessPacket` stands. -/
inductive Phase (n : ℕ) where
  | dequePacketData
  | processRecvPacket (clientIndex : Fin n) (packetData : PacketView)
  | dequeSystemPacketData
  deriving DecidableEq

/-- The steps of the workers, in any number, and of the process thread. `behind` is the
memory behind the receive buffer at the time of the step. -/
inductive Action (n : ℕ) where
  | acceptCompletion (i : Fin n) (posted : Bool)
  | setPacketData (i : Fin n) (connection : ℕ) (pData : Bytes)
  | close (i : Fin n)
  | resume (worker : ℕ)
  | dequePacketData
  | processRecvPacket (behind : Bytes)
  | dequeSystemPacketData

structure System (n m : ℕ) (δ : Type*) where
  server : Server n m δ
  mInComingPacketUserIndex : List (Fin n)
  mSystemPacketQueue : List (SystemPacket n)
  phase : Phase n
  workers : List (Worker n)
  /-- How many connections the slot has had, the current one included. -/
  connection : Fin n → ℕ
  /-- The socket of the slot is neither closed nor waiting for a client. -/
  isOpen : Fin n → Bool

/-- Write the buffer of one slot. -/
def Server.setBuffer {n m : ℕ} {δ : Type*} (s : Server n m δ) (i : Fin n) (b : ReceiveBuffer) :
    Server n m δ :=
  s.updateUser i fun u => { u with toReceiveBuffer := b }

namespace System

variable {n m : ℕ} {δ : Type*}

/-- No connection, empty queues, and the process thread at the start of its loop. -/
def init (server : Server n m δ) : System n m δ where
  server := server
  mInComingPacketUserIndex := []
  mSystemPacketQueue := []
  phase := .dequePacketData
  workers := []
  connection _ := 0
  isOpen _ := false

def buffer (s : System n m δ) (i : Fin n) : ReceiveBuffer :=
  (s.server.mUserObjPool i).toReceiveBuffer

/-- `PacketManager::DequePacketData` and the test of its result. An empty queue and a
buffer without a complete frame give `PacketInfo()`, whose id is zero. -/
def dequePacketData (s : System n m δ) : System n m δ :=
  match s.mInComingPacketUserIndex with
  | [] => { s with phase := .dequeSystemPacketData }
  | i :: rest =>
    let (packetData, b) := (s.buffer i).getPacket
    { s with
      server := s.server.setBuffer i b
      mInComingPacketUserIndex := rest
      phase := match packetData with
        | none => .dequeSystemPacketData
        | some v =>
          if v.packetId > PacketId.sysEnd.code then .processRecvPacket i v
          else .dequeSystemPacketData }

/-- A slot may be accepted again after `Close`, which is what `AccepterThread` is for.
The completion of a receive may be handled when its connection is closed already;
there is one receive at a time for each connection. -/
def step (env : Env δ) (s : System n m δ) : Action n → Option (System n m δ)
  | .acceptCompletion i posted =>
    if s.isOpen i then none
    else
      let connection := s.connection i + 1
      let packetId := if posted then .sysUserConnect else .sysUserDisconnect
      some { s with
        connection := Function.update s.connection i connection
        isOpen := Function.update s.isOpen i posted
        workers := s.workers ++ [.pushSystemPacket ⟨i, packetId, connection⟩] }
  | .setPacketData i connection pData =>
    if 0 < pData.length ∧ pData.length ≤ maxSockbuf ∧ 0 < connection ∧
        connection ≤ s.connection i ∧ .enqueuePacketData i connection ∉ s.workers then
      some { s with
        server := s.server.setBuffer i ((s.buffer i).setPacketData pData)
        workers := s.workers ++ [.enqueuePacketData i connection] }
    else none
  | .close i =>
    if s.connection i = 0 then none
    else some { s with
      isOpen := Function.update s.isOpen i false
      workers := s.workers ++ [.pushSystemPacket ⟨i, .sysUserDisconnect, s.connection i⟩] }
  | .resume worker =>
    match s.workers[worker]? with
    | none => none
    | some (.pushSystemPacket packet) =>
      some { s with
        mSystemPacketQueue := s.mSystemPacketQueue ++ [packet]
        workers := s.workers.eraseIdx worker }
    | some (.enqueuePacketData i _) =>
      some { s with
        mInComingPacketUserIndex := s.mInComingPacketUserIndex ++ [i]
        workers := s.workers.eraseIdx worker }
  | .dequePacketData =>
    if s.phase = .dequePacketData then some s.dequePacketData else none
  | .processRecvPacket behind =>
    match s.phase with
    | .processRecvPacket i v =>
      (s.server.processEvent env (.frame i v.packetId v.dataSize
        ((s.buffer i).memoryFrom v.pDataPtr behind))).map fun r =>
          { s with server := r.1, phase := .dequeSystemPacketData }
    | _ => none
  | .dequeSystemPacketData =>
    if s.phase = .dequeSystemPacketData then
      match s.mSystemPacketQueue with
      | [] => some { s with phase := .dequePacketData }
      | packet :: rest =>
        (s.server.processEvent env packet.event).map fun r =>
          { s with server := r.1, mSystemPacketQueue := rest, phase := .dequePacketData }
    else none

/-! ## What a step can do -/

inductive Transition (env : Env δ) (s : System n m δ) : Action n → System n m δ → Prop
  | accepted {i : Fin n} {posted : Bool} {packet : SystemPacket n} (hi : packet.clientIndex = i) :
      Transition env s (.acceptCompletion i posted)
        { s with
          connection := Function.update s.connection i (s.connection i + 1)
          isOpen := Function.update s.isOpen i posted
          workers := s.workers ++ [.pushSystemPacket packet] }
  | received {i : Fin n} {connection : ℕ} {pData : Bytes} (hsize : pData.length ≤ maxSockbuf) :
      Transition env s (.setPacketData i connection pData)
        { s with
          server := s.server.setBuffer i ((s.buffer i).setPacketData pData)
          workers := s.workers ++ [.enqueuePacketData i connection] }
  | closed {i : Fin n} {packet : SystemPacket n} (hi : packet.clientIndex = i) :
      Transition env s (.close i)
        { s with
          isOpen := Function.update s.isOpen i false
          workers := s.workers ++ [.pushSystemPacket packet] }
  | pushed {worker : ℕ} {packet : SystemPacket n}
      (hworker : s.workers[worker]? = some (.pushSystemPacket packet)) :
      Transition env s (.resume worker)
        { s with
          mSystemPacketQueue := s.mSystemPacketQueue ++ [packet]
          workers := s.workers.eraseIdx worker }
  | enqueued {worker : ℕ} {i : Fin n} {connection : ℕ}
      (hworker : s.workers[worker]? = some (.enqueuePacketData i connection)) :
      Transition env s (.resume worker)
        { s with
          mInComingPacketUserIndex := s.mInComingPacketUserIndex ++ [i]
          workers := s.workers.eraseIdx worker }
  | noNotification (hphase : s.phase = .dequePacketData)
      (hqueue : s.mInComingPacketUserIndex = []) :
      Transition env s .dequePacketData { s with phase := .dequeSystemPacketData }
  | noFrame {i : Fin n} {rest : List (Fin n)} (hphase : s.phase = .dequePacketData)
      (hqueue : s.mInComingPacketUserIndex = i :: rest)
      (hget : (s.buffer i).getPacket = (none, s.buffer i)) :
      Transition env s .dequePacketData
        { s with
          server := s.server.setBuffer i (s.buffer i)
          mInComingPacketUserIndex := rest
          phase := .dequeSystemPacketData }
  | frame {i : Fin n} {rest : List (Fin n)} {v : PacketView} {b : ReceiveBuffer}
      (hphase : s.phase = .dequePacketData) (hqueue : s.mInComingPacketUserIndex = i :: rest)
      (hget : (s.buffer i).getPacket = (some v, b)) :
      Transition env s .dequePacketData
        { s with
          server := s.server.setBuffer i b
          mInComingPacketUserIndex := rest
          phase := if v.packetId > PacketId.sysEnd.code then .processRecvPacket i v
            else .dequeSystemPacketData }
  | processed {i : Fin n} {v : PacketView} {behind : Bytes} {server : Server n m δ}
      {out : List (Sent n)} (hphase : s.phase = .processRecvPacket i v)
      (he : Server.Effect env s.server (.frame i v.packetId v.dataSize
        ((s.buffer i).memoryFrom v.pDataPtr behind)) server out) :
      Transition env s (.processRecvPacket behind)
        { s with server := server, phase := .dequeSystemPacketData }
  | noSystemPacket (hphase : s.phase = .dequeSystemPacketData)
      (hqueue : s.mSystemPacketQueue = []) :
      Transition env s .dequeSystemPacketData { s with phase := .dequePacketData }
  | systemPacket {packet : SystemPacket n} {rest : List (SystemPacket n)}
      {server : Server n m δ} {out : List (Sent n)} (hphase : s.phase = .dequeSystemPacketData)
      (hqueue : s.mSystemPacketQueue = packet :: rest)
      (he : Server.Effect env s.server packet.event server out) :
      Transition env s .dequeSystemPacketData
        { s with server := server, mSystemPacketQueue := rest, phase := .dequePacketData }

variable {env : Env δ} {s s' : System n m δ}

/-- `GetPacket` without a result leaves the buffer as it is. -/
theorem getPacket_none {b b' : ReceiveBuffer} (h : b.getPacket = (none, b')) : b' = b := by
  unfold ReceiveBuffer.getPacket at h
  simp only at h
  split_ifs at h
  · exact (Prod.mk.inj h).2.symm
  · exact (Prod.mk.inj h).2.symm
  · simp at h

theorem transition_of_step {a : Action n} (h : s.step env a = some s') : Transition env s a s' := by
  cases a with
  | acceptCompletion i posted =>
    simp only [step] at h
    by_cases hopen : s.isOpen i = true
    · simp [hopen] at h
    · obtain rfl := Option.some.inj ((if_neg hopen).symm.trans h)
      exact .accepted rfl
  | setPacketData i connection pData =>
    simp only [step] at h
    split_ifs at h with hc
    obtain rfl := Option.some.inj h
    exact .received hc.2.1
  | close i =>
    simp only [step] at h
    split_ifs at h
    obtain rfl := Option.some.inj h
    exact .closed rfl
  | resume worker =>
    simp only [step] at h
    cases hw : s.workers[worker]? with
    | none => simp [hw] at h
    | some w =>
      cases w with
      | pushSystemPacket packet =>
        obtain rfl : _ = s' := by simpa only [hw, Option.some.injEq] using h
        exact .pushed hw
      | enqueuePacketData i connection =>
        obtain rfl : _ = s' := by simpa only [hw, Option.some.injEq] using h
        exact .enqueued hw
  | dequePacketData =>
    simp only [step] at h
    split_ifs at h with hphase
    obtain rfl := Option.some.inj h
    unfold dequePacketData
    split
    next hqueue => exact .noNotification hphase hqueue
    next i rest hqueue =>
      rcases hget : (s.buffer i).getPacket with ⟨packetData, b⟩
      cases packetData with
      | none =>
        obtain rfl := getPacket_none hget
        exact .noFrame hphase hqueue hget
      | some v => exact .frame hphase hqueue hget
  | processRecvPacket behind =>
    simp only [step] at h
    cases hphase : s.phase with
    | processRecvPacket i v =>
      simp only [hphase, Option.map_eq_some_iff] at h
      rcases h with ⟨r, hr, rfl⟩
      exact .processed hphase (Server.effect_of_processEvent hr)
    | dequePacketData => simp [hphase] at h
    | dequeSystemPacketData => simp [hphase] at h
  | dequeSystemPacketData =>
    simp only [step] at h
    split_ifs at h with hphase
    split at h
    next hqueue =>
      obtain rfl := Option.some.inj h
      exact .noSystemPacket hphase hqueue
    next packet rest hqueue =>
      rcases Option.map_eq_some_iff.mp h with ⟨r, hr, rfl⟩
      exact .systemPacket hphase hqueue (Server.effect_of_processEvent hr)

end System

/-! ## Receive buffers and states under an event -/

namespace Server

variable {n m : ℕ} {δ : Type*} {env : Env δ} {s s' : Server n m δ} {e : Event n}
  {out : List (Sent n)}

/-- The event runs `User::Clear` of slot `j`. -/
def Clears (s : Server n m δ) (j : Fin n) : Event n → Prop
  | .connect i => j = i
  | .disconnect i => j = i ∧ (s.mUserObjPool i).mState ≠ .none
  | .frame .. => False

instance (s : Server n m δ) (j : Fin n) : DecidablePred (s.Clears j)
  | .connect i => inferInstanceAs (Decidable (j = i))
  | .disconnect _ => instDecidableAnd
  | .frame .. => instDecidableFalse

theorem updateUser_toReceiveBuffer {f : User → User} (i j : Fin n)
    (hf : ∀ u, (f u).toReceiveBuffer = u.toReceiveBuffer) :
    ((s.updateUser i f).mUserObjPool j).toReceiveBuffer =
      (s.mUserObjPool j).toReceiveBuffer := by
  rw [updateUser_apply]
  split_ifs with hj
  · rw [hf, hj]
  · rfl

theorem updateUser_clear (i j : Fin n) {f : User → User}
    (hf : ∀ u, (f u).toReceiveBuffer = u.toReceiveBuffer.clear) :
    ((s.updateUser i f).mUserObjPool j).toReceiveBuffer =
      if j = i then (s.mUserObjPool j).toReceiveBuffer.clear
      else (s.mUserObjPool j).toReceiveBuffer := by
  rw [updateUser_apply]
  split_ifs with hj
  · rw [hf, hj]
  · rfl

/-- A client frame leaves all receive buffers as they are. -/
theorem Effect.toReceiveBuffer_frame {i : Fin n} {packetId packetSize : UInt16} {p : Bytes}
    (he : Effect env s (.frame i packetId packetSize p) s' out) (j : Fin n) :
    (s'.mUserObjPool j).toReceiveBuffer = (s.mUserObjPool j).toReceiveBuffer := by
  cases he with
  | ignored | accountCreated | loginRefused | lobbyInfo | roomInfo | chatRefused | chat => rfl
  | loggedIn =>
    apply updateUser_toReceiveBuffer (s := s.recordLogin _ _ _)
    exact fun u => User.setLogin_buffer u _
  | enterRefused =>
    apply updateUser_toReceiveBuffer
    exact fun _ => rfl
  | entered =>
    apply updateUser_toReceiveBuffer (s := s.setRoom _ _ _)
    exact fun _ => rfl
  | leaveRefused =>
    apply updateUser_toReceiveBuffer
    exact fun u => User.changeState_buffer u _
  | left =>
    apply updateUser_toReceiveBuffer (s := s.setRoom _ _ _)
    exact fun u => User.changeState_buffer u _

/-- The only thing that an event does to a receive buffer is to clear it. -/
theorem Effect.toReceiveBuffer (he : Effect env s e s' out) (j : Fin n) :
    (s'.mUserObjPool j).toReceiveBuffer =
      if s.Clears j e then (s.mUserObjPool j).toReceiveBuffer.clear
      else (s.mUserObjPool j).toReceiveBuffer := by
  cases e with
  | connect i =>
    cases he
    exact updateUser_clear i j fun _ => rfl
  | disconnect i =>
    cases he with
    | disconnectUnused _ hstate => exact (if_neg fun h => h.2 hstate).symm
    | disconnect _ hstate =>
      have h := updateUser_clear (s := s.eraseUserID (s.mUserObjPool i).mUserID) i j
        User.clear_buffer
      by_cases hj : j = i
      · rw [if_pos hj] at h
        exact h.trans (if_pos ⟨hj, hstate⟩).symm
      · rw [if_neg hj] at h
        exact h.trans (if_neg fun hc => hj hc.1).symm
  | frame i packetId packetSize p =>
    exact (he.toReceiveBuffer_frame j).trans (if_neg not_false).symm

theorem updateUser_mState {f : User → User} {i j : Fin n}
    (hf : ∀ u : User, u.mState ≠ .none → (f u).mState ≠ .none)
    (h : (s.mUserObjPool j).mState ≠ .none) : ((s.updateUser i f).mUserObjPool j).mState ≠ .none := by
  rw [updateUser_apply]
  split_ifs with hj
  · subst hj
    exact hf _ h
  · exact h

/-- A slot that has been connected once is never in state `None` again. -/
theorem Effect.mState_ne_none (he : Effect env s e s' out) {j : Fin n}
    (h : (s.mUserObjPool j).mState ≠ .none) : (s'.mUserObjPool j).mState ≠ .none := by
  have hchange (state : UserState) (u : User) (hne : state ≠ .none) :
      (User.changeState state u).mState ≠ .none := by rwa [User.changeState_mState u hne]
  cases he with
  | connect i => exact updateUser_mState (fun u _ => hchange .connected u.clear (by decide)) h
  | disconnect i => exact updateUser_mState (s := s.eraseUserID _) (fun _ hu => hu) h
  | disconnectUnused | ignored | accountCreated | loginRefused | lobbyInfo | roomInfo |
    chatRefused | chat => exact h
  | loggedIn =>
    apply updateUser_mState (s := s.recordLogin _ _ _) _ h
    exact fun u _ => hchange .inLobby u (by decide)
  | enterRefused =>
    apply updateUser_mState _ h
    exact fun u _ => hchange .inRoom _ (by decide)
  | entered =>
    apply updateUser_mState (s := s.setRoom _ _ _) _ h
    exact fun u _ => hchange .inRoom _ (by decide)
  | leaveRefused =>
    apply updateUser_mState _ h
    exact fun u _ => hchange .inLobby u (by decide)
  | left =>
    apply updateUser_mState (s := s.setRoom _ _ _) _ h
    exact fun u _ => hchange .inLobby u (by decide)

theorem clears_event {packet : SystemPacket n} {j : Fin n} : s.Clears j packet.event ↔
    packet.clientIndex = j ∧
      (packet.packetId = .sysUserConnect ∨ (s.mUserObjPool j).mState ≠ .none) := by
  rcases packet with ⟨i, packetId, connection⟩
  cases packetId with
  | sysUserConnect => simp [SystemPacket.event, Clears, eq_comm]
  | sysUserDisconnect =>
    simp only [SystemPacket.event, Clears, reduceCtorEq, false_or, eq_comm (a := j)]
    exact and_congr_right fun hj => by rw [hj]

/-- A slot whose buffer is cleared is connected, or has been before. -/
theorem Effect.mState_of_clears (he : Effect env s e s' out) {j : Fin n} (h : s.Clears j e) :
    (s'.mUserObjPool j).mState ≠ .none := by
  cases e with
  | connect i =>
    cases he
    obtain rfl : j = i := h
    rw [processUserConnect, updateUser_self, User.changeState_mState _ (by decide)]
    decide
  | disconnect i =>
    rcases h with ⟨rfl, hstate⟩
    exact he.mState_ne_none hstate
  | frame => exact absurd h not_false

theorem setBuffer_toReceiveBuffer (i j : Fin n) (b : ReceiveBuffer) :
    ((s.setBuffer i b).mUserObjPool j).toReceiveBuffer =
      if j = i then b else (s.mUserObjPool j).toReceiveBuffer := by
  rw [setBuffer, updateUser_apply]
  split_ifs <;> rfl

theorem setBuffer_mState (i j : Fin n) (b : ReceiveBuffer) :
    ((s.setBuffer i b).mUserObjPool j).mState = (s.mUserObjPool j).mState := by
  rw [setBuffer, updateUser_apply]
  split_ifs with hj
  · rw [hj]
  · rfl

end Server

/-! ## What happened to a slot so far -/

abbrev Trace (n m : ℕ) (δ : Type*) := List (Recorded.Entry (System n m δ) (Action n))

/-- The account of one slot. `owners` and `inHand` name the connection of each unread
byte and of each byte of the frame that was taken last; `received` and `dispatched`
start anew when the buffer is cleared. -/
structure SlotLog where
  received : Bytes
  owners : List ℕ
  inHand : List ℕ
  dispatched : List Bytes
  handled : List (SystemPacketId × ℕ)

namespace SlotLog

variable {n m : ℕ} {δ : Type*}

def start : SlotLog :=
  { received := [], owners := [], inHand := [], dispatched := [], handled := [] }

/-- The bytes in the buffer are discarded. -/
def clear (l : SlotLog) : SlotLog := { start with handled := l.handled }

/-- The account of slot `i` after one more step. -/
def next (i : Fin n) (l : SlotLog) (e : Recorded.Entry (System n m δ) (Action n)) : SlotLog :=
  match e.act with
  | .setPacketData j connection pData =>
    if j = i then { l with
      received := l.received ++ pData
      owners := l.owners ++ List.replicate pData.length connection }
    else l
  | .dequePacketData =>
    if e.pre.mInComingPacketUserIndex.head? = some i then
      match (e.pre.buffer i).getPacket.1 with
      | none => l
      | some v => { l with
          owners := l.owners.drop v.dataSize.toNat
          inHand := l.owners.take v.dataSize.toNat }
    else l
  | .processRecvPacket _ =>
    match e.pre.phase with
    | .processRecvPacket j v =>
      if j = i then { l with
        dispatched := l.dispatched ++
          [window (e.pre.buffer i).mPacketDataBuffer v.pDataPtr v.dataSize.toNat] }
      else l
    | _ => l
  | .dequeSystemPacketData =>
    match e.pre.mSystemPacketQueue with
    | [] => l
    | packet :: _ =>
      let l := if e.pre.server.Clears i packet.event then l.clear else l
      if packet.clientIndex = i then
        { l with handled := l.handled ++ [(packet.packetId, packet.connection)] }
      else l
  | _ => l

section next

variable {i j : Fin n} {l : SlotLog} {s s' : System n m δ}

theorem next_setPacketData {connection : ℕ} {pData : Bytes} :
    l.next i ⟨s, .setPacketData j connection pData, s'⟩ =
      if j = i then { l with
        received := l.received ++ pData
        owners := l.owners ++ List.replicate pData.length connection }
      else l := rfl

theorem next_noNotification (hqueue : s.mInComingPacketUserIndex = []) :
    l.next i ⟨s, .dequePacketData, s'⟩ = l := by
  simp [next, hqueue]

theorem next_noFrame {rest : List (Fin n)} {b : ReceiveBuffer}
    (hqueue : s.mInComingPacketUserIndex = j :: rest)
    (hget : (s.buffer j).getPacket = (none, b)) : l.next i ⟨s, .dequePacketData, s'⟩ = l := by
  simp only [next, hqueue, List.head?_cons, Option.some.injEq]
  split_ifs with hj
  · subst hj
    rw [hget]
  · rfl

theorem next_frame {rest : List (Fin n)} {v : PacketView} {b : ReceiveBuffer}
    (hqueue : s.mInComingPacketUserIndex = j :: rest)
    (hget : (s.buffer j).getPacket = (some v, b)) :
    l.next i ⟨s, .dequePacketData, s'⟩ =
      if j = i then { l with
        owners := l.owners.drop v.dataSize.toNat
        inHand := l.owners.take v.dataSize.toNat }
      else l := by
  simp only [next, hqueue, List.head?_cons, Option.some.injEq]
  split_ifs with hj
  · subst hj
    rw [hget]
  · rfl

theorem next_processRecvPacket {v : PacketView} {behind : Bytes}
    (hphase : s.phase = .processRecvPacket j v) :
    l.next i ⟨s, .processRecvPacket behind, s'⟩ =
      if j = i then { l with
        dispatched := l.dispatched ++
          [window (s.buffer i).mPacketDataBuffer v.pDataPtr v.dataSize.toNat] }
      else l := by
  simp only [next, hphase]

theorem next_noSystemPacket (hqueue : s.mSystemPacketQueue = []) :
    l.next i ⟨s, .dequeSystemPacketData, s'⟩ = l := by
  simp only [next, hqueue]

theorem next_systemPacket {packet : SystemPacket n} {rest : List (SystemPacket n)}
    (hqueue : s.mSystemPacketQueue = packet :: rest) :
    l.next i ⟨s, .dequeSystemPacketData, s'⟩ =
      { (if s.server.Clears i packet.event then l.clear else l) with
        handled := if packet.clientIndex = i then
            l.handled ++ [(packet.packetId, packet.connection)]
          else l.handled } := by
  simp only [next, hqueue]
  split_ifs <;> rfl

end next

end SlotLog

/-- The account of slot `i` after the recorded steps. -/
def Trace.log {n m : ℕ} {δ : Type*} (past : Trace n m δ) (i : Fin n) : SlotLog :=
  past.foldl (SlotLog.next i) SlotLog.start

@[simp] theorem Trace.log_nil {n m : ℕ} {δ : Type*} (i : Fin n) :
    Trace.log ([] : Trace n m δ) i = SlotLog.start := rfl

@[simp] theorem Trace.log_snoc {n m : ℕ} {δ : Type*} (past : Trace n m δ)
    (e : Recorded.Entry (System n m δ) (Action n)) (i : Fin n) :
    Trace.log (past ++ [e]) i = (Trace.log past i).next i e := by
  simp [Trace.log]

end ChatServer
