import ChatServer.ServerNetwork.SendQueue
import ChatServer.Library.ServiceQueue
import ChatServer.Client.NetworkReadProcess

/-! # From `SendMsg` to `BackGroundProcess`

What `WSASend` takes over during a connection is the stream that its client reads. The
read thread takes the stream in chunks and enqueues packets, and each tick of the timer
passes one packet to `PacketProcess`.
-/

namespace ChatServer
open Recorded

/-- The message of a call of `SendMsg` -/
def SendEvent.message? : SendEvent → Option Bytes
  | .sendMsg pMsg _ => some pMsg
  | _ => none

namespace ClientInfo

variable {c c' : ClientInfo} {e : SendEvent} {result : WSAResult}

/-- `SendIO` may hand an operation over, and queues none. -/
theorem sendIO_grows (h : sendIO c result = some c') :
    c.handed <+: c'.handed ∧ c'.queued = c.queued := by
  unfold sendIO at h
  split at h
  next => cases h
  next front rest hqueue =>
    simp only [Option.ite_none_left_eq_some, Option.some.injEq] at h
    rcases h with ⟨-, rfl⟩
    refine ⟨?_, rfl⟩
    cases c.connection with
    | none => simp
    | some k => simp

theorem sendCompleted_grows (h : c.sendCompleted result = some c') :
    c.handed <+: c'.handed ∧ c'.queued = c.queued := by
  rw [sendCompleted] at h
  split at h
  next => cases h
  next front rest hqueue =>
    simp only at h
    split_ifs at h
    · obtain rfl := Option.some.inj h
      exact ⟨List.prefix_rfl, rfl⟩
    · have hgrows := sendIO_grows h
      exact hgrows

/-- What was handed over stays, and a message joins what was queued. -/
theorem step_grows (h : c.step e = some c') :
    c.handed <+: c'.handed ∧ c'.queued = c.queued ++ (e.message?.map c.overlappedEx).toList := by
  cases e with
  | postAccept | acceptCompletion =>
    simp only [step, Option.ite_none_right_eq_some, Option.some.injEq] at h
    rcases h with ⟨-, rfl⟩
    exact ⟨List.prefix_rfl, (List.append_nil _).symm⟩
  | sendMsg pMsg result =>
    rw [step, sendMsg_eq] at h
    split_ifs at h
    · have hgrows := sendIO_grows h
      exact hgrows
    · obtain rfl := Option.some.inj h
      exact ⟨List.prefix_rfl, rfl⟩
  | sendCompletion op ok result =>
    simp only [step, Option.ite_none_right_eq_some] at h
    rcases h with ⟨-, h⟩
    rw [show (SendEvent.sendCompletion op ok result).message? = none from rfl, Option.map_none,
      Option.toList_none, List.append_nil]
    cases ok with
    | true =>
      have hgrows := sendCompleted_grows h
      exact hgrows
    | false =>
      obtain rfl := Option.some.inj h
      exact ⟨List.prefix_rfl, rfl⟩
  | close =>
    obtain rfl := Option.some.inj h
    exact ⟨List.prefix_rfl, (List.append_nil _).symm⟩

theorem handedIn_prefix {ops ops' : List (ℕ × OverlappedEx)} (h : ops <+: ops') (k : ℕ) :
    handedIn ops k <+: handedIn ops' k := (h.filter _).map _

end ClientInfo

namespace Client
open Framing

instance : DecidablePred StreamFrame := fun _ => instDecidableAnd

instance (thread : ReadThread) (chunk : Bytes) : Decidable (Fits thread chunk) :=
  match thread with
  | none => .isTrue nofun
  | some r => decidable_of_iff (r.packetBuffer.writePos + chunk.length ≤ r.packetBuffer.bufferSize)
      ⟨fun h _ hr => Option.some.inj hr ▸ h, fun h => h r rfl⟩

/-- A slot of the server and the client of one of its connections. `taken` counts the
bytes that `Receive` has returned, and `dequeued` the packets that have left
`RecvPacketQueue`. -/
structure Downlink where
  clientInfo : ClientInfo
  taken : ℕ
  thread : ReadThread
  dequeued : ℕ

/-- What happens to the slot, a turn of the read thread with the number of bytes that
`Receive` returns, and a tick of the timer -/
inductive DownlinkEvent where
  | clientInfo (e : SendEvent)
  | networkReadProcess (nRecv : ℕ)
  | backGroundProcess

namespace Downlink

def init : Downlink := { clientInfo := .init, taken := 0, thread := form1Load, dequeued := 0 }

/-- The buffers that `WSASend` was given during a connection -/
def frames (d : Downlink) (k : ℕ) : List Bytes :=
  (ClientInfo.handedIn d.clientInfo.handed k).map (·.m_wsaBuf)

def stream (d : Downlink) (k : ℕ) : Bytes := (d.frames k).flatten

/-- The messages that `SendMsg` queued during a connection -/
def messages (d : Downlink) (k : ℕ) : List Bytes :=
  (ClientInfo.queuedIn d.clientInfo.queued k).map (·.m_wsaBuf)

/-- `RecvPacketQueue` -/
def recvPacketQueue (d : Downlink) : List PacketData :=
  d.thread.elim [] fun r => r.recvPacketQueue.drop d.dequeued

/-- `BackGroundProcess`, with the packet that it passes to `PacketProcess` -/
def backGroundProcess (d : Downlink) : Option PacketData × Downlink :=
  match d.recvPacketQueue with
  | [] => (none, d)
  | packet :: _ =>
    (if packet.packetID ≠ 0 then some packet else none, { d with dequeued := d.dequeued + 1 })

/-- The next `nRecv` bytes of the stream -/
def chunk (d : Downlink) (k nRecv : ℕ) : Bytes := ((d.stream k).drop d.taken).take nRecv

/-- The client of connection `k` reads its stream, and no other. -/
def step (k : ℕ) (d : Downlink) : DownlinkEvent → Option Downlink
  | .clientInfo e => (d.clientInfo.step e).map fun c => { d with clientInfo := c }
  | .networkReadProcess nRecv =>
    if 0 < nRecv ∧ nRecv ≤ readBufferLength ∧ d.taken + nRecv ≤ (d.stream k).length then
      (d.thread.step (d.chunk k nRecv)).map fun thread =>
        { d with taken := d.taken + nRecv, thread := thread }
    else none
  | .backGroundProcess => some d.backGroundProcess.2

/-- The slot keeps sending, the messages of the connection are frames of the client's
protocol, and a chunk fits into its buffer. -/
def Carries (k : ℕ) (d : Downlink) : DownlinkEvent → Prop
  | .clientInfo e => d.clientInfo.KeepsSending e ∧
      (d.clientInfo.connection = some k → ∀ pMsg ∈ e.message?, StreamFrame pMsg)
  | .networkReadProcess nRecv => Fits d.thread (d.chunk k nRecv)
  | .backGroundProcess => True

instance (k : ℕ) (d : Downlink) : DecidablePred (d.Carries k)
  | .clientInfo e => inferInstanceAs (Decidable (d.clientInfo.KeepsSending e ∧
      (d.clientInfo.connection = some k → ∀ pMsg ∈ e.message?, StreamFrame pMsg)))
  | .networkReadProcess nRecv => inferInstanceAs (Decidable (Fits d.thread (d.chunk k nRecv)))
  | .backGroundProcess => instDecidableTrue

/-- The packets that have been passed to `PacketProcess` -/
def handled (past : List (Entry Downlink DownlinkEvent)) : List PacketData :=
  past.filterMap fun e =>
    match e.act with
    | .backGroundProcess => e.pre.backGroundProcess.1
    | _ => none

/-- The connection is open, and nothing is queued or under way on it. -/
structure AtRest (k : ℕ) (d : Downlink) : Prop where
  connected : d.clientInfo.mSock = .connected
  connections : d.clientInfo.connections = k
  sent : d.clientInfo.mSendDataqueue = []
  taken : d.taken = (d.stream k).length
  dequeued : d.recvPacketQueue = []

/-! ## The invariant -/

/-- The read thread has all complete frames of what it has taken of the stream. -/
structure Inv (k : ℕ) (d : Downlink) : Prop where
  slot : d.clientInfo.Inv
  messages : ∀ f ∈ d.messages k, StreamFrame f
  taken_le : d.taken ≤ (d.stream k).length
  reader : ∃ r, d.thread = some r ∧ Sound (d.frames k) ((d.stream k).take d.taken) r ∧
    d.dequeued ≤ r.recvPacketQueue.length

variable {k : ℕ} {d d' : Downlink} {e : DownlinkEvent} {r : NetworkReader} {fs gs : List Bytes}
  {received : Bytes}

theorem init_inv (k : ℕ) : (init).Inv k where
  slot := ClientInfo.init_inv
  messages _ h := absurd h List.not_mem_nil
  taken_le := Nat.zero_le _
  reader := by
    rcases sound_form1Load (List.forall_mem_nil _) with ⟨r, hr, hsound⟩
    exact ⟨r, hr, hsound, Nat.zero_le _⟩

theorem frame_ne_nil {f : Bytes} (h : StreamFrame f) : f ≠ [] := by
  have hheader := h.1.1
  rintro rfl
  exact absurd hheader (by decide)

/-- The stream goes on behind what was received. -/
theorem sound_append (h : Sound fs received r) (hgs : ∀ g ∈ gs, StreamFrame g)
    (hlength : received.length ≤ fs.flatten.length) : Sound (fs ++ gs) received r := by
  have hwithin := within_append_right (fun g hg => frame_ne_nil (hgs g hg)) hlength
  exact { h with
    queue := by rw [hwithin]; exact h.queue
    split := by rw [hwithin]; exact h.split }

theorem Inv.frames_prefix (h : d.Inv k) : d.frames k <+: d.messages k := (h.slot.inOrder k).map _

theorem Inv.frames (h : d.Inv k) : ∀ f ∈ d.frames k, StreamFrame f :=
  fun f hf => h.messages f (h.frames_prefix.subset hf)

/-! ## One step -/

/-- More frames join the stream, and nothing that was read changes. -/
theorem take_stream_prefix (h : d.frames k <+: d'.frames k)
    (hle : d.taken ≤ (d.stream k).length) :
    (d'.stream k).take d.taken = (d.stream k).take d.taken := by
  rcases h.flatten with ⟨rest, hrest⟩
  rw [stream, ← hrest]
  exact List.take_append_of_le_length hle

theorem messages_clientInfo {c' : ClientInfo} {e : SendEvent} (hstep : d.clientInfo.step e = some c')
    (k : ℕ) : ({ d with clientInfo := c' } : Downlink).messages k = d.messages k ++
      if d.clientInfo.connection = some k then e.message?.toList else [] := by
  rw [messages, (ClientInfo.step_grows hstep).2]
  cases hmessage : e.message? with
  | none => simp [messages]
  | some pMsg =>
    have hown : (d.clientInfo.overlappedEx pMsg).connection = d.clientInfo.connection := rfl
    rw [Option.map_some, Option.toList_some, ClientInfo.queuedIn_append, List.map_append, hown]
    by_cases hconnection : d.clientInfo.connection = some k
    · rw [if_pos hconnection, if_pos hconnection]
      rfl
    · rw [if_neg hconnection, if_neg hconnection]
      rfl

theorem Inv.clientInfo (h : d.Inv k) {c' : ClientInfo} {e : SendEvent}
    (hstep : d.clientInfo.step e = some c') (hcarries : d.Carries k (.clientInfo e)) :
    Inv k { d with clientInfo := c' } := by
  have hslot := h.slot.step hcarries.1 hstep
  have hmessages : ∀ f ∈ ({ d with clientInfo := c' } : Downlink).messages k, StreamFrame f := by
    intro f hf
    rw [messages_clientInfo hstep] at hf
    rcases List.mem_append.mp hf with hf | hf
    · exact h.messages f hf
    · split_ifs at hf with hconnection
      · exact hcarries.2 hconnection f (Option.mem_toList.mp hf)
      · exact absurd hf List.not_mem_nil
  have hframes : d.frames k <+: ({ d with clientInfo := c' } : Downlink).frames k :=
    (ClientInfo.handedIn_prefix (ClientInfo.step_grows hstep).1 k).map _
  have hle : d.taken ≤ (stream { d with clientInfo := c' } k).length :=
    h.taken_le.trans hframes.flatten.length_le
  refine ⟨hslot, hmessages, hle, ?_⟩
  rcases h.reader with ⟨r, hr, hsound, hdequeued⟩
  refine ⟨r, hr, ?_, hdequeued⟩
  have htake := take_stream_prefix hframes h.taken_le
  change Sound _ ((stream { d with clientInfo := c' } k).take d.taken) r
  rw [htake]
  rcases hframes with ⟨gs, hgs⟩
  rw [← hgs]
  apply sound_append hsound
  · intro g hg
    have hmem : g ∈ ({ d with clientInfo := c' } : Downlink).frames k := by
      rw [← hgs]
      exact List.mem_append_right _ hg
    exact hmessages g (((hslot.inOrder k).map _).subset hmem)
  · rw [List.length_take]
    exact Nat.min_le_right _ _

/-- The chunk goes on where the reading has stopped. -/
theorem take_append_chunk (d : Downlink) (k nRecv : ℕ) :
    (d.stream k).take d.taken ++ d.chunk k nRecv = (d.stream k).take (d.taken + nRecv) := by
  rw [chunk, List.take_add]

theorem recvPacketQueue_grows {r' : NetworkReader} {bytes : Bytes} (h : r.receive bytes = some r') :
    r.recvPacketQueue <+: r'.recvPacketQueue := by
  simp only [NetworkReader.receive, Option.bind_eq_bind] at h
  rcases Option.bind_eq_some_iff.mp h with ⟨⟨packets, b⟩, -, h⟩
  obtain rfl := Option.some.inj h
  exact List.prefix_append _ _

theorem Inv.networkReadProcess (h : d.Inv k) {nRecv : ℕ}
    (hstep : d.step k (.networkReadProcess nRecv) = some d')
    (hcarries : d.Carries k (.networkReadProcess nRecv)) : d'.Inv k := by
  simp only [step, Option.ite_none_right_eq_some] at hstep
  rcases hstep with ⟨⟨-, -, hle⟩, hstep⟩
  rcases Option.map_eq_some_iff.mp hstep with ⟨thread, hthread, rfl⟩
  rcases h.reader with ⟨r, hr, hsound, hdequeued⟩
  have hstream : (d.stream k).take d.taken ++ d.chunk k nRecv <+: (d.frames k).flatten := by
    rw [take_append_chunk]
    exact List.take_prefix _ _
  rcases hsound.receive h.frames hstream (hcarries r hr) with ⟨r', hreceive, hsound'⟩
  rw [take_append_chunk] at hsound'
  rw [hr] at hthread
  obtain rfl : some r' = thread := hreceive.symm.trans (Option.some.inj hthread)
  exact ⟨h.slot, h.messages, hle, r', rfl, hsound',
    hdequeued.trans (recvPacketQueue_grows hreceive).length_le⟩

theorem Inv.recvPacketQueue (h : d.Inv k) : d.recvPacketQueue =
    ((within (d.frames k) d.taken).map packetOf).drop d.dequeued := by
  rcases h.reader with ⟨r, hr, hsound, -⟩
  rw [Downlink.recvPacketQueue, hr, Option.elim_some, hsound.queue, List.length_take,
    Nat.min_eq_left h.taken_le]

/-- A tick takes the packet in front, if there is one. -/
theorem Inv.backGroundProcess (h : d.Inv k) : d.backGroundProcess.2.Inv k := by
  rcases h.reader with ⟨r, hr, hsound, hdequeued⟩
  rw [Downlink.backGroundProcess]
  cases hqueue : d.recvPacketQueue with
  | nil => exact h
  | cons packet packets =>
    refine ⟨h.slot, h.messages, h.taken_le, r, hr, hsound, ?_⟩
    rw [Downlink.recvPacketQueue, hr, Option.elim_some] at hqueue
    have hlength := congrArg List.length hqueue
    rw [List.length_drop, List.length_cons] at hlength
    change d.dequeued + 1 ≤ _
    omega

theorem Inv.step (h : d.Inv k) (hstep : d.step k e = some d') (hcarries : d.Carries k e) :
    d'.Inv k := by
  cases e with
  | clientInfo e =>
    rcases Option.map_eq_some_iff.mp hstep with ⟨c', hc, rfl⟩
    exact h.clientInfo hc hcarries
  | networkReadProcess nRecv => exact h.networkReadProcess hstep hcarries
  | backGroundProcess =>
    obtain rfl := Option.some.inj hstep
    exact h.backGroundProcess

/-! ## Runs -/

variable {past : List (Entry Downlink DownlinkEvent)}

theorem Inv.of_run (run : Run (Downlink.step k) init past d)
    (carries : ∀ e ∈ past, e.pre.Carries k e.act) : d.Inv k :=
  run.invariant (C := fun _ e => e.pre.Carries k e.act) (P := fun _ d => d.Inv k) (init_inv k)
    (fun _ _ _ _ _ h hstep hcarries => h.step hstep hcarries) (atEach_const.mpr carries)

theorem Inv.dequeued_le (h : d.Inv k) :
    d.dequeued ≤ (within (d.frames k) d.taken).length := by
  rcases h.reader with ⟨r, -, hsound, hdequeued⟩
  rwa [hsound.queue, List.length_map, List.length_take, Nat.min_eq_left h.taken_le] at hdequeued

theorem Inv.within_prefix (h : d.Inv k) : within (d.frames k) d.taken <+: d.messages k :=
  (Framing.within_prefix _ _).trans h.frames_prefix

theorem Inv.dequeued_le_messages (h : d.Inv k) : d.dequeued ≤ (d.messages k).length :=
  h.dequeued_le.trans h.within_prefix.length_le

/-- A tick takes the next message of the connection, or finds none. -/
theorem Inv.backGroundProcess_cases (h : d.Inv k) :
    d.backGroundProcess = (none, d) ∨ ∃ f, (d.messages k)[d.dequeued]? = some f ∧
      d.backGroundProcess = (if (packetOf f).packetID ≠ 0 then some (packetOf f) else none,
        { d with dequeued := d.dequeued + 1 }) := by
  rw [Downlink.backGroundProcess]
  cases hqueue : d.recvPacketQueue with
  | nil => exact .inl rfl
  | cons packet packets =>
    right
    have hnext : ((within (d.frames k) d.taken).map packetOf)[d.dequeued]? = some packet := by
      rw [← List.head?_drop, ← h.recvPacketQueue, hqueue]
      rfl
    rw [List.getElem?_map] at hnext
    rcases Option.map_eq_some_iff.mp hnext with ⟨f, hf, rfl⟩
    have hlt := (List.getElem?_eq_some_iff.mp hf).1
    rcases h.within_prefix with ⟨rest, hrest⟩
    refine ⟨f, ?_, rfl⟩
    rw [← hrest, List.getElem?_append_left hlt]
    exact hf

/-- What `BackGroundProcess` passes on of a message -/
def passedOn (f : Bytes) : Option PacketData :=
  if (packetOf f).packetID ≠ 0 then some (packetOf f) else none

theorem handled_snoc (e : Entry Downlink DownlinkEvent) :
    handled (past ++ [e]) = handled past ++ handled [e] := List.filterMap_append

/-- The packets that have been passed to `PacketProcess` are the first messages of the
connection, in order and each once. -/
theorem handled_eq (run : Run (Downlink.step k) init past d)
    (carries : ∀ e ∈ past, e.pre.Carries k e.act) :
    handled past = ((d.messages k).take d.dequeued).filterMap passedOn := by
  induction run with
  | nil => rfl
  | @snoc past d e d' run hstep ih =>
    have hpast : ∀ e ∈ past, e.pre.Carries k e.act := fun e he =>
      carries e (List.mem_append_left _ he)
    have hinv := Inv.of_run run hpast
    have hle := hinv.dequeued_le_messages
    rw [handled_snoc, ih hpast]
    cases e with
    | clientInfo e =>
      rcases Option.map_eq_some_iff.mp hstep with ⟨c', hc, rfl⟩
      rw [messages_clientInfo hc, List.take_append_of_le_length hle]
      exact List.append_nil _
    | networkReadProcess nRecv =>
      simp only [Downlink.step, Option.ite_none_right_eq_some] at hstep
      rcases Option.map_eq_some_iff.mp hstep.2 with ⟨thread, -, rfl⟩
      exact List.append_nil _
    | backGroundProcess =>
      obtain rfl := Option.some.inj hstep
      have hlast : handled [⟨d, .backGroundProcess, d.backGroundProcess.2⟩] =
          d.backGroundProcess.1.toList := ServiceQueue.filterMap_singleton _ _
      rw [hlast]
      rcases hinv.backGroundProcess_cases with heq | ⟨f, hf, heq⟩
      · rw [heq]
        exact List.append_nil _
      · rw [heq]
        change _ ++ (passedOn f).toList = ((d.messages k).take (d.dequeued + 1)).filterMap passedOn
        rw [List.take_add_one, hf, List.filterMap_append, Option.toList_some,
          ServiceQueue.filterMap_singleton]

/-- At rest, all messages of the connection have been dequeued. -/
theorem Inv.dequeued_of_atRest (h : d.Inv k) (hrest : d.AtRest k) :
    d.dequeued = (d.messages k).length := by
  have hall : within (d.frames k) d.taken = d.frames k := by
    rw [hrest.taken]
    exact within_flatten _
  have hframes : d.frames k = d.messages k := by
    have hsplit := (h.slot.sending hrest.connected).2
    rw [hrest.sent, List.tail_nil, List.append_nil, hrest.connections] at hsplit
    rw [Downlink.frames, ← hsplit]
    rfl
  have hle := h.dequeued_le
  have hqueue := h.recvPacketQueue
  rw [hall] at hle hqueue
  rw [hrest.dequeued, eq_comm, List.drop_eq_nil_iff, List.length_map] at hqueue
  rw [← hframes]
  exact le_antisymm hle hqueue

/-- Over all connections of the slot, any results of `WSASend` that keep it sending, any
chunks and any ticks: the form gets the messages of its own connection, in order, none
lost, none twice and none cut, apart from those with the id 0; and all of them when the
connection is at rest. -/
theorem messages_reach_form (k : ℕ) (run : Run (Downlink.step k) init past d)
    (carries : ∀ e ∈ past, e.pre.Carries k e.act) :
    handled past = ((d.messages k).take d.dequeued).filterMap passedOn ∧
      d.dequeued ≤ (d.messages k).length ∧
      (d.AtRest k → handled past = (d.messages k).filterMap passedOn) := by
  have hinv := Inv.of_run run carries
  have hhandled := handled_eq run carries
  refine ⟨hhandled, hinv.dequeued_le_messages, fun hrest => ?_⟩
  rw [hhandled, hinv.dequeued_of_atRest hrest, List.take_length]

/-- Two messages of which the second waits for the first to be sent; the first comes in
two chunks, and a tick finds nothing in between. -/
theorem two_messages_reach_form : ∃ past d, Run (Downlink.step 1) init past d ∧
    (handled past).map (fun packet => (packet.packetID, packet.bodyData)) =
      [(300, []), (301, [7, 8])] := by
  obtain ⟨past, d, run, h⟩ := exists_run (Downlink.step 1) init
    [.clientInfo .postAccept, .clientInfo .acceptCompletion,
      .clientInfo (.sendMsg [5, 0, 44, 1, 0] .pending), .networkReadProcess 3,
      .clientInfo (.sendMsg [7, 0, 45, 1, 0, 7, 8] .success), .backGroundProcess,
      .networkReadProcess 2, .clientInfo (.sendCompletion ⟨0, [5, 0, 44, 1, 0], some 1⟩ true .pending),
      .backGroundProcess, .networkReadProcess 7, .backGroundProcess]
    (fun past d => (∀ e ∈ past, e.pre.Carries 1 e.act) ∧ d.dequeued = 2 ∧
      d.messages 1 = [[5, 0, 44, 1, 0], [7, 0, 45, 1, 0, 7, 8]]) (by decide +kernel)
  rcases of_decide_eq_true h with ⟨carries, hdequeued, hmessages⟩
  refine ⟨past, d, run, ?_⟩
  rw [(messages_reach_form 1 run carries).1, hdequeued, hmessages]
  decide

end Downlink
end Client
end ChatServer
