import ChatServer.User.ByteQueue

/-! # What becomes of a packet that GetPacket hands out

A packet is handed out by pointer after the read cursor has moved past it, and the
cursor moves by the length that the client declared. So a dispatch is paid for by
received bytes exactly when the header declares its own length at least, and the
packet stays as it was while receives copy nothing over it.
-/

namespace ChatServer
open LinearMemory Recorded Framing

variable {mem : ℕ → UInt8} {past : List (Entry ReceiveBuffer BufferOp)} {b : ReceiveBuffer}

/-! ## Dispatches are paid for by received bytes -/

/-- What the users of the buffer see of an operation. -/
def BufferOp.event (b : ReceiveBuffer) : BufferOp → QueueEvent UInt8
  | .setPacketData pData => .append pData
  | .getPacket =>
    match b.getPacket.1 with
    | none => .incomplete
    | some view => .taken (b.packetData view).data
  | .clear => .clear

/-- The connection that uses the buffer, since its last `Clear`: the bytes it
received and the packets it dispatched. -/
def connection (past : List (Entry ReceiveBuffer BufferOp)) : Session UInt8 :=
  session (past.map fun e => e.act.event e.pre)

/-- How much of a connection's stream comes before its `k`-th dispatched header. -/
def headerPosition (c : Session UInt8) (k : ℕ) : ℕ := (c.taken.take k).flatten.length

/-- Every dispatch moves the read cursor past a header at least, no connection
dispatches more headers than it received, and none twice. -/
structure DispatchPaid (past : List (Entry ReceiveBuffer BufferOp)) : Prop where
  advances : ∀ e ∈ past, e.act = .getPacket → e.pre.getPacket.1 ≠ none →
    e.pre.mPacketDataBufferRPos.toNat + packetHeaderLength ≤ e.post.mPacketDataBufferRPos.toNat
  paid : ∀ n, packetHeaderLength * (connection (past.take n)).taken.length ≤
    (connection (past.take n)).received.length
  once : ∀ n i j, i < j → j < (connection (past.take n)).taken.length →
    headerPosition (connection (past.take n)) i ≠ headerPosition (connection (past.take n)) j

/-- If the packet at the front of the buffer is complete, its header declares a
length that counts the header. -/
def BufferOp.DeclaresHeader (b : ReceiveBuffer) : BufferOp → Prop
  | .getPacket =>
    packetHeaderLength ≤ b.unread.length → ByteQueue.number b.unread 0 ≤ b.unread.length →
      packetHeaderLength ≤ ByteQueue.number b.unread 0
  | _ => True

instance (b : ReceiveBuffer) : DecidablePred (BufferOp.DeclaresHeader b)
  | .getPacket => inferInstanceAs (Decidable (packetHeaderLength ≤ b.unread.length →
      ByteQueue.number b.unread 0 ≤ b.unread.length →
        packetHeaderLength ≤ ByteQueue.number b.unread 0))
  | .setPacketData _ => instDecidableTrue
  | .clear => instDecidableTrue

/-- In a valid buffer every operation is a step of the queue. -/
theorem BufferOp.queueStep {op : BufferOp} (hv : b.Valid) (hfits : op.Fits b) :
    QueueStep requestFormat b.unread (op.event b) (op.apply b).unread := by
  cases op with
  | setPacketData pData =>
    rw [BufferOp.apply, (hv.setPacketData hfits).2]
    exact .append _ _
  | getPacket =>
    have hget := hv.getPacket
    cases hnext : requestFormat.next b.unread with
    | none =>
      simp only [hnext] at hget
      simp only [event, apply, hget]
      exact .incomplete hnext
    | some r =>
      simp only [hnext] at hget
      rcases hget with ⟨b', hb', -, hrest, -, hsize, -, hwindow⟩
      have hdata : (b.packetData b.viewAt).data = r.1 := by
        simp only [ReceiveBuffer.packetData, hsize]
        exact hwindow
      simp only [event, apply, hb', hdata, hrest]
      exact .taken hnext
  | clear =>
    rw [BufferOp.apply, ReceiveBuffer.unread_clear]
    exact .clear _

/-- A run whose data fits is a trace of the queue. -/
theorem BufferRun.queueTrace (run : BufferRun mem past b)
    (hfits : ∀ e ∈ past, e.act.Fits e.pre) :
    Trace (QueueStep requestFormat) [] (past.map fun e => e.act.event e.pre) b.unread := by
  have hvalid := (run.valid hfits).2
  have hinit : (ReceiveBuffer.init mem).unread = [] := by
    simp [ReceiveBuffer.unread, ReceiveBuffer.init]
  rw [← hinit]
  apply run.trace
  intro e he
  rw [(hvalid e he).2]
  exact BufferOp.queueStep (hvalid e he).1 (hfits e he)

theorem BufferRun.take (run : BufferRun mem past b) (n : ℕ) :
    ∃ b', BufferRun mem (past.take n) b' := by
  induction run with
  | nil => exact ⟨_, by simpa using Run.nil⟩
  | @snoc past b op b' run hstep ih =>
    rcases Nat.lt_or_ge n (past.length + 1) with hn | hn
    · rwa [List.take_append_of_le_length (by omega)]
    · rw [List.take_of_length_le (by simpa using hn)]
      exact ⟨_, run.snoc hstep⟩

/-- `GetPacket` hands out a packet exactly when one is complete, and then moves the
read cursor by the declared length. -/
theorem ReceiveBuffer.Valid.getPacket_ne_none (hv : b.Valid) :
    (b.getPacket.1 ≠ none ↔ packetHeaderLength ≤ b.unread.length ∧
      ByteQueue.number b.unread 0 ≤ b.unread.length) ∧
    (b.getPacket.1 ≠ none → b.getPacket.2.mPacketDataBufferRPos.toNat =
      b.mPacketDataBufferRPos.toNat + ByteQueue.number b.unread 0) := by
  have hdeclared : requestFormat.declared b.unread = ByteQueue.number b.unread 0 :=
    toNat_uint16At b.unread 0
  have hget := hv.getPacket
  rw [← hdeclared]
  cases hnext : requestFormat.next b.unread with
  | none =>
    simp only [hnext] at hget
    refine ⟨⟨by simp [hget], fun h => ?_⟩, by simp [hget]⟩
    have hcut := Format.next_eq_some.mpr ⟨h.1, h.2, rfl, rfl⟩
    rw [hnext] at hcut
    cases hcut
  | some r =>
    simp only [hnext] at hget
    rcases Format.next_eq_some.mp hnext with ⟨hheader, hall, hf, -⟩
    rcases hget with ⟨b', hb', -, -, -, -, hpos, -⟩
    have hlen : r.1.length = requestFormat.declared b.unread := by
      rw [hf, List.length_take, min_eq_left hall]
    rw [hlen] at hpos
    exact ⟨by simpa [hb'] using ⟨hheader, hall⟩, by simp [hb', hpos]⟩

/-- Every packet that was handed out is as long as a header, if every header
declares that. -/
theorem length_taken (run : BufferRun mem past b) (hfits : ∀ e ∈ past, e.act.Fits e.pre)
    (hdeclares : ∀ e ∈ past, e.act.DeclaresHeader e.pre) :
    ∀ f ∈ (connection past).taken, packetHeaderLength ≤ f.length := by
  induction run with
  | nil => simp [connection, session]
  | @snoc past b op b' run hstep ih =>
    have hpast : ∀ e ∈ past, e.act.Fits e.pre := fun e he => hfits e (by simp [he])
    have hv := (BufferRun.valid run hpast).1
    have htaken := ih hpast fun e he => hdeclares e (by simp [he])
    have hlast := hdeclares ⟨b, op, b'⟩ (by simp)
    have hconn : connection (past ++ [⟨b, op, b'⟩]) = (connection past).after (op.event b) := by
      simp [connection]
    rw [hconn]
    cases op with
    | setPacketData pData => exact htaken
    | clear => simp [BufferOp.event, Session.after]
    | getPacket =>
      rw [BufferOp.event]
      split
      · exact htaken
      · rename_i view hview
        rcases hv.getPacket_ne_none.1.mp (by simp [hview]) with ⟨hheader, hall⟩
        have hqueue := congrArg Prod.fst hv.getPacket_eq_queue
        rw [hview, ByteQueue.getPacket, if_neg (by simp only [packetHeaderLength] at hheader; omega)]
          at hqueue
        have hdata : (b.packetData view).data = b.unread.take (ByteQueue.number b.unread 0) :=
          congrArg PacketData.data (Option.some.inj hqueue)
        intro f hf
        rcases List.mem_append.mp hf with hf | hf
        · exact htaken f hf
        · obtain rfl := List.mem_singleton.mp hf
          rw [hdata, List.length_take, min_eq_left hall]
          exact hlast hheader hall

/-- Dispatches are paid for exactly in the runs whose complete packets all declare
a length that counts their header. -/
theorem dispatch_paid_iff (mem : ℕ → UInt8) {past : List (Entry ReceiveBuffer BufferOp)}
    {b : ReceiveBuffer} (run : BufferRun mem past b) (hfits : ∀ e ∈ past, e.act.Fits e.pre) :
    DispatchPaid past ↔ ∀ e ∈ past, e.act.DeclaresHeader e.pre := by
  have hvalid := (run.valid hfits).2
  constructor
  · intro hpaid e he
    rcases hvalid e he with ⟨hv, hpost⟩
    cases hact : e.act with
    | setPacketData _ | clear => trivial
    | getPacket =>
      intro hheader hall
      have hsome := hv.getPacket_ne_none.1.mpr ⟨hheader, hall⟩
      have hadv := hpaid.advances e he hact hsome
      rw [hpost, hact, BufferOp.apply, hv.getPacket_ne_none.2 hsome] at hadv
      omega
  · intro hdeclares
    have hlen (n : ℕ) : ∀ f ∈ (connection (past.take n)).taken, packetHeaderLength ≤ f.length := by
      rcases run.take n with ⟨_, hrun⟩
      exact length_taken hrun (fun e he => hfits e (List.mem_of_mem_take he))
        fun e he => hdeclares e (List.mem_of_mem_take he)
    refine ⟨fun e he hact hsome => ?_, fun n => ?_, fun n i j hij hj => ?_⟩
    · rcases hvalid e he with ⟨hv, hpost⟩
      rcases hv.getPacket_ne_none.1.mp hsome with ⟨hheader, hall⟩
      have hdecl := hdeclares e he
      rw [hact] at hdecl
      rw [hpost, hact, BufferOp.apply, hv.getPacket_ne_none.2 hsome]
      exact Nat.add_le_add_left (hdecl hheader hall) _
    · rcases run.take n with ⟨b', hrun⟩
      have htrace := hrun.queueTrace fun e he => hfits e (List.mem_of_mem_take he)
      exact mul_taken_le_received htrace (hlen n)
    · have hne : ∀ f ∈ (connection (past.take n)).taken, f ≠ [] := by
        intro f hf hnil
        have := hlen n f hf
        rw [hnil] at this
        exact absurd this (by decide)
      exact (start_lt_start hne hij hj).ne

/-- A client that sends one header with `PacketLength` 0 has it dispatched by every
`GetPacket`. -/
theorem zero_length_header_dispatched_twice : ∃ past b,
    BufferRun (fun _ => 0) past b ∧ (∀ e ∈ past, e.act.Fits e.pre) ∧ ¬ DispatchPaid past := by
  obtain ⟨past, b, run, h⟩ := exists_run (fun b op => some (BufferOp.apply b op))
    (ReceiveBuffer.init fun _ => 0) [.setPacketData [0, 0, 44, 1, 0], .getPacket, .getPacket]
    (fun past _ => (∀ e ∈ past, e.act.Fits e.pre) ∧
      (connection (past.take 3)).taken.length = 2 ∧
      (connection (past.take 3)).received.length = 5) (by decide +kernel)
  rcases of_decide_eq_true h with ⟨hfits, htaken, hreceived⟩
  refine ⟨past, b, run, hfits, fun hpaid => ?_⟩
  have hcount := hpaid.paid 3
  rw [htaken, hreceived] at hcount
  exact absurd hcount (by decide)

/-- Two lobby requests that arrive together are dispatched one after the other. -/
theorem dispatch_paid_for_two_requests : ∃ past b,
    BufferRun (fun _ => 0) past b ∧ (connection past).taken.length = 2 ∧ DispatchPaid past := by
  obtain ⟨past, b, run, h⟩ := exists_run (fun b op => some (BufferOp.apply b op))
    (ReceiveBuffer.init fun _ => 0)
    [.setPacketData [5, 0, 44, 1, 0, 5, 0, 44, 1, 0], .getPacket, .getPacket, .getPacket]
    (fun past _ => (∀ e ∈ past, e.act.Fits e.pre) ∧ (connection past).taken.length = 2 ∧
      ∀ e ∈ past, e.act.DeclaresHeader e.pre) (by decide +kernel)
  rcases of_decide_eq_true h with ⟨hfits, htaken, hdeclares⟩
  exact ⟨past, b, run, htaken, (dispatch_paid_iff _ run hfits).mpr hdeclares⟩

/-! ## Receives between dispatch and handling -/

/-- A receive by the worker thread: 1 to `MAX_SOCKBUF` bytes that fit. -/
def ReceiveBuffer.receive (b : ReceiveBuffer) (pData : Bytes) : Option ReceiveBuffer :=
  if 1 ≤ pData.length ∧ pData.length ≤ maxSockbuf ∧
      b.unread.length + pData.length ≤ packetDataBufferSize.toNat then
    some (b.setPacketData pData)
  else none

/-- A receive leaves the packet alone: one that compacts ends below the packet, and
any other lies before or behind it. -/
def PacketView.LeftAlone (view : PacketView) (b : ReceiveBuffer) (pData : Bytes) : Prop :=
  view.dataSize = 0 ∨ b.Spares pData.length view.pDataPtr view.dataSize.toNat

instance (view : PacketView) (b : ReceiveBuffer) (pData : Bytes) :
    Decidable (view.LeftAlone b pData) :=
  inferInstanceAs (Decidable (_ ∨ _))

/-- Otherwise it copies to an address of the packet. -/
theorem PacketView.leftAlone_iff {view : PacketView} (hv : b.Valid) {pData : Bytes}
    (hpos : 1 ≤ pData.length) (hfits : BufferOp.Fits b (.setPacketData pData)) :
    view.LeftAlone b pData ↔ ∀ c ∈ b.copyCalls pData, ∀ k, c.dst ≤ k → k < c.dst + c.len →
      k < view.pDataPtr ∨ view.pDataPtr + view.dataSize.toNat ≤ k := by
  have hsize : view.dataSize = 0 ↔ view.dataSize.toNat = 0 := by
    rw [← UInt16.toNat_inj, UInt16.toNat_zero]
  have hn : pData.length ≤ 8096 := (Nat.le_add_left _ _).trans hfits
  have hposu : 0 < b.remainDataSize ↔ 0 < b.unread.length := by
    rw [UInt32.lt_iff_toNat_lt, hv.remainDataSize_toNat, UInt32.toNat_zero]
  rcases hv.makeRoom hn with ⟨-, -, hw⟩
  simp only [PacketView.LeftAlone, ReceiveBuffer.Spares, ReceiveBuffer.copyCalls,
    List.mem_append, List.mem_singleton, or_imp, forall_and, forall_eq, hv.reachesEnd_iff hn,
    hposu, hw, hsize]
  by_cases hend : 8096 ≤ b.mPacketDataBufferWPos.toNat + pData.length
  · simp only [hend, true_and, if_true]
    constructor
    · intro hleft
      refine ⟨fun c hc k _ hk => ?_, fun k _ hk => by omega⟩
      split_ifs at hc
      · obtain rfl := List.mem_singleton.mp hc
        simp only [hv.remainDataSize_toNat] at hk
        omega
      · simp at hc
    · rintro ⟨hcompact, hdata⟩
      by_contra hnot
      by_cases hlow : view.pDataPtr < b.unread.length
      · rw [if_pos (by omega)] at hcompact
        have := hcompact _ (List.mem_singleton_self _) view.pDataPtr (Nat.zero_le _)
          (by simp only [hv.remainDataSize_toNat]; omega)
        omega
      · have := hdata view.pDataPtr (by omega) (by omega)
        omega
  · simp only [hend, false_and, if_false, List.not_mem_nil, false_implies, implies_true, true_and]
    constructor
    · intro hleft k _ _
      omega
    · intro hdata
      have hstart := hdata b.mPacketDataBufferWPos.toNat le_rfl (by omega)
      by_contra hnot
      have := hdata view.pDataPtr (by omega) (by omega)
      omega

/-- A packet that `GetPacket` handed out in any run is intact after any receives that
leave it alone. -/
theorem packet_intact_of_leftAlone (mem : ℕ → UInt8)
    {past : List (Entry ReceiveBuffer BufferOp)} {b b₁ b₂ : ReceiveBuffer} {view : PacketView}
    {receives : List (Entry ReceiveBuffer Bytes)} (run : BufferRun mem past b)
    (hfits : ∀ e ∈ past, e.act.Fits e.pre) (hget : b.getPacket = (some view, b₁))
    (between : Run ReceiveBuffer.receive b₁ receives b₂)
    (hleft : ∀ e ∈ receives, view.LeftAlone e.pre e.act) :
    b₂.packetData view = b₁.packetData view := by
  have hv₁ : b₁.Valid := by
    have hv := (run.valid hfits).1.getPacket_valid
    rwa [hget] at hv
  have hboth : b₂.Valid ∧ b₂.packetData view = b₁.packetData view := by
    refine between.invariant (C := fun _ e => view.LeftAlone e.pre e.act)
      (P := fun _ b => b.Valid ∧ b.packetData view = b₁.packetData view) ⟨hv₁, rfl⟩ ?_
      (atEach_const.mpr hleft)
    rintro _ s pData s' _ ⟨hv, hsame⟩ hstep hleft
    simp only [ReceiveBuffer.receive, Option.ite_none_right_eq_some, Option.some.injEq] at hstep
    rcases hstep with ⟨⟨-, -, hfits⟩, rfl⟩
    refine ⟨(hv.setPacketData hfits).1, ?_⟩
    rw [← hsame]
    unfold ReceiveBuffer.packetData
    rcases hleft with hempty | hspares
    · simp [hempty]
    · rw [hv.window_setPacketData hfits hspares]
  exact hboth.2

/-- A lobby request is handed out; the next request arrives before it is handled. -/
theorem packet_intact_for_next_request : ∃ b b₁ b₂ : ReceiveBuffer, ∃ view past receives,
    BufferRun (fun _ => 0) past b ∧ b.getPacket = (some view, b₁) ∧
      Run ReceiveBuffer.receive b₁ receives b₂ ∧ receives.length = 1 ∧
      b₂.packetData view = b₁.packetData view := by
  obtain ⟨past, b, run, h⟩ := exists_run (fun b op => some (BufferOp.apply b op))
    (ReceiveBuffer.init fun _ => 0) [.setPacketData [5, 0, 44, 1, 0]]
    (fun past b => (∀ e ∈ past, e.act.Fits e.pre) ∧ b.getPacket.1 = some ⟨300, 5, 0⟩ ∧
      (perform ReceiveBuffer.receive b.getPacket.2 [[5, 0, 44, 1, 0]]).any
        fun r => r.1.length = 1 ∧ ∀ e ∈ r.1, PacketView.LeftAlone ⟨300, 5, 0⟩ e.pre e.act)
    (by decide +kernel)
  rcases of_decide_eq_true h with ⟨hfits, hget, hbetween⟩
  obtain ⟨receives, b₂, between, htest⟩ := exists_run ReceiveBuffer.receive b.getPacket.2
    [[5, 0, 44, 1, 0]] (fun receives _ => receives.length = 1 ∧
      ∀ e ∈ receives, PacketView.LeftAlone ⟨300, 5, 0⟩ e.pre e.act) hbetween
  rcases of_decide_eq_true htest with ⟨hlength, hleft⟩
  have hget' : b.getPacket = (some ⟨300, 5, 0⟩, b.getPacket.2) := Prod.ext hget rfl
  exact ⟨b, _, b₂, _, past, receives, run, hget', between, hlength,
    packet_intact_of_leftAlone _ run hfits hget' between hleft⟩

/-- A chat request whose header declares 7936 bytes, in 31 receives of 256 bytes. -/
def longChat : List BufferOp :=
  .setPacketData ([0, 31, 164, 1, 0] ++ List.replicate 251 65) ::
    List.replicate 30 (.setPacketData (List.replicate 256 65))

/-- The next receive compacts the empty rest of the buffer and copies its data over
the chat request in hand. -/
theorem long_chat_overwritten : ∃ b b₁ b₂ : ReceiveBuffer, ∃ view past receives,
    BufferRun (fun _ => 0) past b ∧ (∀ e ∈ past, e.act.Fits e.pre) ∧
      b.getPacket = (some view, b₁) ∧ Run ReceiveBuffer.receive b₁ receives b₂ ∧
      b₂.packetData view ≠ b₁.packetData view := by
  obtain ⟨past, b, run, h⟩ := exists_run (fun b op => some (BufferOp.apply b op))
    (ReceiveBuffer.init fun _ => 0) longChat
    (fun past b => (∀ e ∈ past, e.act.Fits e.pre) ∧ b.getPacket.1 = some ⟨420, 7936, 0⟩ ∧
      b.getPacket.2.mPacketDataBuffer 1 = 31 ∧
      (ReceiveBuffer.receive b.getPacket.2 (List.replicate 256 66)).map
        (fun b₂ => b₂.mPacketDataBuffer 1) = some 66) (by decide +kernel)
  rcases of_decide_eq_true h with ⟨hfits, hget, hbefore, hafter⟩
  rcases Option.map_eq_some_iff.mp hafter with ⟨b₂, hreceive, hafter⟩
  refine ⟨b, _, b₂, _, past, _, run, hfits, Prod.ext hget rfl, Run.nil.snoc hreceive,
    fun hsame => ?_⟩
  have hbyte := congrArg (fun d => d.data[1]?) hsame
  simp only [ReceiveBuffer.packetData, getElem?_window] at hbyte
  rw [if_pos (by decide), if_pos (by decide), hbefore, hafter] at hbyte
  exact absurd hbyte (by decide)

end ChatServer
