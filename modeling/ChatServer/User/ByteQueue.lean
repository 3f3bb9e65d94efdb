import ChatServer.User.BufferSafety
import ChatServer.Library.FrameQueue

/-! # The receive buffer as a byte queue

For its users the receive buffer is a queue of bytes that is read frame by frame.
With `CopyMemory` as `memmove`, every run of `SetPacketData`, `GetPacket` and
`Clear` in which the data always fits answers as the queue does.
-/

namespace ChatServer
open LinearMemory Recorded Framing

/-- A packet as its user reads it: `PacketId` and `DataSize`, and the bytes at `pDataPtr`. -/
structure PacketData where
  packetId : ℕ
  dataSize : ℕ
  data : Bytes
  deriving DecidableEq

/-- The packet behind a view. -/
def ReceiveBuffer.packetData (b : ReceiveBuffer) (view : PacketView) : PacketData :=
  { packetId := view.packetId.toNat
    dataSize := view.dataSize.toNat
    data := window b.mPacketDataBuffer view.pDataPtr view.dataSize.toNat }

/-! ## The abstract queue -/

namespace ByteQueue

/-- The little-endian number in two bytes of the queue. -/
def number (q : Bytes) (k : ℕ) : ℕ := (q.getD k 0).toNat + 256 * (q.getD (k + 1) 0).toNat

/-- The packet at the front of the queue, if it is complete. -/
def getPacket (q : Bytes) : Option PacketData × Bytes :=
  if q.length < 5 ∨ q.length < number q 0 then (none, q)
  else (some { packetId := number q 2, dataSize := number q 0, data := q.take (number q 0) },
    q.drop (number q 0))

def apply (q : Bytes) : BufferOp → Option PacketData × Bytes
  | .setPacketData pData => (none, q ++ pData)
  | .getPacket => getPacket q
  | .clear => (none, [])

/-- The answers to a sequence of operations, and the queue after them. -/
def run (q : Bytes) : List BufferOp → List (Option PacketData) × Bytes
  | [] => ([], q)
  | op :: ops => ((apply q op).1 :: (run (apply q op).2 ops).1, (run (apply q op).2 ops).2)

theorem run_snoc (q : Bytes) (ops : List BufferOp) (op : BufferOp) :
    run q (ops ++ [op]) =
      ((run q ops).1 ++ [(apply (run q ops).2 op).1], (apply (run q ops).2 op).2) := by
  induction ops generalizing q with
  | nil => rfl
  | cons first ops ih => simp [run, ih]

end ByteQueue

/-! ## The operations of the buffer -/

namespace BufferOp

/-- What `GetPacket` returns; the other operations return nothing. -/
def answer (b : ReceiveBuffer) : BufferOp → Option PacketView
  | .getPacket => b.getPacket.1
  | _ => none

/-- One operation, of data of any size. -/
def apply (b : ReceiveBuffer) : BufferOp → ReceiveBuffer
  | .setPacketData pData => b.setPacketData pData
  | .getPacket => b.getPacket.2
  | .clear => b.clear

/-- The data fits behind the unread bytes. -/
def Fits (b : ReceiveBuffer) : BufferOp → Prop
  | .setPacketData pData => b.unread.length + pData.length ≤ packetDataBufferSize.toNat
  | _ => True

instance (b : ReceiveBuffer) : DecidablePred (Fits b)
  | .setPacketData pData =>
    decidable_of_iff (b.mPacketDataBufferWPos.toNat - b.mPacketDataBufferRPos.toNat +
      pData.length ≤ packetDataBufferSize.toNat) (by rw [Fits, ReceiveBuffer.length_unread])
  | .getPacket => instDecidableTrue
  | .clear => instDecidableTrue

/-- Every access is to the allocation: the copies, the header that `GetPacket`
looks at, and the packet that it hands out. -/
def AccessesInside (b : ReceiveBuffer) : BufferOp → Prop
  | .setPacketData pData => ∀ c ∈ b.copyCalls pData, c.Inside
  | .getPacket =>
    (packetHeaderLength ≤ b.remainDataSize.toNat →
      b.mPacketDataBufferRPos.toNat + packetHeaderLength ≤ packetDataBufferSize.toNat) ∧
    ∀ view ∈ b.getPacket.1, view.pDataPtr + view.dataSize.toNat ≤ packetDataBufferSize.toNat
  | .clear => True

end BufferOp

/-- A run of operations with arbitrary data. -/
abbrev BufferRun (mem : ℕ → UInt8) (past : List (Entry ReceiveBuffer BufferOp))
    (b : ReceiveBuffer) : Prop :=
  Run (fun b op => some (BufferOp.apply b op)) (ReceiveBuffer.init mem) past b

theorem toNat_uint16At (q : Bytes) (k : ℕ) : (uint16At q k).toNat = ByteQueue.number q k := by
  have h₁ := (q.getD k 0).toNat_lt
  have h₂ := (q.getD (k + 1) 0).toNat_lt
  rw [uint16At, UInt16.toNat_ofNat', byteAt, byteAt, ByteQueue.number, Nat.mod_eq_of_lt (by omega)]

/-- The abstract queue is read in the frames of the requests. -/
theorem ByteQueue.getPacket_eq_next (q : Bytes) : ByteQueue.getPacket q =
    match requestFormat.next q with
    | none => (none, q)
    | some (f, rest) =>
      (some { packetId := number q 2, dataSize := f.length, data := f }, rest) := by
  have hdeclared : requestFormat.declared q = number q 0 := toNat_uint16At q 0
  have hheader : requestFormat.headerSize = 5 := rfl
  unfold ByteQueue.getPacket Format.next
  rw [hdeclared, hheader]
  by_cases hshort : q.length < 5 ∨ q.length < number q 0
  · rw [if_pos hshort, if_neg (by omega)]
  · have hlen : (q.take (number q 0)).length = number q 0 := by
      rw [List.length_take]
      omega
    rw [if_neg hshort, if_pos (by omega)]
    simp only [hlen]

namespace ReceiveBuffer.Valid

variable {b : ReceiveBuffer}

/-- `GetPacket` returns what the queue returns, and leaves what the queue keeps. -/
theorem getPacket_eq_queue (hv : b.Valid) :
    (b.getPacket.1.map b.packetData, b.getPacket.2.unread) = ByteQueue.getPacket b.unread := by
  have hget := hv.getPacket
  rw [ByteQueue.getPacket_eq_next]
  cases hnext : requestFormat.next b.unread with
  | none =>
    simp only [hnext] at hget
    simp [hget]
  | some r =>
    simp only [hnext] at hget
    rcases hget with ⟨b', hb', -, hrest, -, hsize, -, hwindow⟩
    have hdata : b.packetData b.viewAt =
        { packetId := ByteQueue.number b.unread 2, dataSize := r.1.length, data := r.1 } := by
      simp only [packetData, hsize, PacketData.mk.injEq, true_and]
      exact ⟨toNat_uint16At b.unread 2, hwindow⟩
    simp [hb', hrest, hdata]

theorem getPacket_valid (hv : b.Valid) : b.getPacket.2.Valid := by
  have hget := hv.getPacket
  split at hget
  · rwa [hget]
  · rcases hget with ⟨b', hb', hv', -⟩
    rwa [hb']

/-- `GetPacket` looks at the allocation only, and hands out a part of it. -/
theorem getPacket_inside (hv : b.Valid) : BufferOp.AccessesInside b .getPacket := by
  have hord := hv.ordered
  have hbound := hv.bounded
  have hlen := b.length_unread
  have hrem := hv.remainDataSize_toNat
  refine ⟨fun h => by omega, fun view hview => ?_⟩
  have hget := hv.getPacket
  cases hnext : requestFormat.next b.unread with
  | none =>
    simp only [hnext] at hget
    simp [hget] at hview
  | some r =>
    simp only [hnext] at hget
    rcases hget with ⟨b', hb', -, -, -, hsize, -⟩
    obtain rfl : b.viewAt = view := by simpa [hb'] using hview
    have hf := congrArg List.length (Format.append_of_next hnext)
    rw [List.length_append] at hf
    rw [hsize]
    change b.mPacketDataBufferRPos.toNat + r.1.length ≤ _
    omega

/-- Data that fits is copied within the allocation. -/
theorem copyCalls_inside (hv : b.Valid) {pData : Bytes}
    (hfits : BufferOp.Fits b (.setPacketData pData)) : ∀ c ∈ b.copyCalls pData, c.Inside := by
  have hord := hv.ordered
  have hbound := hv.bounded
  have hlen := b.length_unread
  have hrem := hv.remainDataSize_toNat
  simp only [BufferOp.Fits, packetDataBufferSize_toNat] at hfits hbound
  rcases hv.makeRoom (show pData.length ≤ 8096 by omega) with ⟨-, -, hw⟩
  intro c hc
  simp only [copyCalls, List.mem_append, List.mem_singleton] at hc
  rcases hc with hc | rfl
  · split_ifs at hc
    · obtain rfl := List.mem_singleton.mp hc
      refine ⟨by simp only [packetDataBufferSize_toNat]; omega, fun src hsrc => ?_⟩
      obtain rfl : b.mPacketDataBufferRPos.toNat = src := by simpa using hsrc
      simp only [packetDataBufferSize_toNat]
      omega
    · simp at hc
  · refine ⟨?_, by simp⟩
    simp only [hw, packetDataBufferSize_toNat]
    split_ifs <;> omega

end ReceiveBuffer.Valid

namespace BufferOp

variable {b : ReceiveBuffer} {op : BufferOp}

theorem apply_valid (hv : b.Valid) (hfits : op.Fits b) : (op.apply b).Valid := by
  cases op with
  | setPacketData pData => exact (hv.setPacketData hfits).1
  | getPacket => exact hv.getPacket_valid
  | clear => exact b.clear_valid

/-- One operation answers as the queue does and leaves what the queue keeps. -/
theorem answer_eq_queue (hv : b.Valid) (hfits : op.Fits b) :
    ((op.answer b).map b.packetData, (op.apply b).unread) = ByteQueue.apply b.unread op := by
  cases op with
  | setPacketData pData => exact Prod.ext rfl (hv.setPacketData hfits).2
  | getPacket => exact hv.getPacket_eq_queue
  | clear => exact Prod.ext rfl b.unread_clear

theorem accessesInside (hv : b.Valid) (hfits : op.Fits b) : op.AccessesInside b := by
  cases op with
  | setPacketData pData => exact hv.copyCalls_inside hfits
  | getPacket => exact hv.getPacket_inside
  | clear => trivial

end BufferOp

/-- As long as the data fits, the cursors stay in order. -/
theorem BufferRun.valid {mem : ℕ → UInt8} {past : List (Entry ReceiveBuffer BufferOp)}
    {b : ReceiveBuffer} (run : BufferRun mem past b) (hfits : ∀ e ∈ past, e.act.Fits e.pre) :
    b.Valid ∧ ∀ e ∈ past, e.pre.Valid ∧ e.post = e.act.apply e.pre := by
  have hkeep : ∀ (past : List (Entry ReceiveBuffer BufferOp)) (b : ReceiveBuffer) (op : BufferOp)
      (b' : ReceiveBuffer), b.Valid → some (op.apply b) = some b' → op.Fits b → b'.Valid := by
    intro _ b op b' hv hstep hfits
    obtain rfl := Option.some.inj hstep
    exact BufferOp.apply_valid hv hfits
  have hmeets := atEach_const.mpr hfits
  refine ⟨run.invariant (C := fun _ e => e.act.Fits e.pre) (P := fun _ b => b.Valid)
    (ReceiveBuffer.init_valid mem) (fun past b op b' _ => hkeep past b op b') hmeets, ?_⟩
  rw [← atEach_const]
  refine run.atEach_of_invariant (C := fun _ e => e.act.Fits e.pre) (P := fun _ b => b.Valid)
    (ReceiveBuffer.init_valid mem) (fun past b op b' _ => hkeep past b op b') ?_ hmeets
  intro _ b op b' _ hv hstep _
  exact ⟨hv, (Option.some.inj hstep).symm⟩

/-- Every run whose data fits answers as the byte queue does, holds the bytes that
the queue holds, and accesses the allocation only. -/
theorem receive_buffer_refines_byte_queue (mem : ℕ → UInt8)
    {past : List (Entry ReceiveBuffer BufferOp)} {b : ReceiveBuffer} (run : BufferRun mem past b)
    (hfits : ∀ e ∈ past, e.act.Fits e.pre) :
    (past.map (fun e => (e.act.answer e.pre).map e.pre.packetData), b.unread) =
        ByteQueue.run [] (past.map Entry.act) ∧
      ∀ e ∈ past, e.act.AccessesInside e.pre := by
  refine ⟨?_, fun e he =>
    BufferOp.accessesInside ((run.valid hfits).2 e he).1 (hfits e he)⟩
  induction run with
  | nil => simp [ByteQueue.run, ReceiveBuffer.init, ReceiveBuffer.unread]
  | @snoc past b op b' run hstep ih =>
    have hpast : ∀ e ∈ past, e.act.Fits e.pre := fun e he => hfits e (by simp [he])
    have hv := (BufferRun.valid run hpast).1
    obtain rfl := Option.some.inj hstep
    have hop := BufferOp.answer_eq_queue hv (hfits ⟨b, op, op.apply b⟩ (by simp))
    rw [List.map_append, List.map_append, List.map_singleton, List.map_singleton,
      ByteQueue.run_snoc, ← ih hpast, ← hop]

/-- A lobby request that arrives in two pieces, with the first byte of the next. -/
theorem receive_buffer_refines_byte_queue_for_split_frame : ∃ past b,
    BufferRun (fun _ => 0) past b ∧
      past.map Entry.act = [.setPacketData [5, 0, 44], .getPacket, .setPacketData [1, 0, 5],
        .getPacket, .clear] ∧
      (past.map (fun e => (e.act.answer e.pre).map e.pre.packetData), b.unread) =
        ([none, none, none, some ⟨300, 5, [5, 0, 44, 1, 0]⟩, none], []) := by
  obtain ⟨past, b, run, h⟩ := exists_run (fun b op => some (BufferOp.apply b op))
    (ReceiveBuffer.init fun _ => 0)
    [.setPacketData [5, 0, 44], .getPacket, .setPacketData [1, 0, 5], .getPacket, .clear]
    (fun past _ => (∀ e ∈ past, e.act.Fits e.pre) ∧ past.map Entry.act =
      [.setPacketData [5, 0, 44], .getPacket, .setPacketData [1, 0, 5], .getPacket, .clear])
    (by decide +kernel)
  rcases of_decide_eq_true h with ⟨hfits, hacts⟩
  refine ⟨past, b, run, hacts, ?_⟩
  rw [(receive_buffer_refines_byte_queue _ run hfits).1, hacts]
  decide +kernel

end ChatServer
