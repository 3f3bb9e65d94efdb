import ChatServer.User.ReceiveBuffer
import ChatServer.Library.Run

/-! # Memory safety of the receive buffer over whole runs

Every `CopyMemory` of `SetPacketData` is listed with its addresses. A run of
`SetPacketData`, `GetPacket` and `Clear` in any order stays inside the
allocation, and never copies overlapping ranges, exactly when each receive finds
enough free space and each compaction finds the unread bytes no longer than the
bytes already read.
-/

namespace ChatServer
open LinearMemory Recorded

/-- A `CopyMemory` into `mPacketDataBuffer`. The source is an offset into the same
buffer, or (`none`) memory of the caller. -/
structure CopyCall where
  dst : ℕ
  src : Option ℕ
  len : ℕ

namespace CopyCall

def run (data : Bytes) (mem : ℕ → UInt8) (c : CopyCall) : ℕ → UInt8 :=
  match c.src with
  | some src => move mem c.dst src c.len
  | none => store mem c.dst (data.take c.len)

/-- Only offsets of the allocation are read and written. -/
def Inside (c : CopyCall) : Prop :=
  c.dst + c.len ≤ packetDataBufferSize.toNat ∧
    ∀ src ∈ c.src, src + c.len ≤ packetDataBufferSize.toNat

def Disjoint (c : CopyCall) : Prop :=
  ∀ src ∈ c.src, c.dst + c.len ≤ src ∨ src + c.len ≤ c.dst

end CopyCall

namespace ReceiveBuffer

/-- The `CopyMemory` calls of `SetPacketData`, in order. -/
def copyCalls (b : ReceiveBuffer) (pData : Bytes) : List CopyCall :=
  let dataSize := UInt32.ofNat pData.length
  (if b.ReachesEnd dataSize ∧ 0 < b.remainDataSize then
    [{ dst := 0, src := some b.mPacketDataBufferRPos.toNat, len := b.remainDataSize.toNat }]
  else []) ++
    [{ dst := (b.makeRoom dataSize).mPacketDataBufferWPos.toNat, src := none
       len := pData.length }]

/-- The listed calls are all that `SetPacketData` does to the memory. -/
theorem setPacketData_eq_copyCalls (b : ReceiveBuffer) (pData : Bytes) :
    (b.setPacketData pData).mPacketDataBuffer =
      (b.copyCalls pData).foldl (CopyCall.run pData) b.mPacketDataBuffer := by
  simp only [setPacketData, copyCalls, makeRoom, compact]
  by_cases hend : b.ReachesEnd (UInt32.ofNat pData.length)
  · by_cases hpos : 0 < b.remainDataSize <;> simp [hend, hpos, CopyCall.run]
  · simp [hend, CopyCall.run]

end ReceiveBuffer

inductive BufferOp where
  | setPacketData (pData : Bytes)
  | getPacket
  | clear
  deriving DecidableEq

/-- One operation on the buffer; a receive delivers 1 to `MAX_SOCKBUF` bytes. -/
def BufferOp.step (b : ReceiveBuffer) : BufferOp → Option ReceiveBuffer
  | .setPacketData pData =>
    if 1 ≤ pData.length ∧ pData.length ≤ maxSockbuf then some (b.setPacketData pData) else none
  | .getPacket => some b.getPacket.2
  | .clear => some b.clear

/-- The buffer that `User::Init` allocates: both cursors at its start. -/
def ReceiveBuffer.init (mem : ℕ → UInt8) : ReceiveBuffer :=
  { mPacketDataBuffer := mem, mPacketDataBufferWPos := 0, mPacketDataBufferRPos := 0 }

theorem ReceiveBuffer.init_valid (mem : ℕ → UInt8) : (ReceiveBuffer.init mem).Valid :=
  ⟨by simp [init], by simp [init]⟩

/-- The copies of an operation are inside the allocation and do not overlap. -/
def BufferOp.CopiesSafe (b : ReceiveBuffer) : BufferOp → Prop
  | .setPacketData pData => ∀ c ∈ b.copyCalls pData, c.Inside ∧ c.Disjoint
  | _ => True

/-- A receive finds room for its data behind the unread bytes, and if it has to
compact, then at least as many bytes before the read cursor as are unread. -/
def BufferOp.HasRoom (b : ReceiveBuffer) : BufferOp → Prop
  | .setPacketData pData =>
    b.unread.length + pData.length ≤ packetDataBufferSize.toNat ∧
      (b.mPacketDataBufferWPos.toNat + pData.length ≥ packetDataBufferSize.toNat →
        b.unread.length ≤ b.mPacketDataBufferRPos.toNat)
  | _ => True

instance (b : ReceiveBuffer) : DecidablePred (BufferOp.HasRoom b) := by
  intro op
  cases op <;> unfold BufferOp.HasRoom <;> infer_instance

theorem BufferOp.valid_of_hasRoom {b b' : ReceiveBuffer} {op : BufferOp} (hv : b.Valid)
    (hstep : op.step b = some b') (hroom : op.HasRoom b) : b'.Valid := by
  cases op with
  | setPacketData pData =>
    simp only [step, Option.ite_none_right_eq_some, Option.some.injEq] at hstep
    rcases hstep with ⟨-, rfl⟩
    exact (hv.setPacketData (by simpa using hroom.1)).1
  | getPacket =>
    obtain rfl : b.getPacket.2 = b' := by simpa [step] using hstep
    have hget := hv.getPacket
    split at hget
    · rw [hget]
      exact hv
    · rcases hget with ⟨b', hb', hv', -⟩
      rw [hb']
      exact hv'
  | clear =>
    obtain rfl : b.clear = b' := by simpa [step] using hstep
    exact b.clear_valid

/-- In a valid state the copies of a receive are safe exactly when it has room. -/
theorem BufferOp.copiesSafe_iff {b b' : ReceiveBuffer} {op : BufferOp} (hv : b.Valid)
    (hstep : op.step b = some b') : op.CopiesSafe b ↔ op.HasRoom b := by
  cases op with
  | setPacketData pData =>
    simp only [step, Option.ite_none_right_eq_some] at hstep
    have hmax : pData.length ≤ 256 := hstep.1.2
    have hord := hv.ordered
    have hbound := hv.bounded
    have hlen := b.length_unread
    rcases hv.makeRoom (show pData.length ≤ 8096 by omega) with ⟨-, -, hw⟩
    have hposu : 0 < b.remainDataSize ↔ 0 < b.unread.length := by
      rw [UInt32.lt_iff_toNat_lt, hv.remainDataSize_toNat, UInt32.toNat_zero]
    simp only [CopiesSafe, HasRoom, ReceiveBuffer.copyCalls, List.mem_append, List.mem_singleton,
      hv.reachesEnd_iff (show pData.length ≤ 8096 by omega), hposu, CopyCall.Inside,
      CopyCall.Disjoint, ReceiveBuffer.packetDataBufferSize_toNat, ge_iff_le] at hbound ⊢
    by_cases hend : 8096 ≤ b.mPacketDataBufferWPos.toNat + pData.length
    · by_cases hun : 0 < b.unread.length
      · simp only [hend, hun, and_self, if_true, List.mem_singleton, or_imp, forall_and,
          forall_eq, hw, hv.remainDataSize_toNat, Option.mem_def, Option.some.injEq,
          forall_eq', reduceCtorEq, false_implies, implies_true, and_true, forall_true_left,
          Nat.zero_add]
        omega
      · simp only [hend, hun, and_false, if_false, List.not_mem_nil, false_or, forall_eq, hw,
          if_true, Option.mem_def, reduceCtorEq, false_implies, implies_true, and_true,
          forall_true_left]
        omega
    · simp only [hend, false_and, if_false, List.not_mem_nil, false_or, forall_eq, hw,
        Option.mem_def, reduceCtorEq, false_implies, implies_true, and_true]
      omega
  | getPacket => exact Iff.rfl
  | clear => exact Iff.rfl

/-- In every run over arbitrary bytes, all states have ordered cursors inside the
allocation and all copies are safe, exactly when every receive has room. -/
theorem receive_buffer_safe_iff (mem : ℕ → UInt8) {past : List (Entry ReceiveBuffer BufferOp)}
    {b : ReceiveBuffer}
    (run : Run (fun b op => BufferOp.step b op) (ReceiveBuffer.init mem) past b) :
    (∀ e ∈ past, e.post.Valid ∧ e.act.CopiesSafe e.pre) ↔
      ∀ e ∈ past, e.act.HasRoom e.pre := by
  rw [← atEach_const, ← atEach_const]
  refine run.exact_iff (A := fun _ _ => True) (I := fun _ b => b.Valid)
    (ReceiveBuffer.init_valid mem) ?_ ?_ (fun _ _ _ => trivial)
  · intro _ b op b' hv hstep _ hroom
    exact BufferOp.valid_of_hasRoom hv hstep hroom
  · intro _ b op b' hv hstep _
    rw [← BufferOp.copiesSafe_iff hv hstep]
    refine ⟨fun h => h.2, fun h => ⟨?_, h⟩⟩
    exact BufferOp.valid_of_hasRoom hv hstep ((BufferOp.copiesSafe_iff hv hstep).mp h)

/-- A lobby request that arrives in two pieces and is read between them and after. -/
theorem receive_buffer_safe_for_split_frame : ∃ past b,
    Run (fun b op => BufferOp.step b op) (ReceiveBuffer.init fun _ => 0) past b ∧
      past.length = 5 ∧ ∀ e ∈ past, e.post.Valid ∧ e.act.CopiesSafe e.pre := by
  obtain ⟨past, b, run, h⟩ := exists_run (fun b op => BufferOp.step b op)
    (ReceiveBuffer.init fun _ => 0)
    [.setPacketData [5, 0, 44], .getPacket, .setPacketData [1, 0], .getPacket, .clear]
    (fun past _ => past.length = 5 ∧ ∀ e ∈ past, e.act.HasRoom e.pre) (by decide +kernel)
  rcases of_decide_eq_true h with ⟨hlength, hroom⟩
  exact ⟨past, b, run, hlength, (receive_buffer_safe_iff _ run).mpr hroom⟩

/-- 32 receives of 256 bytes each, all 255: the header declares 65535 bytes. -/
def unservedClient : List BufferOp :=
  List.replicate 32 (.setPacketData (List.replicate 256 255))

/-- A client whose first header declares a frame that never completes is not
served. Its 32nd full receive finds 7936 unread bytes, compacts them onto
themselves and writes 96 bytes past the allocation. -/
theorem unserved_client_overruns_buffer : ∃ past b,
    perform (fun b op => BufferOp.step b op) (ReceiveBuffer.init fun _ => 0) unservedClient =
        some (past, b) ∧
      ¬ ∀ e ∈ past, e.post.Valid ∧ e.act.CopiesSafe e.pre := by
  have hW : (perform (fun b op => BufferOp.step b op) (ReceiveBuffer.init fun _ => 0)
      unservedClient).bind (fun r => r.1.getLast?.map fun e => e.post.mPacketDataBufferWPos) =
        some 8192 := by decide +kernel
  rcases Option.bind_eq_some_iff.mp hW with ⟨⟨past, b⟩, hperform, hlast⟩
  rcases Option.map_eq_some_iff.mp hlast with ⟨e, he, hpos⟩
  refine ⟨past, b, hperform, fun h => ?_⟩
  have hbound := (h e (List.mem_of_getLast? he)).1.bounded
  rw [hpos] at hbound
  exact absurd hbound (by decide)

end ChatServer
