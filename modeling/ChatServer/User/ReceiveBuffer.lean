import ChatServer.Packet
import ChatServer.Library.Memory

/-! # The receive buffer of a user

`SetPacketData` appends received bytes and moves the unread part to the front
when the write would reach the end; `GetPacket` hands out the next complete
frame. Memory is modelled from the address of `mPacketDataBuffer` on; the
allocation is its first `PACKET_DATA_BUFFER_SIZE` bytes.
-/

namespace ChatServer
open LinearMemory

structure ReceiveBuffer where
  mPacketDataBuffer : ℕ → UInt8
  mPacketDataBufferWPos : UInt32
  mPacketDataBufferRPos : UInt32

def packetDataBufferSize : UInt32 := 8096

/-- Largest number of bytes one receive delivers (`MAX_SOCKBUF`). -/
def maxSockbuf : ℕ := 256

/-- What `GetPacket` returns for a complete frame: `pDataPtr` is an offset into
`mPacketDataBuffer`. The `PacketInfo()` returned otherwise is `none`. -/
structure PacketView where
  packetId : UInt16
  dataSize : UInt16
  pDataPtr : ℕ
  deriving DecidableEq

namespace ReceiveBuffer

/-- Number of unread bytes, as the source computes it in unsigned arithmetic. -/
def remainDataSize (b : ReceiveBuffer) : UInt32 :=
  b.mPacketDataBufferWPos - b.mPacketDataBufferRPos

/-- The compaction: the unread bytes move to the front of the buffer. -/
def compact (b : ReceiveBuffer) : ReceiveBuffer :=
  if 0 < b.remainDataSize then
    { mPacketDataBuffer := move b.mPacketDataBuffer 0 b.mPacketDataBufferRPos.toNat
        b.remainDataSize.toNat
      mPacketDataBufferWPos := b.remainDataSize
      mPacketDataBufferRPos := 0 }
  else { b with mPacketDataBufferWPos := 0, mPacketDataBufferRPos := 0 }

/-- The test at the start of `SetPacketData`. -/
def ReachesEnd (b : ReceiveBuffer) (dataSize : UInt32) : Prop :=
  b.mPacketDataBufferWPos + dataSize ≥ packetDataBufferSize

instance (b : ReceiveBuffer) (dataSize : UInt32) : Decidable (b.ReachesEnd dataSize) := by
  unfold ReachesEnd
  infer_instance

def makeRoom (b : ReceiveBuffer) (dataSize : UInt32) : ReceiveBuffer :=
  if b.ReachesEnd dataSize then b.compact else b

/-- `User::SetPacketData`; `dataSize_` is the length of the data. -/
def setPacketData (b : ReceiveBuffer) (pData : Bytes) : ReceiveBuffer :=
  let dataSize := UInt32.ofNat pData.length
  let b := b.makeRoom dataSize
  { b with
    mPacketDataBuffer := store b.mPacketDataBuffer b.mPacketDataBufferWPos.toNat pData
    mPacketDataBufferWPos := b.mPacketDataBufferWPos + dataSize }

/-- `User::GetPacket` -/
def getPacket (b : ReceiveBuffer) : Option PacketView × ReceiveBuffer :=
  let remainByte := b.remainDataSize
  if remainByte.toNat < packetHeaderLength then (none, b)
  else
    let pHeader := PacketHeader.read
      (window b.mPacketDataBuffer b.mPacketDataBufferRPos.toNat packetHeaderLength)
    if pHeader.packetLength.toUInt32 > remainByte then (none, b)
    else
      (some { packetId := pHeader.packetId, dataSize := pHeader.packetLength,
              pDataPtr := b.mPacketDataBufferRPos.toNat },
       { b with mPacketDataBufferRPos := b.mPacketDataBufferRPos + pHeader.packetLength.toUInt32 })

/-- The memory from `pDataPtr` on, as the pointer gives access to it: the rest of the
allocation and what is stored behind it. -/
def memoryFrom (b : ReceiveBuffer) (pDataPtr : ℕ) (behind : Bytes) : Bytes :=
  window b.mPacketDataBuffer pDataPtr (packetDataBufferSize.toNat - pDataPtr) ++ behind

/-- The part of `User::Clear` that concerns the buffer; the bytes stay. -/
def clear (b : ReceiveBuffer) : ReceiveBuffer :=
  { b with mPacketDataBufferWPos := 0, mPacketDataBufferRPos := 0 }

/-! ## The unread bytes as a queue -/

/-- The cursors are ordered and inside the allocation. -/
structure Valid (b : ReceiveBuffer) : Prop where
  ordered : b.mPacketDataBufferRPos.toNat ≤ b.mPacketDataBufferWPos.toNat
  bounded : b.mPacketDataBufferWPos.toNat ≤ packetDataBufferSize.toNat

def unread (b : ReceiveBuffer) : Bytes :=
  window b.mPacketDataBuffer b.mPacketDataBufferRPos.toNat
    (b.mPacketDataBufferWPos.toNat - b.mPacketDataBufferRPos.toNat)

@[simp] theorem packetDataBufferSize_toNat : packetDataBufferSize.toNat = 8096 := rfl

theorem length_unread (b : ReceiveBuffer) : b.unread.length =
    b.mPacketDataBufferWPos.toNat - b.mPacketDataBufferRPos.toNat := by simp [unread]

theorem clear_valid (b : ReceiveBuffer) : b.clear.Valid := ⟨by simp [clear], by simp [clear]⟩

@[simp] theorem unread_clear (b : ReceiveBuffer) : b.clear.unread = [] := by simp [unread, clear]

variable {b : ReceiveBuffer}

/-- A block of the allocation is followed by the bytes after it. -/
theorem memoryFrom_eq {ptr len : ℕ} (h : ptr + len ≤ 8096) (behind : Bytes) :
    b.memoryFrom ptr behind =
      window b.mPacketDataBuffer ptr len ++ b.memoryFrom (ptr + len) behind := by
  rw [memoryFrom, memoryFrom, ← List.append_assoc, window_append, packetDataBufferSize_toNat]
  congr 2
  omega

theorem Valid.remainDataSize_toNat (hv : b.Valid) :
    b.remainDataSize.toNat = b.unread.length := by
  rw [length_unread, remainDataSize, UInt32.toNat_sub_of_le _ _ (UInt32.le_iff_toNat_le.mpr hv.ordered)]

/-- In capacity the comparison in `SetPacketData` does not wrap around. -/
theorem Valid.reachesEnd_iff (hv : b.Valid) {n : ℕ} (hn : n ≤ 8096) :
    b.ReachesEnd (UInt32.ofNat n) ↔ 8096 ≤ b.mPacketDataBufferWPos.toNat + n := by
  have hw := hv.bounded
  rw [packetDataBufferSize_toNat] at hw
  rw [ReachesEnd, ge_iff_le, UInt32.le_iff_toNat_le, packetDataBufferSize_toNat, UInt32.toNat_add,
    UInt32.toNat_ofNat', Nat.mod_eq_of_lt (by omega), Nat.mod_eq_of_lt (by omega)]

/-- Compaction keeps the unread bytes and moves them to the front. -/
theorem Valid.compact (hv : b.Valid) :
    b.compact.mPacketDataBufferRPos = 0 ∧
      b.compact.mPacketDataBufferWPos.toNat = b.unread.length ∧ b.compact.unread = b.unread := by
  have hrem := hv.remainDataSize_toNat
  unfold ReceiveBuffer.compact
  split_ifs with hpos
  · refine ⟨rfl, hrem, ?_⟩
    simp only [unread, UInt32.toNat_zero, Nat.sub_zero, window_move_self]
    rw [hrem, length_unread]
  · have hzero : b.unread.length = 0 := by
      rw [← hrem]
      rw [UInt32.lt_iff_toNat_lt] at hpos
      simpa using hpos
    refine ⟨rfl, by simp [hzero], ?_⟩
    rw [List.length_eq_zero_iff.mp hzero]
    simp [unread]

/-- Making room loses nothing. It moves the write cursor exactly when the data
would reach the end of the allocation. -/
theorem Valid.makeRoom (hv : b.Valid) {n : ℕ} (hn : n ≤ 8096) :
    (b.makeRoom (UInt32.ofNat n)).Valid ∧ (b.makeRoom (UInt32.ofNat n)).unread = b.unread ∧
      (b.makeRoom (UInt32.ofNat n)).mPacketDataBufferWPos.toNat =
        if 8096 ≤ b.mPacketDataBufferWPos.toNat + n then b.unread.length
        else b.mPacketDataBufferWPos.toNat := by
  have hbound := hv.bounded
  have hlen := b.length_unread
  unfold ReceiveBuffer.makeRoom
  simp only [hv.reachesEnd_iff hn]
  split_ifs with hend
  · rcases hv.compact with ⟨hr, hw, hu⟩
    exact ⟨⟨by simp [hr], by omega⟩, hu, hw⟩
  · exact ⟨hv, rfl, rfl⟩

theorem setPacketData_unread_of_makeRoom (b : ReceiveBuffer) (data : Bytes)
    (hv : (b.makeRoom (UInt32.ofNat data.length)).Valid)
    (hroom : (b.makeRoom (UInt32.ofNat data.length)).mPacketDataBufferWPos.toNat + data.length
      ≤ 8096) :
    (b.setPacketData data).Valid ∧
      (b.setPacketData data).mPacketDataBufferRPos =
        (b.makeRoom (UInt32.ofNat data.length)).mPacketDataBufferRPos ∧
      (b.setPacketData data).unread =
        (b.makeRoom (UInt32.ofNat data.length)).unread ++ data := by
  set c := b.makeRoom (UInt32.ofNat data.length) with hc
  have hord := hv.ordered
  have hw : (c.mPacketDataBufferWPos + UInt32.ofNat data.length).toNat =
      c.mPacketDataBufferWPos.toNat + data.length := by
    rw [UInt32.toNat_add, UInt32.toNat_ofNat', Nat.mod_eq_of_lt (by omega),
      Nat.mod_eq_of_lt (by omega)]
  have hset : b.setPacketData data = { c with
      mPacketDataBuffer := store c.mPacketDataBuffer c.mPacketDataBufferWPos.toNat data
      mPacketDataBufferWPos := c.mPacketDataBufferWPos + UInt32.ofNat data.length } := rfl
  rw [hset]
  refine ⟨⟨by simp only [hw]; omega, by simp only [hw, packetDataBufferSize_toNat]; omega⟩,
    rfl, ?_⟩
  simp only [unread, hw]
  rw [show c.mPacketDataBufferWPos.toNat + data.length - c.mPacketDataBufferRPos.toNat =
      (c.mPacketDataBufferWPos.toNat - c.mPacketDataBufferRPos.toNat) + data.length by omega,
    ← window_append, window_store_disjoint (by omega),
    show c.mPacketDataBufferRPos.toNat +
      (c.mPacketDataBufferWPos.toNat - c.mPacketDataBufferRPos.toNat) =
        c.mPacketDataBufferWPos.toNat by omega, window_store_self]

/-- Within capacity, `SetPacketData` appends exactly its data to the unread bytes. -/
theorem Valid.setPacketData (hv : b.Valid) {data : Bytes}
    (hcap : b.unread.length + data.length ≤ 8096) :
    (b.setPacketData data).Valid ∧ (b.setPacketData data).unread = b.unread ++ data := by
  rcases hv.makeRoom (show data.length ≤ 8096 by omega) with ⟨hv', hu, hw⟩
  have hroom : (b.makeRoom (UInt32.ofNat data.length)).mPacketDataBufferWPos.toNat + data.length
      ≤ 8096 := by
    rw [hw]
    split_ifs <;> omega
  rcases b.setPacketData_unread_of_makeRoom data hv' hroom with ⟨hvalid, -, hun⟩
  exact ⟨hvalid, by rw [hun, hu]⟩

/-- `SetPacketData` writes none of the `len` bytes from `start` on: they are not where
the data goes, nor below where a compaction moves it. -/
def Spares (b : ReceiveBuffer) (dataSize start len : ℕ) : Prop :=
  if 8096 ≤ b.mPacketDataBufferWPos.toNat + dataSize then b.unread.length + dataSize ≤ start
  else start + len ≤ b.mPacketDataBufferWPos.toNat ∨
    b.mPacketDataBufferWPos.toNat + dataSize ≤ start

instance (b : ReceiveBuffer) (dataSize start len : ℕ) : Decidable (b.Spares dataSize start len) := by
  unfold Spares
  infer_instance

/-- What is spared is still there afterwards. -/
theorem Valid.window_setPacketData (hv : b.Valid) {data : Bytes}
    (hcap : b.unread.length + data.length ≤ 8096) {start len : ℕ}
    (hspares : b.Spares data.length start len) :
    window (b.setPacketData data).mPacketDataBuffer start len =
      window b.mPacketDataBuffer start len := by
  rcases hv.makeRoom (show data.length ≤ 8096 by omega) with ⟨-, -, hw⟩
  have hset : (b.setPacketData data).mPacketDataBuffer =
      store (b.makeRoom (UInt32.ofNat data.length)).mPacketDataBuffer
        (b.makeRoom (UInt32.ofNat data.length)).mPacketDataBufferWPos.toNat data := rfl
  unfold Spares at hspares
  rw [hset, hw]
  by_cases hend : 8096 ≤ b.mPacketDataBufferWPos.toNat + data.length
  · rw [if_pos hend] at hspares
    rw [if_pos hend, window_store_disjoint (by omega)]
    unfold ReceiveBuffer.makeRoom ReceiveBuffer.compact
    split_ifs with h₁ h₂
    · change window (move b.mPacketDataBuffer 0 _ _) start len = _
      apply window_move_disjoint
      rw [hv.remainDataSize_toNat]
      omega
    · rfl
    · rfl
  · rw [if_neg hend] at hspares
    rw [if_neg hend, window_store_disjoint (by omega)]
    unfold ReceiveBuffer.makeRoom
    rw [if_neg (by rwa [hv.reachesEnd_iff (by omega)])]

/-- What `GetPacket` returns for a frame that starts at the read cursor. -/
def viewAt (b : ReceiveBuffer) : PacketView :=
  { packetId := (PacketHeader.read b.unread).packetId
    dataSize := (PacketHeader.read b.unread).packetLength
    pDataPtr := b.mPacketDataBufferRPos.toNat }

/-- `GetPacket` looks at the unread bytes only: it returns the next complete frame
and steps over it, or changes nothing. -/
theorem Valid.getPacket (hv : b.Valid) :
    match requestFormat.next b.unread with
    | none => b.getPacket = (none, b)
    | some (f, rest) => ∃ b', b.getPacket = (some b.viewAt, b') ∧
        b'.Valid ∧ b'.unread = rest ∧ b'.mPacketDataBuffer = b.mPacketDataBuffer ∧
        b.viewAt.dataSize.toNat = f.length ∧
        b'.mPacketDataBufferRPos.toNat = b.mPacketDataBufferRPos.toNat + f.length ∧
        window b.mPacketDataBuffer b.mPacketDataBufferRPos.toNat f.length = f := by
  have hord := hv.ordered
  have hlen := b.length_unread
  have hrem := hv.remainDataSize_toNat
  have hheader (h : packetHeaderLength ≤ b.unread.length) : PacketHeader.read
      (window b.mPacketDataBuffer b.mPacketDataBufferRPos.toNat packetHeaderLength) =
        PacketHeader.read b.unread := by
    rw [← PacketHeader.read_take b.unread, unread, take_window, ← hlen, min_eq_left h]
  set L := (PacketHeader.read b.unread).packetLength with hL
  unfold ReceiveBuffer.getPacket Framing.Format.next
  simp only [hrem, requestFormat, ← hL]
  by_cases hshort : b.unread.length < packetHeaderLength
  · rw [if_neg (by omega), if_pos hshort]
  rw [if_neg hshort, hheader (by omega), ← hL]
  have hcmp : L.toUInt32 > b.remainDataSize ↔ b.unread.length < L.toNat := by
    rw [gt_iff_lt, UInt32.lt_iff_toNat_lt, hrem, UInt16.toNat_toUInt32]
  by_cases hlong : b.unread.length < L.toNat
  · rw [if_neg (by omega), if_pos (hcmp.mpr hlong)]
  rw [if_pos (by omega), if_neg (by rwa [hcmp])]
  have hr : (b.mPacketDataBufferRPos + L.toUInt32).toNat =
      b.mPacketDataBufferRPos.toNat + L.toNat := by
    have := b.mPacketDataBufferWPos.toNat_lt
    rw [UInt32.toNat_add, UInt16.toNat_toUInt32, Nat.mod_eq_of_lt (by omega)]
  have htake : (b.unread.take L.toNat).length = L.toNat := by simp; omega
  refine ⟨_, rfl, ⟨by simp only [hr]; omega, hv.bounded⟩, ?_, rfl, htake.symm, ?_, ?_⟩
  · simp only [unread, drop_window, hr]
    congr 1
    omega
  · rw [htake, hr]
  · rw [htake, unread, take_window, min_eq_left (by omega)]

end ReceiveBuffer
end ChatServer
