import ChatServer.Packet
import ChatServer.Library.Memory

/-! # The receive buffer of the client

`Write` appends behind `WritePos` and moves the unread bytes to the front when fewer
than `MaxPacketSize` bytes are left behind them. It refuses what does not fit before
that move. `Read` hands out a segment of the array.
-/

namespace ChatServer.Client
open LinearMemory

structure PacketBufferManager where
  bufferSize : ℕ
  readPos : ℕ
  writePos : ℕ
  headerSize : ℕ
  maxPacketSize : ℤ
  packetData : ℕ → UInt8
  packetDataTemp : ℕ → UInt8

/-- `ArraySegment<byte>` of `PacketData`; the one without array has count 0. -/
structure ArraySegment where
  offset : ℕ
  count : ℕ

namespace PacketBufferManager

/-- `Init`; the product wraps as an `int`. -/
def init (size headerSize maxPacketSize : Int32) : Option PacketBufferManager :=
  if size < maxPacketSize * 2 ∨ size < 1 ∨ headerSize < 1 ∨ maxPacketSize < 1 then none
  else some
    { bufferSize := size.toNatClampNeg, readPos := 0, writePos := 0
      headerSize := headerSize.toNatClampNeg, maxPacketSize := maxPacketSize.toInt
      packetData := fun _ => 0, packetDataTemp := fun _ => 0 }

variable (b : PacketBufferManager)

def nextFree : Bool :=
  let enableWriteSize : ℤ := b.bufferSize - b.writePos
  if enableWriteSize < b.maxPacketSize then false else true

/-- `BufferRelocate`, through the second array -/
def bufferRelocate : PacketBufferManager :=
  let enableReadSize := b.writePos - b.readPos
  let packetDataTemp := store b.packetDataTemp 0 (window b.packetData b.readPos enableReadSize)
  let packetData := store b.packetData 0 (window packetDataTemp 0 enableReadSize)
  { b with
    packetData := packetData, packetDataTemp := packetDataTemp
    readPos := 0, writePos := enableReadSize }

/-- `Write` of an array that is not null, with its result -/
def write (data : Bytes) (pos size : ℕ) : Bool × PacketBufferManager :=
  if data.length < pos + size then (false, b)
  else
    let remainBufferSize : ℤ := b.bufferSize - b.writePos
    if remainBufferSize < size then (false, b)
    else
      let b :=
        { b with
          packetData := store b.packetData b.writePos ((data.drop pos).take size)
          writePos := b.writePos + size }
      if b.nextFree = false then (true, b.bufferRelocate) else (true, b)

/-- `BitConverter.ToInt16(PacketData, index)`; it throws behind the end of the array. -/
def toInt16 (index : ℕ) : Option Int16 :=
  if index + 2 ≤ b.bufferSize then some (uint16At (window b.packetData index 2) 0).toInt16
  else none

/-- `Read`; a segment of negative length throws. -/
def read : Option (ArraySegment × PacketBufferManager) := do
  let enableReadSize : ℤ := b.writePos - b.readPos
  if enableReadSize < b.headerSize then some ({ offset := 0, count := 0 }, b)
  else
    let packetDataSize ← b.toInt16 b.readPos
    if enableReadSize < packetDataSize.toInt then some ({ offset := 0, count := 0 }, b)
    else if packetDataSize < 0 then none
    else
      let size := packetDataSize.toNatClampNeg
      some ({ offset := b.readPos, count := size }, { b with readPos := b.readPos + size })

/-! ## The buffer as a queue of bytes -/

/-- The bytes that `Read` has not handed out -/
def unread : Bytes := window b.packetData b.readPos (b.writePos - b.readPos)

/-- The cursors are in order. -/
structure Valid : Prop where
  readPos_le : b.readPos ≤ b.writePos
  writePos_le : b.writePos ≤ b.bufferSize

variable {b} {data : Bytes} {pos size : ℕ}

theorem length_unread : b.unread.length = b.writePos - b.readPos := by simp [unread]

/-- The move keeps the unread bytes. -/
@[simp] theorem bufferRelocate_unread : b.bufferRelocate.unread = b.unread := by
  simp only [unread, bufferRelocate, Nat.sub_zero]
  have hback := window_store_self b.packetData 0
    (window (store b.packetDataTemp 0 (window b.packetData b.readPos (b.writePos - b.readPos))) 0
      (b.writePos - b.readPos))
  have hforth := window_store_self b.packetDataTemp 0
    (window b.packetData b.readPos (b.writePos - b.readPos))
  rw [length_window] at hback hforth
  rw [hback, hforth]

theorem bufferRelocate_valid (h : b.Valid) : b.bufferRelocate.Valid where
  readPos_le := Nat.zero_le _
  writePos_le := (Nat.sub_le _ _).trans h.writePos_le

@[simp] theorem bufferRelocate_bufferSize : b.bufferRelocate.bufferSize = b.bufferSize := rfl
@[simp] theorem bufferRelocate_headerSize : b.bufferRelocate.headerSize = b.headerSize := rfl
@[simp] theorem bufferRelocate_maxPacketSize :
    b.bufferRelocate.maxPacketSize = b.maxPacketSize := rfl

/-- The bytes copied behind the unread ones -/
def append (b : PacketBufferManager) (data : Bytes) : PacketBufferManager :=
  { b with packetData := store b.packetData b.writePos data, writePos := b.writePos + data.length }

theorem append_unread (h : b.Valid) : (b.append data).unread = b.unread ++ data := by
  have hlength : b.writePos + data.length - b.readPos =
      (b.writePos - b.readPos) + data.length := by
    have := h.readPos_le
    omega
  have hstart : b.readPos + (b.writePos - b.readPos) = b.writePos :=
    Nat.add_sub_cancel' h.readPos_le
  simp only [unread, append]
  rw [hlength, ← window_append, hstart, window_store_self,
    window_store_disjoint (.inl hstart.le)]

theorem append_valid (h : b.Valid) (hfit : b.writePos + data.length ≤ b.bufferSize) :
    (b.append data).Valid where
  readPos_le := h.readPos_le.trans (Nat.le_add_right _ _)
  writePos_le := hfit

/-- What does not fit behind `WritePos` is refused and changes nothing. -/
theorem write_of_full (hdata : pos + size ≤ data.length) (hfull : b.bufferSize < b.writePos + size) :
    b.write data pos size = (false, b) := by
  rw [write, if_neg (by omega)]
  exact if_pos (by omega)

/-- What fits is appended, and the unread bytes may move. -/
theorem write_of_fit (hdata : pos + size ≤ data.length) (hfit : b.writePos + size ≤ b.bufferSize) :
    b.write data pos size =
      (true, if (b.append ((data.drop pos).take size)).nextFree = false then
        (b.append ((data.drop pos).take size)).bufferRelocate
      else b.append ((data.drop pos).take size)) := by
  have hlength : ((data.drop pos).take size).length = size := by
    rw [List.length_take, List.length_drop]
    omega
  rw [write, if_neg (by omega)]
  simp only [append, hlength]
  rw [if_neg (by omega)]
  split_ifs
  · rfl
  · rfl

/-- `b'` is `b` with `data` behind its unread bytes. -/
structure Appended (b b' : PacketBufferManager) (data : Bytes) : Prop where
  valid : b'.Valid
  unread : b'.unread = b.unread ++ data
  bufferSize : b'.bufferSize = b.bufferSize
  headerSize : b'.headerSize = b.headerSize
  maxPacketSize : b'.maxPacketSize = b.maxPacketSize
  writePos_le : b'.writePos ≤ b.writePos + data.length
  writePos_eq : b.writePos + data.length + b.maxPacketSize ≤ b.bufferSize →
    b'.writePos = b.writePos + data.length

theorem append_appended (h : b.Valid) (hfit : b.writePos + data.length ≤ b.bufferSize) :
    b.Appended (b.append data) data where
  valid := append_valid h hfit
  unread := append_unread h
  bufferSize := rfl
  headerSize := rfl
  maxPacketSize := rfl
  writePos_le := le_rfl
  writePos_eq _ := rfl

/-- What fits is written, whether the unread bytes move or not. -/
theorem write_appended (h : b.Valid) (hdata : pos + size ≤ data.length)
    (hfit : b.writePos + size ≤ b.bufferSize) :
    ∃ b', b.write data pos size = (true, b') ∧ b.Appended b' ((data.drop pos).take size) := by
  have hlength : ((data.drop pos).take size).length = size := by
    rw [List.length_take, List.length_drop]
    omega
  have happend : b.Appended (b.append ((data.drop pos).take size)) ((data.drop pos).take size) :=
    append_appended h (by omega)
  refine ⟨_, write_of_fit hdata hfit, ?_⟩
  split_ifs with hfree
  · have hfull : (b.bufferSize : ℤ) - (b.writePos + size) < b.maxPacketSize := by
      by_contra hnot
      simp [nextFree, append, hlength, hnot] at hfree
    exact
      { valid := bufferRelocate_valid happend.valid
        unread := bufferRelocate_unread.trans happend.unread
        bufferSize := rfl, headerSize := rfl, maxPacketSize := rfl
        writePos_le := (Nat.sub_le _ _).trans happend.writePos_le
        writePos_eq := fun hroom => by omega }
  · exact happend

theorem toInt16_readPos (h : b.Valid) (hlength : 2 ≤ b.unread.length) :
    b.toInt16 b.readPos = some (uint16At b.unread 0).toInt16 := by
  rw [length_unread] at hlength
  have := h.writePos_le
  rw [toInt16, if_pos (by omega), ← uint16At_take (p := b.unread) (n := 2) (by decide), unread,
    take_window, Nat.min_eq_left hlength]

/-- A length below 2^15 is not changed by the sign. -/
theorem toInt_toInt16 {x : UInt16} (h : x.toNat < 32768) : x.toInt16.toInt = x.toNat := by
  have hx : x.toInt16.toInt = x.toBitVec.toInt := rfl
  rw [hx, BitVec.toInt_eq_toNat_of_lt]
  · rfl
  · have : x.toBitVec.toNat = x.toNat := rfl
    omega

theorem toNatClampNeg_toInt16 {x : UInt16} (h : x.toNat < 32768) :
    x.toInt16.toNatClampNeg = x.toNat := by
  have hx : x.toInt16.toNatClampNeg = x.toInt16.toInt.toNat := rfl
  rw [hx, toInt_toInt16 h]
  rfl

theorem toInt16_nonneg {x : UInt16} (h : x.toNat < 32768) : ¬x.toInt16 < 0 := by
  rw [Int16.lt_iff_toInt_lt, toInt_toInt16 h]
  simp

/-- `Read` by the unread bytes alone -/
theorem read_eq (h : b.Valid) (hheader : 2 ≤ b.headerSize) :
    b.read =
      if b.unread.length < b.headerSize ∨
          (b.unread.length : ℤ) < (uint16At b.unread 0).toInt16.toInt then
        some ({ offset := 0, count := 0 }, b)
      else if (uint16At b.unread 0).toInt16 < 0 then none
      else some
        ({ offset := b.readPos, count := (uint16At b.unread 0).toInt16.toNatClampNeg },
          { b with readPos := b.readPos + (uint16At b.unread 0).toInt16.toNatClampNeg }) := by
  have hcast : (b.writePos : ℤ) - b.readPos = b.unread.length := by
    have := h.readPos_le
    rw [length_unread]
    omega
  simp only [read, hcast]
  by_cases hshort : b.unread.length < b.headerSize
  · simp [hshort]
  · rw [toInt16_readPos h (by omega)]
    simp [hshort]

/-- Fewer bytes than a header or than it declares are left where they are. -/
theorem read_of_incomplete (h : b.Valid) (hheader : 2 ≤ b.headerSize)
    (hshort : b.unread.length < b.headerSize ∨
      b.unread.length < (uint16At b.unread 0).toNat ∧ (uint16At b.unread 0).toNat < 32768) :
    b.read = some ({ offset := 0, count := 0 }, b) := by
  rw [read_eq h hheader, if_pos]
  rcases hshort with hshort | ⟨hshort, hmax⟩
  · exact .inl hshort
  · right
    rw [toInt_toInt16 hmax]
    exact_mod_cast hshort

/-- A complete frame at the front is handed out and removed. -/
theorem read_of_complete (h : b.Valid) (hheader : 2 ≤ b.headerSize)
    (hlength : b.headerSize ≤ b.unread.length)
    (hsize : (uint16At b.unread 0).toNat ≤ b.unread.length)
    (hmax : (uint16At b.unread 0).toNat < 32768) :
    b.read = some ({ offset := b.readPos, count := (uint16At b.unread 0).toNat },
      { b with readPos := b.readPos + (uint16At b.unread 0).toNat }) := by
  rw [read_eq h hheader, if_neg, if_neg (toInt16_nonneg hmax), toNatClampNeg_toInt16 hmax]
  rw [toInt_toInt16 hmax]
  omega

/-- The bytes left after `count` of them are handed out -/
theorem advance_unread (count : ℕ) :
    { b with readPos := b.readPos + count }.unread = b.unread.drop count := by
  simp only [unread, drop_window]
  congr 1
  omega

theorem advance_valid (h : b.Valid) {count : ℕ} (hcount : count ≤ b.unread.length) :
    { b with readPos := b.readPos + count }.Valid := by
  have hread := h.readPos_le
  rw [length_unread] at hcount
  refine ⟨?_, h.writePos_le⟩
  change b.readPos + count ≤ b.writePos
  omega

/-- The segment that was handed out is the front of the unread bytes. -/
theorem window_readPos {count : ℕ} (hcount : count ≤ b.unread.length) :
    window b.packetData b.readPos count = b.unread.take count := by
  rw [length_unread] at hcount
  rw [unread, take_window, Nat.min_eq_left hcount]

end PacketBufferManager
end ChatServer.Client
