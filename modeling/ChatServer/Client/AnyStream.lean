import ChatServer.Client.NetworkReadProcess

/-! # The read thread on any stream

`Read` takes the length of a frame from its first two bytes as they come. A length that
is negative, or smaller than the header, ends the thread with an exception; a length of 0
stops the loop in front of the header for good.
-/

namespace ChatServer.Client
open LinearMemory Framing Recorded

/-- Every header at the start of a frame declares a length from 5 to 32767. -/
inductive HeadersOk : Bytes → Prop
  | short {l : Bytes} : l.length < PacketDef.packetHeaderSize → HeadersOk l
  | header {l : Bytes} : PacketDef.packetHeaderSize ≤ (uint16At l 0).toNat →
      (uint16At l 0).toNat ≤ 32767 →
      ((uint16At l 0).toNat ≤ l.length → HeadersOk (l.drop (uint16At l 0).toNat)) → HeadersOk l

/-- Fewer bytes are left than a header has, or than it declares as an `Int16`. -/
def Stopped (l : Bytes) : Prop :=
  l.length < PacketDef.packetHeaderSize ∨ (l.length : ℤ) < (uint16At l 0).toInt16.toInt

instance (l : Bytes) : Decidable (Stopped l) :=
  inferInstanceAs (Decidable (_ ∨ _))

/-- The bytes that the loop finds after a chunk: `Write` takes the chunk or refuses it. -/
def NetworkReader.buffered (r : NetworkReader) (chunk : Bytes) : Bytes :=
  if r.packetBuffer.writePos + chunk.length ≤ r.packetBuffer.bufferSize then
    r.packetBuffer.unread ++ chunk
  else r.packetBuffer.unread

/-- One turn of the thread goes well: no exception, every iteration but the last delivers a
frame with a header, the last one finds too few bytes, and no chunk is refused while a
header waits for its frame. -/
def Withstands (thread : ReadThread) (chunk : Bytes) (thread' : ReadThread) : Prop :=
  ∃ r r', thread = some r ∧ thread' = some r' ∧
    (∃ frames : List Bytes, (∀ f ∈ frames, PacketDef.packetHeaderSize ≤ f.length) ∧
      r'.recvPacketQueue = r.recvPacketQueue ++ frames.map packetOf ∧
      r.buffered chunk = frames.flatten ++ r'.packetBuffer.unread) ∧
    Stopped r'.packetBuffer.unread ∧
    (r.packetBuffer.bufferSize < r.packetBuffer.writePos + chunk.length →
      r.packetBuffer.unread.length < PacketDef.packetHeaderSize)

/-- The chunk fits behind `WritePos` or meets no header, and the headers in the bytes that
are then buffered are in range. -/
def Bearable (thread : ReadThread) (chunk : Bytes) : Prop :=
  ∀ r, thread = some r →
    (r.packetBuffer.writePos + chunk.length ≤ r.packetBuffer.bufferSize ∨
      r.packetBuffer.unread.length < PacketDef.packetHeaderSize) ∧
    HeadersOk (r.buffered chunk)

variable {b b' : PacketBufferManager} {fuel : ℕ} {chunk : Bytes} {r : NetworkReader}

/-! ## The loop -/

/-- `new byte[DataSize]` throws for a frame shorter than its header. -/
theorem toPacketData_of_small (b : PacketBufferManager) {data : ArraySegment}
    (hsmall : data.count < PacketDef.packetHeaderSize) : toPacketData b data = none := by
  have hnegative : ∀ count : ℕ, count < 5 →
      Int16.ofInt ((count : ℤ) - PacketDef.packetHeaderSize) < 0 := by
    decide
  unfold toPacketData
  cases b.toInt16 (data.offset + 2) with
  | none => rfl
  | some packetID => exact if_pos (hnegative _ hsmall)

/-- A segment of negative length throws. -/
theorem PacketBufferManager.read_of_negative (h : b.Valid) (hheader : 2 ≤ b.headerSize)
    (hlength : b.headerSize ≤ b.unread.length) (hnegative : 32767 < (uint16At b.unread 0).toNat) :
    b.read = none := by
  have hsign : (uint16At b.unread 0).toInt16.toInt < 0 := by
    have hx : (uint16At b.unread 0).toInt16.toInt = (uint16At b.unread 0).toBitVec.toInt := rfl
    have hnat : (uint16At b.unread 0).toBitVec.toNat = (uint16At b.unread 0).toNat := rfl
    rw [hx, BitVec.toInt_eq_toNat_cond, if_neg (by omega)]
    have := (uint16At b.unread 0).toNat_lt
    omega
  have hless : (uint16At b.unread 0).toInt16 < 0 := by
    rw [Int16.lt_iff_toInt_lt]
    exact hsign
  rw [read_eq h hheader, if_neg (by omega), if_pos hless]

/-- The four things a `Read` in front of a header can lead to -/
theorem readLoop_header (fuel : ℕ) (h : b.Valid) (hheader : b.headerSize = 5)
    (hlength : 5 ≤ b.unread.length) :
    readLoop (fuel + 1) b =
      if 32767 < (uint16At b.unread 0).toNat then none
      else if b.unread.length < (uint16At b.unread 0).toNat then some ([], b)
      else if (uint16At b.unread 0).toNat = 0 then some ([], b)
      else if (uint16At b.unread 0).toNat < 5 then none
      else (readLoop fuel { b with readPos := b.readPos + (uint16At b.unread 0).toNat }).map
        fun p => (packetOf (b.unread.take (uint16At b.unread 0).toNat) :: p.1, p.2) := by
  have htwo : 2 ≤ b.headerSize := by omega
  by_cases hnegative : 32767 < (uint16At b.unread 0).toNat
  · rw [if_pos hnegative, readLoop, PacketBufferManager.read_of_negative h htwo (by omega) hnegative]
    rfl
  rw [if_neg hnegative]
  by_cases hshort : b.unread.length < (uint16At b.unread 0).toNat
  · rw [if_pos hshort, readLoop,
      PacketBufferManager.read_of_incomplete h htwo (.inr ⟨hshort, by omega⟩)]
    rfl
  rw [if_neg hshort, readLoop, PacketBufferManager.read_of_complete h htwo (by omega)
    (Nat.le_of_not_lt hshort) (by omega)]
  simp only [Option.bind_eq_bind, Option.bind_some]
  by_cases hzero : (uint16At b.unread 0).toNat = 0
  · rw [if_pos hzero, if_pos (by omega), hzero]
    rfl
  rw [if_neg hzero, if_neg (by omega)]
  by_cases hsmall : (uint16At b.unread 0).toNat < 5
  · rw [if_pos hsmall, toPacketData_of_small _ hsmall]
    rfl
  · have htake :
        (b.unread.take (uint16At b.unread 0).toNat).length = (uint16At b.unread 0).toNat := by
      rw [List.length_take]
      omega
    have hpacket := toPacketData_of_frame h (f := b.unread.take (uint16At b.unread 0).toNat)
      (by omega) (by omega) (List.take_prefix _ _) (b.readPos + (uint16At b.unread 0).toNat)
    rw [htake] at hpacket
    rw [if_neg hsmall, hpacket]
    cases readLoop fuel { b with readPos := b.readPos + (uint16At b.unread 0).toNat } with
    | none => rfl
    | some p => rfl

theorem readLoop_short (h : b.Valid) (hheader : b.headerSize = 5) (hlength : b.unread.length < 5) :
    readLoop (fuel + 1) b = some ([], b) := by
  rw [readLoop, PacketBufferManager.read_of_incomplete h (by omega) (.inl (by omega))]
  rfl

theorem stopped_of_short {l : Bytes} (hmax : (uint16At l 0).toNat ≤ 32767)
    (hshort : l.length < (uint16At l 0).toNat) : Stopped l := by
  right
  rw [PacketBufferManager.toInt_toInt16 (by omega)]
  exact_mod_cast hshort

/-- With all headers in range the loop delivers frames and ends for want of bytes. -/
theorem readLoop_of_headersOk (h : b.Valid) (hheader : b.headerSize = 5)
    (hok : HeadersOk b.unread) (hfuel : b.unread.length < fuel) :
    ∃ (frames : List Bytes) (readPos : ℕ),
      readLoop fuel b = some (frames.map packetOf, { b with readPos := readPos }) ∧
      ({ b with readPos := readPos } : PacketBufferManager).Valid ∧
      (∀ f ∈ frames, 5 ≤ f.length) ∧
      b.unread = frames.flatten ++
        ({ b with readPos := readPos } : PacketBufferManager).unread ∧
      Stopped ({ b with readPos := readPos } : PacketBufferManager).unread := by
  induction fuel generalizing b with
  | zero => exact absurd hfuel (Nat.not_lt_zero _)
  | succ fuel ih =>
    by_cases hlength : b.unread.length < 5
    · exact ⟨[], b.readPos, readLoop_short h hheader hlength, h, by simp, rfl, .inl hlength⟩
    cases hok with
    | short hshort => exact absurd hshort hlength
    | header hmin hmax hrest =>
      change 5 ≤ _ at hmin
      have hloop := readLoop_header fuel h hheader (Nat.le_of_not_lt hlength)
      rw [if_neg (by omega)] at hloop
      by_cases hshort : b.unread.length < (uint16At b.unread 0).toNat
      · rw [if_pos hshort] at hloop
        exact ⟨[], b.readPos, hloop, h, by simp, rfl, stopped_of_short hmax hshort⟩
      · have hall : (uint16At b.unread 0).toNat ≤ b.unread.length := Nat.le_of_not_lt hshort
        rw [if_neg hshort, if_neg (by omega), if_neg (by omega)] at hloop
        have hdrop := PacketBufferManager.advance_unread (b := b) (uint16At b.unread 0).toNat
        have hafter := hrest hall
        rw [← hdrop] at hafter
        rcases ih (PacketBufferManager.advance_valid h hall) hheader hafter
          (by rw [hdrop, List.length_drop]; omega) with
          ⟨frames, readPos, hread, hvalid, hframes, hsplit, hstopped⟩
        refine ⟨b.unread.take (uint16At b.unread 0).toNat :: frames, readPos, ?_, hvalid, ?_, ?_,
          hstopped⟩
        · rw [hloop, hread]
          rfl
        · intro f hf
          rcases List.mem_cons.mp hf with rfl | hf
          · rw [List.length_take]
            omega
          · exact hframes f hf
        · rw [List.flatten_cons, List.append_assoc, ← hsplit, hdrop, List.take_append_drop]

/-- A loop that ends for want of bytes has met headers in range only. -/
theorem headersOk_of_readLoop (h : b.Valid) (hheader : b.headerSize = 5)
    {packets : List PacketData} (hloop : readLoop fuel b = some (packets, b'))
    (hstopped : Stopped b'.unread) : HeadersOk b.unread := by
  induction fuel generalizing b packets with
  | zero => cases hloop
  | succ fuel ih =>
    by_cases hlength : b.unread.length < 5
    · exact .short hlength
    rw [readLoop_header fuel h hheader (Nat.le_of_not_lt hlength)] at hloop
    split_ifs at hloop with hmax hshort hzero hmin
    · exact .header (by change 5 ≤ _; omega) (by omega) fun hall => by omega
    · -- the length is 0: the loop has ended in front of a header
      obtain ⟨rfl, rfl⟩ : [] = packets ∧ b = b' := by simpa using hloop
      rcases hstopped with hless | hless
      · exact absurd hless hlength
      · rw [PacketBufferManager.toInt_toInt16 (by omega)] at hless
        omega
    · rcases Option.map_eq_some_iff.mp hloop with ⟨⟨later, b''⟩, hread, heq⟩
      obtain ⟨-, rfl⟩ : _ ∧ b'' = b' := by simpa using heq
      have hall : (uint16At b.unread 0).toNat ≤ b.unread.length := Nat.le_of_not_lt hshort
      refine .header (by change 5 ≤ _; omega) (by omega) fun _ => ?_
      rw [← PacketBufferManager.advance_unread]
      exact ih (PacketBufferManager.advance_valid h hall) hheader hread

/-! ## Whole runs -/

/-- The cursors are in order and the sizes those of `Form1_Load`. -/
structure Upright (r : NetworkReader) : Prop where
  valid : r.packetBuffer.Valid
  headerSize : r.packetBuffer.headerSize = 5

/-- What `Write` leaves for the loop -/
theorem Upright.write (h : Upright r) (chunk : Bytes) : ∃ ok b,
    r.packetBuffer.write (chunk ++ List.replicate (readBufferLength - chunk.length) 0) 0
      chunk.length = (ok, b) ∧ b.Valid ∧ b.headerSize = 5 ∧ b.unread = r.buffered chunk := by
  have hdata : 0 + chunk.length ≤
      (chunk ++ List.replicate (readBufferLength - chunk.length) 0).length := by simp
  unfold NetworkReader.buffered
  split_ifs with hfit
  · rcases PacketBufferManager.write_appended h.valid hdata hfit with ⟨b, hwrite, happended⟩
    rw [take_readBuffer] at happended
    exact ⟨true, b, hwrite, happended.valid, happended.headerSize.trans h.headerSize,
      happended.unread⟩
  · exact ⟨false, _, PacketBufferManager.write_of_full hdata (Nat.lt_of_not_le hfit), h.valid,
      h.headerSize, rfl⟩

/-- A chunk that the reader can bear is withstood. -/
theorem Upright.receive (h : Upright r) (hbearable : Bearable (some r) chunk) :
    ∃ r', r.receive chunk = some r' ∧ Upright r' ∧ Withstands (some r) chunk (some r') := by
  rcases hbearable r rfl with ⟨hroom, hok⟩
  rcases h.write chunk with ⟨ok, b, hwrite, hvalid, hheader, hunread⟩
  rw [← hunread] at hok
  rcases readLoop_of_headersOk hvalid hheader hok (Nat.lt_succ_self _) with
    ⟨frames, readPos, hloop, hvalid', hframes, hsplit, hstopped⟩
  refine ⟨_, receive_eq hwrite hloop, ⟨hvalid', hheader⟩, r, _, rfl, rfl,
    ⟨frames, hframes, rfl, by rw [← hunread]; exact hsplit⟩, hstopped, fun hfull => ?_⟩
  exact hroom.resolve_left (Nat.not_le_of_lt hfull)

/-- A chunk that is withstood is one that the reader can bear. -/
theorem Upright.bearable (h : Upright r) {thread' : ReadThread}
    (hstep : r.receive chunk = thread') (hwithstands : Withstands (some r) chunk thread') :
    Bearable (some r) chunk := by
  rcases hwithstands with ⟨r₁, r', hr₁, hr', -, hstopped, hroom⟩
  obtain rfl := Option.some.inj hr₁
  rintro _ ⟨⟩
  refine ⟨?_, ?_⟩
  · by_cases hfit : r.packetBuffer.writePos + chunk.length ≤ r.packetBuffer.bufferSize
    · exact .inl hfit
    · exact .inr (hroom (Nat.lt_of_not_le hfit))
  · rcases h.write chunk with ⟨ok, b, hwrite, hvalid, hheader, hunread⟩
    rw [← hunread]
    rw [hr'] at hstep
    simp only [NetworkReader.receive, hwrite, Option.bind_eq_bind] at hstep
    rcases Option.bind_eq_some_iff.mp hstep with ⟨⟨packets, b'⟩, hloop, hread⟩
    obtain rfl := Option.some.inj hread
    exact headersOk_of_readLoop hvalid hheader hloop hstopped

/-- A whole header that declares 0 is in front. -/
structure Stuck (r : NetworkReader) : Prop where
  upright : Upright r
  length : 5 ≤ r.packetBuffer.unread.length
  zero : (uint16At r.packetBuffer.unread 0).toNat = 0

theorem Stuck.receive (h : Stuck r) (chunk : Bytes) :
    ∃ r', r.receive chunk = some r' ∧ Stuck r' ∧ r'.recvPacketQueue = r.recvPacketQueue ∧
      r'.packetBuffer.unread = r.buffered chunk := by
  rcases h.upright.write chunk with ⟨ok, b, hwrite, hvalid, hheader, hunread⟩
  have hlength : 5 ≤ b.unread.length ∧ (uint16At b.unread 0).toNat = 0 := by
    have h₀ := h.zero
    have h₅ := h.length
    rw [hunread, NetworkReader.buffered]
    split_ifs
    · rw [← uint16At_take (n := 2) (by decide), List.take_append_of_le_length (by omega),
        uint16At_take (by decide), List.length_append]
      exact ⟨by omega, h₀⟩
    · exact ⟨h₅, h₀⟩
  have hloop := readLoop_header b.unread.length hvalid hheader hlength.1
  rw [if_neg (by omega), if_neg (by omega), if_pos hlength.2] at hloop
  exact ⟨_, receive_eq hwrite hloop, ⟨⟨hvalid, hheader⟩, hlength.1, hlength.2⟩, by simp, hunread⟩

/-- From then on no stream delivers another packet. -/
theorem stuck_forever (h : Stuck r) {past : List (Entry ReadThread Bytes)} {thread : ReadThread}
    (run : Run ReadThread.step (some r) past thread) :
    ∃ r', thread = some r' ∧ Stuck r' ∧ r'.recvPacketQueue = r.recvPacketQueue := by
  apply run.state_invariant (P := fun thread =>
    ∃ r', thread = some r' ∧ Stuck r' ∧ r'.recvPacketQueue = r.recvPacketQueue) ⟨r, rfl, h, rfl⟩
  rintro _ chunk thread' ⟨r₁, rfl, hstuck, hqueue⟩ hstep
  rcases hstuck.receive chunk with ⟨r', hreceive, hstuck', hqueue', -⟩
  obtain rfl : r₁.receive chunk = thread' := Option.some.inj hstep
  exact ⟨r', hreceive, hstuck', hqueue'.trans hqueue⟩

end ChatServer.Client
