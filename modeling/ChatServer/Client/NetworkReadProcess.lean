import ChatServer.Client.PacketBufferManager
import ChatServer.Client.Packet
import ChatServer.Library.Run

/-! # The read thread of the client

Every chunk from the socket is written to the buffer, and then all complete packets
are read into `RecvPacketQueue`. The result of `Write` is not looked at: a chunk that
does not fit behind `WritePos` is lost, and only then.
-/

namespace ChatServer.Client
open LinearMemory Framing Recorded

/-- `PacketData` -/
structure PacketData where
  dataSize : Int16
  packetID : Int16
  type : Int8
  bodyData : Bytes

/-- Build a `PacketData` from a segment of the buffer; `new byte[DataSize]` throws for a
negative size. -/
def toPacketData (b : PacketBufferManager) (data : ArraySegment) : Option PacketData :=
  let dataSize : Int16 := Int16.ofInt ((data.count : ℤ) - PacketDef.packetHeaderSize)
  match b.toInt16 (data.offset + 2) with
  | none => none
  | some packetID =>
    if dataSize < 0 then none
    else some
      { dataSize := dataSize, packetID := packetID
        type := (b.packetData (data.offset + 4)).toInt8
        bodyData := window b.packetData (data.offset + PacketDef.packetHeaderSize)
          (data.count - PacketDef.packetHeaderSize) }

/-- The inner loop of `NetworkReadProcess`: the packets it enqueues and the buffer it
leaves. Without fuel or after an exception it has no result. -/
def readLoop : ℕ → PacketBufferManager → Option (List PacketData × PacketBufferManager)
  | 0, _ => none
  | fuel + 1, b => do
    let (data, b) ← b.read
    if data.count < 1 then some ([], b)
    else
      let packet ← toPacketData b data
      let (packets, b) ← readLoop fuel b
      some (packet :: packets, b)

/-- What the read thread works on. `recvPacketQueue` keeps all that was enqueued. -/
structure NetworkReader where
  packetBuffer : PacketBufferManager
  recvPacketQueue : List PacketData

/-- `ReadBuffer.Length` in `ClientNetwork.Receive` -/
def readBufferLength : ℕ := 2048

/-- One turn of `NetworkReadProcess` with a received chunk, which is at the front of
`ReadBuffer`. The loop ends after one turn for each byte at the latest. -/
def NetworkReader.receive (r : NetworkReader) (chunk : Bytes) : Option NetworkReader := do
  let readBuffer := chunk ++ List.replicate (readBufferLength - chunk.length) 0
  let (_, b) := r.packetBuffer.write readBuffer 0 chunk.length
  let (packets, b) ← readLoop (b.unread.length + 1) b
  some { packetBuffer := b, recvPacketQueue := r.recvPacketQueue ++ packets }

/-- The thread, or `none` after an exception has ended it -/
abbrev ReadThread := Option NetworkReader

/-- `PacketBuffer.Init` with the arguments of `Form1_Load` -/
def form1Load : ReadThread := do
  let b ← PacketBufferManager.init (8096 * 10) 5 1024
  some { packetBuffer := b, recvPacketQueue := [] }

def ReadThread.step (thread : ReadThread) (chunk : Bytes) : Option ReadThread :=
  some (thread.bind fun r => r.receive chunk)

/-! ## One turn on a stream of frames -/

/-- A frame as the client's handlers see it -/
def packetOf (f : Bytes) : PacketData where
  dataSize := Int16.ofNat (f.length - PacketDef.packetHeaderSize)
  packetID := (uint16At f 2).toInt16
  type := (byteAt f 4).toInt8
  bodyData := f.drop PacketDef.packetHeaderSize

/-- A frame of the server's stream: it holds a header, which declares its length. -/
def StreamFrame (f : Bytes) : Prop := requestFormat.WellFormed f ∧ f.length ≤ 1024

variable {b b' : PacketBufferManager} {f u rest : Bytes} {fs : List Bytes} {fuel : ℕ}

theorem declared_eq (l : Bytes) : requestFormat.declared l = (uint16At l 0).toNat := rfl

/-- The cells of the buffer where a frame stands -/
theorem packetData_eq_byteAt (hlength : f.length ≤ b.unread.length) (hunread : f <+: b.unread)
    {k : ℕ} (hk : k < f.length) : b.packetData (b.readPos + k) = byteAt f k := by
  have hwindow := PacketBufferManager.window_readPos hlength
  rw [← List.prefix_iff_eq_take.mp hunread] at hwindow
  have hcell := getElem?_window b.packetData b.readPos f.length k
  rw [hwindow, if_pos hk] at hcell
  simp [byteAt, hcell]

/-- The packet built from the segment of a frame -/
theorem toPacketData_of_frame (h : b.Valid) (hheader : 5 ≤ f.length) (hmax : f.length < 32768)
    (hunread : f <+: b.unread) (readPos : ℕ) :
    toPacketData { b with readPos := readPos } { offset := b.readPos, count := f.length } =
      some (packetOf f) := by
  have hlength := hunread.length_le
  have hend : b.readPos + f.length ≤ b.bufferSize := by
    have := h.readPos_le
    have := h.writePos_le
    rw [PacketBufferManager.length_unread] at hlength
    omega
  have hcell := fun k hk => packetData_eq_byteAt hlength hunread (k := k) hk
  have hid : uint16At (window b.packetData (b.readPos + 2) 2) 0 = uint16At f 2 := by
    have h₂ := hcell 2 (by omega)
    have h₃ := hcell 3 (by omega)
    simp only [uint16At, byteAt, window] at h₂ h₃ ⊢
    simp [h₂, h₃, List.range_succ, Nat.add_assoc]
  have hbody : window b.packetData (b.readPos + PacketDef.packetHeaderSize)
      (f.length - PacketDef.packetHeaderSize) = f.drop PacketDef.packetHeaderSize := by
    have hwindow := PacketBufferManager.window_readPos hlength
    rw [← List.prefix_iff_eq_take.mp hunread] at hwindow
    rw [← drop_window, hwindow]
  have hsize : Int16.ofInt ((f.length : ℤ) - PacketDef.packetHeaderSize) =
      Int16.ofNat (f.length - PacketDef.packetHeaderSize) := by
    rw [← Int16.ofInt_eq_ofNat]
    congr 1
    simp only [PacketDef.packetHeaderSize]
    exact (Int.ofNat_sub hheader).symm
  have hnonneg : ¬Int16.ofNat (f.length - PacketDef.packetHeaderSize) < 0 := by
    rw [Int16.lt_iff_toInt_lt, Int16.toInt_ofNat_of_lt (by omega)]
    simp
  have hread : ({ b with readPos := readPos } : PacketBufferManager).toInt16 (b.readPos + 2) =
      some (uint16At f 2).toInt16 := by
    rw [PacketBufferManager.toInt16, if_pos (show b.readPos + 2 + 2 ≤ b.bufferSize by omega), hid]
  simp only [toPacketData, hread, hsize, hnonneg, if_false, hbody, packetOf]
  rw [hcell 4 (by omega)]

/-- The header of the unread bytes is that of the first frame. -/
theorem uint16At_of_prefix (hlength : 5 ≤ u.length) (hf : StreamFrame f) (hu : u <+: f ++ rest) :
    (uint16At u 0).toNat = f.length := by
  have hheader : 5 ≤ f.length := hf.1.1
  rw [← hf.1.2, declared_eq, ← uint16At_take (p := u) (n := 2) (by decide),
    ← uint16At_take (p := f) (n := 2) (by decide)]
  congr 2
  have htake := congrArg (List.take 2) (List.prefix_iff_eq_take.mp hu)
  rw [List.take_take, Nat.min_eq_left (by omega), List.take_append_of_le_length (by omega)] at htake
  exact htake

/-- An incomplete frame ends the loop. -/
theorem readLoop_of_incomplete (hf : StreamFrame f) (h : b.Valid) (hheader : b.headerSize = 5)
    (hu : b.unread <+: f ++ rest) (hshort : b.unread.length < f.length) :
    readLoop (fuel + 1) b = some ([], b) := by
  have hmax : f.length ≤ 1024 := hf.2
  rw [readLoop, PacketBufferManager.read_of_incomplete h (by omega)]
  · simp
  · by_cases hheaderShort : b.unread.length < 5
    · exact .inl (by omega)
    · have hsize := uint16At_of_prefix (by omega) hf hu
      exact .inr ⟨by omega, by omega⟩

/-- A complete frame is handed out, and the loop goes on behind it. -/
theorem readLoop_of_complete (hf : StreamFrame f) (h : b.Valid) (hheader : b.headerSize = 5)
    (hu : b.unread <+: f ++ rest) (hcomplete : f.length ≤ b.unread.length) :
    readLoop (fuel + 1) b =
      (readLoop fuel { b with readPos := b.readPos + f.length }).map fun r =>
        (packetOf f :: r.1, r.2) := by
  have hlength : 5 ≤ f.length := hf.1.1
  have hmax : f.length ≤ 1024 := hf.2
  have hsize := uint16At_of_prefix (by omega) hf hu
  have hfront := List.prefix_of_prefix_length_le (List.prefix_append f rest) hu hcomplete
  have hread := PacketBufferManager.read_of_complete h (by omega) (by omega) (by omega) (by omega)
  rw [hsize] at hread
  rw [readLoop, hread]
  simp only [Option.bind_eq_bind, Option.bind_some]
  rw [if_neg (by omega), toPacketData_of_frame h hlength (by omega) hfront]
  cases readLoop fuel { b with readPos := b.readPos + f.length } with
  | none => rfl
  | some r => rfl

/-- On the unread front of a stream of frames, the loop enqueues the frames that are
complete and leaves the rest. -/
theorem readLoop_eq (hfs : ∀ f ∈ fs, StreamFrame f) (h : b.Valid) (hheader : b.headerSize = 5)
    (hu : b.unread <+: fs.flatten) (hfuel : b.unread.length < fuel) :
    ∃ readPos, readLoop fuel b =
        some ((within fs b.unread.length).map packetOf, { b with readPos := readPos }) ∧
      ({ b with readPos := readPos } : PacketBufferManager).Valid ∧
      b.unread = (within fs b.unread.length).flatten ++
        ({ b with readPos := readPos } : PacketBufferManager).unread := by
  obtain ⟨fuel, rfl⟩ : ∃ k, fuel = k + 1 := ⟨fuel - 1, by omega⟩
  induction fs generalizing b fuel with
  | nil =>
    have hnil : b.unread = [] := by simpa using hu
    refine ⟨b.readPos, ?_, h, by simp [within]⟩
    rw [readLoop, PacketBufferManager.read_of_incomplete h (by omega)
      (.inl (by rw [hnil, hheader]; decide))]
    simp [within]
  | cons f fs ih =>
    have hf := hfs f (by simp)
    have hlength : 5 ≤ f.length := hf.1.1
    rw [List.flatten_cons] at hu
    rw [within]
    split_ifs with hcomplete
    · -- the unread bytes behind the first frame are the front of the other frames
      have hrest := PacketBufferManager.advance_unread (b := b) f.length
      have hfront := List.prefix_of_prefix_length_le (List.prefix_append f fs.flatten) hu hcomplete
      rcases hfront with ⟨t, ht⟩
      have hdrop : b.unread.drop f.length <+: fs.flatten := by
        rw [← ht] at hu ⊢
        simpa using hu
      rw [← hrest] at hdrop
      obtain ⟨fuel, rfl⟩ : ∃ k, fuel = k + 1 := ⟨fuel - 1, by omega⟩
      rcases ih (fun g hg => hfs g (by simp [hg]))
        (PacketBufferManager.advance_valid h hcomplete) hheader hdrop fuel
        (by rw [hrest, List.length_drop]; omega) with ⟨readPos, hloop, hvalid, hsplit⟩
      rw [hrest, List.length_drop] at hloop hsplit
      refine ⟨readPos, ?_, hvalid, ?_⟩
      · rw [readLoop_of_complete hf h hheader hu hcomplete, hloop]
        rfl
      · rw [List.flatten_cons, List.append_assoc, ← hsplit, ← ht]
        simp
    · refine ⟨b.readPos, ?_, h, by simp⟩
      rw [readLoop_of_incomplete hf h hheader hu (Nat.lt_of_not_le hcomplete)]
      rfl

/-- What the read thread keeps as long as no chunk was lost. -/
structure Sound (fs : List Bytes) (received : Bytes) (r : NetworkReader) : Prop where
  valid : r.packetBuffer.Valid
  bufferSize : r.packetBuffer.bufferSize = 80960
  headerSize : r.packetBuffer.headerSize = 5
  maxPacketSize : r.packetBuffer.maxPacketSize = 1024
  queue : r.recvPacketQueue = (within fs received.length).map packetOf
  split : received = (within fs received.length).flatten ++ r.packetBuffer.unread
  writePos_le : r.packetBuffer.writePos ≤ received.length
  writePos_eq : received.length + 1024 ≤ 80960 → r.packetBuffer.writePos = received.length

/-- The queue holds the complete frames of what was received, and the rest is unread. -/
def Reassembled (fs : List Bytes) (received : Bytes) (thread : ReadThread) : Prop :=
  ∃ r, thread = some r ∧ r.recvPacketQueue = (within fs received.length).map packetOf ∧
    received = (within fs received.length).flatten ++ r.packetBuffer.unread

/-- There is room for the chunk behind `WritePos`. -/
def Fits (thread : ReadThread) (chunk : Bytes) : Prop :=
  ∀ r, thread = some r →
    r.packetBuffer.writePos + chunk.length ≤ r.packetBuffer.bufferSize

variable {received chunk : Bytes} {r : NetworkReader}

theorem within_zero (hfs : ∀ f ∈ fs, StreamFrame f) : within fs 0 = [] := by
  cases fs with
  | nil => rfl
  | cons f fs =>
    have hlength : 5 ≤ f.length := (hfs f (by simp)).1.1
    rw [within, if_neg (by omega)]

theorem sound_form1Load (hfs : ∀ f ∈ fs, StreamFrame f) :
    ∃ r, form1Load = some r ∧ Sound fs [] r := by
  refine ⟨_, rfl, ?_⟩
  exact
    { valid := ⟨Nat.le_refl _, Nat.zero_le _⟩
      bufferSize := rfl, headerSize := rfl, maxPacketSize := rfl
      queue := by rw [List.length_nil, within_zero hfs]; rfl
      split := by rw [List.length_nil, within_zero hfs]; rfl
      writePos_le := Nat.le_refl _
      writePos_eq := fun _ => rfl }

/-- The frames not yet handed out, and the unread bytes at their front -/
theorem Sound.remaining (h : Sound fs received r) (hstream : received ++ chunk <+: fs.flatten) :
    ∃ fs', fs = within fs received.length ++ fs' ∧
      r.packetBuffer.unread ++ chunk <+: fs'.flatten ∧
      within fs (received ++ chunk).length =
        within fs received.length ++ within fs' (r.packetBuffer.unread ++ chunk).length := by
  rcases within_prefix fs received.length with ⟨fs', hfs'⟩
  have hsplit := h.split
  generalize within fs received.length = taken at hfs' hsplit
  subst hfs'
  refine ⟨fs', rfl, ?_, ?_⟩
  · rw [hsplit, List.flatten_append, List.append_assoc] at hstream
    exact (List.prefix_append_right_inj _).mp hstream
  · rw [← within_append, ← List.length_append, ← List.append_assoc, ← hsplit]

/-- `ReadBuffer` has the chunk at its front. -/
theorem take_readBuffer (chunk : Bytes) :
    ((chunk ++ List.replicate (readBufferLength - chunk.length) 0).drop 0).take chunk.length =
      chunk := by simp

theorem receive_eq {ok : Bool} {packets : List PacketData}
    (hwrite : r.packetBuffer.write (chunk ++ List.replicate (readBufferLength - chunk.length) 0) 0
      chunk.length = (ok, b))
    (hloop : readLoop (b.unread.length + 1) b = some (packets, b')) :
    r.receive chunk =
      some { packetBuffer := b', recvPacketQueue := r.recvPacketQueue ++ packets } := by
  simp only [NetworkReader.receive, hwrite, hloop, Option.bind_eq_bind, Option.bind_some]

/-- A chunk that fits is taken in whole. -/
theorem Sound.receive (h : Sound fs received r) (hfs : ∀ f ∈ fs, StreamFrame f)
    (hstream : received ++ chunk <+: fs.flatten)
    (hfits : r.packetBuffer.writePos + chunk.length ≤ r.packetBuffer.bufferSize) :
    ∃ r', r.receive chunk = some r' ∧ Sound fs (received ++ chunk) r' := by
  rcases h.remaining hstream with ⟨fs', hfs', hunread, hwithin⟩
  have hdata : 0 + chunk.length ≤
      (chunk ++ List.replicate (readBufferLength - chunk.length) 0).length := by simp
  rcases PacketBufferManager.write_appended h.valid hdata hfits with ⟨b, hwrite, happended⟩
  rw [take_readBuffer] at happended
  rw [← happended.unread] at hunread hwithin
  have hrest : ∀ f ∈ fs', StreamFrame f := by
    intro f hf
    exact hfs f (by rw [hfs']; exact List.mem_append_right _ hf)
  rcases readLoop_eq hrest happended.valid (happended.headerSize.trans h.headerSize) hunread
    (Nat.lt_succ_self _) with ⟨readPos, hloop, hvalid, hsplit⟩
  refine ⟨_, receive_eq hwrite hloop, ?_⟩
  exact
    { valid := hvalid
      bufferSize := happended.bufferSize.trans h.bufferSize
      headerSize := happended.headerSize.trans h.headerSize
      maxPacketSize := happended.maxPacketSize.trans h.maxPacketSize
      queue := by rw [hwithin, List.map_append, h.queue]
      split := by
        rw [hwithin, List.flatten_append, List.append_assoc, ← hsplit, happended.unread,
          ← List.append_assoc, ← h.split]
      writePos_le := by
        have hwritten := happended.writePos_le
        have hbefore := h.writePos_le
        rw [List.length_append]
        change b.writePos ≤ _
        omega
      writePos_eq := by
        intro hroom
        rw [List.length_append] at hroom ⊢
        have hpos := h.writePos_eq (by omega)
        have hsize := h.bufferSize
        have hmax := h.maxPacketSize
        have hwritten := happended.writePos_eq (by omega)
        change b.writePos = _
        omega }

/-- A chunk that does not fit changes nothing. -/
theorem Sound.receive_of_full (h : Sound fs received r) (hfs : ∀ f ∈ fs, StreamFrame f)
    (hstream : received <+: fs.flatten)
    (hfull : r.packetBuffer.bufferSize < r.packetBuffer.writePos + chunk.length) :
    ∃ r', r.receive chunk = some r' ∧ r'.recvPacketQueue = r.recvPacketQueue ∧
      r'.packetBuffer.unread = r.packetBuffer.unread := by
  have hsame : received ++ [] <+: fs.flatten := by simpa using hstream
  rcases h.remaining hsame with ⟨fs', hfs', hunread, hwithin⟩
  simp only [List.append_nil, List.self_eq_append_right] at hunread hwithin
  have hrest : ∀ f ∈ fs', StreamFrame f := by
    intro f hf
    exact hfs f (by rw [hfs']; exact List.mem_append_right _ hf)
  rcases readLoop_eq hrest h.valid h.headerSize hunread (Nat.lt_succ_self _) with
    ⟨readPos, hloop, hvalid, hsplit⟩
  rw [hwithin] at hloop hsplit
  have hdata : 0 + chunk.length ≤
      (chunk ++ List.replicate (readBufferLength - chunk.length) 0).length := by simp
  have hwrite := PacketBufferManager.write_of_full hdata hfull
  exact ⟨_, receive_eq hwrite hloop, by simp, by simpa using hsplit.symm⟩

/-- After a lost chunk the queue and the unread bytes are behind the stream. -/
theorem Sound.not_reassembled (h : Sound fs received r) (hfs : ∀ f ∈ fs, StreamFrame f)
    (hstream : received <+: fs.flatten) (hchunk : 1 ≤ chunk.length)
    (hfull : r.packetBuffer.bufferSize < r.packetBuffer.writePos + chunk.length) :
    ¬Reassembled fs (received ++ chunk) (r.receive chunk) := by
  rcases h.receive_of_full hfs hstream hfull with ⟨r', hreceive, hqueue, hunread⟩
  rintro ⟨r'', hr'', hqueue', hsplit⟩
  obtain rfl : r' = r'' := Option.some.inj (hreceive.symm.trans hr'')
  rw [hqueue, h.queue] at hqueue'
  rw [hunread] at hsplit
  have hcount := congrArg List.length hqueue'
  rw [List.length_map, List.length_map] at hcount
  have hsame : within fs received.length = within fs (received ++ chunk).length := by
    have hpre := within_prefix fs received.length
    have hpre' := within_prefix fs (received ++ chunk).length
    exact (List.prefix_of_prefix_length_le hpre hpre' hcount.le).eq_of_length hcount
  rw [← hsame, ← h.split] at hsplit
  have hlength := congrArg List.length hsplit
  rw [List.length_append] at hlength
  omega

/-! ## Whole streams -/

/-- The bytes of all chunks so far -/
def receivedBytes (past : List (Entry ReadThread Bytes)) : Bytes := (past.map Entry.act).flatten

@[simp] theorem receivedBytes_snoc (past : List (Entry ReadThread Bytes))
    (e : Entry ReadThread Bytes) : receivedBytes (past ++ [e]) = receivedBytes past ++ e.act := by
  simp [receivedBytes]

/-- A chunk of the size that `Receive` returns, and the next bytes of the stream -/
def NextChunk (fs : List Bytes) (past : List (Entry ReadThread Bytes))
    (e : Entry ReadThread Bytes) : Prop :=
  1 ≤ e.act.length ∧ e.act.length ≤ readBufferLength ∧ receivedBytes (past ++ [e]) <+: fs.flatten

/-- The thread is sound for what was received. -/
def SoundThread (fs : List Bytes) (past : List (Entry ReadThread Bytes)) (thread : ReadThread) :
    Prop := ∃ r, thread = some r ∧ Sound fs (receivedBytes past) r

theorem SoundThread.step (hfs : ∀ f ∈ fs, StreamFrame f)
    {past : List (Entry ReadThread Bytes)} {thread thread' : ReadThread}
    (h : SoundThread fs past thread) (hstep : thread.step chunk = some thread')
    (hchunk : NextChunk fs past ⟨thread, chunk, thread'⟩) (hfits : Fits thread chunk) :
    SoundThread fs (past ++ [⟨thread, chunk, thread'⟩]) thread' := by
  rcases h with ⟨r, rfl, hsound⟩
  obtain rfl : r.receive chunk = thread' := Option.some.inj hstep
  have hstream := hchunk.2.2
  rw [receivedBytes_snoc] at hstream
  rcases hsound.receive hfs hstream (hfits r rfl) with ⟨r', hreceive, hsound'⟩
  exact ⟨r', hreceive, by rwa [receivedBytes_snoc]⟩

theorem SoundThread.reassembled_iff (hfs : ∀ f ∈ fs, StreamFrame f)
    {past : List (Entry ReadThread Bytes)} {thread thread' : ReadThread}
    (h : SoundThread fs past thread) (hstep : thread.step chunk = some thread')
    (hchunk : NextChunk fs past ⟨thread, chunk, thread'⟩) :
    Reassembled fs (receivedBytes (past ++ [⟨thread, chunk, thread'⟩])) thread' ↔
      Fits thread chunk := by
  constructor
  · intro hreassembled r hr
    rcases h with ⟨r', hr', hsound⟩
    obtain rfl : r = r' := Option.some.inj (hr.symm.trans hr')
    subst hr
    obtain rfl : r.receive chunk = thread' := Option.some.inj hstep
    have hstream := hchunk.2.2
    rw [receivedBytes_snoc] at hstream hreassembled
    have hlength : 1 ≤ chunk.length := hchunk.1
    by_contra hfull
    exact hsound.not_reassembled hfs ((List.prefix_append _ _).trans hstream) hlength
      (by omega) hreassembled
  · intro hfits
    rcases h.step hfs hstep hchunk hfits with ⟨r', hr', hsound⟩
    exact ⟨r', hr', hsound.queue, hsound.split⟩

/-- Over every stream of frames and every way of cutting it into chunks, the queue holds
after each chunk the packets of all complete frames, and no byte is lost, exactly when
each chunk meets room for it behind `WritePos`. -/
theorem stream_reassembled_iff (hfs : ∀ f ∈ fs, StreamFrame f)
    {past : List (Entry ReadThread Bytes)} {thread : ReadThread}
    (run : Run ReadThread.step form1Load past thread) (hchunks : AtEach (NextChunk fs) past) :
    AtEach (fun past e => Reassembled fs (receivedBytes (past ++ [e])) e.post) past ↔
      ∀ e ∈ past, Fits e.pre e.act := by
  rw [← atEach_const]
  refine run.exact_iff (A := NextChunk fs) (I := SoundThread fs) (sound_form1Load hfs) ?_ ?_ hchunks
  · intro past thread chunk thread' h hstep hchunk hfits
    exact h.step hfs hstep hchunk hfits
  · intro past thread chunk thread' h hstep hchunk
    exact h.reassembled_iff hfs hstep hchunk

/-- The first 80960 bytes of a stream always find room. -/
theorem fits_of_short (hfs : ∀ f ∈ fs, StreamFrame f)
    {past : List (Entry ReadThread Bytes)} {thread : ReadThread}
    (run : Run ReadThread.step form1Load past thread) (hchunks : AtEach (NextChunk fs) past)
    (hshort : (receivedBytes past).length ≤ 80960) :
    SoundThread fs past thread ∧ ∀ e ∈ past, Fits e.pre e.act := by
  induction run with
  | nil => exact ⟨sound_form1Load hfs, by simp⟩
  | @snoc past thread chunk thread' run hstep ih =>
    rcases atEach_snoc.mp hchunks with ⟨hbefore, hchunk⟩
    rw [receivedBytes_snoc, List.length_append] at hshort
    change _ + chunk.length ≤ 80960 at hshort
    rcases ih hbefore (by omega) with ⟨hsound, hall⟩
    have hfits : Fits thread chunk := by
      intro r hr
      rcases hsound with ⟨r', hr', hsound⟩
      obtain rfl : r = r' := Option.some.inj (hr.symm.trans hr')
      have hwritten := hsound.writePos_le
      rw [hsound.bufferSize]
      omega
    refine ⟨hsound.step hfs hstep hchunk hfits, ?_⟩
    intro e he
    rcases List.mem_append.mp he with he | he
    · exact hall e he
    · obtain rfl := List.mem_singleton.mp he
      exact hfits

/-- Every way of cutting the front of a stream into chunks is a run. -/
theorem exists_run_of_chunks (fs chunks : List Bytes)
    (hsizes : ∀ c ∈ chunks, 1 ≤ c.length ∧ c.length ≤ readBufferLength)
    (hstream : chunks.flatten <+: fs.flatten) :
    ∃ past thread, Run ReadThread.step form1Load past thread ∧ past.map Entry.act = chunks ∧
      AtEach (NextChunk fs) past := by
  induction chunks using List.reverseRecOn with
  | nil => exact ⟨[], form1Load, .nil, rfl, atEach_nil _⟩
  | append_singleton chunks chunk ih =>
    have hfront : chunks.flatten <+: fs.flatten := by
      rw [List.flatten_append] at hstream
      exact (List.prefix_append _ _).trans hstream
    rcases ih (fun c hc => hsizes c (by simp [hc])) hfront with ⟨past, thread, run, hacts, hchunks⟩
    have hsize := hsizes chunk (by simp)
    refine ⟨_, _, run.snoc (a := chunk) rfl, by simp [hacts],
      atEach_snoc.mpr ⟨hchunks, hsize.1, hsize.2, ?_⟩⟩
    rw [receivedBytes_snoc, receivedBytes, hacts]
    simpa using hstream

/-- A run goes wrong with the first chunk that finds no room. -/
theorem run_loses_chunk (hfs : ∀ f ∈ fs, StreamFrame f) {past : List (Entry ReadThread Bytes)}
    (run : Run ReadThread.step form1Load past (some r)) (hchunks : AtEach (NextChunk fs) past)
    (hsound : Sound fs (receivedBytes past) r)
    (hsizes : 1 ≤ chunk.length ∧ chunk.length ≤ readBufferLength)
    (hstream : receivedBytes past ++ chunk <+: fs.flatten)
    (hfull : r.packetBuffer.bufferSize < r.packetBuffer.writePos + chunk.length) :
    ∃ past thread, Run ReadThread.step form1Load past thread ∧ AtEach (NextChunk fs) past ∧
      ¬AtEach (fun past e => Reassembled fs (receivedBytes (past ++ [e])) e.post) past := by
  have hnext : NextChunk fs past ⟨some r, chunk, r.receive chunk⟩ :=
    ⟨hsizes.1, hsizes.2, by rwa [receivedBytes_snoc]⟩
  refine ⟨_, _, run.snoc (a := chunk) rfl, atEach_snoc.mpr ⟨hchunks, hnext⟩, ?_⟩
  intro h
  have hlast := (atEach_snoc.mp h).2
  rw [receivedBytes_snoc] at hlast
  exact hsound.not_reassembled hfs ((List.prefix_append _ _).trans hstream) hsizes.1 hfull hlast

/-- A frame of 7 bytes in two chunks is reassembled. -/
theorem short_stream_reassembled :
    ∃ past thread, Run ReadThread.step form1Load past thread ∧
      past.map Entry.act = [[7, 0, 105], [0, 0, 1, 0]] ∧
      AtEach (fun past e => Reassembled [[7, 0, 105, 0, 0, 1, 0]] (receivedBytes (past ++ [e]))
        e.post) past := by
  have hfs : ∀ f ∈ [[7, 0, 105, 0, 0, 1, 0]], StreamFrame f := by
    intro f hf
    obtain rfl := List.mem_singleton.mp hf
    exact ⟨⟨by decide, by decide⟩, by decide⟩
  rcases exists_run_of_chunks [[7, 0, 105, 0, 0, 1, 0]] [[7, 0, 105], [0, 0, 1, 0]]
    (by decide) (by decide) with
    ⟨past, thread, run, hacts, hchunks⟩
  have hfits := (fits_of_short hfs run hchunks (by rw [receivedBytes, hacts]; decide)).2
  exact ⟨past, thread, run, hacts, (stream_reassembled_iff hfs run hchunks).mpr hfits⟩

/-- A frame of 1024 bytes -/
def longestFrame : Bytes := 0 :: 4 :: 105 :: 0 :: 0 :: List.replicate 1019 0

@[simp] theorem length_longestFrame : longestFrame.length = 1024 := by
  simp only [longestFrame, List.length_cons, List.length_replicate]

theorem longestFrame_streamFrame : StreamFrame longestFrame := by
  refine ⟨⟨?_, ?_⟩, length_longestFrame.le⟩
  · rw [length_longestFrame]
    decide
  · rw [length_longestFrame, declared_eq]
    rfl

theorem pairs_flatten (f : Bytes) (k : ℕ) :
    (List.replicate k (f ++ f)).flatten = (List.replicate (2 * k) f).flatten := by
  induction k with
  | zero => rfl
  | succ k ih =>
    rw [Nat.mul_succ, List.replicate_succ, List.replicate_succ, List.replicate_succ,
      List.flatten_cons, List.flatten_cons, List.flatten_cons, ih, List.append_assoc]

/-- Of 80 frames of 1024 bytes that arrive two at a time, the last two are lost: the 1088
cells behind `WritePos` are too few for 2048 bytes, and too many for a relocation. -/
theorem long_frames_lost :
    ∃ past thread, (∀ f ∈ List.replicate 80 longestFrame, StreamFrame f) ∧
      Run ReadThread.step form1Load past thread ∧
      AtEach (NextChunk (List.replicate 80 longestFrame)) past ∧
      ¬AtEach (fun past e => Reassembled (List.replicate 80 longestFrame)
        (receivedBytes (past ++ [e])) e.post) past := by
  have hfs : ∀ f ∈ List.replicate 80 longestFrame, StreamFrame f := by
    intro f hf
    rw [List.eq_of_mem_replicate hf]
    exact longestFrame_streamFrame
  have hpair : (longestFrame ++ longestFrame).length = 2048 := by simp
  have hstream : (List.replicate 39 (longestFrame ++ longestFrame)).flatten ++
      (longestFrame ++ longestFrame) = (List.replicate 80 longestFrame).flatten := by
    rw [← pairs_flatten longestFrame 40,
      List.replicate_succ' (n := 39) (a := longestFrame ++ longestFrame), List.flatten_append,
      List.flatten_singleton]
  have hlength : (List.replicate 39 (longestFrame ++ longestFrame)).flatten.length = 79872 := by
    rw [pairs_flatten, List.length_flatten, List.map_replicate, length_longestFrame,
      List.sum_replicate_nat]
  rcases exists_run_of_chunks (List.replicate 80 longestFrame)
    (List.replicate 39 (longestFrame ++ longestFrame))
    (by intro c hc; rw [List.eq_of_mem_replicate hc, hpair]; decide)
    (by rw [← hstream]; exact List.prefix_append _ _) with ⟨past, thread, run, hacts, hchunks⟩
  have hreceived : receivedBytes past =
      (List.replicate 39 (longestFrame ++ longestFrame)).flatten := by rw [receivedBytes, hacts]
  have hall : (receivedBytes past).length = 79872 := by rw [hreceived, hlength]
  rcases (fits_of_short hfs run hchunks (by omega)).1 with ⟨r, rfl, hsound⟩
  have hpos := hsound.writePos_eq (by omega)
  have hfull : r.packetBuffer.bufferSize <
      r.packetBuffer.writePos + (longestFrame ++ longestFrame).length := by
    rw [hsound.bufferSize, hpair]
    omega
  have hsizes : 1 ≤ (longestFrame ++ longestFrame).length ∧
      (longestFrame ++ longestFrame).length ≤ readBufferLength := by
    rw [hpair]
    decide
  rcases run_loses_chunk hfs run hchunks hsound hsizes (by rw [hreceived, hstream]) hfull with
    ⟨past', thread', run', hchunks', hlost⟩
  exact ⟨past', thread', hfs, run', hchunks', hlost⟩

end ChatServer.Client
