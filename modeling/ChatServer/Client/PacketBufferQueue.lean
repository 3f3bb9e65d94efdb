import ChatServer.Client.PacketBufferManager
import ChatServer.Library.FrameQueue

/-! # The receive buffer of the client as a byte queue

For every size triple that `Init` accepts, with a header that holds the length, calls
of `Write` and `Read` append to a queue of bytes and take frames off its front, as long
as the frames declare a positive length that an `Int16` holds.
-/

namespace ChatServer.Client
open LinearMemory Recorded Framing

/-- A call of `Write`, of an array that may be null, or of `Read` -/
inductive BufferCall where
  | write (data : Option Bytes) (pos size : ℕ)
  | read

inductive BufferAnswer where
  | written (ok : Bool)
  | segment (s : ArraySegment)

namespace BufferCall

/-- The call's result and the buffer after it; an exception has neither. -/
def perform (b : PacketBufferManager) : BufferCall → Option (BufferAnswer × PacketBufferManager)
  | .write none _ _ => some (.written false, b)
  | .write (some data) pos size =>
    some (.written (b.write data pos size).1, (b.write data pos size).2)
  | .read => b.read.map fun r => (.segment r.1, r.2)

def step (b : PacketBufferManager) (call : BufferCall) : Option PacketBufferManager :=
  (call.perform b).map Prod.snd

/-- A `Read` that finds a header finds a length from 1 to 32767 in it. -/
def LengthOk (b : PacketBufferManager) : BufferCall → Prop
  | .write _ _ _ => True
  | .read => b.headerSize ≤ b.unread.length →
      1 ≤ (uint16At b.unread 0).toNat ∧ (uint16At b.unread 0).toNat ≤ 32767

instance (b : PacketBufferManager) : DecidablePred (LengthOk b)
  | .write _ _ _ => instDecidableTrue
  | .read => inferInstanceAs (Decidable (b.headerSize ≤ b.unread.length →
      1 ≤ (uint16At b.unread 0).toNat ∧ (uint16At b.unread 0).toNat ≤ 32767))

/-- What the queue of unread bytes allows a call to answer: a refused `Write` changes
nothing and an accepted one appends; `Read` returns nothing, and changes nothing, when a
header or the length that it declares is not there, and otherwise the first frame. -/
def Answers (b b' : PacketBufferManager) : BufferCall → BufferAnswer → Prop
  | .write _ _ _, .written false => b' = b
  | .write (some data) pos size, .written true =>
    pos + size ≤ data.length ∧ b'.unread = b.unread ++ (data.drop pos).take size
  | .read, .segment s =>
    if b.unread.length < b.headerSize ∨ b.unread.length < (uint16At b.unread 0).toNat then
      s.count = 0 ∧ b' = b
    else
      window b'.packetData s.offset s.count = b.unread.take (uint16At b.unread 0).toNat ∧
        b'.unread = b.unread.drop (uint16At b.unread 0).toNat
  | _, _ => False

end BufferCall

/-- The cursors are in order, and the sizes are those that `Init` was given. -/
structure PacketBufferManager.Keeps (b₀ b : PacketBufferManager) : Prop where
  valid : b.Valid
  bufferSize : b.bufferSize = b₀.bufferSize
  headerSize : b.headerSize = b₀.headerSize

variable {b₀ b b' : PacketBufferManager} {data : Bytes} {pos size : ℕ}

theorem PacketBufferManager.write_of_short (hdata : data.length < pos + size) :
    b.write data pos size = (false, b) := by
  rw [write, if_pos hdata]

/-- `Write` refuses, or appends what it was given. -/
theorem PacketBufferManager.write_cases (h : b.Valid) (data : Bytes) (pos size : ℕ) :
    b.write data pos size = (false, b) ∨
      pos + size ≤ data.length ∧ ∃ b', b.write data pos size = (true, b') ∧
        b.Appended b' ((data.drop pos).take size) := by
  by_cases hdata : pos + size ≤ data.length
  · by_cases hfit : b.writePos + size ≤ b.bufferSize
    · exact .inr ⟨hdata, write_appended h hdata hfit⟩
    · exact .inl (write_of_full hdata (Nat.lt_of_not_le hfit))
  · exact .inl (write_of_short (Nat.lt_of_not_le hdata))

/-- In every kept buffer each call answers as the queue allows and keeps the buffer. -/
theorem PacketBufferManager.Keeps.perform (h : b₀.Keeps b) (hheader : 2 ≤ b₀.headerSize)
    {call : BufferCall} (hlength : call.LengthOk b) :
    ∃ answer b', call.perform b = some (answer, b') ∧ call.Answers b b' answer ∧ b₀.Keeps b' := by
  cases call with
  | write data pos size =>
    cases data with
    | none => exact ⟨_, b, rfl, rfl, h⟩
    | some data =>
      rcases write_cases h.valid data pos size with hrefused | ⟨hdata, b', hwrite, happended⟩
      · refine ⟨.written false, b, ?_, rfl, h⟩
        rw [BufferCall.perform, hrefused]
      · refine ⟨.written true, b', ?_, ⟨hdata, happended.unread⟩, happended.valid,
          happended.bufferSize.trans h.bufferSize, happended.headerSize.trans h.headerSize⟩
        rw [BufferCall.perform, hwrite]
  | read =>
    have htwo : 2 ≤ b.headerSize := by rw [h.headerSize]; exact hheader
    by_cases hshort : b.unread.length < b.headerSize ∨
        b.unread.length < (uint16At b.unread 0).toNat
    · have hincomplete : b.unread.length < b.headerSize ∨
          b.unread.length < (uint16At b.unread 0).toNat ∧ (uint16At b.unread 0).toNat < 32768 := by
        by_cases hheader : b.unread.length < b.headerSize
        · exact .inl hheader
        · have := hlength (Nat.le_of_not_lt hheader)
          exact .inr ⟨hshort.resolve_left hheader, by omega⟩
      refine ⟨.segment { offset := 0, count := 0 }, b, ?_, ?_, h⟩
      · rw [BufferCall.perform, read_of_incomplete h.valid htwo hincomplete]
        rfl
      · rw [BufferCall.Answers, if_pos hshort]
        exact ⟨rfl, rfl⟩
    · have hlong : b.headerSize ≤ b.unread.length := by omega
      have hsize : (uint16At b.unread 0).toNat ≤ b.unread.length := by omega
      have hmax := hlength hlong
      refine ⟨.segment { offset := b.readPos, count := (uint16At b.unread 0).toNat }, _, ?_, ?_,
        advance_valid h.valid hsize, h.bufferSize, h.headerSize⟩
      · rw [BufferCall.perform, read_of_complete h.valid htwo hlong hsize (by omega)]
        rfl
      · rw [BufferCall.Answers, if_neg hshort]
        exact ⟨window_readPos hsize, advance_unread _⟩

theorem PacketBufferManager.init_eq {size headerSize maxPacketSize : Int32}
    (hinit : PacketBufferManager.init size headerSize maxPacketSize = some b₀) :
    b₀.Keeps b₀ ∧ (b₀.bufferSize : ℤ) = size.toInt ∧ (b₀.headerSize : ℤ) = headerSize.toInt ∧
      b₀.unread = [] := by
  unfold init at hinit
  split_ifs at hinit with h
  obtain rfl := Option.some.inj hinit
  simp only [not_or, Int32.lt_iff_toInt_lt] at h
  rcases h with ⟨-, hsize, hheader, -⟩
  have hone : (1 : Int32).toInt = 1 := rfl
  rw [hone] at hsize hheader
  refine ⟨⟨⟨le_rfl, Nat.zero_le _⟩, rfl, rfl⟩, ?_, ?_, ?_⟩
  · exact Int.toNat_of_nonneg (by omega)
  · exact Int.toNat_of_nonneg (by omega)
  · simp [unread]

/-- Every run keeps the buffer, as long as the lengths that it reads are in range. -/
theorem PacketBufferManager.Keeps.run (hstart : b₀.Keeps b₀) (hheader : 2 ≤ b₀.headerSize)
    {past : List (Entry PacketBufferManager BufferCall)} (run : Run BufferCall.step b₀ past b)
    (hlengths : ∀ e ∈ past, e.act.LengthOk e.pre) :
    b₀.Keeps b ∧ ∀ e ∈ past, b₀.Keeps e.pre ∧ e.act.step e.pre = some e.post := by
  have hkeep : ∀ (past : List (Entry PacketBufferManager BufferCall)) (b : PacketBufferManager)
      (call : BufferCall) (b' : PacketBufferManager), Run BufferCall.step b₀ past b →
      b₀.Keeps b → call.step b = some b' → call.LengthOk b → b₀.Keeps b' := by
    intro _ b call b' _ hkeeps hstep hlength
    rcases hkeeps.perform hheader hlength with ⟨answer, b'', hperform, -, hkeeps'⟩
    rw [BufferCall.step, hperform] at hstep
    obtain rfl : b'' = b' := Option.some.inj hstep
    exact hkeeps'
  have hmeets := atEach_const.mpr hlengths
  refine ⟨run.invariant (C := fun _ e => e.act.LengthOk e.pre) (P := fun _ b => b₀.Keeps b)
    hstart hkeep hmeets, ?_⟩
  rw [← atEach_const]
  exact run.atEach_of_invariant (C := fun _ e => e.act.LengthOk e.pre)
    (P := fun _ b => b₀.Keeps b) hstart hkeep
    (fun _ _ _ _ _ hkeeps hstep _ => ⟨hkeeps, hstep⟩) hmeets

/-- Every run of calls keeps the cursors in order and inside the array, and every next
call ends without an exception and answers as the queue of unread bytes allows. -/
theorem packet_buffer_refines_byte_queue {size headerSize maxPacketSize : Int32}
    (hinit : PacketBufferManager.init size headerSize maxPacketSize = some b₀)
    (hheader : 2 ≤ headerSize.toInt) {past : List (Entry PacketBufferManager BufferCall)}
    (run : Run BufferCall.step b₀ past b) (hlengths : ∀ e ∈ past, e.act.LengthOk e.pre) :
    b.readPos ≤ b.writePos ∧ (b.writePos : ℤ) ≤ size.toInt ∧
      ∀ call : BufferCall, call.LengthOk b → ∃ answer b',
        call.perform b = some (answer, b') ∧ call.Answers b b' answer := by
  rcases PacketBufferManager.init_eq hinit with ⟨hstart, hsize, hhsize, -⟩
  have htwo : 2 ≤ b₀.headerSize := by omega
  have hkeeps := (hstart.run htwo run hlengths).1
  refine ⟨hkeeps.valid.readPos_le, ?_, ?_⟩
  · have hend := hkeeps.valid.writePos_le
    rw [hkeeps.bufferSize] at hend
    omega
  · intro call hlength
    rcases hkeeps.perform htwo hlength with ⟨answer, b', hperform, hanswers, -⟩
    exact ⟨answer, b', hperform, hanswers⟩

/-- `Init(8, 5, 4)`; a frame of 6 bytes arrives in two writes, the second of which fills
the array to the last byte, moves what is unread and is read out. -/
theorem packet_buffer_refines_byte_queue_when_full : ∃ b₀ b past,
    PacketBufferManager.init 8 5 4 = some b₀ ∧ Run BufferCall.step b₀ past b ∧
      past.length = 4 ∧ b.unread = [9, 9] ∧ b.readPos ≤ b.writePos ∧
      (b.writePos : ℤ) ≤ (8 : Int32).toInt ∧
      ∀ call : BufferCall, call.LengthOk b → ∃ answer b',
        call.perform b = some (answer, b') ∧ call.Answers b b' answer := by
  obtain ⟨b₀, hinit⟩ := Option.isSome_iff_exists.mp
    (by decide : (PacketBufferManager.init 8 5 4).isSome = true)
  obtain ⟨past, b, run, h⟩ := exists_run BufferCall.step b₀
    [.write (some [6, 0, 1, 1]) 0 4, .read, .write (some [7, 0, 1, 9, 9]) 1 4, .read]
    (fun past b => (∀ e ∈ past, e.act.LengthOk e.pre) ∧ past.length = 4 ∧ b.unread = [9, 9])
    (by
      obtain rfl := Option.some.inj hinit
      decide +kernel)
  rcases of_decide_eq_true h with ⟨hlengths, hlength, hunread⟩
  exact ⟨b₀, b, past, hinit, run, hlength, hunread,
    packet_buffer_refines_byte_queue hinit (by decide) run hlengths⟩

/-! ## What goes in and what comes out -/

/-- Frames behind a header of some size whose first two bytes are the length -/
def readFormat (headerSize : ℕ) (hheader : 2 ≤ headerSize) : Format UInt8 where
  headerSize := headerSize
  headerSize_pos := by omega
  declared l := (uint16At l 0).toNat
  declared_take l := by rw [uint16At_take hheader]

/-- What the user of the queue sees of a call -/
def BufferCall.event (b : PacketBufferManager) (call : BufferCall) : QueueEvent UInt8 :=
  match call, call.perform b with
  | .write (some data) pos size, some (.written true, _) => .append ((data.drop pos).take size)
  | .read, some (.segment s, b') =>
    if s.count = 0 then .incomplete else .taken (window b'.packetData s.offset s.count)
  | _, _ => .refused

/-- A segment that the queue allows is the next frame, or there is none. -/
theorem BufferCall.queueStep_read {segment : ArraySegment} (hheader : 2 ≤ b.headerSize)
    (hlength : BufferCall.read.LengthOk b)
    (hperform : BufferCall.read.perform b = some (.segment segment, b'))
    (hanswers : BufferCall.read.Answers b b' (.segment segment)) :
    QueueStep (readFormat b.headerSize hheader) b.unread (BufferCall.read.event b) b'.unread := by
  simp only [Answers] at hanswers
  simp only [event, hperform]
  split_ifs at hanswers with hshort
  · rcases hanswers with ⟨hcount, rfl⟩
    rw [if_pos hcount]
    apply QueueStep.incomplete
    rw [Format.next, if_neg]
    rintro ⟨hheader, hsize⟩
    rcases hshort with hshort | hshort
    · exact absurd hheader (Nat.not_le_of_lt hshort)
    · exact absurd hsize (Nat.not_le_of_lt hshort)
  · rcases hanswers with ⟨hframe, hrest⟩
    have hlong : b.headerSize ≤ b.unread.length := by omega
    have hcount : segment.count = (uint16At b.unread 0).toNat := by
      have := congrArg List.length hframe
      rw [length_window, List.length_take] at this
      omega
    have := hlength hlong
    rw [if_neg (by omega), hframe, hrest]
    apply QueueStep.taken
    exact Format.next_eq_some.mpr
      ⟨hlong, by change (uint16At b.unread 0).toNat ≤ _; omega, rfl, rfl⟩

/-- An answer that the queue allows is a step of it. -/
theorem BufferCall.queueStep {call : BufferCall} {answer : BufferAnswer}
    (hheader : 2 ≤ b.headerSize) (hlength : call.LengthOk b)
    (hperform : call.perform b = some (answer, b')) (hanswers : call.Answers b b' answer) :
    QueueStep (readFormat b.headerSize hheader) b.unread (call.event b) b'.unread := by
  cases call with
  | write data pos size =>
    cases answer with
    | segment s => cases data <;> exact hanswers.elim
    | written ok =>
      cases ok with
      | false =>
        obtain rfl : b' = b := hanswers
        cases data <;> simp only [event, hperform] <;> exact .refused _
      | true =>
        cases data with
        | none => exact hanswers.elim
        | some data =>
          rw [hanswers.2]
          simp only [event, hperform]
          exact .append _ _
  | read =>
    cases answer with
    | written ok => cases ok <;> exact hanswers.elim
    | segment s => exact queueStep_read hheader hlength hperform hanswers

/-- Over every run, what `Write` accepted is what `Read` handed out, in order, followed
by what is unread. -/
theorem written_eq_read_append {size headerSize maxPacketSize : Int32}
    (hinit : PacketBufferManager.init size headerSize maxPacketSize = some b₀)
    (hheader : 2 ≤ headerSize.toInt) {past : List (Entry PacketBufferManager BufferCall)}
    (run : Run BufferCall.step b₀ past b) (hlengths : ∀ e ∈ past, e.act.LengthOk e.pre) :
    (session (past.map fun e => e.act.event e.pre)).received =
      (session (past.map fun e => e.act.event e.pre)).taken.flatten ++ b.unread := by
  rcases PacketBufferManager.init_eq hinit with ⟨hstart, -, hhsize, hempty⟩
  have htwo : 2 ≤ b₀.headerSize := by omega
  have hkept := (hstart.run htwo run hlengths).2
  have htrace : Trace (QueueStep (readFormat b₀.headerSize htwo)) b₀.unread
      (past.map fun e => e.act.event e.pre) b.unread := by
    apply run.trace
    intro e he
    rcases hkept e he with ⟨hkeeps, hstep⟩
    rcases hkeeps.perform htwo (hlengths e he) with ⟨answer, b', hperform, hanswers, -⟩
    rw [BufferCall.step, hperform] at hstep
    obtain rfl : b' = e.post := Option.some.inj hstep
    have hsize := hkeeps.headerSize
    generalize b₀.headerSize = n at htwo hsize ⊢
    subst hsize
    exact BufferCall.queueStep htwo (hlengths e he) hperform hanswers
  rw [hempty] at htrace
  exact received_eq_taken_append htrace

end ChatServer.Client
