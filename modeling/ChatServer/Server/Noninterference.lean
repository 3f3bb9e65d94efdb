import ChatServer.Server.Effect
import Mathlib.Data.List.TakeWhile

/-! # What a handler sees of the receive buffer

`GetPacket` reads a whole header, whatever length it declares, and a handler gets a
pointer into `mPacketDataBuffer` and a size. Most requests read fields at fixed offsets
without looking at the size, or strings up to a zero byte. The outcome of a frame is
independent of all other bytes exactly when it is long enough for its id and for the
fields, or has the zero byte that ends the last string.
-/

namespace ChatServer
open LinearMemory

/-! ## Fields that lie inside a frame -/

theorem byteAt_append_right (f r : Bytes) (k : ℕ) : byteAt (f ++ r) (f.length + k) = byteAt r k := by
  simp [byteAt, List.getElem?_append_right]

theorem int32At_append {f : Bytes} {k : ℕ} (h : k + 4 ≤ f.length) (r : Bytes) :
    int32At (f ++ r) k = int32At f k := by
  rw [int32At, int32At, byteAt_append (by omega), byteAt_append (by omega),
    byteAt_append (by omega), byteAt_append (by omega)]

theorem blockAt_append {f : Bytes} {k len : ℕ} (h : k + len ≤ f.length) (r : Bytes) :
    blockAt (f ++ r) k len = blockAt f k len := by
  apply List.map_congr_left
  intro j hj
  apply byteAt_append
  have := List.mem_range.mp hj
  omega

theorem byteAt_drop (p : Bytes) (k j : ℕ) : byteAt (p.drop k) j = byteAt p (k + j) := by
  simp [byteAt]

/-- Equal blocks have equal bytes. -/
theorem byteAt_eq_of_blockAt_eq {p q : Bytes} {k len j : ℕ} (h : blockAt p k len = blockAt q k len)
    (hj : j < len) : byteAt p (k + j) = byteAt q (k + j) :=
  List.map_inj_left.mp h j (List.mem_range.mpr hj)

theorem stringAt_append {f : Bytes} {k : ℕ} (h : (0 : UInt8) ∈ f.drop k) (r : Bytes) :
    stringAt (f ++ r) k = stringAt f k := by
  have hk : k ≤ f.length := by
    by_contra hlt
    rw [List.drop_eq_nil_of_le (by omega)] at h
    exact absurd h List.not_mem_nil
  rw [stringAt, stringAt, List.drop_append_of_le_length hk, List.takeWhile_append, if_neg]
  intro hall
  have hmem : (0 : UInt8) ∈ (f.drop k).takeWhile (· ≠ 0) := by
    rwa [(List.takeWhile_prefix _).eq_of_length hall]
  simpa using List.mem_takeWhile_imp hmem

/-- Without a zero byte the string runs on into what follows the frame. -/
theorem stringAt_append_of_not_mem {f : Bytes} {k : ℕ} (hk : k ≤ f.length)
    (h : (0 : UInt8) ∉ f.drop k) (r : Bytes) :
    stringAt (f ++ r) k = f.drop k ++ r.takeWhile (· ≠ 0) := by
  rw [stringAt, List.drop_append_of_le_length hk, List.takeWhile_append_of_pos]
  intro a ha
  simpa using ne_of_mem_of_not_mem ha h

/-! ## Replacing all receive buffers -/

/-- A buffer without its bytes: the cursors stay. -/
def ReceiveBuffer.eraseMemory (b : ReceiveBuffer) : ReceiveBuffer :=
  { b with mPacketDataBuffer := fun _ => 0 }

def User.withBuffer (u : User) (b : ReceiveBuffer) : User := { u with toReceiveBuffer := b }

namespace Server

variable {n m : ℕ} {δ : Type*}

/-- The same server with other receive buffers. -/
def withBuffers (s : Server n m δ) (b : Fin n → ReceiveBuffer) : Server n m δ :=
  { s with mUserObjPool := fun i => (s.mUserObjPool i).withBuffer (b i) }

variable {env : Env δ} {s : Server n m δ} (b : Fin n → ReceiveBuffer)

theorem updateUser_withBuffers {f : User → User} (i : Fin n)
    (hf : ∀ u b, f (u.withBuffer b) = (f u).withBuffer b) :
    (s.withBuffers b).updateUser i f = (s.updateUser i f).withBuffers b := by
  have hpool : Function.update (s.withBuffers b).mUserObjPool i
      (f ((s.withBuffers b).mUserObjPool i)) =
        fun j => (Function.update s.mUserObjPool i (f (s.mUserObjPool i)) j).withBuffer (b j) := by
    funext j
    by_cases hj : j = i
    · subst hj
      simp [withBuffers, hf]
    · simp [withBuffers, hj]
  simp only [updateUser, hpool]
  rfl

theorem changeState_withBuffer (state : UserState) (u : User) (b : ReceiveBuffer) :
    User.changeState state (u.withBuffer b) = (User.changeState state u).withBuffer b := by
  cases state <;> rfl

theorem setLogin_withBuffer (id : Bytes) (u : User) (b : ReceiveBuffer) :
    User.setLogin id (u.withBuffer b) = (User.setLogin id u).withBuffer b := rfl

theorem checkLoginable_withBuffers (db : AccountDB δ) (i : Fin n) (userID password : Bytes) :
    (s.withBuffers b).checkLoginable db i userID password =
      ((s.checkLoginable db i userID password).1,
        (s.checkLoginable db i userID password).2.withBuffers b) := by
  have hdict : (s.withBuffers b).mUserIDDictionary = s.mUserIDDictionary := rfl
  have hdb : (s.withBuffers b).mAccountDB = s.mAccountDB := rfl
  have hcnt : (s.withBuffers b).mCurrentUserCnt = s.mCurrentUserCnt := rfl
  have hmax : (s.withBuffers b).mMaxUserCnt = s.mMaxUserCnt := rfl
  unfold checkLoginable findUserIndexByID
  rw [hdict, hdb, hcnt, hmax]
  by_cases hfull : s.mCurrentUserCnt ≥ s.mMaxUserCnt
  · rw [if_pos hfull, if_pos hfull]
  rw [if_neg hfull, if_neg hfull]
  cases s.mUserIDDictionary userID with
  | some j => rfl
  | none =>
    cases db.selectAccount s.mAccountDB userID password with
    | mk selected db' =>
      cases selected with
      | false => rfl
      | true =>
        have hlogin := updateUser_withBuffers (s := { s with mAccountDB := db' }) b i
          (setLogin_withBuffer userID)
        simp only [addUser]
        exact congrArg (fun s : Server n m δ => (ResultCode.loginSuccess, { s with
          mUserIDDictionary := Function.update s.mUserIDDictionary userID
            (s.mUserIDDictionary userID <|> some i) })) hlogin

theorem processLogin_withBuffers (i : Fin n) (packetSize : UInt16) (p : Bytes) :
    (s.withBuffers b).processLogin env i packetSize p =
      ((s.processLogin env i packetSize p).1.withBuffers b,
        (s.processLogin env i packetSize p).2) := by
  simp only [processLogin]
  by_cases hsize : packetSize.toNat ≠ reqLoginPacketSize
  · rw [if_pos hsize, if_pos hsize]
  rw [if_neg hsize, if_neg hsize, checkLoginable_withBuffers]
  cases s.checkLoginable env.toAccountDB i (stringAt p userIdOffset) (stringAt p userPwOffset) with
  | mk result s' =>
    by_cases hresult : result = .loginSuccess
    · simp only [hresult, if_true]
      rw [updateUser_withBuffers b i (setLogin_withBuffer _)]
    · simp only [hresult, if_false]

theorem processEnterRoom_withBuffers (i : Fin n) (p : Bytes) :
    (s.withBuffers b).processEnterRoom env i p =
      ((s.processEnterRoom env i p).1.withBuffers b, (s.processEnterRoom env i p).2) := by
  have hrooms : s.mRoomManager.enterUser (s.withBuffers b).mUserObjPool
      (int32At p roomNumberOffset) i =
        s.mRoomManager.enterUser s.mUserObjPool (int32At p roomNumberOffset) i := rfl
  have hrm : (s.withBuffers b).mRoomManager = s.mRoomManager := rfl
  unfold processEnterRoom enterRoom
  rw [hrm, hrooms]
  cases s.mRoomManager.enterUser s.mUserObjPool (int32At p roomNumberOffset) i with
  | mk result r =>
    have h := updateUser_withBuffers (s := { s with mRoomManager := r.1 }) b i
      (f := fun u => User.changeState .inRoom { u with mRoomIndex := int32At p roomNumberOffset })
      fun u b => rfl
    exact congrArg (fun s => (s, r.2 ++ [sendAck env.unset i .ackRoomEnter result])) h

theorem processLeaveRoom_withBuffers (i : Fin n) :
    (s.withBuffers b).processLeaveRoom env i =
      ((s.processLeaveRoom env i).1.withBuffers b, (s.processLeaveRoom env i).2) := by
  have hrooms : s.mRoomManager.leaveUser (s.withBuffers b).mUserObjPool
      ((s.withBuffers b).mUserObjPool i).mRoomIndex i =
        s.mRoomManager.leaveUser s.mUserObjPool (s.mUserObjPool i).mRoomIndex i := rfl
  have hrm : (s.withBuffers b).mRoomManager = s.mRoomManager := rfl
  unfold processLeaveRoom leaveRoom
  rw [hrm, hrooms]
  cases s.mRoomManager.leaveUser s.mUserObjPool (s.mUserObjPool i).mRoomIndex i with
  | mk result r =>
    have h := updateUser_withBuffers (s := { s with mRoomManager := r.1 }) b i
      (changeState_withBuffer .inLobby)
    exact congrArg (fun s => (s, r.2 ++ [sendAck env.unset i .ackRoomLeave result])) h

theorem runRecvFunction_withBuffers (i : Fin n) (packetSize : UInt16) (p : Bytes)
    (f : RecvFunction) : (s.withBuffers b).runRecvFunction env i packetSize p f =
      (s.runRecvFunction env i packetSize p f).map fun r => (r.1.withBuffers b, r.2) := by
  have hroom : (s.withBuffers b).getRoom i = s.getRoom i := rfl
  cases f with
  | noop => rfl
  | processCreateAccount =>
    simp only [runRecvFunction, processCreateAccount]
    by_cases hsize : packetSize.toNat ≠ reqCreateAccountPacketSize
    · rw [if_pos hsize, if_pos hsize]
      rfl
    · rw [if_neg hsize, if_neg hsize]
      rfl
  | processLogin =>
    rw [runRecvFunction, runRecvFunction, processLogin_withBuffers]
    rfl
  | processLobbyInfo => rfl
  | processEnterRoom =>
    rw [runRecvFunction, runRecvFunction, processEnterRoom_withBuffers]
    rfl
  | processRoomInfo =>
    rw [runRecvFunction, runRecvFunction, processRoomInfo, processRoomInfo, hroom]
    cases s.getRoom i <;> rfl
  | processLeaveRoom =>
    rw [runRecvFunction, runRecvFunction, processLeaveRoom_withBuffers]
    rfl
  | processRoomChatMessage =>
    rw [runRecvFunction, runRecvFunction, processRoomChatMessage, processRoomChatMessage, hroom]
    cases s.getRoom i <;> rfl

/-- No handler reads or writes a receive buffer, apart from the bytes it is given. -/
theorem processEvent_withBuffers (i : Fin n) (packetId packetSize : UInt16) (p : Bytes) :
    (s.withBuffers b).processEvent env (.frame i packetId packetSize p) =
      (s.processEvent env (.frame i packetId packetSize p)).map
        fun r => (r.1.withBuffers b, r.2) := by
  rw [processEvent_frame, processEvent_frame, ← runRecvFunction_withBuffers]
  rfl

/-! ## Runs that differ in the rest of the memory -/

def eraseMemory (s : Server n m δ) : Server n m δ :=
  s.withBuffers fun i => (s.mUserObjPool i).toReceiveBuffer.eraseMemory

/-- Both runs end without a result, or both send the same packets and end in states that
differ in the bytes of receive buffers only. -/
def SameOutcome (r r' : Option (Server n m δ × List (Sent n))) : Prop :=
  (r.map fun x => (x.1.eraseMemory, x.2)) = r'.map fun x => (x.1.eraseMemory, x.2)

/-- `DequePacketData` for slot `i`, and the dispatch of what it returns; the `PacketInfo()`
of an incomplete frame is not dispatched. -/
def dispatchNext (env : Env δ) (s : Server n m δ) (i : Fin n) (behind : Bytes) :
    Option (Server n m δ × List (Sent n)) :=
  match (s.mUserObjPool i).getPacket with
  | (none, _) => some (s, [])
  | (some v, b) => (s.updateUser i (User.withBuffer · b)).processEvent env
      (.frame i v.packetId v.dataSize (b.memoryFrom v.pDataPtr behind))

end Server

/-- The `PacketLength` bytes of a frame. As far as the field `PacketLength` is among them,
it says how many they are. -/
structure ClientFrame where
  bytes : Bytes
  declares : bytes.take 2 <+: le16 (UInt16.ofNat bytes.length)

namespace Server

/-- Whatever state is reached, and whatever the buffers hold next to the frame `f` that
comes next in the buffer of its slot, its outcome is the same. -/
def NonInterfering (f : ClientFrame) : Prop :=
  ∀ (n : ℕ) (δ : Type) (env : Env δ) (beginRoomNumber maxRoomCount maxRoomUserCount : Int32)
    (mem : Fin n → ℕ → UInt8) (db : δ) (past : History n maxRoomCount.toNatClampNeg δ)
    (s : Server n maxRoomCount.toNatClampNeg δ) (i : Fin n) (behind : Bytes)
    (b b' : Fin n → ReceiveBuffer),
    Recorded.Run (step env)
      (init n beginRoomNumber maxRoomCount maxRoomUserCount mem db) past s →
    (∀ j, (b j).eraseMemory = (b' j).eraseMemory) →
    (b i).mPacketDataBufferRPos.toNat + f.bytes.length ≤ packetDataBufferSize.toNat →
    (b i).getPacket.1.map (fun v => v.dataSize.toNat) = some f.bytes.length →
    window (b i).mPacketDataBuffer (b i).mPacketDataBufferRPos.toNat f.bytes.length = f.bytes →
    window (b' i).mPacketDataBuffer (b i).mPacketDataBufferRPos.toNat f.bytes.length = f.bytes →
    SameOutcome ((s.withBuffers b).dispatchNext env i behind)
      ((s.withBuffers b').dispatchNext env i behind)

/-- The requests whose handlers do not look at the size of the frame -/
def uncheckedRequests : List PacketId :=
  [.reqLobbyInfo, .reqRoomEnter, .reqRoomInfo, .reqRoomLeave, .reqRoomChat]

/-- The frame reaches as far as it is read: its id is inside, or no more than the high byte
of an id that has no effect is missing; the fields at fixed offsets are inside; and a
string that the size test lets through has its zero byte inside. -/
structure ReadsOnlyFrame (f : Bytes) : Prop where
  packetId : 4 ≤ f.length ∨
    f.length = 3 ∧ ∀ request ∈ uncheckedRequests, byteAt f 2 ≠ UInt8.ofNat request.code.toNat
  roomEnter : uint16At f 2 = PacketId.reqRoomEnter.code → roomNumberOffset + 4 ≤ f.length
  roomChat : uint16At f 2 = PacketId.reqRoomChat.code →
    messageOffset + (maxChatMsgSize + 1) ≤ f.length
  createAccount : uint16At f 2 = PacketId.reqCreateAccount.code →
    f.length = reqCreateAccountPacketSize → 0 ∈ f.drop userPwOffset
  login : uint16At f 2 = PacketId.reqLogin.code →
    f.length = reqLoginPacketSize → 0 ∈ f.drop userPwOffset

/-! ## The packet that is dispatched -/

/-- The header that `GetPacket` looks at -/
def header (b : ReceiveBuffer) : Bytes :=
  window b.mPacketDataBuffer b.mPacketDataBufferRPos.toNat packetHeaderLength

theorem cursors_of_eraseMemory {b b' : ReceiveBuffer} (h : b.eraseMemory = b'.eraseMemory) :
    b.mPacketDataBufferWPos = b'.mPacketDataBufferWPos ∧
      b.mPacketDataBufferRPos = b'.mPacketDataBufferRPos := by
  simp only [ReceiveBuffer.eraseMemory, ReceiveBuffer.mk.injEq, true_and] at h
  exact h

/-- Buffers with the same cursors hand out packets of the same size at the same place, if
both headers declare it. -/
theorem getPacket_congr {b b' : ReceiveBuffer} (herase : b.eraseMemory = b'.eraseMemory)
    (hdeclared : uint16At (header b) 0 = uint16At (header b') 0) {v : PacketView}
    (h : b.getPacket.1 = some v) :
    v.pDataPtr = b.mPacketDataBufferRPos.toNat ∧ v.dataSize = uint16At (header b) 0 ∧
      b.getPacket = (some { v with packetId := uint16At (header b) 2 },
        { b with mPacketDataBufferRPos := b.mPacketDataBufferRPos + v.dataSize.toUInt32 }) ∧
      b'.getPacket = (some { v with packetId := uint16At (header b') 2 },
        { b' with mPacketDataBufferRPos := b.mPacketDataBufferRPos + v.dataSize.toUInt32 }) := by
  rcases cursors_of_eraseMemory herase with ⟨hW, hR⟩
  have hremain : b'.remainDataSize = b.remainDataSize := by
    rw [ReceiveBuffer.remainDataSize, ReceiveBuffer.remainDataSize, hW, hR]
  have hread (b : ReceiveBuffer) : PacketHeader.read (window b.mPacketDataBuffer
      b.mPacketDataBufferRPos.toNat packetHeaderLength) =
        ⟨uint16At (header b) 0, uint16At (header b) 2, byteAt (header b) 4⟩ := rfl
  unfold ReceiveBuffer.getPacket at h ⊢
  simp only [hread, hremain] at h ⊢
  rw [← hdeclared, ← hR]
  split_ifs at h ⊢ with hshort hlong
  obtain rfl := Option.some.inj h
  exact ⟨rfl, rfl, rfl, rfl⟩

/-- What the two runs have in common apart from the packet is taken out. -/
theorem sameOutcome_iff {s : Server n m δ} {i : Fin n} {packetId packetId' packetSize : UInt16}
    {p p' : Bytes} {b b' : Fin n → ReceiveBuffer}
    (hb : ∀ j, (b j).eraseMemory = (b' j).eraseMemory) :
    SameOutcome ((s.withBuffers b).processEvent env (.frame i packetId packetSize p))
      ((s.withBuffers b').processEvent env (.frame i packetId' packetSize p')) ↔
    ((s.processEvent env (.frame i packetId packetSize p)).map
        fun r => (r.1.withBuffers fun j => (b j).eraseMemory, r.2)) =
      (s.processEvent env (.frame i packetId' packetSize p')).map
        fun r => (r.1.withBuffers fun j => (b j).eraseMemory, r.2) := by
  have herase (packetId : UInt16) (b : Fin n → ReceiveBuffer) (p : Bytes) :
      (((s.withBuffers b).processEvent env (.frame i packetId packetSize p)).map
        fun x => (x.1.eraseMemory, x.2)) =
      (s.processEvent env (.frame i packetId packetSize p)).map
        fun r => (r.1.withBuffers fun j => (b j).eraseMemory, r.2) := by
    rw [processEvent_withBuffers, Option.map_map]
    rfl
  rw [SameOutcome, herase, herase, ← funext hb]

/-- The buffer of slot `i` is replaced again. -/
theorem updateUser_withBuffer (s : Server n m δ) (i : Fin n) (b₁ : ReceiveBuffer) :
    (s.withBuffers b).updateUser i (User.withBuffer · b₁) =
      s.withBuffers (Function.update b i b₁) := by
  have hpool : Function.update (s.withBuffers b).mUserObjPool i
      (((s.withBuffers b).mUserObjPool i).withBuffer b₁) =
        fun j => (s.mUserObjPool j).withBuffer (Function.update b i b₁ j) := by
    funext j
    by_cases hj : j = i
    · subst hj
      simp only [Function.update_self]
      rfl
    · simp only [Function.update_of_ne hj]
      rfl
  simp only [updateUser, hpool]
  rfl

/-- Two runs that find packets of one size at the same place process them from buffers
with the same cursors. -/
theorem sameOutcome_dispatchNext (env : Env δ) (s : Server n m δ) (behind : Bytes) {i : Fin n}
    (b b' : Fin n → ReceiveBuffer) (hb : ∀ j, (b j).eraseMemory = (b' j).eraseMemory)
    (hdeclared : uint16At (header (b i)) 0 = uint16At (header (b' i)) 0) {v : PacketView}
    (h : (b i).getPacket.1 = some v) :
    ∃ b₁, (SameOutcome ((s.withBuffers b).dispatchNext env i behind)
        ((s.withBuffers b').dispatchNext env i behind) ↔
      ((s.processEvent env (.frame i (uint16At (header (b i)) 2) v.dataSize
          ((b i).memoryFrom v.pDataPtr behind))).map fun r => (r.1.withBuffers b₁, r.2)) =
        (s.processEvent env (.frame i (uint16At (header (b' i)) 2) v.dataSize
          ((b' i).memoryFrom v.pDataPtr behind))).map fun r => (r.1.withBuffers b₁, r.2)) := by
  rcases getPacket_congr (hb i) hdeclared h with ⟨-, -, hget, hget'⟩
  have hget : ((s.withBuffers b).mUserObjPool i).getPacket = _ := hget
  have hget' : ((s.withBuffers b').mUserObjPool i).getPacket = _ := hget'
  refine ⟨fun j => (Function.update b i { b i with mPacketDataBufferRPos :=
    (b i).mPacketDataBufferRPos + v.dataSize.toUInt32 } j).eraseMemory, ?_⟩
  rw [dispatchNext, dispatchNext, hget, hget']
  simp only [updateUser_withBuffer]
  refine sameOutcome_iff fun j => ?_
  by_cases hj : j = i
  · subst hj
    rw [Function.update_self, Function.update_self]
    exact congrArg (ReceiveBuffer.mk _ · _) (cursors_of_eraseMemory (hb j)).1
  · rw [Function.update_of_ne hj, Function.update_of_ne hj]
    exact hb j

/-- A handler whose reads stay within the frame does not see what follows it. -/
theorem runRecvFunction_append {s : Server n m δ} {i : Fin n} {f : Bytes} (r : Bytes)
    {g : RecvFunction} (hf : f.length ≤ 8096)
    (henter : g = .processEnterRoom → roomNumberOffset + 4 ≤ f.length)
    (hchat : g = .processRoomChatMessage → messageOffset + (maxChatMsgSize + 1) ≤ f.length)
    (hcreate : g = .processCreateAccount →
      f.length = reqCreateAccountPacketSize → 0 ∈ f.drop userPwOffset)
    (hlogin : g = .processLogin → f.length = reqLoginPacketSize → 0 ∈ f.drop userPwOffset) :
    s.runRecvFunction env i (UInt16.ofNat f.length) (f ++ r) g =
      s.runRecvFunction env i (UInt16.ofNat f.length) f g := by
  have hsize : (UInt16.ofNat f.length).toNat = f.length :=
    UInt16.toNat_ofNat_of_lt' (show f.length < 65536 by omega)
  -- the id ends at its own zero byte or at the one of the password
  have hid (h : (0 : UInt8) ∈ f.drop userPwOffset) : (0 : UInt8) ∈ f.drop userIdOffset := by
    rw [show userPwOffset = userIdOffset + (maxUserIdLen + 1) from rfl, ← List.drop_drop] at h
    exact List.mem_of_mem_drop h
  cases g with
  | noop | processLobbyInfo | processRoomInfo | processLeaveRoom => rfl
  | processCreateAccount =>
    simp only [runRecvFunction, processCreateAccount, hsize]
    by_cases hlen : f.length = reqCreateAccountPacketSize
    · have hzero := hcreate rfl hlen
      rw [stringAt_append (hid hzero), stringAt_append hzero]
    · rw [if_pos hlen, if_pos hlen]
  | processLogin =>
    simp only [runRecvFunction, processLogin, hsize]
    by_cases hlen : f.length = reqLoginPacketSize
    · have hzero := hlogin rfl hlen
      rw [stringAt_append (hid hzero), stringAt_append hzero]
    · rw [if_pos hlen, if_pos hlen]
  | processEnterRoom =>
    rw [runRecvFunction, runRecvFunction, processEnterRoom, processEnterRoom,
      int32At_append (henter rfl)]
  | processRoomChatMessage =>
    have hlen := hchat rfl
    have hmsg : blockAt ((f ++ r).drop messageOffset) 0 (maxChatMsgSize + 1) =
        blockAt (f.drop messageOffset) 0 (maxChatMsgSize + 1) := by
      rw [List.drop_append_of_le_length (by omega)]
      exact blockAt_append (by rw [List.length_drop]; omega) r
    simp only [runRecvFunction, processRoomChatMessage, Room.notifyChat, notifyRoomChatPacket, hmsg]

theorem byteAt_window (mem : ℕ → UInt8) (start : ℕ) {len k : ℕ} (hk : k < len) :
    byteAt (window mem start len) k = mem (start + k) := by
  rw [byteAt, List.getD_eq_getElem?_getD, getElem?_window, if_pos hk, Option.getD_some]

/-- What lies in a frame is found in the header. -/
theorem byteAt_header {b : ReceiveBuffer} {f : Bytes} {k : ℕ} (hk : k < packetHeaderLength)
    (hf : k < f.length)
    (hframe : window b.mPacketDataBuffer b.mPacketDataBufferRPos.toNat f.length = f) :
    byteAt (header b) k = byteAt f k := by
  have hbyte := byteAt_window b.mPacketDataBuffer b.mPacketDataBufferRPos.toNat hf
  rw [hframe] at hbyte
  rw [header, byteAt_window _ _ hk, hbyte]

/-- The low byte of a field -/
theorem byteAt_eq_of_uint16At {p : Bytes} {k : ℕ} :
    byteAt p k = UInt8.ofNat (uint16At p k).toNat := by
  have h₀ := (byteAt p k).toNat_lt
  have h₁ := (byteAt p (k + 1)).toNat_lt
  rw [uint16At, UInt16.toNat_ofNat', Nat.mod_eq_of_lt (by omega), ← UInt8.toNat_inj,
    UInt8.toNat_ofNat']
  omega

/-- A frame of three bytes has no effect unless it has the id of a request whose handler
does not look at the size. -/
theorem runRecvFunction_short {s : Server n m δ} {i : Fin n} {packetId packetSize : UInt16}
    {p : Bytes} (h : s.TablesOk) (hsize : packetSize.toNat = 3)
    (hid : ∀ request ∈ uncheckedRequests, packetId ≠ request.code) :
    s.runRecvFunction env i packetSize p (s.handler i packetId) = some (s, []) := by
  cases hf : s.handler i packetId with
  | noop => rfl
  | processCreateAccount =>
    simp [runRecvFunction, processCreateAccount, hsize, reqCreateAccountPacketSize, userPwOffset,
      userIdOffset, packetHeaderLength, maxUserIdLen, maxUserPwLen]
  | processLogin =>
    simp [runRecvFunction, processLogin, hsize, reqLoginPacketSize, userPwOffset, userIdOffset,
      packetHeaderLength, maxUserIdLen, maxUserPwLen]
  | processLobbyInfo | processEnterRoom | processRoomInfo | processLeaveRoom
  | processRoomChatMessage =>
    exact absurd (h.packetId_of_handler hf rfl) (hid _ (by simp [uncheckedRequests]))

/-- A frame that is read no further than it reaches has the same outcome in both runs. -/
theorem nonInterfering_of_readsOnlyFrame {f : ClientFrame} (h : ReadsOnlyFrame f.bytes) :
    NonInterfering f := by
  intro n δ env beginRoomNumber maxRoomCount maxRoomUserCount mem db past s i behind b b' run hb
    hinside hsize hframe hframe'
  rw [ReceiveBuffer.packetDataBufferSize_toNat] at hinside
  have htables : s.TablesOk := run.state_invariant
    (init_tablesOk n beginRoomNumber maxRoomCount maxRoomUserCount mem db)
    fun _ _ _ h hstep => h.step hstep
  have hR := (cursors_of_eraseMemory (hb i)).2
  have hheader {k : ℕ} (hk : k < packetHeaderLength) (hf : k < f.bytes.length) :
      byteAt (header (b i)) k = byteAt f.bytes k ∧ byteAt (header (b' i)) k = byteAt f.bytes k :=
    ⟨byteAt_header hk hf hframe, byteAt_header hk hf (hR ▸ hframe')⟩
  have hthree : 3 ≤ f.bytes.length := by
    rcases h.packetId with hlong | ⟨hshort, -⟩ <;> omega
  have hdeclared : uint16At (header (b i)) 0 = uint16At (header (b' i)) 0 := by
    have h₀ := hheader (k := 0) (by decide) (by omega)
    have h₁ := hheader (k := 1) (by decide) (by omega)
    rw [uint16At, uint16At, h₀.1, h₀.2, h₁.1, h₁.2]
  rcases Option.map_eq_some_iff.mp hsize with ⟨v, hv, hlength⟩
  have hdata : v.dataSize = UInt16.ofNat f.bytes.length := by rw [← hlength, UInt16.ofNat_toNat]
  rcases sameOutcome_dispatchNext env s behind b b' hb hdeclared hv with ⟨b₁, hiff⟩
  rw [hiff, (getPacket_congr (hb i) hdeclared hv).1, hdata, processEvent_frame,
    processEvent_frame]
  congr 1
  rcases h.packetId with hlong | ⟨hshort, hunused⟩
  · have h₂ := hheader (k := 2) (by decide) (by omega)
    have h₃ := hheader (k := 3) (by decide) (by omega)
    have hid : uint16At (header (b i)) 2 = uint16At f.bytes 2 := by
      rw [uint16At, uint16At, h₂.1, h₃.1]
    have hid' : uint16At (header (b' i)) 2 = uint16At f.bytes 2 := by
      rw [uint16At, uint16At, h₂.2, h₃.2]
    have happend (r : Bytes) :
        s.runRecvFunction env i (UInt16.ofNat f.bytes.length) (f.bytes ++ r)
            (s.handler i (uint16At f.bytes 2)) =
          s.runRecvFunction env i (UInt16.ofNat f.bytes.length) f.bytes
            (s.handler i (uint16At f.bytes 2)) := by
      -- the request whose handler runs is the one with this id
      apply runRecvFunction_append r (by omega)
      · exact fun hg => h.roomEnter (htables.packetId_of_handler hg rfl)
      · exact fun hg => h.roomChat (htables.packetId_of_handler hg rfl)
      · exact fun hg => h.createAccount (htables.packetId_of_handler hg rfl)
      · exact fun hg => h.login (htables.packetId_of_handler hg rfl)
    rw [hid, hid', ReceiveBuffer.memoryFrom_eq hinside, ReceiveBuffer.memoryFrom_eq hinside,
      hframe, hframe', happend, happend]
  · have h₂ := hheader (k := 2) (by decide) (by omega)
    have hthree : (UInt16.ofNat f.bytes.length).toNat = 3 := by rw [hshort]; rfl
    have hother {q : Bytes} (hq : byteAt q 2 = byteAt f.bytes 2) :
        ∀ request ∈ uncheckedRequests, uint16At q 2 ≠ request.code := by
      intro request hmem hcode
      apply hunused request hmem
      rw [← hq, byteAt_eq_of_uint16At, hcode]
    rw [runRecvFunction_short htables hthree (hother h₂.1),
      runRecvFunction_short htables hthree (hother h₂.2)]

/-! ## Frames that are read further -/

/-- The bytes at the front of a buffer whose first packet is the frame: as far as they
reach, the frame and what follows it. -/
structure ContinuedBy (f : ClientFrame) (p : Bytes) : Prop where
  frame : f.bytes <+: p
  reaches : 4 ≤ p.length
  bounded : p.length ≤ 8096
  declared : uint16At p 0 = UInt16.ofNat f.bytes.length

/-- A buffer full of unread bytes: those given, and one value everywhere else -/
def residue (p : Bytes) (x : UInt8) : ReceiveBuffer where
  mPacketDataBuffer := store (fun _ => x) 0 p
  mPacketDataBufferWPos := packetDataBufferSize
  mPacketDataBufferRPos := 0

theorem memoryFrom_residue {p : Bytes} (hp : p.length ≤ 8096) (x : UInt8) :
    (residue p x).memoryFrom 0 [] = p ++ List.replicate (8096 - p.length) x := by
  rw [ReceiveBuffer.memoryFrom_eq (show 0 + p.length ≤ 8096 by omega)]
  congr 1
  · exact window_store_self _ 0 p
  rw [ReceiveBuffer.memoryFrom, List.append_nil, ReceiveBuffer.packetDataBufferSize_toNat,
    Nat.zero_add]
  apply List.ext_getElem?
  intro k
  rw [getElem?_window, List.getElem?_replicate]
  by_cases hk : k < 8096 - p.length
  · rw [if_pos hk, if_pos hk]
    have hmem : store (fun _ => x) 0 p (p.length + k) = x := store_outside (.inr (by omega))
    exact congrArg some hmem
  · rw [if_neg hk, if_neg hk]

variable {f : ClientFrame} {p p' : Bytes}

theorem ContinuedBy.length_le (h : ContinuedBy f p) : f.bytes.length ≤ p.length :=
  h.frame.length_le

theorem ContinuedBy.window_residue (h : ContinuedBy f p) (x : UInt8) :
    window (residue p x).mPacketDataBuffer 0 f.bytes.length = f.bytes := by
  have hall : window (residue p x).mPacketDataBuffer 0 p.length = p := window_store_self _ 0 p
  have htake := congrArg (List.take f.bytes.length) hall
  rw [take_window, min_eq_left h.length_le] at htake
  rw [htake]
  exact (List.prefix_iff_eq_take.mp h.frame).symm

theorem ContinuedBy.uint16At_header (h : ContinuedBy f p) (x : UInt8) {k : ℕ} (hk : k ≤ 2) :
    uint16At (header (residue p x)) k = uint16At p k := by
  have hall : window (residue p x).mPacketDataBuffer
      (residue p x).mPacketDataBufferRPos.toNat p.length = p := window_store_self _ 0 p
  have hreaches := h.reaches
  have hlen : packetHeaderLength = 5 := rfl
  rw [uint16At, uint16At, byteAt_header (by omega) (by omega) hall,
    byteAt_header (by omega) (by omega) hall]

/-- `GetPacket` hands out the frame. -/
theorem ContinuedBy.getPacket (h : ContinuedBy f p) (x : UInt8) :
    (residue p x).getPacket.1 =
      some ⟨uint16At p 2, UInt16.ofNat f.bytes.length, 0⟩ := by
  have hread : PacketHeader.read (window (residue p x).mPacketDataBuffer
      (residue p x).mPacketDataBufferRPos.toNat packetHeaderLength) =
        ⟨uint16At p 0, uint16At p 2, byteAt (header (residue p x)) 4⟩ := by
    rw [← h.uint16At_header x (Nat.zero_le 2), ← h.uint16At_header x (Nat.le_refl 2)]
    rfl
  have hremain : (residue p x).remainDataSize = 8096 := UInt32.sub_zero _
  have hfits : ¬(UInt16.ofNat f.bytes.length).toUInt32 > 8096 := by
    have hle := h.length_le
    have hbounded := h.bounded
    rw [gt_iff_lt, UInt32.lt_iff_toNat_lt, UInt16.toNat_toUInt32,
      UInt16.toNat_ofNat_of_lt' (show f.bytes.length < 65536 by omega)]
    exact Nat.not_lt.mpr (show f.bytes.length ≤ 8096 by omega)
  unfold ReceiveBuffer.getPacket
  simp only [hread, hremain, h.declared]
  rw [if_neg (by decide), if_neg hfits]
  rfl

/-- An independent frame is answered alike whatever continues it, and leaves its user with
the same room number. -/
theorem NonInterfering.residue (h : NonInterfering f) (hp : ContinuedBy f p)
    (hp' : ContinuedBy f p') (x x' : UInt8) {n : ℕ} {δ : Type} {env : Env δ}
    {beginRoomNumber maxRoomCount maxRoomUserCount : Int32} {mem : Fin n → ℕ → UInt8} {db : δ}
    {past : History n maxRoomCount.toNatClampNeg δ} {s : Server n maxRoomCount.toNatClampNeg δ}
    (run : Recorded.Run (step env)
      (init n beginRoomNumber maxRoomCount maxRoomUserCount mem db) past s) (i : Fin n) :
    (s.runRecvFunction env i (UInt16.ofNat f.bytes.length)
        (p ++ List.replicate (8096 - p.length) x) (s.handler i (uint16At p 2))).map
          (fun r => ((r.1.mUserObjPool i).mRoomIndex, r.2)) =
      (s.runRecvFunction env i (UInt16.ofNat f.bytes.length)
        (p' ++ List.replicate (8096 - p'.length) x') (s.handler i (uint16At p' 2))).map
          (fun r => ((r.1.mUserObjPool i).mRoomIndex, r.2)) := by
  have hlength : f.bytes.length ≤ 8096 := hp.length_le.trans hp.bounded
  have hsame := h n δ env beginRoomNumber maxRoomCount maxRoomUserCount mem db past s i []
    (fun _ => Server.residue p x) (fun _ => Server.residue p' x') run (fun _ => rfl)
    (show 0 + f.bytes.length ≤ 8096 by omega)
    (by
      rw [hp.getPacket, Option.map_some,
        UInt16.toNat_ofNat_of_lt' (show f.bytes.length < 65536 by omega)])
    (hp.window_residue x) (hp'.window_residue x')
  have hdeclared : uint16At (header (Server.residue p x)) 0 =
      uint16At (header (Server.residue p' x')) 0 := by
    rw [hp.uint16At_header x (Nat.zero_le 2), hp'.uint16At_header x' (Nat.zero_le 2), hp.declared,
      hp'.declared]
  rcases sameOutcome_dispatchNext env s [] (i := i) (fun _ => Server.residue p x)
    (fun _ => Server.residue p' x') (fun _ => rfl) hdeclared (hp.getPacket x) with ⟨b₁, hiff⟩
  rw [hiff, hp.uint16At_header x (Nat.le_refl 2), hp'.uint16At_header x' (Nat.le_refl 2),
    memoryFrom_residue hp.bounded, memoryFrom_residue hp'.bounded, processEvent_frame,
    processEvent_frame] at hsame
  have hproj := congrArg
    (Option.map fun r => ((r.1.mUserObjPool i).mRoomIndex, r.2)) hsame
  rw [Option.map_map, Option.map_map] at hproj
  exact hproj

theorem byteAt_replicate {k len : ℕ} (h : k < len) (x : UInt8) :
    byteAt (List.replicate len x) k = x := by simp [byteAt, h]

/-- Behind a short frame the two runs read different bytes. -/
theorem byteAt_residue_ne {f : Bytes} {k : ℕ} (hk : f.length ≤ k) (hlt : k < 8096) :
    byteAt (f ++ List.replicate (8096 - f.length) 0) k ≠
      byteAt (f ++ List.replicate (8096 - f.length) 1) k := by
  rw [show k = f.length + (k - f.length) by omega, byteAt_append_right, byteAt_append_right,
    byteAt_replicate (by omega), byteAt_replicate (by omega)]
  decide

/-- The highest byte of a field can be read off the field. -/
theorem byteAt_eq_of_int32At_eq {p q : Bytes} {k : ℕ} (h : int32At p k = int32At q k) :
    byteAt p (k + 3) = byteAt q (k + 3) := by
  have hval := congrArg (fun x : Int32 => x.toUInt32.toNat) h
  simp only [int32At, Int32.toUInt32_ofNat', UInt32.toNat_ofNat'] at hval
  have hp (j : ℕ) := (byteAt p j).toNat_lt
  have hq (j : ℕ) := (byteAt q j).toNat_lt
  have := hp k
  have := hp (k + 1)
  have := hp (k + 2)
  have := hp (k + 3)
  have := hq k
  have := hq (k + 1)
  have := hq (k + 2)
  have := hq (k + 3)
  exact UInt8.toNat_inj.mp (by omega)

/-- A frame with the field `PacketLength` declares its length. -/
theorem take_two_bytes (f : ClientFrame) (h : 2 ≤ f.bytes.length) :
    f.bytes.take 2 = le16 (UInt16.ofNat f.bytes.length) := by
  apply f.declares.eq_of_length
  rw [List.length_take, min_eq_left h]
  rfl

/-! ### Frames that end before their id -/

/-- A frame that ends before the high byte of its id is continued by any such byte. -/
theorem continuedBy_header {lo : UInt8} (hshort : f.bytes.length ≤ 3)
    (hlo : f.bytes.length = 3 → byteAt f.bytes 2 = lo) (hi : UInt8) :
    ContinuedBy f (le16 (UInt16.ofNat f.bytes.length) ++ [lo, hi]) where
  frame := by
    rcases Nat.lt_or_ge f.bytes.length 3 with hlt | hge
    · have hdeclares := f.declares
      rw [List.take_of_length_le (by omega)] at hdeclares
      exact hdeclares.trans (List.prefix_append _ _)
    · have hlen : f.bytes.length = 3 := by omega
      have hdrop : f.bytes.drop 2 = [lo] := by
        rw [List.drop_eq_getElem_cons (by omega), List.drop_of_length_le (by omega), ← hlo hlen]
        simp [byteAt, hlen]
      have hbytes := List.take_append_drop 2 f.bytes
      rw [take_two_bytes f (by omega), hdrop] at hbytes
      have hall := congrArg (· ++ [hi]) hbytes
      refine ⟨[hi], hall.symm.trans ?_⟩
      exact List.append_assoc _ [lo] [hi]
  reaches := by simp [le16]
  bounded := by simp [le16]
  declared := uint16At_le16_append _ _

/-- The functions that do nothing on a frame of the wrong size -/
def checkedFunctions : List RecvFunction := [.noop, .processCreateAccount, .processLogin]

/-- Every other handler answers. -/
theorem runRecvFunction_answers {s : Server n m δ} {i : Fin n} {packetSize : UInt16} {p : Bytes}
    {g : RecvFunction} (hg : g ∉ checkedFunctions) :
    (s.runRecvFunction env i packetSize p g).map Prod.snd ≠ some [] := by
  cases g with
  | noop | processCreateAccount | processLogin => simp [checkedFunctions] at hg
  | processLobbyInfo => simp [runRecvFunction, processLobbyInfo]
  | processEnterRoom => simp [runRecvFunction, processEnterRoom]
  | processRoomInfo =>
    rw [runRecvFunction, processRoomInfo]
    split <;> simp
  | processLeaveRoom => simp [runRecvFunction, processLeaveRoom]
  | processRoomChatMessage =>
    rw [runRecvFunction, processRoomChatMessage]
    split <;> simp

/-- A user for whom the handler of the request runs -/
theorem exists_answering {request : PacketId} (h : request ∈ uncheckedRequests) : ∃ past s,
    Recorded.Run (step acceptingEnv) (init 1 0 10 4 (fun _ _ => 0) ()) past s ∧
      s.handler 0 request.code ∉ checkedFunctions := by
  have hlobby : request ∈ [PacketId.reqLobbyInfo, .reqRoomEnter] ∨
      request ∈ [PacketId.reqRoomInfo, .reqRoomLeave, .reqRoomChat] := List.mem_append.mp h
  rcases hlobby with hlobby | hroom
  · rcases Recorded.exists_run (step acceptingEnv) (init 1 0 10 4 (fun _ _ => 0) ())
      [.connect 0, .request 0 .reqLogin (reqLoginBody [65] [66])]
      (fun _ s => ∀ request ∈ [PacketId.reqLobbyInfo, .reqRoomEnter],
        s.handler 0 request.code ∉ checkedFunctions) (by decide +kernel)
      with ⟨past, s, run, htest⟩
    exact ⟨past, s, run, of_decide_eq_true htest request hlobby⟩
  · rcases Recorded.exists_run (step acceptingEnv) (init 1 0 10 4 (fun _ _ => 0) ())
      [.connect 0, .request 0 .reqLogin (reqLoginBody [65] [66]), .request 0 .reqRoomEnter (le32 0)]
      (fun _ s => ∀ request ∈ [PacketId.reqRoomInfo, .reqRoomLeave, .reqRoomChat],
        s.handler 0 request.code ∉ checkedFunctions) (by decide +kernel)
      with ⟨past, s, run, htest⟩
    exact ⟨past, s, run, of_decide_eq_true htest request hroom⟩

/-- An id whose high byte is zero instead of that of the request has no handler. -/
theorem handler_lowByte (s : Server n m δ) (i : Fin n) {request : PacketId}
    (h : request ∈ uncheckedRequests) :
    s.handler i (uint16At (le16 0 ++ [UInt8.ofNat request.code.toNat, 0]) 2) = .noop := by
  have hnone : ∀ request ∈ uncheckedRequests, dispatched (n := 1)
      (.frame 0 (uint16At (le16 0 ++ [UInt8.ofNat request.code.toNat, 0]) 2) 0 []) = none := by
    decide
  have hother : dispatched (.frame i
      (uint16At (le16 0 ++ [UInt8.ofNat request.code.toNat, 0]) 2) 0 []) = none := hnone _ h
  rw [handler, hother]
  rfl

/-- The id is in the bytes behind the length. -/
theorem uint16At_two (x y : UInt16) (r : Bytes) : uint16At (le16 x ++ r) 2 = uint16At (le16 y ++ r) 2 :=
  rfl

theorem le16_code_unchecked {request : PacketId} (h : request ∈ uncheckedRequests) (x : UInt16) :
    uint16At (le16 x ++ [UInt8.ofNat request.code.toNat, 1]) 2 = request.code := by
  have hall : ∀ request ∈ uncheckedRequests,
      uint16At (le16 0 ++ [UInt8.ofNat request.code.toNat, 1]) 2 = request.code := by decide
  rw [uint16At_two x 0]
  exact hall request h

/-- The bytes of the id that a frame leaves out are read behind it. -/
theorem NonInterfering.packetId (h : NonInterfering f) : 4 ≤ f.bytes.length ∨
    f.bytes.length = 3 ∧
      ∀ request ∈ uncheckedRequests, byteAt f.bytes 2 ≠ UInt8.ofNat request.code.toNat := by
  by_contra hcontra
  rw [not_or, not_le, not_and] at hcontra
  rcases hcontra with ⟨hshort, hlow⟩
  obtain ⟨request, hmem, hlo⟩ : ∃ request ∈ uncheckedRequests,
      f.bytes.length = 3 → byteAt f.bytes 2 = UInt8.ofNat request.code.toNat := by
    by_cases hlen : f.bytes.length = 3
    · have hfound := hlow hlen
      push Not at hfound
      rcases hfound with ⟨request, hmem, hlo⟩
      exact ⟨request, hmem, fun _ => hlo⟩
    · exact ⟨.reqLobbyInfo, by decide, fun heq => absurd heq hlen⟩
  rcases exists_answering hmem with ⟨past, s, run, hanswers⟩
  have hshort : f.bytes.length ≤ 3 := Nat.le_of_lt_succ hshort
  have hsame := h.residue (continuedBy_header hshort hlo 1) (continuedBy_header hshort hlo 0) 0 0
    run 0
  rw [le16_code_unchecked hmem, uint16At_two _ 0, handler_lowByte s 0 hmem] at hsame
  have hsent := congrArg (Option.map Prod.snd) hsame
  rw [Option.map_map, Option.map_map] at hsent
  exact runRecvFunction_answers hanswers hsent

/-! ### Frames that end before their fields -/

theorem continuedBy_self (hlong : 4 ≤ f.bytes.length) (hbounded : f.bytes.length ≤ 8096) :
    ContinuedBy f f.bytes where
  frame := List.prefix_refl _
  reaches := hlong
  bounded := hbounded
  declared := by
    have hbytes := List.take_append_drop 2 f.bytes
    rw [take_two_bytes f (by omega)] at hbytes
    have hdeclared := uint16At_le16_append (UInt16.ofNat f.bytes.length) (f.bytes.drop 2)
    rwa [hbytes] at hdeclared

/-- An id with a high byte is four bytes into the frame. -/
theorem NonInterfering.reaches (h : NonInterfering f) (hid : 256 ≤ (uint16At f.bytes 2).toNat) :
    4 ≤ f.bytes.length := by
  rcases h.packetId with hlong | ⟨hshort, -⟩
  · exact hlong
  · have hhigh : byteAt f.bytes 3 = 0 := by simp [byteAt, hshort]
    have hlow := (byteAt f.bytes 2).toNat_lt
    rw [uint16At, hhigh, UInt16.toNat_ofNat', UInt8.toNat_zero] at hid
    omega

theorem NonInterfering.roomEnter (h : NonInterfering f)
    (hid : uint16At f.bytes 2 = PacketId.reqRoomEnter.code) :
    roomNumberOffset + 4 ≤ f.bytes.length := by
  by_contra hshort
  have hshort : f.bytes.length < 9 := not_le.mp hshort
  have hself := continuedBy_self (h.reaches (by rw [hid]; decide)) (by omega)
  rcases Recorded.exists_run (step acceptingEnv) (init 1 0 10 4 (fun _ _ => 0) ())
    [.connect 0, .request 0 .reqLogin (reqLoginBody [65] [66])]
    (fun _ s => s.handler 0 PacketId.reqRoomEnter.code = .processEnterRoom) (by decide +kernel)
    with ⟨past, s, run, hhandler⟩
  have hsame := h.residue hself hself 0 1 run 0
  rw [hid, of_decide_eq_true hhandler, runRecvFunction, runRecvFunction, Option.map_some,
    Option.map_some, Option.some.injEq, Prod.mk.injEq] at hsame
  have hindex (p : Bytes) : ((s.processEnterRoom acceptingEnv 0 p).1.mUserObjPool 0).mRoomIndex =
      int32At p roomNumberOffset := by simp [processEnterRoom, enterRoom]
  rw [hindex, hindex] at hsame
  exact byteAt_residue_ne (k := roomNumberOffset + 3)
    (show f.bytes.length ≤ 8 by omega) (by decide) (byteAt_eq_of_int32At_eq hsame.1)

theorem NonInterfering.roomChat (h : NonInterfering f)
    (hid : uint16At f.bytes 2 = PacketId.reqRoomChat.code) :
    messageOffset + (maxChatMsgSize + 1) ≤ f.bytes.length := by
  by_contra hshort
  have hshort : f.bytes.length < 262 := not_le.mp hshort
  have hself := continuedBy_self (h.reaches (by rw [hid]; decide)) (by omega)
  rcases Recorded.exists_run (step acceptingEnv) (init 1 0 10 4 (fun _ _ => 0) ())
    [.connect 0, .request 0 .reqLogin (reqLoginBody [65] [66]),
      .request 0 .reqRoomEnter (le32 0)]
    (fun _ s => s.handler 0 PacketId.reqRoomChat.code = .processRoomChatMessage ∧
      (s.getRoom 0).map (fun k => (s.room k).mUserList) = some [0]) (by decide +kernel)
    with ⟨past, s, run, htest⟩
  rcases of_decide_eq_true htest with ⟨hhandler, hroom⟩
  rcases Option.map_eq_some_iff.mp hroom with ⟨k, hk, hlist⟩
  have hsame := h.residue hself hself 0 1 run 0
  rw [hid, hhandler] at hsame
  simp only [runRecvFunction, processRoomChatMessage, hk, Room.notifyChat, Room.sendToAllUser_false,
    hlist, Option.map_some, Option.some.injEq, Prod.mk.injEq, List.cons.injEq, List.map_cons,
    true_and, sendPacketFunc, Sent.mk.injEq, notifyRoomChatPacket, Packet.mk.injEq,
    List.append_cancel_left_eq] at hsame
  have hlast := byteAt_eq_of_blockAt_eq hsame.1 (show maxChatMsgSize < maxChatMsgSize + 1 by decide)
  rw [byteAt_drop, byteAt_drop, ← Nat.add_assoc] at hlast
  exact byteAt_residue_ne (show f.bytes.length ≤ 261 by omega) (by decide) hlast

/-- A database that knows the accounts whose password has a single length. -/
def lengthDB (len : ℕ) : Env Unit where
  createAccount _ _ password := (password.length = len, ())
  selectAccount _ _ password := (password.length = len, ())
  unset := 0
  cStrTail _ := []

/-- A password without a zero byte takes in what follows the frame, up to a zero. -/
theorem length_stringAt_residue {f : Bytes} (h : (0 : UInt8) ∉ f.drop userPwOffset)
    (hf : f.length = reqLoginPacketSize) :
    (stringAt (f ++ List.replicate (8096 - f.length) 0) userPwOffset).length = maxUserPwLen + 1 ∧
      (stringAt (f ++ List.replicate (8096 - f.length) 1) userPwOffset).length ≠
        maxUserPwLen + 1 := by
  have hle : userPwOffset ≤ f.length := by rw [hf]; decide
  have hzeros : (List.replicate (8096 - f.length) (0 : UInt8)).takeWhile (· ≠ 0) = [] := by
    rw [List.takeWhile_replicate]
    rfl
  have hones : (List.replicate (8096 - f.length) (1 : UInt8)).takeWhile (· ≠ 0) =
      List.replicate (8096 - f.length) 1 := by
    rw [List.takeWhile_replicate]
    rfl
  have hlen : (f.drop userPwOffset).length = maxUserPwLen + 1 := by
    rw [List.length_drop, hf]
    rfl
  rw [stringAt_append_of_not_mem hle h, stringAt_append_of_not_mem hle h, hzeros, hones,
    List.append_nil, List.length_append, List.length_replicate, hlen, hf]
  exact ⟨rfl, by decide⟩

/-- A fresh server with one slot, after the connect of its first client. -/
def firstConnected : Server 1 (Int32.toNatClampNeg 10) Unit :=
  (init 1 0 10 4 (fun _ _ => 0) ()).processUserConnect 0

theorem firstConnected_reached (env : Env Unit) : ∃ past, Recorded.Run (step env)
    (init 1 0 10 4 (fun _ _ => 0) ()) past firstConnected :=
  ⟨[⟨_, .connect 0, _⟩], Recorded.Run.nil.snoc rfl⟩

theorem NonInterfering.createAccount (h : NonInterfering f)
    (hid : uint16At f.bytes 2 = PacketId.reqCreateAccount.code)
    (hf : f.bytes.length = reqCreateAccountPacketSize) : 0 ∈ f.bytes.drop userPwOffset := by
  by_contra hzero
  rcases length_stringAt_residue hzero hf with ⟨h₀, h₁⟩
  rcases firstConnected_reached (lengthDB (maxUserPwLen + 1)) with ⟨past, run⟩
  have hself := continuedBy_self (f := f) (by rw [hf]; decide) (by rw [hf]; decide)
  have hsame := h.residue hself hself 0 1 run 0
  have hhandler : firstConnected.handler 0 PacketId.reqCreateAccount.code =
      .processCreateAccount := rfl
  have hsize : (UInt16.ofNat f.bytes.length).toNat = reqCreateAccountPacketSize := by rw [hf]; rfl
  rw [hid, hhandler] at hsame
  simp only [runRecvFunction, processCreateAccount, hsize, ne_eq, not_true_eq_false, ↓reduceIte,
    Server.createAccount, lengthDB, h₀, decide_true, Option.map_some, h₁, decide_false,
    Bool.false_eq_true, Option.some.injEq, Prod.mk.injEq, List.cons.injEq, and_true, true_and]
    at hsame
  exact absurd hsame (by decide)

theorem NonInterfering.login (h : NonInterfering f)
    (hid : uint16At f.bytes 2 = PacketId.reqLogin.code)
    (hf : f.bytes.length = reqLoginPacketSize) : 0 ∈ f.bytes.drop userPwOffset := by
  by_contra hzero
  rcases length_stringAt_residue hzero hf with ⟨h₀, h₁⟩
  rcases firstConnected_reached (lengthDB (maxUserPwLen + 1)) with ⟨past, run⟩
  have hself := continuedBy_self (f := f) (by rw [hf]; decide) (by rw [hf]; decide)
  have hsame := h.residue hself hself 0 1 run 0
  have hhandler : firstConnected.handler 0 PacketId.reqLogin.code = .processLogin := rfl
  have hsize : (UInt16.ofNat f.bytes.length).toNat = reqLoginPacketSize := by rw [hf]; rfl
  have hfree : firstConnected.mUserIDDictionary = fun _ => none := rfl
  have hspace : ¬firstConnected.mCurrentUserCnt ≥ firstConnected.mMaxUserCnt := by decide
  rw [hid, hhandler] at hsame
  simp only [runRecvFunction, processLogin, hsize, ne_eq, not_true_eq_false, ↓reduceIte,
    checkLoginable, hspace, findUserIndexByID, hfree, lengthDB, h₀, decide_true, Option.map_some,
    updateUser_self, User.setLogin_mRoomIndex, h₁, decide_false, Bool.false_eq_true, reduceCtorEq,
    Option.some.injEq, Prod.mk.injEq, List.cons.injEq, and_true] at hsame
  exact absurd hsame.2 (by decide)

/-- A frame is independent of all other bytes exactly when it reaches as far as `GetPacket`
and its handler read. -/
theorem nonInterfering_iff_readsOnlyFrame (f : ClientFrame) :
    NonInterfering f ↔ ReadsOnlyFrame f.bytes := by
  constructor
  · intro h
    exact {
      packetId := h.packetId
      roomEnter := h.roomEnter
      roomChat := h.roomChat
      createAccount := h.createAccount
      login := h.login }
  · exact nonInterfering_of_readsOnlyFrame

/-- A chat frame of six bytes: the room gets 256 bytes that no one has sent to it. -/
theorem short_chat_leaks_residue :
    ¬NonInterfering ⟨requestFrame .reqRoomChat [104], by decide⟩ :=
  fun h => absurd (h.roomChat (by decide)) (by decide)

end Server
end ChatServer
