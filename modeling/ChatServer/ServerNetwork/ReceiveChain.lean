import ChatServer.ServerNetwork.SocketOwner

/-! # The chain of receives

Every receive of a slot uses the one `mRecvOverlappedEx` and the one `mRecvBuf` of its
client. The first is posted when a connection is accepted, and each further one by the
worker that has handled the chunk before it. Here that worker is a party of its own:
while it reads the buffer and until it calls `BindRecv`, all other workers go on.
-/

namespace ChatServer.Network
open Recorded

/-- A worker that has taken a receive off the port. `chunk` is the number of the chunk in
the stream of its connection. Once it is `read`, `OnReceive` has passed it on to
`SetPacketData`, and `BindRecv` is to be called. -/
structure Receiving (n : ℕ) where
  slot : Fin n
  connection : ℕ
  chunk : ℕ
  read : Bool
  deriving DecidableEq

-- The membership tests of `step` are decided by this instance, whatever is imported.
instance (n : ℕ) : LawfulBEq (Receiving n) := inferInstance

/-- The server with its workers in the branch for receives. `taken` counts the chunks of
a connection that came off the port; `received` are the chunks passed to
`SetPacketData`, in the order of the calls. -/
structure ReceiveServer (n : ℕ) extends IOCPServer n where
  receiving : List (Receiving n)
  taken : ℕ → ℕ
  received : ℕ → List ℕ

inductive ReceiveEvent (n : ℕ) where
  | network (e : NetworkEvent n)
  | onReceive (op : Overlapped n) (dwIoSize : ℕ)
  | setPacketData (r : Receiving n)
  | bindRecv (r : Receiving n) (wsaRecv : Bool)

namespace ReceiveServer
variable {n : ℕ}

def init (n : ℕ) : ReceiveServer n where
  toIOCPServer := .init n
  receiving := []
  taken := fun _ => 0
  received := fun _ => []

/-- The workers that read the buffer of a slot -/
def reading (s : ReceiveServer n) (i : Fin n) : ℕ :=
  s.receiving.countP fun r => r.slot = i ∧ r.read = false

/-- A worker takes a receive off the port and calls `OnReceive` for the client of its
key. -/
def onReceive (s : ReceiveServer n) (op : Overlapped n) : Option (Fin n) → ReceiveServer n
  | some i =>
    { s with
      toIOCPServer := s.take op (some i)
      receiving := s.receiving ++ [⟨i, op.connection, s.taken op.connection, false⟩]
      taken := Function.update s.taken op.connection (s.taken op.connection + 1) }
  | none => { s with toIOCPServer := s.take op none }

/-- `OnReceive` passes the chunk to `SetPacketData`. -/
def setPacketData (s : ReceiveServer n) (r : Receiving n) : ReceiveServer n :=
  { s with
    receiving := s.receiving.erase r ++ [{ r with read := true }]
    received := Function.update s.received r.connection (s.received r.connection ++ [r.chunk]) }

/-- The worker calls `BindRecv`, whose result it ignores. -/
def finish (s : ReceiveServer n) (r : Receiving n) (wsaRecv : Bool) : ReceiveServer n :=
  { s with
    toIOCPServer := (s.bindRecv r.slot wsaRecv).1
    receiving := s.receiving.erase r }

/-- A step of one worker, or of another thread -/
def step (s : ReceiveServer n) (e : ReceiveEvent n) : Option (ReceiveServer n) :=
  if s.handled.any (·.2.isNone) then none
  else
    match e with
    | .network e =>
      if e.IsReceived then none
      else (s.toIOCPServer.step e).map fun t => { s with toIOCPServer := t }
    | .onReceive op dwIoSize =>
      if op ∈ s.outstanding ∧ op.m_eOperation = .recv ∧ dwIoSize ≠ 0 then
        some (s.onReceive op (s.keyOf op))
      else none
    | .setPacketData r =>
      if r ∈ s.receiving ∧ r.read = false then some (s.setPacketData r) else none
    | .bindRecv r wsaRecv =>
      if r ∈ s.receiving ∧ r.read = true then some (s.finish r wsaRecv) else none

/-- The open connection of a slot is being received: its receive is outstanding, or a
worker is about to post one. -/
def InFlight (s : ReceiveServer n) (i : Fin n) (k : ℕ) : Prop :=
  recvOf i k ∈ s.outstanding ∨ ∃ r ∈ s.receiving, r.slot = i

/-- No slot has two receives outstanding, or one while a worker reads its buffer; each
connection that was announced and is open is being received; and the chunks of every
connection reach `SetPacketData` in the order of its stream. -/
structure Chained (s : ReceiveServer n) : Prop where
  single : ∀ i, s.receives i ≤ 1
  exclusive : ∀ i, s.reading i ≠ 0 → s.receives i = 0
  alive : ∀ i k, .onConnect k ∈ s.calls i → s.openConnection i = some k → s.InFlight i k
  ordered : ∀ k, s.received k = List.range (s.received k).length

/-- No receive of the slot is outstanding, and no worker reads its buffer. -/
def Idle (s : ReceiveServer n) (i : Fin n) : Prop := s.receives i = 0 ∧ s.reading i = 0

instance (s : ReceiveServer n) (i : Fin n) : Decidable (s.Idle i) := instDecidableAnd

/-- The first receive of a connection is posted on an idle slot. So is each further one,
and if none can be posted then the connection is closed or received by another worker. -/
def KeepsChain (s : ReceiveServer n) : ReceiveEvent n → Prop
  | .network e => ∀ x ∈ s.firstReceive e, s.Idle x.1
  | .bindRecv r wsaRecv => ∀ k ∈ s.openConnection r.slot,
      if wsaRecv then s.Idle r.slot
      else recvOf r.slot k ∈ s.outstanding ∨ ∃ r' ∈ s.receiving.erase r, r'.slot = r.slot
  | .onReceive .. | .setPacketData _ => True

instance (s : ReceiveServer n) : DecidablePred s.KeepsChain
  | .network e => inferInstanceAs (Decidable (∀ x ∈ s.firstReceive e, s.Idle x.1))
  | .bindRecv r wsaRecv => inferInstanceAs (Decidable (∀ k ∈ s.openConnection r.slot,
      if wsaRecv then s.Idle r.slot
      else recvOf r.slot k ∈ s.outstanding ∨ ∃ r' ∈ s.receiving.erase r, r'.slot = r.slot))
  | .onReceive .. | .setPacketData _ => instDecidableTrue

end ReceiveServer

/-! ## The invariant -/

namespace ReceiveServer
variable {n : ℕ} {s s' : ReceiveServer n} {op : Overlapped n} {r : Receiving n} {i : Fin n}
  {k : ℕ}

/-- A slot has one receive at most, outstanding or read. The chunk that is read is the
next one of its connection, and a connection that is not read has passed on all it took. -/
structure Inv (s : ReceiveServer n) : Prop where
  wired : ∃ owner, s.Wired owner
  announced : s.Announced
  bounded : ∀ i, s.receives i + s.reading i ≤ 1
  alive : ∀ i k, s.openConnection i = some k → s.InFlight i k
  keys : ∀ r ∈ s.receiving, s.completionKey r.connection = some r.slot
  unread : ∀ r ∈ s.receiving, r.read = false →
    r.chunk = (s.received r.connection).length ∧ s.taken r.connection = r.chunk + 1
  rest : ∀ k, (∀ r ∈ s.receiving, r.read = false → r.connection ≠ k) →
    s.taken k = (s.received k).length
  ordered : ∀ k, s.received k = List.range (s.received k).length

theorem init_inv : (init n).Inv where
  wired := ⟨_, IOCPServer.init_wired⟩
  announced := nofun
  bounded := fun _ => Nat.zero_le _
  alive := nofun
  keys := nofun
  unread := nofun
  rest := fun _ _ => rfl
  ordered := fun _ => rfl

theorem Inv.chained (h : s.Inv) : s.Chained where
  single := fun i => by
    have := h.bounded i
    omega
  exclusive := fun i hreading => by
    have := h.bounded i
    omega
  alive := fun i k _ hopen => h.alive i k hopen
  ordered := h.ordered

/-- A receive is posted on a slot: it is the only one if the slot was idle. -/
theorem idle_of_chained (h : s'.Chained) (hreceives : s'.receives i = s.receives i + 1)
    (hreading : s'.reading i = s.reading i) : s.Idle i := by
  have hsingle := h.single i
  have hexclusive := h.exclusive i
  constructor
  · omega
  · by_contra hbusy
    have := hexclusive (by rwa [hreading])
    omega

theorem reading_append (r : Receiving n) (l : List (Receiving n)) (j : Fin n) :
    (l ++ [r]).countP (fun r => r.slot = j ∧ r.read = false) =
      l.countP (fun r => r.slot = j ∧ r.read = false) +
        if r.slot = j ∧ r.read = false then 1 else 0 := by
  simp [List.countP_cons]

theorem reading_erase (hr : r ∈ s.receiving) (j : Fin n) :
    (s.receiving.erase r).countP (fun r => r.slot = j ∧ r.read = false) +
      (if r.slot = j ∧ r.read = false then 1 else 0) = s.reading j := by
  have hcount := IOCPServer.countP_erase_of_mem hr fun r => decide (r.slot = j ∧ r.read = false)
  simp only [decide_eq_true_eq] at hcount
  exact hcount

theorem reading_pos (hr : r ∈ s.receiving) (hread : r.read = false) : 0 < s.reading r.slot :=
  List.countP_pos_iff.mpr ⟨r, hr, by simp [hread]⟩

/-- Workers on one connection are workers on one slot. -/
theorem Inv.slot_eq (h : s.Inv) (hr : r ∈ s.receiving) (hk : s.completionKey r.connection = some i) :
    r.slot = i := Option.some.inj ((h.keys r hr).symm.trans hk)

/-! ### The steps -/

theorem Inv.network (h : s.Inv) {e : NetworkEvent n} {t : IOCPServer n} (hreceived : ¬e.IsReceived)
    (hstep : s.toIOCPServer.step e = some t) :
    (({ s with toIOCPServer := t } : ReceiveServer n).Chained ↔ s.KeepsChain (.network e)) ∧
      (s.KeepsChain (.network e) → ({ s with toIOCPServer := t } : ReceiveServer n).Inv) := by
  rcases h.wired with ⟨owner, hwired⟩
  rcases hwired.step h.announced hreceived hstep with ⟨hfollows, heffect⟩
  have hkeys : ∀ r ∈ s.receiving, t.completionKey r.connection = some r.slot :=
    fun r hr => hfollows.keys _ _ (h.keys r hr)
  cases heffect with
  | none hfirst hreceives hslot =>
    have hinv : ({ s with toIOCPServer := t } : ReceiveServer n).Inv := by
      refine ⟨hfollows.wired, hfollows.announced, fun j => ?_, fun j k hopen => ?_, hkeys, h.unread,
        h.rest, h.ordered⟩
      · exact (Nat.add_le_add_right (hreceives j) _).trans (h.bounded j)
      · rcases hslot j with hclosed | ⟨hsame, hkept⟩
        · cases hclosed.symm.trans hopen
        · exact (h.alive j k (hsame.symm.trans hopen)).imp_left (hkept k)
    have hkeeps : s.KeepsChain (.network e) := by
      intro x hx
      cases hfirst.symm.trans hx
    exact ⟨iff_of_true hinv.chained hkeeps, fun _ => hinv⟩
  | first i k hfirst hreceives hopen hnew hslot =>
    have hiff : s.KeepsChain (.network e) ↔ s.Idle i := by
      constructor
      · exact fun hkeeps => hkeeps (i, k) hfirst
      · intro hidle x hx
        obtain rfl := Option.some.inj (hfirst.symm.trans hx)
        exact hidle
    have hinv (hidle : s.Idle i) : ({ s with toIOCPServer := t } : ReceiveServer n).Inv := by
      refine ⟨hfollows.wired, hfollows.announced, fun j => ?_, fun j k' hk' => ?_, hkeys, h.unread,
        h.rest, h.ordered⟩
      · change t.receives j + s.reading j ≤ 1
        rw [hreceives j]
        split_ifs with hj
        · rw [hj, hidle.1, hidle.2]
        · exact h.bounded j
      · by_cases hj : j = i
        · subst hj
          obtain rfl := Option.some.inj (hopen.symm.trans hk')
          exact .inl hnew
        · exact (h.alive j k' ((hslot j hj).1.symm.trans hk')).imp_left ((hslot j hj).2 k')
    rw [hiff]
    refine ⟨⟨fun hchained => ?_, fun hidle => (hinv hidle).chained⟩, hinv⟩
    apply idle_of_chained hchained
    · exact (hreceives i).trans (by rw [if_pos rfl])
    · rfl

/-- While a receive of a slot is outstanding, no worker reads its buffer. -/
theorem Inv.not_reading (h : s.Inv) (hop : op ∈ s.outstanding) (hrecv : op.m_eOperation = .recv)
    (hr : r ∈ s.receiving) (hread : r.read = false) : r.slot ≠ op.poster := by
  intro hslot
  have hbounded := h.bounded op.poster
  have hpos := reading_pos hr hread
  rw [hslot] at hpos
  have hreceives : 0 < s.receives op.poster := List.countP_pos_iff.mpr ⟨op, hop, by simp [hrecv]⟩
  omega

theorem Inv.onReceive (h : s.Inv) (hop : op ∈ s.outstanding) (hrecv : op.m_eOperation = .recv)
    (hkey : s.completionKey op.connection = some op.poster) :
    (s.onReceive op (some op.poster)).Inv := by
  rcases h.wired with ⟨owner, hwired⟩
  have hother : ∀ r ∈ s.receiving, r.read = false → r.connection ≠ op.connection := by
    intro r hr hread hconnection
    have hslot := h.slot_eq hr (hconnection ▸ hkey)
    exact h.not_reading hop hrecv hr hread hslot
  have hworker {r : Receiving n} (hr : r ∈ (s.onReceive op (some op.poster)).receiving) :
      r ∈ s.receiving ∨ r = ⟨op.poster, op.connection, s.taken op.connection, false⟩ := by
    simpa [ReceiveServer.onReceive] using hr
  constructor
  · exact ⟨owner, hwired.take (some op.poster)⟩
  · exact h.announced
  · intro j
    have htake := IOCPServer.receives_take hop (some op.poster) j
    change (s.take op (some op.poster)).receives j + List.countP _ (s.receiving ++ [_]) ≤ 1
    rw [reading_append]
    have hbounded := h.bounded j
    simp only [hrecv, true_and] at htake
    simp only [and_true]
    unfold reading at hbounded
    omega
  · intro j k hk
    rcases h.alive j k hk with hmem | ⟨r, hr, hslot⟩
    · by_cases hsame : recvOf j k = op
      · refine .inr ⟨_, List.mem_append_right _ (List.mem_singleton_self _), ?_⟩
        rw [← hsame]
        rfl
      · exact .inl (IOCPServer.recvOf_mem_take hsame hmem (some op.poster))
    · exact .inr ⟨r, List.mem_append_left _ hr, hslot⟩
  · intro r hr
    rcases hworker hr with hr | rfl
    · exact h.keys r hr
    · exact hkey
  · intro r hr hread
    rcases hworker hr with hr | rfl
    · have hne := hother r hr hread
      have hold := h.unread r hr hread
      exact ⟨hold.1, (Function.update_of_ne hne _ _).trans hold.2⟩
    · exact ⟨h.rest _ hother, Function.update_self _ _ _⟩
  · intro k hk
    have hne : op.connection ≠ k :=
      hk _ (List.mem_append_right _ (List.mem_singleton_self _)) rfl
    refine (Function.update_of_ne hne.symm _ _).trans (h.rest k fun r hr => ?_)
    exact hk r (List.mem_append_left _ hr)
  · exact h.ordered

/-- `r` is the only worker that reads the chunks of its connection. -/
theorem Inv.only_reader (h : s.Inv) (hr : r ∈ s.receiving) (hread : r.read = false)
    {r' : Receiving n} (hr' : r' ∈ s.receiving.erase r) (hread' : r'.read = false) :
    r'.connection ≠ r.connection := by
  intro hconnection
  have hmem := List.mem_of_mem_erase hr'
  have hslot : r'.slot = r.slot := h.slot_eq hmem (hconnection ▸ h.keys r hr)
  have hcount := reading_erase hr r.slot
  rw [if_pos ⟨rfl, hread⟩] at hcount
  have hpos : 0 < (s.receiving.erase r).countP fun r' => r'.slot = r.slot ∧ r'.read = false :=
    List.countP_pos_iff.mpr ⟨r', hr', by simp [hslot, hread']⟩
  have hbounded := h.bounded r.slot
  omega

theorem Inv.setPacketData (h : s.Inv) (hr : r ∈ s.receiving) (hread : r.read = false) :
    (s.setPacketData r).Inv := by
  rcases h.unread r hr hread with ⟨hchunk, htaken⟩
  have hworker {r' : Receiving n} (hr' : r' ∈ (s.setPacketData r).receiving) :
      r' ∈ s.receiving.erase r ∨ r' = { r with read := true } := by
    simpa [ReceiveServer.setPacketData] using hr'
  constructor
  · exact h.wired
  · exact h.announced
  · intro j
    change s.receives j + List.countP _ (s.receiving.erase r ++ [_]) ≤ 1
    have hcount := reading_erase hr j
    have hbounded := h.bounded j
    rw [reading_append]
    simp only [Bool.true_eq_false, and_false, if_false]
    omega
  · intro j k hk
    rcases h.alive j k hk with hmem | ⟨r', hr', hslot⟩
    · exact .inl hmem
    · by_cases hsame : r' = r
      · subst hsame
        exact .inr ⟨_, List.mem_append_right _ (List.mem_singleton_self _), hslot⟩
      · exact .inr ⟨r', List.mem_append_left _ ((List.mem_erase_of_ne hsame).mpr hr'), hslot⟩
  · intro r' hr'
    rcases hworker hr' with hr' | rfl
    · exact h.keys r' (List.mem_of_mem_erase hr')
    · exact h.keys r hr
  · intro r' hr' hread'
    rcases hworker hr' with hr' | rfl
    · have hne := h.only_reader hr hread hr' hread'
      have hold := h.unread r' (List.mem_of_mem_erase hr') hread'
      change r'.chunk = (Function.update s.received r.connection _ r'.connection).length ∧ _
      rw [Function.update_of_ne hne]
      exact hold
    · cases hread'
  · intro k hk
    change s.taken k = (Function.update s.received r.connection _ k).length
    by_cases hconnection : k = r.connection
    · subst hconnection
      rw [Function.update_self, List.length_append, List.length_singleton, htaken, hchunk]
    · rw [Function.update_of_ne hconnection]
      apply h.rest
      intro r' hr' hread'
      by_cases hsame : r' = r
      · rw [hsame]
        exact Ne.symm hconnection
      · exact hk r' (List.mem_append_left _ ((List.mem_erase_of_ne hsame).mpr hr')) hread'
  · intro k
    change Function.update s.received r.connection _ k = List.range
      (Function.update s.received r.connection _ k).length
    by_cases hconnection : k = r.connection
    · subst hconnection
      rw [Function.update_self, List.length_append, List.length_singleton, List.range_succ,
        ← h.ordered, hchunk]
    · rw [Function.update_of_ne hconnection]
      exact h.ordered k

/-- A worker has called `BindRecv`, which posted a receive or nothing. -/
theorem Inv.finished (h : s.Inv) (hr : r ∈ s.receiving) (hread : r.read = true)
    {t : IOCPServer n} (hwired : ∃ owner, t.Wired owner)
    (hopen : t.openConnection = s.openConnection) (hcalls : t.calls = s.calls)
    (hkey : t.completionKey = s.completionKey) (hmem : ∀ o ∈ s.outstanding, o ∈ t.outstanding)
    (hbounded : ∀ j, t.receives j + s.reading j ≤ 1)
    (halive : ∀ k, s.openConnection r.slot = some k →
      recvOf r.slot k ∈ t.outstanding ∨ ∃ r' ∈ s.receiving.erase r, r'.slot = r.slot) :
    ({ s with toIOCPServer := t, receiving := s.receiving.erase r } : ReceiveServer n).Inv := by
  constructor
  · exact hwired
  · intro j k hk
    change .onConnect k ∈ t.calls j
    rw [hcalls]
    exact h.announced j k ((congrFun hopen j).symm.trans hk)
  · intro j
    change t.receives j + (s.receiving.erase r).countP _ ≤ 1
    have hcount := reading_erase hr j
    rw [if_neg (by simp [hread]), Nat.add_zero] at hcount
    rw [hcount]
    exact hbounded j
  · intro j k hk
    have hold : s.openConnection j = some k := (congrFun hopen j).symm.trans hk
    by_cases hj : j = r.slot
    · subst hj
      exact halive k hold
    · rcases h.alive j k hold with hrecv | ⟨r', hr', hslot⟩
      · exact .inl (hmem _ hrecv)
      · refine .inr ⟨r', (List.mem_erase_of_ne ?_).mpr hr', hslot⟩
        rintro rfl
        exact hj hslot.symm
  · intro r' hr'
    change t.completionKey _ = _
    rw [hkey]
    exact h.keys r' (List.mem_of_mem_erase hr')
  · exact fun r' hr' => h.unread r' (List.mem_of_mem_erase hr')
  · intro k hk
    refine h.rest k fun r' hr' hread' => hk r' ((List.mem_erase_of_ne ?_).mpr hr') hread'
    rintro rfl
    cases hread.symm.trans hread'
  · exact h.ordered

/-- Nothing is posted: the connection is closed, or received by another worker. -/
theorem Inv.finish_without (h : s.Inv) (hr : r ∈ s.receiving) (hread : r.read = true)
    {wsaRecv : Bool} (hbind : (s.bindRecv r.slot wsaRecv).1 = s.toIOCPServer)
    (halive : ∀ k, s.openConnection r.slot = some k →
      recvOf r.slot k ∈ s.outstanding ∨ ∃ r' ∈ s.receiving.erase r, r'.slot = r.slot) :
    (s.finish r wsaRecv).Inv := by
  rw [ReceiveServer.finish, hbind]
  exact h.finished hr hread h.wired rfl rfl rfl (fun _ ho => ho) h.bounded halive

theorem receives_post_recvOf (s : IOCPServer n) (i : Fin n) (k : ℕ) (j : Fin n) :
    (s.post (recvOf i k)).receives j = s.receives j + if i = j then 1 else 0 := by
  rw [IOCPServer.receives_post]
  simp [recvOf]

/-- The next receive is posted on an idle slot. -/
theorem Inv.finish_posted (h : s.Inv) (hr : r ∈ s.receiving) (hread : r.read = true)
    (hopen : s.openConnection r.slot = some k) (hidle : s.Idle r.slot)
    (hbind : (s.bindRecv r.slot true).1 = s.post (recvOf r.slot k)) : (s.finish r true).Inv := by
  rcases h.wired with ⟨owner, hwired⟩
  rw [ReceiveServer.finish, hbind]
  refine h.finished hr hread ⟨owner, hwired.post hopen (o := .recv) (by decide)⟩ rfl rfl rfl
    (fun _ ho => List.mem_append_left _ ho) (fun j => ?_) fun k' hk' => ?_
  · rw [receives_post_recvOf]
    split_ifs with hj
    · rw [← hj, hidle.1, hidle.2]
    · exact h.bounded j
  · obtain rfl := Option.some.inj (hopen.symm.trans hk')
    exact .inl (List.mem_append_right _ (List.mem_singleton_self _))

theorem Inv.finish (h : s.Inv) (hr : r ∈ s.receiving) (hread : r.read = true) (wsaRecv : Bool) :
    ((s.finish r wsaRecv).Chained ↔ s.KeepsChain (.bindRecv r wsaRecv)) ∧
      (s.KeepsChain (.bindRecv r wsaRecv) → (s.finish r wsaRecv).Inv) := by
  cases hopen : s.openConnection r.slot with
  | none =>
    have hbind : (s.bindRecv r.slot wsaRecv).1 = s.toIOCPServer := by
      simp [IOCPServer.bindRecv, hopen]
    have hinv : (s.finish r wsaRecv).Inv := by
      apply h.finish_without hr hread hbind
      intro k hk
      cases hopen.symm.trans hk
    have hkeeps : s.KeepsChain (.bindRecv r wsaRecv) := by
      intro k hk
      cases hopen.symm.trans hk
    exact ⟨iff_of_true hinv.chained hkeeps, fun _ => hinv⟩
  | some k =>
    cases wsaRecv with
    | false =>
      have hbind : (s.bindRecv r.slot false).1 = s.toIOCPServer := by
        simp [IOCPServer.bindRecv, hopen]
      have hinv (hkeeps : s.KeepsChain (.bindRecv r false)) : (s.finish r false).Inv :=
        h.finish_without hr hread hbind fun k' hk' => hkeeps k' hk'
      refine ⟨⟨fun hchained => ?_, fun hkeeps => (hinv hkeeps).chained⟩, hinv⟩
      rw [ReceiveServer.finish, hbind] at hchained
      exact fun k' hk' => hchained.alive r.slot k' (h.announced _ _ hk') hk'
    | true =>
      have hbind : (s.bindRecv r.slot true).1 = s.post (recvOf r.slot k) := by
        simp [IOCPServer.bindRecv, hopen, recvOf]
      have hiff : s.KeepsChain (.bindRecv r true) ↔ s.Idle r.slot := by
        simp [KeepsChain, hopen]
      have hinv (hidle : s.Idle r.slot) : (s.finish r true).Inv :=
        h.finish_posted hr hread hopen hidle hbind
      rw [hiff]
      refine ⟨⟨fun hchained => ?_, fun hidle => (hinv hidle).chained⟩, hinv⟩
      rw [ReceiveServer.finish, hbind] at hchained
      apply idle_of_chained hchained
      · exact (receives_post_recvOf _ _ _ _).trans (by rw [if_pos rfl])
      · have hcount := reading_erase hr r.slot
        rwa [if_neg (by simp [hread]), Nat.add_zero] at hcount

theorem Inv.step_iff (h : s.Inv) {e : ReceiveEvent n} (hstep : s.step e = some s') :
    (s'.Chained ↔ s.KeepsChain e) ∧ (s.KeepsChain e → s'.Inv) := by
  unfold ReceiveServer.step at hstep
  split_ifs at hstep
  cases e with
  | network e =>
    simp only at hstep
    split_ifs at hstep with hreceived
    rcases Option.map_eq_some_iff.mp hstep with ⟨t, ht, rfl⟩
    exact h.network hreceived ht
  | onReceive op dwIoSize =>
    simp only at hstep
    split_ifs at hstep with hop
    rcases h.wired with ⟨owner, hwired⟩
    have hother : op.m_eOperation ≠ .accept := by simp [hop.2.1]
    rw [hwired.keyOf hop.1 hother] at hstep
    obtain rfl := Option.some.inj hstep
    have hinv := h.onReceive hop.1 hop.2.1 (hwired.keyed op hop.1 hother)
    exact ⟨iff_of_true hinv.chained trivial, fun _ => hinv⟩
  | setPacketData r =>
    simp only at hstep
    split_ifs at hstep with hr
    obtain rfl := Option.some.inj hstep
    have hinv := h.setPacketData hr.1 hr.2
    exact ⟨iff_of_true hinv.chained trivial, fun _ => hinv⟩
  | bindRecv r wsaRecv =>
    simp only at hstep
    split_ifs at hstep with hr
    obtain rfl := Option.some.inj hstep
    exact h.finish hr.1 hr.2 wsaRecv

/-- A worker that is not interrupted takes one turn of `WokerThread`. -/
theorem turn_of_receive {t : IOCPServer n} {dwIoSize : ℕ} {wsaRecv : Bool}
    (hrecv : op.m_eOperation = .recv) (hsize : dwIoSize ≠ 0) (hkey : s.keyOf op = some i)
    (hstep : s.toIOCPServer.step (.completion op true dwIoSize wsaRecv) = some t) :
    ∃ past s', Run step s past s' ∧ s'.toIOCPServer = t ∧ past.map Entry.act =
      [.onReceive op dwIoSize, .setPacketData ⟨i, op.connection, s.taken op.connection, false⟩,
        .bindRecv ⟨i, op.connection, s.taken op.connection, true⟩ wsaRecv] := by
  unfold IOCPServer.step at hstep
  split_ifs at hstep with hnull
  simp only at hstep
  split_ifs at hstep with hop
  have hturn : s.wokerThread op true dwIoSize wsaRecv =
      some ((s.take op (some i)).bindRecv i wsaRecv).1 := by
    simp [IOCPServer.wokerThread, hkey, hrecv, hsize]
  have htake : ¬(s.take op (some i)).handled.any (·.2.isNone) = true := by
    simpa [IOCPServer.take] using hnull
  have h₁ : s.step (.onReceive op dwIoSize) = some (s.onReceive op (some i)) := by
    rw [step, if_neg hnull]
    simp [hop, hrecv, hsize, hkey]
  have h₂ : (s.onReceive op (some i)).step
      (.setPacketData ⟨i, op.connection, s.taken op.connection, false⟩) =
        some ((s.onReceive op (some i)).setPacketData
          ⟨i, op.connection, s.taken op.connection, false⟩) := by
    refine (if_neg htake).trans ?_
    simp [ReceiveServer.onReceive]
  have h₃ : ((s.onReceive op (some i)).setPacketData
      ⟨i, op.connection, s.taken op.connection, false⟩).step
        (.bindRecv ⟨i, op.connection, s.taken op.connection, true⟩ wsaRecv) =
          some (((s.onReceive op (some i)).setPacketData
            ⟨i, op.connection, s.taken op.connection, false⟩).finish
              ⟨i, op.connection, s.taken op.connection, true⟩ wsaRecv) := by
    refine (if_neg htake).trans ?_
    simp [ReceiveServer.setPacketData]
  refine ⟨_, _, ((Run.nil.snoc h₁).snoc h₂).snoc h₃, ?_, rfl⟩
  exact Option.some.inj (hturn.symm.trans hstep)

end ReceiveServer

/-- Over every run, with completions and workers in any order, all states have one
receive for each connection exactly if every `BindRecv` keeps the chain. -/
theorem receives_chained_iff {n : ℕ} {past : List (Entry (ReceiveServer n) (ReceiveEvent n))}
    {s : ReceiveServer n} (run : Run ReceiveServer.step (.init n) past s) :
    (∀ e ∈ past, e.post.Chained) ↔ ∀ e ∈ past, e.pre.KeepsChain e.act := by
  rw [← atEach_const, ← atEach_const]
  apply run.exact_iff (A := fun _ _ => True) (I := fun _ s => s.Inv)
  · exact ReceiveServer.init_inv
  · intro past s e s' h hstep _
    exact (h.step_iff hstep).2
  · intro past s e s' h hstep _
    exact (h.step_iff hstep).1
  · exact fun _ _ _ => trivial

/-- Two chunks arrive, and then the receive fails. -/
theorem chained_for_two_chunks : ∃ past s,
    Run ReceiveServer.step (.init 1) past s ∧ (∀ e ∈ past, e.post.Chained) ∧
      s.received 0 = [0, 1] ∧ s.calls 0 = [.onConnect 0, .onClose 0] := by
  obtain ⟨past, s, run, h⟩ := exists_run ReceiveServer.step (.init 1)
    [.network (.accepterThread 0 4 true true),
      .network (.completion ⟨.accept, 0, 0, 0⟩ true 0 true),
      .onReceive (recvOf 0 0) 8, .setPacketData ⟨0, 0, 0, false⟩, .bindRecv ⟨0, 0, 0, true⟩ true,
      .onReceive (recvOf 0 0) 8, .setPacketData ⟨0, 0, 1, false⟩, .bindRecv ⟨0, 0, 1, true⟩ true,
      .network (.completion (recvOf 0 0) false 0 true)]
    (fun past s => (∀ e ∈ past, e.pre.KeepsChain e.act) ∧ s.received 0 = [0, 1] ∧
      s.calls 0 = [.onConnect 0, .onClose 0])
    (by decide +kernel)
  rcases of_decide_eq_true h with ⟨hkeeps, hreceived, hcalls⟩
  exact ⟨past, s, run, (receives_chained_iff run).mpr hkeeps, hreceived, hcalls⟩

/-- `WSARecv` fails after the first chunk. The connection stays open, with nothing posted
on it and no worker. -/
theorem failed_receive_leaves_open : ∃ past s,
    Run ReceiveServer.step (.init 1) past s ∧ s.calls 0 = [.onConnect 0] ∧
      s.openConnection 0 = some 0 ∧ s.outstanding = [] ∧ s.receiving = [] ∧ ¬s.Chained := by
  obtain ⟨past, s, run, h⟩ := exists_run ReceiveServer.step (.init 1)
    [.network (.accepterThread 0 4 true true),
      .network (.completion ⟨.accept, 0, 0, 0⟩ true 0 true),
      .onReceive (recvOf 0 0) 8, .setPacketData ⟨0, 0, 0, false⟩, .bindRecv ⟨0, 0, 0, true⟩ false]
    (fun _ s => s.calls 0 = [.onConnect 0] ∧ s.openConnection 0 = some 0 ∧
      s.outstanding = [] ∧ s.receiving = [])
    (by decide +kernel)
  rcases of_decide_eq_true h with ⟨hcalls, hopen, houtstanding, hreceiving⟩
  refine ⟨past, s, run, hcalls, hopen, houtstanding, hreceiving, fun hchained => ?_⟩
  rcases hchained.alive 0 0 (by simp [hcalls]) hopen with hmem | ⟨r, hr, -⟩
  · simp [houtstanding] at hmem
  · simp [hreceiving] at hr

-- A failed send closes the connection, and the slot is reused once the clock has passed
-- `UINT32_MAX`. The old receive has not been reported by then, so two are outstanding.
example : (perform ReceiveServer.step (.init 1)
    [.network (.accepterThread 0 4 true true),
      .network (.completion ⟨.accept, 0, 0, 0⟩ true 0 true), .network (.sendMsg 0 true),
      .network (.completion ⟨.send, 0, 0, 0⟩ false 0 true),
      .network (.accepterThread 0 4294967300 true true),
      .network (.completion ⟨.accept, 0, 0, 1⟩ true 0 true)]).any
    (fun r => r.2.receives 0 == 2) = true := by decide +kernel

end ChatServer.Network
