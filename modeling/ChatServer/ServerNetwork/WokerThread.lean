import ChatServer.ServerNetwork.Accepter

/-! # Completions and the turns of WokerThread

`WokerThread` takes the completions of the operations that the slots have posted, in any
order. An accept is posted on the listen socket, which is bound to the completion port
with key 0, and a failed operation closes the `ClientInfo` of its key. A turn is one step
here.
-/

namespace ChatServer.Network

inductive IOOperation where
  | accept | recv | send
  deriving DecidableEq

/-- A `stOverlappedEx` that the system has not reported yet. `poster` is the slot that
posted it, and `connection` its socket at that time. -/
structure Overlapped (n : ℕ) where
  m_eOperation : IOOperation
  sessionIndex : ℕ
  poster : Fin n
  connection : ℕ
  deriving DecidableEq

-- The membership tests of `step` are decided by this instance, whatever is imported.
instance (n : ℕ) : LawfulBEq (Overlapped n) := inferInstance

/-- A call of `OnConnect` or `OnClose`, and the connection whose completion led to it -/
inductive Call where
  | onConnect (connection : ℕ)
  | onClose (connection : ℕ)
  deriving DecidableEq

def Call.connection : Call → ℕ
  | .onConnect k => k
  | .onClose k => k

/-- The clients and the completion port. Sockets are numbered as they are made;
`connected` are those that were accepted. `mSendDataqueue` is given by its size.
`handled` keeps for each completion the slot that posted the operation and the
`ClientInfo` it was handled on. -/
structure IOCPServer (n : ℕ) where
  mClientInfos : Fin n → ClientInfo
  mSendDataqueue : Fin n → ℕ
  completionKey : ℕ → Option (Fin n)
  sockets : ℕ
  connected : List ℕ
  outstanding : List (Overlapped n)
  handled : List (Fin n × Option (Fin n))
  calls : Fin n → List Call

namespace IOCPServer
variable {n : ℕ}

def init (n : ℕ) : IOCPServer n where
  mClientInfos := fun _ => .init
  mSendDataqueue := fun _ => 0
  completionKey := fun _ => none
  sockets := 0
  connected := []
  outstanding := []
  handled := []
  calls := fun _ => []

/-- The connection that is open on a slot -/
def openConnection (s : IOCPServer n) (i : Fin n) : Option ℕ :=
  (s.mClientInfos i).mSock.filter (· ∈ s.connected)

def post (s : IOCPServer n) (op : Overlapped n) : IOCPServer n :=
  { s with outstanding := s.outstanding ++ [op] }

/-- `ClientInfo::BindRecv`. `WSARecv` is not accepted without an open connection. -/
def bindRecv (s : IOCPServer n) (i : Fin n) (wsaRecv : Bool) : IOCPServer n × Bool :=
  match s.openConnection i with
  | some k => if wsaRecv then (s.post ⟨.recv, 0, i, k⟩, true) else (s, false)
  | none => (s, false)

/-- `ClientInfo::SendIO` -/
def sendIO (s : IOCPServer n) (i : Fin n) (wsaSend : Bool) : IOCPServer n :=
  match s.openConnection i with
  | some k => if wsaSend then s.post ⟨.send, 0, i, k⟩ else s
  | none => s

/-- `ClientInfo::SendMsg` -/
def sendMsg (s : IOCPServer n) (i : Fin n) (wsaSend : Bool) : IOCPServer n :=
  let s := { s with
    mSendDataqueue := Function.update s.mSendDataqueue i (s.mSendDataqueue i + 1) }
  if s.mSendDataqueue i = 1 then sendIO s i wsaSend else s

/-- `ClientInfo::SendCompleted`, which has no defined behaviour on an empty queue -/
def sendCompleted (s : IOCPServer n) (i : Fin n) (wsaSend : Bool) : Option (IOCPServer n) :=
  match s.mSendDataqueue i with
  | 0 => none
  | size + 1 =>
    let s := { s with mSendDataqueue := Function.update s.mSendDataqueue i size }
    some (if size = 0 then s else sendIO s i wsaSend)

/-- `ClientInfo::PostAccept`, with whether `WSASocket` and `AcceptEx` succeed -/
def postAccept (s : IOCPServer n) (i : Fin n) (curTimeSec : Int64) (wsaSocket acceptEx : Bool) :
    IOCPServer n :=
  match (s.mClientInfos i).postAccept (if wsaSocket then some s.sockets else none) acceptEx
      curTimeSec.toUInt64 with
  | (client, ok) =>
    let server := { s with
      mClientInfos := Function.update s.mClientInfos i client, sockets := s.sockets + 1 }
    if ok then server.post ⟨.accept, i, i, s.sockets⟩ else server

/-- `ClientInfo::AcceptCompletion`: the socket is bound to the port with this client as
its key, and the first receive is posted. -/
def acceptCompletion (s : IOCPServer n) (i : Fin n) (wsaRecv : Bool) : IOCPServer n × Bool :=
  match (s.mClientInfos i).mSock with
  | some k =>
    bindRecv { s with completionKey := Function.update s.completionKey k (some i) } i wsaRecv
  | none => bindRecv s i wsaRecv

def onConnect (s : IOCPServer n) (i : Fin n) (connection : ℕ) : IOCPServer n :=
  { s with calls := Function.update s.calls i (s.calls i ++ [.onConnect connection]) }

/-- `IOCPServer::CloseSocket` -/
def closeSocket (s : IOCPServer n) (i : Fin n) (connection : ℕ) : IOCPServer n :=
  { s with
    mClientInfos := Function.update s.mClientInfos i (s.mClientInfos i).close
    calls := Function.update s.calls i (s.calls i ++ [.onClose connection]) }

/-- `IOCPServer::GetClientInfo` -/
def getClientInfo (n sessionIndex : ℕ) : Option (Fin n) :=
  if h : sessionIndex < n then some ⟨sessionIndex, h⟩ else none

/-- The completion key, a null pointer for the listen socket -/
def keyOf (s : IOCPServer n) (op : Overlapped n) : Option (Fin n) :=
  if op.m_eOperation = .accept then none else s.completionKey op.connection

/-- Take an operation off the system, to be handled on the given `ClientInfo`. -/
def take (s : IOCPServer n) (op : Overlapped n) (pClientInfo : Option (Fin n)) : IOCPServer n :=
  { s with
    outstanding := s.outstanding.erase op
    handled := s.handled ++ [(op.poster, pClientInfo)] }

/-- One turn of `WokerThread`. With a null pointer nothing is done any more. `wsaResult` is
the outcome of the call of `WSARecv` or `WSASend` that may follow. -/
def wokerThread (s : IOCPServer n) (op : Overlapped n) (bSuccess : Bool) (dwIoSize : ℕ)
    (wsaResult : Bool) : Option (IOCPServer n) :=
  let pClientInfo := s.keyOf op
  if bSuccess = false ∨ dwIoSize = 0 ∧ op.m_eOperation ≠ .accept then
    match pClientInfo with
    | some i => some ((s.take op pClientInfo).closeSocket i op.connection)
    | none => some (s.take op none)
  else
    match op.m_eOperation with
    | .accept =>
      match getClientInfo n op.sessionIndex with
      | some i =>
        let s := s.take op (some i)
        let s := { s with connected := s.connected ++ [op.connection] }
        match s.acceptCompletion i wsaResult with
        | (s, true) => some (s.onConnect i op.connection)
        | (s, false) => some (s.closeSocket i op.connection)
      | none => none
    | .recv =>
      match pClientInfo with
      | some i => some ((s.take op pClientInfo).bindRecv i wsaResult).1
      | none => some (s.take op none)
    | .send =>
      match pClientInfo with
      | some i => (s.take op pClientInfo).sendCompleted i wsaResult
      | none => some (s.take op none)

end IOCPServer

/-- What happens at the server. The clock of `AccepterThread` may show any time. -/
inductive NetworkEvent (n : ℕ) where
  | accepterThread (i : Fin n) (curTimeSec : Int64) (wsaSocket acceptEx : Bool)
  | sendMsg (i : Fin n) (wsaSend : Bool)
  | completion (op : Overlapped n) (bSuccess : Bool) (dwIoSize : ℕ) (wsaResult : Bool)

namespace IOCPServer
variable {n : ℕ}

/-- Nothing follows the use of a null pointer. -/
def step (s : IOCPServer n) (e : NetworkEvent n) : Option (IOCPServer n) :=
  if s.handled.any (·.2.isNone) then none
  else
    match e with
    | .accepterThread i curTimeSec wsaSocket acceptEx =>
      if (s.mClientInfos i).accepterTest curTimeSec then
        some (s.postAccept i curTimeSec wsaSocket acceptEx)
      else none
    | .sendMsg i wsaSend => some (s.sendMsg i wsaSend)
    | .completion op bSuccess dwIoSize wsaResult =>
      if op ∈ s.outstanding then s.wokerThread op bSuccess dwIoSize wsaResult else none

end IOCPServer

/-! ## What the operations do to a slot -/

namespace IOCPServer
variable {n : ℕ} {s s' : IOCPServer n} {i : Fin n} {k : ℕ}

theorem openConnection_eq_some :
    s.openConnection i = some k ↔ (s.mClientInfos i).mSock = some k ∧ k ∈ s.connected := by
  rw [openConnection, Option.filter_eq_some_iff, decide_eq_true_eq]

theorem openConnection_eq_none (h : ∀ k, (s.mClientInfos i).mSock = some k → k ∉ s.connected) :
    s.openConnection i = none := by
  rw [openConnection, Option.filter_eq_none_iff]
  intro k hk
  simpa using h k hk

/-- What `SendMsg` and `SendCompleted` do to a client -/
inductive Queued (s : IOCPServer n) (i : Fin n) : IOCPServer n → Prop
  | waiting (sizes : Fin n → ℕ) : Queued s i { s with mSendDataqueue := sizes }
  | posted (sizes : Fin n → ℕ) {k : ℕ} (hopen : s.openConnection i = some k) :
      Queued s i (({ s with mSendDataqueue := sizes } : IOCPServer n).post ⟨.send, 0, i, k⟩)

theorem queued_startSend (sizes : Fin n → ℕ) (wsaSend : Bool) :
    s.Queued i <| sendIO { s with mSendDataqueue := sizes } i wsaSend := by
  unfold sendIO
  split
  · next k hopen =>
    split_ifs
    · exact .posted sizes hopen
    · exact .waiting sizes
  · exact .waiting sizes

theorem queued_sendMsg (wsaSend : Bool) : s.Queued i (s.sendMsg i wsaSend) := by
  simp only [IOCPServer.sendMsg]
  split_ifs
  · exact queued_startSend _ wsaSend
  · exact .waiting _

theorem queued_sendCompleted {wsaSend : Bool} (hsend : s.sendCompleted i wsaSend = some s') :
    s.Queued i s' := by
  unfold IOCPServer.sendCompleted at hsend
  split at hsend
  · cases hsend
  · obtain rfl := Option.some.inj hsend
    split_ifs
    · exact .waiting _
    · exact queued_startSend _ wsaSend

theorem Queued.calls (hq : s.Queued i s') : s'.calls = s.calls := by
  cases hq <;> rfl

theorem Queued.completionKey (hq : s.Queued i s') : s'.completionKey = s.completionKey := by
  cases hq <;> rfl

theorem Queued.openConnection (hq : s.Queued i s') (j : Fin n) :
    s'.openConnection j = s.openConnection j := by
  cases hq <;> rfl

theorem update_mSock {client : ClientInfo} {j : Fin n} {o : Option ℕ}
    (h : (Function.update s.mClientInfos i client j).mSock = o) :
    j = i ∧ client.mSock = o ∨ j ≠ i ∧ (s.mClientInfos j).mSock = o := by
  rcases eq_or_ne j i with rfl | hne
  · exact .inl ⟨rfl, by simpa using h⟩
  · exact .inr ⟨hne, by simpa [Function.update_of_ne hne] using h⟩

/-- A slot is given a new socket. -/
def newSocket (s : IOCPServer n) (i : Fin n) (client : ClientInfo) : IOCPServer n :=
  { s with mClientInfos := Function.update s.mClientInfos i client, sockets := s.sockets + 1 }

theorem newSocket_mSock {client : ClientInfo} {j : Fin n}
    (hclient : client.mSock = none ∨ client.mSock = some s.sockets)
    (hk : ((s.newSocket i client).mClientInfos j).mSock = some k) :
    j = i ∧ k = s.sockets ∨ j ≠ i ∧ (s.mClientInfos j).mSock = some k := by
  change (Function.update s.mClientInfos i client j).mSock = some k at hk
  rcases update_mSock hk with ⟨rfl, hk⟩ | hold
  · rcases hclient with hclient | hclient
    · simp [hclient] at hk
    · exact .inl ⟨rfl, by simpa [hclient] using hk.symm⟩
  · exact .inr hold

/-- The new socket is not connected yet. -/
theorem newSocket_openConnection (hlt : ∀ k ∈ s.connected, k < s.sockets)
    (hsock : (s.mClientInfos i).mSock = none) {client : ClientInfo}
    (hclient : client.mSock = none ∨ client.mSock = some s.sockets) (j : Fin n) :
    (s.newSocket i client).openConnection j = s.openConnection j := by
  rcases eq_or_ne j i with rfl | hne
  · rw [openConnection_eq_none (s := s) (by simp [hsock]), openConnection_eq_none]
    intro k hk
    rcases newSocket_mSock hclient hk with ⟨-, rfl⟩ | ⟨hne, -⟩
    · intro hmem
      exact absurd (hlt _ hmem) (lt_irrefl _)
    · exact absurd rfl hne
  · have hsame : (s.newSocket i client).mClientInfos j = s.mClientInfos j :=
      Function.update_of_ne hne _ _
    rw [openConnection, hsame]
    rfl

/-- `PostAccept` leaves a new socket or none, and an accept on the new one at most. -/
theorem postAccept_cases (i : Fin n) (curTimeSec : Int64) (wsaSocket acceptEx : Bool) :
    (∃ client : ClientInfo, (client.mSock = none ∨ client.mSock = some s.sockets) ∧
      s.postAccept i curTimeSec wsaSocket acceptEx = s.newSocket i client) ∨
    ∃ client : ClientInfo, client.mSock = some s.sockets ∧
      s.postAccept i curTimeSec wsaSocket acceptEx =
        (s.newSocket i client).post ⟨.accept, i, i, s.sockets⟩ := by
  cases wsaSocket with
  | false => exact .inl ⟨⟨none, uint32Max⟩, .inl rfl, rfl⟩
  | true =>
    cases acceptEx with
    | false => exact .inl ⟨⟨some s.sockets, uint32Max⟩, .inr rfl, rfl⟩
    | true => exact .inr ⟨⟨some s.sockets, uint32Max⟩, rfl, rfl⟩

theorem keyOf_accept {op : Overlapped n} (haccept : op.m_eOperation = .accept) :
    s.keyOf op = none := if_pos haccept

theorem getClientInfo_poster (i : Fin n) : getClientInfo n i = some i := by
  rw [getClientInfo, dif_pos i.isLt]

/-- One more call for a slot -/
theorem mem_update_append {calls : Fin n → List Call} {c c' : Call} {j : Fin n} :
    c ∈ Function.update calls i (calls i ++ [c']) j ↔ c ∈ calls j ∨ j = i ∧ c = c' := by
  rcases eq_or_ne j i with rfl | hne
  · simp
  · simp [hne]

theorem mem_update_of_mem {calls : Fin n → List Call} {c c' : Call} {j : Fin n}
    (h : c ∈ calls j) : c ∈ Function.update calls i (calls i ++ [c']) j :=
  mem_update_append.mpr (.inl h)

theorem closeSocket_mSock {j : Fin n} {k' : ℕ}
    (hj : ((s.closeSocket i k).mClientInfos j).mSock = some k') :
    j ≠ i ∧ (s.mClientInfos j).mSock = some k' := by
  rcases update_mSock hj with ⟨-, hclosed⟩ | hold
  · cases hclosed
  · exact hold

theorem closeSocket_openConnection (j : Fin n) :
    (s.closeSocket i k).openConnection j = if j = i then none else s.openConnection j := by
  split_ifs with hj
  · rw [hj]
    exact openConnection_eq_none fun k' hk' => absurd rfl (closeSocket_mSock hk').1
  · have hclient : (s.closeSocket i k).mClientInfos j = s.mClientInfos j :=
      Function.update_of_ne hj _ _
    rw [openConnection, hclient]
    rfl

end IOCPServer
end ChatServer.Network
