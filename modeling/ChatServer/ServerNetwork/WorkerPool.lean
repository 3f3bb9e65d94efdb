import ChatServer.ServerNetwork.WokerThread

/-! # Worker threads

The calls that `WokerThread` makes in one turn are steps of their own here, so that the
workers may overtake each other between them: the first receive is posted before
`OnConnect` is called, and the socket is closed before `OnClose` is.
-/

namespace ChatServer.Network

/-- What a worker does next. It waits in `GetQueuedCompletionStatus` or is before one of
the calls of its turn; `connection` is the one whose completion it has taken. -/
inductive WorkerTurn (n : ℕ) where
  | waiting
  | acceptCompletion (i : Fin n) (connection : ℕ)
  | onConnect (i : Fin n) (connection : ℕ)
  | close (i : Fin n) (connection : ℕ)
  | onClose (i : Fin n) (connection : ℕ)
  | bindRecv (i : Fin n)
  | sendCompleted (i : Fin n)
  deriving DecidableEq

namespace IOCPServer
variable {n : ℕ}

/-- `ClientInfo::Close` in `CloseSocket` -/
def close (s : IOCPServer n) (i : Fin n) : IOCPServer n :=
  { s with mClientInfos := Function.update s.mClientInfos i (s.mClientInfos i).close }

def onClose (s : IOCPServer n) (i : Fin n) (connection : ℕ) : IOCPServer n :=
  { s with calls := Function.update s.calls i (s.calls i ++ [.onClose connection]) }

/-- A completion is taken, and the branch of `WokerThread` is chosen. With a null pointer
nothing is done any more. -/
def getQueuedCompletionStatus (s : IOCPServer n) (op : Overlapped n) (bSuccess : Bool)
    (dwIoSize : ℕ) : Option (IOCPServer n × WorkerTurn n) :=
  let pClientInfo := s.keyOf op
  if bSuccess = false ∨ dwIoSize = 0 ∧ op.m_eOperation ≠ .accept then
    match pClientInfo with
    | some i => some (s.take op pClientInfo, .close i op.connection)
    | none => some (s.take op none, .waiting)
  else
    match op.m_eOperation with
    | .accept =>
      match getClientInfo n op.sessionIndex with
      | some i =>
        let s := s.take op (some i)
        some ({ s with connected := s.connected ++ [op.connection] },
          .acceptCompletion i op.connection)
      | none => none
    | .recv =>
      match pClientInfo with
      | some i => some (s.take op pClientInfo, .bindRecv i)
      | none => some (s.take op none, .waiting)
    | .send =>
      match pClientInfo with
      | some i => some (s.take op pClientInfo, .sendCompleted i)
      | none => some (s.take op none, .waiting)

/-- The next call of a turn, and what is left of the turn after it -/
def resume (s : IOCPServer n) (wsaResult : Bool) :
    WorkerTurn n → Option (IOCPServer n × WorkerTurn n)
  | .waiting => none
  | .acceptCompletion i connection =>
    match s.acceptCompletion i wsaResult with
    | (s, true) => some (s, .onConnect i connection)
    | (s, false) => some (s, .close i connection)
  | .onConnect i connection => some (s.onConnect i connection, .waiting)
  | .close i connection => some (s.close i, .onClose i connection)
  | .onClose i connection => some (s.onClose i connection, .waiting)
  | .bindRecv i => some ((s.bindRecv i wsaResult).1, .waiting)
  | .sendCompleted i => (s.sendCompleted i wsaResult).map (·, .waiting)

/-- The rest of a turn that no other thread interrupts, in this many calls -/
def finish (wsaResult : Bool) : ℕ → IOCPServer n × WorkerTurn n → Option (IOCPServer n)
  | _, (s, .waiting) => some s
  | 0, _ => none
  | calls + 1, (s, turn) => (s.resume wsaResult turn).bind (finish wsaResult calls)

end IOCPServer

/-- The calls of a turn, one after the other, make up the turn of `WokerThread`. -/
theorem IOCPServer.wokerThread_eq {n : ℕ} (s : IOCPServer n) (op : Overlapped n) (bSuccess : Bool)
    (dwIoSize : ℕ) (wsaResult : Bool) : s.wokerThread op bSuccess dwIoSize wsaResult =
      (s.getQueuedCompletionStatus op bSuccess dwIoSize).bind (finish wsaResult 3) := by
  rw [wokerThread, getQueuedCompletionStatus]
  by_cases hfailed : bSuccess = false ∨ dwIoSize = 0 ∧ op.m_eOperation ≠ .accept
  · simp only [if_pos hfailed]
    cases s.keyOf op <;> rfl
  · simp only [if_neg hfailed]
    rcases op with ⟨_ | _ | _, sessionIndex, poster, connection⟩
    · -- ACCEPT
      simp only
      cases getClientInfo n sessionIndex with
      | none => rfl
      | some i =>
        simp only [Option.bind_some, finish, resume]
        rcases IOCPServer.acceptCompletion _ i wsaResult with ⟨t, _ | _⟩ <;> rfl
    · -- RECV
      simp only
      cases s.keyOf _ <;> rfl
    · -- SEND
      simp only
      cases s.keyOf _ with
      | none => rfl
      | some i =>
        simp only [Option.bind_some, finish, resume]
        cases IOCPServer.sendCompleted _ i wsaResult <;> rfl

/-- The network and the worker threads, of which there are `w` -/
structure WorkerPool (n w : ℕ) extends IOCPServer n where
  mIOWorkerThreads : Fin w → WorkerTurn n

/-- What happens: a step of the other threads, a completion that a worker takes, or the
next call of a worker. -/
inductive WorkerEvent (n w : ℕ) where
  | accepterThread (i : Fin n) (curTimeSec : Int64) (wsaSocket acceptEx : Bool)
  | sendMsg (i : Fin n) (wsaSend : Bool)
  | completion (worker : Fin w) (op : Overlapped n) (bSuccess : Bool) (dwIoSize : ℕ)
  | resume (worker : Fin w) (wsaResult : Bool)

namespace WorkerPool
variable {n w : ℕ}

def init (n w : ℕ) : WorkerPool n w where
  toIOCPServer := .init n
  mIOWorkerThreads := fun _ => .waiting

/-- A worker has made a step. -/
def next (s : WorkerPool n w) (worker : Fin w) (r : IOCPServer n × WorkerTurn n) :
    WorkerPool n w where
  toIOCPServer := r.1
  mIOWorkerThreads := Function.update s.mIOWorkerThreads worker r.2

/-- Nothing follows the use of a null pointer. A receive or a send is reported to the
completion port once its socket is bound to it. -/
def step (s : WorkerPool n w) (e : WorkerEvent n w) : Option (WorkerPool n w) :=
  if s.handled.any (·.2.isNone) then none
  else
    match e with
    | .accepterThread i curTimeSec wsaSocket acceptEx =>
      if (s.mClientInfos i).accepterTest curTimeSec then
        some { s with toIOCPServer := s.postAccept i curTimeSec wsaSocket acceptEx }
      else none
    | .sendMsg i wsaSend => some { s with toIOCPServer := s.sendMsg i wsaSend }
    | .completion worker op bSuccess dwIoSize =>
      if op ∈ s.outstanding ∧ s.mIOWorkerThreads worker = .waiting ∧
          (op.m_eOperation = .accept ∨ (s.completionKey op.connection).isSome) then
        (s.getQueuedCompletionStatus op bSuccess dwIoSize).map (s.next worker)
      else none
    | .resume worker wsaResult =>
      (s.resume wsaResult (s.mIOWorkerThreads worker)).map (s.next worker)

/-- Some worker is at this point of its turn. -/
def Pending (s : WorkerPool n w) (turn : WorkerTurn n) : Prop :=
  ∃ worker, s.mIOWorkerThreads worker = turn

instance (s : WorkerPool n w) (turn : WorkerTurn n) : Decidable (s.Pending turn) :=
  inferInstanceAs (Decidable (∃ worker, s.mIOWorkerThreads worker = turn))

/-- A worker is still to announce this connection. -/
def Announcing (s : WorkerPool n w) (i : Fin n) (k : ℕ) : Prop :=
  s.Pending (.acceptCompletion i k) ∨ s.Pending (.onConnect i k)

end WorkerPool

/-! ## The calls that workers are to make -/

/-- The slot and the connection that a call of a turn is about -/
def WorkerTurn.call {n : ℕ} : WorkerTurn n → Option (Fin n × ℕ)
  | .acceptCompletion i k | .onConnect i k | .close i k | .onClose i k => some (i, k)
  | .waiting | .bindRecv _ | .sendCompleted _ => none

namespace WorkerPool
variable {n w : ℕ} {s s' : WorkerPool n w} {i : Fin n} {k : ℕ} {worker : Fin w}
  {turn : WorkerTurn n} {r : IOCPServer n × WorkerTurn n} {owner : ℕ → Option (Fin n)}

/-- No two workers are at the same call for the same connection. -/
def Distinct (s : WorkerPool n w) : Prop :=
  ∀ a b, s.mIOWorkerThreads a = s.mIOWorkerThreads b → (s.mIOWorkerThreads a).call ≠ none → a = b

/-- The call that was made is not pending any more, and the next one is. -/
theorem Distinct.pending_next (h : s.Distinct) (worker : Fin w) (r : IOCPServer n × WorkerTurn n)
    {c : Fin n × ℕ} (hturn : turn.call = some c) :
    (s.next worker r).Pending turn ↔
      turn = r.2 ∨ s.Pending turn ∧ turn ≠ s.mIOWorkerThreads worker := by
  constructor
  · rintro ⟨b, hb⟩
    change Function.update s.mIOWorkerThreads worker r.2 b = turn at hb
    rcases eq_or_ne b worker with rfl | hne
    · rw [Function.update_self] at hb
      exact .inl hb.symm
    · rw [Function.update_of_ne hne] at hb
      refine .inr ⟨⟨b, hb⟩, fun heq => hne (h b worker (hb.trans heq) ?_)⟩
      rw [hb, hturn]
      exact Option.some_ne_none c
  · rintro (rfl | ⟨⟨b, hb⟩, hne⟩)
    · exact ⟨worker, Function.update_self _ _ _⟩
    · refine ⟨b, ?_⟩
      have hb' : b ≠ worker := by
        rintro rfl
        exact hne hb.symm
      exact (Function.update_of_ne hb' _ _).trans hb

/-- At the first step of a turn nothing that was pending is done. -/
theorem Distinct.pending_start (h : s.Distinct) (r : IOCPServer n × WorkerTurn n)
    (hold : (s.mIOWorkerThreads worker).call = none) {c : Fin n × ℕ} (hturn : turn.call = some c) :
    (s.next worker r).Pending turn ↔ turn = r.2 ∨ s.Pending turn := by
  rw [h.pending_next worker r hturn, and_iff_left]
  rintro rfl
  rw [hold] at hturn
  cases hturn

/-- At its last step nothing is added. -/
theorem Distinct.pending_end (h : s.Distinct) (worker : Fin w) (network : IOCPServer n)
    {c : Fin n × ℕ} (hturn : turn.call = some c) :
    (s.next worker (network, .waiting)).Pending turn ↔
      s.Pending turn ∧ turn ≠ s.mIOWorkerThreads worker := by
  rw [h.pending_next worker (network, .waiting) hturn, or_iff_right]
  rintro rfl
  cases hturn

theorem Distinct.next (h : s.Distinct) (hnew : r.2.call ≠ none → ¬s.Pending r.2) :
    (s.next worker r).Distinct := by
  intro a b hab hcall
  change Function.update s.mIOWorkerThreads worker r.2 a =
    Function.update s.mIOWorkerThreads worker r.2 b at hab
  change (Function.update s.mIOWorkerThreads worker r.2 a).call ≠ none at hcall
  rcases eq_or_ne a worker with rfl | ha
  · rcases eq_or_ne b a with rfl | hb
    · rfl
    · rw [Function.update_self, Function.update_of_ne hb] at hab
      rw [Function.update_self] at hcall
      exact absurd ⟨b, hab.symm⟩ (hnew hcall)
  · rw [Function.update_of_ne ha] at hab hcall
    rcases eq_or_ne b worker with rfl | hb
    · rw [Function.update_self] at hab
      rw [hab] at hcall
      exact absurd ⟨a, hab⟩ (hnew hcall)
    · rw [Function.update_of_ne hb] at hab
      exact h a b hab hcall

end WorkerPool
end ChatServer.Network
