import ChatServer.Packet
import ChatServer.Library.Run

/-! # The send queue of a `ClientInfo`

`SendMsg` appends to `mSendDataqueue` and starts a send only when the queue was
empty; the next one starts when a send completes. `Close` leaves the queue as it
is, and a call of `WSASend` that fails is not repeated.
-/

namespace ChatServer
open Recorded

/-- `mSock`: no socket, a socket that waits in `AcceptEx`, or one with an established
connection. -/
inductive Socket where
  | invalid | accepting | connected
  deriving DecidableEq, Repr

/-- A heap-allocated `stOverlappedEx` for a send. `serial` stands for its address, and
`connection` is the number of the connection that was open when `SendMsg` queued it,
which the program does not keep. -/
structure OverlappedEx where
  serial : ℕ
  m_wsaBuf : Bytes
  connection : Option ℕ
  deriving DecidableEq

/-- Outcome of a call of `WSASend`; the first two are reported by a completion later. -/
inductive WSAResult where
  | success | pending | failure
  deriving DecidableEq, Repr

/-- One `ClientInfo` with the sends that the system has accepted and not completed.
The last three fields record the history: how many connections there were, what was
queued, and what was handed to `WSASend` during which connection. -/
structure ClientInfo where
  mSock : Socket
  mSendDataqueue : List OverlappedEx
  outstanding : List OverlappedEx
  connections : ℕ
  queued : List OverlappedEx
  handed : List (ℕ × OverlappedEx)

namespace ClientInfo

def init : ClientInfo :=
  { mSock := .invalid, mSendDataqueue := [], outstanding := [], connections := 0
    queued := [], handed := [] }

/-- The number of the connection that is open. -/
def connection (c : ClientInfo) : Option ℕ :=
  if c.mSock = .connected then some c.connections else none

/-- `ClientInfo::SendIO` with the given outcome of `WSASend`, which cannot accept a
send on a socket that is not connected. -/
def sendIO (c : ClientInfo) (result : WSAResult) : Option ClientInfo :=
  match c.mSendDataqueue with
  | [] => none
  | front :: _ =>
    if result ≠ .failure ∧ c.mSock ≠ .connected then none
    else
      some { c with
        outstanding := if result = .failure then c.outstanding else c.outstanding ++ [front]
        handed := match c.connection with
          | some k => c.handed ++ [(k, front)]
          | none => c.handed }

/-- `ClientInfo::SendMsg` -/
def sendMsg (c : ClientInfo) (pMsg : Bytes) (result : WSAResult) : Option ClientInfo :=
  let sendOverlappedEx :=
    { serial := c.queued.length, m_wsaBuf := pMsg, connection := c.connection }
  let c := { c with
    mSendDataqueue := c.mSendDataqueue ++ [sendOverlappedEx]
    queued := c.queued ++ [sendOverlappedEx] }
  if c.mSendDataqueue.length = 1 then sendIO c result else some c

/-- `ClientInfo::SendCompleted`: it deletes the front of the queue, and has no defined
behaviour when there is none. -/
def sendCompleted (c : ClientInfo) (result : WSAResult) : Option ClientInfo :=
  match c.mSendDataqueue with
  | [] => none
  | _ :: rest =>
    let c := { c with mSendDataqueue := rest }
    if rest.isEmpty then some c else sendIO c result

/-- `ClientInfo::Close` -/
def close (c : ClientInfo) : ClientInfo := { c with mSock := .invalid }

end ClientInfo

/-- What happens to a slot. `sendCompletion` is a completion taken by `WokerThread` for
an outstanding send; when it reports an error or no bytes the socket is closed. -/
inductive SendEvent where
  | postAccept
  | acceptCompletion
  | sendMsg (pMsg : Bytes) (result : WSAResult)
  | sendCompletion (op : OverlappedEx) (ok : Bool) (result : WSAResult)
  | close

namespace ClientInfo

/-- `AccepterThread` reuses a slot whose socket was closed. -/
def step (c : ClientInfo) : SendEvent → Option ClientInfo
  | .postAccept => if c.mSock = .invalid then some { c with mSock := .accepting } else none
  | .acceptCompletion =>
    if c.mSock = .accepting then
      some { c with mSock := .connected, connections := c.connections + 1 }
    else none
  | .sendMsg pMsg result => c.sendMsg pMsg result
  | .sendCompletion op ok result =>
    if op ∈ c.outstanding then
      let c := { c with outstanding := c.outstanding.erase op }
      if ok then c.sendCompleted result else some c.close
    else none
  | .close => some c.close

/-- What `SendMsg` queued during a connection, in order. -/
def queuedIn (queued : List OverlappedEx) (k : ℕ) : List OverlappedEx :=
  queued.filter fun op => op.connection = some k

/-- What `WSASend` was given during a connection, in order. -/
def handedIn (handed : List (ℕ × OverlappedEx)) (k : ℕ) : List OverlappedEx :=
  (handed.filter fun h => h.1 = k).map Prod.snd

/-- Every buffer handed over during a connection was queued during it, in order and
with none skipped; on a connected slot the front of the queue is being sent. -/
structure Delivers (c : ClientInfo) : Prop where
  own : ∀ h ∈ c.handed, h.2.connection = some h.1
  inOrder : ∀ k, handedIn c.handed k <+: queuedIn c.queued k
  live : c.mSock = .connected → ∀ front rest, c.mSendDataqueue = front :: rest →
    front ∈ c.outstanding

/-- No call of `WSASend` fails on a connected slot, and a connection is established
with an empty queue or with the one buffer that is still being sent. -/
def KeepsSending (c : ClientInfo) : SendEvent → Prop
  | .acceptCompletion => c.mSendDataqueue = [] ∨
      c.mSendDataqueue.length = 1 ∧ c.outstanding = c.mSendDataqueue
  | .sendMsg _ result =>
      c.mSock = .connected → c.mSendDataqueue = [] → result ≠ .failure
  | .sendCompletion _ true result =>
      c.mSock = .connected → 2 ≤ c.mSendDataqueue.length → result ≠ .failure
  | _ => True

instance (c : ClientInfo) : DecidablePred c.KeepsSending := by
  intro e
  unfold KeepsSending
  split <;> infer_instance

/-! ## The invariant -/

/-- At most the front of the queue is outstanding. On a connected slot it is, and
behind it stands what was queued during the connection and not yet handed over. -/
structure Inv (c : ClientInfo) : Prop where
  outstanding : c.outstanding = [] ∨
    ∃ front rest, c.mSendDataqueue = front :: rest ∧ c.outstanding = [front]
  queued_le : ∀ op ∈ c.queued, ∀ k, op.connection = some k → k ≤ c.connections
  handed_le : ∀ h ∈ c.handed, h.1 ≤ c.connections
  inOrder : ∀ k, handedIn c.handed k <+: queuedIn c.queued k
  sending : c.mSock = .connected → c.outstanding = c.mSendDataqueue.head?.toList ∧
    queuedIn c.queued c.connections =
      handedIn c.handed c.connections ++ c.mSendDataqueue.tail

variable {c c' : ClientInfo} {e : SendEvent} {result : WSAResult}

theorem init_inv : init.Inv where
  outstanding := .inl rfl
  queued_le _ h := absurd h List.not_mem_nil
  handed_le _ h := absurd h List.not_mem_nil
  inOrder _ := List.prefix_rfl
  sending h := nomatch h

theorem Inv.delivers (h : c.Inv) : c.Delivers where
  own := by
    rintro ⟨k, op⟩ hmem
    have hop : op ∈ handedIn c.handed k :=
      List.mem_map.mpr ⟨(k, op), List.mem_filter.mpr ⟨hmem, by simp⟩, rfl⟩
    have := List.mem_filter.mp ((h.inOrder k).subset hop)
    simpa using this.2
  inOrder := h.inOrder
  live hsock front rest hqueue := by
    rw [(h.sending hsock).1, hqueue]
    simp

theorem connection_of_connected (h : c.mSock = .connected) : c.connection = some c.connections :=
  if_pos h

theorem connection_of_not_connected (h : c.mSock ≠ .connected) : c.connection = none := if_neg h

theorem queuedIn_append (ops : List OverlappedEx) (op : OverlappedEx) (k : ℕ) :
    queuedIn (ops ++ [op]) k = queuedIn ops k ++ if op.connection = some k then [op] else [] := by
  simp only [queuedIn, List.filter_append, List.filter_cons, List.filter_nil, decide_eq_true_eq]

theorem handedIn_append (ops : List (ℕ × OverlappedEx)) (j : ℕ) (op : OverlappedEx) (k : ℕ) :
    handedIn (ops ++ [(j, op)]) k = handedIn ops k ++ if j = k then [op] else [] := by
  simp only [handedIn, List.filter_append, List.map_append, List.filter_cons, List.filter_nil,
    decide_eq_true_eq]
  split_ifs <;> rfl

/-- Nothing can have been queued or handed over during a connection still to come. -/
theorem Inv.queuedIn_next (h : c.Inv) : queuedIn c.queued (c.connections + 1) = [] := by
  apply List.filter_eq_nil_iff.mpr
  intro op hop hk
  have := h.queued_le op hop _ (by simpa using hk)
  omega

theorem Inv.handedIn_next (h : c.Inv) : handedIn c.handed (c.connections + 1) = [] := by
  have := h.inOrder (c.connections + 1)
  rw [h.queuedIn_next] at this
  exact List.prefix_nil.mp this

/-! ## One step -/

/-- Off a connection `SendIO` achieves nothing. -/
theorem sendIO_of_not_connected (hsock : c.mSock ≠ .connected) (h : sendIO c result = some c') :
    c' = c := by
  unfold sendIO at h
  cases hqueue : c.mSendDataqueue with
  | nil => simp [hqueue] at h
  | cons front rest =>
    simp only [hqueue, connection_of_not_connected hsock, ne_eq, hsock, not_false_eq_true,
      and_true] at h
    by_cases hfail : result = .failure
    · simp only [hfail, not_true_eq_false, if_false, if_true, Option.some.injEq] at h
      rw [← h, ← hqueue]
    · simp [hfail] at h

theorem sendIO_of_connected (hsock : c.mSock = .connected) (hresult : result ≠ .failure)
    {front : OverlappedEx} {rest : List OverlappedEx} (hqueue : c.mSendDataqueue = front :: rest) :
    sendIO c result = some { c with
      outstanding := c.outstanding ++ [front]
      handed := c.handed ++ [(c.connections, front)] } := by
  simp [hqueue, hsock, hresult, connection_of_connected hsock, sendIO]

theorem Inv.postAccept (h : c.Inv) : Inv { c with mSock := .accepting } :=
  { h with sending := nofun }

theorem Inv.close (h : c.Inv) : c.close.Inv := { h with sending := nofun }

theorem Inv.acceptCompletion (h : c.Inv) (hkeep : c.KeepsSending .acceptCompletion) :
    Inv { c with mSock := .connected, connections := c.connections + 1 } where
  outstanding := h.outstanding
  queued_le op hop k hk := (h.queued_le op hop k hk).trans (Nat.le_succ _)
  handed_le x hx := (h.handed_le x hx).trans (Nat.le_succ _)
  inOrder := h.inOrder
  sending _ := by
    rw [h.queuedIn_next, h.handedIn_next]
    rcases hkeep with hempty | ⟨hlength, hout⟩
    · rcases h.outstanding with hnone | ⟨front, rest, hqueue, -⟩
      · simp [hempty, hnone]
      · simp [hempty] at hqueue
    · rcases List.length_eq_one_iff.mp hlength with ⟨front, hqueue⟩
      simp [hout, hqueue]

/-- A connected slot with nothing outstanding. Its queue holds what was queued during
the connection and not yet handed over. -/
structure Ready (c : ClientInfo) : Prop where
  connected : c.mSock = .connected
  outstanding : c.outstanding = []
  queued_le : ∀ op ∈ c.queued, ∀ k, op.connection = some k → k ≤ c.connections
  handed_le : ∀ h ∈ c.handed, h.1 ≤ c.connections
  inOrder : ∀ k, handedIn c.handed k <+: queuedIn c.queued k
  waiting : queuedIn c.queued c.connections =
    handedIn c.handed c.connections ++ c.mSendDataqueue

/-- With nothing to send, a ready slot is at rest. -/
theorem Ready.inv_of_nil (h : c.Ready) (hqueue : c.mSendDataqueue = []) : c.Inv where
  outstanding := .inl h.outstanding
  queued_le := h.queued_le
  handed_le := h.handed_le
  inOrder := h.inOrder
  sending _ := by
    have hwaiting := h.waiting
    rw [hqueue] at hwaiting ⊢
    exact ⟨h.outstanding, hwaiting⟩

/-- `SendIO` hands the front of the queue over. -/
theorem Ready.handOver (h : c.Ready) (hresult : result ≠ .failure) {front : OverlappedEx}
    {rest : List OverlappedEx} (hqueue : c.mSendDataqueue = front :: rest)
    (hstep : sendIO c result = some c') : c'.Inv := by
  rw [sendIO_of_connected h.connected hresult hqueue, h.outstanding] at hstep
  obtain rfl := Option.some.inj hstep
  have hwaiting := h.waiting
  rw [hqueue] at hwaiting
  constructor
  · exact .inr ⟨front, rest, hqueue, rfl⟩
  · exact h.queued_le
  · intro x hx
    rcases List.mem_append.mp hx with hold | hnew
    · exact h.handed_le x hold
    · rw [List.mem_singleton.mp hnew]
  · intro k
    rw [handedIn_append]
    split_ifs with hk
    · rw [← hk, hwaiting]
      exact (List.prefix_append_right_inj _).mpr ⟨rest, rfl⟩
    · rw [List.append_nil]
      exact h.inOrder k
  · intro _
    rw [handedIn_append, if_pos rfl, hqueue, hwaiting]
    exact ⟨rfl, by simp⟩

/-! ## Queueing -/

/-- What `SendMsg` pushes. -/
def overlappedEx (c : ClientInfo) (pMsg : Bytes) : OverlappedEx :=
  { serial := c.queued.length, m_wsaBuf := pMsg, connection := c.connection }

/-- The slot after `SendMsg` has pushed and before it starts a send. -/
def push (c : ClientInfo) (op : OverlappedEx) : ClientInfo :=
  { c with mSendDataqueue := c.mSendDataqueue ++ [op], queued := c.queued ++ [op] }

/-- `SendMsg` starts a send exactly if the queue was empty. -/
theorem sendMsg_eq (c : ClientInfo) (pMsg : Bytes) (result : WSAResult) :
    c.sendMsg pMsg result =
      if c.mSendDataqueue = [] then sendIO (c.push (c.overlappedEx pMsg)) result
      else some (c.push (c.overlappedEx pMsg)) := by
  have hsize : (c.mSendDataqueue ++ [c.overlappedEx pMsg]).length = 1 ↔
      c.mSendDataqueue = [] := by simp
  simp only [← hsize]
  rfl

theorem connection_le {k : ℕ} (h : c.connection = some k) : k ≤ c.connections := by
  unfold connection at h
  split_ifs at h
  exact (Option.some.inj h).ge

theorem Inv.queued_le_push (h : c.Inv) (pMsg : Bytes) :
    ∀ op ∈ (c.push (c.overlappedEx pMsg)).queued, ∀ k, op.connection = some k →
      k ≤ c.connections := by
  intro op hop k hk
  rcases List.mem_append.mp hop with hold | hnew
  · exact h.queued_le op hold k hk
  · rw [List.mem_singleton.mp hnew] at hk
    exact connection_le hk

theorem Inv.inOrder_push (h : c.Inv) (op : OverlappedEx) (k : ℕ) :
    handedIn (c.push op).handed k <+: queuedIn (c.push op).queued k := by
  rw [push, queuedIn_append]
  exact (h.inOrder k).trans (List.prefix_append _ _)

/-- Queueing off a connection leaves a buffer that belongs to none. -/
theorem Inv.sendMsg_of_not_connected (h : c.Inv) (hsock : c.mSock ≠ .connected) {pMsg : Bytes}
    (hstep : c.sendMsg pMsg result = some c') : c'.Inv := by
  have hpushed : c' = c.push (c.overlappedEx pMsg) := by
    rw [sendMsg_eq] at hstep
    split_ifs at hstep
    · exact sendIO_of_not_connected hsock hstep
    · exact (Option.some.inj hstep).symm
  rw [hpushed]
  refine ⟨?_, h.queued_le_push pMsg, h.handed_le, h.inOrder_push _, fun hs => absurd hs hsock⟩
  rcases h.outstanding with hout | ⟨front, rest, hqueue, hout⟩
  · exact .inl hout
  · exact .inr ⟨front, rest ++ [c.overlappedEx pMsg], by simp [push, hqueue], hout⟩

/-- On a connection the buffer is handed over at once, if nothing is being sent. -/
theorem Inv.ready_push (h : c.Inv) (hsock : c.mSock = .connected) (hqueue : c.mSendDataqueue = [])
    (pMsg : Bytes) : (c.push (c.overlappedEx pMsg)).Ready := by
  rcases h.sending hsock with ⟨hout, hsplit⟩
  rw [hqueue] at hout hsplit
  refine ⟨hsock, hout, h.queued_le_push pMsg, h.handed_le, h.inOrder_push _, ?_⟩
  have hown : (c.overlappedEx pMsg).connection = some c.connections := connection_of_connected hsock
  simp only [push, queuedIn_append, hown, if_true, hsplit, hqueue, List.tail_nil, List.append_nil,
    List.nil_append]

/-- Otherwise it waits behind the one being sent. -/
theorem Inv.push (h : c.Inv) (hsock : c.mSock = .connected) {front : OverlappedEx}
    {rest : List OverlappedEx} (hqueue : c.mSendDataqueue = front :: rest) (pMsg : Bytes) :
    (c.push (c.overlappedEx pMsg)).Inv := by
  rcases h.sending hsock with ⟨hout, hsplit⟩
  rw [hqueue] at hout hsplit
  have hown : (c.overlappedEx pMsg).connection = some c.connections := connection_of_connected hsock
  have hqueue' : (c.push (c.overlappedEx pMsg)).mSendDataqueue =
      front :: (rest ++ [c.overlappedEx pMsg]) := by simp [ClientInfo.push, hqueue]
  refine ⟨.inr ⟨front, _, hqueue', hout⟩, h.queued_le_push pMsg, h.handed_le, h.inOrder_push _, ?_⟩
  intro _
  rw [hqueue']
  refine ⟨hout, ?_⟩
  simp only [ClientInfo.push, queuedIn_append, hown, if_true, hsplit, List.tail_cons,
    List.append_assoc]

theorem Inv.sendMsg_of_connected (h : c.Inv) (hsock : c.mSock = .connected) {pMsg : Bytes}
    (hkeep : c.KeepsSending (.sendMsg pMsg result)) (hstep : c.sendMsg pMsg result = some c') :
    c'.Inv := by
  rw [sendMsg_eq] at hstep
  cases hqueue : c.mSendDataqueue with
  | nil =>
    rw [if_pos hqueue] at hstep
    have hfront : (c.push (c.overlappedEx pMsg)).mSendDataqueue = [c.overlappedEx pMsg] := by
      simp [ClientInfo.push, hqueue]
    exact (h.ready_push hsock hqueue pMsg).handOver (hkeep hsock hqueue) hfront hstep
  | cons front rest =>
    rw [if_neg (by simp [hqueue])] at hstep
    obtain rfl := Option.some.inj hstep
    exact h.push hsock hqueue pMsg

/-! ## Completions -/

/-- The slot after the send of its front has completed, with the rest of the queue. -/
def pop (c : ClientInfo) (rest : List OverlappedEx) : ClientInfo :=
  { c with mSendDataqueue := rest, outstanding := [] }

theorem Inv.ready_pop (h : c.Inv) (hsock : c.mSock = .connected) {front : OverlappedEx}
    {rest : List OverlappedEx} (hqueue : c.mSendDataqueue = front :: rest) : (c.pop rest).Ready := by
  refine ⟨hsock, rfl, h.queued_le, h.handed_le, h.inOrder, ?_⟩
  have hsplit := (h.sending hsock).2
  rw [hqueue] at hsplit
  exact hsplit

/-- The front of the queue has been sent: it is deleted and the next one handed over. -/
theorem Inv.sendCompleted (h : c.Inv) {front : OverlappedEx} {rest : List OverlappedEx}
    (hqueue : c.mSendDataqueue = front :: rest)
    (hkeep : c.mSock = .connected → 2 ≤ c.mSendDataqueue.length → result ≠ .failure)
    (hstep : ClientInfo.sendCompleted { c with outstanding := [] } result = some c') : c'.Inv := by
  have hstep : (if rest.isEmpty then some (c.pop rest) else sendIO (c.pop rest) result) =
      some c' := by
    simpa [ClientInfo.sendCompleted, hqueue, pop] using hstep
  by_cases hsock : c.mSock = .connected
  · have hready := h.ready_pop hsock hqueue
    cases rest with
    | nil =>
      obtain rfl : c.pop [] = c' := Option.some.inj hstep
      exact hready.inv_of_nil rfl
    | cons next others => exact hready.handOver (hkeep hsock (by simp [hqueue])) rfl hstep
  · have hpopped : c' = c.pop rest := by
      split_ifs at hstep
      · exact (Option.some.inj hstep).symm
      · exact sendIO_of_not_connected hsock hstep
    rw [hpopped]
    exact ⟨.inl rfl, h.queued_le, h.handed_le, h.inOrder, fun hs => absurd hs hsock⟩

theorem Inv.step (h : c.Inv) (hkeep : c.KeepsSending e) (hstep : c.step e = some c') : c'.Inv := by
  cases e with
  | postAccept =>
    simp only [ClientInfo.step, Option.ite_none_right_eq_some, Option.some.injEq] at hstep
    rcases hstep with ⟨-, rfl⟩
    exact h.postAccept
  | acceptCompletion =>
    simp only [ClientInfo.step, Option.ite_none_right_eq_some, Option.some.injEq] at hstep
    rcases hstep with ⟨-, rfl⟩
    exact h.acceptCompletion hkeep
  | sendMsg pMsg result =>
    by_cases hsock : c.mSock = .connected
    · exact h.sendMsg_of_connected hsock hkeep hstep
    · exact h.sendMsg_of_not_connected hsock hstep
  | sendCompletion op ok result =>
    simp only [ClientInfo.step, Option.ite_none_right_eq_some] at hstep
    rcases hstep with ⟨hop, hstep⟩
    rcases h.outstanding with hnone | ⟨front, rest, hqueue, hout⟩
    · simp [hnone] at hop
    · obtain rfl : op = front := by simpa [hout] using hop
      rw [hout, List.erase_cons_head] at hstep
      cases ok with
      | true => exact h.sendCompleted hqueue hkeep hstep
      | false =>
        obtain rfl : ClientInfo.close { c with outstanding := [] } = c' := by simpa using hstep
        exact ⟨.inl rfl, h.queued_le, h.handed_le, h.inOrder, nofun⟩
  | close =>
    obtain rfl : c.close = c' := by simpa [ClientInfo.step] using hstep
    exact h.close

/-- In every run in which no call of `WSASend` fails on a connected slot and no
connection inherits unsent buffers, the queue delivers in every state. -/
theorem send_queue_delivers {past : List (Entry ClientInfo SendEvent)} {c : ClientInfo}
    (run : Run step init past c) (keeps : ∀ e ∈ past, e.pre.KeepsSending e.act) :
    init.Delivers ∧ ∀ e ∈ past, e.post.Delivers := by
  refine ⟨init_inv.delivers, atEach_const.mp ?_⟩
  refine run.atEach_of_invariant (C := fun _ e => e.pre.KeepsSending e.act)
    (P := fun _ c => c.Inv) init_inv ?_ ?_ (atEach_const.mpr keeps)
  · intro _ c e c' _ h hstep hkeep
    exact h.step hkeep hstep
  · intro _ c e c' _ h hstep hkeep
    exact (h.step hkeep hstep).delivers

/-- Two connections on one slot; the second begins while the last buffer of the first
is still being sent. -/
theorem send_queue_delivers_across_reuse : ∃ past c, Run step init past c ∧
    (∀ e ∈ past, e.post.Delivers) ∧
      c.handed.map (fun h => (h.1, h.2.m_wsaBuf)) = [(1, [1]), (1, [2]), (2, [3])] := by
  obtain ⟨past, c, run, h⟩ := exists_run step init
    [.postAccept, .acceptCompletion, .sendMsg [1] .pending, .sendMsg [2] .pending,
      .sendCompletion ⟨0, [1], some 1⟩ true .success, .close, .postAccept, .acceptCompletion,
      .sendMsg [3] .pending, .sendCompletion ⟨1, [2], some 1⟩ true .success]
    (fun past c => (∀ e ∈ past, e.pre.KeepsSending e.act) ∧
      c.handed.map (fun h => (h.1, h.2.m_wsaBuf)) = [(1, [1]), (1, [2]), (2, [3])])
    (by decide +kernel)
  rcases of_decide_eq_true h with ⟨hkeeps, hhanded⟩
  exact ⟨past, c, run, (send_queue_delivers run hkeeps).2, hhanded⟩

/-- A connection is closed while two buffers are queued and the send of the first is
aborted. The next connection on the slot queues a third one, and nothing is sent. -/
theorem leftover_buffers_stall_next_connection : ∃ past c, Run step init past c ∧
    c.mSock = .connected ∧ c.mSendDataqueue.map (·.m_wsaBuf) = [[1], [2], [3]] ∧
      c.outstanding = [] ∧ ¬c.Delivers := by
  obtain ⟨past, c, run, h⟩ := exists_run step init
    [.postAccept, .acceptCompletion, .sendMsg [1] .pending, .sendMsg [2] .pending, .close,
      .sendCompletion ⟨0, [1], some 1⟩ false .success, .postAccept, .acceptCompletion,
      .sendMsg [3] .pending]
    (fun _ c => c.mSock = .connected ∧ c.mSendDataqueue.map (·.m_wsaBuf) = [[1], [2], [3]] ∧
      c.outstanding = []) (by decide +kernel)
  rcases of_decide_eq_true h with ⟨hsock, hqueue, hout⟩
  refine ⟨past, c, run, hsock, hqueue, hout, fun hdelivers => ?_⟩
  cases hq : c.mSendDataqueue with
  | nil => simp [hq] at hqueue
  | cons front rest =>
    have := hdelivers.live hsock front rest hq
    simp [hout] at this

end ClientInfo
end ChatServer
