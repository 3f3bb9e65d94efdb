import ChatServer.ServerNetwork.SendQueue
import ChatServer.Library.ServiceQueue
import Mathlib.Data.List.Nodup

/-! # Sends that are outstanding

`SendCompleted` deletes the front of `mSendDataqueue` without looking at the operation
that completed. Here a worker first takes the report of a send off the port and then
handles it, and all other threads go on in between. `WSASend` may accept a send or
fail whatever the socket is.
-/

namespace ChatServer
open Recorded

/-- What `GetQueuedCompletionStatus` reports to a worker about a send. -/
structure SendReport where
  pOverlappedEx : OverlappedEx
  bSuccess : Bool
  dwIoSize : ℕ
  deriving DecidableEq

-- The membership tests below are decided by these instances, whatever is imported.
instance : LawfulBEq OverlappedEx := inferInstance
instance : LawfulBEq SendReport := inferInstance

/-- The test of `WokerThread` for a client that has gone -/
def SendReport.failed (r : SendReport) : Bool := r.bSuccess = false || r.dwIoSize = 0

/-- A `ClientInfo` with the reports that workers have taken and not yet handled. `freed`
are the operations that were deleted, and `wsaSends` those that `WSASend` was called
with, whatever its result. -/
structure SendClient extends ClientInfo where
  workers : List SendReport
  freed : List OverlappedEx
  wsaSends : List OverlappedEx

inductive SendClientEvent where
  | postAccept
  | acceptCompletion
  | sendMsg (pMsg : Bytes) (result : WSAResult)
  | getQueuedCompletionStatus (r : SendReport)
  | wokerThread (r : SendReport) (result : WSAResult)
  | close

namespace SendClient

def init : SendClient :=
  { toClientInfo := .init, workers := [], freed := [], wsaSends := [] }

/-- `mSendDataqueue.front()`, which has no defined value on an empty queue, and must not
be used when the operation was deleted. -/
def front (c : SendClient) : Option OverlappedEx :=
  match c.mSendDataqueue with
  | [] => none
  | sendOverlappedEx :: _ => if sendOverlappedEx ∈ c.freed then none else some sendOverlappedEx

/-- The slot after a call of `WSASend` -/
def wsaSend (c : SendClient) (sendOverlappedEx : OverlappedEx) (result : WSAResult) :
    SendClient :=
  { c with
    outstanding :=
      if result = .failure then c.outstanding else c.outstanding ++ [sendOverlappedEx]
    handed := match c.connection with
      | some k => c.handed ++ [(k, sendOverlappedEx)]
      | none => c.handed
    wsaSends := c.wsaSends ++ [sendOverlappedEx] }

/-- `ClientInfo::SendIO` -/
def sendIO (c : SendClient) (result : WSAResult) : Option SendClient :=
  c.front.map fun sendOverlappedEx => c.wsaSend sendOverlappedEx result

/-- `SendMsg` after `mSendDataqueue.push` -/
def push (c : SendClient) (pMsg : Bytes) : SendClient :=
  { c with toClientInfo := c.toClientInfo.push (c.overlappedEx pMsg) }

/-- `ClientInfo::SendMsg`, under `mSendLock` -/
def sendMsg (c : SendClient) (pMsg : Bytes) (result : WSAResult) : Option SendClient :=
  if (c.push pMsg).mSendDataqueue.length = 1 then sendIO (c.push pMsg) result
  else some (c.push pMsg)

/-- `SendCompleted` after `delete` and `mSendDataqueue.pop` -/
def pop (c : SendClient) (sendOverlappedEx : OverlappedEx) : SendClient :=
  { c with
    freed := c.freed ++ [sendOverlappedEx]
    mSendDataqueue := c.mSendDataqueue.tail }

/-- `ClientInfo::SendCompleted`, under `mSendLock` -/
def sendCompleted (c : SendClient) (result : WSAResult) : Option SendClient :=
  c.front.bind fun sendOverlappedEx =>
    if (c.pop sendOverlappedEx).mSendDataqueue.isEmpty then some (c.pop sendOverlappedEx)
    else sendIO (c.pop sendOverlappedEx) result

def close (c : SendClient) : SendClient :=
  { c with toClientInfo := c.toClientInfo.close }

/-- A worker takes the report of an outstanding send. -/
def getQueuedCompletionStatus (c : SendClient) (r : SendReport) : SendClient :=
  { c with
    outstanding := c.outstanding.erase r.pOverlappedEx
    workers := c.workers ++ [r] }

/-- The worker handles its report. -/
def wokerThread (c : SendClient) (r : SendReport) (result : WSAResult) : Option SendClient :=
  let c := { c with workers := c.workers.erase r }
  if r.failed then some c.close else c.sendCompleted result

/-- What can happen next: messages and closes at any time, a report of a send that is
outstanding, and the handling of a report that was taken. -/
def Enabled (c : SendClient) : SendClientEvent → Prop
  | .postAccept => c.mSock = .invalid
  | .acceptCompletion => c.mSock = .accepting
  | .getQueuedCompletionStatus r => r.pOverlappedEx ∈ c.outstanding
  | .wokerThread r _ => r ∈ c.workers
  | .sendMsg .. | .close => True

instance (c : SendClient) : DecidablePred c.Enabled
  | .postAccept => inferInstanceAs (Decidable (c.mSock = .invalid))
  | .acceptCompletion => inferInstanceAs (Decidable (c.mSock = .accepting))
  | .getQueuedCompletionStatus r => inferInstanceAs (Decidable (r.pOverlappedEx ∈ c.outstanding))
  | .wokerThread r _ => inferInstanceAs (Decidable (r ∈ c.workers))
  | .sendMsg .. | .close => instDecidableTrue

/-- There is no result where the behaviour of the program is not defined. -/
def perform (c : SendClient) : SendClientEvent → Option SendClient
  | .postAccept => some { c with mSock := .accepting }
  | .acceptCompletion => some { c with mSock := .connected, connections := c.connections + 1 }
  | .sendMsg pMsg result => c.sendMsg pMsg result
  | .getQueuedCompletionStatus r => some (c.getQueuedCompletionStatus r)
  | .wokerThread r result => c.wokerThread r result
  | .close => some c.close

def step (c : SendClient) (e : SendClientEvent) : Option SendClient :=
  if c.Enabled e then c.perform e else none

/-- The operations that are deleted when an event is handled -/
def freedBy : SendClientEvent → List OverlappedEx
  | .wokerThread r _ => if r.failed then [] else [r.pOverlappedEx]
  | _ => []

/-- The sends that are outstanding, or completed with a report that is not yet handled -/
def inFlight (c : SendClient) : List OverlappedEx :=
  c.outstanding ++ c.workers.map (·.pOverlappedEx)

/-- One send at most is in flight, and it is the front of the queue and not deleted.
Whatever happens next has defined behaviour; `SendCompleted` deletes the operation that
completed, nothing else deletes any, and none is deleted twice. Each operation is passed
to `WSASend` once at most, in the order of the queue and with none skipped. -/
structure OneSend (c : SendClient) : Prop where
  single : c.inFlight.length ≤ 1
  front : ∀ op ∈ c.inFlight, c.mSendDataqueue.head? = some op
  alive : ∀ op ∈ c.inFlight, op ∉ c.freed
  defined : ∀ e, c.Enabled e → ∃ c', c.step e = some c' ∧ c'.freed = c.freed ++ freedBy e
  freedOnce : c.freed.Nodup
  sentOnce : c.wsaSends.Nodup
  inOrder : c.wsaSends <+: c.queued

/-! ## The invariant -/

/-- The slot as a queue with one server: what was deleted is done, and what is queued
waits. -/
def line (c : SendClient) : ServiceQueue OverlappedEx :=
  { done := c.freed, waiting := c.mSendDataqueue }

/-- What `SendMsg` queued is what arrived at the line, and what `WSASend` was called with
is what was taken up; only the front can be in flight. -/
structure Inv (c : SendClient) : Prop where
  numbered : c.queued.map (·.serial) = List.range c.queued.length
  arrived : c.queued = c.line.arrived
  started : c.wsaSends = c.line.started
  single : c.inFlight.length ≤ 1
  front : ∀ op ∈ c.inFlight, c.line.front = some op

variable {c c' : SendClient} {e : SendClientEvent} {r : SendReport} {op : OverlappedEx}
  {result : WSAResult} {pMsg : Bytes}

theorem init_inv : init.Inv where
  numbered := rfl
  arrived := rfl
  started := rfl
  single := Nat.zero_le 1
  front := nofun

theorem nodup_of_numbered {ops : List OverlappedEx}
    (h : ops.map (·.serial) = List.range ops.length) : ops.Nodup := by
  apply List.Nodup.of_map (·.serial)
  rw [h]
  exact List.nodup_range

theorem Inv.nodup (h : c.Inv) : c.line.arrived.Nodup := by
  rw [← h.arrived]
  exact nodup_of_numbered h.numbered

/-- A slot whose queue may be handed over: nothing is in flight, and the front of the
queue was not yet passed to `WSASend`. -/
structure Ready (c : SendClient) : Prop where
  numbered : c.queued.map (·.serial) = List.range c.queued.length
  arrived : c.queued = c.line.arrived
  sent : c.wsaSends = c.freed
  idle : c.inFlight = []

/-- With nothing to send, a ready slot is at rest. -/
theorem Ready.inv_of_nil (h : c.Ready) (hqueue : c.mSendDataqueue = []) : c.Inv where
  numbered := h.numbered
  arrived := h.arrived
  started := h.sent.trans (ServiceQueue.started_of_nil (q := c.line) hqueue).symm
  single := by simp [h.idle]
  front := by simp [h.idle]

/-- `SendIO` hands the front over, whether `WSASend` accepts it or not. -/
theorem Ready.wsaSend (h : c.Ready) (hfront : c.line.front = some op) (result : WSAResult) :
    (c.wsaSend op result).Inv := by
  rcases List.append_eq_nil_iff.mp h.idle with ⟨hout, hworkers⟩
  have hflight : (c.wsaSend op result).inFlight = if result = .failure then [] else [op] := by
    rw [inFlight, SendClient.wsaSend, hout, hworkers, List.append_nil, List.nil_append]
  constructor
  · exact h.numbered
  · exact h.arrived
  · change c.wsaSends ++ [op] = c.line.started
    rw [h.sent, ServiceQueue.started_of_front hfront]
    rfl
  · rw [hflight]
    split_ifs <;> simp
  · intro o ho
    rw [hflight] at ho
    split_ifs at ho
    · exact absurd ho List.not_mem_nil
    · rw [List.mem_singleton.mp ho]
      exact hfront

theorem Ready.handOver (h : c.Ready) (hqueue : c.mSendDataqueue ≠ []) (result : WSAResult) :
    ∃ c', c.sendIO result = some c' ∧ c'.Inv ∧ c'.line = c.line := by
  rcases List.exists_cons_of_ne_nil hqueue with ⟨op, rest, hcons⟩
  have hfront : c.line.front = some op := by simp [line, ServiceQueue.front, hcons]
  -- The front is not among the operations that were deleted, so it may be used.
  have hfreed : op ∉ c.freed := by
    apply ServiceQueue.not_mem_done hfront
    rw [← h.arrived]
    exact nodup_of_numbered h.numbered
  refine ⟨c.wsaSend op result, ?_, h.wsaSend hfront result, rfl⟩
  unfold SendClient.sendIO SendClient.front
  rw [hcons]
  simp only [if_neg hfreed, Option.map_some]

/-! ## Messages -/

theorem numbered_push (h : c.queued.map (·.serial) = List.range c.queued.length)
    (pMsg : Bytes) : (c.push pMsg).queued.map (·.serial) =
      List.range (c.push pMsg).queued.length := by
  change (c.queued ++ [c.overlappedEx pMsg]).map (·.serial) =
    List.range (c.queued ++ [c.overlappedEx pMsg]).length
  rw [List.map_append, h, List.length_append, List.length_singleton, List.range_succ]
  rfl

theorem Inv.arrived_push (h : c.Inv) (pMsg : Bytes) :
    (c.push pMsg).queued = (c.push pMsg).line.arrived := by
  change c.queued ++ [c.overlappedEx pMsg] = (c.line.arrive (c.overlappedEx pMsg)).arrived
  rw [h.arrived, ServiceQueue.arrived_arrive]

/-- On an empty queue nothing is in flight. -/
theorem Inv.inFlight_eq_nil (h : c.Inv) (hqueue : c.mSendDataqueue = []) : c.inFlight = [] := by
  apply List.eq_nil_iff_forall_not_mem.mpr
  intro op hop
  have hfront := h.front op hop
  simp [line, ServiceQueue.front, hqueue] at hfront

theorem Inv.ready_push (h : c.Inv) (hqueue : c.mSendDataqueue = []) (pMsg : Bytes) :
    (c.push pMsg).Ready where
  numbered := numbered_push h.numbered pMsg
  arrived := h.arrived_push pMsg
  sent := h.started.trans (ServiceQueue.started_of_nil hqueue)
  idle := h.inFlight_eq_nil hqueue

/-- A message behind others waits. -/
theorem Inv.push (h : c.Inv) (hqueue : c.mSendDataqueue ≠ []) (pMsg : Bytes) :
    (c.push pMsg).Inv where
  numbered := numbered_push h.numbered pMsg
  arrived := h.arrived_push pMsg
  started := h.started.trans (ServiceQueue.started_arrive_of_ne hqueue).symm
  single := h.single
  front o ho := (ServiceQueue.front_arrive_of_ne hqueue).trans (h.front o ho)

theorem Inv.sendMsg (h : c.Inv) (pMsg : Bytes) (result : WSAResult) :
    ∃ c', c.sendMsg pMsg result = some c' ∧ c'.Inv ∧
      c'.line = c.line.arrive (c.overlappedEx pMsg) := by
  have hlength : (c.push pMsg).mSendDataqueue.length = 1 ↔ c.mSendDataqueue = [] := by
    simp [SendClient.push, ClientInfo.push]
  rw [SendClient.sendMsg]
  by_cases hqueue : c.mSendDataqueue = []
  · rw [if_pos (hlength.mpr hqueue)]
    have hpushed : (c.push pMsg).mSendDataqueue ≠ [] := by simp [SendClient.push, ClientInfo.push]
    exact (h.ready_push hqueue pMsg).handOver hpushed result
  · rw [if_neg (mt hlength.mp hqueue)]
    exact ⟨c.push pMsg, rfl, h.push hqueue pMsg, rfl⟩

/-! ## Reports -/

theorem Inv.getQueuedCompletionStatus (h : c.Inv) (hr : r.pOverlappedEx ∈ c.outstanding) :
    (c.getQueuedCompletionStatus r).Inv where
  numbered := h.numbered
  arrived := h.arrived
  started := h.started
  single := by
    have hsingle := h.single
    have hpos := List.length_pos_of_mem hr
    simp only [inFlight, SendClient.getQueuedCompletionStatus, List.length_append, List.length_map,
      List.length_erase_of_mem hr, List.length_singleton] at hsingle ⊢
    omega
  front o ho := by
    apply h.front
    rw [inFlight, SendClient.getQueuedCompletionStatus, List.map_append, List.mem_append,
      List.mem_append] at ho
    rcases ho with hout | hworkers | hnew
    · exact List.mem_append_left _ (List.mem_of_mem_erase hout)
    · exact List.mem_append_right _ hworkers
    · rw [List.mem_singleton.mp hnew]
      exact List.mem_append_left _ hr

theorem mem_inFlight (hr : r ∈ c.workers) : r.pOverlappedEx ∈ c.inFlight :=
  List.mem_append_right _ (List.mem_map_of_mem hr)

/-- A worker that handles a report leaves nothing in flight behind it. -/
theorem Inv.inFlight_erase (h : c.Inv) (hr : r ∈ c.workers) :
    inFlight { c with workers := c.workers.erase r } = [] := by
  have hsingle := h.single
  have hpos := List.length_pos_of_mem hr
  apply List.length_eq_zero_iff.mp
  simp only [inFlight, List.length_append, List.length_map, List.length_erase_of_mem hr]
    at hsingle ⊢
  omega

theorem Inv.setSock (h : c.Inv) (mSock : Socket) (connections : ℕ) :
    Inv { c with mSock := mSock, connections := connections } :=
  ⟨h.numbered, h.arrived, h.started, h.single, h.front⟩

/-- The slot when a worker has taken its report up -/
theorem Inv.erase (h : c.Inv) (hr : r ∈ c.workers) :
    Inv { c with workers := c.workers.erase r } where
  numbered := h.numbered
  arrived := h.arrived
  started := h.started
  single := by simp [h.inFlight_erase hr]
  front := by simp [h.inFlight_erase hr]

theorem line_pop (hfront : c.line.front = some op) : (c.pop op).line = c.line.finish := by
  rw [ServiceQueue.finish, hfront]
  rfl

theorem Inv.ready_pop (h : c.Inv) (hidle : c.inFlight = []) (hfront : c.line.front = some op) :
    (c.pop op).Ready where
  numbered := h.numbered
  arrived := by
    rw [line_pop hfront, ServiceQueue.arrived_finish]
    exact h.arrived
  sent := h.started.trans (ServiceQueue.started_of_front hfront)
  idle := hidle

/-- `SendCompleted` finds the operation that completed at the front. -/
theorem Inv.sendCompleted (h : c.Inv) (hidle : c.inFlight = []) (hfront : c.line.front = some op)
    (result : WSAResult) :
    ∃ c', c.sendCompleted result = some c' ∧ c'.Inv ∧ c'.line = c.line.finish := by
  have hready := h.ready_pop hidle hfront
  have hused : c.front = some op := by
    have hqueue : c.mSendDataqueue = op :: c.mSendDataqueue.tail :=
      ServiceQueue.waiting_eq_cons hfront
    rw [SendClient.front, hqueue]
    exact if_neg (ServiceQueue.not_mem_done hfront h.nodup)
  rw [SendClient.sendCompleted, hused, Option.bind_some, ← line_pop hfront]
  by_cases hempty : (c.pop op).mSendDataqueue = []
  · rw [if_pos (List.isEmpty_iff.mpr hempty)]
    exact ⟨c.pop op, rfl, hready.inv_of_nil hempty, rfl⟩
  · rw [if_neg (mt List.isEmpty_iff.mp hempty)]
    exact hready.handOver hempty result

theorem Inv.wokerThread (h : c.Inv) (hr : r ∈ c.workers) (result : WSAResult) :
    ∃ c', c.wokerThread r result = some c' ∧ c'.Inv ∧
      c'.line = if r.failed then c.line else c.line.finish := by
  have hfront := h.front _ (mem_inFlight hr)
  rw [SendClient.wokerThread]
  cases hfailed : r.failed with
  | true => exact ⟨_, if_pos rfl, (h.erase hr).setSock _ _, rfl⟩
  | false => exact (h.erase hr).sendCompleted (h.inFlight_erase hr) hfront result

/-! ## Runs -/

/-- What an event is to the line -/
def event (c : SendClient) : SendClientEvent → ServiceQueue.Event OverlappedEx
  | .sendMsg pMsg _ => .arrive (c.overlappedEx pMsg)
  | .wokerThread r _ => if r.failed then .idle else .finish r.pOverlappedEx
  | _ => .idle

theorem finished_event (c : SendClient) (e : SendClientEvent) :
    (c.event e).finished?.toList = freedBy e := by
  cases e with
  | wokerThread r result =>
    rw [event, freedBy]
    split_ifs <;> rfl
  | _ => rfl

/-- Whatever is enabled has defined behaviour, and is an operation of the line. -/
theorem Inv.exists_step (h : c.Inv) (he : c.Enabled e) :
    ∃ c', c.step e = some c' ∧ c'.Inv ∧ ServiceQueue.Step c.line (c.event e) c'.line := by
  rw [step, if_pos he]
  cases e with
  | postAccept => exact ⟨_, rfl, h.setSock _ _, .idle _⟩
  | acceptCompletion => exact ⟨_, rfl, h.setSock _ _, .idle _⟩
  | sendMsg pMsg result =>
    rcases h.sendMsg pMsg result with ⟨c', hstep, hinv, hline⟩
    refine ⟨c', hstep, hinv, ?_⟩
    rw [hline]
    exact .arrive _ _
  | getQueuedCompletionStatus r => exact ⟨_, rfl, h.getQueuedCompletionStatus he, .idle _⟩
  | wokerThread r result =>
    rcases h.wokerThread he result with ⟨c', hstep, hinv, hline⟩
    refine ⟨c', hstep, hinv, ?_⟩
    rw [hline, event]
    split_ifs
    · exact .idle _
    · exact .finish (h.front _ (mem_inFlight he))
  | close => exact ⟨_, rfl, h.setSock _ _, .idle _⟩

theorem enabled_of_step (hstep : c.step e = some c') : c.Enabled e := by
  by_contra hnot
  rw [step, if_neg hnot] at hstep
  cases hstep

theorem Inv.step (h : c.Inv) (hstep : c.step e = some c') :
    c'.Inv ∧ ServiceQueue.Step c.line (c.event e) c'.line := by
  rcases h.exists_step (enabled_of_step hstep) with ⟨c₁, hstep₁, hinv, hline⟩
  obtain rfl := Option.some.inj (hstep₁.symm.trans hstep)
  exact ⟨hinv, hline⟩

theorem Inv.of_run {past : List (Entry SendClient SendClientEvent)}
    (run : Run SendClient.step init past c) : c.Inv := by
  apply run.state_invariant init_inv
  intro c e c' h hstep
  exact (h.step hstep).1

theorem Inv.oneSend (h : c.Inv) : c.OneSend where
  single := h.single
  front := h.front
  alive op hop := ServiceQueue.not_mem_done (h.front op hop) h.nodup
  defined e he := by
    rcases h.exists_step he with ⟨c', hstep, -, hline⟩
    refine ⟨c', hstep, ?_⟩
    rw [← finished_event c e]
    exact hline.done_eq
  freedOnce := h.nodup.sublist (c.line.done_prefix.trans c.line.started_prefix).sublist
  sentOnce := by
    rw [h.started]
    exact h.nodup.sublist c.line.started_prefix.sublist
  inOrder := by
    rw [h.started, h.arrived]
    exact c.line.started_prefix

/-- The queue, with what `SendCompleted` deleted, is a queue with one server: a message
arrives when `SendMsg` pushes it, and is done when its report has been handled. -/
theorem refines_service_queue {past : List (Entry SendClient SendClientEvent)}
    (run : Run step init past c) :
    Trace ServiceQueue.Step .empty (past.map fun e => e.pre.event e.act) c.line := by
  apply run.trace line (fun e => e.pre.event e.act)
  refine atEach_const.mp ?_
  refine run.atEach_of_invariant (C := fun _ _ => True) (P := fun _ c => c.Inv) init_inv ?_ ?_
    (fun _ _ _ => trivial)
  · intro _ c e c' _ h hstep _
    exact (h.step hstep).1
  · intro _ c e c' _ h hstep _
    exact (h.step hstep).2

/-- The message of a call of `SendMsg` -/
def message? : SendClientEvent → Option Bytes
  | .sendMsg pMsg _ => some pMsg
  | _ => none

/-- The queue takes the messages in the order of the calls of `SendMsg`. -/
theorem queued_eq_messages {past : List (Entry SendClient SendClientEvent)}
    (run : Run step init past c) :
    c.queued.map (·.m_wsaBuf) = past.filterMap fun e => message? e.act := by
  rw [(Inv.of_run run).arrived, ServiceQueue.arrived_of_trace (refines_service_queue run),
    List.filterMap_map, List.map_filterMap]
  apply List.filterMap_congr
  rintro ⟨c, e, c'⟩ -
  cases e with
  | wokerThread r result =>
    simp only [Function.comp_apply, event, message?]
    split_ifs <;> rfl
  | _ => rfl

/-- In every state that any run of messages, results of `WSASend`, reports and closes
leads to, one send at most is outstanding and it is the front of the queue. -/
theorem one_send_outstanding {past : List (Entry SendClient SendClientEvent)}
    (run : Run step init past c) :
    c.OneSend ∧ c.queued.map (·.m_wsaBuf) = past.filterMap fun e => message? e.act :=
  ⟨(Inv.of_run run).oneSend, queued_eq_messages run⟩

/-- The report of a send comes after the connection was closed and another one was made
on the slot, and the next message is sent on that. Then its send fails. -/
theorem one_send_after_close : ∃ past c, Run step init past c ∧ c.OneSend ∧
    c.queued.map (·.m_wsaBuf) = [[1], [2], [3], [4]] ∧
      c.wsaSends.map (·.m_wsaBuf) = [[1], [2]] ∧ c.freed.map (·.m_wsaBuf) = [[1]] := by
  obtain ⟨past, c, run, h⟩ := exists_run step init
    [.postAccept, .acceptCompletion, .sendMsg [1] .pending, .sendMsg [2] .success, .close,
      .sendMsg [3] .failure, .getQueuedCompletionStatus ⟨⟨0, [1], some 1⟩, true, 1⟩, .postAccept,
      .acceptCompletion, .wokerThread ⟨⟨0, [1], some 1⟩, true, 1⟩ .success, .sendMsg [4] .success,
      .getQueuedCompletionStatus ⟨⟨1, [2], some 1⟩, false, 0⟩,
      .wokerThread ⟨⟨1, [2], some 1⟩, false, 0⟩ .success]
    (fun past c => past.filterMap (fun e => message? e.act) = [[1], [2], [3], [4]] ∧
      c.wsaSends.map (·.m_wsaBuf) = [[1], [2]] ∧ c.freed.map (·.m_wsaBuf) = [[1]])
    (by decide +kernel)
  rcases of_decide_eq_true h with ⟨hmessages, hsends, hfreed⟩
  rcases one_send_outstanding run with ⟨hone, hqueued⟩
  exact ⟨past, c, run, hone, hqueued.trans hmessages, hsends, hfreed⟩

/-! ## Workers that are not interrupted -/

variable {t : ClientInfo}

theorem queue_of_front (h : c.front = some op) :
    c.mSendDataqueue = op :: c.mSendDataqueue.tail := by
  rw [SendClient.front] at h
  cases hqueue : c.mSendDataqueue with
  | nil =>
    rw [hqueue] at h
    cases h
  | cons o rest =>
    rw [hqueue] at h
    simp only [Option.ite_none_left_eq_some, Option.some.injEq] at h
    rw [h.2, List.tail_cons]

/-- Where `ClientInfo.sendIO` has a result, `sendIO` does the same to the slot. -/
theorem toClientInfo_sendIO (h : ClientInfo.sendIO c.toClientInfo result = some t)
    (h' : c.sendIO result = some c') : c'.toClientInfo = t := by
  rcases Option.map_eq_some_iff.mp h' with ⟨op, hfront, rfl⟩
  have hqueue := queue_of_front hfront
  unfold ClientInfo.sendIO at h
  rw [hqueue] at h
  simp only [Option.ite_none_left_eq_some, Option.some.injEq] at h
  rw [← h.2, ← hqueue]
  rfl

theorem toClientInfo_sendMsg (h : c.toClientInfo.sendMsg pMsg result = some t)
    (h' : c.sendMsg pMsg result = some c') : c'.toClientInfo = t := by
  change (if (c.push pMsg).mSendDataqueue.length = 1 then
    ClientInfo.sendIO (c.push pMsg).toClientInfo result
      else some (c.push pMsg).toClientInfo) = some t at h
  rw [SendClient.sendMsg] at h'
  split_ifs at h h'
  · exact toClientInfo_sendIO h h'
  · rw [← Option.some.inj h', ← Option.some.inj h]

theorem toClientInfo_sendCompleted (h : c.toClientInfo.sendCompleted result = some t)
    (h' : c.sendCompleted result = some c') : c'.toClientInfo = t := by
  rcases Option.bind_eq_some_iff.mp h' with ⟨op, hfront, h'⟩
  rw [ClientInfo.sendCompleted, queue_of_front hfront] at h
  change (if (c.pop op).mSendDataqueue.isEmpty then some (c.pop op).toClientInfo
    else ClientInfo.sendIO (c.pop op).toClientInfo result) = some t at h
  split_ifs at h h'
  · rw [← Option.some.inj h', ← Option.some.inj h]
  · exact toClientInfo_sendIO h h'

theorem workers_sendIO (h : c.sendIO result = some c') : c'.workers = c.workers := by
  rcases Option.map_eq_some_iff.mp h with ⟨op, -, rfl⟩
  rfl

theorem workers_sendMsg (h : c.sendMsg pMsg result = some c') : c'.workers = c.workers := by
  rw [SendClient.sendMsg] at h
  split_ifs at h
  · have hpush := workers_sendIO h
    exact hpush
  · rw [← Option.some.inj h]
    rfl

theorem workers_sendCompleted (h : c.sendCompleted result = some c') : c'.workers = c.workers := by
  rcases Option.bind_eq_some_iff.mp h with ⟨op, -, h⟩
  split_ifs at h
  · rw [← Option.some.inj h]
    rfl
  · have hpop := workers_sendIO h
    exact hpop

theorem snoc_run {past : List (Entry SendClient SendClientEvent)} (run : Run step init past c)
    (he : c.Enabled e) (h : c.perform e = some c') :
    Run step init (past ++ [⟨c, e, c'⟩]) c' := run.snoc ((if_pos he).trans h)

/-- A worker that is not interrupted takes a turn of `ClientInfo.step` in two steps; every
other event is one step. -/
theorem exists_turn {past : List (Entry SendClient SendClientEvent)} (run : Run step init past c)
    (hworkers : c.workers = []) {e : SendEvent} (hstep : c.toClientInfo.step e = some t) :
    ∃ past' c', Run step init past' c' ∧ c'.toClientInfo = t ∧ c'.workers = [] := by
  have hinv := Inv.of_run run
  cases e with
  | postAccept =>
    simp only [ClientInfo.step, Option.ite_none_right_eq_some, Option.some.injEq] at hstep
    rcases hstep with ⟨hsock, rfl⟩
    exact ⟨_, _, snoc_run (e := .postAccept) run hsock rfl, rfl, hworkers⟩
  | acceptCompletion =>
    simp only [ClientInfo.step, Option.ite_none_right_eq_some, Option.some.injEq] at hstep
    rcases hstep with ⟨hsock, rfl⟩
    exact ⟨_, _, snoc_run (e := .acceptCompletion) run hsock rfl, rfl, hworkers⟩
  | sendMsg pMsg result =>
    rcases hinv.sendMsg pMsg result with ⟨c', hsend, -, -⟩
    refine ⟨_, c', snoc_run (e := .sendMsg pMsg result) run trivial hsend, ?_, ?_⟩
    · exact toClientInfo_sendMsg hstep hsend
    · exact (workers_sendMsg hsend).trans hworkers
  | sendCompletion op ok result =>
    simp only [ClientInfo.step, Option.ite_none_right_eq_some] at hstep
    rcases hstep with ⟨hop, hstep⟩
    have run₁ := snoc_run (e := .getQueuedCompletionStatus ⟨op, ok, 1⟩) run hop rfl
    have hr : (⟨op, ok, 1⟩ : SendReport) ∈
        (c.getQueuedCompletionStatus ⟨op, ok, 1⟩).workers := by
      simp [SendClient.getQueuedCompletionStatus]
    rcases (Inv.of_run run₁).wokerThread hr result with ⟨c', hwoker, -, -⟩
    refine ⟨_, c', snoc_run (e := .wokerThread ⟨op, ok, 1⟩ result) run₁ hr hwoker, ?_⟩
    have herase : (c.getQueuedCompletionStatus ⟨op, ok, 1⟩).workers.erase ⟨op, ok, 1⟩ = [] := by
      simp [SendClient.getQueuedCompletionStatus, hworkers]
    rw [SendClient.wokerThread, herase] at hwoker
    cases ok with
    | true =>
      refine ⟨toClientInfo_sendCompleted ?_ hwoker, workers_sendCompleted hwoker⟩
      exact hstep
    | false =>
      rw [← Option.some.inj hwoker, ← Option.some.inj hstep]
      exact ⟨rfl, rfl⟩
  | close =>
    obtain rfl := Option.some.inj hstep
    exact ⟨_, _, snoc_run (e := .close) run trivial rfl, rfl, hworkers⟩

/-- What `ClientInfo.step` reaches is reached here. -/
theorem exists_run_of_clientInfo {past : List (Entry ClientInfo SendEvent)}
    (run : Run ClientInfo.step .init past t) :
    ∃ past' c, Run step init past' c ∧ c.toClientInfo = t ∧ c.workers = [] := by
  induction run with
  | nil => exact ⟨[], init, .nil, rfl, rfl⟩
  | snoc _ hstep ih =>
    rcases ih with ⟨past', c, run, rfl, hworkers⟩
    exact exists_turn run hworkers hstep

end SendClient

end ChatServer
