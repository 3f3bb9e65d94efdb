import ChatServer.ServerNetwork.OutstandingSend

/-! # A send that fails

`SendIO` is called again only by `SendCompleted`, or by `SendMsg` on an empty queue.
When a call of `WSASend` fails, or a send is reported as failed, its operation stays at
the front of `mSendDataqueue` with no completion to come.
-/

namespace ChatServer.SendClient
open Recorded

/-- The front of the queue, if there is one, is in flight. -/
def Flowing (c : SendClient) : Prop := c.inFlight = c.mSendDataqueue.head?.toList

/-- Messages wait, and nothing is in flight. -/
structure Silent (c : SendClient) : Prop where
  idle : c.inFlight = []
  waiting : c.mSendDataqueue ≠ []

/-- The step called `WSASend` and it failed, or it handled the report of a failed send. -/
def Breaks (e : Entry SendClient SendClientEvent) : Prop :=
  match e.act with
  | .sendMsg _ result => result = .failure ∧ e.post.wsaSends ≠ e.pre.wsaSends
  | .wokerThread r result =>
    r.failed ∨ result = .failure ∧ e.post.wsaSends ≠ e.pre.wsaSends
  | _ => False

instance : DecidablePred Breaks := by
  intro e
  unfold Breaks
  split <;> infer_instance

variable {c c' : SendClient} {e : SendClientEvent} {op : OverlappedEx} {r : SendReport}
  {result : WSAResult} {pMsg : Bytes}

theorem Flowing.not_silent (h : c.Flowing) : ¬c.Silent := by
  intro hsilent
  rcases List.exists_cons_of_ne_nil hsilent.waiting with ⟨op, rest, hqueue⟩
  have hidle := hsilent.idle
  rw [Flowing, hqueue] at h
  simp [h] at hidle

/-- One send in flight is the front of the queue. -/
theorem Inv.flowing_of_mem (h : c.Inv) (hop : op ∈ c.inFlight) : c.Flowing := by
  have hfront : c.mSendDataqueue.head? = some op := h.front op hop
  have hone : c.inFlight.length = 1 := le_antisymm h.single (List.length_pos_of_mem hop)
  rcases List.length_eq_one_iff.mp hone with ⟨o, ho⟩
  rw [ho, List.mem_singleton] at hop
  rw [Flowing, ho, hfront, hop]
  rfl

/-! ## One call of `WSASend` -/

/-- A call that is accepted puts the front in flight, and one that fails leaves it. -/
theorem inFlight_wsaSend (hidle : c.inFlight = []) (op : OverlappedEx) (result : WSAResult) :
    (c.wsaSend op result).inFlight = if result = .failure then [] else [op] := by
  rcases List.append_eq_nil_iff.mp hidle with ⟨hout, hworkers⟩
  rw [inFlight, wsaSend, hout, hworkers, List.append_nil, List.nil_append]

theorem sendIO_cases (hidle : c.inFlight = []) (h : c.sendIO result = some c') :
    c'.wsaSends ≠ c.wsaSends ∧
      (result = .failure ∧ c'.Silent ∨ result ≠ .failure ∧ c'.Flowing) := by
  rcases Option.map_eq_some_iff.mp h with ⟨op, hfront, rfl⟩
  have hqueue : (c.wsaSend op result).mSendDataqueue = op :: c.mSendDataqueue.tail :=
    queue_of_front hfront
  have hflight := inFlight_wsaSend hidle op result
  refine ⟨by simp [wsaSend], ?_⟩
  by_cases hresult : result = .failure
  · left
    rw [if_pos hresult] at hflight
    exact ⟨hresult, hflight, by simp [hqueue]⟩
  · right
    rw [if_neg hresult] at hflight
    exact ⟨hresult, by rw [Flowing, hflight, hqueue]; rfl⟩

/-! ## A slot that sends -/

/-- What a step leaves of a slot that sends -/
def Goes (c : SendClient) (e : SendClientEvent) (c' : SendClient) : Prop :=
  ¬Breaks ⟨c, e, c'⟩ ∧ c'.Flowing ∨ Breaks ⟨c, e, c'⟩ ∧ c'.Silent

theorem Flowing.sendMsg (h : c.Flowing) (hstep : c.sendMsg pMsg result = some c') :
    c.Goes (.sendMsg pMsg result) c' := by
  have hlength : (c.push pMsg).mSendDataqueue.length = 1 ↔ c.mSendDataqueue = [] := by
    simp [SendClient.push, ClientInfo.push]
  rw [SendClient.sendMsg] at hstep
  by_cases hqueue : c.mSendDataqueue = []
  · have hidle : (c.push pMsg).inFlight = [] := by
      change c.inFlight = []
      rw [h, hqueue]
      rfl
    rw [if_pos (hlength.mpr hqueue)] at hstep
    rcases sendIO_cases hidle hstep with ⟨hcalled, ⟨hresult, hsilent⟩ | ⟨hresult, hflowing⟩⟩
    · exact .inr ⟨⟨hresult, hcalled⟩, hsilent⟩
    · exact .inl ⟨fun hbreaks => hresult hbreaks.1, hflowing⟩
  · rw [if_neg (mt hlength.mp hqueue)] at hstep
    obtain rfl := Option.some.inj hstep
    refine .inl ⟨fun hbreaks => hbreaks.2 rfl, ?_⟩
    change c.inFlight = (c.mSendDataqueue ++ [c.overlappedEx pMsg]).head?.toList
    rw [h, List.head?_append_of_ne_nil _ hqueue]

/-- A report of a failed send closes the socket, and the operation stays in the queue. -/
theorem Inv.silent_of_failed (h : c.Inv) (hr : r ∈ c.workers) :
    (close { c with workers := c.workers.erase r }).Silent where
  idle := h.inFlight_erase hr
  waiting hqueue := by
    have hfront := h.front _ (mem_inFlight hr)
    rw [line, ServiceQueue.front] at hfront
    rw [show c.mSendDataqueue = [] from hqueue] at hfront
    cases hfront

theorem sendCompleted_goes (hidle : c.inFlight = []) (hr : r.failed = false)
    (hstep : c.sendCompleted result = some c') {c₀ : SendClient}
    (hsends : c₀.wsaSends = c.wsaSends) : c₀.Goes (.wokerThread r result) c' := by
  rcases Option.bind_eq_some_iff.mp hstep with ⟨op, -, hstep⟩
  have hpopped : (c.pop op).inFlight = [] := hidle
  have hsame : (c.pop op).wsaSends = c₀.wsaSends := hsends.symm
  split_ifs at hstep with hempty
  · obtain rfl := Option.some.inj hstep
    refine .inl ⟨?_, by rw [Flowing, hpopped, List.isEmpty_iff.mp hempty]; rfl⟩
    rintro (hfailed | ⟨-, hcalled⟩)
    · rw [hr] at hfailed
      cases hfailed
    · exact hcalled hsame
  · rcases sendIO_cases hpopped hstep with ⟨hcalled, ⟨hresult, hsilent⟩ | ⟨hresult, hflowing⟩⟩
    · exact .inr ⟨.inr ⟨hresult, by rwa [← hsame]⟩, hsilent⟩
    · refine .inl ⟨?_, hflowing⟩
      rintro (hfailed | ⟨hfailure, -⟩)
      · rw [hr] at hfailed
        cases hfailed
      · exact hresult hfailure

theorem Inv.wokerThread_goes (h : c.Inv) (hr : r ∈ c.workers)
    (hstep : c.wokerThread r result = some c') : c.Goes (.wokerThread r result) c' := by
  rw [SendClient.wokerThread] at hstep
  cases hfailed : r.failed with
  | true =>
    simp only [hfailed, if_true, Option.some.injEq] at hstep
    rw [← hstep]
    exact .inr ⟨.inl hfailed, h.silent_of_failed hr⟩
  | false =>
    simp only [hfailed, Bool.false_eq_true, if_false] at hstep
    exact sendCompleted_goes (h.inFlight_erase hr) hfailed hstep rfl

/-- A slot that sends goes on sending, unless the step breaks it. -/
theorem Flowing.step (h : c.Flowing) (hinv : c.Inv) (hstep : c.step e = some c') :
    c.Goes e c' := by
  have he := enabled_of_step hstep
  rw [SendClient.step, if_pos he] at hstep
  cases e with
  | sendMsg pMsg result => exact h.sendMsg hstep
  | wokerThread r result => exact hinv.wokerThread_goes he hstep
  | getQueuedCompletionStatus r =>
    obtain rfl := Option.some.inj hstep
    have hmem : r.pOverlappedEx ∈ (c.getQueuedCompletionStatus r).inFlight := by
      simp [inFlight, SendClient.getQueuedCompletionStatus]
    exact .inl ⟨id, (hinv.getQueuedCompletionStatus he).flowing_of_mem hmem⟩
  | postAccept | acceptCompletion | close =>
    obtain rfl := Option.some.inj hstep
    exact .inl ⟨id, h⟩

/-! ## A silent slot -/

/-- A step of a silent slot: nothing is sent or deleted, and a message joins the queue. -/
structure StaysSilent (c : SendClient) (e : SendClientEvent) (c' : SendClient) : Prop where
  silent : c'.Silent
  wsaSends : c'.wsaSends = c.wsaSends
  freed : c'.freed = c.freed
  piled : c'.mSendDataqueue.map (·.m_wsaBuf) =
    c.mSendDataqueue.map (·.m_wsaBuf) ++ (message? e).toList

/-- Nothing is outstanding and no worker holds a report, so no send completes. -/
theorem Silent.step (h : c.Silent) (hstep : c.step e = some c') : c.StaysSilent e c' := by
  rcases List.append_eq_nil_iff.mp h.idle with ⟨hout, hworkers⟩
  have he := enabled_of_step hstep
  rw [SendClient.step, if_pos he] at hstep
  cases e with
  | sendMsg pMsg result =>
    have hlength : (c.push pMsg).mSendDataqueue.length ≠ 1 := by
      have := List.length_pos_iff.mpr h.waiting
      simp only [SendClient.push, ClientInfo.push, List.length_append, List.length_singleton]
      omega
    rw [perform, SendClient.sendMsg, if_neg hlength] at hstep
    obtain rfl := Option.some.inj hstep
    refine ⟨⟨h.idle, ?_⟩, rfl, rfl, ?_⟩
    · simp [SendClient.push, ClientInfo.push]
    · simp [SendClient.push, ClientInfo.push, message?, ClientInfo.overlappedEx]
  | wokerThread r result =>
    have hr : r ∈ c.workers := he
    rw [List.map_eq_nil_iff.mp hworkers] at hr
    exact absurd hr List.not_mem_nil
  | getQueuedCompletionStatus r =>
    have hr : r.pOverlappedEx ∈ c.outstanding := he
    rw [hout] at hr
    exact absurd hr List.not_mem_nil
  | postAccept | acceptCompletion | close =>
    obtain rfl := Option.some.inj hstep
    exact ⟨⟨h.idle, h.waiting⟩, rfl, rfl, (List.append_nil _).symm⟩

/-- A slot breaks once at most. -/
theorem StaysSilent.not_breaks (h : c.StaysSilent e c') (hidle : c.inFlight = [])
    (hstep : c.step e = some c') : ¬Breaks ⟨c, e, c'⟩ := by
  cases e with
  | sendMsg pMsg result => exact fun hbreaks => hbreaks.2 h.wsaSends
  | wokerThread r result =>
    have hr := mem_inFlight (enabled_of_step hstep)
    rw [hidle] at hr
    exact absurd hr List.not_mem_nil
  | _ => exact id

/-! ## Runs -/

variable {past : List (Entry SendClient SendClientEvent)}

/-- What is left of a slot since a step after which it was silent -/
structure SilentSince (c₀ : SendClient) (after : List (Entry SendClient SendClientEvent))
    (c : SendClient) : Prop where
  silent : c.Silent
  wsaSends : c.wsaSends = c₀.wsaSends
  freed : c.freed = c₀.freed
  piled : c.mSendDataqueue.map (·.m_wsaBuf) =
    c₀.mSendDataqueue.map (·.m_wsaBuf) ++ after.filterMap fun e => message? e.act
  once : ∀ e ∈ after, ¬Breaks e

theorem Silent.of_run {c₀ : SendClient} (h : c₀.Silent) (run : Run SendClient.step c₀ past c) :
    SilentSince c₀ past c := by
  induction run with
  | nil => exact ⟨h, rfl, rfl, (List.append_nil _).symm, nofun⟩
  | snoc run hstep ih =>
    have hstays := ih.silent.step hstep
    constructor
    · exact hstays.silent
    · exact hstays.wsaSends.trans ih.wsaSends
    · exact hstays.freed.trans ih.freed
    · rw [hstays.piled, ih.piled, List.filterMap_append, ServiceQueue.filterMap_singleton,
        List.append_assoc]
    · intro e he
      rcases List.mem_append.mp he with he | he
      · exact ih.once e he
      · rw [List.mem_singleton.mp he]
        exact hstays.not_breaks ih.silent.idle hstep

/-- A slot is silent from the first step that breaks it, and sends until then. -/
theorem flowing_or_silent (run : Run step init past c) :
    (∀ e ∈ past, ¬Breaks e) ∧ c.Flowing ∨ (∃ e ∈ past, Breaks e) ∧ c.Silent := by
  induction run with
  | nil => exact .inl ⟨nofun, rfl⟩
  | snoc run hstep ih =>
    rcases ih with ⟨hnone, hflowing⟩ | ⟨⟨e, he, hbreaks⟩, hsilent⟩
    · rcases hflowing.step (Inv.of_run run) hstep with ⟨hgoes, hflowing'⟩ | ⟨hbreaks, hsilent⟩
      · left
        refine ⟨?_, hflowing'⟩
        intro e he
        rcases List.mem_append.mp he with he | he
        · exact hnone e he
        · rw [List.mem_singleton.mp he]
          exact hgoes
      · exact .inr ⟨⟨_, List.mem_append_right _ (List.mem_singleton_self _), hbreaks⟩, hsilent⟩
    · exact .inr ⟨⟨e, List.mem_append_left _ he, hbreaks⟩, (hsilent.step hstep).silent⟩

theorem silent_of_breaks {e : Entry SendClient SendClientEvent} (run : Run step init past e.pre)
    (hstep : step e.pre e.act = some e.post) (hbreaks : Breaks e) : e.post.Silent := by
  rcases flowing_or_silent (run.snoc hstep) with ⟨hnone, -⟩ | ⟨-, hsilent⟩
  · exact absurd hbreaks (hnone e (by simp))
  · exact hsilent

/-- As long as no send fails, the front of the queue is in flight in every state, whatever
becomes of the socket. The first failure is the last: from then on nothing is passed to
`WSASend` or deleted, also for the connections to come, and all messages pile up. -/
theorem first_failure_is_final (run : Run step init past c) :
    (c.Flowing ↔ ∀ e ∈ past, ¬Breaks e) ∧
      ∀ before e after, past = before ++ e :: after → Breaks e → SilentSince e.post after c := by
  constructor
  · constructor
    · intro hflowing
      rcases flowing_or_silent run with ⟨hnone, -⟩ | ⟨-, hsilent⟩
      · exact hnone
      · exact absurd hsilent hflowing.not_silent
    · intro hnone
      rcases flowing_or_silent run with ⟨-, hflowing⟩ | ⟨⟨e, he, hbreaks⟩, -⟩
      · exact hflowing
      · exact absurd hbreaks (hnone e he)
  · rintro before e after rfl hbreaks
    rcases run.split with ⟨hbefore, hstep, hafter⟩
    exact (silent_of_breaks hbefore hstep hbreaks).of_run hafter

/-- The second send of a connection fails. Neither its message nor those of the next
connection are sent. -/
theorem next_connection_is_silent : ∃ past c, Run step init past c ∧ ¬c.Flowing ∧
    c.mSock = .connected ∧ c.connections = 2 ∧ c.wsaSends.map (·.m_wsaBuf) = [[1], [2]] ∧
      c.mSendDataqueue.map (·.m_wsaBuf) = [[2], [3], [4]] := by
  obtain ⟨past, c, run, h⟩ := exists_run step init
    [.postAccept, .acceptCompletion, .sendMsg [1] .pending, .sendMsg [2] .pending,
      .getQueuedCompletionStatus ⟨⟨0, [1], some 1⟩, true, 1⟩,
      .wokerThread ⟨⟨0, [1], some 1⟩, true, 1⟩ .failure, .close, .postAccept, .acceptCompletion,
      .sendMsg [3] .success, .sendMsg [4] .success]
    (fun past c => (∃ e ∈ past, Breaks e) ∧ c.mSock = .connected ∧ c.connections = 2 ∧
      c.wsaSends.map (·.m_wsaBuf) = [[1], [2]] ∧
      c.mSendDataqueue.map (·.m_wsaBuf) = [[2], [3], [4]])
    (by decide +kernel)
  rcases of_decide_eq_true h with ⟨⟨e, he, hbreaks⟩, hstate⟩
  refine ⟨past, c, run, fun hflowing => ?_, hstate⟩
  exact (first_failure_is_final run).1.mp hflowing e he hbreaks

end ChatServer.SendClient
