import ChatServer.ServerNetwork.SlotSockets

/-! # Connect and close events

The calls of `OnConnect` and `OnClose` for each slot alternate as long as the workers are
in order: no connection is closed twice, and no worker overtakes another one on the same
slot between two of its calls.
-/

namespace ChatServer.Network
open Recorded

/-- The calls for a slot: each connection is announced once, when no other is open, and
closed once, while it is. The second argument is the connection left open. -/
inductive Alternate : List Call → Option ℕ → Prop
  | nil : Alternate [] none
  | onConnect {calls : List Call} {k : ℕ} : Alternate calls none →
      (∀ c ∈ calls, c.connection ≠ k) → Alternate (calls ++ [.onConnect k]) (some k)
  | onClose {calls : List Call} {k : ℕ} : Alternate calls (some k) →
      Alternate (calls ++ [.onClose k]) none

namespace WorkerPool
variable {n w : ℕ}

/-- The calls for a slot alternate. What they leave open is open, or a worker is still to
call `OnClose` for it; and what is open they leave open, or a worker is still to announce
it. -/
def AlternatesAt (s : WorkerPool n w) (i : Fin n) : Prop :=
  ∃ o, Alternate (s.calls i) o ∧
    (∀ k, o = some k → s.openConnection i = some k ∨ s.Pending (.onClose i k)) ∧
    (∀ k, s.openConnection i = some k → o = some k ∨ s.Announcing i k)

/-- Each completion was handled on the client that posted it, every accepted connection was
announced on the one slot it belongs to or a worker is still to do so, and the calls for
each slot alternate. -/
structure Alternates (s : WorkerPool n w) : Prop where
  handled : ∀ h ∈ s.handled, h.2 = some h.1
  announced : ∀ k ∈ s.connected, ∃ i, s.Announcing i k ∨ .onConnect k ∈ s.calls i
  slot : ∀ i j, ∀ c ∈ s.calls i, ∀ d ∈ s.calls j, c.connection = d.connection → i = j
  calls : ∀ i, s.AlternatesAt i

end WorkerPool

/-- This worker is still to call `OnClose` on the slot for an earlier connection. -/
def WorkerTurn.ClosesEarlier {n : ℕ} (i : Fin n) (k : ℕ) : WorkerTurn n → Prop
  | .onClose j k' => j = i ∧ k' < k
  | _ => False

/-- The first receive on a connection is accepted; `OnConnect` is called when no `OnClose`
for an earlier connection of the slot is still to come, and `OnClose` when the `OnConnect`
for its connection is not. -/
def WorkerPool.CallInOrder {n w : ℕ} (s : WorkerPool n w) (wsaResult : Bool) :
    WorkerTurn n → Prop
  | .acceptCompletion _ _ => wsaResult = true
  | .onConnect i k => ∀ b, ¬(s.mIOWorkerThreads b).ClosesEarlier i k
  | .onClose i k => ¬s.Pending (.onConnect i k)
  | .waiting | .close _ _ | .bindRecv _ | .sendCompleted _ => True

/-- An accept succeeds; a failed receive or send is taken while its connection is the open
one and no worker is about to close it; and the calls of the workers are in order. -/
def WorkerPool.InOrder {n w : ℕ} (s : WorkerPool n w) : WorkerEvent n w → Prop
  | .completion _ op bSuccess dwIoSize =>
    if op.m_eOperation = .accept then bSuccess = true
    else bSuccess = false ∨ dwIoSize = 0 → s.openConnection op.poster = some op.connection ∧
      ¬s.Pending (.close op.poster op.connection)
  | .resume worker wsaResult => s.CallInOrder wsaResult (s.mIOWorkerThreads worker)
  | .accepterThread _ _ _ _ | .sendMsg _ _ => True

instance {n : ℕ} (i : Fin n) (k : ℕ) : DecidablePred (WorkerTurn.ClosesEarlier i k)
  | .onClose _ _ => instDecidableAnd
  | .waiting | .acceptCompletion _ _ | .onConnect _ _ | .close _ _ | .bindRecv _ |
    .sendCompleted _ => instDecidableFalse

instance {n w : ℕ} (s : WorkerPool n w) (turn : WorkerTurn n) (wsaResult : Bool) :
    Decidable (s.CallInOrder wsaResult turn) :=
  match turn with
  | .acceptCompletion _ _ => inferInstanceAs (Decidable (wsaResult = true))
  | .onConnect i k => inferInstanceAs (Decidable
      (∀ b, ¬(s.mIOWorkerThreads b).ClosesEarlier i k))
  | .onClose i k => inferInstanceAs (Decidable (¬s.Pending (.onConnect i k)))
  | .waiting | .close _ _ | .bindRecv _ | .sendCompleted _ => instDecidableTrue

instance {n w : ℕ} (s : WorkerPool n w) : DecidablePred s.InOrder
  | .completion _ op bSuccess dwIoSize => inferInstanceAs (Decidable
      (if op.m_eOperation = .accept then bSuccess = true
      else bSuccess = false ∨ dwIoSize = 0 → s.openConnection op.poster = some op.connection ∧
        ¬s.Pending (.close op.poster op.connection)))
  | .resume worker wsaResult => inferInstanceAs (Decidable
      (s.CallInOrder wsaResult (s.mIOWorkerThreads worker)))
  | .accepterThread _ _ _ _ | .sendMsg _ _ => instDecidableTrue

/-! ## Calls that alternate -/

namespace Alternate
variable {calls : List Call} {o : Option ℕ} {k : ℕ}

/-- What is left open was announced and not closed. -/
theorem mem_of_open (h : Alternate calls (some k)) : .onConnect k ∈ calls ∧ .onClose k ∉ calls := by
  cases h with
  | onConnect h hnew =>
    refine ⟨by simp, fun hmem => ?_⟩
    rcases List.mem_append.mp hmem with hmem | hmem
    · exact hnew _ hmem rfl
    · simp at hmem

/-- What was announced and not closed is left open. -/
theorem open_of_mem (h : Alternate calls o) (hconnect : .onConnect k ∈ calls)
    (hclose : .onClose k ∉ calls) : o = some k := by
  induction h with
  | nil => simp at hconnect
  | onConnect h hnew ih =>
    rcases List.mem_append.mp hconnect with hmem | hmem
    · cases ih hmem fun hold => hclose (List.mem_append_left _ hold)
    · obtain rfl : k = _ := by simpa using hmem
      rfl
  | onClose h ih =>
    have hmem := (List.mem_append.mp hconnect).resolve_right (by simp)
    obtain rfl := Option.some.inj <| ih hmem fun hold => hclose (List.mem_append_left _ hold)
    simp at hclose

/-- A call of `OnClose` is in its place only for the connection that is left open. -/
theorem mem_of_onClose (calls : List Call) (h : Alternate (calls ++ [.onClose k]) o) :
    .onConnect k ∈ calls ∧ .onClose k ∉ calls := by
  generalize hl : calls ++ [Call.onClose k] = l at h
  cases h with
  | nil => simp at hl
  | onConnect h hnew =>
    have hlast := (List.append_inj' hl rfl).2
    simp at hlast
  | onClose h =>
    rcases List.append_inj' hl rfl with ⟨rfl, hlast⟩
    obtain rfl : k = _ := by simpa using hlast
    exact h.mem_of_open

end Alternate

/-! ## The invariant -/

namespace WorkerPool
variable {n w : ℕ} {s s' : WorkerPool n w} {i : Fin n} {k : ℕ} {worker : Fin w}
  {turn : WorkerTurn n} {r : IOCPServer n × WorkerTurn n} {owner : ℕ → Option (Fin n)}

/-- While the steps are in order: the calls made and the calls that workers are still to
make are, for each connection, one announcement and at most one close, which is due once
the connection is not open any more. -/
structure Inv (s : WorkerPool n w) (owner : ℕ → Option (Fin n)) : Prop where
  sockets : s.Sockets owner
  handled : ∀ h ∈ s.handled, h.2 = some h.1
  distinct : s.Distinct
  turns : ∀ turn i k, s.Pending turn → turn.call = some (i, k) → owner k = some i ∧
    k ∈ s.connected ∧ (s.completionKey k = none → turn = .acceptCompletion i k)
  called : ∀ i, ∀ c ∈ s.calls i, owner c.connection = some i ∧ c.connection ∈ s.connected
  accepting : ∀ i k, s.Pending (.acceptCompletion i k) →
    s.openConnection i = some k ∧ s.completionKey k = none
  announced : ∀ i k, k ∈ s.connected → owner k = some i →
    s.Announcing i k ∨ .onConnect k ∈ s.calls i
  later : ∀ i k, s.Announcing i k → ∀ c ∈ s.calls i, c.connection < k
  closing : ∀ i k, s.Pending (.close i k) → s.openConnection i = some k
  closed : ∀ i k, k ∈ s.connected → owner k = some i →
    s.openConnection i = some k ∨ s.Pending (.onClose i k) ∨ .onClose k ∈ s.calls i
  notClosed : ∀ i k, s.Pending (.onClose i k) →
    s.openConnection i ≠ some k ∧ .onClose k ∉ s.calls i
  stillOpen : ∀ i k, s.openConnection i = some k → .onClose k ∉ s.calls i
  calls : ∀ i, ∃ o, Alternate (s.calls i) o

theorem not_pending_init (hturn : turn.call ≠ none) : ¬(init n w).Pending turn := by
  rintro ⟨a, rfl⟩
  exact hturn rfl

theorem init_inv : (init n w).Inv fun _ => none where
  sockets := IOCPServer.init_sockets
  handled := nofun
  distinct := fun a b _ hcall => absurd rfl hcall
  turns := fun turn i k h hcall => absurd h (not_pending_init (by simp [hcall]))
  called := nofun
  accepting := fun i k h => absurd h (not_pending_init (by simp [WorkerTurn.call]))
  announced := nofun
  later := nofun
  closing := fun i k h => absurd h (not_pending_init (by simp [WorkerTurn.call]))
  closed := nofun
  notClosed := fun i k h => absurd h (not_pending_init (by simp [WorkerTurn.call]))
  stillOpen := nofun
  calls := fun i => ⟨none, .nil⟩

/-- The invariant gives the property. -/
theorem Inv.alternates (h : s.Inv owner) : s.Alternates where
  handled := h.handled
  announced := by
    intro k hk
    rcases h.sockets.connected k hk with ⟨i, hi⟩
    exact ⟨i, h.announced i k hk hi⟩
  slot := by
    intro i j c hc d hd heq
    have hi := (h.called i c hc).1
    rw [heq, (h.called j d hd).1] at hi
    exact (Option.some.inj hi).symm
  calls := by
    intro i
    rcases h.calls i with ⟨o, ho⟩
    refine ⟨o, ho, ?_, ?_⟩
    · rintro k rfl
      rcases ho.mem_of_open with ⟨hconnect, hclose⟩
      rcases h.called i _ hconnect with ⟨howner, hk⟩
      rcases h.closed i k hk howner with hopen | hpending | hmem
      · exact .inl hopen
      · exact .inr hpending
      · exact absurd hmem hclose
    · intro k hopen
      rcases IOCPServer.openConnection_eq_some.mp hopen with ⟨hsock, hk⟩
      rcases h.announced i k hk (h.sockets.sock i k hsock).1 with hannouncing | hmem
      · exact .inr hannouncing
      · exact .inl (ho.open_of_mem hmem (h.stillOpen i k hopen))

/-- A step that opens, closes, binds and calls nothing, of a worker or another thread -/
theorem Inv.quiet (h : s.Inv owner) {owner' : ℕ → Option (Fin n)} (hsockets : s'.Sockets owner')
    (howner : ∀ k ∈ s.connected, owner' k = owner k)
    (hhandled : ∀ e ∈ s'.handled, e.2 = some e.1) (hdistinct : s'.Distinct)
    (hquiet : s.Quiet s'.toIOCPServer)
    (hpending : ∀ turn : WorkerTurn n, turn.call ≠ none → (s'.Pending turn ↔ s.Pending turn)) :
    s'.Inv owner' := by
  have haccept (i : Fin n) (k : ℕ) :
      s'.Pending (.acceptCompletion i k) ↔ s.Pending (.acceptCompletion i k) :=
    hpending _ (by simp [WorkerTurn.call])
  have hannouncing (i : Fin n) (k : ℕ) : s'.Announcing i k ↔ s.Announcing i k :=
    or_congr (haccept i k) (hpending _ (by simp [WorkerTurn.call]))
  have hclose (i : Fin n) (k : ℕ) : s'.Pending (.close i k) ↔ s.Pending (.close i k) :=
    hpending _ (by simp [WorkerTurn.call])
  have honClose (i : Fin n) (k : ℕ) : s'.Pending (.onClose i k) ↔ s.Pending (.onClose i k) :=
    hpending _ (by simp [WorkerTurn.call])
  exact
    { sockets := hsockets
      handled := hhandled
      distinct := hdistinct
      turns := by
        intro turn i k hp hcall
        rcases h.turns turn i k ((hpending turn (by simp [hcall])).mp hp) hcall with ⟨hi, hk, hnone⟩
        rw [hquiet.connected, hquiet.completionKey, howner k hk]
        exact ⟨hi, hk, hnone⟩
      called := by
        intro i c hc
        rw [hquiet.calls] at hc
        rcases h.called i c hc with ⟨hi, hk⟩
        rw [hquiet.connected, howner _ hk]
        exact ⟨hi, hk⟩
      accepting := by
        simpa only [haccept, hquiet.openConnection, hquiet.completionKey] using h.accepting
      announced := by
        intro i k hk hi
        rw [hquiet.connected] at hk
        rw [howner k hk] at hi
        rw [hannouncing, hquiet.calls]
        exact h.announced i k hk hi
      later := by
        simpa only [hannouncing, hquiet.calls] using h.later
      closing := by
        simpa only [hclose, hquiet.openConnection] using h.closing
      closed := by
        intro i k hk hi
        rw [hquiet.connected] at hk
        rw [howner k hk] at hi
        rw [hquiet.openConnection, honClose, hquiet.calls]
        exact h.closed i k hk hi
      notClosed := by
        simpa only [honClose, hquiet.openConnection, hquiet.calls] using h.notClosed
      stillOpen := by
        simpa only [hquiet.openConnection, hquiet.calls] using h.stillOpen
      calls := by
        simpa only [hquiet.calls] using h.calls }

/-- A step of a worker that neither ends nor starts a call for a connection -/
theorem Inv.quiet_next (h : s.Inv owner) (hsockets : r.1.Sockets owner)
    (hhandled : ∀ e ∈ r.1.handled, e.2 = some e.1) (hquiet : s.Quiet r.1)
    (hold : (s.mIOWorkerThreads worker).call = none) (hnew : r.2.call = none) :
    (s.next worker r).Inv owner := by
  refine h.quiet hsockets (fun _ _ => rfl) hhandled ?_ hquiet ?_
  · exact h.distinct.next fun hcall => absurd hnew hcall
  · intro turn hcall
    rcases Option.ne_none_iff_exists'.mp hcall with ⟨c, hc⟩
    rw [h.distinct.pending_start r hold hc, or_iff_right]
    rintro rfl
    exact hcall hnew

theorem handled_take {op : Overlapped n} (h : ∀ e ∈ s.handled, e.2 = some e.1) :
    ∀ e ∈ (s.take op (some op.poster)).handled, e.2 = some e.1 := by
  intro e he
  rcases List.mem_append.mp he with he | he
  · exact h e he
  · rw [List.mem_singleton.mp he]

/-- The completion of an accept is taken. -/
theorem Inv.connect (h : s.Inv owner) {op : Overlapped n} (hop : op ∈ s.outstanding)
    (haccept : op.m_eOperation = .accept) (hwaiting : s.mIOWorkerThreads worker = .waiting) :
    (s.next worker (s.connect op, .acceptCompletion op.poster op.connection)).Inv owner := by
  rcases h.sockets.accepts op hop haccept with ⟨-, hsock, hnew⟩
  rcases h.sockets.sock _ _ hsock with ⟨howner, hlatest⟩
  have heq := h.sockets.connect_openConnection hop haccept
  have hnone : ∀ k, s.openConnection op.poster ≠ some k := by
    intro k hk
    rcases IOCPServer.openConnection_eq_some.mp hk with ⟨hsock', hmem⟩
    obtain rfl : op.connection = k := Option.some.inj (hsock.symm.trans hsock')
    exact hnew hmem
  have hopen {j : Fin n} {k : ℕ} (hk : s.openConnection j = some k) :
      (s.connect op).openConnection j = some k := by
    rw [heq, if_neg, hk]
    rintro rfl
    exact hnone k hk
  have hold {j : Fin n} {k : ℕ} (hk : (s.connect op).openConnection j = some k)
      (hmem : k ∈ s.connected) : s.openConnection j = some k := by
    rw [heq] at hk
    split_ifs at hk with hj
    · obtain rfl := Option.some.inj hk
      exact absurd hmem hnew
    · exact hk
  have hself : (s.connect op).openConnection op.poster = some op.connection := by
    rw [heq, if_pos rfl]
  have hp {turn : WorkerTurn n} {c : Fin n × ℕ} (hturn : turn.call = some c) :=
    h.distinct.pending_start (s.connect op, .acceptCompletion op.poster op.connection)
      (by rw [hwaiting]; rfl) hturn
  exact
    { sockets := h.sockets.connect hop haccept
      handled := handled_take h.handled
      distinct := h.distinct.next fun _ hpending => hnew (h.turns _ _ _ hpending rfl).2.1
      turns := by
        intro turn i k hpending hcall
        rcases (hp hcall).mp hpending with rfl | hpending
        · obtain ⟨rfl, rfl⟩ := Prod.mk.inj (Option.some.inj hcall)
          exact ⟨howner, by simp [next, IOCPServer.connect], fun _ => rfl⟩
        · rcases h.turns turn i k hpending hcall with ⟨hi, hk, hnone⟩
          exact ⟨hi, List.mem_append_left _ hk, hnone⟩
      called := by
        intro i c hc
        rcases h.called i c hc with ⟨hi, hk⟩
        exact ⟨hi, List.mem_append_left _ hk⟩
      accepting := by
        intro i k hpending
        rcases (hp rfl).mp hpending with heq | hpending
        · obtain ⟨rfl, rfl⟩ := WorkerTurn.acceptCompletion.inj heq
          refine ⟨hself, Option.eq_none_iff_forall_ne_some.mpr fun j hj => ?_⟩
          exact hnew (h.sockets.key _ j hj).2
        · rcases h.accepting i k hpending with ⟨hi, hkey⟩
          exact ⟨hopen hi, hkey⟩
      announced := by
        intro i k hk hi
        rcases List.mem_append.mp hk with hk | hk
        · rcases h.announced i k hk hi with (hpending | hpending) | hmem
          · exact .inl (.inl ((hp rfl).mpr (.inr hpending)))
          · exact .inl (.inr ((hp rfl).mpr (.inr hpending)))
          · exact .inr hmem
        · obtain rfl := List.mem_singleton.mp hk
          obtain rfl := Option.some.inj (howner.symm.trans hi)
          exact .inl (.inl ((hp rfl).mpr (.inl rfl)))
      later := by
        intro i k hannouncing c hc
        rcases hannouncing with hpending | hpending
        · rcases (hp rfl).mp hpending with heq | hpending
          · obtain ⟨rfl, rfl⟩ := WorkerTurn.acceptCompletion.inj heq
            rcases h.called _ c hc with ⟨hi, hk⟩
            refine lt_of_le_of_ne (hlatest _ hi) fun heq => hnew ?_
            rwa [← heq]
          · exact h.later i k (.inl hpending) c hc
        · exact h.later i k (.inr (((hp rfl).mp hpending).resolve_left (by simp))) c hc
      closing := by
        intro i k hpending
        exact hopen (h.closing i k (((hp rfl).mp hpending).resolve_left (by simp)))
      closed := by
        intro i k hk hi
        rcases List.mem_append.mp hk with hk | hk
        · rcases h.closed i k hk hi with hi | hpending | hmem
          · exact .inl (hopen hi)
          · exact .inr (.inl ((hp rfl).mpr (.inr hpending)))
          · exact .inr (.inr hmem)
        · obtain rfl := List.mem_singleton.mp hk
          obtain rfl := Option.some.inj (howner.symm.trans hi)
          exact .inl hself
      notClosed := by
        intro i k hpending
        have hpending := ((hp rfl).mp hpending).resolve_left (by simp)
        rcases h.notClosed i k hpending with ⟨hi, hmem⟩
        exact ⟨fun hk => hi (hold hk (h.turns _ i k hpending rfl).2.1), hmem⟩
      stillOpen := by
        intro i k hk hmem
        exact h.stillOpen i k (hold hk (h.called i _ hmem).2) hmem
      calls := h.calls }

/-- A failed completion is taken for the open connection, which no worker is to close. -/
theorem Inv.failed (h : s.Inv owner) {op : Overlapped n}
    (hopen : s.openConnection op.poster = some op.connection)
    (hkey : s.completionKey op.connection ≠ none)
    (hnot : ¬s.Pending (.close op.poster op.connection))
    (hwaiting : s.mIOWorkerThreads worker = .waiting) :
    (s.next worker (s.take op (some op.poster), .close op.poster op.connection)).Inv owner := by
  rcases IOCPServer.openConnection_eq_some.mp hopen with ⟨hsock, hconnected⟩
  have hp {turn : WorkerTurn n} {c : Fin n × ℕ} (hturn : turn.call = some c) :=
    h.distinct.pending_start (s.take op (some op.poster), .close op.poster op.connection)
      (by rw [hwaiting]; rfl) hturn
  have hannouncing (i : Fin n) (k : ℕ) :
      (s.next worker (s.take op (some op.poster), .close op.poster op.connection)).Announcing i k ↔
        s.Announcing i k :=
    or_congr (by rw [hp rfl]; simp) (by rw [hp rfl]; simp)
  exact
    { sockets := h.sockets.take _
      handled := handled_take h.handled
      distinct := h.distinct.next fun _ => hnot
      turns := by
        intro turn i k hpending hcall
        rcases (hp hcall).mp hpending with rfl | hpending
        · obtain ⟨rfl, rfl⟩ := Prod.mk.inj (Option.some.inj hcall)
          exact ⟨(h.sockets.sock _ _ hsock).1, hconnected, fun hnone => absurd hnone hkey⟩
        · exact h.turns turn i k hpending hcall
      called := h.called
      accepting := by
        intro i k hpending
        exact h.accepting i k (((hp rfl).mp hpending).resolve_left (by simp))
      announced := by
        intro i k hk hi
        rw [hannouncing]
        exact h.announced i k hk hi
      later := by
        intro i k hpending
        rw [hannouncing] at hpending
        exact h.later i k hpending
      closing := by
        intro i k hpending
        rcases (hp rfl).mp hpending with heq | hpending
        · obtain ⟨rfl, rfl⟩ := WorkerTurn.close.inj heq
          exact hopen
        · exact h.closing i k hpending
      closed := by
        intro i k hk hi
        rcases h.closed i k hk hi with hi | hpending | hmem
        · exact .inl hi
        · exact .inr (.inl ((hp rfl).mpr (.inr hpending)))
        · exact .inr (.inr hmem)
      notClosed := by
        intro i k hpending
        exact h.notClosed i k (((hp rfl).mp hpending).resolve_left (by simp))
      stillOpen := h.stillOpen
      calls := h.calls }

theorem Inv.acceptCompletion (h : s.Inv owner) (hpending : s.Pending (.acceptCompletion i k)) :
    s.acceptCompletion i true = (s.bound i k, true) := by
  have hopen := (h.accepting i k hpending).1
  have hsock := (IOCPServer.openConnection_eq_some.mp hopen).1
  rw [IOCPServer.acceptCompletion, hsock]
  exact IOCPServer.bindRecv_of_open hopen

theorem Inv.bound (h : s.Inv owner) (hturn : s.mIOWorkerThreads worker = .acceptCompletion i k) :
    (s.next worker (s.bound i k, .onConnect i k)).Inv owner := by
  have hpending : s.Pending (.acceptCompletion i k) := ⟨worker, hturn⟩
  rcases h.turns _ _ _ hpending rfl with ⟨howner, hconnected, -⟩
  rcases h.accepting i k hpending with ⟨hopen, hnone⟩
  have hnew : ¬s.Pending (.onConnect i k) := fun hconnect =>
    absurd ((h.turns _ _ _ hconnect rfl).2.2 hnone) (by simp)
  have hp {turn : WorkerTurn n} {c : Fin n × ℕ} (hcall : turn.call = some c) :=
    h.distinct.pending_next worker (s.bound i k, .onConnect i k) hcall
  rw [hturn] at hp
  have hkey {k' : ℕ} (hk' : Function.update s.completionKey k (some i) k' = none) :
      k' ≠ k ∧ s.completionKey k' = none := by
    rcases eq_or_ne k' k with rfl | hne
    · simp at hk'
    · exact ⟨hne, by rwa [Function.update_of_ne hne] at hk'⟩
  have hannouncing (i' : Fin n) (k' : ℕ) :
      (s.next worker (s.bound i k, .onConnect i k)).Announcing i' k' ↔
        s.Announcing i' k' := by
    rw [Announcing, Announcing, hp rfl, hp rfl]
    simp only [reduceCtorEq, false_or, ne_eq, WorkerTurn.acceptCompletion.injEq,
      WorkerTurn.onConnect.injEq, not_false_eq_true, and_true]
    constructor
    · rintro (⟨hold, -⟩ | ⟨rfl, rfl⟩ | hold)
      · exact .inl hold
      · exact .inl hpending
      · exact .inr hold
    · rintro (hold | hold)
      · by_cases heq : i' = i ∧ k' = k
        · exact .inr (.inl heq)
        · exact .inl ⟨hold, heq⟩
      · exact .inr (.inr hold)
  have hsockets : (s.bound i k).Sockets owner :=
    (h.sockets.bind howner hconnected).post hopen (by decide)
  exact
    { sockets := hsockets
      handled := h.handled
      distinct := h.distinct.next fun _ => hnew
      turns := by
        intro turn i' k' hp' hcall
        rcases (hp hcall).mp hp' with rfl | ⟨hold, hne⟩
        · obtain ⟨rfl, rfl⟩ := Prod.mk.inj (Option.some.inj hcall)
          exact ⟨howner, hconnected, fun hnone => absurd rfl (hkey hnone).1⟩
        · rcases h.turns turn i' k' hold hcall with ⟨hi, hk, hturn⟩
          exact ⟨hi, hk, fun hnone => hturn (hkey hnone).2⟩
      called := h.called
      accepting := by
        intro i' k' hp'
        rcases ((hp rfl).mp hp').resolve_left (by simp) with ⟨hold, hne⟩
        rcases h.accepting i' k' hold with ⟨hi, hnone'⟩
        refine ⟨hi, ?_⟩
        have hk' : k' ≠ k := by
          rintro rfl
          obtain rfl := Option.some.inj ((h.turns _ _ _ hold rfl).1.symm.trans howner)
          exact hne rfl
        exact (Function.update_of_ne hk' _ _).trans hnone'
      announced := by
        intro i' k' hk hi
        rw [hannouncing]
        exact h.announced i' k' hk hi
      later := by
        intro i' k' hp'
        rw [hannouncing] at hp'
        exact h.later i' k' hp'
      closing := by
        intro i' k' hp'
        exact h.closing i' k' (((hp rfl).mp hp').resolve_left (by simp)).1
      closed := by
        intro i' k' hk hi
        rcases h.closed i' k' hk hi with hi | hold | hmem
        · exact .inl hi
        · exact .inr (.inl ((hp rfl).mpr (.inr ⟨hold, by simp⟩)))
        · exact .inr (.inr hmem)
      notClosed := by
        intro i' k' hp'
        exact h.notClosed i' k' (((hp rfl).mp hp').resolve_left (by simp)).1
      stillOpen := h.stillOpen
      calls := h.calls }

/-- `OnConnect` comes after the closes of the earlier connections of the slot. -/
theorem Inv.connect_alternates (h : s.Inv owner) (hpending : s.Pending (.onConnect i k))
    (horder : ∀ b, ¬(s.mIOWorkerThreads b).ClosesEarlier i k) : Alternate (s.calls i) none := by
  rcases h.calls i with ⟨_ | k', ho⟩
  · exact ho
  · rcases ho.mem_of_open with ⟨hconnect, hclose⟩
    rcases h.called i _ hconnect with ⟨howner, hk'⟩
    have hlt : k' < k := h.later i k (.inr hpending) _ hconnect
    rcases h.closed i k' hk' howner with hopen | ⟨b, hb⟩ | hmem
    · have hsock := (IOCPServer.openConnection_eq_some.mp hopen).1
      have hle := (h.sockets.sock i k' hsock).2 k (h.turns _ i k hpending rfl).1
      exact absurd hle (not_le.mpr hlt)
    · refine absurd ?_ (horder b)
      rw [hb]
      exact ⟨rfl, hlt⟩
    · exact absurd hmem hclose

/-- What a worker has still to announce is later than the connection that is announced now. -/
theorem Inv.lt_of_announcing (h : s.Inv owner) (hpending : s.Pending (.onConnect i k))
    (horder : ∀ b, ¬(s.mIOWorkerThreads b).ClosesEarlier i k) {k' : ℕ}
    (hannouncing : s.Announcing i k') (hne : k' ≠ k) : k < k' := by
  have howner := (h.turns _ i k hpending rfl).1
  have hturn : owner k' = some i ∧ k' ∈ s.connected := by
    rcases hannouncing with hp | hp
    · exact ⟨(h.turns _ _ _ hp rfl).1, (h.turns _ _ _ hp rfl).2.1⟩
    · exact ⟨(h.turns _ _ _ hp rfl).1, (h.turns _ _ _ hp rfl).2.1⟩
  rcases h.closed i k' hturn.2 hturn.1 with hopen | ⟨b, hb⟩ | hmem
  · have hsock := (IOCPServer.openConnection_eq_some.mp hopen).1
    exact lt_of_le_of_ne ((h.sockets.sock i k' hsock).2 k howner) hne.symm
  · by_contra hlt
    refine horder b ?_
    rw [hb]
    exact ⟨rfl, lt_of_le_of_ne (not_lt.mp hlt) hne⟩
  · exact absurd (h.later i k' hannouncing _ hmem) (lt_irrefl k')

theorem Inv.onConnect (h : s.Inv owner) (hturn : s.mIOWorkerThreads worker = .onConnect i k)
    (horder : ∀ b, ¬(s.mIOWorkerThreads b).ClosesEarlier i k) :
    (s.next worker (s.onConnect i k, .waiting)).Inv owner := by
  have hpending : s.Pending (.onConnect i k) := ⟨worker, hturn⟩
  rcases h.turns _ _ _ hpending rfl with ⟨howner, hconnected, -⟩
  have hp {turn : WorkerTurn n} {c : Fin n × ℕ} (hcall : turn.call = some c) :=
    h.distinct.pending_end worker (s.onConnect i k) hcall
  rw [hturn] at hp
  exact
    { sockets := h.sockets.record _
      handled := h.handled
      distinct := h.distinct.next (absurd rfl)
      turns := fun turn i' k' hp' hcall => h.turns turn i' k' ((hp hcall).mp hp').1 hcall
      called := by
        intro j c hc
        rcases IOCPServer.mem_update_append.mp hc with hc | ⟨rfl, rfl⟩
        · exact h.called j c hc
        · exact ⟨howner, hconnected⟩
      accepting := fun i' k' hp' => h.accepting i' k' ((hp rfl).mp hp').1
      announced := by
        intro i' k' hk hi
        by_cases heq : i' = i ∧ k' = k
        · obtain ⟨rfl, rfl⟩ := heq
          exact .inr (IOCPServer.mem_update_append.mpr (.inr ⟨rfl, rfl⟩))
        · rcases h.announced i' k' hk hi with (hp' | hp') | hmem
          · exact .inl (.inl ((hp rfl).mpr ⟨hp', by simp⟩))
          · exact .inl (.inr ((hp rfl).mpr ⟨hp', by simpa using heq⟩))
          · exact .inr (IOCPServer.mem_update_of_mem hmem)
      later := by
        intro i' k' hannouncing c hc
        have hann : s.Announcing i' k' ∧ ¬(i' = i ∧ k' = k) := by
          rcases hannouncing with hp' | hp'
          · refine ⟨.inl ((hp rfl).mp hp').1, ?_⟩
            rintro ⟨rfl, rfl⟩
            have hnone := (h.accepting _ _ ((hp rfl).mp hp').1).2
            cases (h.turns _ _ _ hpending rfl).2.2 hnone
          · refine ⟨.inr ((hp rfl).mp hp').1, ?_⟩
            rintro ⟨rfl, rfl⟩
            exact ((hp rfl).mp hp').2 rfl
        rcases IOCPServer.mem_update_append.mp hc with hc | ⟨rfl, rfl⟩
        · exact h.later i' k' hann.1 c hc
        · exact h.lt_of_announcing hpending horder hann.1 fun heq => hann.2 ⟨rfl, heq⟩
      closing := fun i' k' hp' => h.closing i' k' ((hp rfl).mp hp').1
      closed := by
        intro i' k' hk hi
        rcases h.closed i' k' hk hi with hi | hp' | hmem
        · exact .inl hi
        · exact .inr (.inl ((hp rfl).mpr ⟨hp', by simp⟩))
        · exact .inr (.inr (IOCPServer.mem_update_of_mem hmem))
      notClosed := by
        intro i' k' hp'
        rcases h.notClosed i' k' ((hp rfl).mp hp').1 with ⟨hi, hmem⟩
        refine ⟨hi, fun hmem' => ?_⟩
        rcases IOCPServer.mem_update_append.mp hmem' with hmem' | ⟨-, heq⟩
        · exact hmem hmem'
        · cases heq
      stillOpen := by
        intro i' k' hi hmem
        rcases IOCPServer.mem_update_append.mp hmem with hmem | ⟨-, heq⟩
        · exact h.stillOpen i' k' hi hmem
        · cases heq
      calls := by
        intro j
        rcases eq_or_ne j i with rfl | hne
        · refine ⟨some k, ?_⟩
          change Alternate (Function.update s.calls j (s.calls j ++ [.onConnect k]) j) _
          rw [Function.update_self]
          refine .onConnect (h.connect_alternates hpending horder) fun c hc heq => ?_
          exact absurd (h.later j k (.inr hpending) c hc) (by rw [heq]; exact lt_irrefl k)
        · rcases h.calls j with ⟨o, ho⟩
          exact ⟨o, by simpa [next, IOCPServer.onConnect, Function.update_of_ne hne] using ho⟩ }

/-- The open connection of a slot is closed, and `OnClose` is to follow. -/
theorem Inv.close (h : s.Inv owner) (hturn : s.mIOWorkerThreads worker = .close i k) :
    (s.next worker (s.close i, .onClose i k)).Inv owner := by
  have hpending : s.Pending (.close i k) := ⟨worker, hturn⟩
  rcases h.turns _ _ _ hpending rfl with ⟨howner, hconnected, hkey⟩
  have hopen := h.closing i k hpending
  have hp {turn : WorkerTurn n} {c : Fin n × ℕ} (hcall : turn.call = some c) :=
    h.distinct.pending_next worker (s.close i, .onClose i k) hcall
  rw [hturn] at hp
  have hother {j : Fin n} (hj : j ≠ i) : (s.close i).openConnection j = s.openConnection j := by
    rw [IOCPServer.close_openConnection, if_neg hj]
  have hself (k' : ℕ) : (s.close i).openConnection i ≠ some k' := by
    rw [IOCPServer.close_openConnection, if_pos rfl]
    exact (Option.some_ne_none k').symm
  have hannouncing (i' : Fin n) (k' : ℕ) :
      (s.next worker (s.close i, .onClose i k)).Announcing i' k' ↔ s.Announcing i' k' := by
    rw [Announcing, Announcing, hp rfl, hp rfl]
    simp
  exact
    { sockets := h.sockets.close hopen
      handled := h.handled
      distinct := h.distinct.next fun _ honClose => (h.notClosed i k honClose).1 hopen
      turns := by
        intro turn i' k' hp' hcall
        rcases (hp hcall).mp hp' with rfl | ⟨hold, -⟩
        · obtain ⟨rfl, rfl⟩ := Prod.mk.inj (Option.some.inj hcall)
          exact ⟨howner, hconnected, fun hnone => absurd (hkey hnone) (by simp)⟩
        · exact h.turns turn i' k' hold hcall
      called := h.called
      accepting := by
        intro i' k' hp'
        rcases h.accepting i' k' (((hp rfl).mp hp').resolve_left (by simp)).1 with ⟨hi, hnone⟩
        refine ⟨(hother ?_).trans hi, hnone⟩
        rintro rfl
        obtain rfl := Option.some.inj (hopen.symm.trans hi)
        cases hkey hnone
      announced := by
        intro i' k' hk hi
        rw [hannouncing]
        exact h.announced i' k' hk hi
      later := by
        intro i' k' hp'
        rw [hannouncing] at hp'
        exact h.later i' k' hp'
      closing := by
        intro i' k' hp'
        rcases ((hp rfl).mp hp').resolve_left (by simp) with ⟨hold, hne⟩
        have hi := h.closing i' k' hold
        refine (hother ?_).trans hi
        rintro rfl
        obtain rfl := Option.some.inj (hopen.symm.trans hi)
        exact hne rfl
      closed := by
        intro i' k' hk hi
        rcases h.closed i' k' hk hi with hi' | hold | hmem
        · rcases eq_or_ne i' i with rfl | hne
          · obtain rfl := Option.some.inj (hopen.symm.trans hi')
            exact .inr (.inl ((hp rfl).mpr (.inl rfl)))
          · exact .inl ((hother hne).trans hi')
        · exact .inr (.inl ((hp rfl).mpr (.inr ⟨hold, by simp⟩)))
        · exact .inr (.inr hmem)
      notClosed := by
        intro i' k' hp'
        rcases (hp rfl).mp hp' with heq | ⟨hold, -⟩
        · obtain ⟨rfl, rfl⟩ := WorkerTurn.onClose.inj heq
          exact ⟨hself _, h.stillOpen _ _ hopen⟩
        · rcases h.notClosed i' k' hold with ⟨hi, hmem⟩
          refine ⟨fun hi' => ?_, hmem⟩
          rcases eq_or_ne i' i with rfl | hne
          · exact hself _ hi'
          · exact hi ((hother hne).symm.trans hi')
      stillOpen := by
        intro i' k' hi
        rcases eq_or_ne i' i with rfl | hne
        · exact absurd hi (hself k')
        · exact h.stillOpen i' k' ((hother hne).symm.trans hi)
      calls := h.calls }

/-- The connection was announced, as no worker is to do so any more. -/
theorem Inv.announced_of_closing (h : s.Inv owner) (hpending : s.Pending (.onClose i k))
    (horder : ¬s.Pending (.onConnect i k)) : .onConnect k ∈ s.calls i := by
  rcases h.turns _ _ _ hpending rfl with ⟨howner, hconnected, hkey⟩
  rcases h.announced i k hconnected howner with (haccept | hconnect) | hmem
  · cases hkey (h.accepting i k haccept).2
  · exact absurd hconnect horder
  · exact hmem

theorem Inv.onClose (h : s.Inv owner) (hturn : s.mIOWorkerThreads worker = .onClose i k)
    (horder : ¬s.Pending (.onConnect i k)) :
    (s.next worker (s.onClose i k, .waiting)).Inv owner := by
  have hpending : s.Pending (.onClose i k) := ⟨worker, hturn⟩
  rcases h.turns _ _ _ hpending rfl with ⟨howner, hconnected, -⟩
  rcases h.notClosed i k hpending with ⟨hopen, hclose⟩
  have hconnect := h.announced_of_closing hpending horder
  have hp {turn : WorkerTurn n} {c : Fin n × ℕ} (hcall : turn.call = some c) :=
    h.distinct.pending_end worker (s.onClose i k) hcall
  rw [hturn] at hp
  exact
    { sockets := h.sockets.record _
      handled := h.handled
      distinct := h.distinct.next (absurd rfl)
      turns := fun turn i' k' hp' hcall => h.turns turn i' k' ((hp hcall).mp hp').1 hcall
      called := by
        intro j c hc
        rcases IOCPServer.mem_update_append.mp hc with hc | ⟨rfl, rfl⟩
        · exact h.called j c hc
        · exact ⟨howner, hconnected⟩
      accepting := fun i' k' hp' => h.accepting i' k' ((hp rfl).mp hp').1
      announced := by
        intro i' k' hk hi
        rcases h.announced i' k' hk hi with (hp' | hp') | hmem
        · exact .inl (.inl ((hp rfl).mpr ⟨hp', by simp⟩))
        · exact .inl (.inr ((hp rfl).mpr ⟨hp', by simp⟩))
        · exact .inr (IOCPServer.mem_update_of_mem hmem)
      later := by
        intro i' k' hannouncing c hc
        have hann : s.Announcing i' k' := hannouncing.imp (fun hp' => ((hp rfl).mp hp').1)
          fun hp' => ((hp rfl).mp hp').1
        rcases IOCPServer.mem_update_append.mp hc with hc | ⟨rfl, rfl⟩
        · exact h.later i' k' hann c hc
        · exact h.later _ k' hann (.onConnect k) hconnect
      closing := fun i' k' hp' => h.closing i' k' ((hp rfl).mp hp').1
      closed := by
        intro i' k' hk hi
        rcases h.closed i' k' hk hi with hi' | hp' | hmem
        · exact .inl hi'
        · by_cases heq : i' = i ∧ k' = k
          · obtain ⟨rfl, rfl⟩ := heq
            exact .inr (.inr (IOCPServer.mem_update_append.mpr (.inr ⟨rfl, rfl⟩)))
          · exact .inr (.inl ((hp rfl).mpr ⟨hp', by simpa using heq⟩))
        · exact .inr (.inr (IOCPServer.mem_update_of_mem hmem))
      notClosed := by
        intro i' k' hp'
        rcases h.notClosed i' k' ((hp rfl).mp hp').1 with ⟨hi, hmem⟩
        refine ⟨hi, fun hmem' => ?_⟩
        rcases IOCPServer.mem_update_append.mp hmem' with hmem' | ⟨rfl, heq⟩
        · exact hmem hmem'
        · obtain rfl := Call.onClose.inj heq
          exact ((hp rfl).mp hp').2 rfl
      stillOpen := by
        intro i' k' hi hmem
        rcases IOCPServer.mem_update_append.mp hmem with hmem | ⟨rfl, heq⟩
        · exact h.stillOpen i' k' hi hmem
        · obtain rfl := Call.onClose.inj heq
          exact hopen hi
      calls := by
        intro j
        rcases eq_or_ne j i with rfl | hne
        · rcases h.calls j with ⟨o, ho⟩
          obtain rfl := ho.open_of_mem hconnect hclose
          refine ⟨none, ?_⟩
          change Alternate (Function.update s.calls j (s.calls j ++ [.onClose k]) j) _
          rw [Function.update_self]
          exact .onClose ho
        · rcases h.calls j with ⟨o, ho⟩
          exact ⟨o, by simpa [next, IOCPServer.onClose, Function.update_of_ne hne] using ho⟩ }

/-! ## One step -/

theorem Inv.sendMsg (h : s.Inv owner) (i : Fin n) (wsaSend : Bool) :
    ({ s with toIOCPServer := s.sendMsg i wsaSend } : WorkerPool n w).Inv owner := by
  have hq := IOCPServer.queued_sendMsg (s := s.toIOCPServer) (i := i) wsaSend
  refine h.quiet (h.sockets.queued hq) (fun _ _ => rfl) ?_ h.distinct hq.quiet fun _ _ => Iff.rfl
  rw [hq.handled]
  exact h.handled

theorem Inv.postAccept (h : s.Inv owner) {curTimeSec : Int64}
    (htest : (s.mClientInfos i).accepterTest curTimeSec = true) (wsaSocket acceptEx : Bool) :
    ({ s with toIOCPServer := s.postAccept i curTimeSec wsaSocket acceptEx } :
      WorkerPool n w).Inv (Function.update owner s.sockets (some i)) := by
  refine h.quiet (h.sockets.postAccept htest wsaSocket acceptEx) ?_ ?_ h.distinct ?_
    fun _ _ => Iff.rfl
  · exact fun k hk => Function.update_of_ne (h.sockets.connected_lt k hk).ne _ _
  · cases wsaSocket <;> cases acceptEx <;> exact h.handled
  · exact h.sockets.quiet_postAccept htest wsaSocket acceptEx

/-- The client whose key the completion has is the one that posted the operation. -/
theorem Inv.keyOf (h : s.Inv owner) {op : Overlapped n} (hop : op ∈ s.outstanding)
    (hother : op.m_eOperation ≠ .accept) (hkey : s.completionKey op.connection ≠ none) :
    s.keyOf op = some op.poster := by
  rcases Option.ne_none_iff_exists'.mp hkey with ⟨j, hj⟩
  have howner := (h.sockets.key _ j hj).1
  rw [h.sockets.posted op hop hother] at howner
  rw [IOCPServer.keyOf, if_neg hother, hj, Option.some.inj howner]

/-- A completion is taken in order. -/
theorem Inv.completion (h : s.Inv owner) {op : Overlapped n} {bSuccess : Bool} {dwIoSize : ℕ}
    (hop : op ∈ s.outstanding) (hwaiting : s.mIOWorkerThreads worker = .waiting)
    (hkey : op.m_eOperation = .accept ∨ (s.completionKey op.connection).isSome)
    (horder : s.InOrder (.completion worker op bSuccess dwIoSize))
    (hget : s.getQueuedCompletionStatus op bSuccess dwIoSize = some r) :
    (s.next worker r).Inv owner := by
  have hcall : (s.mIOWorkerThreads worker).call = none := by rw [hwaiting]; rfl
  have htake : s.Quiet (s.take op (some op.poster)) := ⟨rfl, rfl, rfl, fun _ => rfl⟩
  rw [IOCPServer.getQueuedCompletionStatus] at hget
  simp only [InOrder] at horder
  by_cases haccept : op.m_eOperation = .accept
  · rw [if_pos haccept] at horder
    rw [if_neg (by simp [horder, haccept])] at hget
    simp only [haccept, (h.sockets.accepts op hop haccept).1,
      IOCPServer.getClientInfo_poster] at hget
    obtain rfl := Option.some.inj hget
    exact h.connect hop haccept hwaiting
  · have hkey := Option.isSome_iff_ne_none.mp (hkey.resolve_left haccept)
    rw [if_neg haccept] at horder
    rw [h.keyOf hop haccept hkey] at hget
    split_ifs at hget with hfailed
    · obtain rfl := Option.some.inj hget
      rcases horder (by simpa [haccept] using hfailed) with ⟨hopen, hnot⟩
      exact h.failed hopen hkey hnot hwaiting
    · rcases op with ⟨_ | _ | _, sessionIndex, poster, connection⟩
      · exact absurd rfl haccept
      · obtain rfl := Option.some.inj hget
        exact h.quiet_next (h.sockets.take _) (handled_take h.handled) htake hcall rfl
      · obtain rfl := Option.some.inj hget
        exact h.quiet_next (h.sockets.take _) (handled_take h.handled) htake hcall rfl

/-- A worker makes the next call of its turn in order. -/
theorem Inv.resume (h : s.Inv owner) {wsaResult : Bool} (hturn : s.mIOWorkerThreads worker = turn)
    (horder : s.CallInOrder wsaResult turn) (hresume : s.resume wsaResult turn = some r) :
    (s.next worker r).Inv owner := by
  cases turn with
  | waiting => cases hresume
  | acceptCompletion i k =>
    obtain rfl : wsaResult = true := horder
    rw [IOCPServer.resume, h.acceptCompletion ⟨worker, hturn⟩] at hresume
    obtain rfl := Option.some.inj hresume
    exact h.bound hturn
  | onConnect i k =>
    obtain rfl := Option.some.inj hresume
    exact h.onConnect hturn horder
  | close i k =>
    obtain rfl := Option.some.inj hresume
    exact h.close hturn
  | onClose i k =>
    obtain rfl := Option.some.inj hresume
    exact h.onClose hturn horder
  | bindRecv i =>
    obtain rfl := Option.some.inj hresume
    have hcall : (s.mIOWorkerThreads worker).call = none := by rw [hturn]; rfl
    rcases IOCPServer.bindRecv_cases (s := s.toIOCPServer) (i := i) wsaResult with
      hbind | ⟨k, hopen, hbind⟩
    · rw [hbind]
      exact h.quiet_next h.sockets h.handled ⟨rfl, rfl, rfl, fun _ => rfl⟩ hcall rfl
    · rw [hbind]
      exact h.quiet_next (h.sockets.post hopen (by decide)) h.handled
        ⟨rfl, rfl, rfl, fun _ => rfl⟩ hcall rfl
  | sendCompleted i =>
    rcases Option.map_eq_some_iff.mp hresume with ⟨t, ht, rfl⟩
    have hcall : (s.mIOWorkerThreads worker).call = none := by rw [hturn]; rfl
    have hq := IOCPServer.queued_sendCompleted ht
    refine h.quiet_next (h.sockets.queued hq) ?_ hq.quiet hcall rfl
    rw [hq.handled]
    exact h.handled

theorem Inv.step (h : s.Inv owner) {e : WorkerEvent n w} (horder : s.InOrder e)
    (hstep : s.step e = some s') : ∃ owner', s'.Inv owner' := by
  unfold WorkerPool.step at hstep
  split_ifs at hstep
  cases e with
  | accepterThread i curTimeSec wsaSocket acceptEx =>
    simp only at hstep
    split_ifs at hstep with htest
    obtain rfl := Option.some.inj hstep
    exact ⟨_, h.postAccept htest wsaSocket acceptEx⟩
  | sendMsg i wsaSend =>
    obtain rfl := Option.some.inj hstep
    exact ⟨_, h.sendMsg i wsaSend⟩
  | completion worker op bSuccess dwIoSize =>
    simp only at hstep
    split_ifs at hstep with hop
    rcases Option.map_eq_some_iff.mp hstep with ⟨r, hget, rfl⟩
    exact ⟨_, h.completion hop.1 hop.2.1 hop.2.2 horder hget⟩
  | resume worker wsaResult =>
    rcases Option.map_eq_some_iff.mp hstep with ⟨r, hresume, rfl⟩
    exact ⟨_, h.resume rfl horder hresume⟩

end WorkerPool

/-- In every run whose steps are in order, with the workers interleaved in any way, each
completion is handled on the client that posted it, and the calls for each slot alternate. -/
theorem connect_close_alternate {n w : ℕ}
    {past : List (Entry (WorkerPool n w) (WorkerEvent n w))} {s : WorkerPool n w}
    (run : Run WorkerPool.step (.init n w) past s) (horder : ∀ e ∈ past, e.pre.InOrder e.act) :
    ∀ e ∈ past, e.post.Alternates := by
  rw [← atEach_const]
  rw [← atEach_const] at horder
  refine run.atEach_of_invariant (P := fun _ s => ∃ owner, s.Inv owner) ⟨_, WorkerPool.init_inv⟩
    ?_ ?_ horder
  · rintro past s e s' - ⟨owner, h⟩ hstep horder
    exact h.step horder hstep
  · rintro past s e s' - ⟨owner, h⟩ hstep horder
    rcases h.step horder hstep with ⟨owner', h'⟩
    exact h'.alternates

/-- A receive fails before `OnConnect` is called for its connection, and another worker
closes the socket; the worker of the accept then calls `OnConnect`, and the other one
`OnClose`. -/
theorem alternate_with_failure_before_connect : ∃ past s,
    Run WorkerPool.step (.init 1 2) past s ∧ s.calls 0 = [.onConnect 0, .onClose 0] ∧
      ∀ e ∈ past, e.post.Alternates := by
  obtain ⟨past, s, run, h⟩ := exists_run WorkerPool.step (.init 1 2)
    [.accepterThread 0 4 true true, .completion 0 ⟨.accept, 0, 0, 0⟩ true 0, .resume 0 true,
      .completion 1 ⟨.recv, 0, 0, 0⟩ false 0, .resume 1 true, .resume 0 true, .resume 1 true]
    (fun past s => s.calls 0 = [.onConnect 0, .onClose 0] ∧ ∀ e ∈ past, e.pre.InOrder e.act)
    (by decide +kernel)
  rcases of_decide_eq_true h with ⟨hcalls, horder⟩
  exact ⟨past, s, run, hcalls, connect_close_alternate run horder⟩

/-- When the receive and the send of a connection both fail, it is closed twice. And when a
receive fails before `OnConnect` is called, `OnClose` may be called first. -/
theorem calls_out_of_order :
    (∃ past s, Run WorkerPool.step (.init 1 2) past s ∧
      s.calls 0 = [.onConnect 0, .onClose 0, .onClose 0] ∧ ¬s.Alternates) ∧
    ∃ past s, Run WorkerPool.step (.init 1 2) past s ∧ s.calls 0 = [.onClose 0] ∧
      s.Announcing 0 0 ∧ ¬s.Alternates := by
  constructor
  · obtain ⟨past, s, run, h⟩ := exists_run WorkerPool.step (.init 1 2)
      [.accepterThread 0 4 true true, .completion 0 ⟨.accept, 0, 0, 0⟩ true 0, .resume 0 true,
        .resume 0 true, .sendMsg 0 true, .completion 0 ⟨.recv, 0, 0, 0⟩ false 0, .resume 0 true,
        .resume 0 true, .completion 1 ⟨.send, 0, 0, 0⟩ false 0, .resume 1 true, .resume 1 true]
      (fun _ s => s.calls 0 = [.onConnect 0, .onClose 0, .onClose 0]) (by decide +kernel)
    have hcalls := of_decide_eq_true h
    refine ⟨past, s, run, hcalls, fun halternates => ?_⟩
    rcases halternates.calls 0 with ⟨o, ho, -⟩
    rw [hcalls] at ho
    have hclose := (Alternate.mem_of_onClose [.onConnect 0, .onClose 0] ho).2
    simp at hclose
  · obtain ⟨past, s, run, h⟩ := exists_run WorkerPool.step (.init 1 2)
      [.accepterThread 0 4 true true, .completion 0 ⟨.accept, 0, 0, 0⟩ true 0, .resume 0 true,
        .completion 1 ⟨.recv, 0, 0, 0⟩ false 0, .resume 1 true, .resume 1 true]
      (fun _ s => s.calls 0 = [.onClose 0] ∧ s.Pending (.onConnect 0 0)) (by decide +kernel)
    rcases of_decide_eq_true h with ⟨hcalls, hpending⟩
    refine ⟨past, s, run, hcalls, .inr hpending, fun halternates => ?_⟩
    rcases halternates.calls 0 with ⟨o, ho, -⟩
    rw [hcalls] at ho
    have hconnect := (Alternate.mem_of_onClose [] ho).1
    simp at hconnect

end ChatServer.Network
