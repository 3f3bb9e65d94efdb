import ChatServer.ServerNetwork.WokerThread
import Mathlib.Data.List.Perm.Basic

/-! # Sockets and their slots

A socket belongs to the slot that made it, in every order of completions and whatever
their results: its accept, its completion key and the operations on its connection are
those of that slot. What an event does to the receives that are outstanding follows.
-/

namespace ChatServer.Network
open Recorded

/-- The operation that `BindRecv` posts for a connection of a slot -/
def recvOf {n : ℕ} (i : Fin n) (k : ℕ) : Overlapped n := ⟨.recv, 0, i, k⟩

/-- The completion of a receive with data -/
def NetworkEvent.IsReceived {n : ℕ} : NetworkEvent n → Prop
  | .completion op bSuccess dwIoSize _ =>
    op.m_eOperation = .recv ∧ bSuccess = true ∧ dwIoSize ≠ 0
  | _ => False

instance {n : ℕ} : DecidablePred (NetworkEvent.IsReceived (n := n))
  | .completion .. => instDecidableAnd
  | .accepterThread .. | .sendMsg .. => instDecidableFalse

namespace IOCPServer
variable {n : ℕ} {s s' : IOCPServer n} {op : Overlapped n} {i : Fin n} {k : ℕ}
  {owner : ℕ → Option (Fin n)}

/-- `owner` is the slot that made a socket. Whatever happens, a socket stays with its
slot: an accept on it, its completion key and the operations on its connection are those
of the owner. -/
structure Wired (s : IOCPServer n) (owner : ℕ → Option (Fin n)) : Prop where
  connected_lt : ∀ k ∈ s.connected, k < s.sockets
  sock : ∀ i k, (s.mClientInfos i).mSock = some k → k < s.sockets ∧ owner k = some i
  key : ∀ k i, s.completionKey k = some i → k < s.sockets ∧ owner k = some i
  bound : ∀ i k, s.openConnection i = some k → s.completionKey k = some i
  accepts : ∀ op ∈ s.outstanding, op.m_eOperation = .accept → op.sessionIndex = op.poster ∧
    op.connection < s.sockets ∧ owner op.connection = some op.poster
  keyed : ∀ op ∈ s.outstanding, op.m_eOperation ≠ .accept →
    s.completionKey op.connection = some op.poster

/-- Every open connection was announced. -/
def Announced (s : IOCPServer n) : Prop :=
  ∀ i k, s.openConnection i = some k → .onConnect k ∈ s.calls i

theorem init_wired : (init n).Wired fun _ => none where
  connected_lt := nofun
  sock := nofun
  key := nofun
  bound := nofun
  accepts := nofun
  keyed := nofun

/-- Sockets may be closed, and operations may be taken off or posted on a connection. -/
theorem Wired.of_frame (h : s.Wired owner) (hsockets : s'.sockets = s.sockets)
    (hconnected : s'.connected = s.connected) (hkey : s'.completionKey = s.completionKey)
    (hsock : ∀ i k, (s'.mClientInfos i).mSock = some k → (s.mClientInfos i).mSock = some k)
    (hops : ∀ op ∈ s'.outstanding, op ∈ s.outstanding ∨
      op.m_eOperation ≠ .accept ∧ s.completionKey op.connection = some op.poster) :
    s'.Wired owner where
  connected_lt := by
    rw [hconnected, hsockets]
    exact h.connected_lt
  sock := by
    intro i k hk
    rw [hsockets]
    exact h.sock i k (hsock i k hk)
  key := by
    rw [hkey, hsockets]
    exact h.key
  bound := by
    intro i k hk
    rw [hkey]
    rw [openConnection_eq_some, hconnected] at hk
    exact h.bound i k (openConnection_eq_some.mpr ⟨hsock i k hk.1, hk.2⟩)
  accepts := by
    intro op hop haccept
    rw [hsockets]
    rcases hops op hop with hold | ⟨hother, -⟩
    · exact h.accepts op hold haccept
    · exact absurd haccept hother
  keyed := by
    intro op hop hother
    rw [hkey]
    rcases hops op hop with hold | ⟨-, hnew⟩
    · exact h.keyed op hold hother
    · exact hnew

theorem Wired.take (h : s.Wired owner) (pClientInfo : Option (Fin n)) :
    (s.take op pClientInfo).Wired owner := by
  refine h.of_frame rfl rfl rfl ?_ ?_
  · exact fun _ _ hk => hk
  · exact fun o ho => .inl (List.mem_of_mem_erase ho)

theorem Wired.keyOf (h : s.Wired owner) (hop : op ∈ s.outstanding)
    (hother : op.m_eOperation ≠ .accept) : s.keyOf op = some op.poster :=
  (if_neg hother).trans (h.keyed op hop hother)

theorem Wired.closeSocket (h : s.Wired owner) (i : Fin n) (k : ℕ) :
    (s.closeSocket i k).Wired owner := by
  refine h.of_frame rfl rfl rfl ?_ ?_
  · exact fun _ _ hk => (closeSocket_mSock hk).2
  · exact fun o ho => .inl ho

/-- A receive or a send on the open connection of a slot -/
theorem Wired.post (h : s.Wired owner) (hopen : s.openConnection i = some k) {o : IOOperation}
    (ho : o ≠ .accept) : (s.post ⟨o, 0, i, k⟩).Wired owner := by
  refine h.of_frame rfl rfl rfl ?_ ?_
  · exact fun _ _ hk => hk
  · intro op hop
    rcases List.mem_append.mp hop with hold | hnew
    · exact .inl hold
    · rw [List.mem_singleton.mp hnew]
      exact .inr ⟨ho, h.bound i k hopen⟩

/-- A slot without a socket makes a new one. -/
theorem Wired.newSocket (h : s.Wired owner) (hsock : (s.mClientInfos i).mSock = none)
    {client : ClientInfo} (hclient : client.mSock = none ∨ client.mSock = some s.sockets) :
    (s.newSocket i client).Wired (Function.update owner s.sockets (some i)) := by
  have howner {k : ℕ} (hk : k < s.sockets) :
      Function.update owner s.sockets (some i) k = owner k := Function.update_of_ne hk.ne _ _
  have hopen := newSocket_openConnection h.connected_lt hsock hclient
  constructor
  · exact fun k hk => Nat.lt_succ_of_lt (h.connected_lt k hk)
  · intro j k hk
    rcases newSocket_mSock hclient hk with ⟨rfl, rfl⟩ | ⟨-, hold⟩
    · exact ⟨Nat.lt_succ_self _, Function.update_self _ _ _⟩
    · rcases h.sock j k hold with ⟨hlt, hj⟩
      exact ⟨Nat.lt_succ_of_lt hlt, by rw [howner hlt, hj]⟩
  · intro k j hk
    rcases h.key k j hk with ⟨hlt, hj⟩
    exact ⟨Nat.lt_succ_of_lt hlt, by rw [howner hlt, hj]⟩
  · intro j k hk
    rw [hopen] at hk
    exact h.bound j k hk
  · intro o ho haccept
    rcases h.accepts o ho haccept with ⟨hindex, hlt, hposter⟩
    exact ⟨hindex, Nat.lt_succ_of_lt hlt, by rw [howner hlt, hposter]⟩
  · exact h.keyed

/-! ## What an event does to the receives -/

/-- The receives of a slot that are outstanding -/
def receives (s : IOCPServer n) (i : Fin n) : ℕ :=
  s.outstanding.countP fun op => op.m_eOperation = .recv ∧ op.poster = i

/-- The connection on which the first receive is posted when this accept completes: the
socket of the slot, if it is connected by then. -/
def acceptedConnection (s : IOCPServer n) (op : Overlapped n) : Option ℕ :=
  (s.mClientInfos op.poster).mSock.filter fun k => k = op.connection ∨ k ∈ s.connected

/-- The first receive of a connection that an event posts -/
def firstReceive (s : IOCPServer n) : NetworkEvent n → Option (Fin n × ℕ)
  | .completion op true _ true =>
    if op.m_eOperation = .accept then (s.acceptedConnection op).map (op.poster, ·) else none
  | _ => none

/-- An element is counted before it is erased. -/
theorem countP_erase_of_mem {α : Type*} [DecidableEq α] {l : List α} {a : α} (h : a ∈ l)
    (p : α → Bool) : (l.erase a).countP p + (if p a then 1 else 0) = l.countP p := by
  rw [(List.perm_cons_erase h).countP_eq p, List.countP_cons]

@[simp] theorem receives_post (o : Overlapped n) (j : Fin n) : (s.post o).receives j =
    s.receives j + if o.m_eOperation = .recv ∧ o.poster = j then 1 else 0 := by
  simp [receives, IOCPServer.post, List.countP_cons]

theorem receives_take (hop : op ∈ s.outstanding) (pClientInfo : Option (Fin n)) (j : Fin n) :
    (s.take op pClientInfo).receives j +
      (if op.m_eOperation = .recv ∧ op.poster = j then 1 else 0) = s.receives j := by
  have hcount := countP_erase_of_mem hop fun o => decide (o.m_eOperation = .recv ∧ o.poster = j)
  simp only [decide_eq_true_eq] at hcount
  exact hcount

theorem receives_take_of_ne (hother : op.m_eOperation ≠ .recv) (hop : op ∈ s.outstanding)
    (pClientInfo : Option (Fin n)) (j : Fin n) :
    (s.take op pClientInfo).receives j = s.receives j := by
  have htake := receives_take hop pClientInfo j
  rwa [if_neg fun hrecv => hother hrecv.1] at htake

/-- A receive is still outstanding when another operation is taken off. -/
theorem recvOf_mem_take (hne : recvOf i k ≠ op) (hmem : recvOf i k ∈ s.outstanding)
    (pClientInfo : Option (Fin n)) : recvOf i k ∈ (s.take op pClientInfo).outstanding :=
  (List.mem_erase_of_ne hne).mpr hmem

/-- What an event that is not a completed receive does: it starts the receives of a new
connection, or it starts none, and each slot is then closed or keeps its connection with
the receive on it. -/
inductive ReceiveEffect (s : IOCPServer n) (e : NetworkEvent n) (s' : IOCPServer n) : Prop
  | none (hfirst : s.firstReceive e = none) (hreceives : ∀ j, s'.receives j ≤ s.receives j)
      (hslot : ∀ j, s'.openConnection j = none ∨ s'.openConnection j = s.openConnection j ∧
        ∀ k, recvOf j k ∈ s.outstanding → recvOf j k ∈ s'.outstanding)
  | first (i : Fin n) (k : ℕ) (hfirst : s.firstReceive e = some (i, k))
      (hreceives : ∀ j, s'.receives j = s.receives j + if j = i then 1 else 0)
      (hopen : s'.openConnection i = some k) (hnew : recvOf i k ∈ s'.outstanding)
      (hslot : ∀ j, j ≠ i → s'.openConnection j = s.openConnection j ∧
        ∀ k, recvOf j k ∈ s.outstanding → recvOf j k ∈ s'.outstanding)

/-- What holds after an event in every state: sockets stay with their slots, with the
keys they have, and open connections are announced. -/
structure Follows (s s' : IOCPServer n) : Prop where
  wired : ∃ owner, s'.Wired owner
  announced : s'.Announced
  keys : ∀ k i, s.completionKey k = some i → s'.completionKey k = some i

/-- Nothing is opened, closed or taken off a slot. -/
theorem effect_of_quiet (hwired : ∃ owner, s'.Wired owner) (hannounced : s.Announced)
    (hcalls : s'.calls = s.calls) (hkeys : s'.completionKey = s.completionKey)
    (hopen : ∀ j, s'.openConnection j = s.openConnection j)
    (hreceives : ∀ j, s'.receives j = s.receives j)
    (hkept : ∀ j k, recvOf j k ∈ s.outstanding → recvOf j k ∈ s'.outstanding)
    {e : NetworkEvent n} (hfirst : s.firstReceive e = none) :
    s.Follows s' ∧ s.ReceiveEffect e s' := by
  constructor
  · constructor
    · exact hwired
    · intro j k hk
      rw [hopen] at hk
      rw [hcalls]
      exact hannounced j k hk
    · intro k j hk
      rwa [hkeys]
  · apply ReceiveEffect.none hfirst
    · exact fun j => (hreceives j).le
    · exact fun j => .inr ⟨hopen j, hkept j⟩

/-- A slot is closed, and the others keep what they have. -/
theorem effect_of_closed {c : ℕ} (hwired : s'.Wired owner) (hannounced : s.Announced)
    (hcalls : s'.calls = s.calls)
    (hkeys : ∀ k j, s.completionKey k = some j → s'.completionKey k = some j)
    (hopen : ∀ j, j ≠ i → s'.openConnection j = s.openConnection j)
    (hreceives : ∀ j, s'.receives j ≤ s.receives j)
    (hkept : ∀ j k, j ≠ i → recvOf j k ∈ s.outstanding → recvOf j k ∈ s'.outstanding)
    {e : NetworkEvent n} (hfirst : s.firstReceive e = none) :
    s.Follows (s'.closeSocket i c) ∧ s.ReceiveEffect e (s'.closeSocket i c) := by
  constructor
  · constructor
    · exact ⟨owner, hwired.closeSocket i c⟩
    · intro j k hk
      rw [closeSocket_openConnection, Option.ite_none_left_eq_some] at hk
      apply mem_update_of_mem
      rw [hcalls]
      exact hannounced j k ((hopen j hk.1).symm.trans hk.2)
    · exact hkeys
  · apply ReceiveEffect.none hfirst
    · exact hreceives
    · intro j
      rw [closeSocket_openConnection]
      split_ifs with hj
      · exact .inl rfl
      · exact .inr ⟨hopen j hj, fun k => hkept j k hj⟩

theorem Queued.wired (hq : s.Queued i s') (h : s.Wired owner) : s'.Wired owner := by
  have hsizes (sizes : Fin n → ℕ) : ({ s with mSendDataqueue := sizes } : IOCPServer n).Wired owner :=
    h.of_frame rfl rfl rfl (fun _ _ hk => hk) fun _ ho => .inl ho
  cases hq with
  | waiting sizes => exact hsizes sizes
  | posted sizes hopen => exact (hsizes sizes).post hopen (by decide)

theorem Queued.receives (hq : s.Queued i s') (j : Fin n) : s'.receives j = s.receives j := by
  cases hq with
  | waiting sizes => rfl
  | posted sizes hopen =>
    rw [receives_post]
    rfl

theorem Queued.mem (hq : s.Queued i s') {o : Overlapped n} (ho : o ∈ s.outstanding) :
    o ∈ s'.outstanding := by
  cases hq with
  | waiting sizes => exact ho
  | posted sizes hopen => exact List.mem_append_left _ ho

/-- An accept on a socket of the slot -/
theorem Wired.postWaiting (h : s.Wired owner) (hlt : k < s.sockets) (howner : owner k = some i) :
    (s.post ⟨.accept, i, i, k⟩).Wired owner where
  connected_lt := h.connected_lt
  sock := h.sock
  key := h.key
  bound := h.bound
  accepts := by
    intro o ho haccept
    rcases List.mem_append.mp ho with hold | hnew
    · exact h.accepts o hold haccept
    · rw [List.mem_singleton.mp hnew]
      exact ⟨rfl, hlt, howner⟩
  keyed := by
    intro o ho hother
    rcases List.mem_append.mp ho with hold | hnew
    · exact h.keyed o hold hother
    · rw [List.mem_singleton.mp hnew] at hother
      exact absurd rfl hother

theorem Wired.postAccept (h : s.Wired owner) (hannounced : s.Announced) {curTimeSec : Int64}
    (htest : (s.mClientInfos i).accepterTest curTimeSec = true) (wsaSocket acceptEx : Bool) :
    s.Follows (s.postAccept i curTimeSec wsaSocket acceptEx) ∧
      s.ReceiveEffect (.accepterThread i curTimeSec wsaSocket acceptEx)
        (s.postAccept i curTimeSec wsaSocket acceptEx) := by
  have hsock := mSock_of_accepterTest htest
  rcases postAccept_cases (s := s) i curTimeSec wsaSocket acceptEx with
    ⟨client, hclient, hpost⟩ | ⟨client, hclient, hpost⟩
  · have hopen := newSocket_openConnection h.connected_lt hsock hclient
    rw [hpost]
    apply effect_of_quiet ⟨_, h.newSocket hsock hclient⟩ hannounced rfl rfl hopen
    · exact fun _ => rfl
    · exact fun _ _ hmem => hmem
    · rfl
  · have hopen := newSocket_openConnection h.connected_lt hsock (.inr hclient)
    have hwired := (h.newSocket hsock (.inr hclient)).postWaiting (k := s.sockets) (i := i)
      (Nat.lt_succ_self _) (Function.update_self _ _ _)
    rw [hpost]
    apply effect_of_quiet ⟨_, hwired⟩ hannounced rfl rfl hopen
    · intro j
      rw [receives_post]
      rfl
    · exact fun _ _ hmem => List.mem_append_left _ hmem
    · rfl

/-! ### Accepts -/

/-- A successful accept on the way through `AcceptCompletion`: its socket is connected,
and the socket of the slot bound to the port. -/
def accepting (s : IOCPServer n) (op : Overlapped n) : IOCPServer n :=
  { s.take op (some op.poster) with
    connected := s.connected ++ [op.connection]
    completionKey :=
      match (s.mClientInfos op.poster).mSock with
      | some k => Function.update s.completionKey k (some op.poster)
      | none => s.completionKey }

theorem acceptCompletion_eq (wsaRecv : Bool) :
    ({ s.take op (some op.poster) with
      connected := (s.take op (some op.poster)).connected ++ [op.connection] } :
        IOCPServer n).acceptCompletion op.poster wsaRecv =
      (s.accepting op).bindRecv op.poster wsaRecv := by
  rw [acceptCompletion, accepting]
  change (match (s.mClientInfos op.poster).mSock with | some _ => _ | none => _) = _
  cases (s.mClientInfos op.poster).mSock <;> rfl

theorem accepting_completionKey (k : ℕ) : (s.accepting op).completionKey k =
    if (s.mClientInfos op.poster).mSock = some k then some op.poster else s.completionKey k := by
  simp only [accepting]
  cases (s.mClientInfos op.poster).mSock with
  | none => rfl
  | some k' => simp [Function.update_apply, eq_comm]

/-- Keys that are set stay: the socket of the slot has the key of its owner already. -/
theorem Wired.accepting_key (h : s.Wired owner) {j : Fin n} (hk : s.completionKey k = some j) :
    (s.accepting op).completionKey k = some j := by
  rw [accepting_completionKey]
  split_ifs with hsock
  · exact (h.sock _ _ hsock).2.symm.trans (h.key k j hk).2
  · exact hk

theorem Wired.accepting_openConnection (h : s.Wired owner) (hop : op ∈ s.outstanding)
    (haccept : op.m_eOperation = .accept) (j : Fin n) : (s.accepting op).openConnection j =
      if j = op.poster then s.acceptedConnection op else s.openConnection j := by
  have hconnected (k : ℕ) : k ∈ (s.accepting op).connected ↔ k ∈ s.connected ∨ k = op.connection := by
    simp [accepting]
  apply Option.ext
  intro k
  rw [openConnection_eq_some, hconnected]
  change (s.mClientInfos j).mSock = some k ∧ _ ↔ _
  split_ifs with hj
  · rw [hj, acceptedConnection, Option.filter_eq_some_iff, decide_eq_true_eq, or_comm]
  · rw [openConnection_eq_some]
    apply and_congr_right
    intro hsock
    apply or_iff_left
    rintro rfl
    exact hj (Option.some.inj ((h.sock j _ hsock).2.symm.trans (h.accepts op hop haccept).2.2))

theorem Wired.accepting (h : s.Wired owner) (hop : op ∈ s.outstanding)
    (haccept : op.m_eOperation = .accept) : (s.accepting op).Wired owner where
  connected_lt := by
    intro k hk
    rcases List.mem_append.mp hk with hold | hnew
    · exact h.connected_lt k hold
    · rw [List.mem_singleton.mp hnew]
      exact (h.accepts op hop haccept).2.1
  sock := h.sock
  key := by
    intro k j hk
    rw [accepting_completionKey] at hk
    split_ifs at hk with hsock
    · rw [← hk]
      exact h.sock _ k hsock
    · exact h.key k j hk
  bound := by
    intro j k hk
    rw [h.accepting_openConnection hop haccept] at hk
    split_ifs at hk with hj
    · have hsock : (s.mClientInfos op.poster).mSock = some k := (Option.filter_eq_some_iff.mp hk).1
      rw [accepting_completionKey, if_pos hsock, hj]
    · exact h.accepting_key (h.bound j k hk)
  accepts := fun o ho => h.accepts o (List.mem_of_mem_erase ho)
  keyed := fun o ho hother => h.accepting_key (h.keyed o (List.mem_of_mem_erase ho) hother)

/-- No receive is taken off or posted by the completion of an accept itself. -/
theorem accepting_receives (hop : op ∈ s.outstanding) (haccept : op.m_eOperation = .accept)
    (j : Fin n) : (s.accepting op).receives j = s.receives j :=
  receives_take_of_ne (by simp [haccept]) hop (some op.poster) j

theorem recvOf_mem_accepting (haccept : op.m_eOperation = .accept)
    (hmem : recvOf i k ∈ s.outstanding) : recvOf i k ∈ (s.accepting op).outstanding := by
  refine recvOf_mem_take ?_ hmem (some op.poster)
  rintro rfl
  cases haccept

/-- `BindRecv` fails, so the slot is closed. -/
theorem Wired.acceptClosed (h : s.Wired owner) (hannounced : s.Announced)
    (hop : op ∈ s.outstanding) (haccept : op.m_eOperation = .accept) {e : NetworkEvent n}
    (hfirst : s.firstReceive e = none) :
    s.Follows ((s.accepting op).closeSocket op.poster op.connection) ∧
      s.ReceiveEffect e ((s.accepting op).closeSocket op.poster op.connection) := by
  apply effect_of_closed (h.accepting hop haccept) hannounced rfl
  · exact fun _ _ hk => h.accepting_key hk
  · intro j hj
    rw [h.accepting_openConnection hop haccept, if_neg hj]
  · exact fun j => (accepting_receives hop haccept j).le
  · exact fun _ _ _ => recvOf_mem_accepting haccept
  · exact hfirst

/-- The first receive is posted and the connection announced. -/
theorem Wired.acceptEstablished (h : s.Wired owner) (hannounced : s.Announced)
    (hop : op ∈ s.outstanding) (haccept : op.m_eOperation = .accept)
    (hk : s.acceptedConnection op = some k) {e : NetworkEvent n}
    (hfirst : s.firstReceive e = some (op.poster, k)) :
    s.Follows (((s.accepting op).post (recvOf op.poster k)).onConnect op.poster op.connection) ∧
      s.ReceiveEffect e
        (((s.accepting op).post (recvOf op.poster k)).onConnect op.poster op.connection) := by
  have hopen (j : Fin n) : (((s.accepting op).post (recvOf op.poster k)).onConnect op.poster
      op.connection).openConnection j =
        if j = op.poster then some k else s.openConnection j := by
    rw [← hk]
    exact h.accepting_openConnection hop haccept j
  have hbound : (s.accepting op).openConnection op.poster = some k := by
    rw [h.accepting_openConnection hop haccept, if_pos rfl, hk]
  have hwired := (h.accepting hop haccept).post hbound (o := .recv) (by decide)
  constructor
  · constructor
    · exact ⟨owner, hwired.of_frame rfl rfl rfl (fun _ _ hk => hk) fun _ ho => .inl ho⟩
    · intro j k' hk'
      rw [hopen] at hk'
      split_ifs at hk' with hj
      · obtain rfl := Option.some.inj hk'
        rcases Option.filter_eq_some_iff.mp hk with ⟨hsock, hconnected⟩
        rcases of_decide_eq_true hconnected with rfl | hold
        · simp [onConnect, hj]
        · have hopenOld := openConnection_eq_some.mpr ⟨hsock, hold⟩
          rw [hj]
          exact mem_update_of_mem (hannounced _ _ hopenOld)
      · exact mem_update_of_mem (hannounced j k' hk')
    · exact fun _ _ hk => h.accepting_key hk
  · apply ReceiveEffect.first op.poster k hfirst
    · intro j
      change ((s.accepting op).post (recvOf op.poster k)).receives j = _
      rw [receives_post, accepting_receives hop haccept]
      simp [recvOf, eq_comm]
    · rw [hopen, if_pos rfl]
    · exact List.mem_append_right _ (List.mem_singleton_self _)
    · intro j hj
      rw [hopen, if_neg hj]
      exact ⟨rfl, fun _ hmem => List.mem_append_left _ (recvOf_mem_accepting haccept hmem)⟩

/-- An accept that succeeds starts the receives of a connection, or closes the slot. -/
theorem Wired.accepted (h : s.Wired owner) (hannounced : s.Announced) (hop : op ∈ s.outstanding)
    (haccept : op.m_eOperation = .accept) {size : ℕ} {ok : Bool}
    (hstep : s.wokerThread op true size ok = some s') :
    s.Follows s' ∧ s.ReceiveEffect (.completion op true size ok) s' := by
  have hclient : getClientInfo n op.sessionIndex = some op.poster := by
    rw [(h.accepts op hop haccept).1, getClientInfo_poster]
  have hopen := h.accepting_openConnection hop haccept op.poster
  rw [if_pos rfl] at hopen
  simp only [wokerThread, haccept, hclient, Bool.true_eq_false, ne_eq, not_true_eq_false,
    and_false, or_self, if_false, acceptCompletion_eq, bindRecv, hopen] at hstep
  cases hk : s.acceptedConnection op with
  | none =>
    rw [hk] at hstep
    obtain rfl := Option.some.inj hstep
    apply h.acceptClosed hannounced hop haccept
    cases ok <;> simp [firstReceive, haccept, hk]
  | some k =>
    rw [hk] at hstep
    cases ok with
    | false =>
      obtain rfl := Option.some.inj hstep
      exact h.acceptClosed hannounced hop haccept rfl
    | true =>
      obtain rfl := Option.some.inj hstep
      apply h.acceptEstablished hannounced hop haccept hk
      simp [firstReceive, haccept, hk]

/-- A failed receive or send closes the slot that posted it. -/
theorem Wired.failed (h : s.Wired owner) (hannounced : s.Announced) (hop : op ∈ s.outstanding)
    {e : NetworkEvent n} (hfirst : s.firstReceive e = none) :
    s.Follows ((s.take op (some op.poster)).closeSocket op.poster op.connection) ∧
      s.ReceiveEffect e ((s.take op (some op.poster)).closeSocket op.poster op.connection) := by
  apply effect_of_closed (h.take (some op.poster)) hannounced rfl
  · exact fun _ _ hk => hk
  · exact fun _ _ => rfl
  · exact fun j => Nat.le_of_add_right_le (receives_take hop (some op.poster) j).le
  · intro j k hj hmem
    apply recvOf_mem_take _ hmem
    rintro rfl
    exact hj rfl
  · exact hfirst

theorem firstReceive_of_ne (hother : op.m_eOperation ≠ .accept) (success : Bool) (size : ℕ)
    (ok : Bool) : s.firstReceive (.completion op success size ok) = none := by
  cases success <;> cases ok <;> simp [firstReceive, hother]

/-- A failed accept comes with a null pointer. -/
theorem Wired.acceptFailed (h : s.Wired owner) (hannounced : s.Announced)
    (hop : op ∈ s.outstanding) (haccept : op.m_eOperation = .accept) {size : ℕ} {ok : Bool}
    (hstep : s.wokerThread op false size ok = some s') :
    s.Follows s' ∧ s.ReceiveEffect (.completion op false size ok) s' := by
  have hturn : s.wokerThread op false size ok = some (s.take op none) := by
    simp [wokerThread, keyOf_accept haccept]
  obtain rfl := Option.some.inj (hturn.symm.trans hstep)
  apply effect_of_quiet ⟨owner, h.take none⟩ hannounced rfl rfl
  · exact fun _ => rfl
  · exact receives_take_of_ne (by simp [haccept]) hop none
  · intro j k hmem
    apply recvOf_mem_take _ hmem
    rintro rfl
    cases haccept
  · rfl

/-- The next send of the client is posted, if one waits. -/
theorem Wired.sent (h : s.Wired owner) (hannounced : s.Announced) (hop : op ∈ s.outstanding)
    (hsend : op.m_eOperation = .send) {e : NetworkEvent n} (hfirst : s.firstReceive e = none)
    {ok : Bool} (hstep : (s.take op (some op.poster)).sendCompleted op.poster ok = some s') :
    s.Follows s' ∧ s.ReceiveEffect e s' := by
  have hq := queued_sendCompleted hstep
  apply effect_of_quiet ⟨owner, hq.wired (h.take _)⟩ hannounced hq.calls hq.completionKey
  · exact hq.openConnection
  · intro j
    rw [hq.receives, receives_take_of_ne (by simp [hsend]) hop]
  · intro j k hmem
    apply hq.mem
    apply recvOf_mem_take _ hmem
    rintro rfl
    cases hsend
  · exact hfirst

theorem Wired.step (h : s.Wired owner) (hannounced : s.Announced) {e : NetworkEvent n}
    (hreceived : ¬e.IsReceived) (hstep : s.step e = some s') :
    s.Follows s' ∧ s.ReceiveEffect e s' := by
  unfold IOCPServer.step at hstep
  split_ifs at hstep
  cases e with
  | accepterThread i curTimeSec wsaSocket acceptEx =>
    simp only at hstep
    split_ifs at hstep with htest
    obtain rfl := Option.some.inj hstep
    exact h.postAccept hannounced htest wsaSocket acceptEx
  | sendMsg i wsaSend =>
    obtain rfl := Option.some.inj hstep
    have hq := queued_sendMsg (s := s) (i := i) wsaSend
    exact effect_of_quiet ⟨owner, hq.wired h⟩ hannounced hq.calls hq.completionKey
      hq.openConnection hq.receives (fun _ _ => hq.mem) rfl
  | completion op success size ok =>
    simp only at hstep
    split_ifs at hstep with hop
    by_cases haccept : op.m_eOperation = .accept
    · cases success with
      | false => exact h.acceptFailed hannounced hop haccept hstep
      | true => exact h.accepted hannounced hop haccept hstep
    · have hkey := h.keyOf hop haccept
      have hfirst := firstReceive_of_ne (s := s) haccept success size ok
      by_cases hfailed : success = false ∨ size = 0
      · have hturn : s.wokerThread op success size ok =
            some ((s.take op (some op.poster)).closeSocket op.poster op.connection) := by
          simp [wokerThread, hkey, haccept, hfailed]
        obtain rfl := Option.some.inj (hturn.symm.trans hstep)
        exact h.failed hannounced hop hfirst
      · -- a receive with data is not an event of this kind, so this is a send
        have hsend : op.m_eOperation = .send := by
          cases hkind : op.m_eOperation with
          | accept => exact absurd hkind haccept
          | recv =>
            push Not at hfailed
            exact absurd ⟨hkind, by simpa using hfailed.1, hfailed.2⟩ hreceived
          | send => rfl
        have hturn : s.wokerThread op success size ok =
            (s.take op (some op.poster)).sendCompleted op.poster ok := by
          simp [wokerThread, hkey, hfailed, hsend]
        exact h.sent hannounced hop hsend hfirst (hturn.symm.trans hstep)

end IOCPServer

end ChatServer.Network
