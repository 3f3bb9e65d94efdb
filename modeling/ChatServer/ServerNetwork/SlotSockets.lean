import ChatServer.ServerNetwork.WorkerPool
import Mathlib.Data.List.Perm.Basic

/-! # The sockets of the slots

What the steps of the workers and of the other threads do to the sockets, as long as a
socket is closed while its connection is the one that is open.
-/

namespace ChatServer.Network

namespace IOCPServer
variable {n : ℕ} {s s' : IOCPServer n} {op : Overlapped n} {i : Fin n} {k : ℕ}
  {owner : ℕ → Option (Fin n)}

/-- `owner` is the slot that made a socket. A slot has the last one it made, an accept waits
on the socket its slot has, and keys and operations belong to the slot of their socket. -/
structure Sockets (s : IOCPServer n) (owner : ℕ → Option (Fin n)) : Prop where
  owner_lt : ∀ k i, owner k = some i → k < s.sockets
  sock : ∀ i k, (s.mClientInfos i).mSock = some k →
    owner k = some i ∧ ∀ k', owner k' = some i → k' ≤ k
  connected : ∀ k ∈ s.connected, ∃ i, owner k = some i
  key : ∀ k i, s.completionKey k = some i → owner k = some i ∧ k ∈ s.connected
  accepts : ∀ op ∈ s.outstanding, op.m_eOperation = .accept → op.sessionIndex = op.poster ∧
    (s.mClientInfos op.poster).mSock = some op.connection ∧ op.connection ∉ s.connected
  single : s.outstanding.Pairwise fun a b =>
    a.m_eOperation = .accept → b.m_eOperation = .accept → a.connection ≠ b.connection
  posted : ∀ op ∈ s.outstanding, op.m_eOperation ≠ .accept → owner op.connection = some op.poster

theorem init_sockets : (init n).Sockets fun _ => none where
  owner_lt := nofun
  sock := nofun
  connected := nofun
  key := nofun
  accepts := nofun
  single := .nil
  posted := nofun

theorem Sockets.connected_lt (h : s.Sockets owner) : ∀ k ∈ s.connected, k < s.sockets := by
  intro k hk
  rcases h.connected k hk with ⟨i, hi⟩
  exact h.owner_lt k i hi

theorem Sockets.take (h : s.Sockets owner) (pClientInfo : Option (Fin n)) :
    (s.take op pClientInfo).Sockets owner where
  owner_lt := h.owner_lt
  sock := h.sock
  connected := h.connected
  key := h.key
  accepts := fun o ho => h.accepts o (List.mem_of_mem_erase ho)
  single := h.single.sublist List.erase_sublist
  posted := fun o ho => h.posted o (List.mem_of_mem_erase ho)

theorem Sockets.resize (h : s.Sockets owner) (sizes : Fin n → ℕ) :
    ({ s with mSendDataqueue := sizes } : IOCPServer n).Sockets owner where
  owner_lt := h.owner_lt
  sock := h.sock
  connected := h.connected
  key := h.key
  accepts := h.accepts
  single := h.single
  posted := h.posted

theorem Sockets.record (h : s.Sockets owner) (calls : Fin n → List Call) :
    ({ s with calls := calls } : IOCPServer n).Sockets owner where
  owner_lt := h.owner_lt
  sock := h.sock
  connected := h.connected
  key := h.key
  accepts := h.accepts
  single := h.single
  posted := h.posted

/-- One more operation is outstanding: an accept on a waiting socket that has none, or an
operation of the slot that owns the socket. -/
theorem Sockets.postOverlapped (h : s.Sockets owner) {o : Overlapped n}
    (haccept : o.m_eOperation = .accept → (o.sessionIndex = o.poster ∧
      (s.mClientInfos o.poster).mSock = some o.connection ∧ o.connection ∉ s.connected) ∧
        ∀ op ∈ s.outstanding, op.m_eOperation = .accept → op.connection ≠ o.connection)
    (hother : o.m_eOperation ≠ .accept → owner o.connection = some o.poster) :
    (s.post o).Sockets owner where
  owner_lt := h.owner_lt
  sock := h.sock
  connected := h.connected
  key := h.key
  accepts := by
    intro op hop hopAccept
    rcases List.mem_append.mp hop with hop | hop
    · exact h.accepts op hop hopAccept
    · obtain rfl := List.mem_singleton.mp hop
      exact (haccept hopAccept).1
  single := by
    refine List.pairwise_append.mpr ⟨h.single, List.pairwise_singleton _ _, ?_⟩
    intro a ha b hb haAccept hbAccept
    obtain rfl := List.mem_singleton.mp hb
    exact (haccept hbAccept).2 a ha haAccept
  posted := by
    intro op hop hopOther
    rcases List.mem_append.mp hop with hop | hop
    · exact h.posted op hop hopOther
    · obtain rfl := List.mem_singleton.mp hop
      exact hother hopOther

/-- A receive or a send on the open connection of a slot -/
theorem Sockets.post (h : s.Sockets owner) (hopen : s.openConnection i = some k) {o : IOOperation}
    (ho : o ≠ .accept) : (s.post ⟨o, 0, i, k⟩).Sockets owner := by
  apply h.postOverlapped
  · exact fun haccept => absurd haccept ho
  · exact fun _ => (h.sock i k (openConnection_eq_some.mp hopen).1).1

theorem Sockets.queued (h : s.Sockets owner) (hq : s.Queued i s') : s'.Sockets owner := by
  cases hq with
  | waiting sizes => exact h.resize sizes
  | posted sizes hopen => exact (h.resize sizes).post hopen (by decide)

/-- A slot without a socket makes a new one. -/
theorem Sockets.newSocket (h : s.Sockets owner) (hsock : (s.mClientInfos i).mSock = none)
    {client : ClientInfo} (hclient : client.mSock = none ∨ client.mSock = some s.sockets) :
    (s.newSocket i client).Sockets (Function.update owner s.sockets (some i)) := by
  have howner {k : ℕ} {j : Fin n} (hk : owner k = some j) :
      Function.update owner s.sockets (some i) k = some j := by
    rw [Function.update_of_ne (h.owner_lt k j hk).ne, hk]
  have hle {k : ℕ} {j : Fin n} (hk : Function.update owner s.sockets (some i) k = some j) :
      k = s.sockets ∧ j = i ∨ owner k = some j := by
    rcases eq_or_ne k s.sockets with rfl | hne
    · rw [Function.update_self] at hk
      exact .inl ⟨rfl, (Option.some.inj hk).symm⟩
    · rw [Function.update_of_ne hne] at hk
      exact .inr hk
  constructor
  · intro k j hk
    rcases hle hk with ⟨rfl, -⟩ | hk
    · exact Nat.lt_succ_self _
    · exact Nat.lt_succ_of_lt (h.owner_lt k j hk)
  · intro j k hk
    rcases newSocket_mSock hclient hk with ⟨rfl, rfl⟩ | ⟨hne, hold⟩
    · refine ⟨Function.update_self _ _ _, fun k' hk' => ?_⟩
      rcases hle hk' with ⟨rfl, -⟩ | hk'
      · exact le_rfl
      · exact (h.owner_lt k' j hk').le
    · refine ⟨howner (h.sock j k hold).1, fun k' hk' => ?_⟩
      rcases hle hk' with ⟨-, heq⟩ | hk'
      · exact absurd heq hne
      · exact (h.sock j k hold).2 k' hk'
  · intro k hk
    rcases h.connected k hk with ⟨j, hj⟩
    exact ⟨j, howner hj⟩
  · intro k j hk
    rcases h.key k j hk with ⟨hj, hmem⟩
    exact ⟨howner hj, hmem⟩
  · intro op hop haccept
    rcases h.accepts op hop haccept with ⟨hindex, hposter, hwaits⟩
    refine ⟨hindex, ?_, hwaits⟩
    have hne : op.poster ≠ i := by
      rintro rfl
      rw [hsock] at hposter
      cases hposter
    simpa [IOCPServer.newSocket, Function.update_of_ne hne] using hposter
  · exact h.single
  · exact fun op hop hother => howner (h.posted op hop hother)

/-- `PostAccept` gives a slot a new socket and leaves everything else. -/
theorem Sockets.postAccept (h : s.Sockets owner) {curTimeSec : Int64}
    (htest : (s.mClientInfos i).accepterTest curTimeSec = true) (wsaSocket acceptEx : Bool) :
    (s.postAccept i curTimeSec wsaSocket acceptEx).Sockets
      (Function.update owner s.sockets (some i)) := by
  have hsock := mSock_of_accepterTest htest
  rcases postAccept_cases (s := s) i curTimeSec wsaSocket acceptEx with
    ⟨client, hclient, hpost⟩ | ⟨client, hclient, hpost⟩
  · rw [hpost]
    exact h.newSocket hsock hclient
  · rw [hpost]
    apply (h.newSocket hsock (.inr hclient)).postOverlapped
    · refine fun _ => ⟨⟨rfl, by simp [IOCPServer.newSocket, hclient], fun hmem => ?_⟩, ?_⟩
      · exact absurd (h.connected_lt _ hmem) (lt_irrefl _)
      · intro op hop haccept hconnection
        have hlt := h.owner_lt _ _ (h.sock _ _ (h.accepts op hop haccept).2.1).1
        rw [hconnection] at hlt
        exact absurd hlt (lt_irrefl _)
    · exact fun hother => absurd rfl hother

/-- Nothing is opened, closed, bound or called. -/
structure Quiet (s s' : IOCPServer n) : Prop where
  connected : s'.connected = s.connected
  completionKey : s'.completionKey = s.completionKey
  calls : s'.calls = s.calls
  openConnection : ∀ j, s'.openConnection j = s.openConnection j

theorem Queued.quiet (hq : s.Queued i s') : s.Quiet s' where
  connected := by cases hq <;> rfl
  completionKey := hq.completionKey
  calls := hq.calls
  openConnection := hq.openConnection

theorem Queued.handled (hq : s.Queued i s') : s'.handled = s.handled := by
  cases hq <;> rfl

theorem Sockets.quiet_postAccept (h : s.Sockets owner) {curTimeSec : Int64}
    (htest : (s.mClientInfos i).accepterTest curTimeSec = true) (wsaSocket acceptEx : Bool) :
    s.Quiet (s.postAccept i curTimeSec wsaSocket acceptEx) := by
  have hsock := mSock_of_accepterTest htest
  rcases postAccept_cases (s := s) i curTimeSec wsaSocket acceptEx with
    ⟨client, hclient, hpost⟩ | ⟨client, hclient, hpost⟩
  · rw [hpost]
    exact ⟨rfl, rfl, rfl, newSocket_openConnection h.connected_lt hsock hclient⟩
  · rw [hpost]
    exact ⟨rfl, rfl, rfl, newSocket_openConnection h.connected_lt hsock (.inr hclient)⟩

theorem bindRecv_of_open (hopen : s.openConnection i = some k) :
    s.bindRecv i true = (s.post ⟨.recv, 0, i, k⟩, true) := by
  rw [IOCPServer.bindRecv, hopen]
  rfl

theorem bindRecv_cases (wsaRecv : Bool) : (s.bindRecv i wsaRecv).1 = s ∨
    ∃ k, s.openConnection i = some k ∧ (s.bindRecv i wsaRecv).1 = s.post ⟨.recv, 0, i, k⟩ := by
  unfold IOCPServer.bindRecv
  split
  · next k hopen =>
    split_ifs
    · exact .inr ⟨k, hopen, rfl⟩
    · exact .inl rfl
  · exact .inl rfl

/-- The system has accepted a connection on the socket of this operation. -/
def connect (s : IOCPServer n) (op : Overlapped n) : IOCPServer n :=
  { s.take op (some op.poster) with connected := s.connected ++ [op.connection] }

/-- No other accept is outstanding for the socket. -/
theorem Sockets.connection_ne (h : s.Sockets owner) (hop : op ∈ s.outstanding)
    (haccept : op.m_eOperation = .accept) {o : Overlapped n} (ho : o ∈ s.outstanding.erase op)
    (haccept' : o.m_eOperation = .accept) : o.connection ≠ op.connection := by
  have hperm := List.perm_cons_erase hop
  have hpairs := (hperm.pairwise_iff (fun hab hb ha => (hab ha hb).symm)).mp h.single
  exact ((List.pairwise_cons.mp hpairs).1 o ho haccept haccept').symm

theorem Sockets.connect (h : s.Sockets owner) (hop : op ∈ s.outstanding)
    (haccept : op.m_eOperation = .accept) : (s.connect op).Sockets owner where
  owner_lt := h.owner_lt
  sock := h.sock
  connected := by
    intro k hk
    rcases List.mem_append.mp hk with hk | hk
    · exact h.connected k hk
    · rw [List.mem_singleton.mp hk]
      exact ⟨op.poster, (h.sock _ _ (h.accepts op hop haccept).2.1).1⟩
  key := by
    intro k j hk
    rcases h.key k j hk with ⟨hj, hmem⟩
    exact ⟨hj, List.mem_append_left _ hmem⟩
  accepts := by
    intro o ho haccept'
    rcases h.accepts o (List.mem_of_mem_erase ho) haccept' with ⟨hindex, hposter, hwaits⟩
    refine ⟨hindex, hposter, fun hmem => ?_⟩
    rcases List.mem_append.mp hmem with hmem | hmem
    · exact hwaits hmem
    · exact h.connection_ne hop haccept ho haccept' (List.mem_singleton.mp hmem)
  single := h.single.sublist List.erase_sublist
  posted := fun o ho => h.posted o (List.mem_of_mem_erase ho)

theorem Sockets.connect_openConnection (h : s.Sockets owner) (hop : op ∈ s.outstanding)
    (haccept : op.m_eOperation = .accept) (j : Fin n) :
    (s.connect op).openConnection j =
      if j = op.poster then some op.connection else s.openConnection j := by
  rcases h.accepts op hop haccept with ⟨-, hposter, -⟩
  split_ifs with hj
  · rw [hj]
    exact openConnection_eq_some.mpr ⟨hposter, by simp [IOCPServer.connect]⟩
  · apply Option.ext
    intro k
    have hne : (s.mClientInfos j).mSock = some k → k ≠ op.connection := by
      rintro hsock rfl
      have howner := (h.sock _ _ hposter).1
      rw [(h.sock _ _ hsock).1] at howner
      exact hj (Option.some.inj howner)
    rw [openConnection_eq_some, openConnection_eq_some]
    simp only [IOCPServer.connect, IOCPServer.take, List.mem_append, List.mem_singleton]
    constructor
    · rintro ⟨hsock, hmem | heq⟩
      · exact ⟨hsock, hmem⟩
      · exact absurd heq (hne hsock)
    · rintro ⟨hsock, hmem⟩
      exact ⟨hsock, .inl hmem⟩

/-- A connection is bound to its client, and the first receive is posted on it. -/
def bound (s : IOCPServer n) (i : Fin n) (k : ℕ) : IOCPServer n :=
  ({ s with completionKey := Function.update s.completionKey k (some i) } : IOCPServer n).post
    ⟨.recv, 0, i, k⟩

/-- The socket of a connection is bound to the completion port, with its slot as the key. -/
theorem Sockets.bind (h : s.Sockets owner) (howner : owner k = some i) (hk : k ∈ s.connected) :
    ({ s with completionKey := Function.update s.completionKey k (some i) } :
      IOCPServer n).Sockets owner where
  owner_lt := h.owner_lt
  sock := h.sock
  connected := h.connected
  key := by
    intro k' j hk'
    change Function.update s.completionKey k (some i) k' = some j at hk'
    rcases eq_or_ne k' k with rfl | hne
    · rw [Function.update_self] at hk'
      exact ⟨howner.trans hk', hk⟩
    · rw [Function.update_of_ne hne] at hk'
      exact h.key k' j hk'
  accepts := h.accepts
  single := h.single
  posted := h.posted

theorem close_openConnection (j : Fin n) :
    (s.close i).openConnection j = if j = i then none else s.openConnection j :=
  closeSocket_openConnection (s := s) (k := 0) j

/-- The open connection of a slot is closed. -/
theorem Sockets.close (h : s.Sockets owner) (hopen : s.openConnection i = some k) :
    (s.close i).Sockets owner where
  owner_lt := h.owner_lt
  sock := fun j k' hj => h.sock j k' (closeSocket_mSock (s := s) (k := 0) hj).2
  connected := h.connected
  key := h.key
  accepts := by
    intro op hop haccept
    rcases h.accepts op hop haccept with ⟨hindex, hposter, hwaits⟩
    refine ⟨hindex, ?_, hwaits⟩
    have hne : op.poster ≠ i := by
      rintro rfl
      rcases openConnection_eq_some.mp hopen with ⟨hsock, hconnected⟩
      obtain rfl : k = op.connection := Option.some.inj (hsock.symm.trans hposter)
      exact hwaits hconnected
    simpa [IOCPServer.close, Function.update_of_ne hne] using hposter
  single := h.single
  posted := h.posted

end IOCPServer
end ChatServer.Network
