import ChatServer.Client.UserList

/-! # The visit of a client to a room

Here the rooms are given by a view for each client, the list of the members of its room.
A client goes through the phases of a visit; in each phase the replay of its `UserList`
amounts to a part of the view.
-/

namespace ChatServer.Client
open Roster

/-- The requests of the lobby and the rooms -/
inductive Request where
  | lobbyInfo
  | roomEnter (roomNumber : Int32)
  | roomInfo
  | roomLeave

abbrev View (n : ℕ) := Option (List (Fin n))

variable {n : ℕ} {ids : Fin n → UserId} {c d : Fin n} {v v' : Fin n → View n}

/-- What the server does with a request of `c`: the views afterwards, and the notices it
sends to each client. A request that does not fit the state of `c` is ignored. -/
inductive Transition (ids : Fin n → UserId) (c : Fin n) (v : Fin n → View n) :
    Request → (Fin n → View n) → (Fin n → List Notice) → Prop
  | ignoredInLobby {r : Request} (hc : v c = none) (hr : r = .roomInfo ∨ r = .roomLeave) :
      Transition ids c v r v (fun _ => [])
  | ignoredInRoom {r : Request} (hc : v c ≠ none)
      (hr : r = .lobbyInfo ∨ ∃ number, r = .roomEnter number) :
      Transition ids c v r v (fun _ => [])
  | lobbyInfo (hc : v c = none) (rooms : List Int32) :
      Transition ids c v .lobbyInfo v
        (fun d => if d = c then [.ackLobbyInfo, .notifyLobbyInfo rooms] else [])
  | entered (hc : v c = none) (number : Int32) {l : List (Fin n)}
      (hl : ∀ d, d ∈ l ↔ v d = some l) :
      Transition ids c v (.roomEnter number)
        (fun d => if d = c ∨ d ∈ l then some (l ++ [c]) else v d)
        (fun d => if d = c then [.ackRoomEnter] else if d ∈ l then [.notifyRoomInfo (ids c)] else [])
  | roomInfo {l : List (Fin n)} (hc : v c = some l) :
      Transition ids c v .roomInfo v (fun d => if d = c then [.ackRoomInfo (l.map ids)] else [])
  | left {l : List (Fin n)} (hc : v c = some l) (hl : ∀ d, d ∈ l ↔ v d = some l) :
      Transition ids c v .roomLeave
        (fun d => if d = c then none else if d ∈ l then some (l.filter (· ≠ c)) else v d)
        (fun d => if d = c then [.notifyRoomLeave (ids c), .ackRoomLeave]
          else if d ∈ l then [.notifyRoomLeave (ids c)] else [])

/-! ## Phases -/

/-- Requests with `p`, and then the one that is awaited -/
def AwaitedAfter (p : Request → Prop) (last : Request) (queue : List Request) : Prop :=
  ∃ before, queue = before ++ [last] ∧ ∀ r ∈ before, p r

theorem AwaitedAfter.cons_cases {p : Request → Prop} {last r : Request} {queue : List Request}
    (h : AwaitedAfter p last (r :: queue)) :
    r = last ∧ queue = [] ∨ p r ∧ AwaitedAfter p last queue := by
  rcases h with ⟨before, heq, hbefore⟩
  cases before with
  | nil =>
    rcases List.cons.inj heq with ⟨rfl, rfl⟩
    exact .inl ⟨rfl, rfl⟩
  | cons r' before =>
    rcases List.cons.inj heq with ⟨rfl, rfl⟩
    exact .inr ⟨hbefore r (by simp), before, rfl, fun s hs => hbefore s (by simp [hs])⟩

theorem AwaitedAfter.forall_mem {p q : Request → Prop} {last : Request} {queue : List Request}
    (h : AwaitedAfter p last queue) (hp : ∀ r, p r → q r) (hlast : q last) : ∀ r ∈ queue, q r := by
  rcases h with ⟨before, rfl, hbefore⟩
  exact List.forall_mem_append.mpr ⟨fun r hr => hp r (hbefore r hr), by simpa using hlast⟩

theorem AwaitedAfter.ne_nil {p : Request → Prop} {last : Request} {queue : List Request}
    (h : AwaitedAfter p last queue) : queue ≠ [] := by
  rcases h with ⟨before, rfl, -⟩
  simp

def Request.IsEnter (r : Request) : Prop := ∃ number, r = roomEnter number

/-- Requests of the lobby, which are ignored in a room -/
def Request.OfLobby (r : Request) : Prop := r = lobbyInfo ∨ r.IsEnter

def Request.IsLeave (r : Request) : Prop := r = roomLeave

/-- The phases of client `c`: its view, the answers on their way, the requests on their
way, whether it may enter and whether it may leave, and the members that the replay of
its list amounts to. From the entry to the snapshot these are the members behind `c`. -/
inductive Phase (c : Fin n) : View n → List Notice.Ack → List Request → Bool → Bool →
    List (Fin n) → Prop
  | free {queue : List Request} (h : ∀ r ∈ queue, r.IsEnter) :
      Phase c none [] queue true false []
  | refreshing {queue : List Request} (h : AwaitedAfter Request.IsEnter .lobbyInfo queue) :
      Phase c none [] queue false false []
  | lobbyAnswered : Phase c none [.lobbyInfo] [] false false []
  | entering {l : List (Fin n)} {queue : List Request} {enter : Bool}
      (h : ∀ r ∈ queue, r.OfLobby) :
      Phase c (some l) [.roomEnter] queue enter false (after c l)
  | asking {l : List (Fin n)} {queue : List Request}
      (h : AwaitedAfter Request.OfLobby .roomInfo queue) :
      Phase c (some l) [] queue false false (after c l)
  | informed {l : List (Fin n)} : Phase c (some l) [.roomInfo] [] false false l
  | inside {l : List (Fin n)} {queue : List Request} (h : ∀ r ∈ queue, r.IsLeave) :
      Phase c (some l) [] queue false true l
  | leaving {queue : List Request} (h : ∀ r ∈ queue, r.IsLeave) :
      Phase c none [.roomLeave] queue false true []
  | left {queue : List Request} (h : AwaitedAfter Request.IsLeave .lobbyInfo queue) :
      Phase c none [] queue false false []

namespace Phase

variable {view : View n} {acks : List Notice.Ack} {queue : List Request} {enter exit : Bool}
  {shown l : List (Fin n)}

/-- The list shown is a part of the view. -/
theorem shown_sublist (h : Phase c (some l) acks queue enter exit shown) : shown.Sublist l := by
  cases h with
  | entering h => exact after_sublist c _
  | asking h => exact after_sublist c _
  | informed => exact .refl _
  | inside h => exact .refl _

/-- Another client enters or leaves the room. -/
theorem change (h : Phase c (some l) acks queue enter exit shown) {f : List (Fin n) → List (Fin n)}
    (hf : after c (f l) = f (after c l)) :
    Phase c (some (f l)) acks queue enter exit (f shown) := by
  cases h with
  | entering h => exact hf ▸ .entering h
  | asking h => exact hf ▸ .asking h
  | informed => exact .informed
  | inside h => exact .inside h

/-- When nothing is on its way, the client is in the lobby with an empty list, or in a
room with a complete one. -/
theorem quiet (h : Phase c view [] [] enter exit shown) :
    view = none ∧ shown = [] ∨ view = some shown := by
  cases h with
  | free h => exact .inl ⟨rfl, rfl⟩
  | refreshing h => exact absurd rfl h.ne_nil
  | asking h => exact absurd rfl h.ne_nil
  | inside h => exact .inr rfl
  | left h => exact absurd rfl h.ne_nil

theorem clickEnter (h : Phase c view acks queue true exit shown) (number : Int32) :
    Phase c view acks (queue ++ [.roomEnter number]) true exit shown := by
  cases h with
  | free h => exact .free (List.forall_mem_append.mpr ⟨h, by simp [Request.IsEnter]⟩)
  | entering h =>
    exact .entering (List.forall_mem_append.mpr ⟨h, by simp [Request.OfLobby, Request.IsEnter]⟩)

theorem clickRefresh (h : Phase c view acks queue true exit shown) :
    Phase c view acks (queue ++ [.lobbyInfo]) false exit shown := by
  cases h with
  | free h => exact .refreshing ⟨_, rfl, h⟩
  | entering h =>
    exact .entering (List.forall_mem_append.mpr ⟨h, by simp [Request.OfLobby]⟩)

theorem clickExit (h : Phase c view acks queue enter true shown) :
    Phase c view acks (queue ++ [.roomLeave]) enter true shown := by
  cases h with
  | inside h => exact .inside (List.forall_mem_append.mpr ⟨h, by simp [Request.IsLeave]⟩)
  | leaving h => exact .leaving (List.forall_mem_append.mpr ⟨h, by simp [Request.IsLeave]⟩)

/-! ### The answers -/

theorem lobbyInfo (h : Phase c view (.lobbyInfo :: acks) queue enter exit shown) :
    Phase c view acks queue true exit shown := by
  cases h with
  | lobbyAnswered => exact .free (by simp)

theorem roomEnter (h : Phase c view (.roomEnter :: acks) queue enter exit shown) :
    Phase c view acks (queue ++ [.roomInfo]) false exit shown := by
  cases h with
  | entering h => exact .asking ⟨_, rfl, h⟩

theorem roomInfo (h : Phase c view (.roomInfo :: acks) queue enter exit shown) :
    Phase c view acks queue enter true shown := by
  cases h with
  | informed => exact .inside (by simp)

theorem roomLeave (h : Phase c view (.roomLeave :: acks) queue enter exit shown) :
    Phase c view acks (queue ++ [.lobbyInfo]) enter false shown := by
  cases h with
  | leaving h => exact .left ⟨_, rfl, h⟩

end Phase

/-! ## The replay of a list -/

/-- The notices on their way and the list of the form, as ids, amount to these members. -/
def Replays (ids : Fin n → UserId) (notices : List Notice) (users : List UserId)
    (shown : List (Fin n)) : Prop :=
  (replay (notices.map Notice.update) users).Perm (shown.map ids)

namespace Replays

variable {notices : List Notice} {users : List UserId} {shown l : List (Fin n)}

theorem process {notice : Notice} (h : Replays ids (notice :: notices) users shown) :
    Replays ids notices (notice.update.apply users) shown := h

theorem snoc (h : Replays ids notices users shown) (notice : Notice) :
    (replay ((notices ++ [notice]).map Notice.update) users).Perm
      (notice.update.apply (shown.map ids)) := by
  rw [List.map_append]
  exact replay_snoc_perm notice.update h

theorem unchanged (h : Replays ids notices users shown) (notice : Notice)
    (hnotice : notice.update = .unchanged) : Replays ids (notices ++ [notice]) users shown := by
  have hsnoc := h.snoc notice
  rwa [hnotice] at hsnoc

theorem joined (h : Replays ids notices users shown) (c : Fin n) :
    Replays ids (notices ++ [.notifyRoomInfo (ids c)]) users (shown ++ [c]) := by
  rw [Replays, List.map_append]
  exact replay_joined h c

theorem gone (h : Replays ids notices users shown) (hids : Function.Injective ids)
    (hnodup : shown.Nodup) (c : Fin n) :
    Replays ids (notices ++ [.notifyRoomLeave (ids c)]) users (shown.filter (· ≠ c)) := by
  rw [Replays, List.map_append]
  exact replay_gone hids hnodup h c

theorem snapshot (h : Replays ids notices users []) (l : List (Fin n)) :
    Replays ids (notices ++ [.ackRoomInfo (l.map ids)]) users l := h.snoc (.ackRoomInfo (l.map ids))

theorem cleared (ids : Fin n → UserId) (notices : List Notice) (users : List UserId) :
    Replays ids (notices ++ [.ackRoomLeave]) users [] := by
  rw [Replays, List.map_append, replay_append]
  exact .refl []

theorem nil (h : Replays ids [] users shown) : users.Perm (shown.map ids) := h

end Replays

/-! ## The steps of the server -/

variable {acks : List Notice.Ack} {queue : List Request} {enter exit : Bool}
  {shown : List (Fin n)} {r : Request} {sent : Fin n → List Notice} {notices : List Notice}
  {users : List UserId}

/-- What the server does with a request of another client -/
theorem Transition.other (t : Transition ids c v r v' sent) (hids : Function.Injective ids)
    (hd : d ≠ c) (hnodup : ∀ l, v d = some l → l.Nodup)
    (h : Phase d (v d) acks queue enter exit shown) (hreplays : Replays ids notices users shown) :
    ∃ shown', Phase d (v' d) acks queue enter exit shown' ∧
      Replays ids (notices ++ sent d) users shown' ∧ (sent d).filterMap Notice.ack = [] := by
  cases t with
  | ignoredInLobby | ignoredInRoom => exact ⟨shown, h, by simpa using hreplays, rfl⟩
  | lobbyInfo | roomInfo =>
    simp only [if_neg hd, List.append_nil]
    exact ⟨shown, h, hreplays, rfl⟩
  | entered hc number hl =>
    simp only [hd, if_false, false_or]
    split_ifs with hmem
    · rw [(hl d).mp hmem] at h
      exact ⟨_, h.change (f := (· ++ [c])) (after_append hmem [c]), hreplays.joined c, rfl⟩
    · exact ⟨shown, h, by simpa using hreplays, rfl⟩
  | left hc hl =>
    simp only [hd, if_false]
    split_ifs with hmem
    · rw [(hl d).mp hmem] at h
      have hshown := h.shown_sublist.nodup (hnodup _ ((hl d).mp hmem))
      exact ⟨_, h.change (f := List.filter (· ≠ c)) (after_filter (by simpa using hd)),
        hreplays.gone hids hshown c, rfl⟩
    · exact ⟨shown, h, by simpa using hreplays, rfl⟩

namespace Phase

/-! ### The client's own requests, as the server takes them -/

theorem ignoredInLobby (h : Phase c none acks (r :: queue) enter exit shown)
    (hr : r = .roomInfo ∨ r = .roomLeave) : Phase c none acks queue enter exit shown := by
  have henter : ¬r.IsEnter := by rcases hr with rfl | rfl <;> simp [Request.IsEnter]
  have hlobby : r ≠ .lobbyInfo := by rcases hr with rfl | rfl <;> simp
  cases h with
  | free h => exact absurd (h r (by simp)) henter
  | refreshing h =>
    rcases h.cons_cases with ⟨hlast, -⟩ | ⟨hr, -⟩
    · exact absurd hlast hlobby
    · exact absurd hr henter
  | leaving h => exact .leaving (List.forall_mem_of_forall_mem_cons h)
  | left h =>
    rcases h.cons_cases with ⟨hlast, -⟩ | ⟨-, hrest⟩
    · exact absurd hlast hlobby
    · exact .left hrest

theorem ignoredInRoom {l : List (Fin n)}
    (h : Phase c (some l) acks (r :: queue) enter exit shown) (hr : r.OfLobby) :
    Phase c (some l) acks queue enter exit shown := by
  have hother : r ≠ .roomInfo ∧ ¬r.IsLeave := by
    rcases hr with rfl | ⟨number, rfl⟩ <;> simp [Request.IsLeave]
  cases h with
  | entering h => exact .entering (List.forall_mem_of_forall_mem_cons h)
  | asking h =>
    rcases h.cons_cases with ⟨hlast, -⟩ | ⟨-, hrest⟩
    · exact absurd hlast hother.1
    · exact .asking hrest
  | inside h => exact absurd (h r (by simp)) hother.2

theorem takeLobbyInfo (h : Phase c none acks (.lobbyInfo :: queue) enter exit shown) :
    Phase c none (acks ++ [.lobbyInfo]) queue enter exit shown := by
  cases h with
  | free h => simpa [Request.IsEnter] using h .lobbyInfo (by simp)
  | refreshing h =>
    rcases h.cons_cases with ⟨-, rfl⟩ | ⟨hr, -⟩
    · exact .lobbyAnswered
    · simp [Request.IsEnter] at hr
  | leaving h => simpa [Request.IsLeave] using h .lobbyInfo (by simp)
  | left h =>
    rcases h.cons_cases with ⟨-, rfl⟩ | ⟨hr, -⟩
    · exact .lobbyAnswered
    · simp [Request.IsLeave] at hr

/-- The client is the last in the list that it enters. -/
theorem takeRoomEnter {number : Int32} {l : List (Fin n)}
    (h : Phase c none acks (.roomEnter number :: queue) enter exit shown) (hc : c ∉ l) :
    Phase c (some (l ++ [c])) (acks ++ [.roomEnter]) queue enter exit shown := by
  have entered (hqueue : ∀ r ∈ queue, r.OfLobby) :
      Phase c (some (l ++ [c])) [.roomEnter] queue enter false [] := by
    have hphase : Phase c (some (l ++ [c])) [.roomEnter] queue enter false (after c (l ++ [c])) :=
      .entering hqueue
    rwa [after_append_self hc] at hphase
  cases h with
  | free h =>
    have hrest := List.forall_mem_of_forall_mem_cons h
    exact entered fun r hr => .inr (hrest r hr)
  | refreshing h =>
    rcases h.cons_cases with ⟨hlast, -⟩ | ⟨-, hrest⟩
    · cases hlast
    · exact entered (hrest.forall_mem (fun r hr => .inr hr) (.inl rfl))
  | leaving h => simpa [Request.IsLeave] using h (.roomEnter number) (by simp)
  | left h =>
    rcases h.cons_cases with ⟨hlast, -⟩ | ⟨hr, -⟩
    · cases hlast
    · simp [Request.IsLeave] at hr

theorem takeRoomInfo {l : List (Fin n)}
    (h : Phase c (some l) acks (.roomInfo :: queue) enter exit shown) :
    Phase c (some l) (acks ++ [.roomInfo]) queue enter exit l ∧ shown = after c l := by
  cases h with
  | entering h => simpa [Request.OfLobby, Request.IsEnter] using h .roomInfo (by simp)
  | asking h =>
    rcases h.cons_cases with ⟨-, rfl⟩ | ⟨hr, -⟩
    · exact ⟨.informed, rfl⟩
    · simp [Request.OfLobby, Request.IsEnter] at hr
  | inside h => simpa [Request.IsLeave] using h .roomInfo (by simp)

theorem takeRoomLeave {l : List (Fin n)}
    (h : Phase c (some l) acks (.roomLeave :: queue) enter exit shown) :
    Phase c none (acks ++ [.roomLeave]) queue enter exit [] := by
  cases h with
  | entering h => simpa [Request.OfLobby, Request.IsEnter] using h .roomLeave (by simp)
  | asking h =>
    rcases h.cons_cases with ⟨hlast, -⟩ | ⟨hr, -⟩
    · cases hlast
    · simp [Request.OfLobby, Request.IsEnter] at hr
  | inside h => exact .leaving (List.forall_mem_of_forall_mem_cons h)

end Phase

/-- What the server does with a request of the client itself. The snapshot of the room
completes the list of a client behind which nobody stands. -/
theorem Transition.own (t : Transition ids c v r v' sent)
    (hlast : ∀ l, v c = some l → r = .roomInfo → after c l = [])
    (h : Phase c (v c) acks (r :: queue) enter exit shown)
    (hreplays : Replays ids notices users shown) :
    ∃ shown', Phase c (v' c) (acks ++ (sent c).filterMap Notice.ack) queue enter exit shown' ∧
      Replays ids (notices ++ sent c) users shown' := by
  cases t with
  | ignoredInLobby hc hr =>
    rw [hc] at h ⊢
    simp only [List.filterMap_nil, List.append_nil]
    exact ⟨shown, h.ignoredInLobby hr, hreplays⟩
  | ignoredInRoom hc hr =>
    rcases Option.ne_none_iff_exists'.mp hc with ⟨l, hl⟩
    rw [hl] at h ⊢
    simp only [List.filterMap_nil, List.append_nil]
    exact ⟨shown, h.ignoredInRoom hr, hreplays⟩
  | lobbyInfo hc rooms =>
    rw [hc] at h ⊢
    simp only [if_true]
    refine ⟨shown, h.takeLobbyInfo, ?_⟩
    have hboth := (hreplays.unchanged .ackLobbyInfo rfl).unchanged (.notifyLobbyInfo rooms) rfl
    simpa using hboth
  | @entered hc number l hl =>
    rw [hc] at h
    have hnot : c ∉ l := fun hmem => by simpa [hc] using (hl c).mp hmem
    simp only [if_true, true_or]
    exact ⟨shown, h.takeRoomEnter hnot, hreplays.unchanged .ackRoomEnter rfl⟩
  | @roomInfo l hc =>
    rw [hc] at h ⊢
    simp only [if_true]
    rcases h.takeRoomInfo with ⟨hphase, rfl⟩
    rw [hlast l hc rfl] at hreplays
    exact ⟨l, hphase, hreplays.snapshot l⟩
  | left hc hl =>
    rw [hc] at h
    simp only [if_true]
    refine ⟨[], h.takeRoomLeave, ?_⟩
    have hcleared := Replays.cleared ids (notices ++ [.notifyRoomLeave (ids c)]) users
    simpa using hcleared

end ChatServer.Client
