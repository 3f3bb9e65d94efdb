import ChatServer.Library.Run

/-! # A queue with one server

Elements wait in the order in which they arrive. The front of the queue is in service,
and the next one is taken up only when it is done. A component refines the queue if
every run of it is a trace of arrivals and of ends of service.
-/

/-- What is done, oldest first, and what waits, the one in service included. -/
structure ServiceQueue (α : Type*) where
  done : List α
  waiting : List α

namespace ServiceQueue
open Recorded

variable {α : Type*} {q q' : ServiceQueue α} {a : α}

def empty : ServiceQueue α := { done := [], waiting := [] }

/-- The element in service -/
def front (q : ServiceQueue α) : Option α := q.waiting.head?

/-- Everything that has arrived -/
def arrived (q : ServiceQueue α) : List α := q.done ++ q.waiting

/-- Everything that was ever in service -/
def started (q : ServiceQueue α) : List α := q.done ++ q.front.toList

def arrive (q : ServiceQueue α) (a : α) : ServiceQueue α :=
  { q with waiting := q.waiting ++ [a] }

def finish (q : ServiceQueue α) : ServiceQueue α :=
  { done := q.done ++ q.front.toList, waiting := q.waiting.tail }

/-- What the user of the queue sees of one operation. -/
inductive Event (α : Type*) where
  | arrive (a : α)
  | finish (a : α)
  | idle

inductive Step : ServiceQueue α → Event α → ServiceQueue α → Prop
  | arrive (q : ServiceQueue α) (a : α) : Step q (.arrive a) (q.arrive a)
  | finish {q : ServiceQueue α} {a : α} : q.front = some a → Step q (.finish a) q.finish
  | idle (q : ServiceQueue α) : Step q .idle q

/-! ## One operation -/

@[simp] theorem arrived_arrive : (q.arrive a).arrived = q.arrived ++ [a] :=
  (List.append_assoc _ _ _).symm

theorem waiting_eq_front_append (q : ServiceQueue α) :
    q.waiting = q.front.toList ++ q.waiting.tail := by
  cases h : q.waiting <;> simp [front, h]

@[simp] theorem arrived_finish : q.finish.arrived = q.arrived := by
  rw [arrived, arrived, finish, List.append_assoc, ← waiting_eq_front_append]

theorem started_of_nil (h : q.waiting = []) : q.started = q.done := by
  simp [started, front, h]

theorem started_of_front (h : q.front = some a) : q.started = q.done ++ [a] := by
  rw [started, h]
  rfl

/-- What arrives at a queue that is not empty waits. -/
theorem front_arrive_of_ne (h : q.waiting ≠ []) : (q.arrive a).front = q.front := by
  cases hq : q.waiting with
  | nil => exact absurd hq h
  | cons b rest => simp [arrive, front, hq]

theorem started_arrive_of_ne (h : q.waiting ≠ []) : (q.arrive a).started = q.started := by
  rw [started, started, front_arrive_of_ne h]
  rfl

/-- Elements are taken up in the order in which they arrive, with none skipped. -/
theorem started_prefix (q : ServiceQueue α) : q.started <+: q.arrived := by
  refine ⟨q.waiting.tail, ?_⟩
  rw [started, arrived, List.append_assoc, ← waiting_eq_front_append]

theorem done_prefix (q : ServiceQueue α) : q.done <+: q.started := List.prefix_append _ _

theorem waiting_eq_cons (h : q.front = some a) : q.waiting = a :: q.waiting.tail := by
  have hwaiting := q.waiting_eq_front_append
  rwa [h] at hwaiting

/-- Of distinct elements the one in service is not done. -/
theorem not_mem_done (h : q.front = some a) (hnodup : q.arrived.Nodup) : a ∉ q.done := by
  intro hdone
  rw [arrived, waiting_eq_cons h] at hnodup
  exact (List.nodup_append.mp hnodup).2.2 a hdone a List.mem_cons_self rfl

/-! ## Whole runs -/

def Event.arrival? : Event α → Option α
  | .arrive a => some a
  | .finish _ | .idle => none

def Event.finished? : Event α → Option α
  | .finish a => some a
  | .arrive _ | .idle => none

theorem Step.arrived_eq {event : Event α} (h : Step q event q') :
    q'.arrived = q.arrived ++ event.arrival?.toList := by
  cases h with
  | arrive a => exact arrived_arrive
  | finish h => simp [Event.arrival?]
  | idle => simp [Event.arrival?]

theorem Step.done_eq {event : Event α} (h : Step q event q') :
    q'.done = q.done ++ event.finished?.toList := by
  cases h with
  | arrive a => simp [ServiceQueue.arrive, Event.finished?]
  | finish h => simp [ServiceQueue.finish, h, Event.finished?]
  | idle => simp [Event.finished?]

theorem filterMap_singleton {β γ : Type*} (f : β → Option γ) (b : β) :
    [b].filterMap f = (f b).toList := by
  cases h : f b <;> simp [h]

theorem arrived_of_trace {events : List (Event α)} (trace : Trace Step empty events q) :
    q.arrived = events.filterMap Event.arrival? := by
  induction trace with
  | nil => rfl
  | snoc trace hstep ih =>
    rw [hstep.arrived_eq, ih, List.filterMap_append, filterMap_singleton]

end ServiceQueue
