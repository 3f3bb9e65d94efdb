import ChatServer.Library.Framing
import ChatServer.Library.Run

/-! # A queue that is read frame by frame

The abstract model of a buffer in front of a framed stream. Data is appended at
the back, complete frames are taken off the front, and the queue may be cleared.
What its user sees of an operation is an event. A component refines the queue if
every run of it is a trace of such events.
-/

namespace Framing
open Recorded

variable {α : Type*}

/-- What the user of a queue sees of one operation. -/
inductive QueueEvent (α : Type*) where
  | append (data : List α)
  | refused
  | taken (f : List α)
  | incomplete
  | clear

/-- The elements of the queue before and after an event. -/
inductive QueueStep (F : Format α) : List α → QueueEvent α → List α → Prop
  | append (l data : List α) : QueueStep F l (.append data) (l ++ data)
  | refused (l : List α) : QueueStep F l .refused l
  | taken {l f rest : List α} : F.next l = some (f, rest) → QueueStep F l (.taken f) rest
  | incomplete {l : List α} : F.next l = none → QueueStep F l .incomplete l
  | clear (l : List α) : QueueStep F l .clear []

/-- What went in and what came out since the last clear. -/
structure Session (α : Type*) where
  received : List α
  taken : List (List α)

def Session.after (s : Session α) : QueueEvent α → Session α
  | .append data => { s with received := s.received ++ data }
  | .taken f => { s with taken := s.taken ++ [f] }
  | .clear => { received := [], taken := [] }
  | .refused | .incomplete => s

def session (events : List (QueueEvent α)) : Session α :=
  events.foldl Session.after { received := [], taken := [] }

@[simp] theorem session_snoc (events : List (QueueEvent α)) (event : QueueEvent α) :
    session (events ++ [event]) = (session events).after event := by simp [session]

/-- Nothing is lost, duplicated or reordered: what went in is what came out,
followed by what the queue holds. -/
theorem received_eq_taken_append {F : Format α} {events : List (QueueEvent α)} {l : List α}
    (trace : Trace (QueueStep F) [] events l) :
    (session events).received = (session events).taken.flatten ++ l := by
  induction trace with
  | nil => rfl
  | snoc trace hstep ih =>
    rw [session_snoc]
    cases hstep with
    | append data => simp [Session.after, ih]
    | refused | incomplete => exact ih
    | taken h => simp [Session.after, ih, ← Format.append_of_next h]
    | clear => rfl

/-- Each taken frame begins at its own place in the stream, as long as none is empty. -/
theorem start_lt_start {fs : List (List α)} (hfs : ∀ f ∈ fs, f ≠ []) {i j : ℕ} (hij : i < j)
    (hj : j < fs.length) : (fs.take i).flatten.length < (fs.take j).flatten.length := by
  have hi : i < fs.length := hij.trans hj
  have hlt : (fs.take i).flatten.length < (fs.take (i + 1)).flatten.length := by
    rw [List.take_succ_eq_append_getElem hi, List.flatten_append, List.length_append]
    simpa using List.length_pos_iff.mpr (hfs _ (List.getElem_mem hi))
  have hle : (fs.take (i + 1)).flatten.length ≤ (fs.take j).flatten.length :=
    ((List.take_prefix_take_left hij).flatten).length_le
  omega

/-- Frames of at least `m` elements are paid for by what went in. -/
theorem mul_length_le_flatten {fs : List (List α)} {m : ℕ} (hfs : ∀ f ∈ fs, m ≤ f.length) :
    m * fs.length ≤ fs.flatten.length := by
  induction fs with
  | nil => simp
  | cons f fs ih =>
    have hf := hfs f (by simp)
    have hrest := ih fun g hg => hfs g (by simp [hg])
    rw [List.length_cons, List.flatten_cons, List.length_append, Nat.mul_succ]
    omega

theorem mul_taken_le_received {F : Format α} {events : List (QueueEvent α)} {l : List α} {m : ℕ}
    (trace : Trace (QueueStep F) [] events l) (hm : ∀ f ∈ (session events).taken, m ≤ f.length) :
    m * (session events).taken.length ≤ (session events).received.length := by
  have hpaid := mul_length_le_flatten hm
  rw [received_eq_taken_append trace, List.length_append]
  omega

end Framing
