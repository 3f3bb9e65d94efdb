import Mathlib.Data.List.Infix
import Mathlib.Tactic.Common

/-! # Length-prefixed frames in a stream

A frame starts with a header of fixed size that declares the length of the whole
frame. A reader sees a growing prefix of the stream and cuts complete frames off
its front. `Reads` is what such a reader keeps: what it received is what it cut
off followed by what is unread.
-/

namespace Framing

/-- The declared length is a function of the header alone. -/
structure Format (α : Type*) where
  headerSize : ℕ
  headerSize_pos : 0 < headerSize
  declared : List α → ℕ
  declared_take : ∀ l, declared (l.take headerSize) = declared l

variable {α : Type*} (F : Format α)

/-- A complete frame at the front of the unread data, with what remains after it. -/
def Format.next (l : List α) : Option (List α × List α) :=
  if F.headerSize ≤ l.length ∧ F.declared l ≤ l.length then
    some (l.take (F.declared l), l.drop (F.declared l))
  else none

/-- A frame that holds its header and is as long as the header declares. -/
def Format.WellFormed (f : List α) : Prop :=
  F.headerSize ≤ f.length ∧ F.declared f = f.length

instance (f : List α) : Decidable (F.WellFormed f) := by
  unfold Format.WellFormed
  infer_instance

/-- At most `fuel` complete frames, cut off the front one after the other. -/
def Format.cut : ℕ → List α → List (List α)
  | 0, _ => []
  | fuel + 1, l =>
    match F.next l with
    | none => []
    | some (f, rest) => f :: Format.cut fuel rest

/-- All complete frames at the front: no more frames than elements, as long as
every frame has at least one. -/
def Format.complete (l : List α) : List (List α) := F.cut l.length l

/-- The frames of a stream that lie within its first `n` elements. -/
def within : List (List α) → ℕ → List (List α)
  | [], _ => []
  | f :: fs, n => if f.length ≤ n then f :: within fs (n - f.length) else []

variable {F} {l f rest : List α} {fs : List (List α)}

theorem within_prefix (fs : List (List α)) (n : ℕ) : within fs n <+: fs := by
  induction fs generalizing n with
  | nil => exact List.nil_prefix
  | cons f fs ih =>
    rw [within]
    split_ifs
    · exact (List.prefix_cons_inj f).mpr (ih _)
    · exact List.nil_prefix

/-- Frames that lie within the front of the stream are counted first. -/
theorem within_append (taken fs : List (List α)) (n : ℕ) :
    within (taken ++ fs) (taken.flatten.length + n) = taken ++ within fs n := by
  induction taken with
  | nil => simp
  | cons f taken ih =>
    simp only [List.cons_append, within, List.flatten_cons, List.length_append]
    rw [if_pos (by omega), Nat.add_assoc, Nat.add_sub_cancel_left, ih]

/-- More frames behind the stream do not change what lies within its front, unless they
are empty. -/
theorem within_append_right {gs : List (List α)} {n : ℕ} (hgs : ∀ g ∈ gs, g ≠ [])
    (hn : n ≤ fs.flatten.length) : within (fs ++ gs) n = within fs n := by
  induction fs generalizing n with
  | nil =>
    obtain rfl : n = 0 := Nat.le_zero.mp hn
    cases gs with
    | nil => rfl
    | cons g gs =>
      have hpos := List.length_pos_iff.mpr (hgs g List.mem_cons_self)
      simp only [List.nil_append, within]
      exact if_neg (Nat.not_le_of_lt hpos)
  | cons f fs ih =>
    rw [List.flatten_cons, List.length_append] at hn
    rw [List.cons_append, within, within]
    split_ifs with hf
    · rw [ih (by omega)]
    · rfl

/-- The whole stream holds all of its frames. -/
theorem within_flatten (fs : List (List α)) : within fs fs.flatten.length = fs := by
  have h := within_append fs [] 0
  rwa [List.append_nil, Nat.add_zero, within, List.append_nil] at h

namespace Format

theorem next_eq_some :
    F.next l = some (f, rest) ↔ F.headerSize ≤ l.length ∧ F.declared l ≤ l.length ∧
      f = l.take (F.declared l) ∧ rest = l.drop (F.declared l) := by
  unfold next
  split_ifs with h
  · simp [h, eq_comm]
  · constructor
    · simp
    · rintro ⟨h₁, h₂, -⟩
      exact absurd ⟨h₁, h₂⟩ h

theorem append_of_next (h : F.next l = some (f, rest)) : f ++ rest = l := by
  rcases next_eq_some.mp h with ⟨-, -, rfl, rfl⟩
  exact List.take_append_drop _ _

theorem next_nil : F.next ([] : List α) = none := by
  have := F.headerSize_pos
  simp [next]
  omega

/-- The header of a list that holds it does not change when data is appended. -/
theorem declared_append (h : F.headerSize ≤ l.length) :
    F.declared (l ++ rest) = F.declared l := by
  rw [← F.declared_take (l ++ rest), List.take_append_of_le_length h, F.declared_take]

/-- A well-formed frame at the front is cut off as a whole. -/
theorem next_append (hf : F.WellFormed f) : F.next (f ++ rest) = some (f, rest) := by
  rw [next_eq_some, declared_append hf.1, hf.2]
  have := hf.1
  simp
  omega

/-- As long as a frame is not all there, nothing is cut off. -/
theorem next_of_short (hf : F.WellFormed f) (hl : l <+: f) (hlt : l.length < f.length) :
    F.next l = none := by
  rcases hl with ⟨t, rfl⟩
  unfold next
  rw [if_neg]
  rintro ⟨hheader, hdeclared⟩
  have hlen := hf.2
  rw [declared_append hheader] at hlen
  omega

theorem next_of_prefix (rest : List α) (hf : F.WellFormed f) (hl : l <+: f ++ rest) :
    if f.length ≤ l.length then ∃ l', F.next l = some (f, l') ∧ l' <+: rest
    else F.next l = none := by
  split_ifs with hlen
  · rcases List.prefix_of_prefix_length_le (List.prefix_append f rest) hl hlen with ⟨l', rfl⟩
    exact ⟨l', next_append hf, (List.prefix_append_right_inj f).mp hl⟩
  · have hlt : l.length < f.length := by omega
    exact next_of_short hf
      (List.prefix_of_prefix_length_le hl (List.prefix_append f rest) hlt.le) hlt

theorem complete_of_next_none (h : F.next l = none) : F.complete l = [] := by
  unfold complete
  cases l.length with
  | zero => rfl
  | succ n => simp [cut, h]

theorem length_cut_mono {m n : ℕ} (h : m ≤ n) : (F.cut m l).length ≤ (F.cut n l).length := by
  induction m generalizing n l with
  | zero => simp [cut]
  | succ m ih =>
    obtain ⟨n, rfl⟩ : ∃ k, n = k + 1 := ⟨n - 1, by omega⟩
    rw [cut, cut]
    cases F.next l with
    | none => simp
    | some r => simpa using ih (by omega)

/-- Cutting off one frame leaves at least one complete frame less. -/
theorem length_complete_of_next (h : F.next l = some (f, rest)) (hf : f ≠ []) :
    (F.complete rest).length + 1 ≤ (F.complete l).length := by
  have hl := congrArg List.length (append_of_next h)
  rw [List.length_append] at hl
  have hpos := List.length_pos_iff.mpr hf
  obtain ⟨n, hn⟩ : ∃ n, l.length = n + 1 := ⟨l.length - 1, by omega⟩
  rw [complete, complete, hn, cut, h]
  simpa using length_cut_mono (F := F) (l := rest) (show rest.length ≤ n by omega)

/-- On a prefix of a stream of well-formed frames, the complete frames are the
frames of the stream that lie within the prefix. -/
theorem cut_eq_within (hfs : ∀ f ∈ fs, F.WellFormed f) (hl : l <+: fs.flatten) {fuel : ℕ}
    (hfuel : l.length ≤ fuel) : F.cut fuel l = within fs l.length := by
  induction fs generalizing l fuel with
  | nil =>
    obtain rfl : l = [] := by simpa using hl
    cases fuel <;> simp [cut, within, next_nil]
  | cons f fs ih =>
    have hf := hfs f (by simp)
    have hpos : 0 < f.length := lt_of_lt_of_le F.headerSize_pos hf.1
    have hnext := next_of_prefix fs.flatten hf (by simpa using hl)
    rw [within]
    split_ifs at hnext ⊢ with hlen
    · rcases hnext with ⟨l', hl', hpre⟩
      obtain rfl := append_of_next hl'
      rw [List.length_append] at hfuel hlen ⊢
      obtain ⟨n, rfl⟩ : ∃ n, fuel = n + 1 := ⟨fuel - 1, by omega⟩
      rw [cut, hl', Nat.add_sub_cancel_left]
      exact congrArg (f :: ·) (ih (fun g hg => hfs g (by simp [hg])) hpre (by omega))
    · cases fuel <;> simp [cut, hnext]

theorem complete_eq_within (hfs : ∀ f ∈ fs, F.WellFormed f) (hl : l <+: fs.flatten) :
    F.complete l = within fs l.length := cut_eq_within hfs hl le_rfl

end Format

/-- What a reader received is what it has taken, in order, and what is unread.
On a stream of well-formed frames it took those frames, and the number of
complete frames it still holds is at most `credit`. -/
structure Reads (F : Format α) (fs : List (List α)) (received : List α)
    (taken : List (List α)) (unread : List α) (credit : ℕ) : Prop where
  received_eq : received = taken.flatten ++ unread
  taken_prefix : received <+: fs.flatten → taken <+: fs
  complete_le : received <+: fs.flatten → (F.complete unread).length ≤ credit

namespace Reads

variable {received unread data : List α} {taken : List (List α)} {credit credit' : ℕ}

theorem start (F : Format α) (fs : List (List α)) (credit : ℕ) :
    Reads F fs [] [] [] credit where
  received_eq := rfl
  taken_prefix _ := List.nil_prefix
  complete_le _ := by simp [Format.complete_of_next_none Format.next_nil]

/-- Data arrives, and the credit covers the frames that are complete then. -/
theorem append (h : Reads F fs received taken unread credit)
    (hc : (F.complete (unread ++ data)).length ≤ credit') :
    Reads F fs (received ++ data) taken (unread ++ data) credit' where
  received_eq := by rw [h.received_eq, List.append_assoc]
  taken_prefix hr := h.taken_prefix ((List.prefix_append _ _).trans hr)
  complete_le _ := hc

/-- The unread data begins at the first frame that was not taken. -/
theorem unread_prefix (h : Reads F fs received taken unread credit)
    (hr : received <+: fs.flatten) : ∃ fs', fs = taken ++ fs' ∧ unread <+: fs'.flatten := by
  rcases h.taken_prefix hr with ⟨fs', rfl⟩
  refine ⟨fs', rfl, ?_⟩
  rw [h.received_eq, List.flatten_append] at hr
  exact (List.prefix_append_right_inj _).mp hr

/-- What is cut off the unread data is the first frame that was not taken. -/
theorem next_frame (hfs : ∀ f ∈ fs, F.WellFormed f)
    (h : Reads F fs received taken unread credit) (hr : received <+: fs.flatten)
    (hnext : F.next unread = some (f, rest)) : ∃ fs', fs = taken ++ f :: fs' := by
  rcases h.unread_prefix hr with ⟨fs', rfl, hun⟩
  cases fs' with
  | nil =>
    obtain rfl : unread = [] := by simpa using hun
    simp [Format.next_nil] at hnext
  | cons g fs' =>
    have hg := Format.next_of_prefix fs'.flatten (hfs g (by simp)) (by simpa using hun)
    split_ifs at hg
    · rcases hg with ⟨l', hl', -⟩
      obtain ⟨rfl, -⟩ : g = f ∧ l' = rest := by simpa [hl'] using hnext
      exact ⟨fs', rfl⟩
    · simp [hg] at hnext

/-- One unit of credit pays for taking the frame at the front. -/
theorem take (hfs : ∀ f ∈ fs, F.WellFormed f) (h : Reads F fs received taken unread (credit + 1))
    (hnext : F.next unread = some (f, rest)) :
    Reads F fs received (taken ++ [f]) rest credit where
  received_eq := by
    rw [h.received_eq, ← Format.append_of_next hnext]
    simp
  taken_prefix hr := by
    rcases h.next_frame hfs hr hnext with ⟨fs', rfl⟩
    exact ⟨fs', by simp⟩
  complete_le hr := by
    rcases h.next_frame hfs hr hnext with ⟨fs', rfl⟩
    have hpos := F.headerSize_pos.trans_le (hfs f (by simp)).1
    have := Format.length_complete_of_next hnext (List.ne_nil_of_length_pos hpos)
    have := h.complete_le hr
    omega

/-- One unit of credit also pays for finding no complete frame. -/
theorem skip (h : Reads F fs received taken unread (credit + 1))
    (hnext : F.next unread = none) : Reads F fs received taken unread credit :=
  { h with complete_le := fun _ => by simp [Format.complete_of_next_none hnext] }

/-- Without credit left, exactly the frames that have arrived have been taken. -/
theorem taken_eq_within (hfs : ∀ f ∈ fs, F.WellFormed f)
    (h : Reads F fs received taken unread 0) (hr : received <+: fs.flatten) :
    taken = within fs received.length := by
  rcases h.unread_prefix hr with ⟨fs', rfl, hun⟩
  have hnone : within fs' unread.length = [] := by
    rw [← Format.complete_eq_within (fun f hf => hfs f (by simp [hf])) hun]
    simpa using h.complete_le hr
  rw [h.received_eq, List.length_append, within_append, hnone, List.append_nil]

end Reads

end Framing
