import Mathlib.Data.List.Basic
import Mathlib.Tactic.Common

/-! # Two queues drained in turns

A consumer takes one element of a first queue and one of a second queue in each
turn. `done` is 1 when the first queue has had its turn and 0 before. An element of
the first queue is ahead of one of the second queue when it is taken earlier.
-/

namespace Alternation

variable {α β κ : Type*} {key : α → κ} {key' : β → κ} {done : ℕ} {as : List α} {bs : List β}

/-- Elements of the first queue are ahead of those of the second with the same key. -/
def Ahead (key : α → κ) (key' : β → κ) (done : ℕ) (as : List α) (bs : List β) : Prop :=
  ∀ q p a b, as[q]? = some a → bs[p]? = some b → key a = key' b → q + done ≤ p

namespace Ahead

theorem nil_left : Ahead key key' done [] bs := by
  intro q p a b ha
  simp at ha

theorem nil_right : Ahead key key' done as [] := by
  intro q p a b _ hb
  simp at hb

theorem take_left {a : α} (h : Ahead key key' 0 (a :: as) bs) : Ahead key key' 1 as bs :=
  fun q p a' b ha hb hkey => h (q + 1) p a' b (by rwa [List.getElem?_cons_succ]) hb hkey

theorem take_right {b : β} (h : Ahead key key' 1 as (b :: bs)) : Ahead key key' 0 as bs := by
  intro q p a b' ha hb hkey
  have := h q (p + 1) a b' ha (by rwa [List.getElem?_cons_succ]) hkey
  omega

/-- When the second queue has its turn, nothing in the first has the key of its front. -/
theorem front_right {b : β} (h : Ahead key key' 1 as (b :: bs)) : ∀ a ∈ as, key a ≠ key' b := by
  intro a ha hkey
  rcases List.mem_iff_getElem?.mp ha with ⟨q, hq⟩
  have := h q 0 a b hq rfl hkey
  omega

/-- An element may join the first queue if those of its key in the second are behind it. -/
theorem push_left (h : Ahead key key' done as bs) {a : α}
    (hnew : ∀ b ∈ bs.take (as.length + done), key a ≠ key' b) :
    Ahead key key' done (as ++ [a]) bs := by
  intro q p a' b ha hb hkey
  by_cases hq : q < as.length
  · rw [List.getElem?_append_left hq] at ha
    exact h q p a' b ha hb hkey
  · have hlen := (List.getElem?_eq_some_iff.mp ha).1
    rw [List.length_append, List.length_singleton] at hlen
    obtain rfl : q = as.length := by omega
    obtain rfl : a = a' := by simpa using ha
    by_contra hp
    refine hnew b (List.mem_iff_getElem?.mpr ⟨p, ?_⟩) hkey
    rw [List.getElem?_take_of_lt (by omega), hb]

/-- An element may join the second queue if those of its key in the first are ahead. -/
theorem push_right (h : Ahead key key' done as bs) {b : β}
    (hnew : ∀ a ∈ as.drop (bs.length + 1 - done), key a ≠ key' b) :
    Ahead key key' done as (bs ++ [b]) := by
  intro q p a b' ha hb hkey
  by_cases hp : p < bs.length
  · rw [List.getElem?_append_left hp] at hb
    exact h q p a b' ha hb hkey
  · have hlen := (List.getElem?_eq_some_iff.mp hb).1
    rw [List.length_append, List.length_singleton] at hlen
    obtain rfl : p = bs.length := by omega
    obtain rfl : b = b' := by simpa using hb
    by_contra hq
    refine hnew a (List.mem_iff_getElem?.mpr ⟨q - (bs.length + 1 - done), ?_⟩) hkey
    rw [List.getElem?_drop, show bs.length + 1 - done + (q - (bs.length + 1 - done)) = q by omega, ha]

end Ahead

end Alternation
