import Mathlib.Data.List.Basic
import Mathlib.Tactic.Common

/-! # Linear memory

Memory is a function from addresses to cells. `window` reads a block, `store`
writes one, and `move` copies a block onto another, reading all of it first.
-/

namespace LinearMemory

variable {α : Type*}

def window (mem : ℕ → α) (start len : ℕ) : List α :=
  (List.range len).map fun k => mem (start + k)

def store (mem : ℕ → α) (start : ℕ) (data : List α) : ℕ → α :=
  fun k => if start ≤ k then (data[k - start]?).getD (mem k) else mem k

/-- Copy `len` cells from `src` to `dst`; the two blocks may overlap. -/
def move (mem : ℕ → α) (dst src len : ℕ) : ℕ → α := store mem dst (window mem src len)

@[simp] theorem length_window (mem : ℕ → α) (start len : ℕ) :
    (window mem start len).length = len := by simp [window]

@[simp] theorem window_zero (mem : ℕ → α) (start : ℕ) : window mem start 0 = [] := rfl

theorem getElem?_window (mem : ℕ → α) (start len k : ℕ) :
    (window mem start len)[k]? = if k < len then some (mem (start + k)) else none := by
  simp only [window, List.getElem?_map]
  by_cases h : k < len
  · simp [h]
  · simp [h]

theorem window_append (mem : ℕ → α) (start m n : ℕ) :
    window mem start m ++ window mem (start + m) n = window mem start (m + n) := by
  simp only [window, List.range_add, List.map_append, List.map_map, Function.comp_def,
    Nat.add_assoc]

theorem take_window (mem : ℕ → α) (start len k : ℕ) :
    (window mem start len).take k = window mem start (min k len) := by
  simp [window, ← List.map_take, List.take_range]

theorem drop_window (mem : ℕ → α) (start len k : ℕ) :
    (window mem start len).drop k = window mem (start + k) (len - k) := by
  apply List.ext_getElem?
  intro j
  rw [List.getElem?_drop, getElem?_window, getElem?_window, Nat.add_assoc]
  by_cases h : k + j < len
  · rw [if_pos h, if_pos (by omega)]
  · rw [if_neg h, if_neg (by omega)]

/-- A window depends on its own cells only. -/
theorem window_congr {mem mem' : ℕ → α} {start len : ℕ}
    (h : ∀ k, start ≤ k → k < start + len → mem k = mem' k) :
    window mem start len = window mem' start len := by
  apply List.map_congr_left
  intro k hk
  have := List.mem_range.mp hk
  exact h _ (by omega) (by omega)

theorem store_outside {mem : ℕ → α} {start : ℕ} {data : List α} {k : ℕ}
    (h : k < start ∨ start + data.length ≤ k) : store mem start data k = mem k := by
  unfold store
  split_ifs with hk
  · rw [List.getElem?_eq_none (by omega)]
    rfl
  · rfl

theorem window_store_self (mem : ℕ → α) (start : ℕ) (data : List α) :
    window (store mem start data) start data.length = data := by
  apply List.ext_getElem?
  intro k
  rw [getElem?_window]
  split_ifs with h
  · simp [store, h]
  · exact (List.getElem?_eq_none (by omega)).symm

theorem window_store_disjoint {mem : ℕ → α} {start : ℕ} {data : List α} {from_ len : ℕ}
    (h : from_ + len ≤ start ∨ start + data.length ≤ from_) :
    window (store mem start data) from_ len = window mem from_ len :=
  window_congr fun _ _ _ => store_outside (by omega)

theorem window_move_self (mem : ℕ → α) (dst src len : ℕ) :
    window (move mem dst src len) dst len = window mem src len := by
  have h := window_store_self mem dst (window mem src len)
  rwa [length_window] at h

theorem window_move_disjoint {mem : ℕ → α} {dst src len from_ n : ℕ}
    (h : from_ + n ≤ dst ∨ dst + len ≤ from_) :
    window (move mem dst src len) from_ n = window mem from_ n :=
  window_store_disjoint (by simpa using h)

end LinearMemory
