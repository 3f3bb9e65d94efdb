import Mathlib.Data.List.Nodup

/-! # A list that follows another by notices

A copy of a list without duplicates is built from a snapshot of it and from notices of
each addition and removal. Notices are not applied at once, so a copy is compared after
the replay of those still under way, and only up to order.
-/

namespace Roster

variable {α : Type*} [DecidableEq α]

/-- What one notice does to a copy -/
inductive Update (α : Type*) where
  | joined (a : α)
  | gone (a : α)
  | snapshot (l : List α)
  | cleared
  | unchanged

namespace Update

def apply : Update α → List α → List α
  | joined a, copy => copy ++ [a]
  | gone a, copy => copy.erase a
  | snapshot l, copy => copy ++ l
  | cleared, _ => []
  | unchanged, copy => copy

theorem apply_perm (u : Update α) {copy copy' : List α} (h : copy.Perm copy') :
    (u.apply copy).Perm (u.apply copy') := by
  cases u with
  | joined a => exact h.append_right _
  | gone a => exact h.erase a
  | snapshot l => exact h.append_right _
  | cleared => exact .refl _
  | unchanged => exact h

end Update

/-- The copy after the notices under way -/
def replay (us : List (Update α)) (copy : List α) : List α :=
  us.foldl (fun copy u => u.apply copy) copy

@[simp] theorem replay_nil (copy : List α) : replay [] copy = copy := rfl

@[simp] theorem replay_cons (u : Update α) (us : List (Update α)) (copy : List α) :
    replay (u :: us) copy = replay us (u.apply copy) := rfl

theorem replay_append (us vs : List (Update α)) (copy : List α) :
    replay (us ++ vs) copy = replay vs (replay us copy) := List.foldl_append

/-- A notice at the end acts on what the others amount to. -/
theorem replay_snoc_perm {us : List (Update α)} {copy l : List α} (u : Update α)
    (h : (replay us copy).Perm l) : (replay (us ++ [u]) copy).Perm (u.apply l) := by
  rw [replay_append]
  exact u.apply_perm h

/-! ## Those behind an entry -/

/-- The entries of a list behind the first `a` -/
def after (a : α) : List α → List α
  | [] => []
  | b :: l => if b = a then l else after a l

variable {a b : α} {l : List α}

theorem after_sublist (a : α) (l : List α) : (after a l).Sublist l := by
  induction l with
  | nil => exact .slnil
  | cons b l ih =>
    rw [after]
    split_ifs
    · exact List.sublist_cons_self b l
    · exact ih.cons b

theorem after_append (h : a ∈ l) (l' : List α) : after a (l ++ l') = after a l ++ l' := by
  induction l with
  | nil => exact absurd h List.not_mem_nil
  | cons b l ih =>
    rw [List.cons_append, after, after]
    split_ifs with hb
    · rfl
    · exact ih ((List.mem_cons.mp h).resolve_left (Ne.symm hb))

theorem after_append_self (h : a ∉ l) : after a (l ++ [a]) = [] := by
  induction l with
  | nil => simp [after]
  | cons b l ih =>
    have hb : b ≠ a := fun hb => h (by simp [hb])
    rw [List.cons_append, after, if_neg hb]
    exact ih fun hmem => h (List.mem_cons_of_mem b hmem)

/-- Nothing stands behind the last entry. -/
theorem after_of_getLast? (hnodup : l.Nodup) (h : l.getLast? = some a) : after a l = [] := by
  obtain ⟨l', rfl⟩ := List.getLast?_eq_some_iff.mp h
  apply after_append_self
  intro hmem
  exact (List.disjoint_of_nodup_append hnodup) hmem (List.mem_singleton_self a)

/-- Removals keep the order of the others. -/
theorem after_filter {p : α → Bool} (h : p a = true) :
    after a (l.filter p) = (after a l).filter p := by
  induction l with
  | nil => rfl
  | cons b l ih =>
    rcases eq_or_ne b a with rfl | hb
    · rw [List.filter_cons_of_pos h, after, after, if_pos rfl, if_pos rfl]
    · rw [after, if_neg hb, ← ih]
      by_cases hp : p b = true
      · rw [List.filter_cons_of_pos hp, after, if_neg hb]
      · rw [List.filter_cons_of_neg hp]

/-! ## One notice, with the entries given by names -/

variable {ι : Type*} {f : ι → α} {us : List (Update α)} {copy : List α} {m : List ι}

theorem replay_joined (h : (replay us copy).Perm (m.map f)) (i : ι) :
    (replay (us ++ [.joined (f i)]) copy).Perm ((m ++ [i]).map f) := by
  rw [List.map_append]
  exact replay_snoc_perm (.joined (f i)) h

theorem map_apply_gone [DecidableEq ι] (hf : Function.Injective f) (i : ι) :
    ((Update.gone i).apply m).map f = (m.map f).erase (f i) := List.map_erase hf m

theorem replay_gone [DecidableEq ι] (hf : Function.Injective f) (hnodup : m.Nodup)
    (h : (replay us copy).Perm (m.map f)) (i : ι) :
    (replay (us ++ [.gone (f i)]) copy).Perm ((m.filter (· ≠ i)).map f) := by
  have hgone := replay_snoc_perm (.gone (f i)) h
  rw [Update.apply, ← List.map_erase hf, hnodup.erase_eq_filter] at hgone
  have hfilter : m.filter (· ≠ i) = m.filter (· != i) := by
    apply List.filter_congr
    intro x _
    by_cases hx : x = i <;> simp [hx]
  rwa [hfilter]

end Roster
