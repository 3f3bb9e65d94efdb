import Mathlib.Data.List.DropRight
import Mathlib.Data.List.Infix
import Mathlib.Tactic.Common

/-! # Recorded runs of a deterministic machine

A run keeps one entry for each step: the state before, the action, the state
after. The rules below turn one-step facts into facts about whole runs, and one
exact step condition into the exact condition for a whole run.
-/

namespace Recorded

/-- One step of a run together with the states on both sides of it. -/
structure Entry (σ ι : Type*) where
  pre : σ
  act : ι
  post : σ

variable {σ ι : Type*}

/-- The entries of the list, oldest first, lead from `s₀` to the last state. An
action with no successor is not enabled, or has no defined behaviour. -/
inductive Run (step : σ → ι → Option σ) (s₀ : σ) : List (Entry σ ι) → σ → Prop
  | nil : Run step s₀ [] s₀
  | snoc {past : List (Entry σ ι)} {s : σ} {a : ι} {s' : σ} :
      Run step s₀ past s → step s a = some s' → Run step s₀ (past ++ [⟨s, a, s'⟩]) s'

/-- `Q` holds of every entry together with the entries before it. -/
def AtEach (Q : List (Entry σ ι) → Entry σ ι → Prop) (past : List (Entry σ ι)) : Prop :=
  ∀ k e, past[k]? = some e → Q (past.take k) e

theorem atEach_nil (Q : List (Entry σ ι) → Entry σ ι → Prop) : AtEach Q [] := by
  intro k e h
  simp at h

theorem atEach_snoc {Q : List (Entry σ ι) → Entry σ ι → Prop} {past : List (Entry σ ι)}
    {e : Entry σ ι} : AtEach Q (past ++ [e]) ↔ AtEach Q past ∧ Q past e := by
  refine ⟨fun h => ⟨fun k f hf => ?_, ?_⟩, fun ⟨hpast, hlast⟩ k f hf => ?_⟩
  · have hk : k < past.length := (List.getElem?_eq_some_iff.mp hf).1
    have hQ := h k f (by rw [List.getElem?_append_left hk, hf])
    rwa [List.take_append_of_le_length hk.le] at hQ
  · simpa using h past.length e (by simp)
  · have hk : k < past.length + 1 := by
      simpa using (List.getElem?_eq_some_iff.mp hf).1
    rcases Nat.lt_succ_iff_lt_or_eq.mp hk with hk | rfl
    · rw [List.take_append_of_le_length hk.le]
      exact hpast k f (by rwa [List.getElem?_append_left hk] at hf)
    · obtain rfl : e = f := by simpa using hf
      simpa using hlast

/-- A property of single entries needs no history. -/
theorem atEach_const {Q : Entry σ ι → Prop} {past : List (Entry σ ι)} :
    AtEach (fun _ e => Q e) past ↔ ∀ e ∈ past, Q e := by
  simp only [AtEach, List.mem_iff_getElem?]
  exact ⟨fun h e ⟨k, hk⟩ => h k e hk, fun h k e hk => h e ⟨k, hk⟩⟩

instance {Q : List (Entry σ ι) → Entry σ ι → Prop} [∀ before e, Decidable (Q before e)]
    (past : List (Entry σ ι)) : Decidable (AtEach Q past) :=
  decidable_of_iff (∀ k : Fin past.length, Q (past.take k) past[k])
    ⟨fun h k e he => by
      rcases List.getElem?_eq_some_iff.mp he with ⟨hk, rfl⟩
      exact h ⟨k, hk⟩,
    fun h k => h k _ (List.getElem?_eq_getElem k.isLt)⟩

namespace Run

variable {step : σ → ι → Option σ} {s₀ s : σ} {past : List (Entry σ ι)}

/-- A property of states and of the entries that led to them, established at the
start and kept by every step that meets `C`, holds at the end of the run. -/
theorem invariant {C : List (Entry σ ι) → Entry σ ι → Prop} {P : List (Entry σ ι) → σ → Prop}
    (run : Run step s₀ past s) (init : P [] s₀)
    (keep : ∀ past s a s', Run step s₀ past s → P past s → step s a = some s' →
      C past ⟨s, a, s'⟩ → P (past ++ [⟨s, a, s'⟩]) s')
    (meets : AtEach C past) : P past s := by
  induction run with
  | nil => exact init
  | snoc run hstep ih =>
    rcases atEach_snoc.mp meets with ⟨hpast, hlast⟩
    exact keep _ _ _ _ run (ih hpast) hstep hlast

/-- The rule for a property of states alone, with no condition on the steps. -/
theorem state_invariant {P : σ → Prop} (run : Run step s₀ past s) (init : P s₀)
    (keep : ∀ s a s', P s → step s a = some s' → P s') : P s :=
  run.invariant (C := fun _ _ => True) (P := fun _ s => P s) init
    (fun _ _ _ _ _ hP hstep _ => keep _ _ _ hP hstep) (fun _ _ _ => trivial)

/-- A property that every step which meets `C` has, given the invariant `P`. -/
theorem atEach_of_invariant {C Q : List (Entry σ ι) → Entry σ ι → Prop}
    {P : List (Entry σ ι) → σ → Prop} (run : Run step s₀ past s) (init : P [] s₀)
    (keep : ∀ past s a s', Run step s₀ past s → P past s → step s a = some s' →
      C past ⟨s, a, s'⟩ → P (past ++ [⟨s, a, s'⟩]) s')
    (gives : ∀ past s a s', Run step s₀ past s → P past s → step s a = some s' →
      C past ⟨s, a, s'⟩ → Q past ⟨s, a, s'⟩)
    (meets : AtEach C past) : AtEach Q past := by
  induction run with
  | nil => exact atEach_nil _
  | snoc run hstep ih =>
    rcases atEach_snoc.mp meets with ⟨hpast, hlast⟩
    exact atEach_snoc.mpr ⟨ih hpast,
      gives _ _ _ _ run (run.invariant init keep hpast) hstep hlast⟩

/-- Exact conditions compose: if, under an invariant that the steps meeting `C`
keep, a step has `Q` precisely when it meets `C`, then all steps of a run have
`Q` precisely when all of them meet `C`. The run may be assumed to satisfy `A`. -/
theorem exact_iff {A C Q : List (Entry σ ι) → Entry σ ι → Prop}
    {I : List (Entry σ ι) → σ → Prop} (run : Run step s₀ past s) (init : I [] s₀)
    (keep : ∀ past s a s', I past s → step s a = some s' →
      A past ⟨s, a, s'⟩ → C past ⟨s, a, s'⟩ → I (past ++ [⟨s, a, s'⟩]) s')
    (exact_step : ∀ past s a s', I past s → step s a = some s' →
      A past ⟨s, a, s'⟩ → (Q past ⟨s, a, s'⟩ ↔ C past ⟨s, a, s'⟩))
    (assumed : AtEach A past) : AtEach Q past ↔ AtEach C past := by
  induction run with
  | nil => exact ⟨fun _ => atEach_nil _, fun _ => atEach_nil _⟩
  | snoc run hstep ih =>
    rcases atEach_snoc.mp assumed with ⟨hA, hlast⟩
    rw [atEach_snoc, atEach_snoc, ih hA]
    apply and_congr_right
    intro hC
    have hI := run.invariant (C := fun past e => A past e ∧ C past e) init
      (fun _ _ _ _ _ hI hstep h => keep _ _ _ _ hI hstep h.1 h.2)
      (fun k e he => ⟨hA k e he, hC k e he⟩)
    exact exact_step _ _ _ _ hI hstep hlast

/-- A run may be extended at its front. -/
theorem cons {s₁ : σ} {a : ι} (hstep : step s₀ a = some s₁) (run : Run step s₁ past s) :
    Run step s₀ (⟨s₀, a, s₁⟩ :: past) s := by
  induction run with
  | nil => exact Run.nil.snoc hstep
  | snoc run hlast ih => exact ih.snoc hlast

/-- A run may be cut at each of its entries. -/
theorem split {e : Entry σ ι} {before after : List (Entry σ ι)}
    (run : Run step s₀ (before ++ e :: after) s) :
    Run step s₀ before e.pre ∧ step e.pre e.act = some e.post ∧ Run step e.post after s := by
  generalize hpast : before ++ e :: after = past at run
  induction run generalizing after with
  | nil => simp at hpast
  | snoc run hstep ih =>
    rcases List.eq_nil_or_concat' after with rfl | ⟨rest, last, rfl⟩
    · rcases List.append_inj' hpast rfl with ⟨rfl, hlast⟩
      obtain rfl := List.head_eq_of_cons_eq hlast
      exact ⟨run, hstep, .nil⟩
    · rw [← List.cons_append, ← List.append_assoc] at hpast
      rcases List.append_inj' hpast rfl with ⟨hrest, hlast⟩
      obtain rfl := List.head_eq_of_cons_eq hlast
      rcases ih hrest with ⟨hbefore, he, hafter⟩
      exact ⟨hbefore, he, hafter.snoc hstep⟩

/-- Every entry is a step. -/
theorem step_of_mem {e : Entry σ ι} (run : Run step s₀ past s) (he : e ∈ past) :
    step e.pre e.act = some e.post := by
  rcases List.append_of_mem he with ⟨before, after, rfl⟩
  exact run.split.2.1

/-- A run in two parts -/
theorem append_split {before after : List (Entry σ ι)} (run : Run step s₀ (before ++ after) s) :
    ∃ s₁, Run step s₀ before s₁ ∧ Run step s₁ after s := by
  cases after with
  | nil =>
    rw [List.append_nil] at run
    exact ⟨s, run, .nil⟩
  | cons e after =>
    rcases run.split with ⟨hbefore, he, hafter⟩
    exact ⟨e.pre, hbefore, hafter.cons he⟩

/-- A run is no longer than a measure that all its steps lower. -/
theorem length_le {P : σ → Prop} {C : Entry σ ι → Prop} (measure : σ → ℕ)
    (run : Run step s₀ past s) (init : P s₀)
    (lowers : ∀ s a s', P s → step s a = some s' → C ⟨s, a, s'⟩ → P s' ∧ measure s' < measure s)
    (meets : ∀ e ∈ past, C e) : past.length + measure s ≤ measure s₀ ∧ P s := by
  induction run with
  | nil => exact ⟨(Nat.zero_add _).le, init⟩
  | @snoc past s a s' run hstep ih =>
    rcases ih fun e he => meets e (List.mem_append_left _ he) with ⟨hle, hP⟩
    have hlast := meets ⟨s, a, s'⟩ (List.mem_append_right _ (List.mem_singleton_self _))
    rcases lowers s a s' hP hstep hlast with ⟨hP', hlt⟩
    rw [List.length_append, List.length_singleton]
    exact ⟨by omega, hP'⟩

end Run

/-! ## Traces of an abstract machine -/

section Trace
variable {τ ε : Type*}

/-- The events, oldest first, lead an abstract machine from `t₀` to the last state. -/
inductive Trace (R : τ → ε → τ → Prop) (t₀ : τ) : List ε → τ → Prop
  | nil : Trace R t₀ [] t₀
  | snoc {events : List ε} {t : τ} {event : ε} {t' : τ} :
      Trace R t₀ events t → R t event t' → Trace R t₀ (events ++ [event]) t'

/-- Simulation: if the two sides of every entry are related by the abstract machine,
the run is a trace of it. -/
theorem Run.trace {step : σ → ι → Option σ} {s₀ s : σ} {past : List (Entry σ ι)}
    {R : τ → ε → τ → Prop} (abs : σ → τ) (event : Entry σ ι → ε) (run : Run step s₀ past s)
    (simulates : ∀ e ∈ past, R (abs e.pre) (event e) (abs e.post)) :
    Trace R (abs s₀) (past.map event) (abs s) := by
  induction run with
  | nil => exact .nil
  | snoc run hstep ih =>
    rw [List.map_append, List.map_singleton]
    apply Trace.snoc
    · exact ih fun e he => simulates e (by simp [he])
    · exact simulates _ (List.mem_append_right _ (List.mem_singleton_self _))

end Trace

section Simulation

variable {τ κ : Type*} {R : σ → τ → Prop} {visible : Entry σ ι → Option κ} {s₀ s : σ} {t₀ t : τ}
  {past : List (Entry σ ι)} {past' : List (Entry τ κ)}

theorem filterMap_snoc {α : Type*} (f : Entry σ ι → Option α) (past : List (Entry σ ι))
    (e : Entry σ ι) : (past ++ [e]).filterMap f = past.filterMap f ++ (f e).toList := by
  rw [List.filterMap_append]
  cases h : f e <;> simp [h]

/-- The last steps as long as a property has held -/
theorem rtakeWhile_snoc (p : σ → Prop) [DecidablePred p] (past : List (Entry σ ι))
    (e : Entry σ ι) : ((past ++ [e]).rtakeWhile fun e => p e.pre) =
      if p e.pre then (past.rtakeWhile fun e => p e.pre) ++ [e] else [] := by
  rw [List.rtakeWhile_concat]
  simp only [decide_eq_true_eq]

/-- A history with the history of a machine that it refines. Each step is invisible, or is
one step of that machine, and the states on both sides are related. -/
inductive Matching (R : σ → τ → Prop) (visible : Entry σ ι → Option κ) (s₀ : σ) (t₀ : τ) :
    List (Entry σ ι) → σ → List (Entry τ κ) → τ → Prop
  | start (hR : R s₀ t₀) : Matching R visible s₀ t₀ [] s₀ [] t₀
  | stutter {past : List (Entry σ ι)} {s s' : σ} {a : ι} {past' : List (Entry τ κ)} {t : τ}
      (h : Matching R visible s₀ t₀ past s past' t) (hnone : visible ⟨s, a, s'⟩ = none)
      (hR : R s' t) : Matching R visible s₀ t₀ (past ++ [⟨s, a, s'⟩]) s' past' t
  | both {past : List (Entry σ ι)} {s s' : σ} {a : ι} {past' : List (Entry τ κ)} {t t' : τ} {b : κ}
      (h : Matching R visible s₀ t₀ past s past' t) (hsome : visible ⟨s, a, s'⟩ = some b)
      (hR : R s' t') :
      Matching R visible s₀ t₀ (past ++ [⟨s, a, s'⟩]) s' (past' ++ [⟨t, b, t'⟩]) t'

namespace Matching

theorem related (h : Matching R visible s₀ t₀ past s past' t) : R s t := by
  cases h with
  | start hR | stutter _ _ hR | both _ _ hR => exact hR

/-- A step of the machine that is refined is a step of the history. -/
theorem exists_entry (h : Matching R visible s₀ t₀ past s past' t) :
    ∀ e' ∈ past', ∃ e ∈ past, R e.pre e'.pre ∧ visible e = some e'.act := by
  induction h with
  | start => exact List.forall_mem_nil _
  | stutter h hnone hR ih =>
    intro e' he'
    rcases ih e' he' with ⟨e, he, hrel⟩
    exact ⟨e, List.mem_append_left _ he, hrel⟩
  | both h hsome hR ih =>
    refine List.forall_mem_append.mpr ⟨fun e' he' => ?_, List.forall_mem_singleton.mpr ?_⟩
    · rcases ih e' he' with ⟨e, he, hrel⟩
      exact ⟨e, List.mem_append_left _ he, hrel⟩
    · exact ⟨_, List.mem_append_right _ (List.mem_singleton_self _), h.related, hsome⟩

section

variable {α : Type*} {f : Entry σ ι → Option α} {g : Entry τ κ → Option α}

/-- What is observed of the visible steps is observed of the steps that they are. -/
theorem filterMap (h : Matching R visible s₀ t₀ past s past' t)
    (hnone : ∀ e, visible e = none → f e = none)
    (hsome : ∀ e ∈ past, ∀ e', R e.pre e'.pre → visible e = some e'.act → f e = g e') :
    past.filterMap f = past'.filterMap g := by
  induction h with
  | start => rfl
  | stutter h hvisible hR ih =>
    rw [filterMap_snoc, ih fun e he => hsome e (List.mem_append_left _ he), hnone _ hvisible,
      Option.toList_none, List.append_nil]
  | @both past s s' a past' t t' b h hvisible hR ih =>
    have hlast := hsome ⟨s, a, s'⟩ (List.mem_append_right _ (List.mem_singleton_self _))
    rw [filterMap_snoc, filterMap_snoc, ih fun e he => hsome e (List.mem_append_left _ he),
      hlast ⟨t, b, t'⟩ h.related hvisible]

/-- The same for the last steps as long as a property of the states has held -/
theorem filterMap_rtakeWhile {p : σ → Prop} {q : τ → Prop} [DecidablePred p] [DecidablePred q]
    (h : Matching R visible s₀ t₀ past s past' t) (hpq : ∀ s t, R s t → (p s ↔ q t))
    (hnone : ∀ e, visible e = none → f e = none)
    (hsome : ∀ e e', R e.pre e'.pre → visible e = some e'.act → f e = g e') (hlast : p s) :
    (past.rtakeWhile fun e => p e.pre).filterMap f =
      (past'.rtakeWhile fun e => q e.pre).filterMap g := by
  induction h with
  | start => rfl
  | stutter h hvisible hR ih =>
    have hp := (hpq _ _ h.related).mpr ((hpq _ _ hR).mp hlast)
    rw [rtakeWhile_snoc, if_pos hp, filterMap_snoc, ih hp, hnone _ hvisible, Option.toList_none,
      List.append_nil]
  | @both past s s' a past' t t' b h hvisible hR ih =>
    rw [rtakeWhile_snoc, rtakeWhile_snoc]
    by_cases hp : p s
    · rw [if_pos hp, if_pos ((hpq _ _ h.related).mp hp), filterMap_snoc, filterMap_snoc, ih hp,
        hsome _ ⟨t, b, t'⟩ h.related hvisible]
    · rw [if_neg hp, if_neg (mt (hpq _ _ h.related).mpr hp)]
      rfl

end

theorem acts (h : Matching R visible s₀ t₀ past s past' t) :
    past'.map Entry.act = past.filterMap visible := by
  rw [h.filterMap (f := visible) (g := fun e => some e.act) (fun _ hnone => hnone)
    fun _ _ _ _ hsome => hsome, ← List.filterMap_eq_map]
  rfl

end Matching

/-- Forward simulation. Each step of a run is invisible, or is one step of the machine
that is refined; so the visible steps are a run of that machine. -/
theorem Run.simulation {step₁ : σ → ι → Option σ} {step₂ : τ → κ → Option τ}
    {C : Entry σ ι → Prop} (run : Run step₁ s₀ past s) (init : R s₀ t₀)
    (stutter : ∀ s a s' t, R s t → step₁ s a = some s' → C ⟨s, a, s'⟩ →
      visible ⟨s, a, s'⟩ = none → R s' t)
    (simulates : ∀ s a s' t b, R s t → step₁ s a = some s' → C ⟨s, a, s'⟩ →
      visible ⟨s, a, s'⟩ = some b → ∃ t', step₂ t b = some t' ∧ R s' t')
    (meets : ∀ e ∈ past, C e) :
    ∃ past' t, Run step₂ t₀ past' t ∧ Matching R visible s₀ t₀ past s past' t := by
  induction run with
  | nil => exact ⟨[], t₀, .nil, .start init⟩
  | @snoc past s a s' run hstep ih =>
    rcases ih fun e he => meets e (List.mem_append_left _ he) with ⟨past', t, run', hmatch⟩
    have hlast := meets ⟨s, a, s'⟩ (List.mem_append_right _ (List.mem_singleton_self _))
    cases hvisible : visible ⟨s, a, s'⟩ with
    | none =>
      exact ⟨past', t, run', hmatch.stutter hvisible
        (stutter _ _ _ _ hmatch.related hstep hlast hvisible)⟩
    | some b =>
      rcases simulates _ _ _ _ _ hmatch.related hstep hlast hvisible with ⟨t', hstep', hR⟩
      exact ⟨past' ++ [⟨t, b, t'⟩], t', run'.snoc hstep', hmatch.both hvisible hR⟩

end Simulation

/-! ## Runs of given actions -/

/-- The run that performs the given actions in order, if all are enabled. -/
def perform (step : σ → ι → Option σ) : σ → List ι → Option (List (Entry σ ι) × σ)
  | s, [] => some ([], s)
  | s, a :: as =>
    match step s a with
    | none => none
    | some s' => (perform step s' as).map fun r => (⟨s, a, s'⟩ :: r.1, r.2)

theorem run_of_perform {step : σ → ι → Option σ} {s₀ s : σ} {as : List ι}
    {past : List (Entry σ ι)} (h : perform step s₀ as = some (past, s)) :
    Run step s₀ past s := by
  induction as generalizing s₀ past with
  | nil =>
    obtain ⟨rfl, rfl⟩ : [] = past ∧ s₀ = s := by simpa [perform] using h
    exact .nil
  | cons a as ih =>
    cases hstep : step s₀ a with
    | none => simp [perform, hstep] at h
    | some s' =>
      cases hrest : perform step s' as with
      | none => simp [perform, hstep, hrest] at h
      | some r =>
        obtain ⟨rfl, rfl⟩ : ⟨s₀, a, s'⟩ :: r.1 = past ∧ r.2 = s := by
          simpa [perform, hstep, hrest] using h
        exact (ih hrest).cons hstep

/-- A run of given actions that passes a test. -/
theorem exists_run (step : σ → ι → Option σ) (s₀ : σ) (as : List ι)
    (test : List (Entry σ ι) → σ → Bool)
    (h : (perform step s₀ as).any (fun r => test r.1 r.2) = true) :
    ∃ past s, Run step s₀ past s ∧ test past s = true := by
  cases hr : perform step s₀ as with
  | none => simp [hr] at h
  | some r => exact ⟨r.1, r.2, run_of_perform hr, by simpa [hr] using h⟩

end Recorded
