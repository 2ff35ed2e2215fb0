import Mathlib.Logic.Basic
import Mathlib.Logic.Function.Basic

/-!
# Transition systems

States reached from a set of start states by a step relation, and the rules
that carry a property along whole runs: an inductive property holds in every
reached state, and a property may use another one that is already known to hold
there.
-/

namespace Transition

/-- Start states and steps over a state type. -/
structure Machine (σ : Type) where
  start : σ → Prop
  step : σ → σ → Prop

namespace Machine

variable {σ : Type} {machine : Machine σ}

/-- The states that a run can reach. -/
inductive Reachable (machine : Machine σ) : σ → Prop
  | start {state : σ} (initial : machine.start state) : Reachable machine state
  | step {state next : σ}
      (reached : Reachable machine state)
      (moved : machine.step state next) : Reachable machine next

/-- A property of every reachable state. -/
def Invariant (machine : Machine σ) (property : σ → Prop) : Prop :=
  ∀ state, machine.Reachable state → property state

/-- A property of the start states that every step from a reachable state
keeps is an invariant. -/
theorem invariant_of_steps
    {property : σ → Prop}
    (base : ∀ state, machine.start state → property state)
    (preserved : ∀ state next, machine.Reachable state → property state →
      machine.step state next → property next) :
    machine.Invariant property := by
  intro state reached
  induction reached with
  | start initial => exact base _ initial
  | step reached moved inductionHypothesis =>
      exact preserved _ _ reached inductionHypothesis moved

/-- The machine that takes the steps of a partial function. -/
def ofStep
    {α : Type}
    (start : σ → Prop)
    (step : α → σ → Option σ) : Machine σ where
  start := start
  step before next := ∃ action, step action before = some next

/-- For a machine with actions it is enough to look at every action. -/
theorem invariant_of_actions
    {α : Type}
    {start : σ → Prop}
    {step : α → σ → Option σ}
    {property : σ → Prop}
    (base : ∀ state, start state → property state)
    (preserved : ∀ action state next, property state →
      step action state = some next → property next) :
    (ofStep start step).Invariant property := by
  refine invariant_of_steps base ?_
  rintro state next _ holds ⟨action, stepped⟩
  exact preserved action state next holds stepped

/-- What a more abstract machine can do. -/
theorem Reachable.map
    {τ : Type}
    {abstract : Machine τ}
    {view : σ → τ}
    (starts : ∀ state, machine.start state → abstract.start (view state))
    (follows : ∀ state next, machine.Reachable state → machine.step state next →
      view next = view state ∨ abstract.step (view state) (view next))
    {state : σ}
    (reached : machine.Reachable state) :
    abstract.Reachable (view state) := by
  induction reached with
  | start initial => exact .start (starts _ initial)
  | step reached moved inductionHypothesis =>
      rcases follows _ _ reached moved with same | step
      · rw [same]
        exact inductionHypothesis
      · exact inductionHypothesis.step step

/-- The machine that takes only the steps that are allowed. -/
def restrict (machine : Machine σ) (allowed : σ → σ → Prop) : Machine σ where
  start := machine.start
  step before next := machine.step before next ∧ allowed before next

theorem reachable_of_restrict
    {allowed : σ → σ → Prop}
    {state : σ}
    (reached : (machine.restrict allowed).Reachable state) :
    machine.Reachable state := by
  induction reached with
  | start initial => exact .start initial
  | step reached moved inductionHypothesis => exact inductionHypothesis.step moved.1

end Machine

section Runs

variable {σ α : Type} {start : σ → Prop} {step : α → σ → Option σ}

/-- The state behind a series of actions. -/
def run (step : α → σ → Option σ) : List α → σ → Option σ
  | [], state => some state
  | action :: actions, state => (step action state).bind (run step actions)

theorem reachable_of_run
    {state result : σ}
    (reached : (Machine.ofStep start step).Reachable state)
    {actions : List α}
    (ran : run step actions state = some result) :
    (Machine.ofStep start step).Reachable result := by
  induction actions generalizing state with
  | nil =>
      obtain rfl := Option.some.inj ran
      exact reached
  | cons action actions inductionHypothesis =>
      obtain ⟨next, stepped, others⟩ := Option.bind_eq_some_iff.mp ran
      exact inductionHypothesis (reached.step ⟨action, stepped⟩) others

end Runs

/-- An entry of a history that has got one more entry at its end. -/
theorem getElem?_concat_eq_some_iff
    {α : Type}
    {history : List α}
    {last entry : α}
    {number : Nat} :
    (history ++ [last])[number]? = some entry ↔
      history[number]? = some entry ∨ number = history.length ∧ last = entry := by
  rcases Nat.lt_trichotomy number history.length with before | same | behind
  · rw [List.getElem?_append_left before]
    exact (or_iff_left fun isLast => Nat.ne_of_lt before isLast.1).symm
  · rw [same, List.getElem?_concat_length, List.getElem?_eq_none (Nat.le_refl _),
      Option.some.injEq]
    simp
  · have outside : (history ++ [last]).length ≤ number := by
      rw [List.length_append]
      exact behind
    rw [List.getElem?_eq_none outside, List.getElem?_eq_none (Nat.le_of_lt behind)]
    simp only [reduceCtorEq, false_or, false_iff]
    exact fun isLast => Nat.ne_of_gt behind isLast.1

section Tables

variable {κ ν : Type} [DecidableEq κ] {table : κ → Option ν} {key other : κ}

/-- An entry of a table that has got another entry. -/
theorem update_some_eq_some_iff {new entry : ν} :
    Function.update table key (some new) other = some entry ↔
      (other = key ∧ new = entry) ∨ (other ≠ key ∧ table other = some entry) := by
  by_cases same : other = key
  · rw [same, Function.update_self, Option.some.injEq]
    constructor
    · intro isNew
      exact .inl ⟨rfl, isNew⟩
    · rintro (⟨-, isNew⟩ | ⟨elsewhere, -⟩)
      · exact isNew
      · exact absurd rfl elsewhere
  · rw [Function.update_of_ne same, or_iff_right fun new => same new.1]
    exact (and_iff_right same).symm

/-- An entry of a table that has lost one. -/
theorem update_none_eq_some_iff {entry : ν} :
    Function.update table key none other = some entry ↔
      other ≠ key ∧ table other = some entry := by
  by_cases same : other = key
  · rw [same, Function.update_self]
    exact iff_of_false (Option.some_ne_none entry).symm fun old => old.1 rfl
  · rw [Function.update_of_ne same]
    exact (and_iff_right same).symm

/-- There is no entry in a table that has got another one. -/
theorem update_some_eq_none_iff {new : ν} :
    Function.update table key (some new) other = none ↔
      other ≠ key ∧ table other = none := by
  by_cases same : other = key
  · rw [same, Function.update_self]
    exact iff_of_false (Option.some_ne_none new) fun nothing => nothing.1 rfl
  · rw [Function.update_of_ne same]
    exact (and_iff_right same).symm

end Tables

end Transition
