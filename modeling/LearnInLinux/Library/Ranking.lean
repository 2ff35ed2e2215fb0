import LearnInLinux.Library.Threads
import LearnInLinux.Library.Transition
import Mathlib.Algebra.BigOperators.Group.Finset.Basic
import Mathlib.Algebra.Order.BigOperators.Group.Finset
import Mathlib.Algebra.Group.Action.Defs

/-!
# Ranks

A number that every action of a kind makes smaller bounds how many of them can follow
one another, and going on with them leads to a state in which none is possible. For
threads such a number is a sum of weights, one for the point of each thread.
-/

namespace Transition

variable {σ α : Type} {step : α → σ → Option σ} {kind : α → Prop} {holds : σ → Prop}
  {rank : σ → Nat} {state result : σ} {actions : List α}

/-- No action of the kind is possible. -/
def Settled (step : α → σ → Option σ) (kind : α → Prop) (state : σ) : Prop :=
  ∀ action, kind action → step action state = none

theorem exists_of_not_settled (unsettled : ¬ Settled step kind state) :
    ∃ action next, kind action ∧ step action state = some next := by
  rw [Settled] at unsettled
  push Not at unsettled
  obtain ⟨action, isKind, possible⟩ := unsettled
  obtain ⟨next, stepped⟩ := Option.ne_none_iff_exists'.mp possible
  exact ⟨action, next, isKind, stepped⟩

/-- A property kept by every action, and a number that those of the kind make smaller
wherever the property holds. -/
structure Ranked
    (step : α → σ → Option σ) (kind : α → Prop) (holds : σ → Prop) (rank : σ → Nat) :
    Prop where
  kept : ∀ action state next, holds state → step action state = some next → holds next
  falls : ∀ action state next, kind action → holds state →
    step action state = some next → rank next < rank state

namespace Ranked

/-- No more actions of the kind can follow one another than the rank says. -/
theorem length_add_rank_le
    (ranked : Ranked step kind holds rank)
    (start : holds state)
    (own : ∀ action ∈ actions, kind action)
    (ran : run step actions state = some result) :
    actions.length + rank result ≤ rank state := by
  induction actions generalizing state with
  | nil =>
      obtain rfl := Option.some.inj ran
      rw [List.length_nil, Nat.zero_add]
  | cons action actions inductionHypothesis =>
      obtain ⟨next, stepped, others⟩ := Option.bind_eq_some_iff.mp ran
      have less := ranked.falls action state next (own action List.mem_cons_self) start stepped
      have rest := inductionHypothesis (ranked.kept action state next start stepped)
        (fun other present => own other (List.mem_cons_of_mem action present)) others
      rw [List.length_cons]
      omega

/-- Actions of the kind lead to a state in which none of them is possible. -/
theorem exists_settled
    (ranked : Ranked step kind holds rank)
    (start : holds state) :
    ∃ actions result, (∀ action ∈ actions, kind action) ∧
      run step actions state = some result ∧ Settled step kind result := by
  induction bound : rank state using Nat.strong_induction_on generalizing state with
  | h number inductionHypothesis =>
      by_cases settled : Settled step kind state
      · exact ⟨[], state, fun _ present => absurd present List.not_mem_nil, rfl, settled⟩
      · obtain ⟨action, next, isKind, stepped⟩ := exists_of_not_settled settled
        have less := ranked.falls action state next isKind start stepped
        rw [bound] at less
        obtain ⟨actions, result, own, ran, ended⟩ :=
          inductionHypothesis (rank next) less (ranked.kept action state next start stepped) rfl
        refine ⟨action :: actions, result, ?_, ?_, ended⟩
        · intro other present
          rcases List.mem_cons.mp present with rfl | behind
          · exact isKind
          · exact own other behind
        · rw [run, stepped]
          exact ran

end Ranked

/-- What every action keeps holds at the end of a run. -/
theorem holds_of_run
    (kept : ∀ action state next, holds state → step action state = some next → holds next)
    (start : holds state)
    (ran : run step actions state = some result) :
    holds result := by
  induction actions generalizing state with
  | nil =>
      obtain rfl := Option.some.inj ran
      exact start
  | cons action actions inductionHypothesis =>
      obtain ⟨next, stepped, others⟩ := Option.bind_eq_some_iff.mp ran
      exact inductionHypothesis (kept action state next start stepped) others

end Transition

namespace Threads

/-- Two sums that differ in one place. -/
theorem sum_add_of_changed
    {ι : Type}
    [DecidableEq ι]
    {s : Finset ι}
    {f g : ι → Nat}
    {i : ι}
    (present : i ∈ s)
    (others : ∀ j, j ≠ i → f j = g j) :
    ∑ j ∈ s, f j + g i = ∑ j ∈ s, g j + f i := by
  have rest : ∑ j ∈ s.erase i, f j = ∑ j ∈ s.erase i, g j :=
    Finset.sum_congr rfl (fun j behind => others j (Finset.ne_of_mem_erase behind))
  rw [← Finset.add_sum_erase s f present, ← Finset.add_sum_erase s g present, rest]
  omega

variable {ι σ : Type} [Fintype ι] {weight : σ → Nat} {pc : ι → σ}

/-- The weights of the points of all threads together. -/
def weigh (weight : σ → Nat) (pc : ι → σ) : Nat :=
  ∑ thread, weight (pc thread)

variable [DecidableEq ι]

theorem weigh_update
    (weight : σ → Nat) (pc : ι → σ) (thread : ι) (point : σ) :
    weigh weight (Function.update pc thread point) + weight (pc thread) =
      weigh weight pc + weight point := by
  have changed := sum_add_of_changed (Finset.mem_univ thread)
    (fun other different =>
      congrArg weight (Function.update_of_ne different point pc))
  rw [Function.update_self] at changed
  exact changed

/-- Every woken thread may get heavier by so much. -/
theorem weigh_wake_le
    {resume : σ → σ}
    {extra : Nat}
    (resumed : ∀ point, weight (resume point) ≤ weight point + extra)
    (woken : Finset ι) :
    weigh weight (wake resume woken pc) ≤ weigh weight pc + Fintype.card ι * extra := by
  have each : ∀ thread ∈ Finset.univ,
      weight (wake resume woken pc thread) ≤ weight (pc thread) + extra := by
    intro thread _
    by_cases present : thread ∈ woken
    · rw [wake_of_mem present]
      exact resumed (pc thread)
    · rw [wake_of_notMem present]
      exact Nat.le_add_right _ _
  calc
    weigh weight (wake resume woken pc) ≤ ∑ thread, (weight (pc thread) + extra) :=
      Finset.sum_le_sum each
    _ = weigh weight pc + Fintype.card ι * extra := by
      rw [Finset.sum_add_distrib, Finset.sum_const, Finset.card_univ, smul_eq_mul, weigh]

end Threads
