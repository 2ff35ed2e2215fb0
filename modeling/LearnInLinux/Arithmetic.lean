import Mathlib.Tactic

/-!
# The switch of the calculators

The calculator servers share one `switch` over the operator. They compute on
32-bit integers; sums, differences and products wrap around. The quotient and
the remainder of the smallest integer by `-1` have no result: the division
instruction traps and the process dies.
-/

namespace LearnInLinux

/-- Division by these operands traps. -/
def Traps (x y : Int32) : Prop :=
  x = Int32.minValue ∧ y = -1

instance (x y : Int32) : Decidable (Traps x y) := by
  unfold Traps
  infer_instance

theorem Traps.divisor_ne_zero
    {x y : Int32}
    (traps : Traps x y) :
    0 ≠ y := by
  rw [traps.2]
  decide

/-- `result_` and `code_` behind the `switch`; `none` is the trap of a
division. -/
def switchOp (op : UInt8) (x y : Int32) : Option (Int32 × Int32) :=
  match op with
  | 43 => some (x + y, 0) -- '+'
  | 45 => some (x - y, 0) -- '-'
  | 42 => some (x * y, 0) -- '*'
  | 47 => -- '/'
      if 0 = y then some (0, 1)
      else if Traps x y then none
      else some (x / y, 0)
  | 37 => -- '%'
      if 0 = y then some (0, 2)
      else if Traps x y then none
      else some (x % y, 0)
  | _ => some (0, 3)

/-- Behind the test for zero, a division has no result when it traps. -/
theorem guarded_eq_none_iff
    {x y : Int32}
    {refused computed : Int32 × Int32} :
    (if 0 = y then some refused else if Traps x y then none else some computed) = none ↔
      Traps x y := by
  by_cases zero : 0 = y
  · have safe : ¬Traps x y := fun traps => traps.divisor_ne_zero zero
    simp [zero, safe]
  · by_cases traps : Traps x y
    · simp [zero, traps]
    · simp [zero, traps]

/-- And it has no success then, and for a zero divisor. -/
theorem guarded_refused_iff
    {x y computed code : Int32}
    (failed : code ≠ 0) :
    (∀ result, (if 0 = y then some (0, code)
      else if Traps x y then none else some (computed, 0)) ≠ some (result, 0)) ↔
      y = 0 ∨ Traps x y := by
  by_cases zero : 0 = y
  · simp [← zero, failed]
  · by_cases traps : Traps x y
    · simp [zero, traps]
    · simp [zero, Ne.symm zero, traps]

/-- There is no result exactly on the trapping divisions. -/
theorem switchOp_eq_none_iff (op : UInt8) (x y : Int32) :
    switchOp op x y = none ↔ (op = 47 ∨ op = 37) ∧ Traps x y := by
  unfold switchOp
  split
  case h_4 =>
      rw [guarded_eq_none_iff]
      simp
  case h_5 =>
      rw [guarded_eq_none_iff]
      simp
  all_goals simp_all

end LearnInLinux
