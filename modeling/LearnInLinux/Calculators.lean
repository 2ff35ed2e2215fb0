import LearnInLinux.Reactor.Calculator
import LearnInLinux.NetCal.CalServer

/-!
# What the calculators compute

Operands and operator come from the network as they are. Every branch of the
`switch` evaluates at most one `int` expression; a zero divisor is answered with
a code, but nothing looks at the range of the result. Here an expression has its
mathematical value next to what the machine makes of it.
-/

namespace LearnInLinux

/-- The number is a value of `int`. -/
def Fits (number : Int) : Prop :=
  Int32.minValue.toInt ≤ number ∧ number ≤ Int32.maxValue.toInt

instance (number : Int) : Decidable (Fits number) := by
  unfold Fits
  infer_instance

theorem fits_toInt (value : Int32) : Fits value.toInt :=
  ⟨value.le_toInt, value.toInt_le⟩

theorem bmod_eq_of_fits
    {number : Int}
    (fits : Fits number) :
    number.bmod (2 ^ 32) = number := by
  obtain ⟨lower, upper⟩ := fits
  rw [Int32.toInt_minValue] at lower
  rw [Int32.toInt_maxValue] at upper
  apply Int.bmod_eq_of_le_mul_two
  · omega
  · omega

/-- An arithmetic expression on `int`. -/
inductive IntOperation where
  | add (x y : Int32)
  | sub (x y : Int32)
  | mul (x y : Int32)
  | div (x y : Int32)
  | rem (x y : Int32)
  deriving DecidableEq

namespace IntOperation

/-- The mathematical result; division truncates toward zero. -/
def exact : IntOperation → Int
  | add x y => x.toInt + y.toInt
  | sub x y => x.toInt - y.toInt
  | mul x y => x.toInt * y.toInt
  | div x y => x.toInt.tdiv y.toInt
  | rem x y => x.toInt.tmod y.toInt

/-- The divisor of the expression is zero. -/
def DividesByZero : IntOperation → Prop
  | div _ y => y = 0
  | rem _ y => y = 0
  | _ => False

/-- What the processor computes; `none` is a trap. -/
def run : IntOperation → Option Int32
  | add x y => some (x + y)
  | sub x y => some (x - y)
  | mul x y => some (x * y)
  | div x y => if y = 0 ∨ Traps x y then none else some (x / y)
  | rem x y => if y = 0 ∨ Traps x y then none else some (x % y)

/-- The processor computes the mathematical result. -/
def Sound : IntOperation → Prop
  | add x y => Fits (x.toInt + y.toInt)
  | sub x y => Fits (x.toInt - y.toInt)
  | mul x y => Fits (x.toInt * y.toInt)
  | div x y => y ≠ 0 ∧ ¬Traps x y
  | rem x y => y ≠ 0 ∧ ¬Traps x y

theorem toInt_div_of_not_traps
    {x y : Int32}
    (safe : ¬Traps x y) :
    (x / y).toInt = x.toInt.tdiv y.toInt := by
  by_cases smallest : x = Int32.minValue
  · apply Int32.toInt_div_of_ne_right
    intro minusOne
    exact safe ⟨smallest, minusOne⟩
  · exact Int32.toInt_div_of_ne_left x y smallest

variable {operation : IntOperation}

theorem run_eq_of_sound (sound : operation.Sound) :
    ∃ result, operation.run = some result ∧ result.toInt = operation.exact := by
  cases operation with
  | add x y =>
      refine ⟨x + y, rfl, ?_⟩
      rw [Int32.toInt_add, bmod_eq_of_fits sound, exact]
  | sub x y =>
      refine ⟨x - y, rfl, ?_⟩
      rw [Int32.toInt_sub, bmod_eq_of_fits sound, exact]
  | mul x y =>
      refine ⟨x * y, rfl, ?_⟩
      rw [Int32.toInt_mul, bmod_eq_of_fits sound, exact]
  | div x y =>
      refine ⟨x / y, ?_, toInt_div_of_not_traps sound.2⟩
      exact if_neg (not_or.mpr sound)
  | rem x y =>
      refine ⟨x % y, ?_, Int32.toInt_mod x y⟩
      exact if_neg (not_or.mpr sound)

theorem fits_of_sound (sound : operation.Sound) : Fits operation.exact := by
  obtain ⟨result, _, equal⟩ := run_eq_of_sound sound
  rw [← equal]
  exact fits_toInt result

/-- Nothing else than range, zero divisor and trap goes wrong. -/
theorem sound_of_fits
    (fits : Fits operation.exact)
    (divisor : ¬operation.DividesByZero)
    (computed : operation.run ≠ none) :
    operation.Sound := by
  cases operation with
  | add x y => exact fits
  | sub x y => exact fits
  | mul x y => exact fits
  | div x y =>
      refine ⟨divisor, fun traps => ?_⟩
      exact computed (if_pos (Or.inr traps))
  | rem x y =>
      refine ⟨divisor, fun traps => ?_⟩
      exact computed (if_pos (Or.inr traps))

end IntOperation

/-! ## The expressions of the `switch` -/

/-- The expression that the operator stands for. -/
def requested (op : UInt8) (x y : Int32) : Option IntOperation :=
  match op with
  | 43 => some (.add x y) -- '+'
  | 45 => some (.sub x y) -- '-'
  | 42 => some (.mul x y) -- '*'
  | 47 => some (.div x y) -- '/'
  | 37 => some (.rem x y) -- '%'
  | _ => none

/-- The expressions that the branch taken evaluates. -/
def evaluated (op : UInt8) (x y : Int32) : List IntOperation :=
  match op with
  | 43 => [.add x y]
  | 45 => [.sub x y]
  | 42 => [.mul x y]
  | 47 => if 0 = y then [] else [.div x y]
  | 37 => if 0 = y then [] else [.rem x y]
  | _ => []

/-- `outcome` is neither a trap nor a wrong success: every expression evaluated is
defined, and code `0` comes with the mathematical result of a known operator. -/
structure NeverWrong
    (op : UInt8)
    (x y : Int32)
    (outcome : Option (Int32 × Int32)) : Prop where
  representable : ∀ operation ∈ evaluated op x y, Fits operation.exact
  divisors : ∀ operation ∈ evaluated op x y, ¬operation.DividesByZero
  answered : outcome ≠ none
  success : ∀ result, outcome = some (result, 0) →
    ∃ operation, requested op x y = some operation ∧
      ¬operation.DividesByZero ∧ result.toInt = operation.exact

/-- A sum, a difference or a product is a value of `int`, and a division is not the
one whose quotient is none. -/
def InRange (op : UInt8) (x y : Int32) : Prop :=
  match op with
  | 43 => Fits (x.toInt + y.toInt)
  | 45 => Fits (x.toInt - y.toInt)
  | 42 => Fits (x.toInt * y.toInt)
  | 47 => ¬Traps x y
  | 37 => ¬Traps x y
  | _ => True

/-- A branch evaluates the requested expression, or nothing and sets a code. -/
theorem switchOp_cases (op : UInt8) (x y : Int32) :
    (∃ operation, requested op x y = some operation ∧
      evaluated op x y = [operation] ∧ ¬operation.DividesByZero ∧
      switchOp op x y = operation.run.map (·, 0)) ∨
    (evaluated op x y = [] ∧
      ∃ code, code ≠ 0 ∧ switchOp op x y = some (0, code)) := by
  unfold requested evaluated switchOp
  split
  case h_1 => exact Or.inl ⟨_, rfl, rfl, id, rfl⟩
  case h_2 => exact Or.inl ⟨_, rfl, rfl, id, rfl⟩
  case h_3 => exact Or.inl ⟨_, rfl, rfl, id, rfl⟩
  case h_4 =>
      by_cases zero : 0 = y
      · exact Or.inr ⟨if_pos zero, 1, by decide, if_pos zero⟩
      · refine Or.inl ⟨_, rfl, if_neg zero, Ne.symm zero, ?_⟩
        by_cases traps : Traps x y
        · simp [IntOperation.run, zero, traps]
        · simp [IntOperation.run, zero, Ne.symm zero, traps]
  case h_5 =>
      by_cases zero : 0 = y
      · exact Or.inr ⟨if_pos zero, 2, by decide, if_pos zero⟩
      · refine Or.inl ⟨_, rfl, if_neg zero, Ne.symm zero, ?_⟩
        by_cases traps : Traps x y
        · simp [IntOperation.run, zero, traps]
        · simp [IntOperation.run, zero, Ne.symm zero, traps]
  case h_6 =>
      right
      simp_all

/-- The operands are in range if the machine is right about what is evaluated. -/
theorem inRange_iff (op : UInt8) (x y : Int32) :
    InRange op x y ↔ ∀ operation ∈ evaluated op x y, operation.Sound := by
  unfold InRange evaluated
  split
  case h_4 =>
      by_cases zero : 0 = y
      · have safe : ¬Traps x y := fun traps => traps.divisor_ne_zero zero
        simp [zero, safe]
      · simp [zero, Ne.symm zero, IntOperation.Sound]
  case h_5 =>
      by_cases zero : 0 = y
      · have safe : ¬Traps x y := fun traps => traps.divisor_ne_zero zero
        simp [zero, safe]
      · simp [zero, Ne.symm zero, IntOperation.Sound]
  all_goals simp [IntOperation.Sound]

/-- The `switch` is never wrong on exactly the operands in range. -/
theorem neverWrong_switchOp_iff (op : UInt8) (x y : Int32) :
    NeverWrong op x y (switchOp op x y) ↔ InRange op x y := by
  rw [inRange_iff]
  constructor
  · intro neverWrong operation present
    apply IntOperation.sound_of_fits
    · exact neverWrong.representable operation present
    · exact neverWrong.divisors operation present
    · intro trapped
      apply neverWrong.answered
      rcases switchOp_cases op x y with ⟨other, _, single, _, runs⟩ | ⟨nothing, _⟩
      · rw [single, List.mem_singleton] at present
        rw [runs, ← present, trapped, Option.map_none]
      · rw [nothing] at present
        exact absurd present List.not_mem_nil
  · intro sound
    rcases switchOp_cases op x y with
      ⟨operation, isRequested, single, divisor, runs⟩ | ⟨nothing, code, failed, answer⟩
    · rw [single, List.forall_mem_singleton] at sound
      obtain ⟨result, computed, equal⟩ := IntOperation.run_eq_of_sound sound
      rw [computed, Option.map_some] at runs
      refine ⟨?_, ?_, ?_, ?_⟩
      · rw [single, List.forall_mem_singleton]
        exact IntOperation.fits_of_sound sound
      · rw [single, List.forall_mem_singleton]
        exact divisor
      · rw [runs]
        exact Option.some_ne_none _
      · intro other success
        rw [runs, Option.some.injEq, Prod.mk.injEq] at success
        rw [← success.1]
        exact ⟨operation, isRequested, divisor, equal⟩
    · rw [answer]
      refine ⟨?_, ?_, Option.some_ne_none _, ?_⟩
      · rw [nothing]
        exact List.forall_mem_nil _
      · rw [nothing]
        exact List.forall_mem_nil _
      · intro other success
        rw [Option.some.injEq, Prod.mk.injEq] at success
        exact absurd success.2 failed

/-! ## The two servers -/

/-- Result and code of an answer of the reactor server. -/
def Reactor.outcome (req : Reactor.Request) : Option (Int32 × Int32) :=
  (Reactor.calculator req).map fun resp => (resp.result, resp.code)

/-- Result and code of an answer of the network calculator. -/
def NetCal.outcome (req : NetCal.Request) : Option (Int32 × Int32) :=
  (NetCal.calculatorHelper req).map fun resp => (resp.result, resp.code)

theorem Reactor.outcome_eq (req : Reactor.Request) :
    Reactor.outcome req = switchOp req.op req.x req.y := by
  rw [outcome, calculator, Option.map_map]
  exact Option.map_id'

theorem NetCal.outcome_eq (req : NetCal.Request) :
    NetCal.outcome req = switchOp req.op req.x req.y := by
  rw [outcome, calculatorHelper, Option.map_map]
  exact Option.map_id'

/-- Both calculators are never wrong on exactly the requests in range. -/
theorem calculators_neverWrong_iff
    (reactorRequest : Reactor.Request)
    (netCalRequest : NetCal.Request) :
    (NeverWrong reactorRequest.op reactorRequest.x reactorRequest.y
        (Reactor.outcome reactorRequest) ↔
      InRange reactorRequest.op reactorRequest.x reactorRequest.y) ∧
    (NeverWrong netCalRequest.op netCalRequest.x netCalRequest.y
        (NetCal.outcome netCalRequest) ↔
      InRange netCalRequest.op netCalRequest.x netCalRequest.y) := by
  constructor
  · rw [Reactor.outcome_eq]
    apply neverWrong_switchOp_iff
  · rw [NetCal.outcome_eq]
    apply neverWrong_switchOp_iff

/-- `2147483647 + 1` is answered with code `0` and the smallest number, and
`-2147483648 / -1` is not answered at all. -/
theorem calculators_wrong :
    ¬NeverWrong 43 Int32.maxValue 1
      (Reactor.outcome { x := Int32.maxValue, y := 1, op := 43 }) ∧
    ¬NeverWrong 43 Int32.maxValue 1
      (NetCal.outcome { x := Int32.maxValue, y := 1, op := 43 }) ∧
    Reactor.outcome { x := Int32.maxValue, y := 1, op := 43 } =
      some (Int32.minValue, 0) ∧
    Reactor.outcome { x := Int32.minValue, y := -1, op := 47 } = none := by
  have outside : ¬Fits (IntOperation.add Int32.maxValue 1).exact := by
    decide
  refine ⟨?_, ?_, by decide, by decide⟩
  · intro neverWrong
    exact outside (neverWrong.representable _ (List.mem_singleton.mpr rfl))
  · intro neverWrong
    exact outside (neverWrong.representable _ (List.mem_singleton.mpr rfl))

end LearnInLinux
