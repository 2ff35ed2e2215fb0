import Mathlib.Data.List.TakeWhile
import Mathlib.Tactic

/-!
# Decimal text

Printing of integers as `std::to_string` does it and reading as `strtol` and
`atoi` do it, over ASCII bytes. `strtol` skips blanks, takes one optional sign
and the longest run of digits, and saturates at the ends of a 64-bit `long`;
`atoi` narrows its result to a 32-bit `int`.
-/

namespace Decimal

/-- The ASCII digit of a number below ten. -/
def digitByte (digit : Nat) : UInt8 :=
  UInt8.ofNat (48 + digit)

/-- Decimal digits of a natural number, most significant first. -/
def natText (number : Nat) : List UInt8 :=
  if number < 10 then [digitByte number]
  else natText (number / 10) ++ [digitByte (number % 10)]

/-- `std::to_string` on a signed number. -/
def toText (number : Int) : List UInt8 :=
  if number < 0 then 45 :: natText number.natAbs
  else natText number.natAbs

/-- `isspace` in the C locale. -/
def isSpace (byte : UInt8) : Bool :=
  byte == 32 || (9 ≤ byte && byte ≤ 13)

/-- `isdigit`. -/
def isDigit (byte : UInt8) : Bool :=
  48 ≤ byte && byte ≤ 57

/-- Number denoted by a run of digits. -/
def value (digits : List UInt8) : Nat :=
  digits.foldl (fun number byte => 10 * number + (byte.toNat - 48)) 0

/-- A nonempty run of digits without a sign. -/
def Numeral (text : List UInt8) : Prop :=
  text ≠ [] ∧ ∀ byte ∈ text, isDigit byte = true

instance (text : List UInt8) : Decidable (Numeral text) :=
  decidable_of_iff (text ≠ [] ∧ text.all isDigit = true) (by simp [Numeral])

/-- Largest value of a 64-bit `long`. -/
def longMax : Int := 2 ^ 63 - 1

/-- Smallest value of a 64-bit `long`. -/
def longMin : Int := -2 ^ 63

/-- `strtol(text, nullptr, 10)`. A NUL byte is neither blank, sign nor digit,
so the end of a C string needs no case of its own. -/
def strtol (text : List UInt8) : Int :=
  match text.dropWhile isSpace with
  | 45 :: rest => max longMin (-(value (rest.takeWhile isDigit) : Int))
  | 43 :: rest => min longMax (value (rest.takeWhile isDigit) : Int)
  | rest => min longMax (value (rest.takeWhile isDigit) : Int)

/-- `atoi`: `strtol` narrowed to `int`. -/
def atoi (text : List UInt8) : Int32 :=
  Int32.ofInt (strtol text)

/-! ## Printed numbers are numerals of their value -/

theorem value_append_singleton
    (digits : List UInt8)
    (byte : UInt8) :
    value (digits ++ [byte]) = 10 * value digits + (byte.toNat - 48) := by
  simp [value]

theorem digitByte_toNat
    {digit : Nat}
    (small : digit < 10) :
    (digitByte digit).toNat = 48 + digit := by
  simp only [digitByte, UInt8.toNat_ofNat']
  omega

theorem isDigit_digitByte
    {digit : Nat}
    (small : digit < 10) :
    isDigit (digitByte digit) = true := by
  have number := digitByte_toNat small
  simp only [isDigit, Bool.and_eq_true, decide_eq_true_eq, UInt8.le_iff_toNat_le,
    number]
  constructor
  · exact Nat.le_add_right 48 digit
  · change 48 + digit ≤ 57
    omega

theorem natText_numeral (number : Nat) : Numeral (natText number) := by
  induction number using Nat.strong_induction_on with
  | _ number inductionHypothesis =>
      rw [natText]
      split
      · rename_i small
        refine ⟨by simp, ?_⟩
        intro byte present
        rw [List.mem_singleton] at present
        subst present
        exact isDigit_digitByte small
      · refine ⟨by simp, ?_⟩
        intro byte present
        rcases List.mem_append.mp present with inFront | last
        · exact (inductionHypothesis (number / 10) (by omega)).2 byte inFront
        · rw [List.mem_singleton] at last
          subst last
          exact isDigit_digitByte (Nat.mod_lt _ (by omega))

@[simp] theorem value_natText (number : Nat) :
    value (natText number) = number := by
  induction number using Nat.strong_induction_on with
  | _ number inductionHypothesis =>
      rw [natText]
      split
      · rename_i small
        simp [value, digitByte_toNat small]
      · rw [value_append_singleton,
          inductionHypothesis (number / 10) (by omega),
          digitByte_toNat (Nat.mod_lt _ (by omega))]
        omega

theorem takeWhile_isDigit_natText_cons
    {mark : UInt8}
    (notDigit : isDigit mark = false)
    (number : Nat)
    (rest : List UInt8) :
    (natText number ++ mark :: rest).takeWhile isDigit = natText number := by
  rw [List.takeWhile_append_of_pos (natText_numeral number).2,
    List.takeWhile_cons_of_neg (Bool.eq_false_iff.mp notDigit), List.append_nil]

theorem natText_injective : Function.Injective natText := by
  intro first second same
  rw [← value_natText first, same, value_natText]

/-- A printed number ends at the first byte that is not a digit. -/
theorem natText_append_cons_inj
    {mark : UInt8}
    {first second : Nat}
    {firstRest secondRest : List UInt8}
    (notDigit : isDigit mark = false)
    (same : natText first ++ mark :: firstRest = natText second ++ mark :: secondRest) :
    first = second ∧ firstRest = secondRest := by
  have sameDigits := congrArg (List.takeWhile isDigit) same
  rw [takeWhile_isDigit_natText_cons notDigit,
    takeWhile_isDigit_natText_cons notDigit] at sameDigits
  rw [sameDigits] at same
  refine ⟨natText_injective sameDigits, ?_⟩
  exact (List.cons.inj (List.append_cancel_left same)).2

/-- A printed number holds a sign and digits. -/
theorem mem_toText
    {number : Int}
    {byte : UInt8}
    (present : byte ∈ toText number) :
    byte = 45 ∨ isDigit byte = true := by
  unfold toText at present
  split at present
  · rcases List.mem_cons.mp present with minus | digit
    · exact Or.inl minus
    · exact Or.inr ((natText_numeral _).2 byte digit)
  · exact Or.inr ((natText_numeral _).2 byte present)

/-- A number below a power of ten has no more digits than that power has zeros. -/
theorem length_natText_le
    {number digits : Nat}
    (small : number < 10 ^ (digits + 1)) :
    (natText number).length ≤ digits + 1 := by
  induction digits generalizing number with
  | zero =>
      rw [natText, if_pos (by omega)]
      rfl
  | succ digits inductionHypothesis =>
      rw [natText]
      split
      · simp
      · rw [List.length_append, List.length_singleton]
        have shorter : number / 10 < 10 ^ (digits + 1) := by
          rw [Nat.pow_succ] at small
          omega
        exact Nat.succ_le_succ (inductionHypothesis shorter)

/-! ## Reading a numeral back -/

theorem isDigit_not_isSpace
    {byte : UInt8}
    (digit : isDigit byte = true) :
    isSpace byte = false := by
  simp only [isDigit, Bool.and_eq_true, decide_eq_true_eq,
    UInt8.le_iff_toNat_le] at digit
  have low : 48 ≤ byte.toNat := digit.1
  simp only [isSpace, Bool.or_eq_false_iff, beq_eq_false_iff_ne, ne_eq,
    Bool.and_eq_false_iff, decide_eq_false_iff_not, UInt8.le_iff_toNat_le]
  constructor
  · rintro rfl
    exact absurd low (by decide)
  · right
    change ¬byte.toNat ≤ 13
    omega

theorem takeWhile_isDigit_numeral
    {text : List UInt8}
    (numeral : Numeral text) :
    text.takeWhile isDigit = text := by
  rw [List.takeWhile_eq_self_iff]
  exact numeral.2

/-- A numeral denotes its value, saturated at the end of `long`. -/
theorem strtol_numeral
    {text : List UInt8}
    (numeral : Numeral text) :
    strtol text = min longMax (value text) := by
  cases text with
  | nil => exact absurd rfl numeral.1
  | cons head tail =>
      have headDigit : isDigit head = true := numeral.2 head (by simp)
      have noSpace : (head :: tail).dropWhile isSpace = head :: tail := by
        simp [isDigit_not_isSpace headDigit]
      have allDigits : (head :: tail).takeWhile isDigit = head :: tail :=
        takeWhile_isDigit_numeral numeral
      unfold strtol
      rw [noSpace]
      split
      · rename_i equal
        simp only [List.cons.injEq] at equal
        rw [equal.1] at headDigit
        exact absurd headDigit (by decide)
      · rename_i equal
        simp only [List.cons.injEq] at equal
        rw [equal.1] at headDigit
        exact absurd headDigit (by decide)
      · rw [allDigits]

/-- Reading a numeral that fits in `int` gives its value. -/
theorem atoi_numeral
    {text : List UInt8}
    (numeral : Numeral text)
    (small : value text < 2 ^ 31) :
    (atoi text).toInt = value text := by
  unfold atoi
  rw [strtol_numeral numeral, Int32.toInt_ofInt_of_le]
  · rw [min_eq_right (by unfold longMax; omega)]
  · rw [min_eq_right (by unfold longMax; omega)]
    omega
  · rw [min_eq_right (by unfold longMax; omega)]
    omega

/-- A minus sign in front of a numeral. -/
theorem strtol_minus_numeral
    {text : List UInt8}
    (numeral : Numeral text) :
    strtol (45 :: text) = max longMin (-(value text : Int)) := by
  have noSpace : (45 :: text).dropWhile isSpace = 45 :: text := by
    rw [List.dropWhile_cons_of_neg (by decide)]
  unfold strtol
  rw [noSpace]
  simp only [takeWhile_isDigit_numeral numeral]

/-- A plus sign in front of a numeral. -/
theorem strtol_plus_numeral
    {text : List UInt8}
    (numeral : Numeral text) :
    strtol (43 :: text) = min longMax (value text) := by
  have noSpace : (43 :: text).dropWhile isSpace = 43 :: text := by
    rw [List.dropWhile_cons_of_neg (by decide)]
  unfold strtol
  rw [noSpace]
  simp only [takeWhile_isDigit_numeral numeral]

/-! ## Numbers with a sign -/

/-- An optional sign and digits, with a value of `int`. -/
inductive IntText : List UInt8 → Int32 → Prop
  | plain {digits : List UInt8} {number : Int32}
      (numeral : Numeral digits)
      (number_eq : number.toInt = value digits) :
      IntText digits number
  | plus {digits : List UInt8} {number : Int32}
      (numeral : Numeral digits)
      (number_eq : number.toInt = value digits) :
      IntText (43 :: digits) number
  | minus {digits : List UInt8} {number : Int32}
      (numeral : Numeral digits)
      (number_eq : number.toInt = -(value digits : Int)) :
      IntText (45 :: digits) number

theorem intText_toText (number : Int32) : IntText (toText number.toInt) number := by
  have numeral := natText_numeral number.toInt.natAbs
  unfold toText
  split
  · apply IntText.minus numeral
    rw [value_natText]
    omega
  · apply IntText.plain numeral
    rw [value_natText]
    omega

/-- The number is within the ends of `long`. -/
theorem atoi_of_intText
    {text : List UInt8}
    {number : Int32}
    (isInt : IntText text number) :
    atoi text = number := by
  have low := number.le_toInt
  have high := number.toInt_lt
  have read : strtol text = number.toInt := by
    cases isInt with
    | plain numeral number_eq =>
        rw [strtol_numeral numeral, ← number_eq, min_eq_right (by unfold longMax; omega)]
    | plus numeral number_eq =>
        rw [strtol_plus_numeral numeral, ← number_eq,
          min_eq_right (by unfold longMax; omega)]
    | minus numeral number_eq =>
        rw [strtol_minus_numeral numeral, ← number_eq,
          max_eq_right (by unfold longMin; omega)]
  rw [atoi, read, Int32.ofInt_toInt]

theorem IntText.ne_nil
    {text : List UInt8}
    {number : Int32}
    (isInt : IntText text number) :
    text ≠ [] := by
  cases isInt with
  | plain numeral number_eq => exact numeral.1
  | plus numeral number_eq => exact List.cons_ne_nil _ _
  | minus numeral number_eq => exact List.cons_ne_nil _ _

/-- Such a text holds signs and digits. -/
theorem IntText.mem_cases
    {text : List UInt8}
    {number : Int32}
    (isInt : IntText text number)
    {byte : UInt8}
    (present : byte ∈ text) :
    byte = 43 ∨ byte = 45 ∨ isDigit byte = true := by
  cases isInt with
  | plain numeral number_eq => exact .inr (.inr (numeral.2 byte present))
  | plus numeral number_eq =>
      rcases List.mem_cons.mp present with sign | digit
      · exact .inl sign
      · exact .inr (.inr (numeral.2 byte digit))
  | minus numeral number_eq =>
      rcases List.mem_cons.mp present with sign | digit
      · exact .inr (.inl sign)
      · exact .inr (.inr (numeral.2 byte digit))

/-- Reading undoes printing on every `int`. -/
theorem atoi_toText (number : Int32) : atoi (toText number.toInt) = number :=
  atoi_of_intText (intText_toText number)

end Decimal
