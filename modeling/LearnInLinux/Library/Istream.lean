import LearnInLinux.Library.Decimal

/-!
# Formatted input

Extraction of numbers and characters from a text as the `>>` of an input stream does it:
blanks are skipped, a failed extraction makes the stream fail, and a stream that failed
gives nothing more. What can be extracted is a grammar of its own.
-/

open Decimal

/-- An input stream with all its text. -/
structure Istream where
  rest : List UInt8
  fail : Bool
  deriving DecidableEq

namespace Istream

/-- The sign in front of a number. -/
def sign : List UInt8 → List UInt8
  | 43 :: _ => [43]
  | 45 :: _ => [45]
  | _ => []

/-- The number of a sign and digits. -/
def signed (sign digits : List UInt8) : Int :=
  if sign = [45] then -(value digits : Int) else value digits

/-- `is >> number` for an `int` and its old value. -/
def extractInt (is : Istream) (old : Int32) : Int32 × Istream :=
  if is.fail then (old, is)
  else
    let text := is.rest.dropWhile isSpace
    -- the end of the input
    if text = [] then (old, ⟨[], true⟩)
    else
      let behind := text.drop (sign text).length
      let digits := behind.takeWhile isDigit
      let rest := behind.dropWhile isDigit
      let number := signed (sign text) digits
      if digits = [] then (0, ⟨rest, true⟩)
      else if number < -2 ^ 31 then (Int32.minValue, ⟨rest, true⟩)
      else if 2 ^ 31 ≤ number then (Int32.maxValue, ⟨rest, true⟩)
      else (Int32.ofInt number, ⟨rest, false⟩)

/-- `is >> character` for a `char` and its old value. -/
def extractChar (is : Istream) (old : UInt8) : UInt8 × Istream :=
  if is.fail then (old, is)
  else
    match is.rest.dropWhile isSpace with
    | [] => (old, ⟨[], true⟩)
    | byte :: rest => (byte, ⟨rest, false⟩)

/-- Blanks, a sign and all the digits of a number that is an `int`. -/
inductive IntAt : List UInt8 → Int32 → List UInt8 → Prop
  | intro {blanks sign digits rest : List UInt8} {number : Int32}
      (blank : ∀ byte ∈ blanks, isSpace byte = true)
      (isSign : sign = [] ∨ sign = [43] ∨ sign = [45])
      (numeral : Numeral digits)
      (longest : ∀ byte ∈ rest.head?, isDigit byte = false)
      (number_eq : number.toInt = signed sign digits) :
      IntAt (blanks ++ (sign ++ (digits ++ rest))) number rest

/-- Blanks and a character. -/
inductive CharAt : List UInt8 → UInt8 → List UInt8 → Prop
  | intro {blanks rest : List UInt8} {byte : UInt8}
      (blank : ∀ byte ∈ blanks, isSpace byte = true)
      (visible : isSpace byte = false) :
      CharAt (blanks ++ byte :: rest) byte rest

@[simp] theorem extractInt_of_fail
    {is : Istream}
    (fail : is.fail = true)
    (old : Int32) :
    is.extractInt old = (old, is) := by
  rw [extractInt, if_pos fail]

@[simp] theorem extractChar_of_fail
    {is : Istream}
    (fail : is.fail = true)
    (old : UInt8) :
    is.extractChar old = (old, is) := by
  rw [extractChar, if_pos fail]

/-! ## Blanks and runs -/

/-- A run ends where its property does. -/
theorem dropWhile_append_of_head
    {run rest : List UInt8}
    {p : UInt8 → Bool}
    (inside : ∀ byte ∈ run, p byte = true)
    (outside : ∀ byte ∈ rest.head?, p byte = false) :
    (run ++ rest).dropWhile p = rest := by
  rw [List.dropWhile_append_of_pos inside]
  cases rest with
  | nil => rfl
  | cons byte rest =>
      exact List.dropWhile_cons_of_neg (by simp [outside byte rfl])

theorem takeWhile_append_of_head
    {run rest : List UInt8}
    {p : UInt8 → Bool}
    (inside : ∀ byte ∈ run, p byte = true)
    (outside : ∀ byte ∈ rest.head?, p byte = false) :
    (run ++ rest).takeWhile p = run := by
  rw [List.takeWhile_append_of_pos inside]
  cases rest with
  | nil => rw [List.takeWhile_nil, List.append_nil]
  | cons byte rest =>
      rw [List.takeWhile_cons_of_neg (by simp [outside byte rfl]), List.append_nil]

theorem of_mem_head?_dropWhile
    {p : UInt8 → Bool}
    {text : List UInt8}
    {byte : UInt8}
    (first : byte ∈ (text.dropWhile p).head?) :
    p byte = false := by
  have outside := List.head?_dropWhile_not p text
  rw [Option.mem_def.mp first] at outside
  exact outside

/-! ## Characters -/

variable {text rest : List UInt8}

theorem extractChar_eq_iff {old byte : UInt8} :
    (Istream.mk text false).extractChar old = (byte, ⟨rest, false⟩) ↔
      CharAt text byte rest := by
  constructor
  · intro extracted
    rw [extractChar, if_neg Bool.false_ne_true] at extracted
    dsimp only at extracted
    split at extracted
    · exact absurd extracted (by simp)
    · next first behind visible =>
        simp only [Prod.mk.injEq, mk.injEq, and_true] at extracted
        obtain ⟨rfl, rfl⟩ := extracted
        have whole := List.takeWhile_append_dropWhile (p := isSpace) (l := text)
        rw [visible] at whole
        rw [← whole]
        have atFront : first ∈ (text.dropWhile isSpace).head? := by
          rw [visible]
          rfl
        exact .intro (fun _ => List.mem_takeWhile_imp) (of_mem_head?_dropWhile atFront)
  · rintro ⟨blank, visible⟩
    rw [extractChar, if_neg Bool.false_ne_true]
    dsimp only
    rw [dropWhile_append_of_head blank (by simpa using visible)]

/-! ## Numbers -/

theorem sign_cases (text : List UInt8) :
    sign text = [] ∨ sign text = [43] ∨ sign text = [45] := by
  fun_cases sign text with
  | case1 behind => exact .inr (.inl rfl)
  | case2 behind => exact .inr (.inr rfl)
  | case3 notPlus notMinus => exact .inl rfl

theorem sign_append_drop (text : List UInt8) :
    sign text ++ text.drop (sign text).length = text := by
  fun_cases sign text with
  | case1 behind => rfl
  | case2 behind => rfl
  | case3 notPlus notMinus => rfl

/-- The head of a number that is not a digit is its sign. -/
theorem sign_append
    {sign' digits : List UInt8}
    (isSign : sign' = [] ∨ sign' = [43] ∨ sign' = [45])
    (numeral : Numeral digits)
    (rest : List UInt8) :
    sign (sign' ++ (digits ++ rest)) = sign' := by
  rcases isSign with rfl | rfl | rfl
  · cases digits with
    | nil => exact absurd rfl numeral.1
    | cons digit digits =>
        have isDigit' := numeral.2 digit List.mem_cons_self
        have notPlus : digit ≠ 43 := by
          rintro rfl
          exact absurd isDigit' (by decide)
        have notMinus : digit ≠ 45 := by
          rintro rfl
          exact absurd isDigit' (by decide)
        simp [sign, notPlus, notMinus]
  · rfl
  · rfl

/-- No number begins with a blank. -/
theorem visible_number
    {sign' digits : List UInt8}
    (isSign : sign' = [] ∨ sign' = [43] ∨ sign' = [45])
    (numeral : Numeral digits)
    (rest : List UInt8) :
    ∀ byte ∈ (sign' ++ (digits ++ rest)).head?, isSpace byte = false := by
  rcases isSign with rfl | rfl | rfl
  · cases digits with
    | nil => exact absurd rfl numeral.1
    | cons digit digits =>
        rintro byte first
        obtain rfl := Option.some.inj first
        exact isDigit_not_isSpace (numeral.2 _ List.mem_cons_self)
  · rintro byte first
    obtain rfl := Option.some.inj first
    decide
  · rintro byte first
    obtain rfl := Option.some.inj first
    decide

theorem extractInt_eq_iff {old number : Int32} :
    (Istream.mk text false).extractInt old = (number, ⟨rest, false⟩) ↔
      IntAt text number rest := by
  constructor
  · intro extracted
    rw [extractInt, if_neg Bool.false_ne_true] at extracted
    dsimp only at extracted
    have blanks := List.takeWhile_append_dropWhile (p := isSpace) (l := text)
    generalize text.dropWhile isSpace = visible at extracted blanks
    have digits := List.takeWhile_append_dropWhile (p := isDigit)
      (l := visible.drop (sign visible).length)
    have whole : text = text.takeWhile isSpace ++ (sign visible ++
        ((visible.drop (sign visible).length).takeWhile isDigit ++
          (visible.drop (sign visible).length).dropWhile isDigit)) := by
      rw [digits, sign_append_drop, blanks]
    split_ifs at extracted with atEnd noDigits low high
    · exact absurd extracted (by simp)
    · exact absurd extracted (by simp)
    · exact absurd extracted (by simp)
    · exact absurd extracted (by simp)
    · simp only [Prod.mk.injEq, mk.injEq, and_true] at extracted
      obtain ⟨number_eq, rest_eq⟩ := extracted
      rw [rest_eq] at whole
      rw [whole]
      refine .intro (fun _ => List.mem_takeWhile_imp) (sign_cases visible)
        ⟨noDigits, fun _ => List.mem_takeWhile_imp⟩ ?_ ?_
      · rw [← rest_eq]
        exact fun _ => of_mem_head?_dropWhile
      · rw [← number_eq, Int32.toInt_ofInt_of_le (Int.not_lt.mp low) (Int.not_le.mp high)]
  · rintro ⟨blank, isSign, numeral, longest, number_eq⟩
    rw [extractInt, if_neg Bool.false_ne_true]
    dsimp only
    rw [dropWhile_append_of_head blank (visible_number isSign numeral rest),
      sign_append isSign numeral rest, List.drop_left,
      takeWhile_append_of_head numeral.2 longest,
      dropWhile_append_of_head numeral.2 longest, if_neg numeral.1, ← number_eq,
      if_neg (Int.not_lt.mpr number.le_toInt), if_neg (Int.not_le.mpr number.toInt_lt),
      Int32.ofInt_toInt, if_neg (by simp [numeral.1])]

end Istream
