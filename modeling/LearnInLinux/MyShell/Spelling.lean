import LearnInLinux.MyShell.CheckRedir

/-!
# Blanks around an operator

The command in front of an operator is cut into words by `strtok`, which passes by
blanks; the file behind it is what the scan leaves, with all blanks. A line is followed
here from standard input to the process that it starts.
-/

namespace LearnInLinux
namespace MyShell

/-! ## From standard input to a process -/

/-- `fgets` with room for `left` bytes: what it stores, and what it leaves. -/
def fgets : (left : Nat) → (input : Bytes) → Bytes × Bytes
  | 0, input => ([], input)
  | _ + 1, [] => ([], [])
  | left + 1, byte :: input =>
      if byte = 10 then ([byte], input)
      else (byte :: (fgets left input).1, (fgets left input).2)

theorem length_fgets_le (left : Nat) (input : Bytes) :
    (fgets left input).1.length ≤ left := by
  fun_induction fgets left input with
  | case1 input => exact Nat.le_refl 0
  | case2 left => exact Nat.zero_le _
  | case3 left input => exact Nat.succ_le_succ (Nat.zero_le left)
  | case4 left byte input notNewline inductionHypothesis =>
      exact Nat.succ_le_succ inductionHypothesis

theorem fgets_ne_nil
    {left : Nat}
    {input : Bytes}
    (nonempty : input ≠ []) :
    (fgets (left + 1) input).1 ≠ [] := by
  cases input with
  | nil => exact absurd rfl nonempty
  | cons byte input =>
      rw [fgets]
      split
      · exact List.cons_ne_nil _ _
      · exact List.cons_ne_nil _ _

/-- Nothing is lost between two calls. -/
theorem fgets_append (left : Nat) (input : Bytes) :
    (fgets left input).1 ++ (fgets left input).2 = input := by
  fun_induction fgets left input with
  | case1 input => rfl
  | case2 left => rfl
  | case3 left input => rfl
  | case4 left byte input notNewline inductionHypothesis =>
      exact congrArg (byte :: ·) inductionHypothesis

theorem length_fgets_lt
    {left : Nat}
    {input : Bytes}
    (nonempty : input ≠ []) :
    (fgets (left + 1) input).2.length < input.length := by
  have stored : 0 < (fgets (left + 1) input).1.length :=
    List.length_pos_of_ne_nil (fgets_ne_nil nonempty)
  have whole := congrArg List.length (fgets_append (left + 1) input)
  rw [List.length_append] at whole
  omega

/-- A line that fits is stored with its newline. -/
theorem fgets_of_short
    {left : Nat}
    {text : Bytes}
    (oneLine : 10 ∉ text)
    (short : text.length < left) :
    fgets left (text ++ [10]) = (text ++ [10], []) := by
  induction text generalizing left with
  | nil =>
      obtain ⟨left, rfl⟩ := Nat.exists_eq_add_of_lt short
      rfl
  | cons head tail inductionHypothesis =>
      rw [List.mem_cons, not_or] at oneLine
      obtain ⟨left, rfl⟩ := Nat.exists_eq_succ_of_ne_zero (Nat.ne_zero_of_lt short)
      have stored := inductionHypothesis oneLine.2 (Nat.lt_of_succ_lt_succ short)
      rw [List.cons_append, fgets, if_neg (Ne.symm oneLine.1), stored]

/-- A line that does not fit is stored in parts. -/
theorem fgets_of_long
    {left : Nat}
    {text : Bytes}
    (long : left ≤ text.length) :
    (fgets left (text ++ [10])).2 ≠ [] := by
  intro nothing
  have stored := length_fgets_le left (text ++ [10])
  have whole := congrArg List.length (fgets_append left (text ++ [10]))
  rw [nothing, List.append_nil, List.length_append, List.length_singleton] at whole
  omega

/-- What the calls of `fgets(cmd_line, sizeof cmd_line, stdin)` store. -/
def typedLines (input : Bytes) : List Typed :=
  if nonempty : input ≠ [] then
    { bytes := (fgets 1023 input).1, nonempty := fgets_ne_nil nonempty
      bounded := length_fgets_le 1023 input } :: typedLines (fgets 1023 input).2
  else []
termination_by input.length
decreasing_by exact length_fgets_lt nonempty

/-- "cd" -/
def cd : Bytes := [99, 100]

/-- Commands that the shell runs itself. -/
def Builtin (argv : List Bytes) : Prop :=
  (argv.head? = some export_ ∧ 1 < argv.length) ∨ argv.head? = some cd

instance (argv : List Bytes) : Decidable (Builtin argv) :=
  inferInstanceAs (Decidable (_ ∨ _))

/-- What one turn of the loop of `main` does. -/
inductive Effect
  /-- The line has no word or too many. -/
  | undefined
  | builtin
  /-- A child opens the file of the redirection, if there is one, in the mode of its
  operator, and becomes the program. -/
  | exec (argv : List Bytes) (redirect : Option (RedirStatus × Bytes))
  deriving DecidableEq

/-- What a line of input makes the shell do. -/
def effect (typed : Typed) : Effect :=
  match gArgv typed with
  | none => .undefined
  | some argv =>
      if Builtin argv then .builtin
      else .exec argv (checkRedir (Text.cString 0 typed.bytes).dropLast).sep

/-- What an input makes the shell do, line by line. -/
def effects (input : Bytes) : List Effect :=
  (typedLines input).map effect

/-- The argument vector that is made of the text of a command. -/
def argumentVector (text : Bytes) : Option (List Bytes) :=
  match strtok text with
  | [] => none
  | command :: arguments =>
      if (complete command arguments).length < 32 then
        some (complete command arguments)
      else none

theorem gArgv_eq (typed : Typed) :
    gArgv typed =
      argumentVector (checkRedir (Text.cString 0 typed.bytes).dropLast).start := rfl

/-! ## One line -/

theorem typedLines_of_short
    {text : Bytes}
    (oneLine : 10 ∉ text)
    (short : (text ++ [10]).length ≤ 1023) :
    ∃ typed : Typed, typed.bytes = text ++ [10] ∧ typedLines (text ++ [10]) = [typed] := by
  have fits : text.length < 1023 := by
    rw [List.length_append, List.length_singleton] at short
    omega
  have nonempty : text ++ [10] ≠ [] := by simp
  refine ⟨⟨text ++ [10], nonempty, short⟩, rfl, ?_⟩
  rw [typedLines, dif_pos nonempty]
  simp only [fgets_of_short oneLine fits]
  rw [typedLines, dif_neg (by simp)]

theorem two_effects_of_long
    {text : Bytes}
    (long : 1023 < (text ++ [10]).length) :
    2 ≤ (effects (text ++ [10])).length := by
  have overfull : 1023 ≤ text.length := by
    rw [List.length_append, List.length_singleton] at long
    omega
  have nonempty : text ++ [10] ≠ [] := by simp
  have more := fgets_of_long overfull
  rw [effects, List.length_map, typedLines, dif_pos nonempty, typedLines, dif_pos more,
    List.length_cons, List.length_cons]
  exact Nat.le_add_left 2 _

/-- Blanks behind a command are no words. -/
theorem strtok_append_blanks (text : Bytes) (n : Nat) :
    strtok (text ++ List.replicate n 32) = strtok text := by
  induction n with
  | zero => rw [List.replicate_zero, List.append_nil]
  | succ n inductionHypothesis =>
      rw [List.replicate_succ', ← List.append_assoc, ← inductionHypothesis, strtok,
        List.splitOn_append_cons_self, List.filter_append]
      simp [strtok]

theorem argumentVector_append_blanks (text : Bytes) (n : Nat) :
    argumentVector (text ++ List.replicate n 32) = argumentVector text := by
  rw [argumentVector, strtok_append_blanks]
  rfl

/-- The text of a command, as it can stand on a line. -/
abbrev CommandText := { text : Bytes // 0 ∉ text ∧ 10 ∉ text }

/-- The name of a file, without blanks and operators. -/
abbrev FileName := { name : Bytes // 0 ∉ name ∧ 10 ∉ name ∧ 32 ∉ name ∧ Plain name }

/-- A command, `n` blanks, an operator, `m` blanks and a file. -/
def spelling
    (c : CommandText) (n : Nat) (op : RedirStatus) (m : Nat) (f : FileName) : Bytes :=
  c.val ++ List.replicate n 32 ++ op.text ++ (List.replicate m 32 ++ f.val)

/-- The line makes the shell open the file and run the argument vector of the command. -/
def Redirects
    (c : CommandText) (n : Nat) (op : RedirStatus) (m : Nat) (f : FileName) : Prop :=
  ∃ argv, argumentVector c.val = some argv ∧
    effects (spelling c n op m f ++ [10]) = [.exec argv (some (op, f.val))]

/-- The command has a word, not too many of them, and is not one that the shell runs
itself. -/
def Runnable (c : CommandText) : Prop :=
  ∃ argv, argumentVector c.val = some argv ∧ ¬ Builtin argv

section Spelled

variable {c : CommandText} {n m : Nat} {op : RedirStatus} {f : FileName}

theorem spelling_clean {byte : UInt8}
    (inCommand : byte ∉ c.val)
    (inName : byte ∉ f.val)
    (notBlank : byte ≠ 32)
    (notOperator : byte ≠ 60 ∧ byte ≠ 62) :
    byte ∉ spelling c n op m f := by
  have inOperator : byte ∉ op.text := by
    cases op <;> simp [RedirStatus.text, notOperator]
  simp only [spelling, List.mem_append, List.mem_replicate, not_or]
  exact ⟨⟨⟨inCommand, fun blank => notBlank blank.2⟩, inOperator⟩,
    fun blank => notBlank blank.2, inName⟩

theorem plain_target (m : Nat) (f : FileName) :
    Plain (List.replicate m 32 ++ f.val) := by
  refine plain_append.mpr ⟨?_, f.property.2.2.2⟩
  simp [Plain, List.mem_replicate]

/-- A line of which the shell gets all, and cuts it. -/
theorem effects_of_cut
    {text cmd target : Bytes}
    (noNul : 0 ∉ text)
    (oneLine : 10 ∉ text)
    (short : (text ++ [10]).length ≤ 1023)
    (cut : Cut text cmd op target) :
    effects (text ++ [10]) =
      [match argumentVector cmd with
        | none => .undefined
        | some argv =>
            if Builtin argv then .builtin else .exec argv (some (op, target))] := by
  obtain ⟨typed, bytes, lines⟩ := typedLines_of_short oneLine short
  have clean : 0 ∉ text ++ [10] := by
    simp [noNul]
  have cmdLine : (Text.cString 0 typed.bytes).dropLast = text := by
    rw [bytes, Text.cString_eq_self clean, List.dropLast_concat]
  rw [effects, lines, List.map_singleton, effect, gArgv_eq, cmdLine, checkRedir_of_cut cut]

/-- Where a spelling is cut. -/
theorem spelling_cut
    (apart : ¬ (op = .outputRedir ∧ n = 0 ∧ c.val.getLast? = some 62)) :
    Cut (spelling c n op m f) (c.val ++ List.replicate n 32) op
      (List.replicate m 32 ++ f.val) := by
  refine ⟨rfl, plain_target m f, fun output glued => apart ⟨output, ?_⟩⟩
  cases n with
  | zero =>
      rw [List.replicate_zero, List.append_nil] at glued
      exact ⟨rfl, glued⟩
  | succ n =>
      rw [List.replicate_succ', ← List.append_assoc, List.getLast?_concat] at glued
      exact absurd glued (by decide)

/-- A `>` behind a `>` makes a `>>`. -/
theorem spelling_cut_glued
    {front : Bytes}
    (glued : c.val = front ++ [62]) :
    Cut (spelling c 0 .outputRedir m f) front .appendRedir
      (List.replicate m 32 ++ f.val) := by
  refine ⟨?_, plain_target m f, by simp⟩
  simp [spelling, glued, RedirStatus.text]

end Spelled

/-- The line makes the shell open the file and run the argument vector of the command,
exactly when no blank stands behind the operator, the line fits into `cmd_line`, a `>` is
not glued to another one, and the command is one that the shell runs in a child. -/
theorem redirects_iff
    (c : CommandText)
    (n : Nat)
    (op : RedirStatus)
    (m : Nat)
    (f : FileName) :
    Redirects c n op m f ↔
      m = 0 ∧ (spelling c n op m f ++ [10]).length ≤ 1023 ∧
        ¬ (op = .outputRedir ∧ n = 0 ∧ c.val.getLast? = some 62) ∧ Runnable c := by
  have noNul : 0 ∉ spelling c n op m f :=
    spelling_clean c.property.1 f.property.1 (by decide) (by decide)
  have oneLine : 10 ∉ spelling c n op m f :=
    spelling_clean c.property.2 f.property.2.1 (by decide) (by decide)
  constructor
  · rintro ⟨argv, argumentVector_c, effects_eq⟩
    have short : (spelling c n op m f ++ [10]).length ≤ 1023 := by
      by_contra long
      have twice := two_effects_of_long (Nat.lt_of_not_le long)
      rw [effects_eq, List.length_singleton] at twice
      exact absurd twice (by decide)
    have apart : ¬ (op = .outputRedir ∧ n = 0 ∧ c.val.getLast? = some 62) := by
      rintro ⟨rfl, rfl, last⟩
      obtain ⟨front, glued⟩ := List.getLast?_eq_some_iff.mp last
      rw [effects_of_cut noNul oneLine short (spelling_cut_glued glued),
        List.singleton_inj] at effects_eq
      -- the mode that is left is the one of `>>`
      split at effects_eq
      · exact absurd effects_eq (by simp)
      · split at effects_eq
        · exact absurd effects_eq (by simp)
        · exact absurd effects_eq (by simp)
    rw [effects_of_cut noNul oneLine short (spelling_cut apart),
      argumentVector_append_blanks, argumentVector_c, List.singleton_inj] at effects_eq
    dsimp only at effects_eq
    split at effects_eq
    · exact absurd effects_eq (by simp)
    · next notBuiltin =>
        injection effects_eq with _ redirect
        injection redirect with redirect
        injection redirect with _ target
        have noBlanks := congrArg List.length target
        rw [List.length_append, List.length_replicate] at noBlanks
        exact ⟨by omega, short, apart, argv, argumentVector_c, notBuiltin⟩
  · rintro ⟨rfl, short, apart, argv, argumentVector_c, notBuiltin⟩
    refine ⟨argv, argumentVector_c, ?_⟩
    rw [effects_of_cut noNul oneLine short (spelling_cut apart),
      argumentVector_append_blanks, argumentVector_c]
    dsimp only
    rw [if_neg notBuiltin]
    rfl

/-- "ls" -/
def listing : CommandText := ⟨ls, by decide⟩

/-- "f" -/
def plainName : FileName := ⟨[102], by decide⟩

/-- `ls > f` opens a file whose name begins with a blank. -/
theorem blank_in_name :
    Redirects listing 1 .outputRedir 0 plainName ∧
      ¬ Redirects listing 1 .outputRedir 1 plainName ∧
        effects (spelling listing 1 .outputRedir 1 plainName ++ [10]) =
          [.exec [ls, colorAuto] (some (.outputRedir, [32, 102]))] := by
  have words : argumentVector listing.val = some [ls, colorAuto] := by
    decide +kernel
  have line (m : Nat)
      (short : (spelling listing 1 .outputRedir m plainName ++ [10]).length ≤ 1023) :
      effects (spelling listing 1 .outputRedir m plainName ++ [10]) =
        [.exec [ls, colorAuto] (some (.outputRedir, List.replicate m 32 ++ [102]))] := by
    rw [effects_of_cut (spelling_clean (by decide) (by decide) (by decide) (by decide))
      (spelling_clean (by decide) (by decide) (by decide) (by decide)) short
      (spelling_cut (by decide)), argumentVector_append_blanks, words]
    rfl
  refine ⟨⟨_, words, line 0 (by decide)⟩, ?_, line 1 (by decide)⟩
  rintro ⟨argv, -, effects_eq⟩
  rw [line 1 (by decide)] at effects_eq
  exact absurd effects_eq (by simp [plainName])

end MyShell
end LearnInLinux
