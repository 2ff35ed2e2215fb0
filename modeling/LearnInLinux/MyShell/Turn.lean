import LearnInLinux.MyShell.Stores

/-!
# Words in the array

The calls of `strtok` fill `g_argv` behind the options that the shell adds to `ls` and
`ll`, as far as there are words. On the lines that the shell accepts, the array holds the
words of `gArgv` in the end, and every store is inside of its array; on all other lines
there is a store outside or a null pointer that is compared.
-/

namespace LearnInLinux
namespace MyShell
namespace Process

/-! ## The words -/

section

variable {p after : Process} {text word rest : Bytes} {token : Pointer} {index : Nat}
  {value : Option Pointer}

/-- A note is safe as far as its events are. -/
@[simp] theorem safe_record {events : List Event} :
    (p.record events).Safe ↔ p.Safe ∧ ∀ event ∈ events, event.Safe :=
  List.forall_mem_append

/-- `g_argv` has 32 slots. -/
@[simp] theorem safe_setArgv : (p.setArgv index value).Safe ↔ p.Safe ∧ index < 32 := by
  rw [Safe, setArgv, List.forall_mem_append, List.forall_mem_singleton]
  rfl

/-- `strcmp` must not be called with a null pointer. -/
@[simp] theorem safe_strcmp : (p.strcmp word).1.Safe ↔ p.Safe ∧ p.gArgv 0 ≠ none := by
  rw [strcmp, safe_record, List.forall_mem_singleton]
  rfl

/-- `strtok` writes a terminator behind the word. -/
theorem safe_strtok :
    p.strtok.1.Safe ↔
      p.Safe ∧ ∀ position ∈ (p.memory.strtok p.saved).stores, position < 1024 := by
  have bounds (position : Nat) : (Event.cmdLine position).Safe ↔ position < 1024 := by
    simp only [Event.Safe]
    omega
  rw [Safe, strtok, List.forall_mem_append, List.forall_mem_map]
  simp only [bounds]
  rfl

/-- The process behind a call of `strtok` that returned a word. -/
structure Taken (p after : Process) (token : Pointer) (word rest : Bytes) : Prop where
  safe : after.Safe ↔ p.Safe
  gArgv : after.gArgv = p.gArgv
  blanked : Blanked p.memory after.memory
  text : after.memory.text token = word
  oneWord : 32 ∉ word
  saved : Holds after.memory after.saved rest

/-- `strtok` finds no word, or the first one and leaves the rest for the next call. -/
theorem strtok_cases
    (holds : Holds p.memory p.saved text)
    (room : p.memory.cells.length = 1024) :
    (MyShell.strtok text = [] ∧ (p.strtok.1.Safe ↔ p.Safe) ∧ p.strtok.2 = none ∧
      p.strtok.1.memory = p.memory) ∨
    ∃ word rest token, MyShell.strtok text = word :: MyShell.strtok rest ∧
      p.strtok.2 = some token ∧ Taken p p.strtok.1 token word rest := by
  rcases MyShell.strtok_cases holds with
    ⟨noWord, noToken, noStore, same⟩ | ⟨word, rest, words, takes⟩
  · left
    refine ⟨noWord, ?_, ?_, same⟩
    · rw [safe_strtok, noStore]
      simp
    · rw [strtok, noToken]
      rfl
  · right
    obtain ⟨position, isToken, isWord⟩ := takes.returned
    refine ⟨word, rest, .cmdLine position, words, ?_, ?_⟩
    · rw [strtok, isToken]
      rfl
    · refine ⟨?_, rfl, takes.blanked, isWord, takes.oneWord, takes.saved⟩
      rw [safe_strtok, ← room]
      exact and_iff_left takes.inside

/-- The entries of `g_argv` so far point to these words. -/
structure Points (p : Process) (words : List Bytes) : Prop where
  entries : ∀ i < words.length, (p.gArgv i).map p.memory.text = words[i]?
  oneWord : ∀ word ∈ words, 32 ∉ word

/-- The entries of `g_argv` point to these words, with a null pointer behind them. -/
def Argv (p : Process) (words : List Bytes) : Prop :=
  ∀ i ≤ words.length, (p.gArgv i).map p.memory.text = words[i]?

namespace Points

variable {words : List Bytes}

/-- In front of the loop `g_argv` holds the command. -/
theorem first
    (isCommand : p.gArgv 0 = some token)
    (oneWord : 32 ∉ p.memory.text token) :
    p.Points [p.memory.text token] := by
  constructor
  · intro i below
    rw [List.length_singleton, Nat.lt_one_iff] at below
    rw [below, isCommand]
    rfl
  · rw [List.forall_mem_singleton]
    exact oneWord

/-- One more entry. -/
theorem store
    (points : p.Points words)
    (oneWord : 32 ∉ p.memory.text token) :
    (p.setArgv words.length (some token)).Points (words ++ [p.memory.text token]) := by
  constructor
  · intro i below
    change (Function.update p.gArgv words.length (some token) i).map p.memory.text = _
    rw [List.length_append, List.length_singleton, Nat.lt_succ_iff_lt_or_eq] at below
    rcases below with earlier | rfl
    · rw [Function.update_of_ne (Nat.ne_of_lt earlier), points.entries i earlier,
        List.getElem?_append_left earlier]
    · rw [Function.update_self, Option.map_some, List.getElem?_concat_length]
  · intro word present
    rcases List.mem_append.mp present with earlier | last
    · exact points.oneWord word earlier
    · rw [List.mem_singleton.mp last]
      exact oneWord

/-- The words have no blanks that a call of `strtok` could write over. -/
theorem blanked
    (points : p.Points words)
    (gArgv : after.gArgv = p.gArgv)
    (blanked : Blanked p.memory after.memory) :
    after.Points words := by
  refine ⟨fun i below => ?_, points.oneWord⟩
  have entry := points.entries i below
  rw [List.getElem?_eq_getElem below, Option.map_eq_some_iff] at entry
  obtain ⟨pointer, isEntry, isWord⟩ := entry
  have noBlank : 32 ∉ p.memory.text pointer := by
    rw [isWord]
    exact points.oneWord _ (List.getElem_mem below)
  rw [gArgv, isEntry, Option.map_some, blanked.text_eq noBlank, isWord,
    List.getElem?_eq_getElem below]

/-- A call of `strtok` leaves the words in front of its own as they are. -/
theorem take
    (points : p.Points words)
    (taken : Taken p after token word rest) :
    (after.setArgv words.length (some token)).Points (words ++ [word]) := by
  have oneWord := taken.oneWord
  rw [← taken.text] at oneWord ⊢
  exact (points.blanked taken.gArgv taken.blanked).store oneWord

/-- A null pointer behind the words. -/
theorem terminate
    (points : p.Points words)
    (gArgv : after.gArgv = p.gArgv)
    (memory : after.memory = p.memory) :
    (after.setArgv words.length none).Argv words := by
  intro i inside
  change (Function.update after.gArgv words.length none i).map after.memory.text = _
  rcases Nat.lt_or_eq_of_le inside with earlier | rfl
  · rw [Function.update_of_ne (Nat.ne_of_lt earlier), gArgv, memory]
    exact points.entries i earlier
  · rw [Function.update_self, Option.map_none, List.getElem?_eq_none (Nat.le_refl _)]

end Points

/-- The first word of a command is its name. -/
theorem Argv.first
    {words : List Bytes}
    (argv : p.Argv words)
    (nonempty : 0 < words.length) :
    ∃ pointer, p.gArgv 0 = some pointer ∧ words[0]? = some (p.memory.text pointer) := by
  have head := argv 0 (Nat.zero_le _)
  rw [List.getElem?_eq_getElem nonempty, Option.map_eq_some_iff] at head
  obtain ⟨pointer, isFirst, text⟩ := head
  exact ⟨pointer, isFirst, by rw [List.getElem?_eq_getElem nonempty, text]⟩

/-- The process behind the loop over the arguments. -/
structure ArgumentsRead (p after : Process) (words : List Bytes) : Prop where
  safe : after.Safe ↔ p.Safe ∧ words.length < 32
  argv : after.Argv words

/-- The loop reads the words of the line up to the end. -/
theorem readArguments_reads
    {words : List Bytes}
    (points : p.Points words)
    (length : index = words.length)
    (holds : Holds p.memory p.saved text)
    (room : p.memory.cells.length = 1024) :
    ArgumentsRead p (p.readArguments index) (words ++ MyShell.strtok text) := by
  fun_induction readArguments p index generalizing text words with
  | case1 p index after called =>
      rcases strtok_cases holds room with
        ⟨noWord, safe, -, memory⟩ | ⟨word, rest, token, -, isToken, -⟩
      · have gArgv : p.strtok.1.gArgv = p.gArgv := rfl
        rw [called] at safe memory gArgv
        rw [noWord, length, List.append_nil]
        constructor
        · rw [safe_setArgv, safe]
        · exact points.terminate gArgv memory
      · rw [called] at isToken
        cases isToken
  | case2 p index after token called inductionHypothesis =>
      rcases strtok_cases holds room with
        ⟨-, -, noToken, -⟩ | ⟨word, rest, token, tokens, isToken, taken⟩
      · rw [called] at noToken
        cases noToken
      · rw [called] at isToken taken
        cases isToken
        subst length
        have later := inductionHypothesis (points.take taken) (by simp)
          taken.saved (taken.blanked.length_eq.trans room)
        have together : words ++ word :: MyShell.strtok rest =
            words ++ [word] ++ MyShell.strtok rest := by
          simp
        rw [tokens, together]
        constructor
        · rw [later.safe, safe_setArgv, taken.safe, List.length_append, List.length_append,
            List.length_singleton]
          constructor
          · rintro ⟨⟨safe, -⟩, inside⟩
            exact ⟨safe, inside⟩
          · rintro ⟨safe, inside⟩
            exact ⟨⟨safe, by omega⟩, inside⟩
        · exact later.argv

/-! ## Options and commands -/

@[simp] theorem memory_record {events : List Event} :
    (p.record events).memory = p.memory := rfl

@[simp] theorem saved_record {events : List Event} :
    (p.record events).saved = p.saved := rfl

@[simp] theorem gArgv_record {events : List Event} :
    (p.record events).gArgv = p.gArgv := rfl

@[simp] theorem memory_setArgv : (p.setArgv index value).memory = p.memory := rfl

@[simp] theorem gArgv_setArgv :
    (p.setArgv index value).gArgv = Function.update p.gArgv index value := rfl

/-- `strcmp(g_argv[0], ..)` behind the test for a command. -/
theorem strcmp_eq
    {command : Pointer}
    (isCommand : p.gArgv 0 = some command)
    (other : Bytes) :
    p.strcmp other =
      (p.record [.strcmp (some command)], decide (p.memory.text command = other)) := by
  rw [strcmp, isCommand, Option.map_some]
  congr 1
  exact Bool.eq_iff_iff.mpr (by simp)

/-- What is done for "ls". -/
theorem addOptions_ls
    {command : Pointer}
    (isCommand : p.gArgv 0 = some command)
    (isLs : p.memory.text command = ls) :
    p.addOptions =
      (((p.record [.strcmp (some command)]).setArgv 1 (some (.literal colorAuto))).record
        [.strcmp (some command)], 2) := by
  have again : ((p.record [.strcmp (some command)]).setArgv 1
      (some (.literal colorAuto))).gArgv 0 = some command := by
    simp [isCommand]
  have notLl : ls ≠ ll := by
    decide
  simp only [addOptions, strcmp_eq isCommand, isLs, decide_true, if_true, strcmp_eq again]
  simp [isLs, notLl]

/-- What is done for "ll". -/
theorem addOptions_ll
    {command : Pointer}
    (isCommand : p.gArgv 0 = some command)
    (isLl : p.memory.text command = ll) :
    p.addOptions =
      (((((p.record [.strcmp (some command)]).record [.strcmp (some command)]).setArgv 0
        (some (.literal ls))).setArgv 1 (some (.literal long))).setArgv 2
          (some (.literal colorAuto)), 3) := by
  have again : (p.record [.strcmp (some command)]).gArgv 0 = some command := isCommand
  have notLs : ll ≠ ls := by
    decide
  simp only [addOptions, strcmp_eq isCommand, isLl, notLs, decide_false, Bool.false_eq_true,
    if_false, strcmp_eq again]
  simp [isLl]

/-- What is done for any other command. -/
theorem addOptions_other
    {command : Pointer}
    (isCommand : p.gArgv 0 = some command)
    (notLs : p.memory.text command ≠ ls)
    (notLl : p.memory.text command ≠ ll) :
    p.addOptions =
      ((p.record [.strcmp (some command)]).record [.strcmp (some command)], 1) := by
  have again : (p.record [.strcmp (some command)]).gArgv 0 = some command := isCommand
  simp only [addOptions, strcmp_eq isCommand, notLs, decide_false, Bool.false_eq_true,
    if_false, strcmp_eq again]
  simp [notLl]

/-- The options are written into slots that are there. -/
theorem safe_addOptions
    {command : Pointer}
    (isCommand : p.gArgv 0 = some command) :
    p.addOptions.1.Safe ↔ p.Safe := by
  have compared : (Event.strcmp (some command)).Safe := by
    simp [Event.Safe]
  by_cases isLs : p.memory.text command = ls
  · simp [addOptions_ls isCommand isLs, compared]
  · by_cases isLl : p.memory.text command = ll
    · simp [addOptions_ll isCommand isLl, compared]
    · simp [addOptions_other isCommand isLs isLl, compared]

/-- The command and its options are in `g_argv`, and nothing else has changed. -/
structure OptionsAdded (p after : Process) (index : Nat) (words : List Bytes) : Prop where
  memory : after.memory = p.memory
  saved : after.saved = p.saved
  length : index = words.length
  points : after.Points words

/-- The words behind the options are those of the completed command. -/
theorem addOptions_adds
    {command : Pointer}
    (isCommand : p.gArgv 0 = some command)
    (oneWord : 32 ∉ p.memory.text command) :
    OptionsAdded p p.addOptions.1 p.addOptions.2
      (complete (p.memory.text command) []) := by
  have literal {text : Bytes} (noBlank : 32 ∉ text) :
      32 ∉ p.memory.text (.literal text) := noBlank
  have points := Points.first isCommand oneWord
  by_cases isLs : p.memory.text command = ls
  · have words : complete (p.memory.text command) [] =
        [p.memory.text command] ++ [colorAuto] := by
      rw [isLs]
      rfl
    rw [addOptions_ls isCommand isLs, words]
    have stored := points.store (literal (show 32 ∉ colorAuto by decide))
    exact ⟨rfl, rfl, rfl, stored.entries, stored.oneWord⟩
  · by_cases isLl : p.memory.text command = ll
    · have words : complete (p.memory.text command) [] = [ls] ++ [long] ++ [colorAuto] := by
        rw [isLl]
        rfl
      rw [addOptions_ll isCommand isLl, words]
      have isNow : (((p.record [.strcmp (some command)]).record
          [.strcmp (some command)]).setArgv 0 (some (.literal ls))).gArgv 0 =
            some (.literal ls) := by
        rw [gArgv_setArgv, Function.update_self]
      have renamed := Points.first isNow (literal (show 32 ∉ ls by decide))
      have withLong := renamed.store (literal (show 32 ∉ long by decide))
      have stored := withLong.store (literal (show 32 ∉ colorAuto by decide))
      exact ⟨rfl, rfl, rfl, stored⟩
    · have words : complete (p.memory.text command) [] = [p.memory.text command] := by
        rw [complete, if_neg isLs, if_neg isLl]
      rw [addOptions_other isCommand isLs isLl, words]
      exact ⟨rfl, rfl, rfl, points.entries, points.oneWord⟩

/-- `g_myval` has 64 bytes. -/
theorem safe_copy {length : Nat} :
    (∀ index ≤ length, (Event.gMyval index).Safe) ↔ length ≤ 63 := by
  constructor
  · intro inside
    have last : length < 64 := inside length (Nat.le_refl length)
    omega
  · intro short index inRange
    change index < 64
    omega

/-- The builtin commands are safe unless a long argument is exported. -/
theorem safe_runBuiltin
    {command : Pointer}
    (isCommand : p.gArgv 0 = some command) :
    p.runBuiltin.Safe ↔ p.Safe ∧ (p.memory.text command = export_ →
      ∀ argument ∈ (p.gArgv 1).map p.memory.text, argument.length ≤ 63) := by
  have compared : (Event.strcmp (some command)).Safe := by
    simp [Event.Safe]
  rw [runBuiltin, strcmp_eq isCommand]
  dsimp only
  rw [gArgv_record]
  cases p.gArgv 1 with
  | none => simp [isCommand, compared]
  | some argument =>
      by_cases isExport : p.memory.text command = export_
      · simp [isExport, compared, safe_copy]
      · simp [isExport, isCommand, compared]

/-- The builtin commands leave the words as they are. -/
theorem runBuiltin_same :
    p.runBuiltin.gArgv = p.gArgv ∧ p.runBuiltin.memory = p.memory := by
  rw [runBuiltin]
  dsimp only [strcmp]
  split
  · exact ⟨rfl, rfl⟩
  · split
    · exact ⟨rfl, rfl⟩
    · exact ⟨rfl, rfl⟩

/-- What has happened is not undone by the rest of a turn. -/
theorem safe_of_strtok
    (called : p.strtok = (after, value))
    (safe : after.Safe) :
    p.Safe := by
  have safeCall : p.strtok.1.Safe := by
    rw [called]
    exact safe
  exact (safe_strtok.mp safeCall).1

/-- Nothing that was unsafe becomes safe in the loop. -/
theorem safe_of_readArguments (safe : (p.readArguments index).Safe) : p.Safe := by
  fun_induction readArguments p index with
  | case1 p index after called =>
      exact safe_of_strtok called (safe_setArgv.mp safe).1
  | case2 p index after token called inductionHypothesis =>
      exact safe_of_strtok called (safe_setArgv.mp (inductionHypothesis safe)).1

/-- Nothing that was unsafe becomes safe in a builtin command. -/
theorem safe_of_runBuiltin (safe : p.runBuiltin.Safe) : p.Safe := by
  rw [runBuiltin] at safe
  dsimp only [strcmp] at safe
  split at safe
  · exact (safe_record.mp (safe_record.mp safe).1).1
  · split at safe
    · exact (safe_record.mp (safe_record.mp safe).1).1
    · exact (safe_record.mp (safe_record.mp safe).1).1

/-- Nothing that was unsafe becomes safe in a turn. -/
theorem safe_of_runCommand
    {command : Pointer}
    (isCommand : p.gArgv 0 = some command)
    (safe : p.runCommand.Safe) :
    p.Safe :=
  (safe_addOptions isCommand).mp (safe_of_readArguments (safe_of_runBuiltin safe))

/-- The options stand in front of the arguments. -/
theorem complete_eq_append (command : Bytes) (arguments : List Bytes) :
    complete command arguments = complete command [] ++ arguments := by
  unfold complete
  split
  · rfl
  · split
    · rfl
    · rfl

/-- A command has a name. -/
theorem length_complete_pos (command : Bytes) (arguments : List Bytes) :
    0 < (complete command arguments).length := by
  unfold complete
  split
  · exact Nat.succ_pos _
  · split
    · exact Nat.succ_pos _
    · exact Nat.succ_pos _

/-- The first word is `export` only for that command. -/
theorem complete_head (command : Bytes) (arguments : List Bytes) :
    (complete command arguments)[0]? = some export_ ↔ command = export_ := by
  unfold complete
  split
  case isTrue isLs =>
      rw [isLs]
      exact iff_of_false (fun head => absurd (Option.some.inj head) (by decide)) (by decide)
  case isFalse =>
      split
      case isTrue isLl =>
          rw [isLl]
          exact iff_of_false (fun head => absurd (Option.some.inj head) (by decide))
            (by decide)
      case isFalse => exact Option.some_inj

/-- The rest of a turn behind the first word. -/
theorem runCommand_runs
    {command : Pointer}
    (isCommand : p.gArgv 0 = some command)
    (oneWord : 32 ∉ p.memory.text command)
    (holds : Holds p.memory p.saved rest)
    (room : p.memory.cells.length = 1024) :
    p.runCommand.Argv (complete (p.memory.text command) (MyShell.strtok rest)) ∧
      (p.runCommand.Safe ↔ p.Safe ∧
        (complete (p.memory.text command) (MyShell.strtok rest)).length < 32 ∧
        (p.memory.text command = export_ →
          ∀ argument ∈ (MyShell.strtok rest).head?, argument.length ≤ 63)) := by
  have options := addOptions_adds isCommand oneWord
  have safeOptions := safe_addOptions isCommand
  generalize p.memory.text command = word at options ⊢
  change (p.addOptions.1.readArguments p.addOptions.2).runBuiltin.Argv _ ∧
    ((p.addOptions.1.readArguments p.addOptions.2).runBuiltin.Safe ↔ _)
  generalize p.addOptions.1 = added at options safeOptions ⊢
  generalize p.addOptions.2 = index at options ⊢
  have reads : ArgumentsRead added (added.readArguments index)
      (complete word (MyShell.strtok rest)) := by
    rw [complete_eq_append]
    apply readArguments_reads options.points options.length
    · rw [options.memory, options.saved]
      exact holds
    · rw [options.memory]
      exact room
  generalize added.readArguments index = after at reads ⊢
  have positive := length_complete_pos word (MyShell.strtok rest)
  obtain ⟨first, isFirst, firstText⟩ := reads.argv.first positive
  have isExport : after.memory.text first = export_ ↔ word = export_ := by
    rw [← complete_head word (MyShell.strtok rest), firstText, Option.some_inj]
  obtain ⟨sameArgv, sameMemory⟩ := after.runBuiltin_same
  constructor
  · intro i inside
    rw [sameArgv, sameMemory]
    exact reads.argv i inside
  · rw [safe_runBuiltin isFirst, reads.safe, safeOptions, isExport, and_assoc]
    refine and_congr_right fun _ => and_congr_right fun _ => imp_congr_right fun exported => ?_
    -- `export` gets no options, so its argument is `g_argv[1]`
    have words : complete word (MyShell.strtok rest) = export_ :: MyShell.strtok rest := by
      rw [exported]
      rfl
    have argument := reads.argv 1 positive
    rw [argument, words, List.getElem?_cons_succ, List.head?_eq_getElem?]

end

/-! ## The turn -/

/-- A turn is safe exactly on the lines that are accepted, and then the words of the line
are in `g_argv`. -/
theorem turn_runs (p : Process) (before : UInt8) (typed : Typed) :
    (Accepted typed → ∃ argv, MyShell.gArgv typed = some argv ∧ 0 < argv.length ∧
      (p.turn before typed).Argv argv) ∧
      ((p.turn before typed).Safe ↔ p.Safe ∧ Accepted typed) := by
  have line := line_cases p before typed
  dsimp only at line
  rw [Accepted, MyShell.gArgv]
  dsimp only
  generalize (MyShell.checkRedir (Text.cString 0 typed.bytes).dropLast).start = start
    at line ⊢
  rw [turn]
  dsimp only
  generalize ((p.fgets before typed).stripNewline).checkRedir = read at line ⊢
  have begin : (({ read with saved := 0 } : Process).Safe ↔ read.Safe) ∧
      ({ read with saved := 0 } : Process).memory = read.memory ∧
      ({ read with saved := 0 } : Process).saved = 0 :=
    ⟨Iff.rfl, rfl, rfl⟩
  generalize ({ read with saved := 0 } : Process) = begun at begin ⊢
  obtain ⟨safeBegun, memory, saved⟩ := begin
  rcases line with ⟨nothing, unsafeRead⟩ | ⟨holds, safeRead, room⟩
  · rw [nothing, strtok_nil]
    refine ⟨False.elim, iff_of_false (fun safe => unsafeRead ?_) (fun both => both.2)⟩
    rw [← safeBegun]
    rcases called : begun.strtok with ⟨after, _ | token⟩
    · rw [called] at safe
      exact safe_of_strtok called (safe_setArgv.mp (safe_strcmp.mp safe).1).1
    · rw [called] at safe
      have isCommand : (after.setArgv 0 (some token)).gArgv 0 = some token := by
        simp
      exact safe_of_strtok called (safe_setArgv.mp (safe_of_runCommand isCommand safe)).1
  · rw [← memory] at holds room
    rw [← saved] at holds
    rcases strtok_cases holds room with
      ⟨noWord, -, noToken, -⟩ | ⟨word, rest, token, words, isToken, taken⟩
    · rcases called : begun.strtok with ⟨after, value⟩
      rw [called] at noToken
      cases noToken
      rw [noWord]
      refine ⟨False.elim, iff_of_false (fun safe => ?_) (fun both => both.2)⟩
      exact (safe_strcmp.mp safe).2 (by simp)
    · rcases called : begun.strtok with ⟨after, value⟩
      rw [called] at isToken taken
      cases isToken
      rw [words]
      dsimp only
      have isCommand : (after.setArgv 0 (some token)).gArgv 0 = some token := by
        simp
      have oneWord : 32 ∉ after.memory.text token := by
        rw [taken.text]
        exact taken.oneWord
      obtain ⟨argv, safe⟩ := runCommand_runs isCommand oneWord taken.saved
        (taken.blanked.length_eq.trans room)
      rw [memory_setArgv, taken.text] at argv safe
      constructor
      · rintro ⟨few, -⟩
        exact ⟨_, if_pos few, length_complete_pos word _, argv⟩
      · rw [safe_setArgv, taken.safe, safeBegun, safeRead] at safe
        exact safe.trans (and_congr_left' (and_iff_left (by decide)))

/-- The loop is safe as long as all lines are accepted. -/
theorem safe_main (p : Process) (lines : List (UInt8 × Typed)) :
    (p.main lines).Safe ↔ p.Safe ∧ ∀ line ∈ lines, Accepted line.2 := by
  induction lines generalizing p with
  | nil => simp [main]
  | cons line lines inductionHypothesis =>
      obtain ⟨before, typed⟩ := line
      obtain ⟨running, safe⟩ := turn_runs p before typed
      rw [main, List.forall_mem_cons]
      dsimp only
      by_cases ended : (p.turn before typed).gArgv 0 = none
      · -- the process has ended, and the line was not accepted
        have notAccepted : ¬Accepted typed := by
          intro accepted
          obtain ⟨argv, -, nonempty, entries⟩ := running accepted
          obtain ⟨command, isCommand, -⟩ := entries.first nonempty
          rw [ended] at isCommand
          cases isCommand
        rw [ended, Option.isNone_none, if_pos rfl, safe]
        exact iff_of_false (fun both => notAccepted both.2)
          (fun both => notAccepted both.2.1)
      · have goesOn : ((p.turn before typed).gArgv 0).isNone = false := by
          rw [Option.isNone_eq_false_iff, Option.isSome_iff_ne_none]
          exact ended
        rw [goesOn, if_neg Bool.false_ne_true, inductionHypothesis, safe, and_assoc]

/-- The shell stores inside of its arrays and compares no null pointer exactly as long as
it accepts the lines. -/
theorem main_safe_iff (lines : List (UInt8 × Typed)) :
    (start.main lines).Safe ↔ ∀ line ∈ lines, Accepted line.2 := by
  have nothing : start.Safe := fun event present => absurd present List.not_mem_nil
  rw [safe_main]
  exact and_iff_right nothing

end Process

/-- "\n" -/
def blankLine : Typed := ⟨[10], by decide, by decide⟩

/-- 32 words and a newline. -/
def manyWords : Typed :=
  ⟨(List.replicate 32 [97, 32]).flatten ++ [10], by decide, by decide⟩

/-- `export` with an argument of 64 bytes. -/
def longExport : Typed :=
  ⟨export_ ++ 32 :: List.replicate 64 97 ++ [10], by decide, by decide⟩

/-- A blank line ends the shell, and the arrays for words and for the copy of an argument
can be overrun. -/
theorem unsafe_lines :
    ¬(Process.start.main [(0, blankLine)]).Safe ∧
      ¬(Process.start.main [(0, manyWords)]).Safe ∧
      ¬(Process.start.main [(0, longExport)]).Safe := by
  simp only [Process.safe_main, List.forall_mem_singleton, not_and]
  refine ⟨fun _ => ?_, fun _ => ?_, fun _ => ?_⟩
  · decide +kernel
  · decide +kernel
  · decide +kernel

end MyShell
end LearnInLinux
