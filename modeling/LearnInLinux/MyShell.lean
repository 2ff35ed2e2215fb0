import LearnInLinux.Basic
import Mathlib.Tactic

/-!
# The export command of the shell

The shell copies the argument of `export` into the array `g_myval` and hands the array to
`putenv`. The environment keeps the pointer, not the text, so all variables that were
exported share the text of the last command.
-/

namespace LearnInLinux
namespace MyShell

/-- "export" -/
def export_ : Bytes := [101, 120, 112, 111, 114, 116]

/-- "ls" -/
def ls : Bytes := [108, 115]

/-- "ll" -/
def ll : Bytes := [108, 108]

/-- "-l" -/
def long : Bytes := [45, 108]

/-- "--color=auto" -/
def colorAuto : Bytes := [45, 45, 99, 111, 108, 111, 114, 61, 97, 117, 116, 111]

/-! ## Reading a command -/

/-- What one `fgets(cmd_line, sizeof cmd_line, stdin)` stores in the `char cmd_line[1024]`. -/
structure Typed where
  bytes : Bytes
  nonempty : bytes ≠ []
  bounded : bytes.length ≤ 1023

/-- `redir_status` -/
inductive RedirStatus
  | inputRedir
  | outputRedir
  | appendRedir
  deriving DecidableEq

/-- A command line that `CheckRedir` has cut. -/
structure Redirected where
  /-- The text in front of the operator. -/
  start : Bytes
  /-- The operator and the text behind it, when there is one. -/
  sep : Option (RedirStatus × Bytes)

/-- The loop of `CheckRedir` on the characters up to `end`, the last one first, and the
text behind `end`. -/
def scan : Bytes -> Bytes -> Redirected
  | [], behind => ⟨behind, none⟩
  | byte :: front, behind =>
      if byte = 62 then
        match front with
        | 62 :: front => ⟨front.reverse, some (.appendRedir, behind)⟩
        | front => ⟨front.reverse, some (.outputRedir, behind)⟩
      else if byte = 60 then ⟨front.reverse, some (.inputRedir, behind)⟩
      else scan front (byte :: behind)

/-- `checkRedir`, from the last character of the line to the front. -/
def checkRedir (start : Bytes) : Redirected :=
  scan start.reverse []

/-- The tokens that the calls of `strtok` with `SEP` return. -/
def strtok (text : Bytes) : List Bytes :=
  (text.splitOn 32).filter fun token => decide (token ≠ [])

/-- The words of a command with the options that the shell adds to `ls` and `ll`. -/
def complete (command : Bytes) (arguments : List Bytes) : List Bytes :=
  if command = ls then ls :: colorAuto :: arguments
  else if command = ll then ls :: long :: colorAuto :: arguments
  else command :: arguments

/-- `g_argv` in front of its null pointer. There is none for a line without a word, where
`strcmp` gets a null pointer, and for one that overruns the array. -/
def gArgv (typed : Typed) : Option (List Bytes) :=
  let cmdLine := (Text.cString 0 typed.bytes).dropLast
  match strtok (checkRedir cmdLine).start with
  | [] => none
  | command :: arguments =>
      let argv := complete command arguments
      if argv.length < 32 then some argv else none

/-! ## The environment -/

/-- The content of `char g_myval[64]`. -/
abbrev Storage := { bytes : Bytes // bytes.length = 64 }

/-- `strcpy(g_myval, text)`; there is no result for a text that does not fit. -/
def strcpy (storage : Storage) (text : Bytes) : Option Storage :=
  if fits : text.length ≤ 63 then
    some ⟨text ++ 0 :: storage.val.drop (text.length + 1), by
      rw [List.length_append, List.length_cons, List.length_drop, storage.property]
      omega⟩
  else none

/-- A pointer in `environ`. -/
inductive Entry
  | myval
  /-- A text of its own, inherited with the process. -/
  | inherited (text : Bytes)
  deriving DecidableEq

/-- The text of an entry gives a value to the name. -/
def Names (name text : Bytes) : Prop :=
  name ++ [61] <+: text

instance (name text : Bytes) : Decidable (Names name text) :=
  inferInstanceAs (Decidable (_ <+: _))

/-- What is left of the shell between two commands. -/
structure Shell where
  environ : List Entry
  myval : Storage

namespace Shell

/-- The text that an entry points to now. -/
def text (s : Shell) : Entry -> Bytes
  | .myval => Text.cString 0 s.myval.val
  | .inherited text => text

/-- The entry gives a value to the name now. -/
def names (s : Shell) (name : Bytes) (entry : Entry) : Bool :=
  decide (Names name (s.text entry))

/-- `getenv`: the text behind the equals sign of the first entry with this name. -/
def getenv (s : Shell) (name : Bytes) : Option Bytes :=
  if name = [] then none
  else (s.environ.find? (s.names name)).map fun entry =>
    (s.text entry).drop (name.length + 1)

end Shell

/-- The pointer to `g_myval` in the place of the first entry with the name, else behind
all of them. -/
def place (named : Entry -> Bool) : List Entry -> List Entry
  | [] => [.myval]
  | entry :: rest =>
      if named entry then .myval :: rest else entry :: place named rest

namespace Shell

/-- `putenv(g_myval)`; a text without `=` removes its name. -/
def putenv (s : Shell) : Shell :=
  let string := s.text .myval
  if 61 ∈ string then
    { s with environ := place (s.names (Text.cString 61 string)) s.environ }
  else
    { s with environ := s.environ.filter fun entry => !s.names string entry }

/-- One turn of the loop of `main`. The commands that are not built in, and `cd`, leave
the environment of the shell as it is. -/
def turn (s : Shell) (typed : Typed) : Option Shell := do
  let argv ← gArgv typed
  match argv with
  | command :: argument :: _ =>
      if command = export_ then do
        let myval ← strcpy s.myval argument
        return { s with myval := myval }.putenv
      else return s
  | _ => return s

/-- The shell in front of its first command. -/
def start (environ : List Bytes) : Shell where
  environ := environ.map .inherited
  myval := ⟨List.replicate 64 0, List.length_replicate⟩

end Shell

/-- A command `export NAME=VALUE` as it is typed. -/
structure Command where
  typed : Typed
  name : Bytes
  value : Bytes
  more : List Bytes
  gArgv_eq : gArgv typed = some (export_ :: (name ++ 61 :: value) :: more)
  name_ne_nil : name ≠ []
  name_clean : 61 ∉ name
  short : (name ++ 61 :: value).length ≤ 63

/-- The shell behind a sequence of commands. -/
def run (environ : List Bytes) (commands : List Command) : Option Shell :=
  (commands.map Command.typed).foldlM Shell.turn (.start environ)

/-- The value of the last export of a name. -/
def lastExport (name : Bytes) (commands : List Command) : Option Bytes :=
  (commands.reverse.find? fun command => decide (command.name = name)).map Command.value

/-- After each command `getenv` returns for every exported name its last value. -/
def Kept (environ : List Bytes) (commands : List Command) : Prop :=
  ∀ done : List Command, done <+: commands ->
    ∃ s : Shell,
      run environ done = some s ∧
        ∀ name value : Bytes,
          lastExport name done = some value -> s.getenv name = some value

/-! ## What a command exports -/

/-- Cutting a redirection off adds no character. -/
theorem mem_of_mem_scan
    {front behind : Bytes}
    {byte : UInt8}
    (present : byte ∈ (scan front behind).start) :
    byte ∈ front ∨ byte ∈ behind := by
  fun_induction scan front behind with
  | case1 behind => exact .inr present
  | case2 front behind =>
      -- `>>`
      left
      simp only [List.mem_reverse] at present
      simp [present]
  | case3 front behind _ =>
      -- `>`
      left
      simp only [List.mem_reverse] at present
      simp [present]
  | case4 front behind =>
      -- `<`
      left
      simp only [List.mem_reverse] at present
      simp [present]
  | case5 last front behind _ _ inductionHypothesis =>
      rcases inductionHypothesis present with inFront | inBehind
      · left
        exact List.mem_cons_of_mem _ inFront
      · rcases List.mem_cons.mp inBehind with rfl | later
        · left
          exact List.mem_cons_self
        · exact .inr later

theorem nul_not_mem_of_mem_strtok
    {typed : Typed}
    {token : Bytes}
    (isToken : token ∈
      strtok (checkRedir (Text.cString 0 typed.bytes).dropLast).start) :
    0 ∉ token := by
  intro present
  have isPiece := List.mem_of_mem_filter isToken
  have inStart := Text.mem_of_mem_splitOn isPiece present
  rcases mem_of_mem_scan inStart with inLine | inNothing
  · have inText := List.mem_of_mem_dropLast (List.mem_reverse.mp inLine)
    exact Text.terminator_not_mem_cString 0 typed.bytes inText
  · exact absurd inNothing (by simp)

theorem nul_not_mem_of_mem_complete
    {command : Bytes}
    {arguments : List Bytes}
    (clean : ∀ token ∈ command :: arguments, 0 ∉ token)
    {argument : Bytes}
    (present : argument ∈ complete command arguments) :
    0 ∉ argument := by
  rw [List.forall_mem_cons] at clean
  unfold complete at present
  split at present
  · simp only [List.mem_cons] at present
    rcases present with rfl | rfl | present
    · decide
    · decide
    · exact clean.2 argument present
  · split at present
    · simp only [List.mem_cons] at present
      rcases present with rfl | rfl | rfl | present
      · decide
      · decide
      · decide
      · exact clean.2 argument present
    · rcases List.mem_cons.mp present with rfl | present
      · exact clean.1
      · exact clean.2 argument present

/-- The arguments of a command are parts of a C string. -/
theorem nul_not_mem_of_mem_gArgv
    {typed : Typed}
    {argv : List Bytes}
    (read : gArgv typed = some argv)
    {argument : Bytes}
    (present : argument ∈ argv) :
    0 ∉ argument := by
  unfold gArgv at read
  dsimp only at read
  split at read
  · exact absurd read (by simp)
  · rename_i command arguments tokens
    have clean : ∀ token ∈ command :: arguments, 0 ∉ token := by
      intro token isToken
      rw [← tokens] at isToken
      exact nul_not_mem_of_mem_strtok isToken
    split at read
    · rw [Option.some.injEq] at read
      rw [← read] at present
      exact nul_not_mem_of_mem_complete clean present
    · exact absurd read (by simp)

/-- A text with a value names one name only. -/
theorem names_iff
    {name other : Bytes}
    (name_clean : 61 ∉ name)
    (value : Bytes)
    (other_clean : 61 ∉ other) :
    Names other (name ++ 61 :: value) ↔ other = name := by
  constructor
  · rintro ⟨rest, equal⟩
    have cut := congrArg (Text.cString 61) equal
    rw [List.append_assoc, List.singleton_append, Text.cString_append_terminator_cons,
      Text.cString_append_terminator_cons, Text.cString_eq_self other_clean,
      Text.cString_eq_self name_clean] at cut
    exact cut
  · rintro rfl
    exact ⟨value, by simp⟩

theorem strcpy_eq
    (storage : Storage)
    {text : Bytes}
    (short : text.length ≤ 63)
    (clean : 0 ∉ text) :
    ∃ copy : Storage,
      strcpy storage text = some copy ∧ Text.cString 0 copy.val = text := by
  unfold strcpy
  rw [dif_pos short]
  refine ⟨_, rfl, ?_⟩
  rw [Text.cString_append_terminator_cons, Text.cString_eq_self clean]

theorem mem_place
    {named : Entry -> Bool}
    {entries : List Entry}
    {entry : Entry}
    (present : entry ∈ place named entries) :
    entry = .myval ∨ entry ∈ entries := by
  induction entries with
  | nil =>
      left
      exact List.mem_singleton.mp present
  | cons head rest inductionHypothesis =>
      rw [place] at present
      split at present
      · rcases List.mem_cons.mp present with rfl | later
        · exact .inl rfl
        · exact .inr (List.mem_cons_of_mem _ later)
      · rcases List.mem_cons.mp present with rfl | later
        · exact .inr (by simp)
        · exact (inductionHypothesis later).imp_right (List.mem_cons_of_mem _)

/-- In front of the new pointer no entry has the name. -/
theorem find?_place
    {named : Entry -> Bool}
    (namesMyval : named .myval = true)
    (entries : List Entry) :
    (place named entries).find? named = some .myval := by
  induction entries with
  | nil => rw [place, List.find?_cons_of_pos namesMyval]
  | cons head rest inductionHypothesis =>
      rw [place]
      split
      · rw [List.find?_cons_of_pos namesMyval]
      · rename_i unnamed
        rw [List.find?_cons_of_neg unnamed]
        exact inductionHypothesis

theorem Shell.putenv_eq
    {s : Shell}
    {name value : Bytes}
    (text_eq : s.text .myval = name ++ 61 :: value)
    (name_clean : 61 ∉ name) :
    s.putenv = { s with environ := place (s.names name) s.environ } := by
  have assignment : 61 ∈ name ++ 61 :: value := by simp
  unfold Shell.putenv
  rw [text_eq]
  simp only
  rw [if_pos assignment, Text.cString_append_terminator_cons,
    Text.cString_eq_self name_clean]

/-- One export: the array holds the argument and the environment a pointer to it. -/
theorem turn_command (s : Shell) (command : Command) :
    ∃ s' : Shell,
      s.turn command.typed = some s' ∧
        s'.text .myval = command.name ++ 61 :: command.value ∧
          s'.environ = place (s'.names command.name) s.environ := by
  have clean : 0 ∉ command.name ++ 61 :: command.value := by
    apply nul_not_mem_of_mem_gArgv command.gArgv_eq
    simp
  obtain ⟨myval, copied, myval_text⟩ := strcpy_eq s.myval command.short clean
  have text_eq : ({ s with myval := myval } : Shell).text .myval =
      command.name ++ 61 :: command.value := myval_text
  have put := Shell.putenv_eq text_eq command.name_clean
  refine ⟨({ s with myval := myval } : Shell).putenv, ?_, ?_, ?_⟩
  · unfold Shell.turn
    rw [command.gArgv_eq]
    simp only [Option.bind_eq_bind, Option.bind_some, if_true, copied]
    rfl
  · rw [put]
    exact text_eq
  · rw [put]
    rfl

namespace Shell

/-- Directly behind an export its own name has its value. -/
theorem getenv_of_place
    {s : Shell}
    {entries : List Entry}
    {name value : Bytes}
    (name_ne_nil : name ≠ [])
    (text_eq : s.text .myval = name ++ 61 :: value)
    (environ_eq : s.environ = place (s.names name) entries) :
    s.getenv name = some value := by
  have namesMyval : s.names name .myval = true := by
    unfold names
    rw [text_eq, decide_eq_true_eq]
    exact ⟨value, by simp⟩
  rw [getenv, if_neg name_ne_nil, environ_eq, find?_place namesMyval, Option.map_some,
    text_eq, Option.some.injEq, List.append_cons]
  exact List.drop_left' (by simp)

end Shell

theorem run_concat (environ : List Bytes) (commands : List Command) (last : Command) :
    run environ (commands ++ [last]) =
      (run environ commands).bind fun s => s.turn last.typed := by
  unfold run
  rw [List.map_append, List.foldlM_append]
  apply Option.bind_congr
  intro s _
  exact bind_pure _

/-- Every sequence of commands runs to its end. -/
theorem run_eq (environ : List Bytes) (commands : List Command) :
    ∃ s : Shell, run environ commands = some s := by
  induction commands using List.reverseRecOn with
  | nil => exact ⟨_, rfl⟩
  | append_singleton commands last inductionHypothesis =>
      obtain ⟨s, ran⟩ := inductionHypothesis
      obtain ⟨s', turned, -⟩ := turn_command s last
      refine ⟨s', ?_⟩
      rw [run_concat, ran, Option.bind_some, turned]

/-- The last command of a run, taken apart. -/
theorem run_concat_eq
    {environ : List Bytes}
    {commands : List Command}
    {last : Command}
    {s' : Shell}
    (ran : run environ (commands ++ [last]) = some s') :
    ∃ s : Shell,
      run environ commands = some s ∧
        s'.text .myval = last.name ++ 61 :: last.value ∧
          s'.environ = place (s'.names last.name) s.environ := by
  obtain ⟨s, ranBefore⟩ := run_eq environ commands
  obtain ⟨next, turned, text_eq, environ_eq⟩ := turn_command s last
  rw [run_concat, ranBefore, Option.bind_some, turned, Option.some.injEq] at ran
  rw [← ran]
  exact ⟨s, ranBefore, text_eq, environ_eq⟩

/-! ## Which exports are kept -/

/-- All commands export one name. -/
def SameName (commands : List Command) : Prop :=
  ∀ first ∈ commands, ∀ second ∈ commands, first.name = second.name

@[simp] theorem lastExport_nil (name : Bytes) : lastExport name [] = none := rfl

theorem lastExport_concat (name : Bytes) (commands : List Command) (last : Command) :
    lastExport name (commands ++ [last]) =
      if last.name = name then some last.value else lastExport name commands := by
  unfold lastExport
  rw [List.reverse_append, List.reverse_singleton, List.singleton_append]
  split
  · rename_i isLast
    rw [List.find?_cons_of_pos (by simp [isLast]), Option.map_some]
  · rename_i notLast
    rw [List.find?_cons_of_neg (by simp [notLast])]

theorem exists_of_lastExport
    {name value : Bytes}
    {commands : List Command}
    (exported : lastExport name commands = some value) :
    ∃ command ∈ commands, command.name = name := by
  unfold lastExport at exported
  rw [Option.map_eq_some_iff] at exported
  obtain ⟨command, found, -⟩ := exported
  refine ⟨command, ?_, ?_⟩
  · exact List.mem_reverse.mp (List.mem_of_find?_eq_some found)
  · simpa using List.find?_some found

theorem lastExport_ne_none
    {command : Command}
    {commands : List Command}
    (present : command ∈ commands) :
    lastExport command.name commands ≠ none := by
  unfold lastExport
  rw [Ne, Option.map_eq_none_iff, List.find?_eq_none]
  intro absent
  exact absent command (List.mem_reverse.mpr present) (by simp)

/-- One name exported again and again always has its last value. -/
theorem kept_of_sameName
    {commands : List Command}
    (same : SameName commands)
    (environ : List Bytes) :
    Kept environ commands := by
  intro done isPrefix
  obtain ⟨s, ran⟩ := run_eq environ done
  refine ⟨s, ran, ?_⟩
  intro name value exported
  rcases List.eq_nil_or_concat' done with rfl | ⟨before, last, rfl⟩
  · exact absurd exported (by simp)
  · obtain ⟨command, present, named⟩ := exists_of_lastExport exported
    have sameAsLast : last.name = name := by
      rw [← named]
      exact same last (isPrefix.subset (by simp)) command (isPrefix.subset present)
    rw [lastExport_concat, if_pos sameAsLast, Option.some.injEq] at exported
    obtain ⟨before, -, text_eq, environ_eq⟩ := run_concat_eq ran
    rw [← sameAsLast, ← exported]
    exact Shell.getenv_of_place last.name_ne_nil text_eq environ_eq

/-- No inherited text gives a value to the name. -/
def Free (name : Bytes) (entries : List Entry) : Prop :=
  ∀ text : Bytes, .inherited text ∈ entries -> ¬ Names name text

/-- No name stands twice in the environment. -/
def Distinct (environ : List Bytes) : Prop :=
  environ.Pairwise fun first second => ∀ name : Bytes, Names name first -> ¬ Names name second

theorem Free.place
    {name : Bytes}
    {entries : List Entry}
    (free : Free name entries)
    (named : Entry -> Bool) :
    Free name (place named entries) := by
  intro text present
  rcases mem_place present with equal | before
  · exact absurd equal (by simp)
  · exact free text before

/-- The first export of a name takes the place of its only inherited text. -/
theorem free_place_of_distinct
    {environ : List Bytes}
    (distinct : Distinct environ)
    (s : Shell)
    (name : Bytes) :
    Free name (place (s.names name) (environ.map .inherited)) := by
  induction environ with
  | nil =>
      intro text present
      exact absurd (List.mem_singleton.mp present) (by simp)
  | cons head rest inductionHypothesis =>
      obtain ⟨different, distinctRest⟩ := List.pairwise_cons.mp distinct
      intro text present
      rw [List.map_cons, MyShell.place] at present
      split at present
      · rename_i named
        rcases List.mem_cons.mp present with equal | later
        · exact absurd equal (by simp)
        · obtain ⟨other, inRest, equal⟩ := List.mem_map.mp later
          rw [Entry.inherited.injEq] at equal
          rw [← equal]
          exact different other inRest name (of_decide_eq_true named)
      · rename_i unnamed
        rcases List.mem_cons.mp present with equal | later
        · rw [Entry.inherited.injEq] at equal
          rw [equal]
          intro names
          exact unnamed (decide_eq_true names)
        · exact inductionHypothesis distinctRest text later

/-- Behind its export no text but the one in the array gives a value to a name. -/
theorem free_of_run
    {environ : List Bytes}
    (distinct : Distinct environ)
    {first : Command}
    {others : List Command}
    {s : Shell}
    (ran : run environ (first :: others) = some s) :
    Free first.name s.environ := by
  induction others using List.reverseRecOn generalizing s with
  | nil =>
      rw [← List.nil_append [first]] at ran
      obtain ⟨before, ranBefore, -, environ_eq⟩ := run_concat_eq ran
      have atStart : Shell.start environ = before := Option.some.inj ranBefore
      rw [environ_eq, ← atStart]
      exact free_place_of_distinct distinct s first.name
  | append_singleton others last inductionHypothesis =>
      rw [← List.cons_append] at ran
      obtain ⟨before, ranBefore, -, environ_eq⟩ := run_concat_eq ran
      rw [environ_eq]
      exact (inductionHypothesis ranBefore).place _

/-- An export of another name takes the value away. -/
theorem getenv_eq_none_of_export
    {environ : List Bytes}
    (distinct : Distinct environ)
    {first last : Command}
    (differ : first.name ≠ last.name)
    {others : List Command}
    {s : Shell}
    (ran : run environ (first :: (others ++ [last])) = some s) :
    s.getenv first.name = none := by
  have free := free_of_run distinct ran
  rw [← List.cons_append] at ran
  obtain ⟨-, -, text_eq, -⟩ := run_concat_eq ran
  unfold Shell.getenv
  rw [if_neg first.name_ne_nil, Option.map_eq_none_iff, List.find?_eq_none]
  intro entry present named
  have names := of_decide_eq_true named
  cases entry with
  | myval =>
      rw [text_eq] at names
      exact differ ((names_iff last.name_clean last.value first.name_clean).mp names)
  | inherited text => exact free text present names

theorem sameName_of_kept
    {environ : List Bytes}
    (distinct : Distinct environ)
    {commands : List Command}
    (kept : Kept environ commands) :
    SameName commands := by
  rcases commands with _ | ⟨first, others⟩
  · simp [SameName]
  · have sameAsFirst : ∀ other ∈ others, first.name = other.name := by
      intro other present
      by_contra differ
      obtain ⟨before, after, rfl⟩ := List.append_of_mem present
      obtain ⟨s, ran, values⟩ := kept (first :: (before ++ [other])) ⟨after, by simp⟩
      have lost := getenv_eq_none_of_export distinct differ ran
      rcases exported : lastExport first.name (first :: (before ++ [other])) with
        _ | value
      · exact lastExport_ne_none (by simp) exported
      · have found := values first.name value exported
        rw [lost] at found
        exact absurd found (by simp)
    intro one onePresent two twoPresent
    rcases List.mem_cons.mp onePresent with rfl | oneLater
    · rcases List.mem_cons.mp twoPresent with rfl | twoLater
      · rfl
      · exact sameAsFirst two twoLater
    · rcases List.mem_cons.mp twoPresent with rfl | twoLater
      · exact (sameAsFirst one oneLater).symm
      · exact (sameAsFirst one oneLater).symm.trans (sameAsFirst two twoLater)

/-- The exported values are kept exactly when all commands export one name: whatever the
shell has inherited, and in every environment in which no name stands twice. -/
theorem kept_iff (commands : List Command) :
    ((∀ environ : List Bytes, Kept environ commands) ↔ SameName commands) ∧
      ∀ environ : List Bytes,
        Distinct environ -> (Kept environ commands ↔ SameName commands) := by
  have perEnviron (environ : List Bytes) (distinct : Distinct environ) :
      Kept environ commands ↔ SameName commands :=
    ⟨sameName_of_kept distinct, fun same => kept_of_sameName same environ⟩
  refine ⟨?_, perEnviron⟩
  constructor
  · intro kept
    exact (perEnviron [] List.Pairwise.nil).mp (kept [])
  · exact kept_of_sameName

/-- `export A=1` -/
def exportA : Command where
  typed := ⟨export_ ++ [32, 65, 61, 49, 10], by decide, by decide⟩
  name := [65]
  value := [49]
  more := []
  gArgv_eq := by decide +kernel
  name_ne_nil := by decide
  name_clean := by decide
  short := by decide

/-- `export B=2` -/
def exportB : Command where
  typed := ⟨export_ ++ [32, 66, 61, 50, 10], by decide, by decide⟩
  name := [66]
  value := [50]
  more := []
  gArgv_eq := by decide +kernel
  name_ne_nil := by decide
  name_clean := by decide
  short := by decide

/-- `HOME=/` -/
def home : Bytes := [72, 79, 77, 69, 61, 47]

/-- The second of two variables takes the first one's value away. -/
theorem first_export_lost :
    (∃ s : Shell,
      run [home] [exportA, exportB] = some s ∧ s.getenv exportA.name = none) ∧
        ¬ Kept [home] [exportA, exportB] := by
  have distinct : Distinct [home] := List.pairwise_singleton _ home
  have differ : exportA.name ≠ exportB.name := by decide
  obtain ⟨s, ran⟩ := run_eq [home] [exportA, exportB]
  refine ⟨⟨s, ran, ?_⟩, ?_⟩
  · rw [← List.nil_append [exportB]] at ran
    exact getenv_eq_none_of_export distinct differ ran
  · intro kept
    have same := sameName_of_kept distinct kept
    exact differ (same exportA (by simp) exportB (by simp))

end MyShell
end LearnInLinux
