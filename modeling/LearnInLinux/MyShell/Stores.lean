import LearnInLinux.MyShell.Spelling
import LearnInLinux.MyShell.Strtok

/-!
# Stores of the shell

The shell keeps a line in `char cmd_line[1024]`, pointers to its words in
`char *g_argv[32]` and a copy of the argument of `export` in `char g_myval[64]`, and
checks none of these bounds. A line is followed through the body of `main`, with every
store into the arrays and every pointer that is handed to `strcmp`.
-/

namespace LearnInLinux
namespace MyShell

/-! ## Stores of `CheckRedir` -/

/-- The positions that the call writes: the first character of the operator. -/
def Checked.stores (checked : Checked) : List Int :=
  match checked.returned, checked.redirStatus with
  | some position, some op => [position - op.text.length]
  | _, _ => []

/-- They make all the difference to the memory, and the loop has been there. -/
theorem checkLoop_stores (m : Memory) (left : Nat) :
    (checkLoop m left).memory =
        (checkLoop m left).stores.foldl (fun m position => m.write 0 position) m ∧
      ∀ position ∈ (checkLoop m left).stores,
        position ∈ (checkLoop m left).accesses := by
  induction left with
  | zero => exact ⟨rfl, by simp [checkLoop, Checked.stores]⟩
  | succ n inductionHypothesis =>
      rw [checkLoop]
      split
      · split
        · have position : (n : Int) + 1 - 2 = n - 1 := by omega
          simp [Checked.stores, RedirStatus.text, position]
        · simp [Checked.stores, RedirStatus.text]
      · split
        · simp [Checked.stores, RedirStatus.text]
        · refine ⟨inductionHypothesis.1, fun position present => ?_⟩
          have access := inductionHypothesis.2 position present
          exact List.mem_cons_of_mem _ (List.mem_cons_of_mem _ access)

/-- Writing NUL bytes keeps the memory as long as it is, and its NUL bytes. -/
theorem foldl_write (stores : List Int) (m : Memory) :
    (stores.foldl (fun m position => m.write 0 position) m).cells.length =
        m.cells.length ∧
      (0 ∈ m.cells →
        0 ∈ (stores.foldl (fun m position => m.write 0 position) m).cells) := by
  induction stores generalizing m with
  | nil => exact ⟨rfl, id⟩
  | cons position stores inductionHypothesis =>
      have once : (m.write 0 position).cells.length = m.cells.length ∧
          (0 ∈ m.cells → 0 ∈ (m.write 0 position).cells) := by
        cases position with
        | ofNat n =>
            refine ⟨List.length_set, fun present => ?_⟩
            obtain ⟨index, inside, isNul⟩ := List.mem_iff_getElem.mp present
            refine List.mem_iff_getElem.mpr ⟨index, by simpa [Memory.write] using inside, ?_⟩
            simp only [Memory.write, List.getElem_set]
            split
            · rfl
            · exact isNul
        | negSucc n => exact ⟨rfl, id⟩
      obtain ⟨length, kept⟩ := inductionHypothesis (m.write 0 position)
      exact ⟨length.trans once.1, fun present => kept (once.2 present)⟩

theorem length_checkRedir (m : Memory) :
    (CheckRedir m).memory.cells.length = m.cells.length := by
  change (checkLoop m _).memory.cells.length = _
  rw [(checkLoop_stores m _).1]
  exact (foldl_write _ m).1

section

variable {line : Line} {before : UInt8} {more : Bytes}

theorem holds_of_string
    {m : Memory}
    {text : Bytes}
    (terminated : 0 ∈ m.cells)
    (string : m.string 0 = text) :
    Holds m 0 text := by
  rw [Memory.string, List.drop_zero] at string
  subst string
  refine ⟨?_, Text.terminator_not_mem_cString 0 m.cells⟩
  rcases Text.cString_cases 0 m.cells with whole | ⟨rest, cut⟩
  · exact absurd terminated (Text.cString_eq_self_iff.mp whole)
  · exact ⟨[], rest, cut, rfl⟩

/-- With a `>` at the very start, the pointer writes in front of the line or cuts all of
it off. -/
theorem stores_of_first
    {rest : Bytes}
    (first : line.val = 62 :: rest)
    (plain : Plain rest)
    (before : UInt8)
    (more : Bytes) :
    (CheckRedir (line.stored before more)).stores = [-1] ∨
      ((CheckRedir (line.stored before more)).stores = [0] ∧
        (CheckRedir (line.stored before more)).memory.string 0 = []) := by
  have cells : (line.stored before more).cells = [62] ++ rest ++ 0 :: more := by
    rw [Line.stored, first]
    rfl
  have isFirst : (line.stored before more).read (0 : Nat) = 62 := by
    rw [Memory.read_natCast, cells]
    rfl
  obtain ⟨seen, -, looped⟩ := checkLoop_plain cells plain
  rw [CheckRedir, stored_string, first]
  change (Checked.stores { checkLoop _ ([62] ++ rest).length with accesses := _ }) = _ ∨
    (Checked.stores { checkLoop _ ([62] ++ rest).length with accesses := _ }) = _ ∧
      (checkLoop _ ([62] ++ rest).length).memory.string 0 = []
  rw [looped, List.length_singleton, checkLoop, isFirst, if_pos rfl]
  split
  · exact Or.inl rfl
  · refine Or.inr ⟨rfl, ?_⟩
    rw [Memory.string, Memory.write_natCast, cells]
    rfl

theorem checkRedir_first
    {rest : Bytes}
    (first : line.val = 62 :: rest)
    (plain : Plain rest) :
    (checkRedir line.val).start = [] := by
  have cut : Cut line.val [] .outputRedir rest :=
    ⟨first, plain, by simp⟩
  rw [checkRedir_of_cut cut]

/-- Either there is no command in front of the operator, or the command is left in memory
and the call writes inside of the line. -/
theorem checkRedir_cases (line : Line) (before : UInt8) (more : Bytes) :
    (checkRedir line.val).start = [] ∧
        (∃ position ∈ (CheckRedir (line.stored before more)).stores, position < 0) ∨
      Holds (CheckRedir (line.stored before more)).memory 0 (checkRedir line.val).start ∧
        ∀ position ∈ (CheckRedir (line.stored before more)).stores,
          0 ≤ position ∧ position ≤ line.val.length := by
  have written := checkLoop_stores (line.stored before more)
    ((line.stored before more).string 0).length
  have terminated : 0 ∈ (CheckRedir (line.stored before more)).memory.cells := by
    change 0 ∈ (checkLoop _ _).memory.cells
    rw [written.1]
    exact (foldl_write _ _).2 (by simp [Line.stored])
  have ofCorrect (correct : Correct line before more (CheckRedir (line.stored before more))) :
      Holds (CheckRedir (line.stored before more)).memory 0 (checkRedir line.val).start ∧
        ∀ position ∈ (CheckRedir (line.stored before more)).stores,
          0 ≤ position ∧ position ≤ line.val.length := by
    refine ⟨holds_of_string terminated correct.refines.1.symm, ?_⟩
    intro position present
    exact correct.inside position (List.mem_append_right _ (written.2 position present))
  rcases plain_or_cut line.val with plain | ⟨cmd, op, target, cut⟩
  · exact Or.inr (ofCorrect (correct_of_plain plain before more))
  · by_cases first : op = .outputRedir ∧ cmd = []
    · obtain ⟨rfl, rfl⟩ := first
      have nothing := checkRedir_first cut.line_eq cut.target_plain
      rcases stores_of_first cut.line_eq cut.target_plain before more with
        outside | ⟨atStart, empty⟩
      · exact Or.inl ⟨nothing, -1, by simp [outside], by decide⟩
      · right
        refine ⟨holds_of_string terminated (empty.trans nothing.symm), ?_⟩
        intro position present
        rw [atStart, List.mem_singleton] at present
        omega
    · refine Or.inr (ofCorrect (correct_of_cut cut ?_ before more))
      exact fun isOutput isFirst => first ⟨isOutput, isFirst⟩

end

/-! ## The process -/

/-- A `char *` of the shell. -/
inductive Pointer
  | cmdLine (position : Nat)
  | literal (text : Bytes)

/-- The string at a pointer. -/
def Memory.text (m : Memory) : Pointer → Bytes
  | .cmdLine position => m.string position
  | .literal text => text

/-- A text without blanks is not changed by the calls of `strtok`. -/
theorem Blanked.text_eq
    {m after : Memory}
    (blanked : Blanked m after)
    {pointer : Pointer}
    (noBlank : 32 ∉ m.text pointer) :
    after.text pointer = m.text pointer := by
  cases pointer with
  | cmdLine position => exact blanked.string_eq noBlank
  | literal text => rfl

/-- What the bounds of the arrays are about. -/
inductive Event
  /-- A store to `cmd_line[position]`. -/
  | cmdLine (position : Int)
  /-- A store to `g_argv[index]`. -/
  | gArgv (index : Nat)
  /-- A store to `g_myval[index]`. -/
  | gMyval (index : Nat)
  /-- `strcmp(argument, ...)` -/
  | strcmp (argument : Option Pointer)

/-- The store is in the array, and no null pointer is compared. -/
def Event.Safe : Event → Prop
  | cmdLine position => 0 ≤ position ∧ position < 1024
  | gArgv index => index < 32
  | gMyval index => index < 64
  | strcmp argument => argument ≠ none

/-- The memory of the shell and what it has done. -/
structure Process where
  /-- `cmd_line` and the byte in front of it. -/
  memory : Memory
  /-- The static pointer of `strtok`. -/
  saved : Nat
  gArgv : Nat → Option Pointer
  /-- Everything that happened so far. -/
  events : List Event

namespace Process

/-- Every store so far was inside of its array, and no null pointer was read. -/
def Safe (p : Process) : Prop :=
  ∀ event ∈ p.events, event.Safe

/-- A note of what was done. -/
def record (p : Process) (events : List Event) : Process :=
  { p with events := p.events ++ events }

/-- `g_argv[index] = value` -/
def setArgv (p : Process) (index : Nat) (value : Option Pointer) : Process :=
  { p with
    gArgv := Function.update p.gArgv index value
    events := p.events ++ [.gArgv index] }

/-- `memset` and `fgets`, with the byte that is in front of the array then. -/
def fgets (p : Process) (before : UInt8) (typed : Typed) : Process :=
  { p with
    memory := {
      before
      cells := typed.bytes ++ List.replicate (1024 - typed.bytes.length) 0 }
    events := p.events ++
      (List.range 1024 ++ List.range (typed.bytes.length + 1)).map
        fun position => .cmdLine position }

/-- `cmd_line[strlen(cmd_line)-1]='\0'` -/
def stripNewline (p : Process) : Process :=
  let position : Int := (p.memory.string 0).length - 1
  { p with
    memory := p.memory.write 0 position
    events := p.events ++ [.cmdLine position] }

/-- `checkRedir` on `cmd_line`. -/
def checkRedir (p : Process) : Process :=
  let checked := CheckRedir p.memory
  { p with
    memory := checked.memory
    events := p.events ++ checked.stores.map .cmdLine }

/-- `strtok(NULL, SEP)`, which begins at the pointer that was saved. -/
def strtok (p : Process) : Process × Option Pointer :=
  let called := p.memory.strtok p.saved
  ({ p with
    memory := called.memory
    saved := called.saved
    events := p.events ++ called.stores.map fun position => .cmdLine position },
    called.token.map .cmdLine)

/-- `strcmp(g_argv[0], word)==0` -/
def strcmp (p : Process) (word : Bytes) : Process × Bool :=
  (p.record [.strcmp (p.gArgv 0)], (p.gArgv 0).map p.memory.text == some word)

/-- The options of `ls` and `ll`. Result: the process and `index`. -/
def addOptions (p : Process) : Process × Nat :=
  let (p, isLs) := p.strcmp ls
  let (p, index) :=
    if isLs then (p.setArgv 1 (some (.literal colorAuto)), 2) else (p, 1)
  let (p, isLl) := p.strcmp ll
  if isLl then
    let p := p.setArgv 0 (some (.literal ls))
    let p := p.setArgv index (some (.literal long))
    (p.setArgv (index + 1) (some (.literal colorAuto)), index + 2)
  else (p, index)

theorem strtok_progress
    {p after : Process}
    {token : Pointer}
    (called : p.strtok = (after, some token)) :
    after.memory.cells.length - after.saved < p.memory.cells.length - p.saved := by
  rw [strtok, Prod.mk.injEq, Option.map_eq_some_iff] at called
  obtain ⟨rfl, position, isToken, -⟩ := called
  have progress := Memory.strtok_progress isToken
  dsimp only
  omega

/-- `while(g_argv[index++]=strtok(NULL,SEP));` -/
def readArguments (p : Process) (index : Nat) : Process :=
  match called : p.strtok with
  | (p, none) => p.setArgv index none
  | (p, some token) => (p.setArgv index (some token)).readArguments (index + 1)
termination_by p.memory.cells.length - p.saved
decreasing_by
  have progress := strtok_progress called
  exact progress

/-- `export` and `cd`; the copy of the argument ends with its NUL byte. -/
def runBuiltin (p : Process) : Process :=
  let (p, isExport) := p.strcmp export_
  match p.gArgv 1 with
  | none => (p.strcmp cd).1
  | some argument =>
      if isExport then
        p.record ((List.range ((p.memory.text argument).length + 1)).map .gMyval)
      else (p.strcmp cd).1

/-- The comparisons with `ls` and `ll` and what follows them. -/
def runCommand (p : Process) : Process :=
  let (p, index) := p.addOptions
  (p.readArguments index).runBuiltin

/-- One turn of the loop of `main`. A null pointer in the first comparison ends the
process. -/
def turn (p : Process) (before : UInt8) (typed : Typed) : Process :=
  let p := ((p.fgets before typed).stripNewline).checkRedir
  -- `strtok(cmd_line, SEP)` begins at the start of the array
  let (p, command) := { p with saved := 0 }.strtok
  let p := p.setArgv 0 command
  match command with
  | none => (p.strcmp ls).1
  | some _ => p.runCommand

/-- The loop of `main` over the lines that are typed, each with the byte in front of
`cmd_line` at that time. -/
def main (p : Process) : List (UInt8 × Typed) → Process
  | [] => p
  | (before, typed) :: lines =>
      let p := p.turn before typed
      if (p.gArgv 0).isNone then p else p.main lines

/-- The shell in front of its first line. -/
def start : Process where
  memory := { before := 0, cells := List.replicate 1024 0 }
  saved := 0
  gArgv := fun _ => none
  events := []

end Process

/-- The text in front of the last operator has a word, there are at most 31 words with
the options of `ls` and `ll`, and an argument of `export` has at most 63 bytes. -/
def Accepted (typed : Typed) : Prop :=
  match MyShell.strtok (MyShell.checkRedir (Text.cString 0 typed.bytes).dropLast).start with
  | [] => False
  | command :: arguments =>
      (complete command arguments).length < 32 ∧
        (command = export_ → ∀ argument ∈ arguments.head?, argument.length ≤ 63)

instance (typed : Typed) : Decidable (Accepted typed) := by
  unfold Accepted
  split
  · exact instDecidableFalse
  · infer_instance

namespace Process

/-! ## The line -/

section

variable {p : Process} {typed : Typed} {before : UInt8}

theorem safe_fgets : (p.fgets before typed).Safe ↔ p.Safe := by
  have bounded := typed.bounded
  have inside : ∀ event ∈ (List.range 1024 ++ List.range (typed.bytes.length + 1)).map
      (fun position : Nat => Event.cmdLine position), event.Safe := by
    intro event present
    obtain ⟨position, inRange, rfl⟩ := List.mem_map.mp present
    rw [List.mem_append, List.mem_range, List.mem_range] at inRange
    simp only [Event.Safe]
    omega
  rw [Safe, fgets, List.forall_mem_append]
  exact and_iff_left inside

theorem safe_stripNewline :
    p.stripNewline.Safe ↔
      p.Safe ∧ 0 < (p.memory.string 0).length ∧ (p.memory.string 0).length ≤ 1024 := by
  rw [Safe, stripNewline, List.forall_mem_append, List.forall_mem_singleton, Event.Safe]
  have bounds : (0 ≤ ((p.memory.string 0).length : Int) - 1 ∧
      ((p.memory.string 0).length : Int) - 1 < 1024) ↔
      0 < (p.memory.string 0).length ∧ (p.memory.string 0).length ≤ 1024 := by
    omega
  rw [bounds]
  rfl

theorem safe_checkRedir :
    p.checkRedir.Safe ↔
      p.Safe ∧ ∀ position ∈ (CheckRedir p.memory).stores, 0 ≤ position ∧ position < 1024 := by
  rw [Safe, checkRedir, List.forall_mem_append, List.forall_mem_map]
  rfl

/-- The text that `fgets` stored, with a NUL byte behind it. -/
theorem fgets_cells (typed : Typed) :
    ∃ more, typed.bytes ++ List.replicate (1024 - typed.bytes.length) 0 =
      Text.cString 0 typed.bytes ++ 0 :: more := by
  have bounded := typed.bounded
  obtain ⟨room, equal⟩ : ∃ room, 1024 - typed.bytes.length = room + 1 :=
    ⟨1023 - typed.bytes.length, by omega⟩
  rw [equal, List.replicate_succ]
  rcases Text.cString_cases 0 typed.bytes with whole | ⟨rest, cut⟩
  · exact ⟨_, by rw [whole]⟩
  · refine ⟨rest ++ 0 :: List.replicate room 0, ?_⟩
    rw [← List.cons_append, ← List.append_assoc, ← cut]

theorem string_fgets (p : Process) (before : UInt8) (typed : Typed) :
    (p.fgets before typed).memory.string 0 = Text.cString 0 typed.bytes := by
  obtain ⟨more, cells⟩ := fgets_cells typed
  change Text.cString 0 (typed.bytes ++ _) = _
  rw [cells, Text.cString_append_terminator_cons,
    Text.cString_eq_self (Text.terminator_not_mem_cString 0 typed.bytes)]

/-- A text that is not empty loses its last character, and nothing else is written. -/
theorem stripNewline_of_text
    (p : Process)
    (before : UInt8)
    {front : Bytes}
    {last : UInt8}
    (text : Text.cString 0 typed.bytes = front ++ [last]) :
    ((p.fgets before typed).stripNewline.Safe ↔ p.Safe) ∧
      ∃ (clean : 0 ∉ front) (more : Bytes),
        (p.fgets before typed).stripNewline.memory =
          Line.stored ⟨front, clean⟩ before more ∧
        front.length + 1 + more.length = 1024 := by
  obtain ⟨more, cells⟩ := fgets_cells typed
  have bounded := typed.bounded
  have total : (typed.bytes ++ List.replicate (1024 - typed.bytes.length) 0).length = 1024 := by
    rw [List.length_append, List.length_replicate]
    omega
  rw [text] at cells
  have length : front.length + 1 + (0 :: more).length = 1024 := by
    rw [← total, cells]
    simp only [List.length_append, List.length_cons, List.length_nil]
  rw [List.length_cons] at length
  have clean : 0 ∉ front := by
    have wholeClean := Text.terminator_not_mem_cString 0 typed.bytes
    rw [text] at wholeClean
    exact fun present => wholeClean (List.mem_append_left _ present)
  constructor
  · rw [safe_stripNewline, safe_fgets, string_fgets, text, List.length_append,
      List.length_singleton]
    exact and_iff_left (by omega)
  · have position : ((front ++ [last]).length : Int) - 1 = front.length := by
      simp
    refine ⟨clean, 0 :: more, ?_, length⟩
    rw [stripNewline, string_fgets, text]
    dsimp only
    rw [position, Memory.write_natCast, fgets]
    dsimp only
    rw [cells, List.append_assoc, List.set_append_right _ _ (Nat.le_refl _), Nat.sub_self]
    rfl

/-- The body of `main` up to `strtok`: a line without a command, or a command in memory and
stores inside of the array. -/
theorem line_cases (p : Process) (before : UInt8) (typed : Typed) :
    let read := ((p.fgets before typed).stripNewline).checkRedir
    let start := (MyShell.checkRedir (Text.cString 0 typed.bytes).dropLast).start
    (start = [] ∧ ¬read.Safe) ∨
      (Holds read.memory 0 start ∧ (read.Safe ↔ p.Safe) ∧
        read.memory.cells.length = 1024) := by
  intro read start
  rcases List.eq_nil_or_concat' (Text.cString 0 typed.bytes) with empty | ⟨front, last, text⟩
  · -- without a text, the store of the newline is in front of the array
    left
    constructor
    · change (MyShell.checkRedir (Text.cString 0 typed.bytes).dropLast).start = []
      rw [empty]
      rfl
    · rw [safe_checkRedir, safe_stripNewline, string_fgets, empty]
      rintro ⟨⟨-, positive, -⟩, -⟩
      exact absurd positive (Nat.lt_irrefl 0)
  · obtain ⟨safeStrip, clean, more, stripped, length⟩ := stripNewline_of_text p before text
    have isStart : start = (MyShell.checkRedir front).start := by
      change (MyShell.checkRedir (Text.cString 0 typed.bytes).dropLast).start = _
      rw [text, List.dropLast_concat]
    have memory : read.memory =
        (CheckRedir (Line.stored ⟨front, clean⟩ before more)).memory := by
      rw [← stripped]
      rfl
    rw [isStart, safe_checkRedir, safeStrip, stripped, memory, length_checkRedir]
    rcases checkRedir_cases ⟨front, clean⟩ before more with
      ⟨nothing, position, present, negative⟩ | ⟨holds, inside⟩
    · left
      refine ⟨nothing, fun safe => ?_⟩
      have bounds := safe.2 position present
      omega
    · right
      refine ⟨holds, and_iff_left ?_, ?_⟩
      · intro position present
        have bounds := inside position present
        dsimp only at bounds
        omega
      · rw [Line.stored, List.length_append, List.length_cons]
        dsimp only
        omega

end

end Process

end MyShell
end LearnInLinux
