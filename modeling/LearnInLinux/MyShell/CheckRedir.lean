import LearnInLinux.MyShell

/-!
# The scan for a redirection

`CheckRedir` runs a pointer from the end of the line to its beginning and looks at the
character in front of every `>`. Here it is modelled on the memory around the line, with
every position that it reads or writes; the cut of the line at its last operator is what
it is for.
-/

namespace LearnInLinux
namespace MyShell

/-! ## The pointer -/

/-- The memory from the byte in front of the line on. -/
structure Memory where
  /-- The byte at `start - 1`. -/
  before : UInt8
  /-- The bytes from `start` on. -/
  cells : Bytes

namespace Memory

/-- The character at a position of `start`. -/
def read (m : Memory) : Int → UInt8
  | .ofNat position => m.cells.getD position 0
  | .negSucc _ => m.before

/-- A store at a position of `start`. -/
def write (m : Memory) (byte : UInt8) : Int → Memory
  | .ofNat position => { m with cells := m.cells.set position byte }
  | .negSucc _ => { m with before := byte }

/-- The C string at a position of the line. -/
def string (m : Memory) (position : Nat) : Bytes :=
  Text.cString 0 (m.cells.drop position)

end Memory

/-- What a call of `CheckRedir` does. -/
structure Checked where
  memory : Memory
  /-- The positions that are read or written, counted from `start`. -/
  accesses : List Int
  /-- The value given to `redir_status`, if any. -/
  redirStatus : Option RedirStatus
  /-- The position of the pointer that is returned; none is `NULL`. -/
  returned : Option Nat

namespace Checked

/-- Behind two more looks at the character under `end`. -/
def look (n : Nat) (checked : Checked) : Checked :=
  { checked with accesses := n :: n :: checked.accesses }

end Checked

/-- The loop, with as many characters left as there are up to `end`. -/
def checkLoop (m : Memory) : (left : Nat) → Checked
  | 0 => { memory := m, accesses := [], redirStatus := none, returned := none }
  | n + 1 =>
      -- `end` is `start + n`
      if m.read n = 62 then
        if m.read (n - 1) = 62 then
          { memory := m.write 0 (n - 1), accesses := [n, n - 1, n - 1]
            redirStatus := some .appendRedir, returned := some (n + 1) }
        else
          { memory := m.write 0 n, accesses := [n, n - 1, n]
            redirStatus := some .outputRedir, returned := some (n + 1) }
      else if m.read n = 60 then
        { memory := m.write 0 n, accesses := [n, n, n]
          redirStatus := some .inputRedir, returned := some (n + 1) }
      else (checkLoop m n).look n

/-- `CheckRedir`, which begins with `strlen(start)`. -/
def CheckRedir (m : Memory) : Checked :=
  let length := (m.string 0).length
  let checked := checkLoop m length
  { checked with accesses := (List.range (length + 1)).map Int.ofNat ++ checked.accesses }

/-! ## The cut -/

/-- A line as it is in memory. -/
abbrev Line := { bytes : Bytes // 0 ∉ bytes }

/-- The line with its NUL byte between other bytes. -/
def Line.stored (line : Line) (before : UInt8) (more : Bytes) : Memory where
  before := before
  cells := line.val ++ 0 :: more

/-- How an operator is typed. -/
def RedirStatus.text : RedirStatus → Bytes
  | .inputRedir => [60]
  | .outputRedir => [62]
  | .appendRedir => [62, 62]

/-- Neither `<` nor `>`. -/
def Plain (text : Bytes) : Prop :=
  60 ∉ text ∧ 62 ∉ text

instance (text : Bytes) : Decidable (Plain text) :=
  inferInstanceAs (Decidable (_ ∧ _))

/-- The line is a command, its last operator and a target. -/
structure Cut (line cmd : Bytes) (op : RedirStatus) (target : Bytes) : Prop where
  line_eq : line = cmd ++ op.text ++ target
  target_plain : Plain target
  /-- A `>` behind a `>` is half of an operator. -/
  whole : op = .outputRedir → cmd.getLast? ≠ some 62

/-- What `CheckRedir` is for. -/
structure Correct (line : Line) (before : UInt8) (more : Bytes) (checked : Checked) :
    Prop where
  inside : ∀ position ∈ checked.accesses, 0 ≤ position ∧ position ≤ line.val.length
  null_iff : checked.returned = none ↔ Plain line.val
  unchanged : checked.returned = none → checked.memory = line.stored before more
  cut : ∀ position, checked.returned = some position → ∃ cmd op target,
    Cut line.val cmd op target ∧ checked.memory.string 0 = cmd ∧
      checked.memory.string position = target ∧ checked.redirStatus = some op

theorem plain_append {front back : Bytes} :
    Plain (front ++ back) ↔ Plain front ∧ Plain back := by
  simp only [Plain, List.mem_append, not_or]
  exact and_and_and_comm

/-- A line without an operator at its end. -/
theorem Cut.append
    {line cmd target tail : Bytes}
    {op : RedirStatus}
    (cut : Cut line cmd op target)
    (plain : Plain tail) :
    Cut (line ++ tail) cmd op (target ++ tail) := by
  refine ⟨?_, plain_append.mpr ⟨cut.target_plain, plain⟩, cut.whole⟩
  rw [cut.line_eq, List.append_assoc]

/-- Every line without a cut has no operator. -/
theorem plain_or_cut (line : Bytes) :
    Plain line ∨ ∃ cmd op target, Cut line cmd op target := by
  induction line using List.reverseRecOn with
  | nil => exact .inl ⟨List.not_mem_nil, List.not_mem_nil⟩
  | append_singleton front last inductionHypothesis =>
      by_cases input : last = 60
      · right
        refine ⟨front, .inputRedir, [], ?_, by decide, by simp⟩
        rw [input, RedirStatus.text, List.append_nil]
      · by_cases output : last = 62
        · right
          rw [output]
          by_cases double : front.getLast? = some 62
          · obtain ⟨cmd, rfl⟩ := List.getLast?_eq_some_iff.mp double
            refine ⟨cmd, .appendRedir, [], ?_, by decide, by simp⟩
            rw [RedirStatus.text, List.append_nil, List.append_assoc]
            rfl
          · refine ⟨front, .outputRedir, [], ?_, by decide, fun _ => double⟩
            rw [RedirStatus.text, List.append_nil]
        · have plain : Plain [last] := by
            simp [Plain, Ne.symm input, Ne.symm output]
          rcases inductionHypothesis with noOperator | ⟨cmd, op, target, cut⟩
          · exact .inl (plain_append.mpr ⟨noOperator, plain⟩)
          · exact .inr ⟨cmd, op, _, cut.append plain⟩

theorem Cut.not_plain
    {line cmd target : Bytes}
    {op : RedirStatus}
    (cut : Cut line cmd op target) :
    ¬ Plain line := by
  rw [cut.line_eq, plain_append, plain_append]
  rintro ⟨⟨-, plain⟩, -⟩
  revert plain
  cases op <;> decide

/-! ## Reading and writing -/

namespace Memory

variable {m : Memory} {front rest : Bytes} {byte : UInt8}

@[simp] theorem read_natCast (m : Memory) (position : Nat) :
    m.read position = m.cells.getD position 0 := rfl

@[simp] theorem write_natCast (m : Memory) (byte : UInt8) (position : Nat) :
    m.write byte position = { m with cells := m.cells.set position byte } := rfl

/-- The character behind a part of known length. -/
theorem read_of_cells (cells : m.cells = front ++ byte :: rest) :
    m.read front.length = byte := by
  rw [read_natCast, cells, List.getD_eq_getElem?_getD,
    List.getElem?_append_right (Nat.le_refl _), Nat.sub_self]
  rfl

/-- The character in front of it. -/
theorem read_pred_of_cells (cells : m.cells = front ++ byte :: rest) (after : UInt8) :
    m.read ((front ++ [after]).length - 1) = byte := by
  rw [← read_of_cells cells, List.length_append]
  congr 1
  simp

end Memory

/-! ## The loop -/

section Loop

variable {m : Memory} {front tail rest cmd : Bytes} {op : RedirStatus}

/-- The pointer passes by what is no operator. -/
theorem checkLoop_plain
    (cells : m.cells = front ++ tail ++ rest)
    (plain : Plain tail) :
    ∃ seen : List Int,
      (∀ position ∈ seen, 0 ≤ position ∧ position < (front ++ tail).length) ∧
        checkLoop m (front ++ tail).length =
          { checkLoop m front.length with
            accesses := seen ++ (checkLoop m front.length).accesses } := by
  induction tail using List.reverseRecOn generalizing rest with
  | nil =>
      refine ⟨[], by simp, ?_⟩
      rw [List.append_nil]
      rfl
  | append_singleton tail last inductionHypothesis =>
      obtain ⟨plainTail, plainLast⟩ := plain_append.mp plain
      have cellsHere : m.cells = (front ++ tail) ++ last :: rest := by
        rw [cells]
        simp
      have cellsTail : m.cells = front ++ tail ++ (last :: rest) := cellsHere
      obtain ⟨seen, inside, looped⟩ := inductionHypothesis cellsTail plainTail
      have isLast := Memory.read_of_cells cellsHere
      have notOutput : last ≠ 62 := by
        rintro rfl
        exact plainLast.2 List.mem_cons_self
      have notInput : last ≠ 60 := by
        rintro rfl
        exact plainLast.1 List.mem_cons_self
      have length : (front ++ (tail ++ [last])).length = (front ++ tail).length + 1 := by
        simp only [List.length_append, List.length_singleton]
        omega
      refine ⟨(front ++ tail).length :: (front ++ tail).length :: seen, ?_, ?_⟩
      · rw [length]
        intro position present
        simp only [List.mem_cons] at present
        rcases present with rfl | rfl | later
        · omega
        · omega
        · have bounds := inside position later
          omega
      · rw [length, checkLoop, isLast, if_neg notOutput, if_neg notInput, looped]
        rfl

/-- The pointer stops at the last operator, unless that is a `>` at the very start. -/
theorem checkLoop_operator
    (cells : m.cells = cmd ++ op.text ++ rest)
    (whole : op = .outputRedir → cmd.getLast? ≠ some 62)
    (behind : op = .outputRedir → cmd ≠ []) :
    ∃ seen : List Int,
      (∀ position ∈ seen, 0 ≤ position ∧ position < (cmd ++ op.text).length) ∧
        checkLoop m (cmd ++ op.text).length =
          { memory := m.write 0 cmd.length, accesses := seen, redirStatus := some op
            returned := some (cmd ++ op.text).length } := by
  cases op with
  | inputRedir =>
      have cellsHere : m.cells = cmd ++ 60 :: rest := by
        rw [cells]
        simp [RedirStatus.text]
      refine ⟨[cmd.length, cmd.length, cmd.length], ?_, ?_⟩
      · simp [RedirStatus.text]
      · rw [RedirStatus.text, List.length_append, List.length_singleton, checkLoop,
          Memory.read_of_cells cellsHere, if_neg (by decide), if_pos rfl]
  | outputRedir =>
      rcases List.eq_nil_or_concat' cmd with empty | ⟨before, last, rfl⟩
      · exact absurd empty (behind rfl)
      · have different : last ≠ 62 := by
          intro isOutput
          rw [isOutput] at whole
          exact whole rfl List.getLast?_concat
        have cellsHere : m.cells = (before ++ [last]) ++ 62 :: rest := by
          rw [cells]
          simp [RedirStatus.text]
        have cellsBefore : m.cells = before ++ last :: (62 :: rest) := by
          rw [cellsHere]
          simp
        refine ⟨[(before ++ [last]).length, (before ++ [last]).length - 1,
          (before ++ [last]).length], ?_, ?_⟩
        · intro position present
          simp only [List.mem_cons, List.not_mem_nil, or_false] at present
          simp only [RedirStatus.text, List.length_append, List.length_singleton]
            at present ⊢
          omega
        · rw [RedirStatus.text, List.length_append, List.length_singleton, checkLoop,
            Memory.read_of_cells cellsHere, Memory.read_pred_of_cells cellsBefore,
            if_pos rfl, if_neg different]
  | appendRedir =>
      have cellsHere : m.cells = (cmd ++ [62]) ++ 62 :: rest := by
        rw [cells]
        simp [RedirStatus.text]
      have cellsBefore : m.cells = cmd ++ 62 :: (62 :: rest) := by
        rw [cells]
        simp [RedirStatus.text]
      have length : (cmd ++ RedirStatus.appendRedir.text).length =
          (cmd ++ [62]).length + 1 := by
        simp [RedirStatus.text]
      have back : (((cmd ++ [62]).length : Int) - 1) = cmd.length := by
        simp
      refine ⟨[(cmd ++ [62]).length, cmd.length, cmd.length], ?_, ?_⟩
      · intro position present
        simp only [List.mem_cons, List.not_mem_nil, or_false] at present
        simp only [length, List.length_append, List.length_singleton] at present ⊢
        omega
      · rw [length, checkLoop, Memory.read_of_cells cellsHere,
          Memory.read_pred_of_cells cellsBefore, if_pos rfl, if_pos rfl, back]

end Loop

/-! ## The whole call -/

section Call

variable {line : Line} {before : UInt8} {more : Bytes} {cmd target : Bytes}
  {op : RedirStatus}

theorem stored_string (line : Line) (before : UInt8) (more : Bytes) :
    (line.stored before more).string 0 = line.val := by
  rw [Memory.string, List.drop_zero, Line.stored, Text.cString_append_terminator_cons,
    Text.cString_eq_self line.property]

/-- The memory behind the cut. -/
theorem string_of_write
    {m : Memory}
    (cells : m.cells = cmd ++ op.text ++ target ++ 0 :: more)
    (text : 0 ∉ cmd ++ op.text ++ target) :
    (m.write 0 cmd.length).string 0 = cmd ∧
      (m.write 0 cmd.length).string (cmd ++ op.text).length = target := by
  simp only [List.mem_append, not_or] at text
  have written : (m.write 0 cmd.length).cells =
      cmd ++ 0 :: (op.text.tail ++ target ++ 0 :: more) := by
    rw [Memory.write_natCast, cells, List.append_assoc, List.append_assoc,
      List.set_append_right _ _ (Nat.le_refl _), Nat.sub_self]
    cases op <;> simp [RedirStatus.text]
  constructor
  · rw [Memory.string, written, List.drop_zero, Text.cString_append_terminator_cons,
      Text.cString_eq_self text.1.1]
  · have dropped : (m.write 0 cmd.length).cells.drop (cmd ++ op.text).length =
        target ++ 0 :: more := by
      rw [written]
      cases op <;> simp [RedirStatus.text]
    rw [Memory.string, dropped, Text.cString_append_terminator_cons,
      Text.cString_eq_self text.2]

/-- The accesses of `strlen` stay in the line. -/
theorem mem_strlen
    {length : Nat}
    {position : Int}
    (present : position ∈ (List.range (length + 1)).map Int.ofNat) :
    0 ≤ position ∧ position ≤ length := by
  obtain ⟨index, inRange, rfl⟩ := List.mem_map.mp present
  have below := List.mem_range.mp inRange
  simp only [Int.ofNat_eq_natCast]
  omega

theorem correct_of_plain
    (plain : Plain line.val)
    (before : UInt8)
    (more : Bytes) :
    Correct line before more (CheckRedir (line.stored before more)) := by
  have cells : (line.stored before more).cells = [] ++ line.val ++ 0 :: more := rfl
  obtain ⟨seen, inside, looped⟩ := checkLoop_plain cells plain
  rw [List.nil_append] at looped inside
  have checked : CheckRedir (line.stored before more) =
      { memory := line.stored before more
        accesses := (List.range (line.val.length + 1)).map Int.ofNat ++ seen
        redirStatus := none, returned := none } := by
    rw [CheckRedir, stored_string, looped]
    simp [checkLoop]
  rw [checked]
  constructor
  · intro position present
    rcases List.mem_append.mp present with byStrlen | byLoop
    · exact mem_strlen byStrlen
    · have bounds := inside position byLoop
      omega
  · exact iff_of_true rfl plain
  · exact fun _ => rfl
  · exact fun position returned => absurd returned (by simp)

theorem correct_of_cut
    (cut : Cut line.val cmd op target)
    (behind : op = .outputRedir → cmd ≠ [])
    (before : UInt8)
    (more : Bytes) :
    Correct line before more (CheckRedir (line.stored before more)) := by
  have cells : (line.stored before more).cells =
      cmd ++ op.text ++ target ++ 0 :: more := by
    rw [Line.stored, cut.line_eq]
  have cellsFront : (line.stored before more).cells =
      cmd ++ op.text ++ (target ++ 0 :: more) := by
    rw [cells, List.append_assoc]
  obtain ⟨seen, inside, looped⟩ := checkLoop_plain cells cut.target_plain
  obtain ⟨last, insideLast, stopped⟩ := checkLoop_operator cellsFront cut.whole behind
  rw [← cut.line_eq] at looped inside
  have checked : CheckRedir (line.stored before more) =
      { memory := (line.stored before more).write 0 cmd.length
        accesses := (List.range (line.val.length + 1)).map Int.ofNat ++ (seen ++ last)
        redirStatus := some op, returned := some (cmd ++ op.text).length } := by
    rw [CheckRedir, stored_string, looped, stopped]
  have longer : (cmd ++ op.text).length ≤ line.val.length := by
    rw [cut.line_eq]
    exact (List.prefix_append _ _).length_le
  rw [checked]
  constructor
  · intro position present
    rcases List.mem_append.mp present with byStrlen | byLoop
    · exact mem_strlen byStrlen
    · rcases List.mem_append.mp byLoop with passing | atOperator
      · have bounds := inside position passing
        omega
      · have bounds := insideLast position atOperator
        omega
  · exact iff_of_false (by simp) cut.not_plain
  · exact fun returned => absurd returned (by simp)
  · intro position returned
    obtain rfl := Option.some.inj returned
    have text := line.property
    rw [cut.line_eq] at text
    obtain ⟨atStart, atTarget⟩ := string_of_write cells text
    exact ⟨cmd, op, target, cut, atStart, atTarget, rfl⟩

/-- A `>` at the very start makes the pointer look in front of the line. -/
theorem not_correct_of_first
    {rest : Bytes}
    (first : line.val = 62 :: rest)
    (plain : Plain rest)
    (before : UInt8)
    (more : Bytes) :
    ¬ Correct line before more (CheckRedir (line.stored before more)) := by
  intro correct
  have cells : (line.stored before more).cells = [62] ++ rest ++ 0 :: more := by
    rw [Line.stored, first]
    rfl
  have isFirst : (line.stored before more).read (0 : Nat) = 62 := by
    rw [Memory.read_natCast, cells]
    rfl
  obtain ⟨seen, -, looped⟩ := checkLoop_plain cells plain
  have looked : (-1 : Int) ∈ (checkLoop (line.stored before more) 1).accesses := by
    rw [checkLoop, isFirst, if_pos rfl]
    split
    · exact List.mem_cons_of_mem _ List.mem_cons_self
    · exact List.mem_cons_of_mem _ List.mem_cons_self
  have outside : (-1 : Int) ∈ (CheckRedir (line.stored before more)).accesses := by
    rw [CheckRedir, stored_string, first]
    apply List.mem_append_right
    change _ ∈ (checkLoop _ ([62] ++ rest).length).accesses
    rw [looped]
    exact List.mem_append_right _ looked
  exact absurd (correct.inside _ outside).1 (by decide)

end Call

/-- `CheckRedir` cuts the line at its last operator and stays inside of it, exactly when
the only operator is not a `>` at the very start of the line. -/
theorem checkRedir_correct_iff (line : Line) (before : UInt8) (more : Bytes) :
    Correct line before more (CheckRedir (line.stored before more)) ↔
      ¬ ∃ rest, line.val = 62 :: rest ∧ Plain rest := by
  constructor
  · rintro correct ⟨rest, first, plain⟩
    exact not_correct_of_first first plain before more correct
  · intro notFirst
    rcases plain_or_cut line.val with plain | ⟨cmd, op, target, cut⟩
    · exact correct_of_plain plain before more
    · refine correct_of_cut cut ?_ before more
      rintro rfl rfl
      exact notFirst ⟨target, cut.line_eq, cut.target_plain⟩

/-- ">f" -/
def onlyTarget : Line := ⟨[62, 102], by decide⟩

/-- With a `>` in front of the line the call even writes there, and leaves the line. -/
theorem checkRedir_outside :
    ¬ Correct onlyTarget 0 [] (CheckRedir (onlyTarget.stored 0 [])) ∧
      (CheckRedir (onlyTarget.stored 62 [])).memory =
        { before := 0, cells := [62, 102, 0] } := by
  constructor
  · exact not_correct_of_first rfl (by decide) 0 []
  · rfl

/-! ## The scan of the text -/

section Scan

variable {front tail behind line cmd target : Bytes} {op : RedirStatus}

theorem scan_plain (plain : Plain tail) :
    scan (tail ++ front) behind = scan front (tail.reverse ++ behind) := by
  induction tail generalizing behind with
  | nil => rfl
  | cons head tail inductionHypothesis =>
      obtain ⟨plainHead, plainTail⟩ := plain_append.mp (List.singleton_append ▸ plain)
      have notOutput : head ≠ 62 := by
        rintro rfl
        exact plainHead.2 List.mem_cons_self
      have notInput : head ≠ 60 := by
        rintro rfl
        exact plainHead.1 List.mem_cons_self
      have passed : scan (head :: (tail ++ front)) behind =
          scan (tail ++ front) (head :: behind) := by
        rw [scan.eq_def]
        dsimp only
        rw [if_neg notOutput, if_neg notInput]
      rw [List.cons_append, passed, inductionHypothesis plainTail, List.reverse_cons,
        List.append_assoc, List.singleton_append]

theorem plain_reverse : Plain tail.reverse ↔ Plain tail := by
  rw [Plain, List.mem_reverse, List.mem_reverse]
  rfl

theorem checkRedir_of_plain (plain : Plain line) : checkRedir line = ⟨line, none⟩ := by
  have passed : scan (line.reverse ++ []) [] = scan [] (line.reverse.reverse ++ []) :=
    scan_plain (plain_reverse.mpr plain)
  rw [List.append_nil, List.append_nil, List.reverse_reverse] at passed
  exact passed

theorem checkRedir_of_cut (cut : Cut line cmd op target) :
    checkRedir line = ⟨cmd, some (op, target)⟩ := by
  have backward : line.reverse = target.reverse ++ (op.text.reverse ++ cmd.reverse) := by
    rw [cut.line_eq, List.reverse_append, List.reverse_append]
  rw [checkRedir, backward, scan_plain (plain_reverse.mpr cut.target_plain),
    List.reverse_reverse, List.append_nil]
  have whole := cut.whole
  cases op with
  | inputRedir => simp [RedirStatus.text, scan]
  | appendRedir => simp [RedirStatus.text, scan]
  | outputRedir =>
      rcases List.eq_nil_or_concat' cmd with rfl | ⟨front, last, rfl⟩
      · rfl
      · have different : last ≠ 62 := by
          intro isOutput
          rw [isOutput] at whole
          exact whole rfl List.getLast?_concat
        simp [RedirStatus.text, scan, different]

end Scan

/-- What the call leaves in memory is what the scan of the text says. -/
theorem Correct.refines
    {line : Line}
    {before : UInt8}
    {more : Bytes}
    {checked : Checked}
    (correct : Correct line before more checked) :
    (checkRedir line.val).start = checked.memory.string 0 ∧
      (checkRedir line.val).sep = checked.returned.bind fun position =>
        checked.redirStatus.map fun status =>
          (status, checked.memory.string position) := by
  cases returned : checked.returned with
  | none =>
      rw [checkRedir_of_plain (correct.null_iff.mp returned), correct.unchanged returned,
        stored_string]
      exact ⟨rfl, rfl⟩
  | some position =>
      obtain ⟨cmd, op, target, cut, atStart, atTarget, status⟩ :=
        correct.cut position returned
      rw [checkRedir_of_cut cut, atStart, Option.bind_some, status, atTarget]
      exact ⟨rfl, rfl⟩

end MyShell
end LearnInLinux
