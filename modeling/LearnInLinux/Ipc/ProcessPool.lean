import LearnInLinux.Library.Transition
import Mathlib.Data.List.Basic
import Mathlib.Logic.Function.Basic
import Mathlib.Tactic

/-!
# The process pool

The parent makes a pipe for every child, forks the child, and keeps the write end. A
child is born with a copy of all descriptors of the parent, closes the write ends that
it finds there, and reads its commands from its own pipe. When the parent closes a write
end, the child at the other end sees the end of its input, provided that nobody else
holds the write end.
-/

namespace LearnInLinux
namespace ProcessPool

/-- The `int` of a descriptor. -/
abbrev Fd := Nat

/-- What a descriptor refers to; the pipes are numbered in the order of their
creation. -/
inductive File
  | readEnd (pipe : Nat)
  | writeEnd (pipe : Nat)
  | other

/-- The descriptors of a process. -/
abbrev Table := Fd → Option File

namespace Table

/-- `close(fd)` -/
def close (fd : Fd) (table : Table) : Table :=
  Function.update table fd none

/-- `dup2(oldfd, newfd)` -/
def dup2 (oldfd newfd : Fd) (table : Table) : Table :=
  Function.update table newfd (table oldfd)

/-- `pipe(pipefd)` -/
def pipe (number : Nat) (pipefd : Fd × Fd) (table : Table) : Table :=
  Function.update (Function.update table pipefd.1 (some (.readEnd number))) pipefd.2
    (some (.writeEnd number))

end Table

/-- What the parent knows of a child. -/
structure EndPoint where
  /-- The child, by the number of its pipe. -/
  child_id : Nat
  write_fd : Fd

/-- Where the parent is: in a turn of `createProcesses`, in `ctrlProcess`, or in a turn
of `waitProcess`. -/
inductive ParentAt
  | pipe (i : Nat)
  | fork (i : Nat) (pipefd : Fd × Fd)
  | closeRead (i : Nat) (pipefd : Fd × Fd)
  | push (i : Nat) (pipefd : Fd × Fd)
  | ctrl
  | close (turn : Nat)
  | waitpid (turn : Nat)

/-- Where a child is. -/
inductive ChildAt
  /-- In the loop over `fds`, with those that are still to come. -/
  | closing (fds : List Fd) (pipefd : Fd × Fd)
  | closeWrite (pipefd : Fd × Fd)
  | dup2 (pipefd : Fd × Fd)
  | waitCommand (pipefd : Fd × Fd)
  | closeRead (pipefd : Fd × Fd)
  | exit
  | exited

/-- The child has come to `WaitCommand`. -/
def ChildAt.reached : ChildAt → Bool
  | .closing _ _ => false
  | .closeWrite _ => false
  | .dup2 _ => false
  | _ => true

/-- `waitpid` can return for the child. -/
def ChildAt.hasExited : ChildAt → Bool
  | .exited => true
  | _ => false

/-- A child with its own descriptors. -/
structure Child where
  table : Table
  point : ChildAt

/-- The parent with its descriptors and lists, and the children that there are. -/
structure State where
  table : Table
  parentAt : ParentAt
  fds : List Fd
  endPoints : List EndPoint
  child : Nat → Option Child

/-- A step of the parent or of a child; which descriptors a pipe gets is up to the
kernel. -/
inductive Action
  | pipe (pipefd : Fd × Fd)
  | parent
  | child (number : Nat)

/-- A step of a child. It leaves `WaitCommand` when `read` returns 0 or fails. -/
def Child.step (child : Child) : Option Child :=
  match child.point with
  | .closing [] pipefd => some { child with point := .closeWrite pipefd }
  | .closing (fd :: fds) pipefd => some ⟨child.table.close fd, .closing fds pipefd⟩
  | .closeWrite pipefd => some ⟨child.table.close pipefd.2, .dup2 pipefd⟩
  | .dup2 pipefd => some ⟨child.table.dup2 pipefd.1 0, .waitCommand pipefd⟩
  | .waitCommand pipefd => some { child with point := .closeRead pipefd }
  | .closeRead pipefd => some ⟨child.table.close pipefd.1, .exit⟩
  | .exit => some ⟨fun _ => none, .exited⟩
  | .exited => none

namespace State

/-- A step of the parent with `gnum` children to create. -/
def parentStep (gnum : Nat) (s : State) : Option State :=
  match s.parentAt with
  | .pipe i => if i < gnum then none else some { s with parentAt := .ctrl }
  | .fork i pipefd =>
      some { s with
        parentAt := .closeRead i pipefd
        child := Function.update s.child i (some ⟨s.table, .closing s.fds pipefd⟩) }
  | .closeRead i pipefd =>
      some { s with parentAt := .push i pipefd, table := s.table.close pipefd.1 }
  | .push i pipefd =>
      some { s with
        parentAt := .pipe (i + 1)
        endPoints := s.endPoints ++ [⟨i, pipefd.2⟩]
        fds := s.fds ++ [pipefd.2] }
  | .ctrl => some { s with parentAt := .close 0 }
  | .close turn =>
      match s.endPoints[turn]? with
      | none => none
      | some endPoint =>
          some { s with
            parentAt := .waitpid turn
            table := s.table.close endPoint.write_fd }
  | .waitpid turn =>
      match s.endPoints[turn]? with
      | none => none
      | some endPoint =>
          match s.child endPoint.child_id with
          | none => none
          | some child =>
              if child.point.hasExited then some { s with parentAt := .close (turn + 1) }
              else none

/-- A step of a process; `none` while it is not the next one, or has to wait. -/
def act (gnum : Nat) (action : Action) (s : State) : Option State :=
  match action with
  | .pipe pipefd =>
      match s.parentAt with
      | .pipe i =>
          if i < gnum ∧ pipefd.1 ≠ pipefd.2 ∧ s.table pipefd.1 = none ∧
              s.table pipefd.2 = none then
            some { s with parentAt := .fork i pipefd, table := s.table.pipe i pipefd }
          else none
      | _ => none
  | .parent => s.parentStep gnum
  | .child number =>
      match s.child number with
      | none => none
      | some child =>
          match child.step with
          | none => none
          | some child => some { s with child := Function.update s.child number (some child) }

end State

/-- In front of `createProcesses`, with any descriptors that are no pipes of the pool. -/
structure Starts (s : State) : Prop where
  table : ∀ fd file, s.table fd = some file → file = .other
  parentAt : s.parentAt = .pipe 0
  fds : s.fds = []
  endPoints : s.endPoints = []
  child : s.child = fun _ => none

/-- All runs of the parent and its children. -/
def machine (gnum : Nat) : Transition.Machine State :=
  .ofStep Starts (State.act gnum)

/-! ## Tables -/

namespace Table

variable {table : Table} {fd other : Fd} {file : File}

/-- What is still open behind a `close`. -/
theorem close_eq_some_iff :
    table.close fd other = some file ↔ other ≠ fd ∧ table other = some file := by
  rw [close]
  exact Transition.update_none_eq_some_iff

theorem dup2_self (oldfd newfd : Fd) (table : Table) :
    table.dup2 oldfd newfd newfd = table oldfd :=
  Function.update_self ..

/-- A descriptor behind `dup2` was there before, perhaps under the other number. -/
theorem eq_some_of_dup2
    {oldfd newfd : Fd}
    (found : table.dup2 oldfd newfd other = some file) :
    table oldfd = some file ∨ table other = some file := by
  rw [dup2] at found
  by_cases same : other = newfd
  · rw [same, Function.update_self] at found
    exact .inl found
  · rw [Function.update_of_ne same] at found
    exact .inr found

variable {number : Nat} {pipefd : Fd × Fd}

/-- A new pipe brings one write end. -/
theorem pipe_writeEnd_iff
    {pipe : Nat}
    (different : pipefd.1 ≠ pipefd.2)
    (readFree : table pipefd.1 = none)
    (writeFree : table pipefd.2 = none) :
    table.pipe number pipefd other = some (.writeEnd pipe) ↔
      table other = some (.writeEnd pipe) ∨ (pipefd.2, number) = (other, pipe) := by
  rw [Table.pipe, Prod.mk.injEq]
  by_cases isWrite : other = pipefd.2
  · rw [isWrite, Function.update_self, writeFree]
    constructor
    · intro same
      exact .inr ⟨rfl, File.writeEnd.inj (Option.some.inj same)⟩
    · rintro (nothing | ⟨-, rfl⟩)
      · exact absurd nothing.symm (Option.some_ne_none _)
      · rfl
  · rw [Function.update_of_ne isWrite]
    by_cases isRead : other = pipefd.1
    · rw [isRead, Function.update_self, readFree]
      apply iff_of_false
      · exact fun same => File.noConfusion (Option.some.inj same)
      · rintro (nothing | ⟨same, -⟩)
        · exact absurd nothing.symm (Option.some_ne_none _)
        · exact different same.symm
    · rw [Function.update_of_ne isRead]
      constructor
      · exact .inl
      · rintro (found | ⟨same, -⟩)
        · exact found
        · exact absurd same.symm isWrite

/-- A new pipe brings one read end. -/
theorem pipe_readEnd_iff
    {pipe : Nat}
    (different : pipefd.1 ≠ pipefd.2)
    (readFree : table pipefd.1 = none)
    (writeFree : table pipefd.2 = none) :
    table.pipe number pipefd other = some (.readEnd pipe) ↔
      table other = some (.readEnd pipe) ∨ (pipefd.1, number) = (other, pipe) := by
  rw [Table.pipe, Prod.mk.injEq]
  by_cases isWrite : other = pipefd.2
  · rw [isWrite, Function.update_self, writeFree]
    apply iff_of_false
    · exact fun same => File.noConfusion (Option.some.inj same)
    · rintro (nothing | ⟨same, -⟩)
      · exact absurd nothing.symm (Option.some_ne_none _)
      · exact different same
  · rw [Function.update_of_ne isWrite]
    by_cases isRead : other = pipefd.1
    · rw [isRead, Function.update_self, readFree]
      constructor
      · intro same
        exact .inr ⟨rfl, File.readEnd.inj (Option.some.inj same)⟩
      · rintro (nothing | ⟨-, rfl⟩)
        · exact absurd nothing.symm (Option.some_ne_none _)
        · rfl
    · rw [Function.update_of_ne isRead]
      constructor
      · exact .inl
      · rintro (found | ⟨same, -⟩)
        · exact found
        · exact absurd same.symm isRead

/-- No descriptor is a write end. -/
def NoWriteEnd (table : Table) : Prop :=
  ∀ fd pipe, table fd ≠ some (.writeEnd pipe)

/-- Only read ends of the pipe of this number. -/
def ReadsOnly (number : Nat) (table : Table) : Prop :=
  ∀ fd pipe, table fd = some (.readEnd pipe) → pipe = number

theorem NoWriteEnd.close (noWriteEnd : table.NoWriteEnd) (fd : Fd) :
    (table.close fd).NoWriteEnd := by
  intro other pipe found
  exact noWriteEnd other pipe (close_eq_some_iff.mp found).2

theorem ReadsOnly.close (readsOnly : table.ReadsOnly number) (fd : Fd) :
    (table.close fd).ReadsOnly number := by
  intro other pipe found
  exact readsOnly other pipe (close_eq_some_iff.mp found).2

theorem NoWriteEnd.dup2 (noWriteEnd : table.NoWriteEnd) (oldfd newfd : Fd) :
    (table.dup2 oldfd newfd).NoWriteEnd := by
  intro other pipe found
  rcases eq_some_of_dup2 found with atOld | atOther
  · exact noWriteEnd oldfd pipe atOld
  · exact noWriteEnd other pipe atOther

theorem ReadsOnly.dup2 (readsOnly : table.ReadsOnly number) (oldfd newfd : Fd) :
    (table.dup2 oldfd newfd).ReadsOnly number := by
  intro other pipe found
  rcases eq_some_of_dup2 found with atOld | atOther
  · exact readsOnly oldfd pipe atOld
  · exact readsOnly other pipe atOther

end Table

/-! ## A child -/

/-- What a child holds on its way to `WaitCommand` and behind it. -/
def Child.Owns (number : Nat) (child : Child) : Prop :=
  child.table.ReadsOnly number ∧
    match child.point with
    | .closing fds pipefd =>
        (∀ fd pipe, child.table fd = some (.writeEnd pipe) → fd ∈ fds ∨ fd = pipefd.2) ∧
          child.table pipefd.1 = some (.readEnd number) ∧ pipefd.1 ∉ fds ∧
            pipefd.1 ≠ pipefd.2
    | .closeWrite pipefd =>
        (∀ fd pipe, child.table fd = some (.writeEnd pipe) → fd = pipefd.2) ∧
          child.table pipefd.1 = some (.readEnd number) ∧ pipefd.1 ≠ pipefd.2
    | .dup2 pipefd =>
        child.table.NoWriteEnd ∧ child.table pipefd.1 = some (.readEnd number)
    | .waitCommand _ => child.table.NoWriteEnd ∧ child.table 0 = some (.readEnd number)
    | _ => child.table.NoWriteEnd

/-- A child owns what it has to own on its whole way. -/
theorem Child.Owns.step
    {number : Nat}
    {child next : Child}
    (owns : child.Owns number)
    (stepped : child.step = some next) :
    next.Owns number := by
  obtain ⟨table, point⟩ := child
  cases point with
  | closing fds pipefd =>
      obtain ⟨readsOnly, writes, reads, notClosed, different⟩ := owns
      cases fds with
      | nil =>
          obtain rfl := Option.some.inj stepped
          refine ⟨readsOnly, ?_, reads, different⟩
          intro fd pipe found
          rcases writes fd pipe found with closed | own
          · exact absurd closed List.not_mem_nil
          · exact own
      | cons fd fds =>
          obtain rfl := Option.some.inj stepped
          rw [List.mem_cons, not_or] at notClosed
          refine ⟨readsOnly.close fd, ?_, ?_, notClosed.2, different⟩
          · intro other pipe found
            obtain ⟨notThis, found⟩ := Table.close_eq_some_iff.mp found
            rcases writes other pipe found with toClose | own
            · rcases List.mem_cons.mp toClose with this | later
              · exact absurd this notThis
              · exact .inl later
            · exact .inr own
          · exact Table.close_eq_some_iff.mpr ⟨notClosed.1, reads⟩
  | closeWrite pipefd =>
      obtain ⟨readsOnly, writes, reads, different⟩ := owns
      obtain rfl := Option.some.inj stepped
      refine ⟨readsOnly.close pipefd.2, ?_, ?_⟩
      · intro fd pipe found
        obtain ⟨notThis, found⟩ := Table.close_eq_some_iff.mp found
        exact notThis (writes fd pipe found)
      · exact Table.close_eq_some_iff.mpr ⟨different, reads⟩
  | dup2 pipefd =>
      obtain ⟨readsOnly, noWriteEnd, reads⟩ := owns
      obtain rfl := Option.some.inj stepped
      refine ⟨readsOnly.dup2 pipefd.1 0, noWriteEnd.dup2 pipefd.1 0, ?_⟩
      exact (Table.dup2_self pipefd.1 0 table).trans reads
  | waitCommand pipefd =>
      obtain ⟨readsOnly, noWriteEnd, -⟩ := owns
      obtain rfl := Option.some.inj stepped
      exact ⟨readsOnly, noWriteEnd⟩
  | closeRead pipefd =>
      obtain ⟨readsOnly, noWriteEnd⟩ := owns
      obtain rfl := Option.some.inj stepped
      exact ⟨readsOnly.close pipefd.1, noWriteEnd.close pipefd.1⟩
  | exit =>
      obtain rfl := Option.some.inj stepped
      refine ⟨?_, ?_⟩
      · exact fun fd pipe found => absurd found.symm (Option.some_ne_none _)
      · exact fun fd pipe found => absurd found.symm (Option.some_ne_none _)
  | exited => exact absurd stepped (by simp [Child.step])

/-- A child that has come to `WaitCommand` holds no write end. -/
theorem Child.Owns.noWriteEnd
    {number : Nat}
    {child : Child}
    (owns : child.Owns number)
    (reached : child.point.reached = true) :
    child.table.NoWriteEnd := by
  obtain ⟨table, point⟩ := child
  cases point with
  | closing fds pipefd => exact absurd reached Bool.false_ne_true
  | closeWrite pipefd => exact absurd reached Bool.false_ne_true
  | dup2 pipefd => exact absurd reached Bool.false_ne_true
  | waitCommand pipefd => exact owns.2.1
  | _ => exact owns.2

/-! ## The parent -/

namespace ParentAt

/-- The write end that is not in `fds` yet. -/
def newWrite : ParentAt → Option (Fd × Nat)
  | .fork i pipefd => some (pipefd.2, i)
  | .closeRead i pipefd => some (pipefd.2, i)
  | .push i pipefd => some (pipefd.2, i)
  | _ => none

/-- The read end that is to be closed. -/
def newRead : ParentAt → Option (Fd × Nat)
  | .fork i pipefd => some (pipefd.1, i)
  | .closeRead i pipefd => some (pipefd.1, i)
  | _ => none

/-- How many write ends `waitProcess` has closed. -/
def closed : ParentAt → Nat
  | .close turn => turn
  | .waitpid turn => turn + 1
  | _ => 0

/-- How many write ends are in `fds`. -/
def made (gnum : Nat) : ParentAt → Nat
  | .pipe i => i
  | .fork i _ => i
  | .closeRead i _ => i
  | .push i _ => i
  | _ => gnum

/-- How many turns of `createProcesses` have begun. -/
def begun (gnum : Nat) : ParentAt → Nat
  | .pipe i => i
  | .fork i _ => i + 1
  | .closeRead i _ => i + 1
  | .push i _ => i + 1
  | _ => gnum

/-- How many children there are. -/
def forked (gnum : Nat) : ParentAt → Nat
  | .pipe i => i
  | .fork i _ => i
  | .closeRead i _ => i + 1
  | .push i _ => i + 1
  | _ => gnum

/-- `createProcesses` has returned. -/
def returned : ParentAt → Bool
  | .ctrl => true
  | .close _ => true
  | .waitpid _ => true
  | _ => false

end ParentAt

namespace State

/-- Which ends of which pipes the parent and its children hold, wherever they are. -/
structure InOrder (gnum : Nat) (s : State) : Prop where
  writes : ∀ fd pipe, s.table fd = some (.writeEnd pipe) ↔
    (s.fds[pipe]? = some fd ∧ s.parentAt.closed ≤ pipe) ∨
      s.parentAt.newWrite = some (fd, pipe)
  reads : ∀ fd pipe, s.table fd = some (.readEnd pipe) ↔
    s.parentAt.newRead = some (fd, pipe)
  made : s.fds.length = s.parentAt.made gnum
  bounded : s.parentAt.begun gnum ≤ gnum
  endPoints : ∀ (turn : Nat) (endPoint : EndPoint), s.endPoints[turn]? = some endPoint →
    endPoint.child_id = turn ∧ s.fds[turn]? = some endPoint.write_fd
  sameLength : s.endPoints.length = s.fds.length
  forked : ∀ number, s.child number ≠ none ↔ number < s.parentAt.forked gnum
  owns : ∀ number child, s.child number = some child → child.Owns number

variable {gnum : Nat} {s s' : State}

/-- In front of `createProcesses` nobody holds an end of a pipe. -/
theorem InOrder.initial (starts : Starts s) : s.InOrder gnum := by
  have noPipe (fd : Fd) (file : File) (different : file ≠ .other) :
      s.table fd ≠ some file := fun found => different (starts.table fd file found)
  constructor
  · intro fd pipe
    rw [starts.parentAt, starts.fds]
    apply iff_of_false (noPipe fd _ (by simp))
    simp [ParentAt.newWrite]
  · intro fd pipe
    rw [starts.parentAt]
    apply iff_of_false (noPipe fd _ (by simp))
    simp [ParentAt.newRead]
  · rw [starts.parentAt, starts.fds]
    rfl
  · rw [starts.parentAt]
    exact Nat.zero_le gnum
  · intro turn endPoint present
    rw [starts.endPoints] at present
    exact absurd present (by simp)
  · rw [starts.endPoints, starts.fds]
    rfl
  · intro number
    rw [starts.child, starts.parentAt]
    exact iff_of_false (fun notNone => notNone rfl) (Nat.not_lt_zero number)
  · intro number child present
    rw [starts.child] at present
    exact absurd present.symm (Option.some_ne_none child)

/-- The parent holds both ends of the new pipe. -/
theorem InOrder.pipe
    {i : Nat}
    {pipefd : Fd × Fd}
    (order : s.InOrder gnum)
    (here : s.parentAt = .pipe i)
    (more : i < gnum)
    (different : pipefd.1 ≠ pipefd.2)
    (readFree : s.table pipefd.1 = none)
    (writeFree : s.table pipefd.2 = none) :
    ({ s with parentAt := .fork i pipefd, table := s.table.pipe i pipefd } :
      State).InOrder gnum := by
  obtain ⟨writes, reads, made, bounded, endPoints, sameLength, forked, owns⟩ := order
  rw [here] at made
  simp only [here] at writes reads forked
  constructor
  · intro fd pipe
    rw [Table.pipe_writeEnd_iff different readFree writeFree, writes]
    simp [ParentAt.newWrite, ParentAt.closed]
  · intro fd pipe
    rw [Table.pipe_readEnd_iff different readFree writeFree, reads]
    simp [ParentAt.newRead]
  · exact made
  · exact more
  · exact endPoints
  · exact sameLength
  · exact forked
  · exact owns

/-- A child is born with everything that the parent holds. -/
theorem InOrder.owns_fork
    {i : Nat}
    {pipefd : Fd × Fd}
    (order : s.InOrder gnum)
    (here : s.parentAt = .fork i pipefd) :
    (⟨s.table, .closing s.fds pipefd⟩ : Child).Owns i := by
  have writes := order.writes
  have reads := order.reads
  simp only [here, ParentAt.newWrite, ParentAt.newRead, ParentAt.closed, Nat.zero_le,
    and_true, Option.some.injEq, Prod.mk.injEq] at writes reads
  have ownRead : s.table pipefd.1 = some (.readEnd i) :=
    (reads pipefd.1 i).mpr ⟨rfl, rfl⟩
  have ownWrite : s.table pipefd.2 = some (.writeEnd i) :=
    (writes pipefd.2 i).mpr (.inr ⟨rfl, rfl⟩)
  refine ⟨?_, ?_, ownRead, ?_, ?_⟩
  · intro fd pipe found
    exact ((reads fd pipe).mp found).2.symm
  · intro fd pipe found
    rcases (writes fd pipe).mp found with inherited | ⟨own, -⟩
    · exact .inl (List.mem_of_getElem? inherited)
    · exact .inr own.symm
  · intro inherited
    obtain ⟨pipe, present⟩ := List.mem_iff_getElem?.mp inherited
    have isWrite := (writes pipefd.1 pipe).mpr (.inl present)
    rw [ownRead] at isWrite
    exact File.noConfusion (Option.some.inj isWrite)
  · intro same
    rw [same, ownWrite] at ownRead
    exact File.noConfusion (Option.some.inj ownRead)

/-- A child is born with everything that the parent holds. -/
theorem InOrder.fork
    {i : Nat}
    {pipefd : Fd × Fd}
    (order : s.InOrder gnum)
    (here : s.parentAt = .fork i pipefd) :
    ({ s with
       parentAt := .closeRead i pipefd
       child := Function.update s.child i (some ⟨s.table, .closing s.fds pipefd⟩) } :
      State).InOrder gnum := by
  have born := order.owns_fork here
  obtain ⟨writes, reads, made, bounded, endPoints, sameLength, forked, owns⟩ := order
  rw [here] at made bounded
  simp only [here] at writes reads forked
  constructor
  · exact writes
  · exact reads
  · exact made
  · exact bounded
  · exact endPoints
  · exact sameLength
  · intro number
    change Function.update s.child i _ number ≠ none ↔ number < i + 1
    by_cases same : number = i
    · rw [same, Function.update_self]
      exact iff_of_true (Option.some_ne_none _) (Nat.lt_succ_self i)
    · rw [Function.update_of_ne same, forked]
      change number < i ↔ _
      omega
  · intro number child present
    rcases Transition.update_some_eq_some_iff.mp present with
      ⟨rfl, rfl⟩ | ⟨-, before⟩
    · exact born
    · exact owns number child before

/-- The parent gives up the read end, of which the child has a copy. -/
theorem InOrder.closeRead
    {i : Nat}
    {pipefd : Fd × Fd}
    (order : s.InOrder gnum)
    (here : s.parentAt = .closeRead i pipefd) :
    ({ s with parentAt := .push i pipefd, table := s.table.close pipefd.1 } :
      State).InOrder gnum := by
  obtain ⟨writes, reads, made, bounded, endPoints, sameLength, forked, owns⟩ := order
  rw [here] at made bounded
  simp only [here] at writes reads forked
  have ownRead : s.table pipefd.1 = some (.readEnd i) :=
    (reads pipefd.1 i).mpr rfl
  constructor
  · intro fd pipe
    rw [Table.close_eq_some_iff, writes]
    apply and_iff_right_of_imp
    rintro found rfl
    have isWrite := (writes pipefd.1 pipe).mpr found
    rw [ownRead] at isWrite
    exact File.noConfusion (Option.some.inj isWrite)
  · intro fd pipe
    rw [Table.close_eq_some_iff, reads]
    simp only [ParentAt.newRead, Option.some.injEq, Prod.mk.injEq, reduceCtorEq, iff_false]
    rintro ⟨notThis, this, -⟩
    exact notThis this.symm
  · exact made
  · exact bounded
  · exact endPoints
  · exact sameLength
  · exact forked
  · exact owns

/-- The write end is written down with the child. -/
theorem InOrder.push
    {i : Nat}
    {pipefd : Fd × Fd}
    (order : s.InOrder gnum)
    (here : s.parentAt = .push i pipefd) :
    ({ s with
       parentAt := .pipe (i + 1)
       endPoints := s.endPoints ++ [⟨i, pipefd.2⟩]
       fds := s.fds ++ [pipefd.2] } : State).InOrder gnum := by
  obtain ⟨writes, reads, made, bounded, endPoints, sameLength, forked, owns⟩ := order
  rw [here] at made bounded
  simp only [here] at writes reads forked
  change s.fds.length = i at made
  constructor
  · intro fd pipe
    rw [writes]
    simp only [ParentAt.newWrite, ParentAt.closed, Nat.zero_le, and_true,
      Option.some.injEq, Prod.mk.injEq, reduceCtorEq, or_false]
    rw [Transition.getElem?_concat_eq_some_iff, made, eq_comm (a := i), and_comm]
  · exact reads
  · change (s.fds ++ [pipefd.2]).length = i + 1
    rw [List.length_append, made]
    rfl
  · exact bounded
  · intro turn endPoint present
    rw [Transition.getElem?_concat_eq_some_iff]
    rcases Transition.getElem?_concat_eq_some_iff.mp present with before | ⟨rfl, rfl⟩
    · obtain ⟨sameChild, atTurn⟩ := endPoints turn endPoint before
      exact ⟨sameChild, .inl atTurn⟩
    · exact ⟨made.symm.trans sameLength.symm, .inr ⟨sameLength, rfl⟩⟩
  · rw [List.length_append, List.length_append, sameLength]
    rfl
  · exact forked
  · exact owns

/-- The loop of `createProcesses` ends. -/
theorem InOrder.return
    {i : Nat}
    (order : s.InOrder gnum)
    (here : s.parentAt = .pipe i)
    (noMore : ¬ i < gnum) :
    ({ s with parentAt := .ctrl } : State).InOrder gnum := by
  obtain ⟨writes, reads, made, bounded, endPoints, sameLength, forked, owns⟩ := order
  rw [here] at made bounded
  simp only [here] at writes reads forked
  have all : i = gnum := Nat.le_antisymm bounded (Nat.not_lt.mp noMore)
  constructor
  · exact writes
  · exact reads
  · exact made.trans all
  · exact Nat.le_refl gnum
  · exact endPoints
  · exact sameLength
  · rw [← all]
    exact forked
  · exact owns

/-- A step of the parent that leaves its descriptors alone. -/
theorem InOrder.of_returned
    {point : ParentAt}
    (order : s.InOrder gnum)
    (before : s.parentAt.returned = true)
    (after : point.returned = true)
    (sameClosed : point.closed = s.parentAt.closed) :
    ({ s with parentAt := point } : State).InOrder gnum := by
  have equations (point : ParentAt) (isReturned : point.returned = true) :
      point.newWrite = none ∧ point.newRead = none ∧ point.made gnum = gnum ∧
        point.begun gnum = gnum ∧ point.forked gnum = gnum := by
    cases point with
    | ctrl => exact ⟨rfl, rfl, rfl, rfl, rfl⟩
    | close turn => exact ⟨rfl, rfl, rfl, rfl, rfl⟩
    | waitpid turn => exact ⟨rfl, rfl, rfl, rfl, rfl⟩
    | _ => exact absurd isReturned Bool.false_ne_true
  obtain ⟨newWrite, newRead, madeAll, begunAll, forkedAll⟩ := equations _ before
  obtain ⟨newWrite', newRead', madeAll', begunAll', forkedAll'⟩ := equations _ after
  constructor
  · intro fd pipe
    change _ ↔ (_ ∧ point.closed ≤ pipe) ∨ point.newWrite = _
    rw [order.writes, sameClosed, newWrite, newWrite']
  · intro fd pipe
    change _ ↔ point.newRead = _
    rw [order.reads, newRead, newRead']
  · exact order.made.trans (madeAll.trans madeAll'.symm)
  · exact Nat.le_of_eq begunAll'
  · exact order.endPoints
  · exact order.sameLength
  · intro number
    change _ ↔ number < point.forked gnum
    rw [order.forked, forkedAll, forkedAll']
  · exact order.owns

/-- The parent gives up the write end of the next child. -/
theorem InOrder.close
    {turn : Nat}
    {endPoint : EndPoint}
    (order : s.InOrder gnum)
    (here : s.parentAt = .close turn)
    (present : s.endPoints[turn]? = some endPoint) :
    ({ s with
       parentAt := .waitpid turn
       table := s.table.close endPoint.write_fd } : State).InOrder gnum := by
  obtain ⟨writes, reads, made, bounded, endPoints, sameLength, forked, owns⟩ := order
  rw [here] at made bounded
  simp only [here] at writes reads forked
  obtain ⟨-, inFds⟩ := endPoints turn endPoint present
  have ownWrite : s.table endPoint.write_fd = some (.writeEnd turn) :=
    (writes endPoint.write_fd turn).mpr (.inl ⟨inFds, Nat.le_refl turn⟩)
  constructor
  · intro fd pipe
    rw [Table.close_eq_some_iff, writes]
    change fd ≠ endPoint.write_fd ∧ ((_ ∧ turn ≤ pipe) ∨ none = some (fd, pipe)) ↔
      (_ ∧ turn + 1 ≤ pipe) ∨ none = some (fd, pipe)
    constructor
    · rintro ⟨notThis, ⟨atPipe, open'⟩ | nothing⟩
      · refine .inl ⟨atPipe, Nat.lt_of_le_of_ne open' ?_⟩
        rintro rfl
        exact notThis (Option.some.inj (atPipe.symm.trans inFds))
      · exact absurd nothing (Option.some_ne_none _).symm
    · rintro (⟨atPipe, open'⟩ | nothing)
      · refine ⟨?_, .inl ⟨atPipe, Nat.le_of_succ_le open'⟩⟩
        rintro rfl
        have isWrite := (writes endPoint.write_fd pipe).mpr
          (.inl ⟨atPipe, Nat.le_of_succ_le open'⟩)
        rw [ownWrite] at isWrite
        have same := File.writeEnd.inj (Option.some.inj isWrite)
        omega
      · exact absurd nothing (Option.some_ne_none _).symm
  · intro fd pipe
    rw [Table.close_eq_some_iff, reads]
    change _ ∧ none = some (fd, pipe) ↔ none = some (fd, pipe)
    simp
  · exact made
  · exact bounded
  · exact endPoints
  · exact sameLength
  · exact forked
  · exact owns

/-- A step of a child changes its own descriptors only. -/
theorem InOrder.child
    {number : Nat}
    {child next : Child}
    (order : s.InOrder gnum)
    (present : s.child number = some child)
    (stepped : child.step = some next) :
    ({ s with child := Function.update s.child number (some next) } :
      State).InOrder gnum := by
  obtain ⟨writes, reads, made, bounded, endPoints, sameLength, forked, owns⟩ := order
  constructor
  · exact writes
  · exact reads
  · exact made
  · exact bounded
  · exact endPoints
  · exact sameLength
  · intro other
    change Function.update s.child number (some next) other ≠ none ↔ _
    by_cases same : other = number
    · rw [same, Function.update_self, ← forked, present]
      exact iff_of_true (Option.some_ne_none _) (Option.some_ne_none _)
    · rw [Function.update_of_ne same]
      exact forked other
  · intro other otherChild otherPresent
    rcases Transition.update_some_eq_some_iff.mp otherPresent with
      ⟨rfl, rfl⟩ | ⟨-, before⟩
    · exact (owns other child present).step stepped
    · exact owns other otherChild before

/-- Every step of the parent keeps the order. -/
theorem InOrder.parentStep
    (order : s.InOrder gnum)
    (stepped : s.parentStep gnum = some s') :
    s'.InOrder gnum := by
  rw [State.parentStep] at stepped
  split at stepped
  · rename_i here
    split at stepped
    · exact absurd stepped (by simp)
    · rename_i noMore
      obtain rfl := Option.some.inj stepped
      exact order.return here noMore
  · rename_i here
    obtain rfl := Option.some.inj stepped
    exact order.fork here
  · rename_i here
    obtain rfl := Option.some.inj stepped
    exact order.closeRead here
  · rename_i here
    obtain rfl := Option.some.inj stepped
    exact order.push here
  · rename_i here
    obtain rfl := Option.some.inj stepped
    apply order.of_returned
    · rw [here]
      rfl
    · rfl
    · rw [here]
      rfl
  · rename_i turn here
    split at stepped
    · exact absurd stepped (by simp)
    · rename_i endPoint present
      obtain rfl := Option.some.inj stepped
      exact order.close here present
  · rename_i turn here
    split at stepped
    · exact absurd stepped (by simp)
    · split at stepped
      · exact absurd stepped (by simp)
      · split at stepped
        · obtain rfl := Option.some.inj stepped
          apply order.of_returned
          · rw [here]
            rfl
          · rfl
          · rw [here]
            rfl
        · exact absurd stepped (by simp)

/-- Every step keeps the order. -/
theorem InOrder.act
    {action : Action}
    (order : s.InOrder gnum)
    (acted : s.act gnum action = some s') :
    s'.InOrder gnum := by
  cases action with
  | pipe pipefd =>
      rw [State.act] at acted
      split at acted
      · rename_i i here
        split at acted
        · rename_i free
          obtain ⟨more, different, readFree, writeFree⟩ := free
          obtain rfl := Option.some.inj acted
          exact order.pipe here more different readFree writeFree
        · exact absurd acted (by simp)
      · exact absurd acted (by simp)
  | parent => exact order.parentStep acted
  | child number =>
      rw [State.act] at acted
      split at acted
      · exact absurd acted (by simp)
      · rename_i child present
        split at acted
        · exact absurd acted (by simp)
        · rename_i next stepped
          obtain rfl := Option.some.inj acted
          exact order.child present stepped

end State

/-- In every run the ends of the pipes are where they have to be. -/
theorem inOrder (gnum : Nat) : (machine gnum).Invariant (State.InOrder gnum) := by
  apply Transition.Machine.invariant_of_actions
  · exact fun s starts => State.InOrder.initial starts
  · exact fun action s s' order acted => order.act acted

/-! ## Who holds the pipes -/

/-- Who can hold a descriptor. -/
inductive Process
  | parent
  | child (number : Nat)

namespace State

/-- The process has a descriptor of the file. -/
def Holds (s : State) : Process → File → Prop
  | .parent, file => ∃ fd, s.table fd = some file
  | .child number, file =>
      ∃ child, s.child number = some child ∧ ∃ fd, child.table fd = some file

/-- Every child has come to `WaitCommand`. -/
def AllReached (s : State) : Prop :=
  ∀ number child, s.child number = some child → child.point.reached = true

/-- Every child is in `WaitCommand`. -/
def AllWaiting (s : State) : Prop :=
  ∀ number child, s.child number = some child →
    ∃ pipefd, child.point = .waitCommand pipefd

variable {gnum : Nat} {s : State}

theorem AllWaiting.reached (waiting : s.AllWaiting) : s.AllReached := by
  intro number child present
  obtain ⟨pipefd, here⟩ := waiting number child present
  rw [here]
  rfl

/-- Behind `createProcesses` no pipe is half made. -/
theorem InOrder.no_newWrite
    (returned : s.parentAt.returned = true) :
    s.parentAt.newWrite = none ∧ s.parentAt.newRead = none := by
  cases here : s.parentAt with
  | ctrl => exact ⟨rfl, rfl⟩
  | close turn => exact ⟨rfl, rfl⟩
  | waitpid turn => exact ⟨rfl, rfl⟩
  | _ =>
      rw [here] at returned
      exact absurd returned Bool.false_ne_true

/-- The parent holds no write end that `waitProcess` has closed. -/
theorem InOrder.parent_writes
    {i : Nat}
    (order : s.InOrder gnum)
    (returned : s.parentAt.returned = true)
    (holds : s.Holds .parent (.writeEnd i)) :
    s.parentAt.closed ≤ i := by
  obtain ⟨fd, found⟩ := holds
  rcases (order.writes fd i).mp found with ⟨-, open'⟩ | isNew
  · exact open'
  · rw [(no_newWrite returned).1] at isNew
    exact absurd isNew.symm (Option.some_ne_none _)

/-- The parent holds no read end behind `createProcesses`. -/
theorem InOrder.parent_reads
    {i : Nat}
    (order : s.InOrder gnum)
    (returned : s.parentAt.returned = true) :
    ¬ s.Holds .parent (.readEnd i) := by
  rintro ⟨fd, found⟩
  rw [order.reads, (no_newWrite returned).2] at found
  exact absurd found.symm (Option.some_ne_none _)

/-- A child holds read ends of its own pipe only. -/
theorem InOrder.child_reads
    {i number : Nat}
    (order : s.InOrder gnum)
    (holds : s.Holds (.child number) (.readEnd i)) :
    i = number := by
  obtain ⟨child, present, fd, found⟩ := holds
  exact (order.owns number child present).1 fd i found

/-- A child with a write end is still on its way to `WaitCommand`. -/
theorem InOrder.child_writes
    {i number : Nat}
    (order : s.InOrder gnum)
    (holds : s.Holds (.child number) (.writeEnd i)) :
    ∃ child, s.child number = some child ∧ child.point.reached = false := by
  obtain ⟨child, present, fd, found⟩ := holds
  refine ⟨child, present, ?_⟩
  apply Bool.eq_false_iff.mpr
  intro reached
  exact (order.owns number child present).noWriteEnd reached fd i found

theorem InOrder.not_child_writes
    {i number : Nat}
    (order : s.InOrder gnum)
    (reached : s.AllReached) :
    ¬ s.Holds (.child number) (.writeEnd i) := by
  intro holds
  obtain ⟨child, present, notReached⟩ := order.child_writes holds
  rw [reached number child present] at notReached
  exact Bool.false_ne_true notReached.symm

/-- Behind `createProcesses` there are all children and no others. -/
theorem InOrder.children
    (order : s.InOrder gnum)
    (returned : s.parentAt.returned = true)
    (number : Nat) :
    s.child number ≠ none ↔ number < gnum := by
  rw [order.forked]
  cases here : s.parentAt with
  | ctrl => exact Iff.rfl
  | close turn => exact Iff.rfl
  | waitpid turn => exact Iff.rfl
  | _ =>
      rw [here] at returned
      exact absurd returned Bool.false_ne_true

/-- In `ctrlProcess` the parent holds every write end. -/
theorem InOrder.holds_writeEnd
    {i : Nat}
    (order : s.InOrder gnum)
    (here : s.parentAt = .ctrl)
    (inside : i < gnum) :
    s.Holds .parent (.writeEnd i) := by
  have made := order.made
  rw [here] at made
  have inFds : i < s.fds.length := Nat.lt_of_lt_of_eq inside made.symm
  refine ⟨s.fds[i], (order.writes _ i).mpr (.inl ⟨List.getElem?_eq_getElem inFds, ?_⟩)⟩
  rw [here]
  exact Nat.zero_le i

/-- A child in `WaitCommand` holds the read end of its pipe. -/
theorem InOrder.holds_readEnd
    {i : Nat}
    (order : s.InOrder gnum)
    (here : s.parentAt = .ctrl)
    (waiting : s.AllWaiting)
    (inside : i < gnum) :
    s.Holds (.child i) (.readEnd i) := by
  have returned : s.parentAt.returned = true := by
    rw [here]
    rfl
  obtain ⟨child, present⟩ :=
    Option.ne_none_iff_exists'.mp ((order.children returned i).mpr inside)
  obtain ⟨pipefd, inCommand⟩ := waiting i child present
  have owns := order.owns i child present
  rw [Child.Owns, inCommand] at owns
  exact ⟨child, present, 0, owns.2.2⟩

/-- The pipes are where `createProcesses` and `waitProcess` need them. -/
structure Piped (gnum : Nat) (s : State) : Prop where
  children : s.parentAt.returned = true →
    ∀ number, s.child number ≠ none ↔ number < gnum
  /-- In front of `waitProcess`: two holders for every pipe. -/
  owned : s.parentAt = .ctrl → s.AllWaiting → ∀ i, i < gnum → ∀ process,
    (s.Holds process (.writeEnd i) ↔ process = .parent) ∧
      (s.Holds process (.readEnd i) ↔ process = .child i)
  /-- Later as well, nobody else has them. -/
  only : s.parentAt.returned = true → s.AllReached → ∀ i process,
    (s.Holds process (.writeEnd i) → process = .parent) ∧
      (s.Holds process (.readEnd i) → process = .child i)
  /-- The child that is waited for sees the end of its input. -/
  waitpid : ∀ turn, s.parentAt = .waitpid turn → s.AllReached →
    ∀ process, ¬ s.Holds process (.writeEnd turn)
  /-- Who still holds the write end is on its way to `WaitCommand`. -/
  onTheWay : ∀ turn, s.parentAt = .waitpid turn →
    ∀ process, s.Holds process (.writeEnd turn) →
      ∃ number child, process = .child number ∧ s.child number = some child ∧
        child.point.reached = false

end State

/-- For any number of children, and however the parent and the children take turns, the
children keep no write end of each other, so that none keeps another one alive. -/
theorem pipes_owned (gnum : Nat) : (machine gnum).Invariant (State.Piped gnum) := by
  intro s reached
  have order := inOrder gnum s reached
  have only (returned : s.parentAt.returned = true) (allReached : s.AllReached)
      (i : Nat) (process : Process) :
      (s.Holds process (.writeEnd i) → process = .parent) ∧
        (s.Holds process (.readEnd i) → process = .child i) := by
    cases process with
    | parent =>
        refine ⟨fun _ => rfl, ?_⟩
        exact fun holds => absurd holds (order.parent_reads returned)
    | child number =>
        constructor
        · exact fun holds => absurd holds (order.not_child_writes allReached)
        · intro holds
          rw [order.child_reads holds]
  constructor
  · exact order.children
  · intro here waiting i inside process
    have returned : s.parentAt.returned = true := by
      rw [here]
      rfl
    obtain ⟨writes, reads⟩ := only returned waiting.reached i process
    refine ⟨⟨writes, ?_⟩, ⟨reads, ?_⟩⟩
    · rintro rfl
      exact order.holds_writeEnd here inside
    · rintro rfl
      exact order.holds_readEnd here waiting inside
  · exact only
  · intro turn here allReached process holds
    have returned : s.parentAt.returned = true := by
      rw [here]
      rfl
    obtain rfl := (only returned allReached turn process).1 holds
    have open' := order.parent_writes returned holds
    rw [here] at open'
    exact absurd open' (Nat.not_succ_le_self turn)
  · intro turn here process holds
    cases process with
    | parent =>
        have returned : s.parentAt.returned = true := by
          rw [here]
          rfl
        have open' := order.parent_writes returned holds
        rw [here] at open'
        exact absurd open' (Nat.not_succ_le_self turn)
    | child number =>
        obtain ⟨child, present, notReached⟩ := order.child_writes holds
        exact ⟨number, child, rfl, present, notReached⟩

end ProcessPool
end LearnInLinux
