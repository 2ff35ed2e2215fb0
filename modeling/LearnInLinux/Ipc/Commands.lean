import LearnInLinux.Ipc.ProcessPool
import Mathlib.Data.List.Range
import Mathlib.Tactic

/-!
# The commands of the process pool

`ctrlProcess` hands the commands chosen at the menu to the children in turn, each
through the pipe of its child, and `waitProcess` closes the pipes one after the other
and waits for the children. The descriptors and the places of the processes are those of
the pool without commands. Here the pipes have contents, a child leaves its loop where
its `read` sees the end of the input or fails, and the parent is killed where it writes
to a pipe that has no reader.
-/

namespace LearnInLinux
namespace ProcessPool

/-! ## Tasks -/

/-- The functions that a child can call. -/
inductive Job
  | PrintLog
  | InsertMySQL
  | NetRequest
  deriving DecidableEq

/-- What the constructor of `Task` pushes. -/
def funcs : List Job :=
  [.PrintLog, .InsertMySQL, .NetRequest]

/-- `t.Execute(command)`, with the function that it calls. -/
def Execute (command : Int) : Option Job :=
  if 0 ≤ command ∧ command < funcs.length then funcs[command.toNat]? else none

/-- Every command that the menu accepts is a task. -/
theorem exists_job
    {command : Int}
    (lower : 0 ≤ command)
    (upper : command ≤ 2) :
    ∃ job, Execute command = some job := by
  have known : command = 0 ∨ command = 1 ∨ command = 2 := by omega
  rcases known with rfl | rfl | rfl
  · exact ⟨.PrintLog, rfl⟩
  · exact ⟨.InsertMySQL, rfl⟩
  · exact ⟨.NetRequest, rfl⟩

/-! ## The pool at work -/

/-- The processes with what is in the pipes and what has become of the commands. -/
structure Pool where
  processes : State
  cnt : Nat
  /-- `index` and `command` in front of `write`. -/
  inHand : Option (Nat × Int)
  /-- The commands in every pipe. -/
  content : Nat → List Int
  /-- The commands taken at the menu. -/
  chosen : List Int
  /-- Those that have been written, with their `index`. -/
  dispatched : List (Nat × Int)
  /-- Those that a child has given to `Execute`. -/
  executed : Nat → List Int
  /-- A `read` of the child has failed. -/
  failed : Nat → Bool
  /-- The parent has been killed by a write without a reader. -/
  killed : Bool

/-- A step of the program with its commands. -/
inductive Event
  /-- A step outside `ctrlProcess` and `WaitCommand`. -/
  | process (action : Action)
  /-- `ShowBoard` returns. -/
  | choose (command : Int)
  | write
  | broken
  | read (number : Nat)
  | endOfFile (number : Nat)
  | readError (number : Nat)

/-- The child is in `WaitCommand`. -/
def ChildAt.inCommand : ChildAt → Bool
  | .waitCommand _ => true
  | _ => false

namespace Pool

/-- A living process has a descriptor of the file. -/
def Holds (s : Pool) : Process → File → Prop
  | .parent, file => s.killed = false ∧ s.processes.Holds .parent file
  | .child number, file => s.processes.Holds (.child number) file

/-- The pipe behind descriptor 0 of a child in `WaitCommand`. -/
def reads (s : Pool) (number : Nat) : Option Nat :=
  match s.processes.child number with
  | some ⟨table, .waitCommand _⟩ =>
      match table 0 with
      | some (.readEnd pipe) => some pipe
      | _ => none
  | _ => none

/-- The pipe behind `end_points[index]._write_fd`. -/
def writes (s : Pool) (index : Nat) : Option Nat :=
  match s.processes.endPoints[index]? with
  | none => none
  | some endPoint =>
      match s.processes.table endPoint.write_fd with
      | some (.writeEnd pipe) => some pipe
      | _ => none

/-- The process is neither at the menu nor in `WaitCommand`. -/
def outside (s : Pool) : Action → Bool
  | .pipe _ => !s.killed
  | .parent =>
      match s.processes.parentAt with
      | .ctrl => false
      | _ => !s.killed
  | .child number =>
      match s.processes.child number with
      | none => false
      | some child => !child.point.inCommand

/-- `ShowBoard` is the next call of the parent. -/
def atMenu (s : Pool) : Bool :=
  match s.processes.parentAt with
  | .ctrl => s.inHand.isNone && !s.killed
  | _ => false

/-- The descriptors and the places go on. -/
def follow (gnum : Nat) (action : Action) (s : Pool) : Option Pool :=
  (s.processes.act gnum action).map fun processes => { s with processes := processes }

/-- The body of the loop of `ctrlProcess`, up to `write`. -/
def ctrlProcess (gnum : Nat) (command : Int) (s : Pool) : Option Pool :=
  if command = 3 then s.follow gnum .parent
  else if command < 0 ∨ 2 < command then some s
  -- `cnt %= end_points.size()` traps without children
  else if s.processes.endPoints.length = 0 then none
  else
    some { s with
      cnt := (s.cnt + 1) % s.processes.endPoints.length
      inHand := some (s.cnt, command)
      chosen := s.chosen ++ [command] }

/-- `write` hands the command over to the pipe. -/
def put (pipe : Nat) (sent : Nat × Int) (s : Pool) : Pool :=
  { s with
    inHand := none
    content := Function.update s.content pipe (s.content pipe ++ [sent.2])
    dispatched := s.dispatched ++ [sent] }

/-- `read` takes a command out of the pipe, and `Execute` is called with it. -/
def take (number pipe : Nat) (command : Int) (rest : List Int) (s : Pool) : Pool :=
  { s with
    content := Function.update s.content pipe rest
    executed := Function.update s.executed number (s.executed number ++ [command]) }

/-- What the processes do. -/
def act (gnum room : Nat) (event : Event) (s : Pool) : Option Pool :=
  match event with
  | .process action => if s.outside action then s.follow gnum action else none
  | .choose command => if s.atMenu then s.ctrlProcess gnum command else none
  | .write =>
      match s.inHand with
      | none => none
      | some sent =>
          match s.writes sent.1 with
          | none => none
          | some pipe =>
              -- a pipe that is full blocks the parent
              if s.killed = false ∧ (s.content pipe).length < room then some (s.put pipe sent)
              else none
  | .broken =>
      match s.inHand with
      | none => none
      | some _ => if s.killed then none else some { s with killed := true }
  | .read number =>
      match s.reads number with
      | none => none
      | some pipe =>
          match s.content pipe with
          | [] => none
          | command :: rest => some (s.take number pipe command rest)
  | .endOfFile number =>
      match s.reads number with
      | none => none
      | some pipe => if s.content pipe = [] then s.follow gnum (.child number) else none
  | .readError number =>
      match s.reads number with
      | none => none
      | some _ =>
          (s.follow gnum (.child number)).map fun next =>
            { next with failed := Function.update s.failed number true }

/-- What the kernel looks at over all processes. -/
def Allowed (s : Pool) : Event → Prop
  | .write => ∃ sent pipe process, s.inHand = some sent ∧ s.writes sent.1 = some pipe ∧
      s.Holds process (.readEnd pipe)
  | .broken => ∃ sent pipe, s.inHand = some sent ∧ s.writes sent.1 = some pipe ∧
      ∀ process, ¬ s.Holds process (.readEnd pipe)
  | .endOfFile number => ∀ pipe, s.reads number = some pipe →
      ∀ process, ¬ s.Holds process (.writeEnd pipe)
  | _ => True

open Classical in
/-- What the processes do where the kernel lets them. -/
noncomputable def step (gnum room : Nat) (event : Event) (s : Pool) : Option Pool :=
  if s.Allowed event then s.act gnum room event else none

/-- In front of `createProcesses`. -/
structure Starts (s : Pool) : Prop where
  processes : ProcessPool.Starts s.processes
  cnt : s.cnt = 0
  inHand : s.inHand = none
  content : s.content = fun _ => []
  chosen : s.chosen = []
  dispatched : s.dispatched = []
  executed : s.executed = fun _ => []
  failed : s.failed = fun _ => false
  killed : s.killed = false

/-- All runs of the pool with pipes that have room for so many commands. -/
noncomputable def machine (gnum room : Nat) : Transition.Machine Pool :=
  .ofStep Starts (step gnum room)

/-! ## What a step can do -/

/-- The steps of the pool, with what holds in front of them. -/
inductive Move (gnum : Nat) (s : Pool) : Event → Pool → Prop
  | process {action : Action} {processes : State}
      (outside : s.outside action = true)
      (acted : s.processes.act gnum action = some processes) :
      Move gnum s (.process action) { s with processes := processes }
  | leave {processes : State}
      (menu : s.atMenu = true)
      (acted : s.processes.act gnum .parent = some processes) :
      Move gnum s (.choose 3) { s with processes := processes }
  | refuse {command : Int}
      (menu : s.atMenu = true) :
      Move gnum s (.choose command) s
  | choose {command : Int}
      (menu : s.atMenu = true)
      (lower : 0 ≤ command)
      (upper : command ≤ 2)
      (children : s.processes.endPoints.length ≠ 0) :
      Move gnum s (.choose command)
        { s with
          cnt := (s.cnt + 1) % s.processes.endPoints.length
          inHand := some (s.cnt, command)
          chosen := s.chosen ++ [command] }
  | write {sent : Nat × Int} {pipe : Nat}
      (inHand : s.inHand = some sent)
      (writes : s.writes sent.1 = some pipe)
      (alive : s.killed = false) :
      Move gnum s .write (s.put pipe sent)
  | broken {sent : Nat × Int} {pipe : Nat}
      (inHand : s.inHand = some sent)
      (writes : s.writes sent.1 = some pipe)
      (alive : s.killed = false)
      (noReader : ∀ process, ¬ s.Holds process (.readEnd pipe)) :
      Move gnum s .broken { s with killed := true }
  | read {number pipe : Nat} {command : Int} {rest : List Int}
      (reads : s.reads number = some pipe)
      (content : s.content pipe = command :: rest) :
      Move gnum s (.read number) (s.take number pipe command rest)
  | endOfFile {number pipe : Nat} {processes : State}
      (reads : s.reads number = some pipe)
      (content : s.content pipe = [])
      (noWriter : ∀ process, ¬ s.Holds process (.writeEnd pipe))
      (acted : s.processes.act gnum (.child number) = some processes) :
      Move gnum s (.endOfFile number) { s with processes := processes }
  | readError {number pipe : Nat} {processes : State}
      (reads : s.reads number = some pipe)
      (acted : s.processes.act gnum (.child number) = some processes) :
      Move gnum s (.readError number)
        { s with
          processes := processes
          failed := Function.update s.failed number true }

variable {gnum room : Nat} {s s' : Pool} {event : Event}

/-- A step outside of the commands is one of the processes. -/
theorem follow_eq_some_iff {action : Action} :
    s.follow gnum action = some s' ↔
      ∃ processes, s.processes.act gnum action = some processes ∧
        { s with processes := processes } = s' := by
  rw [follow, Option.map_eq_some_iff]

/-- What a number typed at the menu can do. -/
theorem move_of_ctrlProcess
    {command : Int}
    (menu : s.atMenu = true)
    (stepped : s.ctrlProcess gnum command = some s') :
    Move gnum s (.choose command) s' := by
  rw [ctrlProcess] at stepped
  split at stepped
  · rename_i isLeave
    obtain ⟨processes, acted, rfl⟩ := follow_eq_some_iff.mp stepped
    rw [isLeave]
    exact .leave menu acted
  · split at stepped
    · obtain rfl := Option.some.inj stepped
      exact .refuse menu
    · obtain ⟨children, taken⟩ := Option.ite_none_left_eq_some.mp stepped
      obtain rfl := Option.some.inj taken
      exact .choose menu (by omega) (by omega) children

/-- An allowed step is one of the moves. -/
theorem move_of_act
    (allowed : s.Allowed event)
    (acted : s.act gnum room event = some s') :
    Move gnum s event s' := by
  cases event with
  | process action =>
      obtain ⟨outside, followed⟩ := Option.ite_none_right_eq_some.mp acted
      obtain ⟨processes, moved, rfl⟩ := follow_eq_some_iff.mp followed
      exact .process outside moved
  | choose command =>
      obtain ⟨menu, chosen⟩ := Option.ite_none_right_eq_some.mp acted
      exact move_of_ctrlProcess menu chosen
  | write =>
      obtain ⟨sent, pipe, process, inHand, writes, -⟩ := allowed
      simp only [act, inHand, writes] at acted
      obtain ⟨⟨alive, -⟩, put⟩ := Option.ite_none_right_eq_some.mp acted
      obtain rfl := Option.some.inj put
      exact .write inHand writes alive
  | broken =>
      obtain ⟨sent, pipe, inHand, writes, noReader⟩ := allowed
      rw [act] at acted
      split at acted
      · exact absurd acted (by simp)
      · obtain ⟨alive, killed⟩ := Option.ite_none_left_eq_some.mp acted
        obtain rfl := Option.some.inj killed
        exact .broken inHand writes (Bool.eq_false_iff.mpr alive) noReader
  | read number =>
      simp only [act] at acted
      split at acted
      · exact absurd acted (by simp)
      · rename_i pipe reads
        split at acted
        · exact absurd acted (by simp)
        · rename_i command rest content
          obtain rfl := Option.some.inj acted
          exact .read reads content
  | endOfFile number =>
      simp only [act] at acted
      split at acted
      · exact absurd acted (by simp)
      · rename_i pipe reads
        obtain ⟨content, followed⟩ := Option.ite_none_right_eq_some.mp acted
        obtain ⟨processes, moved, rfl⟩ := follow_eq_some_iff.mp followed
        exact .endOfFile reads content (allowed pipe reads) moved
  | readError number =>
      simp only [act] at acted
      split at acted
      · exact absurd acted (by simp)
      · rename_i pipe reads
        obtain ⟨next, followed, rfl⟩ := Option.map_eq_some_iff.mp acted
        obtain ⟨processes, moved, rfl⟩ := follow_eq_some_iff.mp followed
        exact .readError reads moved

/-- A step of the pool is one of the moves. -/
theorem move_of_step (stepped : s.step gnum room event = some s') : Move gnum s event s' := by
  obtain ⟨allowed, acted⟩ := Option.ite_none_right_eq_some.mp stepped
  exact move_of_act allowed acted

end Pool

/-! ## The processes -/

namespace ParentAt

/-- How many children `waitpid` has returned for. -/
def waited : ParentAt → Nat
  | .close turn => turn
  | .waitpid turn => turn
  | _ => 0

end ParentAt

/-- It is the parent that takes the step. -/
def Action.ofParent : Action → Bool
  | .child _ => false
  | _ => true

/-- The child has left `WaitCommand`. -/
def ChildAt.ended : ChildAt → Bool
  | .closeRead _ => true
  | .exit => true
  | .exited => true
  | _ => false

namespace Child

variable {number : Nat} {child next : Child}

/-- A child in `WaitCommand` has not ended. -/
theorem not_ended_of_inCommand (here : child.point.inCommand = true) :
    child.point.ended = false := by
  obtain ⟨table, point⟩ := child
  cases point with
  | waitCommand pipefd => rfl
  | _ => exact absurd here Bool.false_ne_true

/-- A child ends in `WaitCommand`. -/
theorem ended_of_step
    (stepped : child.step = some next)
    (outside : child.point.inCommand = false)
    (ended : next.point.ended = true) :
    child.point.ended = true := by
  obtain ⟨table, point⟩ := child
  cases point with
  | closing fds pipefd =>
      cases fds with
      | nil =>
          obtain rfl := Option.some.inj stepped
          exact absurd ended Bool.false_ne_true
      | cons fd fds =>
          obtain rfl := Option.some.inj stepped
          exact absurd ended Bool.false_ne_true
  | closeWrite pipefd =>
      obtain rfl := Option.some.inj stepped
      exact absurd ended Bool.false_ne_true
  | dup2 pipefd =>
      obtain rfl := Option.some.inj stepped
      exact absurd ended Bool.false_ne_true
  | waitCommand pipefd => exact Bool.noConfusion outside
  | closeRead pipefd => rfl
  | exit => rfl
  | exited => rfl

/-- A child that has exited takes no step. -/
theorem not_exited_of_step (stepped : child.step = some next) :
    ¬ child.point.hasExited = true := by
  obtain ⟨table, point⟩ := child
  cases point with
  | exited => exact absurd stepped (by simp [Child.step])
  | _ => exact Bool.false_ne_true

/-- The kernel closes what a child still has when it exits. -/
theorem empty_of_step
    (stepped : child.step = some next)
    (exited : next.point.hasExited = true) :
    next.table = fun _ => none := by
  obtain ⟨table, point⟩ := child
  cases point with
  | exit =>
      obtain rfl := Option.some.inj stepped
      rfl
  | closing fds pipefd =>
      cases fds with
      | nil =>
          obtain rfl := Option.some.inj stepped
          exact Bool.noConfusion exited
      | cons fd fds =>
          obtain rfl := Option.some.inj stepped
          exact Bool.noConfusion exited
  | exited => exact absurd stepped (by simp [Child.step])
  | _ =>
      obtain rfl := Option.some.inj stepped
      exact Bool.noConfusion exited

/-- Until it leaves `WaitCommand`, a child can be written to. -/
theorem Owns.reads_of_not_ended
    (owns : child.Owns number)
    (notEnded : child.point.ended = false) :
    ∃ fd, child.table fd = some (.readEnd number) := by
  obtain ⟨table, point⟩ := child
  cases point with
  | closing fds pipefd => exact ⟨_, owns.2.2.1⟩
  | closeWrite pipefd => exact ⟨_, owns.2.2.1⟩
  | dup2 pipefd => exact ⟨_, owns.2.2⟩
  | waitCommand pipefd => exact ⟨_, owns.2.2⟩
  | _ => exact Bool.noConfusion notEnded

end Child

namespace State

/-- The steps of the processes, by what they do to the children. -/
inductive Change (s : State) : Action → State → Prop
  | child {number : Nat} {before next : Child}
      (present : s.child number = some before)
      (stepped : before.step = some next) :
      Change s (.child number)
        { s with child := Function.update s.child number (some next) }
  | fork {i : Nat} {pipefd : Fd × Fd}
      (here : s.parentAt = .fork i pipefd) :
      Change s .parent
        { s with
          parentAt := .closeRead i pipefd
          child := Function.update s.child i (some ⟨s.table, .closing s.fds pipefd⟩) }
  | waitpid {turn : Nat} {endPoint : EndPoint} {child : Child}
      (here : s.parentAt = .waitpid turn)
      (atTurn : s.endPoints[turn]? = some endPoint)
      (present : s.child endPoint.child_id = some child)
      (exited : child.point.hasExited = true) :
      Change s .parent { s with parentAt := .close (turn + 1) }
  | parent {action : Action} {table : Table} {point : ParentAt} {fds : List Fd}
      {endPoints : List EndPoint}
      (own : action.ofParent = true)
      (sameWaited : point.waited = s.parentAt.waited)
      (closed : s.parentAt.closed ≤ point.closed)
      (inside : ∀ turn, point = .waitpid turn → turn < endPoints.length) :
      Change s action ⟨table, point, fds, endPoints, s.child⟩

variable {gnum : Nat} {s s' : State} {action : Action}

/-- What a step of the parent changes. -/
theorem change_of_parentStep (stepped : s.parentStep gnum = some s') :
    Change s .parent s' := by
  rw [parentStep] at stepped
  split at stepped
  · rename_i i here
    obtain ⟨-, left⟩ := Option.ite_none_left_eq_some.mp stepped
    obtain rfl := Option.some.inj left
    exact .parent rfl (by rw [here]; rfl) (by rw [here]; rfl) (by simp)
  · rename_i here
    obtain rfl := Option.some.inj stepped
    exact .fork here
  · rename_i here
    obtain rfl := Option.some.inj stepped
    exact .parent rfl (by rw [here]; rfl) (by rw [here]; rfl) (by simp)
  · rename_i here
    obtain rfl := Option.some.inj stepped
    exact .parent rfl (by rw [here]; rfl) (by rw [here]; rfl) (by simp)
  · rename_i here
    obtain rfl := Option.some.inj stepped
    exact .parent rfl (by rw [here]; rfl) (by rw [here]; rfl) (by simp)
  · rename_i turn here
    split at stepped
    · exact absurd stepped (by simp)
    · rename_i endPoint atTurn
      obtain rfl := Option.some.inj stepped
      refine .parent rfl (by rw [here]; rfl) ?_ ?_
      · rw [here]
        exact Nat.le_succ turn
      · rintro other same
        obtain rfl := ParentAt.waitpid.inj same
        exact (List.getElem?_eq_some_iff.mp atTurn).1
  · rename_i turn here
    split at stepped
    · exact absurd stepped (by simp)
    · rename_i endPoint atTurn
      split at stepped
      · exact absurd stepped (by simp)
      · rename_i child present
        obtain ⟨exited, left⟩ := Option.ite_none_right_eq_some.mp stepped
        obtain rfl := Option.some.inj left
        exact .waitpid here atTurn present exited

/-- What a step of the processes changes. -/
theorem change_of_act (acted : s.act gnum action = some s') : Change s action s' := by
  cases action with
  | pipe pipefd =>
      rw [act] at acted
      split at acted
      · rename_i i here
        obtain ⟨-, made⟩ := Option.ite_none_right_eq_some.mp acted
        obtain rfl := Option.some.inj made
        exact .parent rfl (by rw [here]; rfl) (by rw [here]; rfl) (by simp)
      · exact absurd acted (by simp)
  | parent => exact change_of_parentStep acted
  | child number =>
      rw [act] at acted
      split at acted
      · exact absurd acted (by simp)
      · rename_i before present
        split at acted
        · exact absurd acted (by simp)
        · rename_i next stepped
          obtain rfl := Option.some.inj acted
          exact .child present stepped

/-- What `waitProcess` and the exits have come to. -/
structure Reaped (s : State) : Prop where
  waited : ∀ number, number < s.parentAt.waited →
    ∃ child, s.child number = some child ∧ child.point.hasExited = true
  inside : ∀ turn, s.parentAt = .waitpid turn → turn < s.endPoints.length
  empty : ∀ number child, s.child number = some child → child.point.hasExited = true →
    child.table = fun _ => none

/-- The parent closes one pipe after the other. -/
theorem Change.closed_le (change : Change s action s') :
    s.parentAt.closed ≤ s'.parentAt.closed := by
  cases change with
  | child present stepped => exact Nat.le_refl _
  | fork here =>
      rw [here]
      exact Nat.le_refl 0
  | waitpid here atTurn present exited =>
      rw [here]
      exact Nat.le_refl _
  | parent own sameWaited closed inside => exact closed

/-- The parent goes on behind `waitpid` only when the child has exited. -/
theorem Change.reaped
    (change : Change s action s')
    (order : s.InOrder gnum)
    (reaped : s.Reaped) :
    s'.Reaped := by
  cases change with
  | child present stepped =>
      rename_i number before next
      constructor
      · intro other inside
        obtain ⟨child, atOther, exited⟩ := reaped.waited other inside
        refine ⟨child, ?_, exited⟩
        rw [← atOther]
        apply Function.update_of_ne
        rintro rfl
        obtain rfl := Option.some.inj (atOther.symm.trans present)
        exact absurd exited (Child.not_exited_of_step stepped)
      · exact reaped.inside
      · intro other child atOther exited
        rcases Transition.update_some_eq_some_iff.mp atOther with ⟨rfl, rfl⟩ | ⟨-, same⟩
        · exact Child.empty_of_step stepped exited
        · exact reaped.empty other child same exited
  | fork here =>
      constructor
      · exact fun number inside => absurd inside (Nat.not_lt_zero number)
      · exact fun turn same => ParentAt.noConfusion same
      · intro number child present exited
        rcases Transition.update_some_eq_some_iff.mp present with ⟨rfl, rfl⟩ | ⟨-, same⟩
        · exact Bool.noConfusion exited
        · exact reaped.empty number child same exited
  | waitpid here atTurn present exited =>
      rename_i turn endPoint child
      constructor
      · intro number inside
        rcases Nat.lt_succ_iff_lt_or_eq.mp inside with earlier | rfl
        · exact reaped.waited number (by rw [here]; exact earlier)
        · obtain ⟨same, -⟩ := order.endPoints number endPoint atTurn
          rw [same] at present
          exact ⟨child, present, exited⟩
      · exact fun turn same => ParentAt.noConfusion same
      · exact reaped.empty
  | parent own sameWaited closed inside =>
      constructor
      · intro number less
        exact reaped.waited number (Nat.lt_of_lt_of_eq less sameWaited)
      · exact inside
      · exact reaped.empty

end State

namespace Pool

variable {gnum room : Nat} {s s' : Pool} {event : Event}

/-- The pool follows the processes that it is made of. -/
theorem Move.processes (move : Move gnum s event s') :
    s'.processes = s.processes ∨
      ∃ action, s.processes.act gnum action = some s'.processes := by
  cases move with
  | process outside acted => exact .inr ⟨_, acted⟩
  | leave menu acted => exact .inr ⟨_, acted⟩
  | endOfFile reads content noWriter acted => exact .inr ⟨_, acted⟩
  | readError reads acted => exact .inr ⟨_, acted⟩
  | _ => exact .inl rfl

/-- Behind the commands the processes run as without them. -/
theorem reachable_processes (reached : (machine gnum room).Reachable s) :
    (ProcessPool.machine gnum).Reachable s.processes := by
  apply reached.map
  · exact fun s starts => starts.processes
  · rintro s s' - ⟨event, stepped⟩
    exact (move_of_step stepped).processes

/-- The processes of a pool are in order. -/
theorem inOrder_processes (reached : (machine gnum room).Reachable s) :
    s.processes.InOrder gnum :=
  inOrder gnum s.processes (reachable_processes reached)

/-- In all runs of the processes the children waited for have exited. -/
theorem reaped (gnum : Nat) : (ProcessPool.machine gnum).Invariant State.Reaped := by
  apply Transition.Machine.invariant_of_steps
  · intro s starts
    constructor
    · intro number inside
      rw [starts.parentAt] at inside
      exact absurd inside (Nat.not_lt_zero number)
    · intro turn same
      rw [starts.parentAt] at same
      exact ParentAt.noConfusion same
    · intro number child present
      rw [starts.child] at present
      exact absurd present.symm (Option.some_ne_none child)
  · rintro s s' reached reaped ⟨action, acted⟩
    exact (State.change_of_act acted).reaped (inOrder gnum s reached) reaped

/-! ## Pipes and descriptors -/

/-- A child in `WaitCommand` reads from its own pipe. -/
theorem reads_eq
    {number pipe : Nat}
    (order : s.processes.InOrder gnum)
    (reads : s.reads number = some pipe) :
    pipe = number ∧
      ∃ child, s.processes.child number = some child ∧ child.point.inCommand = true := by
  rw [Pool.reads] at reads
  split at reads
  · rename_i table pipefd present
    have atZero : table 0 = some (.readEnd number) :=
      (order.owns number _ present).2.2
    rw [atZero] at reads
    exact ⟨(Option.some.inj reads).symm, _, present, rfl⟩
  · exact absurd reads (by simp)

/-- At the menu the parent knows all its children. -/
theorem length_endPoints
    (order : s.processes.InOrder gnum)
    (here : s.processes.parentAt = .ctrl) :
    s.processes.endPoints.length = gnum := by
  rw [order.sameLength, order.made, here]
  rfl

/-- The parent writes to the pipe of the child with this index. -/
theorem writes_eq
    {index pipe : Nat}
    (order : s.processes.InOrder gnum)
    (here : s.processes.parentAt = .ctrl)
    (writes : s.writes index = some pipe) :
    pipe = index ∧ index < gnum := by
  rw [Pool.writes] at writes
  split at writes
  · exact absurd writes (by simp)
  · rename_i endPoint present
    obtain ⟨-, inFds⟩ := order.endPoints index endPoint present
    have ownWrite : s.processes.table endPoint.write_fd = some (.writeEnd index) := by
      apply (order.writes endPoint.write_fd index).mpr
      refine .inl ⟨inFds, ?_⟩
      rw [here]
      exact Nat.zero_le index
    rw [ownWrite] at writes
    refine ⟨(Option.some.inj writes).symm, ?_⟩
    rw [← length_endPoints order here]
    exact (List.getElem?_eq_some_iff.mp present).1

/-- As long as `waitProcess` has not closed it, the parent holds the write end of the
pipe of a child. -/
theorem parent_writes
    {number : Nat}
    {child : Child}
    (order : s.processes.InOrder gnum)
    (present : s.processes.child number = some child)
    (notClosed : s.processes.parentAt.closed ≤ number) :
    s.processes.Holds .parent (.writeEnd number) := by
  have inside : number < s.processes.parentAt.forked gnum := by
    apply (order.forked number).mp
    rw [present]
    exact Option.some_ne_none child
  have made := order.made
  have or_new : number < s.processes.fds.length ∨
      ∃ fd, s.processes.parentAt.newWrite = some (fd, number) := by
    rw [made]
    cases here : s.processes.parentAt with
    | closeRead i pipefd =>
        rw [here] at inside
        rcases Nat.lt_succ_iff_lt_or_eq.mp inside with earlier | rfl
        · exact .inl earlier
        · exact .inr ⟨pipefd.2, rfl⟩
    | push i pipefd =>
        rw [here] at inside
        rcases Nat.lt_succ_iff_lt_or_eq.mp inside with earlier | rfl
        · exact .inl earlier
        · exact .inr ⟨pipefd.2, rfl⟩
    | _ =>
        rw [here] at inside
        exact .inl inside
  rcases or_new with inFds | ⟨fd, isNew⟩
  · refine ⟨s.processes.fds[number], (order.writes _ number).mpr (.inl ⟨?_, notClosed⟩)⟩
    exact List.getElem?_eq_getElem inFds
  · exact ⟨fd, (order.writes fd number).mpr (.inr isNew)⟩

/-! ## What becomes of the commands -/

/-- The commands written for a child. -/
def sentTo (s : Pool) (number : Nat) : List Int :=
  s.dispatched.filterMap fun sent => if sent.1 = number then some sent.2 else none

/-- A command goes to the child that it was chosen for. -/
theorem sentTo_put (pipe : Nat) (sent : Nat × Int) (number : Nat) :
    (s.put pipe sent).sentTo number =
      s.sentTo number ++ if sent.1 = number then [sent.2] else [] := by
  rw [sentTo, put, List.filterMap_append]
  by_cases same : sent.1 = number
  · rw [if_pos same, List.filterMap_cons_some (by rw [if_pos same]), List.filterMap_nil]
    rfl
  · rw [if_neg same, List.filterMap_cons_none (by rw [if_neg same]), List.filterMap_nil]
    rfl

/-- The commands are given out in turn, and each of them is in one place. -/
structure Sound (gnum : Nat) (s : Pool) : Prop where
  inHand : ∀ sent, s.inHand = some sent →
    s.processes.parentAt = .ctrl ∧ sent.1 = s.dispatched.length % gnum ∧ sent.1 < gnum
  cnt : s.cnt = s.chosen.length % gnum
  chosen : s.chosen = s.dispatched.map Prod.snd ++ (s.inHand.map Prod.snd).toList
  known : ∀ command ∈ s.chosen, 0 ≤ command ∧ command ≤ 2
  inTurn : s.dispatched.map Prod.fst = (List.range s.dispatched.length).map (· % gnum)
  accounted : ∀ number, s.sentTo number = s.executed number ++ s.content number
  ended : ∀ number child, s.processes.child number = some child →
    child.point.ended = true → s.failed number = false →
      s.content number = [] ∧ (s.killed = true ∨ number < s.processes.parentAt.closed)
  killed : s.killed = true → ∃ number, s.failed number = true

/-- In the beginning there are no commands. -/
theorem sound_of_starts (starts : Starts s) : s.Sound gnum := by
  constructor
  · intro sent inHand
    rw [starts.inHand] at inHand
    exact absurd inHand.symm (Option.some_ne_none sent)
  · rw [starts.cnt, starts.chosen]
    exact (Nat.zero_mod gnum).symm
  · rw [starts.chosen, starts.dispatched, starts.inHand]
    rfl
  · intro command present
    rw [starts.chosen] at present
    exact absurd present List.not_mem_nil
  · rw [starts.dispatched]
    rfl
  · intro number
    rw [sentTo, starts.dispatched, starts.executed, starts.content]
    rfl
  · intro number child present
    rw [starts.processes.child] at present
    exact absurd present.symm (Option.some_ne_none child)
  · intro killed
    rw [starts.killed] at killed
    exact absurd killed Bool.false_ne_true

namespace Sound

/-- The processes go on, and no child leaves `WaitCommand`. -/
theorem follow
    {action : Action}
    {processes : State}
    (sound : s.Sound gnum)
    (inHand : s.inHand = none ∨ ∃ number, action = .child number)
    (change : State.Change s.processes action processes)
    (outside : ∀ number child, action = .child number →
      s.processes.child number = some child → child.point.inCommand = false) :
    ({ s with processes := processes } : Pool).Sound gnum := by
  have closed := change.closed_le
  constructor
  · intro sent present
    obtain ⟨here, index⟩ := sound.inHand sent present
    rcases inHand with nothing | ⟨number, rfl⟩
    · exact absurd (present.symm.trans nothing) (Option.some_ne_none sent)
    · refine ⟨?_, index⟩
      cases change with
      | child atNumber stepped => exact here
      | parent own sameWaited closed inside => exact Bool.noConfusion own
  · exact sound.cnt
  · exact sound.chosen
  · exact sound.known
  · exact sound.inTurn
  · exact sound.accounted
  · intro number child present ended notFailed
    have kept (before : s.processes.child number = some child) := by
      obtain ⟨empty, nothingMore⟩ := sound.ended number child before ended notFailed
      exact And.intro empty (nothingMore.imp_right fun less => Nat.lt_of_lt_of_le less closed)
    cases change with
    | child atNumber stepped =>
        rcases Transition.update_some_eq_some_iff.mp present with ⟨rfl, rfl⟩ | ⟨-, before⟩
        · rename_i before next
          have wasEnded := Child.ended_of_step stepped
            (outside _ before rfl atNumber) ended
          obtain ⟨empty, nothingMore⟩ := sound.ended _ before atNumber wasEnded notFailed
          exact ⟨empty, nothingMore.imp_right fun less => Nat.lt_of_lt_of_le less closed⟩
        · exact kept before
    | fork here =>
        rcases Transition.update_some_eq_some_iff.mp present with ⟨rfl, rfl⟩ | ⟨-, before⟩
        · exact Bool.noConfusion ended
        · exact kept before
    | waitpid here atTurn atChild exited => exact kept present
    | parent own sameWaited closed inside => exact kept present
  · exact sound.killed

/-- A command is chosen for the child whose turn it is. -/
theorem choose
    {command : Int}
    (sound : s.Sound gnum)
    (order : s.processes.InOrder gnum)
    (here : s.processes.parentAt = .ctrl)
    (nothing : s.inHand = none)
    (lower : 0 ≤ command)
    (upper : command ≤ 2)
    (children : s.processes.endPoints.length ≠ 0) :
    ({ s with
       cnt := (s.cnt + 1) % s.processes.endPoints.length
       inHand := some (s.cnt, command)
       chosen := s.chosen ++ [command] } : Pool).Sound gnum := by
  have written : s.chosen = s.dispatched.map Prod.snd := by
    rw [sound.chosen, nothing]
    exact List.append_nil _
  constructor
  · intro sent present
    obtain rfl := Option.some.inj present
    have index : s.cnt = s.dispatched.length % gnum := by
      rw [sound.cnt, written, List.length_map]
    refine ⟨here, index, ?_⟩
    rw [length_endPoints order here] at children
    change s.cnt < gnum
    rw [index]
    exact Nat.mod_lt _ (Nat.pos_of_ne_zero children)
  · change (s.cnt + 1) % s.processes.endPoints.length = (s.chosen ++ [command]).length % gnum
    rw [length_endPoints order here, sound.cnt, Nat.mod_add_mod, List.length_append]
    rfl
  · change s.chosen ++ [command] = s.dispatched.map Prod.snd ++ [command]
    rw [written]
  · intro other present
    rcases List.mem_append.mp present with before | new
    · exact sound.known other before
    · obtain rfl := List.mem_singleton.mp new
      exact ⟨lower, upper⟩
  · exact sound.inTurn
  · exact sound.accounted
  · exact sound.ended
  · exact sound.killed

/-- The command in hand goes into the pipe of its child. -/
theorem write
    {sent : Nat × Int}
    {pipe : Nat}
    (sound : s.Sound gnum)
    (order : s.processes.InOrder gnum)
    (inHand : s.inHand = some sent)
    (writes : s.writes sent.1 = some pipe)
    (alive : s.killed = false) :
    (s.put pipe sent).Sound gnum := by
  obtain ⟨here, index, -⟩ := sound.inHand sent inHand
  obtain ⟨rfl, inside⟩ := writes_eq order here writes
  constructor
  · intro other present
    exact absurd present.symm (Option.some_ne_none other)
  · exact sound.cnt
  · change s.chosen = (s.dispatched ++ [sent]).map Prod.snd ++ []
    rw [sound.chosen, inHand, List.map_append, List.append_nil]
    rfl
  · exact sound.known
  · change (s.dispatched ++ [sent]).map Prod.fst =
      (List.range (s.dispatched ++ [sent]).length).map (· % gnum)
    rw [List.map_append, sound.inTurn, List.length_append, List.length_singleton,
      List.range_succ, List.map_append, List.map_singleton, List.map_singleton, index]
  · intro number
    rw [sentTo_put, sound.accounted, List.append_assoc]
    change _ = s.executed number ++
      Function.update s.content sent.1 (s.content sent.1 ++ [sent.2]) number
    by_cases same : sent.1 = number
    · rw [if_pos same, ← same, Function.update_self]
    · rw [if_neg same, Function.update_of_ne (Ne.symm same), List.append_nil]
  · intro number child present ended notFailed
    obtain ⟨empty, nothingMore⟩ := sound.ended number child present ended notFailed
    rw [alive, here] at nothingMore
    rcases nothingMore with isKilled | isClosed
    · exact absurd isKilled Bool.false_ne_true
    · exact absurd isClosed (Nat.not_lt_zero number)
  · exact sound.killed

/-- The parent is killed on a pipe that nobody reads any more. -/
theorem broken
    {sent : Nat × Int}
    {pipe : Nat}
    (sound : s.Sound gnum)
    (order : s.processes.InOrder gnum)
    (inHand : s.inHand = some sent)
    (writes : s.writes sent.1 = some pipe)
    (alive : s.killed = false)
    (noReader : ∀ process, ¬ s.Holds process (.readEnd pipe)) :
    ({ s with killed := true } : Pool).Sound gnum := by
  obtain ⟨here, -⟩ := sound.inHand sent inHand
  obtain ⟨rfl, inside⟩ := writes_eq order here writes
  constructor
  · exact sound.inHand
  · exact sound.cnt
  · exact sound.chosen
  · exact sound.known
  · exact sound.inTurn
  · exact sound.accounted
  · intro number child present ended notFailed
    exact ⟨(sound.ended number child present ended notFailed).1, .inl rfl⟩
  · intro _
    have returned : s.processes.parentAt.returned = true := by
      rw [here]
      rfl
    obtain ⟨child, present⟩ :=
      Option.ne_none_iff_exists'.mp ((order.children returned sent.1).mpr inside)
    refine ⟨sent.1, ?_⟩
    by_contra notFailed
    -- the child is still there, and so is its end of the pipe
    have notEnded : child.point.ended = false := by
      apply Bool.eq_false_iff.mpr
      intro ended
      obtain ⟨-, nothingMore⟩ := sound.ended sent.1 child present ended
        (Bool.eq_false_iff.mpr notFailed)
      rw [alive, here] at nothingMore
      rcases nothingMore with isKilled | isClosed
      · exact absurd isKilled Bool.false_ne_true
      · exact absurd isClosed (Nat.not_lt_zero sent.1)
    obtain ⟨fd, found⟩ := (order.owns sent.1 child present).reads_of_not_ended notEnded
    exact noReader (.child sent.1) ⟨child, present, fd, found⟩

/-- A child takes the first command out of its pipe and runs it. -/
theorem read
    {number pipe : Nat}
    {command : Int}
    {rest : List Int}
    (sound : s.Sound gnum)
    (order : s.processes.InOrder gnum)
    (reads : s.reads number = some pipe)
    (content : s.content pipe = command :: rest) :
    (s.take number pipe command rest).Sound gnum := by
  obtain ⟨rfl, child, present, inCommand⟩ := reads_eq order reads
  constructor
  · exact sound.inHand
  · exact sound.cnt
  · exact sound.chosen
  · exact sound.known
  · exact sound.inTurn
  · intro other
    change s.sentTo other =
      Function.update s.executed pipe (s.executed pipe ++ [command]) other ++
        Function.update s.content pipe rest other
    rw [sound.accounted]
    by_cases same : other = pipe
    · rw [same, Function.update_self, Function.update_self, content, List.append_assoc]
      rfl
    · rw [Function.update_of_ne same, Function.update_of_ne same]
  · intro other otherChild otherPresent ended notFailed
    obtain ⟨empty, nothingMore⟩ :=
      sound.ended other otherChild otherPresent ended notFailed
    refine ⟨?_, nothingMore⟩
    change Function.update s.content pipe rest other = []
    rw [Function.update_of_ne, empty]
    rintro rfl
    exact List.cons_ne_nil command rest (content.symm.trans empty)
  · exact sound.killed

/-- A child leaves `WaitCommand`, behind the end of its input or behind an error. -/
theorem leave
    {number : Nat}
    {processes : State}
    {failed : Nat → Bool}
    (sound : s.Sound gnum)
    (acted : s.processes.act gnum (.child number) = some processes)
    (sameFailed : ∀ other, other ≠ number → failed other = s.failed other)
    (more : ∀ other, s.failed other = true → failed other = true)
    (finished : failed number = false → s.content number = [] ∧
      (s.killed = true ∨ number < s.processes.parentAt.closed)) :
    ({ s with processes := processes, failed := failed } : Pool).Sound gnum := by
  cases State.change_of_act acted with
  | child atNumber stepped =>
      constructor
      · exact sound.inHand
      · exact sound.cnt
      · exact sound.chosen
      · exact sound.known
      · exact sound.inTurn
      · exact sound.accounted
      · intro other child present ended notFailed
        rcases Transition.update_some_eq_some_iff.mp present with
          ⟨rfl, -⟩ | ⟨different, before⟩
        · exact finished notFailed
        · have notBefore := (sameFailed other different).symm.trans notFailed
          exact sound.ended other child before ended notBefore
      · intro killed
        obtain ⟨other, hasFailed⟩ := sound.killed killed
        exact ⟨other, more other hasFailed⟩
  | parent own sameWaited closed inside => exact Bool.noConfusion own

/-- A child ends behind its last command. -/
theorem endOfFile
    {number pipe : Nat}
    {processes : State}
    (sound : s.Sound gnum)
    (order : s.processes.InOrder gnum)
    (reads : s.reads number = some pipe)
    (content : s.content pipe = [])
    (noWriter : ∀ process, ¬ s.Holds process (.writeEnd pipe))
    (acted : s.processes.act gnum (.child number) = some processes) :
    ({ s with processes := processes } : Pool).Sound gnum := by
  obtain ⟨rfl, child, present, -⟩ := reads_eq order reads
  refine sound.leave acted (fun _ _ => rfl) (fun _ failed => failed) ?_
  intro _
  refine ⟨content, ?_⟩
  by_contra open'
  rw [not_or, Bool.not_eq_true, not_lt] at open'
  obtain ⟨alive, notClosed⟩ := open'
  exact noWriter .parent ⟨alive, parent_writes order present notClosed⟩

/-- A child ends on a failed read. -/
theorem readError
    {number : Nat}
    {processes : State}
    (sound : s.Sound gnum)
    (acted : s.processes.act gnum (.child number) = some processes) :
    ({ s with
       processes := processes
       failed := Function.update s.failed number true } : Pool).Sound gnum := by
  refine sound.leave acted ?_ ?_ ?_
  · exact fun other different => Function.update_of_ne different true s.failed
  · intro other failed
    by_cases same : other = number
    · rw [same, Function.update_self]
    · rw [Function.update_of_ne same, failed]
  · intro notFailed
    rw [Function.update_self] at notFailed
    exact Bool.noConfusion notFailed

end Sound

/-- When `ShowBoard` is the next call. -/
theorem atMenu_iff :
    s.atMenu = true ↔ s.processes.parentAt = .ctrl ∧ s.inHand = none ∧ s.killed = false := by
  rw [atMenu]
  split
  · rename_i here
    rw [Bool.and_eq_true, Option.isNone_iff_eq_none, Bool.not_eq_true', here]
    simp
  · rename_i elsewhere
    exact iff_of_false Bool.false_ne_true (fun menu => elsewhere menu.1)

/-- Where the parent goes on by itself, it has no command in hand. -/
theorem Sound.inHand_of_outside
    {action : Action}
    {processes : State}
    (sound : s.Sound gnum)
    (outside : s.outside action = true)
    (acted : s.processes.act gnum action = some processes) :
    s.inHand = none ∨ ∃ number, action = .child number := by
  cases action with
  | child number => exact .inr ⟨number, rfl⟩
  | pipe pipefd =>
      left
      by_contra something
      obtain ⟨sent, inHand⟩ := Option.ne_none_iff_exists'.mp something
      rw [State.act, (sound.inHand sent inHand).1] at acted
      exact absurd acted (by simp)
  | parent =>
      left
      by_contra something
      obtain ⟨sent, inHand⟩ := Option.ne_none_iff_exists'.mp something
      rw [Pool.outside, (sound.inHand sent inHand).1] at outside
      exact absurd outside Bool.false_ne_true

/-- Every move keeps the commands in order. -/
theorem Move.sound
    (move : Move gnum s event s')
    (order : s.processes.InOrder gnum)
    (sound : s.Sound gnum) :
    s'.Sound gnum := by
  cases move with
  | process outside acted =>
      refine sound.follow (sound.inHand_of_outside outside acted)
        (State.change_of_act acted) ?_
      rintro number child rfl present
      rw [Pool.outside, present] at outside
      exact Bool.not_eq_true' _ ▸ outside
  | leave menu acted =>
      refine sound.follow (.inl (atMenu_iff.mp menu).2.1) (State.change_of_act acted) ?_
      exact fun number child same => Action.noConfusion same
  | refuse menu => exact sound
  | choose menu lower upper children =>
      obtain ⟨here, nothing, -⟩ := atMenu_iff.mp menu
      exact sound.choose order here nothing lower upper children
  | write inHand writes alive => exact sound.write order inHand writes alive
  | broken inHand writes alive noReader =>
      exact sound.broken order inHand writes alive noReader
  | read reads content => exact sound.read order reads content
  | endOfFile reads content noWriter acted =>
      exact sound.endOfFile order reads content noWriter acted
  | readError reads acted => exact sound.readError acted

/-- All runs of the pool. -/
theorem sound (gnum room : Nat) : (machine gnum room).Invariant (Sound gnum) := by
  apply Transition.Machine.invariant_of_steps
  · exact fun s starts => sound_of_starts starts
  · rintro s s' reached sound ⟨event, stepped⟩
    exact (move_of_step stepped).sound (inOrder_processes reached) sound

/-- What has become of the commands that were chosen. -/
structure RunsOnce (gnum : Nat) (s : Pool) : Prop where
  known : ∀ command ∈ s.chosen, ∃ job, Execute command = some job
  /-- All of them are written in the order of the menu, to the children in turn. -/
  chosen : s.chosen = s.dispatched.map Prod.snd ++ (s.inHand.map Prod.snd).toList
  inTurn : s.dispatched.map Prod.fst = (List.range s.dispatched.length).map (· % gnum)
  /-- What was written for a child has been run by it in this order, or is still in its
  pipe. -/
  accounted : ∀ number, s.sentTo number = s.executed number ++ s.content number
  /-- A child that has left its loop, and so one that was waited for, has run them all,
  and no other command will come, unless a `read` of it failed. -/
  ended : ∀ number child, s.processes.child number = some child →
    child.point.ended = true → s.failed number = false →
      s.executed number = s.sentTo number ∧
        (s.killed = true ∨ number < s.processes.parentAt.closed)
  waited : ∀ number, number < s.processes.parentAt.waited →
    ∃ child, s.processes.child number = some child ∧ child.point.ended = true
  /-- The parent is killed only after such a failure. -/
  killed : s.killed = true → ∃ number, s.failed number = true

/-- Whatever is chosen at the menu, and however the parent, the children and the kernel
take turns, every command is run once, by the child whose turn it is. -/
theorem commands_run_once (gnum room : Nat) :
    (machine gnum room).Invariant (RunsOnce gnum) := by
  intro s reached
  have sound := sound gnum room s reached
  constructor
  · intro command present
    obtain ⟨lower, upper⟩ := sound.known command present
    exact exists_job lower upper
  · exact sound.chosen
  · exact sound.inTurn
  · exact sound.accounted
  · intro number child present ended notFailed
    obtain ⟨empty, nothingMore⟩ := sound.ended number child present ended notFailed
    refine ⟨?_, nothingMore⟩
    rw [sound.accounted, empty, List.append_nil]
  · intro number inside
    have processes := reachable_processes reached
    obtain ⟨⟨table, point⟩, present, exited⟩ :=
      (reaped gnum s.processes processes).waited number inside
    refine ⟨_, present, ?_⟩
    cases point with
    | exited => rfl
    | _ => exact Bool.noConfusion exited
  · exact sound.killed

end Pool

end ProcessPool
end LearnInLinux
