import LearnInLinux.Ipc.Commands
import LearnInLinux.Library.Ranking
import Mathlib.Algebra.BigOperators.Group.Finset.Basic
import Mathlib.Tactic

/-!
# The end of the process pool

Every step that needs nobody at the menu brings the pool nearer to a state in which it
either waits at the menu, with every command run, or has closed the pipes and waited for
every child.
-/

namespace LearnInLinux
namespace ProcessPool

open Transition

/-! ## Behind `createProcesses` -/

namespace State

/-- The steps behind `createProcesses`. -/
inductive Later (gnum : Nat) (s : State) : Action → State → Prop
  | child {number : Nat} {before next : Child}
      (present : s.child number = some before)
      (stepped : before.step = some next) :
      Later gnum s (.child number)
        { s with child := Function.update s.child number (some next) }
  | leave (here : s.parentAt = .ctrl) :
      Later gnum s .parent { s with parentAt := .close 0 }
  | close {turn : Nat} {endPoint : EndPoint}
      (here : s.parentAt = .close turn)
      (atTurn : s.endPoints[turn]? = some endPoint) :
      Later gnum s .parent
        { s with parentAt := .waitpid turn, table := s.table.close endPoint.write_fd }
  | waitpid {turn : Nat} {endPoint : EndPoint}
      (here : s.parentAt = .waitpid turn)
      (atTurn : s.endPoints[turn]? = some endPoint) :
      Later gnum s .parent { s with parentAt := .close (turn + 1) }

variable {gnum : Nat} {s s' : State} {action : Action}

/-- What can still happen behind `createProcesses`. -/
theorem later_of_act
    (returned : s.parentAt.returned = true)
    (acted : s.act gnum action = some s') :
    Later gnum s action s' := by
  cases action with
  | pipe pipefd =>
      rw [act] at acted
      split at acted
      · rename_i here
        rw [here] at returned
        exact absurd returned Bool.false_ne_true
      · exact absurd acted (by simp)
  | parent =>
      rw [act, parentStep] at acted
      split at acted
      · rename_i here
        rw [here] at returned
        exact absurd returned Bool.false_ne_true
      · rename_i here
        rw [here] at returned
        exact absurd returned Bool.false_ne_true
      · rename_i here
        rw [here] at returned
        exact absurd returned Bool.false_ne_true
      · rename_i here
        rw [here] at returned
        exact absurd returned Bool.false_ne_true
      · rename_i here
        obtain rfl := Option.some.inj acted
        exact .leave here
      · rename_i turn here
        split at acted
        · exact absurd acted (by simp)
        · rename_i endPoint atTurn
          obtain rfl := Option.some.inj acted
          exact .close here atTurn
      · rename_i turn here
        split at acted
        · exact absurd acted (by simp)
        · rename_i endPoint atTurn
          split at acted
          · exact absurd acted (by simp)
          · obtain ⟨-, left⟩ := Option.ite_none_right_eq_some.mp acted
            obtain rfl := Option.some.inj left
            exact .waitpid here atTurn
  | child number =>
      rw [act] at acted
      split at acted
      · exact absurd acted (by simp)
      · rename_i before present
        split at acted
        · exact absurd acted (by simp)
        · rename_i next stepped
          obtain rfl := Option.some.inj acted
          exact .child present stepped

/-- `createProcesses` returns once. -/
theorem Later.returned
    (later : Later gnum s action s')
    (returned : s.parentAt.returned = true) :
    s'.parentAt.returned = true := by
  cases later with
  | child present stepped => exact returned
  | leave here => rfl
  | close here atTurn => rfl
  | waitpid here atTurn => rfl

/-- Behind `createProcesses` the parent knows all its children. -/
theorem InOrder.length_endPoints
    (order : s.InOrder gnum)
    (returned : s.parentAt.returned = true) :
    s.endPoints.length = gnum := by
  rw [order.sameLength, order.made]
  cases here : s.parentAt with
  | ctrl => rfl
  | close turn => rfl
  | waitpid turn => rfl
  | _ =>
      rw [here] at returned
      exact absurd returned Bool.false_ne_true

end State

/-! ## What is left to do -/

/-- What a child has in front of it. -/
def ChildAt.weight : ChildAt → Nat
  | .closing fds _ => fds.length + 6
  | .closeWrite _ => 5
  | .dup2 _ => 4
  | .waitCommand _ => 3
  | .closeRead _ => 2
  | .exit => 1
  | .exited => 0

/-- Every step of a child lowers its weight. -/
theorem Child.weight_step
    {child next : Child}
    (stepped : child.step = some next) :
    next.point.weight + 1 ≤ child.point.weight := by
  obtain ⟨table, point⟩ := child
  cases point with
  | closing fds pipefd =>
      cases fds with
      | nil =>
          obtain rfl := Option.some.inj stepped
          exact Nat.le_refl 6
      | cons fd fds =>
          obtain rfl := Option.some.inj stepped
          change fds.length + 6 + 1 ≤ fds.length + 1 + 6
          omega
  | exited => exact absurd stepped (by simp [Child.step])
  | _ =>
      obtain rfl := Option.some.inj stepped
      exact Nat.le_refl _

/-- Everything but the end of the program of a child is followed by a step. -/
theorem Child.exists_step
    (child : Child)
    (running : child.point.hasExited = false) :
    ∃ next, child.step = some next := by
  obtain ⟨table, point⟩ := child
  cases point with
  | closing fds pipefd =>
      cases fds with
      | nil => exact ⟨_, rfl⟩
      | cons fd fds => exact ⟨_, rfl⟩
  | exited => exact Bool.noConfusion running
  | _ => exact ⟨_, rfl⟩

/-- A child that is not there has nothing to do. -/
def childWeight : Option Child → Nat
  | none => 0
  | some child => child.point.weight

namespace Pool

/-- A command in hand is a `write` and a `read`. -/
def parentWeight (gnum : Nat) (s : Pool) : Nat :=
  if s.killed then 0
  else
    match s.processes.parentAt with
    | .close turn => 2 * (gnum - turn)
    | .waitpid turn => 2 * (gnum - turn) - 1
    | _ => if s.inHand.isSome then 2 else 0

/-- What a child and its pipe have in front of them. -/
def load (s : Pool) (number : Nat) : Nat :=
  childWeight (s.processes.child number) + (s.content number).length

/-- How many steps can follow before somebody chooses the next command. -/
def rank (gnum : Nat) (s : Pool) : Nat :=
  s.parentWeight gnum + ∑ number ∈ Finset.range gnum, s.load number

end Pool

/-- Nothing from outside is needed: neither the user nor a failure. -/
def Event.Own : Event → Prop
  | .choose _ => False
  | .readError _ => False
  | _ => True

namespace Pool

variable {gnum room : Nat} {s s' : Pool} {event : Event}

/-- A step that changes the load of one child. -/
theorem rank_add_of_changed
    {number : Nat}
    (s s' : Pool)
    (inside : number < gnum)
    (others : ∀ other, other ≠ number → s'.load other = s.load other) :
    s'.rank gnum + s.parentWeight gnum + s.load number =
      s.rank gnum + s'.parentWeight gnum + s'.load number := by
  have sums := Threads.sum_add_of_changed (Finset.mem_range.mpr inside) others
  rw [rank, rank]
  omega

/-- A child is loaded with its own steps and with what is in its pipe. -/
theorem load_child
    {number : Nat}
    (child : Child)
    (present : s.processes.child number = some child) :
    s.load number = child.point.weight + (s.content number).length := by
  rw [load, present, childWeight]

/-- A child goes on. -/
theorem rank_lt_of_child
    {number : Nat}
    {before next : Child}
    (inside : number < gnum)
    (present : s.processes.child number = some before)
    (stepped : before.step = some next)
    (after : s'.processes.child = Function.update s.processes.child number (some next))
    (sameParent : s'.parentWeight gnum = s.parentWeight gnum)
    (sameContent : s'.content = s.content) :
    s'.rank gnum < s.rank gnum := by
  have lighter := Child.weight_step stepped
  have changed : s'.load number = next.point.weight + (s.content number).length := by
    rw [load_child next (by rw [after, Function.update_self]), sameContent]
  have sums := rank_add_of_changed s s' inside (by
    intro other different
    rw [load, load, after, Function.update_of_ne different, sameContent])
  have here := load_child before present
  omega

/-- Only the parent goes on. -/
theorem rank_lt_of_parent
    (sameChild : s'.processes.child = s.processes.child)
    (sameContent : s'.content = s.content)
    (lighter : s'.parentWeight gnum < s.parentWeight gnum) :
    s'.rank gnum < s.rank gnum := by
  have same : ∑ number ∈ Finset.range gnum, s'.load number =
      ∑ number ∈ Finset.range gnum, s.load number := by
    apply Finset.sum_congr rfl
    intro number _
    rw [load, load, sameChild, sameContent]
  rw [rank, rank, same]
  omega

/-- The steps that are left to a parent that lives. -/
theorem parentWeight_alive (alive : s.killed = false) :
    s.parentWeight gnum =
      match s.processes.parentAt with
      | .close turn => 2 * (gnum - turn)
      | .waitpid turn => 2 * (gnum - turn) - 1
      | _ => if s.inHand.isSome then 2 else 0 := by
  rw [parentWeight, alive]
  rfl

/-- A parent that is not at the menu lives. -/
theorem outside_parent
    (outside : s.outside .parent = true) :
    s.killed = false ∧ s.processes.parentAt ≠ .ctrl := by
  rw [Pool.outside] at outside
  split at outside
  · exact Bool.noConfusion outside
  · rename_i elsewhere
    exact ⟨Bool.not_eq_true' _ ▸ outside, elsewhere⟩

/-- Every step but a choice at the menu lowers the rank. -/
theorem Move.rank_lt
    (move : Move gnum s event s')
    (own : event.Own)
    (order : s.processes.InOrder gnum)
    (sound : s.Sound gnum)
    (returned : s.processes.parentAt.returned = true) :
    s'.rank gnum < s.rank gnum := by
  have inside {number : Nat} {child : Child}
      (present : s.processes.child number = some child) : number < gnum := by
    apply (order.children returned number).mp
    rw [present]
    exact Option.some_ne_none child
  cases move with
  | process outside acted =>
      cases State.later_of_act returned acted with
      | child present stepped =>
          exact rank_lt_of_child (inside present) present stepped rfl rfl rfl
      | leave here => exact absurd here (outside_parent outside).2
      | close here atTurn =>
          rename_i turn endPoint
          obtain ⟨alive, -⟩ := outside_parent outside
          refine rank_lt_of_parent rfl rfl ?_
          have less := (List.getElem?_eq_some_iff.mp atTurn).1
          rw [order.length_endPoints returned] at less
          rw [parentWeight_alive alive, parentWeight_alive (by exact alive), here]
          change 2 * (gnum - turn) - 1 < 2 * (gnum - turn)
          omega
      | waitpid here atTurn =>
          rename_i turn endPoint
          obtain ⟨alive, -⟩ := outside_parent outside
          refine rank_lt_of_parent rfl rfl ?_
          have less := (List.getElem?_eq_some_iff.mp atTurn).1
          rw [order.length_endPoints returned] at less
          rw [parentWeight_alive alive, parentWeight_alive (by exact alive), here]
          change 2 * (gnum - (turn + 1)) < 2 * (gnum - turn) - 1
          omega
  | leave menu acted => exact own.elim
  | refuse menu => exact own.elim
  | choose menu lower upper children => exact own.elim
  | write inHand writes alive =>
      rename_i sent pipe
      obtain ⟨here, -, less⟩ := sound.inHand sent inHand
      obtain ⟨rfl, -⟩ := writes_eq order here writes
      have sums := rank_add_of_changed s (s.put sent.1 sent) less (by
        intro other different
        change childWeight _ + (Function.update s.content sent.1 _ other).length = s.load other
        rw [Function.update_of_ne different]
        rfl)
      have heavier : (s.put sent.1 sent).load sent.1 = s.load sent.1 + 1 := by
        change childWeight _ + (Function.update s.content sent.1 _ sent.1).length = _
        rw [Function.update_self, List.length_append]
        rfl
      have before : s.parentWeight gnum = 2 := by
        rw [parentWeight_alive alive, here, inHand]
        rfl
      have after : (s.put sent.1 sent).parentWeight gnum = 0 := by
        have sameParent : (s.put sent.1 sent).processes.parentAt = .ctrl := here
        rw [parentWeight_alive (by exact alive), sameParent]
        rfl
      omega
  | broken inHand writes alive noReader =>
      rename_i sent pipe
      obtain ⟨here, -, -⟩ := sound.inHand sent inHand
      refine rank_lt_of_parent rfl rfl ?_
      rw [parentWeight_alive alive, here, inHand]
      exact Nat.zero_lt_two
  | read reads content =>
      rename_i number pipe command rest
      obtain ⟨rfl, child, present, -⟩ := reads_eq order reads
      have sums := rank_add_of_changed s (s.take pipe pipe command rest)
        (inside present) (by
          intro other different
          change childWeight _ + (Function.update s.content pipe rest other).length = s.load other
          rw [Function.update_of_ne different]
          rfl)
      have lighter : (s.take pipe pipe command rest).load pipe + 1 = s.load pipe := by
        change childWeight _ + (Function.update s.content pipe rest pipe).length + 1 = _
        rw [Function.update_self, load, content]
        rfl
      have same : (s.take pipe pipe command rest).parentWeight gnum = s.parentWeight gnum := rfl
      omega
  | endOfFile reads content noWriter acted =>
      cases State.later_of_act returned acted with
      | child present stepped =>
          exact rank_lt_of_child (inside present) present stepped rfl rfl rfl
  | readError reads acted => exact own.elim

/-- Behind `createProcesses`, and what holds there. -/
structure Created (gnum : Nat) (s : Pool) : Prop where
  returned : s.processes.parentAt.returned = true
  order : s.processes.InOrder gnum
  sound : s.Sound gnum
  reaped : s.processes.Reaped

/-- What holds behind `createProcesses` goes on to hold. -/
theorem Move.created (move : Move gnum s event s') (created : s.Created gnum) :
    s'.Created gnum := by
  obtain ⟨returned, order, sound, reaped⟩ := created
  have sound' := move.sound order sound
  rcases move.processes with same | ⟨action, acted⟩
  · constructor
    · rw [same]
      exact returned
    · rw [same]
      exact order
    · exact sound'
    · rw [same]
      exact reaped
  · constructor
    · exact (State.later_of_act returned acted).returned returned
    · exact order.act acted
    · exact sound'
    · exact (State.change_of_act acted).reaped order reaped

/-- A pool whose menu is left alone comes to rest. -/
theorem ranked (gnum room : Nat) :
    Ranked (step gnum room) Event.Own (Created gnum) (rank gnum) where
  kept _ _ _ created stepped := (move_of_step stepped).created created
  falls _ _ _ own created stepped :=
    (move_of_step stepped).rank_lt own created.order created.sound created.returned

/-! ## Where nothing goes on -/

/-- A child in `WaitCommand` has its own pipe to read from. -/
theorem reads_of_inCommand
    {number : Nat}
    {child : Child}
    (order : s.processes.InOrder gnum)
    (present : s.processes.child number = some child)
    (here : child.point.inCommand = true) :
    s.reads number = some number := by
  obtain ⟨table, point⟩ := child
  cases point with
  | waitCommand pipefd =>
      have atZero : table 0 = some (.readEnd number) :=
        (order.owns number _ present).2.2
      rw [Pool.reads, present]
      simp only [atZero]
  | _ => exact Bool.noConfusion here

/-- A child that has a next step can take it. -/
theorem act_child
    {number : Nat}
    {before next : Child}
    (present : s.processes.child number = some before)
    (stepped : before.step = some next) :
    s.processes.act gnum (.child number) = some { s.processes with
      child := Function.update s.processes.child number (some next) } := by
  rw [State.act, present]
  simp only [stepped]

/-- At the menu every child can be written to. -/
theorem writes_of_menu
    {index : Nat}
    (order : s.processes.InOrder gnum)
    (here : s.processes.parentAt = .ctrl)
    (inside : index < gnum) :
    s.writes index = some index := by
  have less : index < s.processes.endPoints.length :=
    Nat.lt_of_lt_of_eq inside (length_endPoints order here).symm
  have atIndex := List.getElem?_eq_getElem less
  obtain ⟨-, inFds⟩ := order.endPoints index _ atIndex
  have ownWrite : s.processes.table s.processes.endPoints[index].write_fd =
      some (.writeEnd index) := by
    apply (order.writes _ index).mpr
    refine .inl ⟨inFds, ?_⟩
    rw [here]
    exact Nat.zero_le index
  rw [Pool.writes, atIndex]
  simp only [ownWrite]

/-- Nobody reads from the pipe of a child that has exited. -/
theorem not_holds_of_exited
    {number : Nat}
    {child : Child}
    (created : s.Created gnum)
    (present : s.processes.child number = some child)
    (exited : child.point.hasExited = true)
    (process : Process) :
    ¬ s.Holds process (.readEnd number) := by
  intro holds
  cases process with
  | parent => exact created.order.parent_reads created.returned holds.2
  | child other =>
      obtain rfl := created.order.child_reads holds
      obtain ⟨same, present', fd, found⟩ := holds
      obtain rfl := Option.some.inj (present.symm.trans present')
      rw [created.reaped.empty number child present exited] at found
      exact Option.some_ne_none _ found.symm

section Settled

variable
  (settled : Settled (step gnum room) Event.Own s)
  (created : s.Created gnum)

include settled

/-- At rest no allowed step is possible. -/
theorem act_eq_none_of_settled
    (event : Event)
    (own : event.Own)
    (allowed : s.Allowed event) :
    s.act gnum room event = none := by
  have stuck := settled event own
  rw [step, if_pos allowed] at stuck
  exact stuck

include created

/-- At rest every child waits for a command or has exited. -/
theorem child_of_settled
    {number : Nat}
    (inside : number < gnum) :
    ∃ child, s.processes.child number = some child ∧
      (child.point.inCommand = true ∨ child.point.hasExited = true) := by
  obtain ⟨child, present⟩ :=
    Option.ne_none_iff_exists'.mp ((created.order.children created.returned number).mpr inside)
  refine ⟨child, present, ?_⟩
  by_contra busy
  rw [not_or, Bool.not_eq_true, Bool.not_eq_true] at busy
  obtain ⟨next, stepped⟩ := Child.exists_step child busy.2
  have stuck := act_eq_none_of_settled settled (.process (.child number)) trivial trivial
  have outside : s.outside (.child number) = true := by
    rw [Pool.outside, present]
    change (!child.point.inCommand) = true
    rw [busy.1]
    rfl
  rw [act, if_pos outside, follow, act_child present stepped] at stuck
  exact absurd stuck (by simp)

/-- A child that waits for a command has an empty pipe. -/
theorem content_of_settled
    {number : Nat}
    {child : Child}
    (present : s.processes.child number = some child)
    (here : child.point.inCommand = true) :
    s.content number = [] := by
  by_contra something
  obtain ⟨command, rest, content⟩ := List.exists_cons_of_ne_nil something
  have stuck := act_eq_none_of_settled settled (.read number) trivial trivial
  rw [act, reads_of_inCommand created.order present here] at stuck
  simp only [content] at stuck
  exact absurd stuck (by simp)

/-- At rest no command is in hand. -/
theorem inHand_of_settled
    (positive : 0 < room)
    (here : s.processes.parentAt = .ctrl)
    (alive : s.killed = false) :
    s.inHand = none := by
  by_contra something
  obtain ⟨sent, inHand⟩ := Option.ne_none_iff_exists'.mp something
  obtain ⟨-, -, inside⟩ := created.sound.inHand sent inHand
  have writes := writes_of_menu created.order here inside
  obtain ⟨child, present, place⟩ := child_of_settled settled created inside
  rcases place with inCommand | exited
  · have notEnded := Child.not_ended_of_inCommand inCommand
    obtain ⟨fd, found⟩ :=
      (created.order.owns sent.1 child present).reads_of_not_ended notEnded
    have stuck := act_eq_none_of_settled settled .write trivial
      ⟨sent, sent.1, .child sent.1, inHand, writes, child, present, fd, found⟩
    have free : s.killed = false ∧ (s.content sent.1).length < room := by
      rw [content_of_settled settled created present inCommand]
      exact ⟨alive, positive⟩
    simp only [act, inHand, writes, if_pos free] at stuck
    exact absurd stuck (by simp)
  · have stuck := act_eq_none_of_settled settled .broken trivial
      ⟨sent, sent.1, inHand, writes, not_holds_of_exited created present exited⟩
    simp [act, inHand, alive] at stuck

end Settled

end Pool

end ProcessPool
end LearnInLinux
