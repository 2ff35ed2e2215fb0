import LearnInLinux.Library.Ring
import LearnInLinux.Library.Threads
import LearnInLinux.Library.Transition
import Mathlib.Tactic

/-!
# The ring queue

Producers and consumers share a ring of `num` slots. Each side has its own index,
its own mutex and the semaphore it waits on, and posts the semaphore of the other
side after it has left its critical section. `push` and `pop` are the same series
of steps on different sides; every step is atomic, and any thread may take the
next one. The three copies of the class differ in names only.
-/

namespace LearnInLinux
namespace RingQueue

open Ring Threads

/-- The steps of `push` and `pop`. In `_rq[p_step++]` the slot is chosen before the
increment; no other thread uses the index of the side in between. -/
inductive Stage
  /-- `space_sem.p()` or `data_sem.p()` -/
  | wait
  | lock
  /-- `_rq[p_step] = in` or `*out = _rq[c_step]` -/
  | access
  | increment
  | modulo
  | unlock
  /-- `data_sem.v()` or `space_sem.v()` -/
  | post
  deriving DecidableEq

/-- The ring with its counters, mutexes and semaphores, where its threads are, and what went
through it so far. -/
structure State (ι T : Type) where
  rq : Nat → T
  /-- `p_step` and `c_step`. -/
  step : Side → Nat
  /-- `plock` and `clock`. -/
  mutex : Side → Option ι
  /-- `space_sem` and `data_sem`, by the side that waits on it. -/
  sem : Side → Nat
  pc : ι → Point T Stage
  /-- Slots whose value was written and not yet popped. -/
  unread : Nat → Bool
  /-- Values written, in the order of the critical sections of the producers. -/
  written : List T
  /-- Values read, in the order of the critical sections of the consumers. -/
  read : List T

/-- What a thread does next: call a function or take the next step of its call. -/
inductive Action (ι T : Type)
  | call (thread : ι) (call : Call T)
  | next (thread : ι)

namespace State

variable {ι T : Type} [DecidableEq ι]

/-- A thread goes to its next step. -/
def goto (thread : ι) (point : Point T Stage) (s : State ι T) : State ι T :=
  { s with pc := Function.update s.pc thread point }

/-- `sem_wait` on a semaphore that is above zero. -/
def semWait (side : Side) (s : State ι T) : State ι T :=
  { s with sem := Function.update s.sem side (s.sem side - 1) }

/-- `pthread_mutex_lock` on a mutex that is free. -/
def mutexLock (side : Side) (thread : ι) (s : State ι T) : State ι T :=
  { s with mutex := Function.update s.mutex side (some thread) }

/-- `rq[p_step] = in` and `*out = rq[c_step]`, with a note of the value. -/
def access (call : Call T) (s : State ι T) : State ι T :=
  match call with
  | .push value =>
      { s with
        rq := Function.update s.rq (s.step .producer) value
        unread := Function.update s.unread (s.step .producer) true
        written := s.written ++ [value] }
  | .pop =>
      { s with
        unread := Function.update s.unread (s.step .consumer) false
        read := s.read ++ [s.rq (s.step .consumer)] }

/-- `p_step++` and `c_step++`. -/
def increment (side : Side) (s : State ι T) : State ι T :=
  { s with step := Function.update s.step side (s.step side + 1) }

/-- `p_step %= num` and `c_step %= num`. -/
def modulo (num : Nat) (side : Side) (s : State ι T) : State ι T :=
  { s with step := Function.update s.step side (s.step side % num) }

/-- `pthread_mutex_unlock` -/
def mutexUnlock (side : Side) (s : State ι T) : State ι T :=
  { s with mutex := Function.update s.mutex side none }

/-- `sem_post` -/
def semPost (side : Side) (s : State ι T) : State ι T :=
  { s with sem := Function.update s.sem side (s.sem side + 1) }

/-- One step of a call; `none` while the thread has to wait. -/
def advance
    (num : Nat) (thread : ι) (call : Call T) (stage : Stage)
    (s : State ι T) : Option (State ι T) :=
  match stage with
  | .wait =>
      if 0 < s.sem call.side then
        some ((s.semWait call.side).goto thread (.inside call .lock))
      else none
  | .lock =>
      match s.mutex call.side with
      | some _ => none
      | none => some ((s.mutexLock call.side thread).goto thread (.inside call .access))
  | .access => some ((s.access call).goto thread (.inside call .increment))
  | .increment => some ((s.increment call.side).goto thread (.inside call .modulo))
  | .modulo => some ((s.modulo num call.side).goto thread (.inside call .unlock))
  | .unlock => some ((s.mutexUnlock call.side).goto thread (.inside call .post))
  | .post => some ((s.semPost call.side.other).goto thread .idle)

/-- One step of the ring; `none` while it is not the next one of its thread, or has to wait.
-/
def act (num : Nat) (action : Action ι T) (s : State ι T) : Option (State ι T) :=
  match action with
  | .call thread call =>
      match s.pc thread with
      | .idle => some (s.goto thread (.inside call .wait))
      | .inside _ _ => none
  | .next thread =>
      match s.pc thread with
      | .idle => none
      | .inside call stage => s.advance num thread call stage

/-- The ring behind its constructor; the slots hold anything. -/
def create (num : Nat) (rq : Nat → T) : State ι T where
  rq := rq
  step _ := 0
  mutex _ := none
  sem
    | .producer => num
    | .consumer => 0
  pc _ := .idle
  unread _ := false
  written := []
  read := []

end State

/-- All runs of any threads on a ring of `num` slots. -/
def machine (ι T : Type) [DecidableEq ι] (num : Nat) :
    Transition.Machine (State ι T) :=
  .ofStep (fun s => ∃ rq, s = State.create num rq) (State.act num)

/-! ## Kinds of points -/

namespace Stage

/-- Between taking the token and the access. -/
def approaching : Stage → Bool
  | .lock => true
  | .access => true
  | _ => false

/-- Between the access and giving the token to the other side. -/
def accessed : Stage → Bool
  | .increment => true
  | .modulo => true
  | .unlock => true
  | .post => true
  | _ => false

/-- Between locking and unlocking. -/
def critical : Stage → Bool
  | .access => true
  | .increment => true
  | .modulo => true
  | .unlock => true
  | _ => false

end Stage

namespace State

variable {ι T : Type}

/-- Accesses that a side has made. -/
def accesses (s : State ι T) : Side → Nat
  | .producer => s.written.length
  | .consumer => s.read.length

/-- Accesses that the other side has made room for. -/
def granted (num : Nat) (s : State ι T) : Side → Nat
  | .producer => s.read.length + num
  | .consumer => s.written.length

@[simp] theorem access_step (s : State ι T) (call : Call T) :
    (s.access call).step = s.step := by
  cases call <;> rfl

@[simp] theorem access_mutex (s : State ι T) (call : Call T) :
    (s.access call).mutex = s.mutex := by
  cases call <;> rfl

@[simp] theorem access_sem (s : State ι T) (call : Call T) :
    (s.access call).sem = s.sem := by
  cases call <;> rfl

@[simp] theorem access_pc (s : State ι T) (call : Call T) :
    (s.access call).pc = s.pc := by
  cases call <;> rfl

/-- An access counts for its own side. -/
theorem accesses_access_self (s : State ι T) (call : Call T) :
    (s.access call).accesses call.side = s.accesses call.side + 1 := by
  cases call <;> exact List.length_append

theorem accesses_access_other
    {s : State ι T}
    {call : Call T}
    {side : Side}
    (different : call.side ≠ side) :
    (s.access call).accesses side = s.accesses side := by
  cases call <;> cases side <;> first | rfl | exact absurd rfl different

/-- An access leaves what its own side has been granted. -/
theorem granted_access_self (num : Nat) (s : State ι T) (call : Call T) :
    (s.access call).granted num call.side = s.granted num call.side := by
  cases call <;> rfl

/-- An access grants one more to the other side. -/
theorem granted_access_other
    {num : Nat}
    {s : State ι T}
    {call : Call T}
    {side : Side}
    (different : call.side ≠ side) :
    (s.access call).granted num side = s.granted num side + 1 := by
  cases call <;> cases side <;> first
    | exact absurd rfl different
    | simp [access, granted, Nat.add_right_comm]

/-- The index while a thread of the side is at `stage` of its critical section. -/
def Indexed (num : Nat) (stage : Stage) (step accesses : Nat) : Prop :=
  match stage with
  | .increment => ∃ before, accesses = before + 1 ∧ step = before % num
  | .modulo => ∃ before, accesses = before + 1 ∧ step = before % num + 1
  | _ => step = accesses % num

/-- The room for a side is used, on the way from the other side, free in its
semaphore, or held by a thread on its way to the slot. -/
def Balanced [Fintype ι] (num : Nat) (s : State ι T) (side : Side) : Prop :=
  s.granted num side = s.accesses side +
    count (Point.at side.other Stage.accessed) s.pc + s.sem side +
      count (Point.at side Stage.approaching) s.pc

/-- The index of a side belongs to its next access, but for the owner of the mutex
that has made its access already. -/
def Aligned (num : Nat) (s : State ι T) (side : Side) : Prop :=
  match s.mutex side with
  | none => s.step side = s.accesses side % num
  | some thread => ∀ call stage, s.pc thread = .inside call stage →
      Indexed num stage (s.step side) (s.accesses side)

/-- The semaphores count, the mutexes keep each side to itself, the counters point at the
next slot, and the slots hold what is to be read. -/
structure InOrder [Fintype ι] (num : Nat) (s : State ι T) : Prop where
  balanced : ∀ side, s.Balanced num side
  guarded : ∀ side, Guarded (Point.at side Stage.critical) (s.mutex side) s.pc
  aligned : ∀ side, s.Aligned num side
  stored : Stored num s.rq s.unread s.written s.read

variable [DecidableEq ι]

/-- Everything that one action can do. -/
inductive Move (num : Nat) (s : State ι T) : State ι T → Prop
  | call {thread : ι} (call : Call T)
      (here : s.pc thread = .idle) :
      Move num s (s.goto thread (.inside call .wait))
  | wait {thread : ι} {call : Call T}
      (here : s.pc thread = .inside call .wait)
      (token : 0 < s.sem call.side) :
      Move num s ((s.semWait call.side).goto thread (.inside call .lock))
  | lock {thread : ι} {call : Call T}
      (here : s.pc thread = .inside call .lock)
      (unlocked : s.mutex call.side = none) :
      Move num s ((s.mutexLock call.side thread).goto thread (.inside call .access))
  | access {thread : ι} {call : Call T}
      (here : s.pc thread = .inside call .access) :
      Move num s ((s.access call).goto thread (.inside call .increment))
  | increment {thread : ι} {call : Call T}
      (here : s.pc thread = .inside call .increment) :
      Move num s ((s.increment call.side).goto thread (.inside call .modulo))
  | modulo {thread : ι} {call : Call T}
      (here : s.pc thread = .inside call .modulo) :
      Move num s ((s.modulo num call.side).goto thread (.inside call .unlock))
  | unlock {thread : ι} {call : Call T}
      (here : s.pc thread = .inside call .unlock) :
      Move num s ((s.mutexUnlock call.side).goto thread (.inside call .post))
  | post {thread : ι} {call : Call T}
      (here : s.pc thread = .inside call .post) :
      Move num s ((s.semPost call.side.other).goto thread .idle)

/-- Every action is one of the moves. -/
theorem move_of_act
    {num : Nat}
    {action : Action ι T}
    {s s' : State ι T}
    (acted : s.act num action = some s') :
    s.Move num s' := by
  cases action with
  | call thread call =>
      rw [act] at acted
      split at acted
      · rename_i here
        obtain rfl := Option.some.inj acted
        exact .call call here
      · exact absurd acted (by simp)
  | next thread =>
      rw [act] at acted
      split at acted
      · exact absurd acted (by simp)
      · rename_i call stage here
        cases stage with
        | wait =>
            rw [advance] at acted
            split at acted
            · rename_i token
              obtain rfl := Option.some.inj acted
              exact .wait here token
            · exact absurd acted (by simp)
        | lock =>
            rw [advance] at acted
            split at acted
            · exact absurd acted (by simp)
            · rename_i unlocked
              obtain rfl := Option.some.inj acted
              exact .lock here unlocked
        | access =>
            obtain rfl := Option.some.inj acted
            exact .access here
        | increment =>
            obtain rfl := Option.some.inj acted
            exact .increment here
        | modulo =>
            obtain rfl := Option.some.inj acted
            exact .modulo here
        | unlock =>
            obtain rfl := Option.some.inj acted
            exact .unlock here
        | post =>
            obtain rfl := Option.some.inj acted
            exact .post here

/-! ## The room for each side -/

section Room

variable [Fintype ι] {num : Nat} {s s' : State ι T} {thread : ι} {point : Point T Stage}
  {call : Call T}

omit [DecidableEq ι] in
/-- A thread at an approaching stage holds room for its side. -/
theorem Balanced.accesses_lt_granted
    (balanced : s.Balanced num call.side)
    {stage : Stage}
    (here : s.pc thread = .inside call stage)
    (approaching : stage.approaching = true) :
    s.accesses call.side < s.granted num call.side := by
  have held : 0 < count (Point.at call.side Stage.approaching) s.pc := by
    apply count_pos
    rw [here, Point.at_self]
    exact approaching
  rw [Balanced] at balanced
  omega

/-- A step that moves no token. -/
theorem Balanced.of_quiet
    {side : Side}
    {before : Point T Stage}
    (balanced : s.Balanced num side)
    (here : s.pc thread = before)
    (written : s'.written = s.written)
    (read : s'.read = s.read)
    (sem : s'.sem = s.sem)
    (pc : s'.pc = Function.update s.pc thread point)
    (approaching : Point.at side Stage.approaching point =
      Point.at side Stage.approaching before)
    (accessed : Point.at side.other Stage.accessed point =
      Point.at side.other Stage.accessed before) :
    s'.Balanced num side := by
  have sameAccesses : s'.accesses side = s.accesses side := by
    cases side with
    | producer => exact congrArg List.length written
    | consumer => exact congrArg List.length read
  have sameGranted : s'.granted num side = s.granted num side := by
    cases side with
    | producer => exact congrArg (fun read => List.length read + num) read
    | consumer => exact congrArg List.length written
  rw [Balanced, pc, count_update_same here approaching, count_update_same here accessed,
    sem, sameAccesses, sameGranted]
  exact balanced

/-- A token is taken. -/
theorem Balanced.wait
    {side : Side}
    (balanced : s.Balanced num side)
    (here : s.pc thread = .inside call .wait)
    (token : 0 < s.sem call.side) :
    ((s.semWait call.side).goto thread (.inside call .lock)).Balanced num side := by
  have onTheOther : count (Point.at side.other Stage.accessed)
      (Function.update s.pc thread (.inside call .lock)) =
        count (Point.at side.other Stage.accessed) s.pc :=
    count_update_same here (Point.at_congr rfl)
  rw [Balanced] at balanced
  change s.granted num side = s.accesses side +
    count (Point.at side.other Stage.accessed)
      (Function.update s.pc thread (.inside call .lock)) +
    Function.update s.sem call.side (s.sem call.side - 1) side +
    count (Point.at side Stage.approaching)
      (Function.update s.pc thread (.inside call .lock))
  by_cases own : call.side = side
  · subst own
    have onTheWay : count (Point.at call.side Stage.approaching)
        (Function.update s.pc thread (.inside call .lock)) =
          count (Point.at call.side Stage.approaching) s.pc + 1 :=
      count_update_enter here (Point.at_eq_false rfl) (Point.at_self _ _ _)
    rw [Function.update_self, onTheWay, onTheOther]
    omega
  · have onTheWay : count (Point.at side Stage.approaching)
        (Function.update s.pc thread (.inside call .lock)) =
          count (Point.at side Stage.approaching) s.pc := by
      apply count_update_same here
      rw [Point.at_of_ne own, Point.at_of_ne own]
    rw [Function.update_of_ne (Ne.symm own), onTheWay, onTheOther]
    exact balanced

/-- A slot is used: less room for the own side, more for the other one. -/
theorem Balanced.access
    {side : Side}
    (balanced : s.Balanced num side)
    (here : s.pc thread = .inside call .access) :
    ((s.access call).goto thread (.inside call .increment)).Balanced num side := by
  rw [Balanced] at balanced ⊢
  simp only [goto, access_pc, access_sem]
  change (s.access call).granted num side = (s.access call).accesses side + _ + _ + _
  by_cases own : call.side = side
  · subst own
    have onTheWay : count (Point.at call.side Stage.approaching)
        (Function.update s.pc thread (.inside call .increment)) + 1 =
          count (Point.at call.side Stage.approaching) s.pc :=
      count_update_leave here (Point.at_self _ _ _) (Point.at_eq_false rfl)
    have onTheOther : count (Point.at call.side.other Stage.accessed)
        (Function.update s.pc thread (.inside call .increment)) =
          count (Point.at call.side.other Stage.accessed) s.pc := by
      apply count_update_same here
      rw [Point.at_of_ne (Side.ne_other _), Point.at_of_ne (Side.ne_other _)]
    rw [granted_access_self, accesses_access_self, onTheOther]
    omega
  · have opposite := Side.eq_other_of_ne own
    have onTheWay : count (Point.at side Stage.approaching)
        (Function.update s.pc thread (.inside call .increment)) =
          count (Point.at side Stage.approaching) s.pc := by
      apply count_update_same here
      rw [Point.at_of_ne own, Point.at_of_ne own]
    have onTheOther : count (Point.at call.side Stage.accessed)
        (Function.update s.pc thread (.inside call .increment)) =
          count (Point.at call.side Stage.accessed) s.pc + 1 :=
      count_update_enter here (Point.at_eq_false rfl) (Point.at_self _ _ _)
    rw [← opposite] at balanced ⊢
    rw [granted_access_other own, accesses_access_other own, onTheWay, onTheOther]
    omega

/-- A token is given to the other side. -/
theorem Balanced.post
    {side : Side}
    (balanced : s.Balanced num side)
    (here : s.pc thread = .inside call .post) :
    ((s.semPost call.side.other).goto thread .idle).Balanced num side := by
  have onTheWay : count (Point.at side Stage.approaching)
      (Function.update s.pc thread .idle) =
        count (Point.at side Stage.approaching) s.pc :=
    count_update_same here (Point.at_eq_false rfl).symm
  rw [Balanced] at balanced
  change s.granted num side = s.accesses side +
    count (Point.at side.other Stage.accessed) (Function.update s.pc thread .idle) +
    Function.update s.sem call.side.other (s.sem call.side.other + 1) side +
    count (Point.at side Stage.approaching) (Function.update s.pc thread .idle)
  by_cases own : call.side = side
  · subst own
    have onTheOther : count (Point.at call.side.other Stage.accessed)
        (Function.update s.pc thread .idle) =
          count (Point.at call.side.other Stage.accessed) s.pc := by
      apply count_update_same here
      rw [Point.at_of_ne (Side.ne_other _), Point.at]
    rw [Function.update_of_ne (Side.ne_other _), onTheWay, onTheOther]
    exact balanced
  · have opposite := Side.eq_other_of_ne own
    have target : call.side.other = side := by
      rw [opposite, Side.other_other]
    have onTheOther : count (Point.at call.side Stage.accessed)
        (Function.update s.pc thread .idle) + 1 =
          count (Point.at call.side Stage.accessed) s.pc :=
      count_update_leave here (Point.at_self _ _ _) rfl
    rw [← opposite] at balanced ⊢
    rw [target, Function.update_self, onTheWay]
    omega

/-- Every step keeps what a semaphore has given out in balance with what was done for it. -/
theorem Move.balanced
    (moved : s.Move num s')
    {side : Side}
    (balanced : s.Balanced num side) :
    s'.Balanced num side := by
  cases moved with
  | call call here =>
      refine balanced.of_quiet here rfl rfl rfl rfl ?_ ?_
      · exact Point.at_eq_false rfl
      · exact Point.at_eq_false rfl
  | wait here token => exact balanced.wait here token
  | lock here unlocked =>
      refine balanced.of_quiet here rfl rfl rfl rfl ?_ ?_
      · exact Point.at_congr rfl
      · exact Point.at_congr rfl
  | access here => exact balanced.access here
  | increment here =>
      refine balanced.of_quiet here rfl rfl rfl rfl ?_ ?_
      · exact Point.at_congr rfl
      · exact Point.at_congr rfl
  | modulo here =>
      refine balanced.of_quiet here rfl rfl rfl rfl ?_ ?_
      · exact Point.at_congr rfl
      · exact Point.at_congr rfl
  | unlock here =>
      refine balanced.of_quiet here rfl rfl rfl rfl ?_ ?_
      · exact Point.at_congr rfl
      · exact Point.at_congr rfl
  | post here => exact balanced.post here

end Room

/-! ## The mutex and the index of each side -/

section Critical

variable {num : Nat} {s s' : State ι T} {thread : ι} {point : Point T Stage} {side : Side}

/-- Every step keeps the owner of a mutex the only thread of its side that is inside. -/
theorem Move.guarded
    (moved : s.Move num s')
    (guarded : Guarded (Point.at side Stage.critical) (s.mutex side) s.pc) :
    Guarded (Point.at side Stage.critical) (s'.mutex side) s'.pc := by
  cases moved with
  | call call here => exact guarded.move here (Point.at_eq_false rfl)
  | wait here token => exact guarded.move here (Point.at_congr rfl)
  | @lock thread call here unlocked =>
      by_cases same : call.side = side
      · subst same
        simp only [goto, mutexLock, Function.update_self]
        exact guarded.lock unlocked (Point.at_self Stage.critical call .access)
      · simp only [goto, mutexLock, Function.update_of_ne (Ne.symm same)]
        apply guarded.move here
        rw [Point.at_of_ne same, Point.at_of_ne same]
  | access here =>
      simp only [goto, access_mutex, access_pc]
      exact guarded.move here (Point.at_congr rfl)
  | increment here => exact guarded.move here (Point.at_congr rfl)
  | modulo here => exact guarded.move here (Point.at_congr rfl)
  | @unlock thread call here =>
      by_cases same : call.side = side
      · subst same
        simp only [goto, mutexUnlock, Function.update_self]
        apply guarded.unlock here
        · exact Point.at_self Stage.critical call .unlock
        · exact Point.at_eq_false rfl
      · simp only [goto, mutexUnlock, Function.update_of_ne (Ne.symm same)]
        apply guarded.move here
        rw [Point.at_of_ne same, Point.at_of_ne same]
  | post here => exact guarded.move here (Point.at_eq_false rfl).symm

/-- A step of a thread that does not own the mutex of the side. -/
theorem Aligned.of_elsewhere
    (aligned : s.Aligned num side)
    (mutex : s'.mutex side = s.mutex side)
    (step : s'.step side = s.step side)
    (accesses : s'.accesses side = s.accesses side)
    (pc : s'.pc = Function.update s.pc thread point)
    (elsewhere : s.mutex side ≠ some thread) :
    s'.Aligned num side := by
  rw [Aligned] at aligned ⊢
  rw [mutex, step, accesses]
  cases owners : s.mutex side with
  | none =>
      rw [owners] at aligned
      exact aligned
  | some owner =>
      rw [owners] at aligned elsewhere
      intro call stage inside
      rw [pc, Function.update_of_ne fun same => elsewhere (congrArg some same)]
        at inside
      exact aligned call stage inside

omit [DecidableEq ι] in
/-- A step of the owner of the mutex. -/
theorem Aligned.of_owner
    {call : Call T}
    {stage : Stage}
    (mutex : s'.mutex side = some thread)
    (pc : s'.pc thread = .inside call stage)
    (indexed : Indexed num stage (s'.step side) (s'.accesses side)) :
    s'.Aligned num side := by
  rw [Aligned, mutex]
  intro call' stage' here
  obtain ⟨-, rfl⟩ := Point.inside.inj (pc.symm.trans here)
  exact indexed

omit [DecidableEq ι] in
/-- What the index is for a thread inside. -/
theorem Aligned.indexed
    {call : Call T}
    {stage : Stage}
    (aligned : s.Aligned num call.side)
    (guarded : Guarded (Point.at call.side Stage.critical) (s.mutex call.side) s.pc)
    (here : s.pc thread = .inside call stage)
    (critical : stage.critical = true) :
    Indexed num stage (s.step call.side) (s.accesses call.side) := by
  rw [Aligned, guarded.owner_at here critical] at aligned
  exact aligned call stage here

/-- Every step keeps the counter of a side at its next slot. -/
theorem Move.aligned
    (moved : s.Move num s')
    (guarded : ∀ side, Guarded (Point.at side Stage.critical) (s.mutex side) s.pc)
    (aligned : s.Aligned num side) :
    s'.Aligned num side := by
  cases moved with
  | call call here =>
      refine aligned.of_elsewhere rfl rfl rfl rfl ?_
      apply (guarded side).not_owner
      rw [here]
      rfl
  | wait here token =>
      refine aligned.of_elsewhere rfl rfl rfl rfl ?_
      exact (guarded side).not_owner_of_outside here rfl
  | @lock thread call here unlocked =>
      by_cases same : call.side = side
      · subst same
        refine Aligned.of_owner (Function.update_self ..) (Function.update_self ..) ?_
        rw [Aligned, unlocked] at aligned
        exact aligned
      · refine aligned.of_elsewhere ?_ rfl rfl rfl ?_
        · exact Function.update_of_ne (Ne.symm same) _ _
        · exact (guarded side).not_owner_of_outside here rfl
  | @access thread call here =>
      by_cases same : call.side = side
      · subst same
        have index := aligned.indexed (guarded _) here rfl
        refine Aligned.of_owner ?_ (Function.update_self ..) ?_
        · exact (congrFun (access_mutex s call) _).trans ((guarded _).owner_at here rfl)
        · refine ⟨s.accesses call.side, accesses_access_self s call, ?_⟩
          exact (congrFun (access_step s call) _).trans index
      · have pc : ((s.access call).goto thread (.inside call .increment)).pc =
            Function.update s.pc thread (.inside call .increment) := by
          rw [goto, access_pc]
        refine aligned.of_elsewhere ?_ ?_ ?_ pc ?_
        · exact congrFun (access_mutex s call) side
        · exact congrFun (access_step s call) side
        · exact accesses_access_other same
        · exact (guarded side).not_owner_of_ne here same
  | @increment thread call here =>
      by_cases same : call.side = side
      · subst same
        obtain ⟨before, made, index⟩ := aligned.indexed (guarded _) here rfl
        have owner := (guarded _).owner_at here rfl
        refine Aligned.of_owner owner (Function.update_self ..) ?_
        refine ⟨before, made, ?_⟩
        exact (Function.update_self ..).trans (congrArg (· + 1) index)
      · refine aligned.of_elsewhere rfl ?_ rfl rfl ?_
        · exact Function.update_of_ne (Ne.symm same) _ _
        · exact (guarded side).not_owner_of_ne here same
  | @modulo thread call here =>
      by_cases same : call.side = side
      · subst same
        obtain ⟨before, made, index⟩ := aligned.indexed (guarded _) here rfl
        have owner := (guarded _).owner_at here rfl
        refine Aligned.of_owner owner (Function.update_self ..) ?_
        have wrapped : s.step call.side % num = s.accesses call.side % num := by
          rw [made, index, Nat.mod_add_mod]
        exact (Function.update_self ..).trans wrapped
      · refine aligned.of_elsewhere rfl ?_ rfl rfl ?_
        · exact Function.update_of_ne (Ne.symm same) _ _
        · exact (guarded side).not_owner_of_ne here same
  | @unlock thread call here =>
      by_cases same : call.side = side
      · subst same
        have index := aligned.indexed (guarded _) here rfl
        simp only [Aligned, goto, mutexUnlock, Function.update_self]
        exact index
      · refine aligned.of_elsewhere ?_ rfl rfl rfl ?_
        · exact Function.update_of_ne (Ne.symm same) _ _
        · exact (guarded side).not_owner_of_ne here same
  | post here =>
      refine aligned.of_elsewhere rfl rfl rfl rfl ?_
      exact (guarded side).not_owner_of_outside here rfl

end Critical

/-! ## Whole runs -/

section Runs

variable [Fintype ι] {num : Nat} {s s' : State ι T} {thread : ι}

omit [DecidableEq ι] in
/-- No more values are in the ring than it has slots. -/
theorem InOrder.written_le (order : s.InOrder num) :
    s.written.length ≤ s.read.length + num := by
  have balanced := order.balanced .producer
  rw [Balanced] at balanced
  change s.read.length + num = s.written.length + _ + _ + _ at balanced
  omega

omit [DecidableEq ι] in
/-- A thread that accesses the ring does so at the next slot of its side. -/
theorem InOrder.step_at_access
    {call : Call T}
    (order : s.InOrder num)
    (here : s.pc thread = .inside call .access) :
    s.step call.side = s.accesses call.side % num :=
  (order.aligned call.side).indexed (order.guarded call.side) here rfl

omit [DecidableEq ι] in
/-- A thread that accesses the ring was granted this slot. -/
theorem InOrder.accesses_lt_granted
    {call : Call T}
    (order : s.InOrder num)
    (here : s.pc thread = .inside call .access) :
    s.accesses call.side < s.granted num call.side :=
  (order.balanced call.side).accesses_lt_granted here rfl

omit [DecidableEq ι] in
/-- A write or a read at the next slot keeps what the slots hold. -/
theorem InOrder.stored_access
    {call : Call T}
    (order : s.InOrder num)
    (here : s.pc thread = .inside call .access) :
    Stored num (s.access call).rq (s.access call).unread (s.access call).written
      (s.access call).read := by
  have index := order.step_at_access here
  have room := order.accesses_lt_granted here
  cases call with
  | push value =>
      simp only [State.access]
      change s.step .producer = s.written.length % num at index
      rw [index]
      exact order.stored.push room value
  | pop =>
      simp only [State.access]
      change s.step .consumer = s.read.length % num at index
      rw [index]
      exact order.stored.pop room order.written_le

/-- Every step keeps the order. -/
theorem InOrder.move
    (order : s.InOrder num)
    (moved : s.Move num s') :
    s'.InOrder num := by
  constructor
  · exact fun side => moved.balanced (order.balanced side)
  · exact fun side => moved.guarded (order.guarded side)
  · exact fun side => moved.aligned order.guarded (order.aligned side)
  · cases moved with
    | access here => exact order.stored_access here
    | _ => exact order.stored

omit [DecidableEq ι] in
/-- A new ring is in order. -/
theorem InOrder.create (num : Nat) (rq : Nat → T) :
    (State.create num rq : State ι T).InOrder num := by
  have nobody (kind : Point T Stage → Bool) (idle : kind .idle = false) :
      count kind (State.create num rq : State ι T).pc = 0 :=
    count_eq_zero_iff.mpr fun _ => idle
  refine ⟨?_, ?_, ?_, ?_⟩
  · intro side
    rw [Balanced, nobody _ rfl, nobody _ rfl]
    cases side with
    | producer => rfl
    | consumer => rfl
  · intro side thread
    exact iff_of_false Bool.false_ne_true (by simp [State.create])
  · intro side
    cases side with
    | producer => exact (Nat.zero_mod num).symm
    | consumer => exact (Nat.zero_mod num).symm
  · exact Stored.empty num rq

end Runs

end State

/-- In every run the ring is in order. -/
theorem inOrder
    (ι T : Type) [Fintype ι] [DecidableEq ι] (num : Nat) :
    (machine ι T num).Invariant (State.InOrder num) := by
  apply Transition.Machine.invariant_of_actions
  · rintro s ⟨rq, rfl⟩
    exact State.InOrder.create num rq
  · intro action s s' order acted
    exact order.move (State.move_of_act acted)

/-! ## The bounded queue -/

/-- What a ring of `num` slots is for. -/
structure BoundedFifo {ι T : Type} (num : Nat) (s : State ι T) : Prop where
  inRange : ∀ thread call, s.pc thread = .inside call .access → s.step call.side < num
  notOverwritten : ∀ thread value, s.pc thread = .inside (.push value) .access →
    s.unread (s.step .producer) = false
  writtenBefore : ∀ thread, s.pc thread = .inside .pop .access →
    s.unread (s.step .consumer) = true
  apart : ∀ writer value reader, s.pc writer = .inside (.push value) .access →
    s.pc reader = .inside .pop .access → s.step .producer ≠ s.step .consumer
  alone : ∀ thread call other call', s.pc thread = .inside call .access →
    s.pc other = .inside call' .access → call.side = call'.side → thread = other
  fifo : s.read <+: s.written

namespace State.InOrder

variable {ι T : Type} [Fintype ι] {num : Nat} {s : State ι T} {thread : ι}

/-- A ring without slots is never accessed. -/
theorem num_pos
    {call : Call T}
    (order : s.InOrder num)
    (here : s.pc thread = .inside call .access) :
    0 < num := by
  have room := order.accesses_lt_granted here
  have lower := order.stored.read_le_written
  have upper := order.written_le
  cases call with
  | push value =>
      change s.written.length < s.read.length + num at room
      omega
  | pop =>
      change s.read.length < s.written.length at room
      omega

/-- A producer writes to a slot that was read. -/
theorem notOverwritten
    {value : T}
    (order : s.InOrder num)
    (here : s.pc thread = .inside (.push value) .access) :
    s.unread (s.step .producer) = false := by
  have index : s.step .producer = s.written.length % num := order.step_at_access here
  have room : s.written.length < s.read.length + num := order.accesses_lt_granted here
  rw [index]
  exact order.stored.next_write_free room

/-- A consumer reads a slot that was written. -/
theorem writtenBefore
    (order : s.InOrder num)
    (here : s.pc thread = .inside .pop .access) :
    s.unread (s.step .consumer) = true := by
  have index : s.step .consumer = s.read.length % num := order.step_at_access here
  have present : s.read.length < s.written.length := order.accesses_lt_granted here
  rw [index]
  exact order.stored.next_read_unread present

/-- A ring in order is a bounded FIFO. -/
theorem boundedFifo (order : s.InOrder num) : BoundedFifo num s := by
  constructor
  · intro thread call here
    rw [order.step_at_access here]
    exact Nat.mod_lt _ (order.num_pos here)
  · intro thread value here
    exact order.notOverwritten here
  · intro thread here
    exact order.writtenBefore here
  · intro writer value reader writes reads same
    have isUnread := order.writtenBefore reads
    rw [← same, order.notOverwritten writes] at isUnread
    exact Bool.false_ne_true isUnread
  · intro thread call other call' here otherHere same
    have owns := (order.guarded call.side).owner_at here rfl
    have otherOwns := (order.guarded call'.side).owner_at otherHere rfl
    rw [← same, owns] at otherOwns
    exact Option.some.inj otherOwns
  · rw [order.stored.copied]
    exact List.take_prefix _ _

end State.InOrder

/-- However its threads take turns, a ring is a bounded queue: an index is in range
when it is used, a slot is written only when its last value has been read and read
only when it holds a value that has not been read, never both at once, and values
are read in the order in which they are written. -/
theorem ring_bounded_fifo
    (ι T : Type) [Fintype ι] [DecidableEq ι] (num : Nat) :
    (machine ι T num).Invariant (BoundedFifo num) := by
  intro s reached
  exact (inOrder ι T num s reached).boundedFifo

/-- One thread has pushed and pushes again while another one pops. -/
def overlapping : Option (State (Fin 2) Nat) :=
  Transition.run (State.act 2)
    [.call 0 (.push 7), .next 0, .next 0, .next 0, .next 0, .next 0, .next 0, .next 0,
      .call 0 (.push 8), .next 0, .next 0, .call 1 .pop, .next 1, .next 1]
    (State.create 2 fun _ => 0)

theorem ring_bounded_fifo_overlapping :
    ∃ s, overlapping = some s ∧ s.pc 0 = .inside (.push 8) .access ∧
      s.pc 1 = .inside .pop .access ∧ s.step .producer ≠ s.step .consumer := by
  have ran : overlapping.isSome = true := rfl
  have reached : (machine (Fin 2) Nat 2).Reachable (overlapping.get ran) := by
    refine Transition.reachable_of_run (.start ?_) (Option.some_get ran).symm
    exact ⟨fun _ => 0, rfl⟩
  refine ⟨overlapping.get ran, (Option.some_get ran).symm, rfl, rfl, ?_⟩
  exact (ring_bounded_fifo (Fin 2) Nat 2 _ reached).apart 0 8 1 rfl rfl

/-! ## Progress -/

namespace State

variable {ι T : Type}

/-- Some thread is inside a call on the side. -/
def Inside (side : Side) (s : State ι T) : Prop :=
  ∃ thread call stage, s.pc thread = .inside call stage ∧ call.side = side

variable [DecidableEq ι]

/-- Some thread inside `push` or `pop` can take its next step. -/
def Progresses (num : Nat) (s : State ι T) : Prop :=
  ∃ thread call stage, s.pc thread = .inside call stage ∧
    ∃ s', s.act num (.next thread) = some s'

variable {num : Nat} {s : State ι T} {thread : ι} {call : Call T} {stage : Stage}

/-- The two places at which a call may have to wait. -/
theorem advance_eq_none_iff :
    s.advance num thread call stage = none ↔
      (stage = .wait ∧ s.sem call.side = 0) ∨
        (stage = .lock ∧ ∃ owner, s.mutex call.side = some owner) := by
  cases stage with
  | wait => simp [advance]
  | lock =>
      rw [advance]
      cases s.mutex call.side with
      | none => simp
      | some owner => simp
  | access => simp [advance]
  | increment => simp [advance]
  | modulo => simp [advance]
  | unlock => simp [advance]
  | post => simp [advance]

/-- Where a thread stands that holds up a state without progress. -/
theorem blocked_of_not_progresses
    (stuck : ¬ s.Progresses num)
    (here : s.pc thread = .inside call stage) :
    (stage = .wait ∧ s.sem call.side = 0) ∨
      (stage = .lock ∧ ∃ owner, s.mutex call.side = some owner) := by
  apply advance_eq_none_iff.mp
  rw [Option.eq_none_iff_forall_ne_some]
  intro s' acted
  apply stuck
  refine ⟨thread, call, stage, here, s', ?_⟩
  simp only [act, here]
  exact acted

variable [Fintype ι]

/-- The owner of a mutex is never blocked, so all threads wait for a token. -/
theorem InOrder.waits_of_not_progresses
    (order : s.InOrder num)
    (stuck : ¬ s.Progresses num)
    (here : s.pc thread = .inside call stage) :
    stage = .wait ∧ s.sem call.side = 0 := by
  rcases blocked_of_not_progresses stuck here with waits | ⟨-, owner, owned⟩
  · exact waits
  · have present := (order.guarded call.side owner).mpr owned
    obtain ⟨call', stage', inside, -, critical⟩ := Point.exists_of_at present
    rcases blocked_of_not_progresses stuck inside with ⟨rfl, -⟩ | ⟨rfl, -⟩
    · exact absurd critical Bool.false_ne_true
    · exact absurd critical Bool.false_ne_true

/-- Without progress no thread holds a token. -/
theorem InOrder.count_of_not_progresses
    (order : s.InOrder num)
    (stuck : ¬ s.Progresses num)
    (side : Side)
    {kind : Stage → Bool}
    (outside : kind .wait = false) :
    count (Point.at side kind) s.pc = 0 := by
  rw [count_eq_zero_iff]
  intro thread
  rw [Bool.eq_false_iff]
  intro present
  obtain ⟨call, stage, here, -, isKind⟩ := Point.exists_of_at present
  obtain ⟨rfl, -⟩ := order.waits_of_not_progresses stuck here
  rw [outside] at isKind
  exact Bool.false_ne_true isKind

/-- Then what a side has used is all that it was ever granted. -/
theorem InOrder.granted_of_not_progresses
    {side : Side}
    (order : s.InOrder num)
    (stuck : ¬ s.Progresses num)
    (inside : s.Inside side) :
    s.granted num side = s.accesses side := by
  obtain ⟨thread, call, stage, here, rfl⟩ := inside
  have noToken := (order.waits_of_not_progresses stuck here).2
  have balanced := order.balanced call.side
  rw [Balanced, noToken, order.count_of_not_progresses stuck _ rfl,
    order.count_of_not_progresses stuck _ rfl] at balanced
  exact balanced

/-- With a producer and a consumer inside there is always a thread that can go on. -/
theorem InOrder.progresses
    (order : s.InOrder num)
    (positive : 0 < num)
    (producing : s.Inside .producer)
    (consuming : s.Inside .consumer) :
    s.Progresses num := by
  by_contra stuck
  have full : s.read.length + num = s.written.length :=
    order.granted_of_not_progresses stuck producing
  have empty : s.written.length = s.read.length :=
    order.granted_of_not_progresses stuck consuming
  omega

end State

/-- While a producer and a consumer are inside, a ring with a slot never comes to a
standstill. -/
theorem ring_no_deadlock
    (ι T : Type) [Fintype ι] [DecidableEq ι]
    (num : Nat)
    (positive : 0 < num) :
    (machine ι T num).Invariant fun s =>
      s.Inside .producer → s.Inside .consumer → s.Progresses num := by
  intro s reached producing consuming
  exact (inOrder ι T num s reached).progresses positive producing consuming

/-- A consumer comes before the producer and has to wait. -/
def hungry : Option (State (Fin 2) Nat) :=
  Transition.run (State.act 1) [.call 1 .pop, .call 0 (.push 7)]
    (State.create 1 fun _ => 0)

theorem ring_no_deadlock_hungry :
    ∃ s, hungry = some s ∧ s.act 1 (.next 1) = none ∧ s.Progresses 1 := by
  have ran : hungry.isSome = true := rfl
  have reached : (machine (Fin 2) Nat 1).Reachable (hungry.get ran) := by
    refine Transition.reachable_of_run (.start ?_) (Option.some_get ran).symm
    exact ⟨fun _ => 0, rfl⟩
  refine ⟨hungry.get ran, (Option.some_get ran).symm, rfl, ?_⟩
  apply ring_no_deadlock (Fin 2) Nat 1 Nat.one_pos _ reached
  · exact ⟨0, .push 7, .wait, rfl, rfl⟩
  · exact ⟨1, .pop, .wait, rfl, rfl⟩

end RingQueue
end LearnInLinux
