import LearnInLinux.Library.Threads
import LearnInLinux.Library.Transition
import Mathlib.Tactic

/-!
# The thread pool

Threads push tasks into a queue behind a mutex, and workers take them out and run
them outside of the mutex. A worker that finds the queue empty waits on the condition
variable of the pool. The two pools of the repository differ in one point: `push`
wakes a worker after it has unlocked the mutex, `pushTask` before.
-/

namespace LearnInLinux
namespace ThreadPool

open Threads

/-- The two pools. -/
inductive Variant
  /-- `push`: `unLockQ(); Wakeup();` -/
  | wakeupOutside
  /-- `pushTask`: the signal under the `lockGuard`. -/
  | wakeupInside

/-- The steps of `push`. -/
inductive PushStage
  | lock
  /-- `_tq.push(task)` -/
  | add
  | unlock
  | wakeup

/-- The steps of `Routine`, which begins again behind the last one. -/
inductive WorkStage (T : Type)
  | lock
  /-- `isEmpty()` -/
  | check
  /-- In front of `pthread_cond_wait`. -/
  | wait
  | blocked
  /-- Woken up, in front of taking the mutex again. -/
  | woken
  /-- `task = _tq.front()` -/
  | front
  /-- `_tq.pop()` after `front()` has returned `task`. -/
  | erase (task : T)
  | unlock (task : T)
  /-- `task.Run()` -/
  | run (task : T)

/-- Where a thread is: outside, in a call of `push`, or a worker. -/
inductive Point (T : Type)
  | idle
  | push (task : T) (stage : PushStage)
  | routine (stage : WorkStage T)

/-- The pool: its queue, its mutex, where the threads are, and what has become of the tasks.
-/
structure State (ι T : Type) where
  tq : List T
  mtx : Option ι
  pc : ι → Point T
  /-- Tasks pushed, in the order in which their threads held the mutex. -/
  pushed : List T
  /-- Tasks taken out of the queue, each with the worker that took it. -/
  taken : List (ι × T)
  /-- Tasks run, each with the worker that ran it. -/
  ran : List (ι × T)

/-- What happens next: a call of `push`, a new worker, a step of a thread, a signal
that wakes some of the workers waiting for it, or a wakeup without a signal. -/
inductive Action (ι T : Type)
  | push (thread : ι) (task : T)
  | start (thread : ι)
  | next (thread : ι)
  | signal (thread : ι) (woken : Finset ι)
  | wakeup (thread : ι)

namespace Variant

/-- Where `push` is when the task is in the queue. -/
def behindAdd : Variant → PushStage
  | .wakeupOutside => .unlock
  | .wakeupInside => .wakeup

/-- The next step of `push` behind `unLockQ`. -/
def behindUnlock {T : Type} (task : T) : Variant → Point T
  | .wakeupOutside => .push task .wakeup
  | .wakeupInside => .idle

/-- The next step of `push` behind `Wakeup`. -/
def behindWakeup {T : Type} (task : T) : Variant → Point T
  | .wakeupOutside => .idle
  | .wakeupInside => .push task .unlock

end Variant

/-- The worker is blocked on the condition variable. -/
def isBlocked {T : Type} : Point T → Bool
  | .routine .blocked => true
  | _ => false

/-- A woken worker leaves the condition variable. -/
def resume {T : Type} : Point T → Point T
  | .routine .blocked => .routine .woken
  | point => point

namespace State

variable {ι T : Type}

/-- `IsEmpty` -/
def isEmpty (s : State ι T) : Bool :=
  decide (s.tq.length = 0)

variable [DecidableEq ι]

/-- A thread goes to another point. -/
def goto (thread : ι) (point : Point T) (s : State ι T) : State ι T :=
  { s with pc := Function.update s.pc thread point }

/-- `LockQ` -/
def LockQ (thread : ι) (s : State ι T) : State ι T :=
  { s with mtx := some thread }

/-- `unLockQ` -/
def unLockQ (s : State ι T) : State ι T :=
  { s with mtx := none }

/-- `_tq.push(task)` -/
def add (task : T) (s : State ι T) : State ι T :=
  { s with
    tq := s.tq ++ [task]
    pushed := s.pushed ++ [task] }

/-- `_tq.pop()`, with the task for the thread. -/
def erase (worker : ι) (task : T) (s : State ι T) : State ι T :=
  { s with
    tq := s.tq.tail
    taken := s.taken ++ [(worker, task)] }

/-- `t.Run()` in a thread. -/
def Run (worker : ι) (task : T) (s : State ι T) : State ι T :=
  { s with ran := s.ran ++ [(worker, task)] }

/-- `Wakeup`, with the threads that it wakes. -/
def Wakeup (woken : Finset ι) (s : State ι T) : State ι T :=
  { s with pc := wake resume woken s.pc }

/-- One step of `push`; `none` while the thread has to wait. -/
def pushStep
    (variant : Variant) (thread : ι) (task : T) (stage : PushStage)
    (s : State ι T) : Option (State ι T) :=
  match stage with
  | .lock =>
      match s.mtx with
      | some _ => none
      | none => some ((s.LockQ thread).goto thread (.push task .add))
  | .add => some ((s.add task).goto thread (.push task variant.behindAdd))
  | .unlock => some (s.unLockQ.goto thread (variant.behindUnlock task))
  | .wakeup => none

/-- One step of `Routine`; `none` while the worker has to wait. -/
def routineStep
    (worker : ι) (stage : WorkStage T) (s : State ι T) : Option (State ι T) :=
  match stage with
  | .lock | .woken =>
      match s.mtx with
      | some _ => none
      | none => some ((s.LockQ worker).goto worker (.routine .check))
  | .check =>
      if s.isEmpty then some (s.goto worker (.routine .wait))
      else some (s.goto worker (.routine .front))
  | .wait => some (s.unLockQ.goto worker (.routine .blocked))
  | .blocked => none
  | .front =>
      match s.tq with
      | [] => none
      | task :: _ => some (s.goto worker (.routine (.erase task)))
  | .erase task => some ((s.erase worker task).goto worker (.routine (.unlock task)))
  | .unlock task => some (s.unLockQ.goto worker (.routine (.run task)))
  | .run task => some ((s.Run worker task).goto worker (.routine .lock))

/-- A step of a thread; `none` while it is not the next one, or has to wait. -/
def act
    [Fintype ι]
    (variant : Variant) (action : Action ι T) (s : State ι T) : Option (State ι T) :=
  match action with
  | .push thread task =>
      match s.pc thread with
      | .idle => some (s.goto thread (.push task .lock))
      | _ => none
  | .start thread =>
      match s.pc thread with
      | .idle => some (s.goto thread (.routine .lock))
      | _ => none
  | .next thread =>
      match s.pc thread with
      | .idle => none
      | .push task stage => s.pushStep variant thread task stage
      | .routine stage => s.routineStep thread stage
  | .signal thread woken =>
      match s.pc thread with
      | .push task .wakeup =>
          if Signals isBlocked s.pc woken then
            some ((s.Wakeup woken).goto thread (variant.behindWakeup task))
          else none
      | _ => none
  | .wakeup thread =>
      match s.pc thread with
      | .routine .blocked => some (s.goto thread (.routine .woken))
      | _ => none

/-- The pool behind its constructor. -/
def create (ι T : Type) : State ι T where
  tq := []
  mtx := none
  pc _ := .idle
  pushed := []
  taken := []
  ran := []

end State

/-- All runs of any threads on a pool. -/
def machine (ι T : Type) [Fintype ι] [DecidableEq ι] (variant : Variant) :
    Transition.Machine (State ι T) :=
  .ofStep (fun s => s = State.create ι T) (State.act variant)

namespace State

variable {ι T : Type} [Fintype ι] [DecidableEq ι]

/-- Everything that one action can do. -/
inductive Move (variant : Variant) (s : State ι T) : State ι T → Prop
  | push {thread : ι} (task : T)
      (here : s.pc thread = .idle) :
      Move variant s (s.goto thread (.push task .lock))
  | start {thread : ι}
      (here : s.pc thread = .idle) :
      Move variant s (s.goto thread (.routine .lock))
  | lockPush {thread : ι} {task : T}
      (here : s.pc thread = .push task .lock)
      (unlocked : s.mtx = none) :
      Move variant s ((s.LockQ thread).goto thread (.push task .add))
  | add {thread : ι} {task : T}
      (here : s.pc thread = .push task .add) :
      Move variant s ((s.add task).goto thread (.push task variant.behindAdd))
  | unlockPush {thread : ι} {task : T}
      (here : s.pc thread = .push task .unlock) :
      Move variant s (s.unLockQ.goto thread (variant.behindUnlock task))
  | signal {thread : ι} {task : T} {woken : Finset ι}
      (here : s.pc thread = .push task .wakeup)
      (signals : Signals isBlocked s.pc woken) :
      Move variant s ((s.Wakeup woken).goto thread (variant.behindWakeup task))
  | lock {worker : ι}
      (here : s.pc worker = .routine .lock)
      (unlocked : s.mtx = none) :
      Move variant s ((s.LockQ worker).goto worker (.routine .check))
  | relock {worker : ι}
      (here : s.pc worker = .routine .woken)
      (unlocked : s.mtx = none) :
      Move variant s ((s.LockQ worker).goto worker (.routine .check))
  | suspend {worker : ι}
      (here : s.pc worker = .routine .check)
      (empty : s.tq = []) :
      Move variant s (s.goto worker (.routine .wait))
  | proceed {worker : ι}
      (here : s.pc worker = .routine .check)
      (present : s.tq ≠ []) :
      Move variant s (s.goto worker (.routine .front))
  | wait {worker : ι}
      (here : s.pc worker = .routine .wait) :
      Move variant s (s.unLockQ.goto worker (.routine .blocked))
  | front {worker : ι} {task : T} {rest : List T}
      (here : s.pc worker = .routine .front)
      (queue : s.tq = task :: rest) :
      Move variant s (s.goto worker (.routine (.erase task)))
  | erase {worker : ι} {task : T}
      (here : s.pc worker = .routine (.erase task)) :
      Move variant s ((s.erase worker task).goto worker (.routine (.unlock task)))
  | unlock {worker : ι} {task : T}
      (here : s.pc worker = .routine (.unlock task)) :
      Move variant s (s.unLockQ.goto worker (.routine (.run task)))
  | run {worker : ι} {task : T}
      (here : s.pc worker = .routine (.run task)) :
      Move variant s ((s.Run worker task).goto worker (.routine .lock))
  | wakeup {worker : ι}
      (here : s.pc worker = .routine .blocked) :
      Move variant s (s.goto worker (.routine .woken))

variable {variant : Variant} {s s' : State ι T} {thread : ι}

/-- A step of a thread inside `push`. -/
theorem move_of_pushStep
    {task : T}
    {stage : PushStage}
    (here : s.pc thread = .push task stage)
    (stepped : s.pushStep variant thread task stage = some s') :
    s.Move variant s' := by
  cases stage with
  | lock =>
      rw [pushStep] at stepped
      split at stepped
      · exact absurd stepped (by simp)
      · rename_i unlocked
        obtain rfl := Option.some.inj stepped
        exact .lockPush here unlocked
  | add =>
      obtain rfl := Option.some.inj stepped
      exact .add here
  | unlock =>
      obtain rfl := Option.some.inj stepped
      exact .unlockPush here
  | wakeup => exact absurd stepped (by simp [pushStep])

/-- A step of a worker. -/
theorem move_of_routineStep
    {stage : WorkStage T}
    (here : s.pc thread = .routine stage)
    (stepped : s.routineStep thread stage = some s') :
    s.Move variant s' := by
  cases stage with
  | lock =>
      rw [routineStep] at stepped
      split at stepped
      · exact absurd stepped (by simp)
      · rename_i unlocked
        obtain rfl := Option.some.inj stepped
        exact .lock here unlocked
  | check =>
      rw [routineStep] at stepped
      split at stepped
      · rename_i empty
        obtain rfl := Option.some.inj stepped
        apply Move.suspend here
        exact List.eq_nil_of_length_eq_zero (of_decide_eq_true empty)
      · rename_i present
        obtain rfl := Option.some.inj stepped
        apply Move.proceed here
        intro empty
        exact present (decide_eq_true (congrArg List.length empty))
  | wait =>
      obtain rfl := Option.some.inj stepped
      exact .wait here
  | blocked => exact absurd stepped (by simp [routineStep])
  | woken =>
      rw [routineStep] at stepped
      split at stepped
      · exact absurd stepped (by simp)
      · rename_i unlocked
        obtain rfl := Option.some.inj stepped
        exact .relock here unlocked
  | front =>
      rw [routineStep] at stepped
      split at stepped
      · exact absurd stepped (by simp)
      · rename_i task rest queue
        obtain rfl := Option.some.inj stepped
        exact .front here queue
  | erase task =>
      obtain rfl := Option.some.inj stepped
      exact .erase here
  | unlock task =>
      obtain rfl := Option.some.inj stepped
      exact .unlock here
  | run task =>
      obtain rfl := Option.some.inj stepped
      exact .run here

/-- A step of the pool is one of the moves. -/
theorem move_of_act
    {action : Action ι T}
    (acted : s.act variant action = some s') :
    s.Move variant s' := by
  cases action with
  | push thread task =>
      rw [act] at acted
      split at acted
      · rename_i here
        obtain rfl := Option.some.inj acted
        exact .push task here
      · exact absurd acted (by simp)
  | start thread =>
      rw [act] at acted
      split at acted
      · rename_i here
        obtain rfl := Option.some.inj acted
        exact .start here
      · exact absurd acted (by simp)
  | next thread =>
      rw [act] at acted
      split at acted
      · exact absurd acted (by simp)
      · rename_i task stage here
        exact move_of_pushStep here acted
      · rename_i stage here
        exact move_of_routineStep here acted
  | signal thread woken =>
      rw [act] at acted
      split at acted
      · rename_i task here
        split at acted
        · rename_i signals
          obtain rfl := Option.some.inj acted
          exact .signal here signals
        · exact absurd acted (by simp)
      · exact absurd acted (by simp)
  | wakeup thread =>
      rw [act] at acted
      split at acted
      · rename_i here
        obtain rfl := Option.some.inj acted
        exact .wakeup here
      · exact absurd acted (by simp)

end State

/-! ## The mutex and the queue -/

section Points

variable {T : Type} {tq : List T}

/-- Between locking and unlocking. -/
def holding (variant : Variant) : Point T → Bool
  | .push _ .add => true
  | .push _ .unlock => true
  | .push _ .wakeup =>
      match variant with
      | .wakeupOutside => false
      | .wakeupInside => true
  | .routine .check => true
  | .routine .wait => true
  | .routine .front => true
  | .routine (.erase _) => true
  | .routine (.unlock _) => true
  | _ => false

/-- What a worker inside knows about the queue. -/
def Assured (tq : List T) : Point T → Prop
  | .routine .front => tq ≠ []
  | .routine (.erase task) => tq.head? = some task
  | _ => True

/-- The task that a worker has taken and not yet run. -/
def held : Point T → List T
  | .routine (.unlock task) => [task]
  | .routine (.run task) => [task]
  | _ => []

/-- Behind `_tq.push(task)` the thread is still inside the mutex. -/
theorem holding_behindAdd (variant : Variant) (task : T) :
    holding variant (.push task variant.behindAdd) = true := by
  cases variant <;> rfl

/-- Behind `unLockQ` it is not. -/
theorem holding_behindUnlock (variant : Variant) (task : T) :
    holding variant (variant.behindUnlock task) = false := by
  cases variant <;> rfl

/-- A signal leaves the mutex alone, whether it is inside or outside. -/
theorem holding_behindWakeup (variant : Variant) (task : T) :
    holding variant (variant.behindWakeup task) =
      holding variant (.push task .wakeup) := by
  cases variant <;> rfl

theorem assured_behindUnlock (variant : Variant) (task : T) :
    Assured tq (variant.behindUnlock task) := by
  cases variant <;> trivial

theorem assured_behindWakeup (variant : Variant) (task : T) :
    Assured tq (variant.behindWakeup task) := by
  cases variant <;> trivial

theorem held_behindUnlock (variant : Variant) (task : T) :
    held (variant.behindUnlock task) = [] := by
  cases variant <;> rfl

theorem held_behindWakeup (variant : Variant) (task : T) :
    held (variant.behindWakeup task) = [] := by
  cases variant <;> rfl

/-- A thread outside of the mutex relies on nothing. -/
theorem assured_of_outside
    {variant : Variant}
    (point : Point T)
    (outside : holding variant point = false) :
    Assured tq point := by
  cases point with
  | idle => trivial
  | push task stage => trivial
  | routine stage =>
      cases stage with
      | front => exact absurd outside Bool.false_ne_true.symm
      | erase task => exact absurd outside Bool.false_ne_true.symm
      | _ => trivial

/-- A signal leaves the thread where it waits, which is outside of the mutex. -/
theorem holding_resume (variant : Variant) (point : Point T) :
    holding variant (resume point) = holding variant point := by
  cases point with
  | idle => rfl
  | push task stage => rfl
  | routine stage => cases stage <;> rfl

/-- A signal brings no task. -/
theorem held_resume (point : Point T) : held (resume point) = held point := by
  cases point with
  | idle => rfl
  | push task stage => rfl
  | routine stage => cases stage <;> rfl

/-- A thread that was woken has to look at the queue again. -/
theorem Assured.resume
    {point : Point T}
    (assured : Assured tq point) :
    Assured tq (resume point) := by
  cases point with
  | idle => trivial
  | push task stage => trivial
  | routine stage =>
      cases stage with
      | blocked => trivial
      | _ => exact assured

end Points

/-- The tasks of one worker in a log. -/
def tasksOf {ι T : Type} [DecidableEq ι] (worker : ι) (log : List (ι × T)) : List T :=
  (log.filter fun entry => entry.1 = worker).map Prod.snd

/-- One more task of the worker. -/
theorem tasksOf_append_self
    {ι T : Type} [DecidableEq ι]
    (worker : ι) (log : List (ι × T)) (task : T) :
    tasksOf worker (log ++ [(worker, task)]) = tasksOf worker log ++ [task] := by
  simp [tasksOf, List.filter_append]

/-- A task of another worker. -/
theorem tasksOf_append_of_ne
    {ι T : Type} [DecidableEq ι]
    {worker other : ι}
    (different : other ≠ worker)
    (log : List (ι × T)) (task : T) :
    tasksOf other (log ++ [(worker, task)]) = tasksOf other log := by
  simp [tasksOf, List.filter_append, different.symm]

namespace State

variable {ι T : Type} [DecidableEq ι] {variant : Variant} {s s' : State ι T}
  {thread : ι}

/-- A worker has run what it has taken, but for the task it holds. -/
def Runs (s : State ι T) (worker : ι) : Prop :=
  tasksOf worker s.taken = tasksOf worker s.ran ++ held (s.pc worker)

/-- One thread at a time is inside the mutex, and every task is in one place. -/
structure InOrder (variant : Variant) (s : State ι T) : Prop where
  guarded : Guarded (holding variant) s.mtx s.pc
  assured : ∀ thread, Assured s.tq (s.pc thread)
  fifo : s.pushed = s.taken.map Prod.snd ++ s.tq
  runs : ∀ worker, s.Runs worker

/-- A step of one thread that leaves the queue and the logs alone. -/
theorem InOrder.of_quiet
    {before point : Point T}
    (order : s.InOrder variant)
    (here : s.pc thread = before)
    (mtx : Option ι)
    (guarded : Guarded (holding variant) mtx (Function.update s.pc thread point))
    (assured : Assured s.tq point)
    (sameHeld : held point = held before) :
    ({ s with mtx := mtx, pc := Function.update s.pc thread point } :
      State ι T).InOrder variant := by
  constructor
  · exact guarded
  · exact assertion_update order.assured assured
  · exact order.fifo
  · intro worker
    have runs := order.runs worker
    rw [Runs] at runs ⊢
    rw [runs]
    by_cases isThread : worker = thread
    · rw [isThread, here]
      simp only [Function.update_self, sameHeld]
    · simp only [Function.update_of_ne isThread]

/-- Signals leave the queue and the tasks alone. -/
theorem InOrder.wake
    {woken : Finset ι}
    (order : s.InOrder variant) :
    (s.Wakeup woken).InOrder variant := by
  constructor
  · exact order.guarded.of_same (wake_same (holding_resume variant))
  · exact assertion_wake order.assured fun _ => Assured.resume
  · exact order.fifo
  · intro worker
    refine (order.runs worker).trans ?_
    rw [Wakeup, wake_same held_resume]

/-- A task is pushed. -/
theorem InOrder.add
    {task : T}
    (order : s.InOrder variant)
    (here : s.pc thread = .push task .add) :
    ((s.add task).goto thread (.push task variant.behindAdd)).InOrder variant := by
  constructor
  · exact order.guarded.move here (holding_behindAdd variant task)
  · exact order.guarded.assertion here rfl assured_of_outside trivial
  · change s.pushed ++ [task] = s.taken.map Prod.snd ++ (s.tq ++ [task])
    rw [order.fifo, List.append_assoc]
  · intro worker
    have runs := order.runs worker
    rw [Runs] at runs ⊢
    refine runs.trans (congrArg _ ?_)
    by_cases isThread : worker = thread
    · rw [isThread, here]
      simp only [goto, Function.update_self, held]
    · simp only [goto, Function.update_of_ne isThread, State.add]

/-- A task goes from the queue to a worker. -/
theorem InOrder.erase
    {task : T}
    (order : s.InOrder variant)
    (here : s.pc thread = .routine (.erase task)) :
    ((s.erase thread task).goto thread (.routine (.unlock task))).InOrder variant := by
  have first := order.assured thread
  rw [here] at first
  have queue : s.tq = task :: s.tq.tail := List.eq_cons_of_mem_head? first
  constructor
  · exact order.guarded.move here rfl
  · exact order.guarded.assertion here rfl assured_of_outside trivial
  · change s.pushed = (s.taken ++ [(thread, task)]).map Prod.snd ++ s.tq.tail
    rw [order.fifo, List.map_append, List.append_assoc, List.map_singleton,
      List.singleton_append, ← queue]
  · intro worker
    have runs := order.runs worker
    rw [Runs] at runs ⊢
    change tasksOf worker (s.taken ++ [(thread, task)]) = tasksOf worker s.ran ++
      held (Function.update s.pc thread (.routine (.unlock task)) worker)
    by_cases isThread : worker = thread
    · subst isThread
      have nothing : held (s.pc worker) = [] := by
        rw [here]
        rfl
      rw [nothing, List.append_nil] at runs
      rw [Function.update_self, tasksOf_append_self, runs]
      rfl
    · rw [Function.update_of_ne isThread, tasksOf_append_of_ne isThread]
      exact runs

/-- A worker runs the task that it holds. -/
theorem InOrder.run
    {task : T}
    (order : s.InOrder variant)
    (here : s.pc thread = .routine (.run task)) :
    ((s.Run thread task).goto thread (.routine .lock)).InOrder variant := by
  constructor
  · exact order.guarded.move here rfl
  · exact assertion_update order.assured trivial
  · exact order.fifo
  · intro worker
    have runs := order.runs worker
    rw [Runs] at runs ⊢
    change tasksOf worker s.taken = tasksOf worker (s.ran ++ [(thread, task)]) ++
      held (Function.update s.pc thread (.routine .lock) worker)
    by_cases isThread : worker = thread
    · subst isThread
      rw [Function.update_self, tasksOf_append_self, runs, here]
      exact (List.append_nil _).symm
    · rw [Function.update_of_ne isThread, tasksOf_append_of_ne isThread]
      exact runs

variable [Fintype ι]

/-- The thread that sends a signal is not woken by it. -/
theorem still_signalling
    {task : T}
    {woken : Finset ι}
    (here : s.pc thread = .push task .wakeup)
    (signals : Signals isBlocked s.pc woken) :
    (s.Wakeup woken).pc thread = .push task .wakeup := by
  refine (wake_of_notMem fun isWoken => ?_).trans here
  have waits := signals.1 thread isWoken
  rw [here] at waits
  exact Bool.false_ne_true waits

/-- Every move keeps the order. -/
theorem InOrder.move
    (order : s.InOrder variant)
    (moved : s.Move variant s') :
    s'.InOrder variant := by
  cases moved with
  | push task here =>
      exact order.of_quiet here s.mtx (order.guarded.move here rfl) trivial rfl
  | start here =>
      exact order.of_quiet here s.mtx (order.guarded.move here rfl) trivial rfl
  | @lockPush thread task here unlocked =>
      exact order.of_quiet here (some thread) (order.guarded.lock unlocked rfl) trivial rfl
  | add here => exact order.add here
  | @unlockPush thread task here =>
      apply order.of_quiet here none
      · exact order.guarded.unlock here rfl (holding_behindUnlock variant task)
      · exact assured_behindUnlock variant task
      · exact held_behindUnlock variant task
  | @signal thread task woken here signals =>
      have awake : (s.Wakeup woken).InOrder variant := order.wake
      have still := still_signalling here signals
      apply awake.of_quiet still s.mtx
      · exact awake.guarded.move still (holding_behindWakeup variant task)
      · exact assured_behindWakeup variant task
      · exact held_behindWakeup variant task
  | @lock worker here unlocked =>
      exact order.of_quiet here (some worker) (order.guarded.lock unlocked rfl) trivial rfl
  | @relock worker here unlocked =>
      exact order.of_quiet here (some worker) (order.guarded.lock unlocked rfl) trivial rfl
  | suspend here empty =>
      exact order.of_quiet here s.mtx (order.guarded.move here rfl) trivial rfl
  | proceed here present =>
      exact order.of_quiet here s.mtx (order.guarded.move here rfl) present rfl
  | wait here =>
      exact order.of_quiet here none (order.guarded.unlock here rfl rfl) trivial rfl
  | front here queue =>
      refine order.of_quiet here s.mtx (order.guarded.move here rfl) ?_ rfl
      rw [queue]
      rfl
  | erase here => exact order.erase here
  | unlock here =>
      exact order.of_quiet here none (order.guarded.unlock here rfl rfl) trivial rfl
  | run here => exact order.run here
  | wakeup here =>
      exact order.of_quiet here s.mtx (order.guarded.move here rfl) trivial rfl

end State

/-- All runs of a pool. -/
theorem inOrder
    (ι T : Type) [Fintype ι] [DecidableEq ι] (variant : Variant) :
    (machine ι T variant).Invariant (State.InOrder variant) := by
  apply Transition.Machine.invariant_of_actions
  · rintro s rfl
    refine ⟨?_, fun _ => trivial, rfl, fun _ => rfl⟩
    intro thread
    exact iff_of_false Bool.false_ne_true (by simp [State.create])
  · intro action s s' order acted
    exact order.move (State.move_of_act acted)

/-! ## Every task once -/

/-- What a pool is for: no task is lost on its way through the queue, each has one
taker, and its taker runs it before it takes another one. -/
structure ExactlyOnce {ι T : Type} [DecidableEq ι] (s : State ι T) : Prop where
  atFront : ∀ worker, s.pc worker = .routine .front → s.tq ≠ []
  atErase : ∀ worker task, s.pc worker = .routine (.erase task) → s.tq ≠ []
  fifo : s.taken.map Prod.snd ++ s.tq = s.pushed
  ran : ∀ worker, tasksOf worker s.ran ++ held (s.pc worker) = tasksOf worker s.taken

/-- However threads and workers take turns, and whatever wakes the workers, either pool
takes the front of its queue only when there is one and runs each task once. -/
theorem exactly_once
    (ι T : Type) [Fintype ι] [DecidableEq ι] (variant : Variant) :
    (machine ι T variant).Invariant ExactlyOnce := by
  intro s reached
  have order := inOrder ι T variant s reached
  constructor
  · intro worker here
    have present := order.assured worker
    rw [here] at present
    exact present
  · intro worker task here empty
    have first := order.assured worker
    rw [here, empty] at first
    exact absurd first (by simp [Assured])
  · exact order.fifo.symm
  · intro worker
    exact (order.runs worker).symm

/-- Two workers wake up for one task: the slower one finds the queue empty and waits
again. -/
example :
    ((Transition.run (State.act .wakeupOutside)
      [.start 0, .next 0, .next 0, .next 0, .start 1, .next 1, .next 1, .next 1,
        .push 2 7, .next 2, .next 2, .next 2, .signal 2 {0, 1}, .next 0, .next 0, .next 0,
        .next 0, .next 0, .next 1, .next 1, .next 1, .next 0]
      (State.create (Fin 3) Nat)).map fun s => (s.taken, s.ran, isBlocked (s.pc 1))) =
    some ([(0, 7)], [(0, 7)], true) := by
  decide

/-! ## Wakeups -/

section Points

variable {T : Type} {tq : List T}

/-- A worker on its way from a wakeup, or from the lock, to a task of the queue. -/
def active : Point T → Bool
  | .routine .woken => true
  | .routine .check => true
  | .routine .front => true
  | .routine (.erase _) => true
  | _ => false

/-- A `push` that has put its task into the queue and not yet woken a worker. -/
def signalling (variant : Variant) : Point T → Bool
  | .push _ .unlock =>
      match variant with
      | .wakeupOutside => true
      | .wakeupInside => false
  | .push _ .wakeup => true
  | _ => false

/-- A worker that goes to sleep has seen the queue empty. -/
def EmptyAtWait (tq : List T) : Point T → Prop
  | .routine .wait => tq = []
  | _ => True

/-- A thread that has pushed a task will signal. -/
theorem signalling_behindAdd (variant : Variant) (task : T) :
    signalling variant (.push task variant.behindAdd) = true := by
  cases variant <;> rfl

/-- The unlock leaves to be done what is still to be done. -/
theorem signalling_behindUnlock (variant : Variant) (task : T) :
    signalling variant (variant.behindUnlock task) =
      signalling variant (.push task .unlock) := by
  cases variant <;> rfl

theorem active_behindWakeup (variant : Variant) (task : T) :
    active (variant.behindWakeup task) = false := by
  cases variant <;> rfl

theorem isBlocked_behindUnlock (variant : Variant) (task : T) :
    isBlocked (variant.behindUnlock task) = false := by
  cases variant <;> rfl

theorem isBlocked_behindWakeup (variant : Variant) (task : T) :
    isBlocked (variant.behindWakeup task) = false := by
  cases variant <;> rfl

theorem emptyAtWait_behindUnlock (variant : Variant) (task : T) :
    EmptyAtWait tq (variant.behindUnlock task) := by
  cases variant <;> trivial

theorem emptyAtWait_behindWakeup (variant : Variant) (task : T) :
    EmptyAtWait tq (variant.behindWakeup task) := by
  cases variant <;> trivial

/-- Outside of the mutex nobody has seen the queue empty. -/
theorem emptyAtWait_of_outside
    {variant : Variant}
    (point : Point T)
    (outside : holding variant point = false) :
    EmptyAtWait tq point := by
  cases point with
  | idle => trivial
  | push task stage => trivial
  | routine stage =>
      cases stage with
      | wait => exact absurd outside Bool.false_ne_true.symm
      | _ => trivial

/-- A thread that was woken has not seen the queue yet. -/
theorem EmptyAtWait.resume
    {point : Point T}
    (empty : EmptyAtWait tq point) :
    EmptyAtWait tq (resume point) := by
  cases point with
  | idle => trivial
  | push task stage => trivial
  | routine stage =>
      cases stage with
      | blocked => trivial
      | _ => exact empty

/-- A thread that was woken does not wait. -/
theorem isBlocked_resume (point : Point T) : isBlocked (resume point) = false := by
  cases point with
  | idle => rfl
  | push task stage => rfl
  | routine stage => cases stage <;> rfl

/-- A signal keeps nobody from the queue. -/
theorem active_resume
    {point : Point T}
    (present : active point = true) :
    active (resume point) = true := by
  cases point with
  | idle => exact present
  | push task stage => exact present
  | routine stage =>
      cases stage with
      | blocked => rfl
      | _ => exact present

/-- A thread that waits does not signal. -/
theorem signalling_resume (variant : Variant) (point : Point T) :
    signalling variant (resume point) = signalling variant point := by
  cases point with
  | idle => rfl
  | push task stage => rfl
  | routine stage => cases stage <;> rfl

/-- Only workers wait. -/
theorem eq_blocked_of_isBlocked
    {point : Point T}
    (blocked : isBlocked point = true) :
    point = .routine .blocked := by
  cases point with
  | idle => exact absurd blocked Bool.false_ne_true
  | push task stage => exact absurd blocked Bool.false_ne_true
  | routine stage =>
      cases stage with
      | blocked => rfl
      | _ => exact absurd blocked Bool.false_ne_true

end Points

namespace State

variable {ι T : Type} {variant : Variant} {s s' : State ι T} {thread : ι}

section Sleeping

variable [DecidableEq ι]

/-- A step of one thread that leaves the queue alone. -/
theorem emptyAtWait_goto
    {point : Point T}
    (asleep : ∀ worker, EmptyAtWait s.tq (s.pc worker))
    (own : EmptyAtWait s.tq point)
    (worker : ι) :
    EmptyAtWait s.tq (Function.update s.pc thread point worker) :=
  assertion_update asleep own worker

/-- A worker goes to sleep over an empty queue: nobody pushes between its look and its wait.
-/
theorem Move.emptyAtWait
    [Fintype ι]
    (moved : s.Move variant s')
    (guarded : Guarded (holding variant) s.mtx s.pc)
    (asleep : ∀ worker, EmptyAtWait s.tq (s.pc worker)) :
    ∀ worker, EmptyAtWait s'.tq (s'.pc worker) := by
  cases moved with
  | push task here => exact emptyAtWait_goto asleep trivial
  | start here => exact emptyAtWait_goto asleep trivial
  | lockPush here unlocked => exact emptyAtWait_goto asleep trivial
  | add here => exact guarded.assertion here rfl emptyAtWait_of_outside trivial
  | @unlockPush thread task here =>
      exact emptyAtWait_goto asleep (emptyAtWait_behindUnlock variant task)
  | @signal thread task woken here signals =>
      apply assertion_update
      · exact assertion_wake asleep fun _ => EmptyAtWait.resume
      · exact emptyAtWait_behindWakeup variant task
  | lock here unlocked => exact emptyAtWait_goto asleep trivial
  | relock here unlocked => exact emptyAtWait_goto asleep trivial
  | suspend here empty => exact emptyAtWait_goto asleep empty
  | proceed here present => exact emptyAtWait_goto asleep trivial
  | wait here => exact emptyAtWait_goto asleep trivial
  | front here queue => exact emptyAtWait_goto asleep trivial
  | erase here => exact guarded.assertion here rfl emptyAtWait_of_outside trivial
  | unlock here => exact emptyAtWait_goto asleep trivial
  | run here => exact emptyAtWait_goto asleep trivial
  | wakeup here => exact emptyAtWait_goto asleep trivial

end Sleeping

variable [Fintype ι]

/-- While a worker is blocked, every task of the queue is matched by a worker on its
way to the queue or by a `push` that is about to signal. -/
def Attended (variant : Variant) (s : State ι T) : Prop :=
  0 < count isBlocked s.pc →
    s.tq.length ≤ count active s.pc + count (signalling variant) s.pc

/-- An empty queue needs nobody. -/
theorem attended_of_empty (empty : s.tq = []) : s.Attended variant := by
  intro _
  rw [empty]
  exact Nat.zero_le _

variable [DecidableEq ι]

/-- A step of one thread keeps the pool attended if it does not block the thread and
the tasks it adds are matched by what becomes of the thread. -/
theorem Attended.of_move
    {before point : Point T}
    (attended : s.Attended variant)
    (here : s.pc thread = before)
    (pc : s'.pc = Function.update s.pc thread point)
    (awake : isBlocked point = false)
    (matched : s'.tq.length + (active before).toNat +
        (signalling variant before).toNat ≤
      s.tq.length + (active point).toNat + (signalling variant point).toNat) :
    s'.Attended variant := by
  have blockedCount := count_update isBlocked s.pc thread point
  have activeCount := count_update active s.pc thread point
  have signalCount := count_update (signalling variant) s.pc thread point
  rw [here, ← pc] at blockedCount activeCount signalCount
  rw [awake, Bool.toNat_false, Nat.add_zero] at blockedCount
  intro somebody
  have enough := attended (by omega)
  omega

/-- A step of one thread that leaves the queue alone. -/
theorem Attended.of_quiet
    {before point : Point T}
    (attended : s.Attended variant)
    (here : s.pc thread = before)
    (tq : s'.tq = s.tq)
    (pc : s'.pc = Function.update s.pc thread point)
    (awake : isBlocked point = false)
    (keepsActive : active before = true → active point = true)
    (keepsSignalling : signalling variant before = true →
      signalling variant point = true) :
    s'.Attended variant := by
  apply attended.of_move here pc awake
  rw [tq]
  apply Nat.add_le_add
  · exact Nat.add_le_add_left (Bool.toNat_le_toNat keepsActive) _
  · exact Bool.toNat_le_toNat keepsSignalling

/-- The thread that has pushed a task is about to signal. -/
theorem Attended.add
    {task : T}
    (attended : s.Attended variant)
    (here : s.pc thread = .push task .add) :
    ((s.add task).goto thread (.push task variant.behindAdd)).Attended variant := by
  apply attended.of_move here rfl
  · rfl
  · rw [signalling_behindAdd]
    change (s.tq ++ [task]).length + 0 + 0 ≤ s.tq.length + 0 + 1
    rw [List.length_append, List.length_singleton]

/-- The worker that takes a task looks at the queue again. -/
theorem Attended.erase
    {task : T}
    (attended : s.Attended variant)
    (here : s.pc thread = .routine (.erase task))
    (present : s.tq ≠ []) :
    ((s.erase thread task).goto thread (.routine (.unlock task))).Attended variant := by
  have positive := List.length_pos_iff.mpr present
  apply attended.of_move here rfl
  · rfl
  · change s.tq.tail.length + 1 + 0 ≤ s.tq.length + 0 + 0
    rw [List.length_tail]
    omega

/-- A signal wakes a blocked worker if there is one, and the worker takes the place of
the `push` in the count. -/
theorem Attended.signal
    {task : T}
    {woken : Finset ι}
    (attended : s.Attended variant)
    (here : s.pc thread = .push task .wakeup)
    (signals : Signals isBlocked s.pc woken) :
    ((s.Wakeup woken).goto thread (variant.behindWakeup task)).Attended variant := by
  have still := still_signalling here signals
  have blockedCount := count_update isBlocked (s.Wakeup woken).pc thread
    (variant.behindWakeup task)
  have activeCount := count_update active (s.Wakeup woken).pc thread
    (variant.behindWakeup task)
  have signalCount := count_update (signalling variant) (s.Wakeup woken).pc thread
    (variant.behindWakeup task)
  have blockedWoken : count isBlocked (s.Wakeup woken).pc ≤ count isBlocked s.pc := by
    apply count_wake_le
    intro point blocked
    rw [isBlocked_resume] at blocked
    exact absurd blocked Bool.false_ne_true
  have signallingWoken : count (signalling variant) s.pc ≤
      count (signalling variant) (s.Wakeup woken).pc := by
    apply count_le_count_wake
    intro point present
    rw [signalling_resume]
    exact present
  rw [still, isBlocked_behindWakeup] at blockedCount
  rw [still, active_behindWakeup] at activeCount
  rw [still] at signalCount
  simp only [isBlocked, active, signalling, Bool.toNat_false, Bool.toNat_true,
    Nat.add_zero] at blockedCount activeCount signalCount
  intro somebody
  change 0 < count isBlocked
    (Function.update (s.Wakeup woken).pc thread (variant.behindWakeup task)) at somebody
  change s.tq.length ≤
    count active
        (Function.update (s.Wakeup woken).pc thread (variant.behindWakeup task)) +
      count (signalling variant)
        (Function.update (s.Wakeup woken).pc thread (variant.behindWakeup task))
  rw [blockedCount] at somebody
  have before := Nat.lt_of_lt_of_le somebody blockedWoken
  have enough := attended before
  have oneMore : count active s.pc < count active (s.Wakeup woken).pc := by
    apply signals.count_lt_count_wake before
    · exact fun _ => active_resume
    · intro point blocked
      rw [eq_blocked_of_isBlocked blocked]
      rfl
    · intro point blocked
      rw [eq_blocked_of_isBlocked blocked]
      rfl
  omega

/-- Every move leaves a queue with tasks attended. -/
theorem Move.attended
    (moved : s.Move variant s')
    (order : s.InOrder variant)
    (asleep : ∀ worker, EmptyAtWait s.tq (s.pc worker))
    (attended : s.Attended variant) :
    s'.Attended variant := by
  cases moved with
  | push task here => exact attended.of_quiet here rfl rfl rfl id id
  | start here => exact attended.of_quiet here rfl rfl rfl id id
  | lockPush here unlocked => exact attended.of_quiet here rfl rfl rfl id id
  | add here => exact attended.add here
  | @unlockPush thread task here =>
      refine attended.of_quiet here rfl rfl (isBlocked_behindUnlock variant task) ?_ ?_
      · exact fun present => absurd present Bool.false_ne_true
      · rw [signalling_behindUnlock]
        exact id
  | signal here signals => exact attended.signal here signals
  | lock here unlocked => exact attended.of_quiet here rfl rfl rfl (fun _ => rfl) id
  | relock here unlocked => exact attended.of_quiet here rfl rfl rfl id id
  | suspend here empty => exact attended_of_empty empty
  | proceed here present => exact attended.of_quiet here rfl rfl rfl id id
  | @wait worker here =>
      have empty := asleep worker
      rw [here] at empty
      exact attended_of_empty empty
  | front here queue => exact attended.of_quiet here rfl rfl rfl id id
  | @erase worker task here =>
      have first := order.assured worker
      rw [here] at first
      apply attended.erase here
      intro empty
      rw [empty] at first
      exact Option.some_ne_none task first.symm
  | unlock here => exact attended.of_quiet here rfl rfl rfl id id
  | run here => exact attended.of_quiet here rfl rfl rfl id id
  | wakeup here => exact attended.of_quiet here rfl rfl rfl (fun _ => rfl) id

end State

/-- In every run workers go to sleep over an empty queue only. -/
theorem emptyAtWait
    (ι T : Type) [Fintype ι] [DecidableEq ι] (variant : Variant) :
    (machine ι T variant).Invariant fun s =>
      ∀ worker, EmptyAtWait s.tq (s.pc worker) := by
  apply Transition.Machine.invariant_of_steps
  · rintro s rfl worker
    trivial
  · rintro s s' reached asleep ⟨action, acted⟩
    have guarded := (inOrder ι T variant s reached).guarded
    exact (State.move_of_act acted).emptyAtWait guarded asleep

/-- In every run a queue with tasks is attended. -/
theorem attended
    (ι T : Type) [Fintype ι] [DecidableEq ι] (variant : Variant) :
    (machine ι T variant).Invariant (State.Attended variant) := by
  apply Transition.Machine.invariant_of_steps
  · rintro s rfl
    exact State.attended_of_empty rfl
  · rintro s s' reached attended ⟨action, acted⟩
    have order := inOrder ι T variant s reached
    have asleep := emptyAtWait ι T variant s reached
    exact (State.move_of_act acted).attended order asleep attended

/-- A task is in the queue, every worker is blocked, and no thread attends to it. -/
def Stranded {ι T : Type} (attending : Point T → Bool) (s : State ι T) : Prop :=
  s.tq ≠ [] ∧
    (∃ worker, s.pc worker = .routine .blocked) ∧
    (∀ worker stage, s.pc worker = .routine stage → stage = .blocked) ∧
    ∀ thread, attending (s.pc thread) = false

/-- Behind `unLockQ()` and in front of `Wakeup()`. -/
def inGap {T : Type} : Point T → Bool
  | .push _ .wakeup => true
  | _ => false

/-- Behind `_tq.push(task)` the task is in the queue, while its `push` is still in
front of `unLockQ()`. -/
theorem stranded_before_unlock :
    ¬ (machine (Fin 2) Nat .wakeupOutside).Invariant fun s => ¬ Stranded inGap s := by
  intro invariant
  have ran : Transition.run (State.act .wakeupOutside)
      [.start 0, .next 0, .next 0, .next 0, .push 1 7, .next 1, .next 1]
      (State.create (Fin 2) Nat) = some _ := rfl
  apply invariant _ (Transition.reachable_of_run (.start rfl) ran)
  refine ⟨?_, ?_, ?_, ?_⟩
  · exact List.cons_ne_nil 7 []
  · exact ⟨0, rfl⟩
  · intro worker stage here
    match worker with
    | 0 => exact (Point.routine.inj here).symm
    | 1 =>
        change Point.push 7 .unlock = Point.routine stage at here
        cases here
  · decide

/-- A task that nobody attends to is alone with workers that are awake. -/
theorem State.Attended.not_stranded
    {ι T : Type} [Fintype ι] [DecidableEq ι]
    {variant : Variant}
    {s : State ι T}
    (attended : s.Attended variant) :
    ¬ Stranded (signalling variant) s := by
  rintro ⟨present, ⟨worker, blocked⟩, allBlocked, nobody⟩
  have somebody : 0 < count isBlocked s.pc := by
    apply count_pos
    rw [blocked]
    rfl
  have noneActive : count active s.pc = 0 := by
    apply count_eq_zero_iff.mpr
    intro thread
    cases here : s.pc thread with
    | idle => rfl
    | push task stage => rfl
    | routine stage =>
        rw [allBlocked thread stage here]
        rfl
  have enough := attended somebody
  rw [noneActive, count_eq_zero_iff.mpr nobody] at enough
  exact present (List.eq_nil_of_length_eq_zero (Nat.le_zero.mp enough))

/-- The gap between `unLockQ()` and `Wakeup()` loses nothing: as long as a worker is
blocked, each task in the queue is matched by a worker on its way to it or by a `push`
that has not signalled yet. -/
theorem no_task_stranded
    (ι T : Type) [Fintype ι] [DecidableEq ι] (variant : Variant) :
    (machine ι T variant).Invariant fun s => ¬ Stranded (signalling variant) s := by
  intro s reached
  exact (attended ι T variant s reached).not_stranded

end ThreadPool
end LearnInLinux
