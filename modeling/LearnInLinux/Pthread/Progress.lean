import LearnInLinux.Library.Ranking
import LearnInLinux.Pthread.BlockQueue
import LearnInLinux.Pthread.ThreadPool

/-!
# What the threads get done when they are left alone

Without new calls and wakeups that nobody asked for, the threads of a pool or of a
queue come to rest after a bounded number of steps, whatever the order of the steps. A
pool with a worker has then run every task it was given; at a queue, only one side may
be left waiting, and only for the other one.
-/

namespace LearnInLinux

open Threads
open Transition (run Settled Ranked)

/-! ## The pool -/

namespace ThreadPool

/-- A step of a thread, or the signal that it sends. -/
def Action.Own {ι T : Type} : Action ι T → Prop
  | .next _ => True
  | .signal _ _ => True
  | _ => False

/-- What is left of a `push`. With its signal it may bring every thread of the pool back
to the mutex. -/
def pushWeight (variant : Variant) (threads : Nat) : PushStage → Nat
  | .lock => threads * 4 + 10
  | .add => threads * 4 + 9
  | .unlock =>
      match variant with
      | .wakeupOutside => threads * 4 + 2
      | .wakeupInside => 1
  | .wakeup =>
      match variant with
      | .wakeupOutside => threads * 4 + 1
      | .wakeupInside => threads * 4 + 2

/-- What is left of a round of a worker. -/
def routineWeight {T : Type} : WorkStage T → Nat
  | .blocked => 0
  | .wait => 1
  | .erase _ => 1
  | .front => 2
  | .check => 3
  | .lock => 4
  | .woken => 4
  | .run _ => 5
  | .unlock _ => 6

/-- Bound on the steps that a thread can still take, with those of the threads that it can
wake. -/
def weight {T : Type} (variant : Variant) (threads : Nat) : Point T → Nat
  | .idle => 0
  | .push _ stage => pushWeight variant threads stage
  | .routine stage => routineWeight stage

/-- What is left behind `_tq.push(task)`. -/
theorem weight_behindAdd
    {T : Type}
    (variant : Variant) (threads : Nat) (task : T) :
    weight variant threads (.push task variant.behindAdd) = threads * 4 + 2 := by
  cases variant <;> rfl

/-- `unLockQ` is a step. -/
theorem weight_behindUnlock
    {T : Type}
    (variant : Variant) (threads : Nat) (task : T) :
    weight variant threads (variant.behindUnlock task) <
      weight variant threads (.push task .unlock) := by
  cases variant with
  | wakeupOutside => exact Nat.lt_succ_self _
  | wakeupInside => exact Nat.one_pos

/-- `Wakeup` pays for the threads that it wakes. -/
theorem weight_behindWakeup
    {T : Type}
    (variant : Variant) (threads : Nat) (task : T) :
    weight variant threads (variant.behindWakeup task) + threads * 4 <
      weight variant threads (.push task .wakeup) := by
  cases variant with
  | wakeupOutside =>
      change 0 + threads * 4 < threads * 4 + 1
      omega
  | wakeupInside =>
      change 1 + threads * 4 < threads * 4 + 2
      omega

/-- A thread that is woken costs one more look at the queue. -/
theorem weight_resume_le
    {T : Type}
    (variant : Variant) (threads : Nat) (point : Point T) :
    weight variant threads (resume point) ≤ weight variant threads point + 4 := by
  cases point with
  | idle => exact Nat.zero_le _
  | push task stage => exact Nat.le_add_right _ _
  | routine stage =>
      cases stage with
      | blocked => exact Nat.le_refl _
      | _ => exact Nat.le_add_right _ _

namespace State

variable {ι T : Type} [Fintype ι] {variant : Variant} {s s' : State ι T} {thread : ι}

/-- Each task of the queue is worth a round of a worker. -/
def rank (variant : Variant) (s : State ι T) : Nat :=
  6 * s.tq.length + weigh (weight variant (Fintype.card ι)) s.pc

variable [DecidableEq ι]

/-- The rank falls with the part of one thread. -/
theorem rank_lt
    {before point : Point T}
    (here : s.pc thread = before)
    (pc : s'.pc = Function.update s.pc thread point)
    (less : 6 * s'.tq.length + weight variant (Fintype.card ι) point <
      6 * s.tq.length + weight variant (Fintype.card ι) before) :
    s'.rank variant < s.rank variant := by
  have moved := weigh_update (weight variant (Fintype.card ι)) s.pc thread point
  rw [here] at moved
  rw [rank, rank, pc]
  omega

/-- Every step of `push` lowers the rank. -/
theorem rank_pushStep
    {task : T}
    {stage : PushStage}
    (here : s.pc thread = .push task stage)
    (stepped : s.pushStep variant thread task stage = some s') :
    s'.rank variant < s.rank variant := by
  cases stage with
  | lock =>
      rw [pushStep] at stepped
      split at stepped
      · exact absurd stepped (by simp)
      · obtain rfl := Option.some.inj stepped
        exact rank_lt here rfl (Nat.add_lt_add_left (Nat.lt_succ_self _) _)
  | add =>
      obtain rfl := Option.some.inj stepped
      apply rank_lt here rfl
      rw [weight_behindAdd]
      change 6 * (s.tq ++ [task]).length + _ < 6 * s.tq.length + (Fintype.card ι * 4 + 9)
      rw [List.length_append, List.length_singleton]
      omega
  | unlock =>
      obtain rfl := Option.some.inj stepped
      exact rank_lt here rfl (Nat.add_lt_add_left (weight_behindUnlock variant _ task) _)
  | wakeup => exact absurd stepped (by simp [pushStep])

/-- Every step of a worker lowers the rank. -/
theorem rank_routineStep
    {stage : WorkStage T}
    (order : s.InOrder variant)
    (here : s.pc thread = .routine stage)
    (stepped : s.routineStep thread stage = some s') :
    s'.rank variant < s.rank variant := by
  cases stage with
  | lock =>
      rw [routineStep] at stepped
      split at stepped
      · exact absurd stepped (by simp)
      · obtain rfl := Option.some.inj stepped
        exact rank_lt here rfl (Nat.lt_succ_self _)
  | woken =>
      rw [routineStep] at stepped
      split at stepped
      · exact absurd stepped (by simp)
      · obtain rfl := Option.some.inj stepped
        exact rank_lt here rfl (Nat.lt_succ_self _)
  | check =>
      rw [routineStep] at stepped
      split at stepped
      · obtain rfl := Option.some.inj stepped
        exact rank_lt here rfl (Nat.add_lt_add_left (Nat.lt_of_lt_of_le Nat.one_lt_two
          (Nat.le_succ 2)) _)
      · obtain rfl := Option.some.inj stepped
        exact rank_lt here rfl (Nat.lt_succ_self _)
  | wait =>
      obtain rfl := Option.some.inj stepped
      exact rank_lt here rfl (Nat.lt_succ_self _)
  | blocked => exact absurd stepped (by simp [routineStep])
  | front =>
      rw [routineStep] at stepped
      split at stepped
      · exact absurd stepped (by simp)
      · obtain rfl := Option.some.inj stepped
        exact rank_lt here rfl (Nat.lt_succ_self _)
  | erase task =>
      have first := order.assured thread
      rw [here] at first
      obtain ⟨rest, queue⟩ := List.head?_eq_some_iff.mp first
      obtain rfl := Option.some.inj stepped
      apply rank_lt here rfl
      change 6 * s.tq.tail.length + 6 < 6 * s.tq.length + 1
      rw [queue, List.tail_cons, List.length_cons]
      omega
  | unlock task =>
      obtain rfl := Option.some.inj stepped
      exact rank_lt here rfl (Nat.lt_succ_self _)
  | run task =>
      obtain rfl := Option.some.inj stepped
      exact rank_lt here rfl (Nat.lt_succ_self _)

/-- The signal pays for all the workers it wakes. -/
theorem rank_signal
    {task : T}
    {woken : Finset ι}
    (here : s.pc thread = .push task .wakeup)
    (signals : Signals isBlocked s.pc woken) :
    ((s.Wakeup woken).goto thread (variant.behindWakeup task)).rank variant <
      s.rank variant := by
  have still := still_signalling here signals
  have moved := weigh_update (weight variant (Fintype.card ι)) (s.Wakeup woken).pc thread
    (variant.behindWakeup task)
  have woke : weigh (weight variant (Fintype.card ι)) (s.Wakeup woken).pc ≤
      weigh (weight variant (Fintype.card ι)) s.pc + Fintype.card ι * 4 :=
    weigh_wake_le (weight_resume_le variant (Fintype.card ι)) woken
  have paid := weight_behindWakeup variant (Fintype.card ι) task
  rw [still] at moved
  change 6 * s.tq.length + weigh (weight variant (Fintype.card ι))
      (Function.update (s.Wakeup woken).pc thread (variant.behindWakeup task)) <
    6 * s.tq.length + weigh (weight variant (Fintype.card ι)) s.pc
  omega

/-- Every step but a new push and a spurious wakeup lowers the rank. -/
theorem rank_act
    {action : Action ι T}
    (own : action.Own)
    (order : s.InOrder variant)
    (acted : s.act variant action = some s') :
    s'.rank variant < s.rank variant := by
  cases action with
  | push thread task => exact absurd own id
  | start thread => exact absurd own id
  | next thread =>
      rw [act] at acted
      split at acted
      · exact absurd acted (by simp)
      · rename_i task stage here
        exact rank_pushStep here acted
      · rename_i stage here
        exact rank_routineStep order here acted
  | signal thread woken =>
      rw [act] at acted
      split at acted
      · rename_i task here
        split at acted
        · rename_i signals
          obtain rfl := Option.some.inj acted
          exact rank_signal here signals
        · exact absurd acted (by simp)
      · exact absurd acted (by simp)
  | wakeup thread => exact absurd own id

/-- A pool comes to rest. -/
theorem ranked (variant : Variant) :
    Ranked (act variant : Action ι T → State ι T → Option (State ι T)) Action.Own
      (InOrder variant) (rank variant) where
  kept _ _ _ order acted := order.move (move_of_act acted)
  falls _ _ _ own order acted := rank_act own order acted

/-! ### At rest -/

/-- At rest no thread can take its next step. -/
theorem next_of_settled
    (settled : Settled (act variant) Action.Own s)
    (thread : ι) :
    s.act variant (.next thread) = none :=
  settled (.next thread) trivial

/-- A signal can always be sent. -/
theorem not_at_wakeup_of_settled
    {task : T}
    (settled : Settled (act variant) Action.Own s)
    (here : s.pc thread = .push task .wakeup) :
    False := by
  have signals : Signals isBlocked s.pc
      (Finset.univ.filter fun other => isBlocked (s.pc other) = true) := by
    constructor
    · intro other woken
      exact (Finset.mem_filter.mp woken).2
    · exact id
  have sent := settled (.signal thread
    (Finset.univ.filter fun other => isBlocked (s.pc other) = true)) trivial
  simp only [act, here, if_pos signals, reduceCtorEq] at sent

/-- At rest nobody has the mutex: its owner could go on. -/
theorem not_holding_of_settled
    (settled : Settled (act variant) Action.Own s)
    (order : s.InOrder variant)
    (thread : ι) :
    holding variant (s.pc thread) = false := by
  have next := next_of_settled settled thread
  have assured := order.assured thread
  cases here : s.pc thread with
  | idle => rfl
  | push task stage =>
      cases stage with
      | lock => rfl
      | add => simp [act, here, pushStep] at next
      | unlock => simp [act, here, pushStep] at next
      | wakeup => exact (not_at_wakeup_of_settled settled here).elim
  | routine stage =>
      rw [here] at assured
      cases stage with
      | lock => rfl
      | check =>
          rw [act, here] at next
          simp only [routineStep] at next
          split at next
          · exact absurd next (by simp)
          · exact absurd next (by simp)
      | wait => simp [act, here, routineStep] at next
      | blocked => rfl
      | woken => rfl
      | front =>
          obtain ⟨task, rest, queue⟩ := List.exists_cons_of_ne_nil assured
          simp [act, here, routineStep, queue] at next
      | erase task => simp [act, here, routineStep] at next
      | unlock task => simp [act, here, routineStep] at next
      | run task => rfl

/-- At rest every thread is outside of the pool or a blocked worker. -/
theorem idle_or_blocked_of_settled
    (settled : Settled (act variant) Action.Own s)
    (order : s.InOrder variant)
    (thread : ι) :
    s.pc thread = .idle ∨ s.pc thread = .routine .blocked := by
  have next := next_of_settled settled thread
  have outside := not_holding_of_settled settled order thread
  have unlocked : s.mtx = none := by
    by_contra locked
    obtain ⟨owner, owns⟩ := Option.ne_none_iff_exists'.mp locked
    have inside := (order.guarded owner).mpr owns
    rw [not_holding_of_settled settled order owner] at inside
    exact Bool.false_ne_true inside
  cases here : s.pc thread with
  | idle => exact .inl rfl
  | push task stage =>
      exfalso
      cases stage with
      | lock => simp [act, here, pushStep, unlocked] at next
      | add => simp [act, here, pushStep] at next
      | unlock => simp [act, here, pushStep] at next
      | wakeup => exact not_at_wakeup_of_settled settled here
  | routine stage =>
      rw [here] at outside
      cases stage with
      | blocked => exact .inr rfl
      | lock => simp [act, here, routineStep, unlocked] at next
      | woken => simp [act, here, routineStep, unlocked] at next
      | run task => simp [act, here, routineStep] at next
      | _ => exact absurd outside (by simp [holding])

end State

/-- Logs with the same tasks for every worker have the same entries. -/
theorem perm_of_tasksOf_eq
    {ι T : Type} [DecidableEq ι]
    {log log' : List (ι × T)}
    (same : ∀ worker, tasksOf worker log = tasksOf worker log') :
    log.Perm log' := by
  classical
  rw [List.perm_iff_count]
  rintro ⟨worker, task⟩
  have counted (log : List (ι × T)) :
      (tasksOf worker log).count task = log.count (worker, task) := by
    induction log with
    | nil => rfl
    | cons entry log inductionHypothesis =>
        obtain ⟨other, done⟩ := entry
        rw [List.count_cons, ← inductionHypothesis]
        by_cases own : other = worker
        · subst own
          simp [tasksOf, List.count_cons]
        · simp [tasksOf, own]
  rw [← counted log, ← counted log', same worker]

namespace State

variable {ι T : Type} [DecidableEq ι] {variant : Variant} {s s' : State ι T} {thread : ι}

/-- The thread is a worker. -/
def IsWorker (s : State ι T) (thread : ι) : Prop :=
  ∃ stage, s.pc thread = .routine stage

/-- A worker stays one. -/
theorem IsWorker.goto
    {other : ι}
    {before point : Point T}
    (isWorker : s.IsWorker thread)
    (here : s.pc other = before)
    (stays : ∀ stage, before = .routine stage → ∃ stage, point = .routine stage) :
    ∃ stage, Function.update s.pc other point thread = .routine stage := by
  by_cases own : thread = other
  · subst own
    rw [Function.update_self]
    obtain ⟨stage, isRoutine⟩ := isWorker
    exact stays stage (here.symm.trans isRoutine)
  · rw [Function.update_of_ne own]
    exact isWorker

/-- A worker that is woken stays one. -/
theorem IsWorker.wake
    (isWorker : s.IsWorker thread)
    (woken : Finset ι) :
    (s.Wakeup woken).IsWorker thread := by
  obtain ⟨stage, isRoutine⟩ := isWorker
  change ∃ stage, Threads.wake resume woken s.pc thread = .routine stage
  by_cases present : thread ∈ woken
  · rw [wake_of_mem present, isRoutine]
    cases stage with
    | blocked => exact ⟨.woken, rfl⟩
    | _ => exact ⟨_, rfl⟩
  · rw [wake_of_notMem present]
    exact ⟨stage, isRoutine⟩

variable [Fintype ι]

/-- A worker never leaves `Routine`. -/
theorem Move.isWorker
    (moved : s.Move variant s')
    (isWorker : s.IsWorker thread) :
    s'.IsWorker thread := by
  cases moved with
  | push task here => exact isWorker.goto here fun _ same => absurd same (by simp)
  | start here => exact isWorker.goto here fun _ _ => ⟨_, rfl⟩
  | lockPush here unlocked => exact isWorker.goto here fun _ same => absurd same (by simp)
  | add here => exact isWorker.goto here fun _ same => absurd same (by simp)
  | unlockPush here => exact isWorker.goto here fun _ same => absurd same (by simp)
  | @signal pusher task woken here signals =>
      exact (isWorker.wake woken).goto (still_signalling here signals)
        fun _ same => absurd same (by simp)
  | lock here unlocked => exact isWorker.goto here fun _ _ => ⟨_, rfl⟩
  | relock here unlocked => exact isWorker.goto here fun _ _ => ⟨_, rfl⟩
  | suspend here empty => exact isWorker.goto here fun _ _ => ⟨_, rfl⟩
  | proceed here present => exact isWorker.goto here fun _ _ => ⟨_, rfl⟩
  | wait here => exact isWorker.goto here fun _ _ => ⟨_, rfl⟩
  | front here queue => exact isWorker.goto here fun _ _ => ⟨_, rfl⟩
  | erase here => exact isWorker.goto here fun _ _ => ⟨_, rfl⟩
  | unlock here => exact isWorker.goto here fun _ _ => ⟨_, rfl⟩
  | run here => exact isWorker.goto here fun _ _ => ⟨_, rfl⟩
  | wakeup here => exact isWorker.goto here fun _ _ => ⟨_, rfl⟩

/-- What was pushed stays pushed. -/
theorem Move.pushed_grows (moved : s.Move variant s') : s.pushed <+: s'.pushed := by
  cases moved with
  | @add thread task here => exact List.prefix_append s.pushed [task]
  | _ => exact List.prefix_rfl

/-- What a run may not take back. -/
def Started (worker : ι) (pushed : List T) (s : State ι T) : Prop :=
  s.IsWorker worker ∧ pushed <+: s.pushed

/-- A worker that has started is never lost. -/
theorem started_of_act
    {worker : ι}
    {pushed : List T}
    (action : Action ι T) (s s' : State ι T)
    (started : s.Started worker pushed)
    (acted : s.act variant action = some s') :
    s'.Started worker pushed :=
  ⟨(move_of_act acted).isWorker started.1,
    started.2.trans (move_of_act acted).pushed_grows⟩

end State

/-- The state behind `run`. -/
def launched
    {ι : Type} [DecidableEq ι]
    (T : Type)
    (workers : Finset ι) : State ι T :=
  { State.create ι T with
    pc := fun thread => if thread ∈ workers then .routine .lock else .idle }

/-- Any threads can be made workers. -/
theorem reachable_launched
    {ι T : Type} [Fintype ι] [DecidableEq ι]
    {variant : Variant}
    (workers : Finset ι) :
    (machine ι T variant).Reachable (launched T workers) := by
  induction workers using Finset.induction_on with
  | empty => exact .start rfl
  | insert worker workers isNew inductionHypothesis =>
      refine inductionHypothesis.step ⟨.start worker, ?_⟩
      have idle : (launched T workers).pc worker = .idle := if_neg isNew
      have goes : (launched T (insert worker workers)).pc =
          Function.update (launched T workers).pc worker (.routine .lock) := by
        funext thread
        by_cases same : thread = worker
        · subst same
          rw [Function.update_self]
          exact if_pos (Finset.mem_insert_self thread workers)
        · rw [Function.update_of_ne same]
          simp only [launched, Finset.mem_insert, same, false_or]
      simp only [State.act, idle, State.goto, ← goes]
      rfl

/-- At rest every task that was taken has been run, by the worker that has taken it. -/
theorem taken_perm_of_settled
    {ι T : Type} [Fintype ι] [DecidableEq ι]
    {variant : Variant}
    {s : State ι T}
    (settled : Settled (State.act variant) Action.Own s)
    (order : s.InOrder variant) :
    s.taken.Perm s.ran := by
  apply perm_of_tasksOf_eq
  intro worker
  rw [order.runs worker]
  rcases State.idle_or_blocked_of_settled settled order worker with isIdle | blocked
  · rw [isIdle]
    exact List.append_nil _
  · rw [blocked]
    exact List.append_nil _

/-- A pool at rest that has a worker has run each task that was pushed, and once. -/
theorem ran_of_settled
    {ι T : Type} [Fintype ι] [DecidableEq ι]
    {variant : Variant}
    {s : State ι T}
    {worker : ι}
    (reached : (machine ι T variant).Reachable s)
    (isWorker : s.IsWorker worker)
    (settled : Settled (State.act variant) Action.Own s) :
    s.tq = [] ∧ (s.ran.map Prod.snd).Perm s.pushed := by
  have order := inOrder ι T variant s reached
  have resting := State.idle_or_blocked_of_settled settled order
  have isBlocked : s.pc worker = .routine .blocked := by
    obtain ⟨stage, isRoutine⟩ := isWorker
    rcases resting worker with isIdle | isBlocked
    · rw [isRoutine] at isIdle
      exact absurd isIdle (by simp)
    · exact isBlocked
  have empty : s.tq = [] := by
    by_contra present
    apply (attended ι T variant s reached).not_stranded
    refine ⟨present, ⟨worker, isBlocked⟩, ?_, ?_⟩
    · intro other stage here
      rcases resting other with isIdle | blocked
      · rw [here] at isIdle
        exact absurd isIdle (by simp)
      · exact Point.routine.inj (here.symm.trans blocked)
    · intro thread
      rcases resting thread with isIdle | blocked
      · rw [isIdle]
        rfl
      · rw [blocked]
        rfl
  refine ⟨empty, ?_⟩
  rw [order.fifo, empty, List.append_nil]
  exact ((taken_perm_of_settled settled order).map Prod.snd).symm

/-- Left alone, a pool with a worker comes to rest after a bounded number of steps,
whichever threads take them, and has then run every task once. -/
theorem pool_drains
    (ι T : Type) [Fintype ι] [DecidableEq ι]
    (variant : Variant)
    (s : State ι T)
    (worker : ι)
    (reached : (machine ι T variant).Reachable s)
    (isWorker : s.IsWorker worker) :
    (∃ actions t, (∀ action ∈ actions, action.Own) ∧
      run (State.act variant) actions s = some t ∧
      Settled (State.act variant) Action.Own t) ∧
    ∀ actions t, (∀ action ∈ actions, action.Own) →
      run (State.act variant) actions s = some t →
      actions.length ≤ s.rank variant ∧
      (Settled (State.act variant) Action.Own t →
        t.tq = [] ∧ s.pushed <+: t.pushed ∧ (t.ran.map Prod.snd).Perm t.pushed) := by
  have order := inOrder ι T variant s reached
  refine ⟨(State.ranked variant).exists_settled order, ?_⟩
  intro actions t own ran
  have bound := (State.ranked variant).length_add_rank_le order own ran
  refine ⟨by omega, ?_⟩
  intro settled
  have started : t.Started worker s.pushed :=
    Transition.holds_of_run State.started_of_act ⟨isWorker, List.prefix_rfl⟩ ran
  obtain ⟨empty, allRun⟩ :=
    ran_of_settled (Transition.reachable_of_run reached ran) started.1 settled
  exact ⟨empty, started.2, allRun⟩

/-- A worker is about to look for a task, and a `push` has put the task 7 into the queue. -/
def oneWorker : Option (State Bool Nat) :=
  run (State.act .wakeupOutside) [.start true, .push false 7, .next false, .next false]
    (State.create Bool Nat)

theorem pool_drains_oneWorker :
    ∃ s t, oneWorker = some s ∧ s.pushed = [7] ∧ s.ran = [] ∧
      (∃ actions, run (State.act .wakeupOutside) actions s = some t) ∧
      t.tq = [] ∧ (t.ran.map Prod.snd).Perm t.pushed ∧ ∃ worker, (worker, 7) ∈ t.ran := by
  have ran : oneWorker.isSome = true := rfl
  have reached : (machine Bool Nat .wakeupOutside).Reachable (oneWorker.get ran) :=
    Transition.reachable_of_run (.start rfl) (Option.some_get ran).symm
  obtain ⟨⟨actions, t, own, ended, settled⟩, all⟩ :=
    pool_drains Bool Nat .wakeupOutside (oneWorker.get ran) true reached ⟨.lock, rfl⟩
  obtain ⟨empty, stillPushed, allRun⟩ := (all actions t own ended).2 settled
  have wasPushed : 7 ∈ t.pushed := stillPushed.subset (List.mem_singleton_self 7)
  obtain ⟨⟨worker, task⟩, wasRun, rfl⟩ := List.mem_map.mp (allRun.mem_iff.mpr wasPushed)
  exact ⟨_, t, (Option.some_get ran).symm, rfl, rfl, ⟨actions, ended⟩, empty, allRun,
    worker, wasRun⟩

end ThreadPool

/-! ## The queue -/

namespace BlockQueue

/-- A step of a thread, or the signal that it sends. -/
def Action.Own {ι T : Type} : Action ι T → Prop
  | .next _ => True
  | .signal _ _ => True
  | _ => False

/-- What is left of a call. Before its signal a call may bring every thread back to the
mutex, and it sends only one. -/
def stageWeight {T : Type} (threads : Nat) : Stage T → Nat
  | .unlock => 1
  | .blocked => threads * 6
  | .wait => threads * 6 + 1
  | .signal => threads * 6 + 2
  | .erase _ => threads * 6 + 3
  | .access => threads * 6 + 4
  | .check => threads * 6 + 5
  | .lock => threads * 6 + 6
  | .woken => threads * 6 + 6

/-- Bound on the steps that a thread can still take, with those of the threads that it can
wake. -/
def weight {T : Type} (threads : Nat) : Point T (Stage T) → Nat
  | .idle => 0
  | .inside _ stage => stageWeight threads stage

/-- A thread that is woken costs one more look at the queue. -/
theorem weight_resume_le
    {T : Type}
    (threads : Nat) (point : Point T (Stage T)) :
    weight threads (resume point) ≤ weight threads point + 6 := by
  cases point with
  | idle => exact Nat.zero_le _
  | inside call stage =>
      cases stage with
      | blocked => exact Nat.le_refl _
      | _ => exact Nat.le_add_right _ _

/-- Only a `pop` takes a value out. -/
def ErasesInPop {T : Type} : Point T (Stage T) → Prop
  | .inside (.push _) (.erase _) => False
  | _ => True

/-- Waking a thread does not change its call. -/
theorem ErasesInPop.resume
    {T : Type}
    {point : Point T (Stage T)}
    (popping : ErasesInPop point) :
    ErasesInPop (resume point) := by
  cases point with
  | idle => trivial
  | inside call stage =>
      cases call with
      | push value =>
          cases stage with
          | erase out => exact absurd popping id
          | _ => trivial
      | pop => cases stage <;> trivial

theorem erasesInPop_of_stage
    {T : Type}
    {call : Call T}
    {stage : Stage T}
    (other : ∀ out, stage ≠ .erase out) :
    ErasesInPop (.inside call stage) := by
  cases call with
  | push value =>
      cases stage with
      | erase out => exact absurd rfl (other out)
      | _ => trivial
  | pop => trivial

namespace State

variable {ι T : Type} [Fintype ι] [DecidableEq ι] {capacity : Nat} {s s' : State ι T}
  {thread : ι}

/-- Every move keeps the values to the calls that take them. -/
theorem Move.erasesInPop
    (moved : s.Move capacity s')
    (popping : ∀ thread, ErasesInPop (s.pc thread)) :
    ∀ thread, ErasesInPop (s'.pc thread) := by
  cases moved with
  | call call here => exact assertion_update popping (erasesInPop_of_stage (by simp))
  | lock here unlocked => exact assertion_update popping (erasesInPop_of_stage (by simp))
  | relock here unlocked => exact assertion_update popping (erasesInPop_of_stage (by simp))
  | suspend here suspends => exact assertion_update popping (erasesInPop_of_stage (by simp))
  | proceed here suspends => exact assertion_update popping (erasesInPop_of_stage (by simp))
  | wait here => exact assertion_update popping (erasesInPop_of_stage (by simp))
  | push here => exact assertion_update popping (erasesInPop_of_stage (by simp))
  | front here queue => exact assertion_update popping trivial
  | erase here => exact assertion_update popping (erasesInPop_of_stage (by simp))
  | signal here signals =>
      apply assertion_update
      · exact assertion_wake popping fun _ => ErasesInPop.resume
      · exact erasesInPop_of_stage (by simp)
  | unlock here => exact assertion_update popping trivial
  | wakeup here => exact assertion_update popping (erasesInPop_of_stage (by simp))

/-- What is left of all calls. -/
def rank (s : State ι T) : Nat :=
  weigh (weight (Fintype.card ι)) s.pc

/-- The rank falls with the part of one thread. -/
theorem rank_lt
    {before point : Point T (Stage T)}
    (here : s.pc thread = before)
    (pc : s'.pc = Function.update s.pc thread point)
    (less : weight (Fintype.card ι) point < weight (Fintype.card ι) before) :
    s'.rank < s.rank := by
  have moved := weigh_update (weight (Fintype.card ι)) s.pc thread point
  rw [here] at moved
  rw [rank, rank, pc]
  omega

/-- Every step of a call lowers its weight. -/
theorem rank_advance
    {call : Call T}
    {stage : Stage T}
    (here : s.pc thread = .inside call stage)
    (advanced : s.advance capacity thread call stage = some s') :
    s'.rank < s.rank := by
  have lower {stage' : Stage T}
      (less : stageWeight (Fintype.card ι) stage' < stageWeight (Fintype.card ι) stage)
      (pc : s'.pc = Function.update s.pc thread (.inside call stage')) :
      s'.rank < s.rank :=
    rank_lt here pc less
  cases stage with
  | lock =>
      rw [advance] at advanced
      split at advanced
      · exact absurd advanced (by simp)
      · obtain rfl := Option.some.inj advanced
        exact lower (Nat.lt_succ_self _) rfl
  | check =>
      rw [advance] at advanced
      split at advanced
      · obtain rfl := Option.some.inj advanced
        apply lower _ rfl
        simp [stageWeight]
      · obtain rfl := Option.some.inj advanced
        exact lower (Nat.lt_succ_self _) rfl
  | wait =>
      obtain rfl := Option.some.inj advanced
      exact lower (Nat.lt_succ_self _) rfl
  | blocked => exact absurd advanced (by simp [advance])
  | woken =>
      rw [advance] at advanced
      split at advanced
      · exact absurd advanced (by simp)
      · obtain rfl := Option.some.inj advanced
        exact lower (Nat.lt_succ_self _) rfl
  | access =>
      cases call with
      | push value =>
          obtain rfl := Option.some.inj advanced
          apply lower _ rfl
          simp [stageWeight]
      | pop =>
          rw [advance] at advanced
          split at advanced
          · exact absurd advanced (by simp)
          · obtain rfl := Option.some.inj advanced
            exact lower (Nat.lt_succ_self _) rfl
  | erase out =>
      cases call with
      | push value => exact absurd advanced (by simp [advance])
      | pop =>
          obtain rfl := Option.some.inj advanced
          exact lower (Nat.lt_succ_self _) rfl
  | signal => exact absurd advanced (by simp [advance])
  | unlock =>
      obtain rfl := Option.some.inj advanced
      exact rank_lt here rfl Nat.one_pos

/-- The one signal of a call pays for all the threads it wakes. -/
theorem rank_signal
    {call : Call T}
    {woken : Finset ι}
    (here : s.pc thread = .inside call .signal)
    (signals : Signals (Point.at call.side.other Stage.isBlocked) s.pc woken) :
    ((s.condSignal woken).goto thread (.inside call .unlock)).rank < s.rank := by
  have still := still_signalling here signals
  have moved := weigh_update (weight (Fintype.card ι)) (s.condSignal woken).pc thread
    (.inside call .unlock)
  have woke : weigh (weight (Fintype.card ι)) (s.condSignal woken).pc ≤
      weigh (weight (Fintype.card ι)) s.pc + Fintype.card ι * 6 :=
    weigh_wake_le (weight_resume_le (Fintype.card ι)) woken
  rw [still] at moved
  change _ + (Fintype.card ι * 6 + 2) = _ + 1 at moved
  change weigh (weight (Fintype.card ι))
      (Function.update (s.condSignal woken).pc thread (.inside call .unlock)) <
    weigh (weight (Fintype.card ι)) s.pc
  omega

/-- Every step but a new call and a spurious wakeup lowers the rank. -/
theorem rank_act
    {action : Action ι T}
    (own : action.Own)
    (acted : s.act capacity action = some s') :
    s'.rank < s.rank := by
  cases action with
  | call thread call => exact absurd own id
  | next thread =>
      rw [act] at acted
      split at acted
      · exact absurd acted (by simp)
      · rename_i call stage here
        exact rank_advance here acted
  | signal thread woken =>
      rw [act] at acted
      split at acted
      · rename_i call here
        split at acted
        · rename_i signals
          obtain rfl := Option.some.inj acted
          exact rank_signal here signals
        · exact absurd acted (by simp)
      · exact absurd acted (by simp)
  | wakeup thread => exact absurd own id

/-- A queue comes to rest. -/
theorem ranked (capacity : Nat) :
    Ranked (act capacity : Action ι T → State ι T → Option (State ι T)) Action.Own
      (fun _ => True) rank where
  kept _ _ _ _ _ := trivial
  falls _ _ _ own _ acted := rank_act own acted

/-! ### At rest -/

/-- A signal can always be sent. -/
theorem not_at_signal_of_settled
    {call : Call T}
    (settled : Settled (act capacity) Action.Own s)
    (here : s.pc thread = .inside call .signal) :
    False := by
  have signals : Signals (Point.at call.side.other Stage.isBlocked) s.pc
      (Finset.univ.filter fun other =>
        Point.at call.side.other Stage.isBlocked (s.pc other) = true) := by
    constructor
    · intro other woken
      exact (Finset.mem_filter.mp woken).2
    · exact id
  have sent := settled (.signal thread (Finset.univ.filter fun other =>
    Point.at call.side.other Stage.isBlocked (s.pc other) = true)) trivial
  simp only [act, here, if_pos signals, reduceCtorEq] at sent

/-- At rest nobody has the mutex: its owner could go on. -/
theorem not_holding_of_settled
    (settled : Settled (act capacity) Action.Own s)
    (order : s.InOrder capacity)
    (popping : ∀ thread, ErasesInPop (s.pc thread))
    (thread : ι) :
    holding (s.pc thread) = false := by
  have next := settled (.next thread) trivial
  have assured := order.assured thread
  have inPop := popping thread
  cases here : s.pc thread with
  | idle => rfl
  | inside call stage =>
      rw [here] at assured inPop
      cases stage with
      | lock => rfl
      | check =>
          rw [act, here] at next
          simp only [advance] at next
          split at next
          · exact absurd next (by simp)
          · exact absurd next (by simp)
      | wait => simp [act, here, advance] at next
      | blocked => rfl
      | woken => rfl
      | access =>
          cases call with
          | push value => simp [act, here, advance] at next
          | pop =>
              obtain ⟨out, rest, queue⟩ := List.exists_cons_of_ne_nil assured
              simp [act, here, advance, queue] at next
      | erase out =>
          cases call with
          | push value => exact absurd inPop id
          | pop => simp [act, here, advance] at next
      | signal => exact (not_at_signal_of_settled settled here).elim
      | unlock => simp [act, here, advance] at next

/-- At rest every thread is outside of the queue or blocked. -/
theorem isBlocked_of_settled
    {call : Call T}
    {stage : Stage T}
    (settled : Settled (act capacity) Action.Own s)
    (order : s.InOrder capacity)
    (popping : ∀ thread, ErasesInPop (s.pc thread))
    (here : s.pc thread = .inside call stage) :
    stage = .blocked := by
  have next := settled (.next thread) trivial
  have outside := not_holding_of_settled settled order popping thread
  rw [here] at outside
  have unlocked : s.mtx = none := by
    by_contra locked
    obtain ⟨owner, owns⟩ := Option.ne_none_iff_exists'.mp locked
    have inside := (order.guarded owner).mpr owns
    rw [not_holding_of_settled settled order popping owner] at inside
    exact Bool.false_ne_true inside
  cases stage with
  | blocked => rfl
  | lock => simp [act, here, advance, unlocked] at next
  | woken => simp [act, here, advance, unlocked] at next
  | _ => exact absurd outside (by simp [holding, Stage.critical])

end State

/-- In every run only `pop` takes values out. -/
theorem erasesInPop
    (ι T : Type) [Fintype ι] [DecidableEq ι] (capacity : Nat) :
    (machine ι T capacity).Invariant fun s => ∀ thread, ErasesInPop (s.pc thread) := by
  apply Transition.Machine.invariant_of_actions
  · rintro s rfl thread
    trivial
  · intro action s s' popping acted
    exact (State.move_of_act acted).erasesInPop popping

/-- What is left at a queue at rest: the calls that have not returned are blocked, the
consumers among them because the queue is empty, the producers because it is full. -/
structure State.AtRest {ι T : Type} (capacity : Nat) (s : State ι T) : Prop where
  blocked : ∀ thread call stage, s.pc thread = .inside call stage → stage = .blocked
  empty : ∀ thread, s.pc thread = .inside .pop .blocked → s.bq = []
  full : ∀ thread value, s.pc thread = .inside (.push value) .blocked →
    s.bq.length = capacity

/-- What a queue at rest looks like. -/
theorem atRest_of_settled
    {ι T : Type} [Fintype ι] [DecidableEq ι]
    {capacity : Nat}
    {s : State ι T}
    (reached : (machine ι T capacity).Reachable s)
    (settled : Settled (State.act capacity) Action.Own s) :
    s.AtRest capacity := by
  have order := inOrder ι T capacity s reached
  have attended := attended ι T capacity s reached
  have popping := erasesInPop ι T capacity s reached
  have allBlocked (thread : ι) (call : Call T) (stage : Stage T)
      (here : s.pc thread = .inside call stage) : stage.isBlocked = true := by
    rw [State.isBlocked_of_settled settled order popping here]
    rfl
  constructor
  · intro thread call stage here
    exact State.isBlocked_of_settled settled order popping here
  · intro thread here
    have nothing := (attended .consumer).nothing allBlocked here rfl
    exact List.eq_nil_of_length_eq_zero nothing
  · intro thread value here
    have nothing := (attended .producer).nothing allBlocked here rfl
    have atLeast : capacity ≤ s.bq.length := Nat.le_of_sub_eq_zero nothing
    exact Nat.le_antisymm order.bounded atLeast

/-- Left alone, the threads at a queue come to rest after a bounded number of steps, in
whatever order they take them. Then all calls have returned but for calls of one side,
which wait for the other side because the queue is empty or full. -/
theorem queue_settles
    (ι T : Type) [Fintype ι] [DecidableEq ι]
    (capacity : Nat)
    (positive : 0 < capacity) :
    (machine ι T capacity).Invariant fun s =>
      (∃ actions t, (∀ action ∈ actions, action.Own) ∧
        run (State.act capacity) actions s = some t ∧
        Settled (State.act capacity) Action.Own t) ∧
      ∀ actions t, (∀ action ∈ actions, action.Own) →
        run (State.act capacity) actions s = some t →
        actions.length ≤ s.rank ∧
        (Settled (State.act capacity) Action.Own t →
          t.AtRest capacity ∧ ∃ side, ∀ thread call stage,
            t.pc thread = .inside call stage → call.side = side) := by
  intro s reached
  refine ⟨(State.ranked capacity).exists_settled trivial, ?_⟩
  intro actions t own ran
  have bound := (State.ranked capacity).length_add_rank_le trivial own ran
  refine ⟨by omega, ?_⟩
  intro settled
  have atRest := atRest_of_settled (Transition.reachable_of_run reached ran) settled
  refine ⟨atRest, ?_⟩
  by_cases waits : ∃ thread, t.pc thread = .inside .pop .blocked
  · obtain ⟨consumer, isWaiting⟩ := waits
    refine ⟨.consumer, ?_⟩
    intro thread call stage here
    obtain rfl := atRest.blocked thread call stage here
    cases call with
    | push value =>
        have isFull := atRest.full thread value here
        rw [atRest.empty consumer isWaiting] at isFull
        exact absurd positive (Nat.not_lt.mpr (Nat.le_of_eq isFull.symm))
    | pop => rfl
  · refine ⟨.producer, ?_⟩
    intro thread call stage here
    obtain rfl := atRest.blocked thread call stage here
    cases call with
    | push value => rfl
    | pop => exact absurd ⟨thread, here⟩ waits

theorem queue_settles_one :
    (machine (Fin 2) Nat 1).Invariant fun s =>
      (∃ actions t, (∀ action ∈ actions, action.Own) ∧
        run (State.act 1) actions s = some t ∧ Settled (State.act 1) Action.Own t) ∧
      ∀ actions t, (∀ action ∈ actions, action.Own) →
        run (State.act 1) actions s = some t →
        actions.length ≤ s.rank ∧
        (Settled (State.act 1) Action.Own t →
          t.AtRest 1 ∧ ∃ side, ∀ thread call stage,
            t.pc thread = .inside call stage → call.side = side) :=
  queue_settles (Fin 2) Nat 1 Nat.one_pos

end BlockQueue
end LearnInLinux
