import LearnInLinux.Library.Threads
import LearnInLinux.Library.Transition
import Mathlib.Tactic

/-!
# The blocking queue

Producers and consumers share a queue behind one mutex. A producer that finds the
queue full waits on `_full`, a consumer that finds it empty waits on `_empty`;
waiting gives the mutex up, and a woken thread takes it again and looks once more.
Every step is atomic, any thread may take the next one, and a waiting thread may
wake up for no reason. The two copies of the class differ in names only.
-/

namespace LearnInLinux
namespace BlockQueue

open Threads

/-- The steps of `push` and `pop`. -/
inductive Stage (T : Type)
  /-- The constructor of `LockGuard`. -/
  | lock
  /-- `isfull()` or `isempty()` -/
  | check
  /-- In front of `pthread_cond_wait`. -/
  | wait
  | blocked
  /-- Woken up, in front of taking the mutex again. -/
  | woken
  /-- `_bq.push(in)` or `*out = _bq.front()` -/
  | access
  /-- `_bq.pop()` after `front()` has returned `out`. -/
  | erase (out : T)
  /-- `pthread_cond_signal(&_empty)` or `pthread_cond_signal(&_full)` -/
  | signal
  /-- The destructor of `LockGuard`. -/
  | unlock

/-- The queue with its mutex, where its threads are, and what went through it so far. -/
structure State (ι T : Type) where
  bq : List T
  mtx : Option ι
  pc : ι → Point T (Stage T)
  /-- Values pushed, in the order in which the producers held the mutex. -/
  pushed : List T
  /-- Values that `pop` returns, in the order in which the consumers held the mutex. -/
  popped : List T

/-- What happens next: a call, a step of a call, a signal that wakes some of the
threads waiting for it, or a wakeup without a signal. -/
inductive Action (ι T : Type)
  | call (thread : ι) (call : Call T)
  | next (thread : ι)
  | signal (thread : ι) (woken : Finset ι)
  | wakeup (thread : ι)

/-- The thread is blocked on a condition variable. -/
def Stage.isBlocked {T : Type} : Stage T → Bool
  | .blocked => true
  | _ => false

/-- A woken thread leaves the condition variable. -/
def resume {T : Type} : Point T (Stage T) → Point T (Stage T)
  | .inside call .blocked => .inside call .woken
  | point => point

namespace State

variable {ι T : Type}

/-- `isfull()` -/
def isfull (capacity : Nat) (s : State ι T) : Bool :=
  decide (s.bq.length = capacity)

/-- `isempty()` -/
def isempty (s : State ι T) : Bool :=
  decide (s.bq.length = 0)

/-- The condition of the loop around `pthread_cond_wait`. -/
def suspends (capacity : Nat) (s : State ι T) : Call T → Bool
  | .push _ => s.isfull capacity
  | .pop => s.isempty

variable [DecidableEq ι]

/-- A thread goes to its next step. -/
def goto (thread : ι) (point : Point T (Stage T)) (s : State ι T) : State ι T :=
  { s with pc := Function.update s.pc thread point }

/-- `pthread_mutex_lock` on a mutex that is free. -/
def mutexLock (thread : ι) (s : State ι T) : State ι T :=
  { s with mtx := some thread }

/-- `pthread_mutex_unlock` -/
def mutexUnlock (s : State ι T) : State ι T :=
  { s with mtx := none }

/-- `bq.push(in)`, with a note of the value. -/
def push (value : T) (s : State ι T) : State ι T :=
  { s with
    bq := s.bq ++ [value]
    pushed := s.pushed ++ [value] }

/-- `bq.pop()`, with a note of the value that `front()` has returned. -/
def erase (out : T) (s : State ι T) : State ι T :=
  { s with
    bq := s.bq.tail
    popped := s.popped ++ [out] }

/-- `pthread_cond_signal`, for the threads that it wakes. -/
def condSignal (woken : Finset ι) (s : State ι T) : State ι T :=
  { s with pc := wake resume woken s.pc }

/-- One step of a call; `none` while the thread has to wait. -/
def advance
    (capacity : Nat) (thread : ι) (call : Call T) (stage : Stage T)
    (s : State ι T) : Option (State ι T) :=
  match stage with
  | .lock | .woken =>
      match s.mtx with
      | some _ => none
      | none => some ((s.mutexLock thread).goto thread (.inside call .check))
  | .check =>
      if s.suspends capacity call then some (s.goto thread (.inside call .wait))
      else some (s.goto thread (.inside call .access))
  | .wait => some (s.mutexUnlock.goto thread (.inside call .blocked))
  | .blocked => none
  | .access =>
      match call with
      | .push value => some ((s.push value).goto thread (.inside call .signal))
      | .pop =>
          match s.bq with
          | [] => none
          | out :: _ => some (s.goto thread (.inside call (.erase out)))
  | .erase out =>
      match call with
      | .push _ => none
      | .pop => some ((s.erase out).goto thread (.inside call .signal))
  | .signal => none
  | .unlock => some (s.mutexUnlock.goto thread .idle)

/-- One step of the queue; `none` while it is not the next one of its thread, or has to
wait. -/
def act
    [Fintype ι]
    (capacity : Nat) (action : Action ι T) (s : State ι T) : Option (State ι T) :=
  match action with
  | .call thread call =>
      match s.pc thread with
      | .idle => some (s.goto thread (.inside call .lock))
      | .inside _ _ => none
  | .next thread =>
      match s.pc thread with
      | .idle => none
      | .inside call stage => s.advance capacity thread call stage
  | .signal thread woken =>
      match s.pc thread with
      | .inside call .signal =>
          if Signals (Point.at call.side.other Stage.isBlocked) s.pc woken then
            some ((s.condSignal woken).goto thread (.inside call .unlock))
          else none
      | _ => none
  | .wakeup thread =>
      match s.pc thread with
      | .inside call .blocked => some (s.goto thread (.inside call .woken))
      | _ => none

/-- The queue behind its constructor. -/
def create (ι T : Type) : State ι T where
  bq := []
  mtx := none
  pc _ := .idle
  pushed := []
  popped := []

end State

/-- All runs of any threads on a queue of the capacity. -/
def machine (ι T : Type) [Fintype ι] [DecidableEq ι] (capacity : Nat) :
    Transition.Machine (State ι T) :=
  .ofStep (fun s => s = State.create ι T) (State.act capacity)

namespace State

variable {ι T : Type} [Fintype ι] [DecidableEq ι]

/-- Everything that one action can do. -/
inductive Move (capacity : Nat) (s : State ι T) : State ι T → Prop
  | call {thread : ι} (call : Call T)
      (here : s.pc thread = .idle) :
      Move capacity s (s.goto thread (.inside call .lock))
  | lock {thread : ι} {call : Call T}
      (here : s.pc thread = .inside call .lock)
      (unlocked : s.mtx = none) :
      Move capacity s ((s.mutexLock thread).goto thread (.inside call .check))
  | relock {thread : ι} {call : Call T}
      (here : s.pc thread = .inside call .woken)
      (unlocked : s.mtx = none) :
      Move capacity s ((s.mutexLock thread).goto thread (.inside call .check))
  | suspend {thread : ι} {call : Call T}
      (here : s.pc thread = .inside call .check)
      (suspends : s.suspends capacity call = true) :
      Move capacity s (s.goto thread (.inside call .wait))
  | proceed {thread : ι} {call : Call T}
      (here : s.pc thread = .inside call .check)
      (suspends : s.suspends capacity call = false) :
      Move capacity s (s.goto thread (.inside call .access))
  | wait {thread : ι} {call : Call T}
      (here : s.pc thread = .inside call .wait) :
      Move capacity s (s.mutexUnlock.goto thread (.inside call .blocked))
  | push {thread : ι} {value : T}
      (here : s.pc thread = .inside (.push value) .access) :
      Move capacity s ((s.push value).goto thread (.inside (.push value) .signal))
  | front {thread : ι} {out : T} {rest : List T}
      (here : s.pc thread = .inside .pop .access)
      (queue : s.bq = out :: rest) :
      Move capacity s (s.goto thread (.inside .pop (.erase out)))
  | erase {thread : ι} {out : T}
      (here : s.pc thread = .inside .pop (.erase out)) :
      Move capacity s ((s.erase out).goto thread (.inside .pop .signal))
  | signal {thread : ι} {call : Call T} {woken : Finset ι}
      (here : s.pc thread = .inside call .signal)
      (signals : Signals (Point.at call.side.other Stage.isBlocked) s.pc woken) :
      Move capacity s ((s.condSignal woken).goto thread (.inside call .unlock))
  | unlock {thread : ι} {call : Call T}
      (here : s.pc thread = .inside call .unlock) :
      Move capacity s (s.mutexUnlock.goto thread .idle)
  | wakeup {thread : ι} {call : Call T}
      (here : s.pc thread = .inside call .blocked) :
      Move capacity s (s.goto thread (.inside call .woken))

/-- What the code of `push` and `pop` does is one of the moves. -/
theorem move_of_advance
    {capacity : Nat}
    {thread : ι}
    {call : Call T}
    {stage : Stage T}
    {s s' : State ι T}
    (here : s.pc thread = .inside call stage)
    (advanced : s.advance capacity thread call stage = some s') :
    s.Move capacity s' := by
  cases stage with
  | lock =>
      rw [advance] at advanced
      split at advanced
      · exact absurd advanced (by simp)
      · rename_i unlocked
        obtain rfl := Option.some.inj advanced
        exact .lock here unlocked
  | check =>
      rw [advance] at advanced
      split at advanced
      · rename_i suspends
        obtain rfl := Option.some.inj advanced
        exact .suspend here suspends
      · rename_i suspends
        obtain rfl := Option.some.inj advanced
        exact .proceed here (Bool.eq_false_iff.mpr suspends)
  | wait =>
      obtain rfl := Option.some.inj advanced
      exact .wait here
  | blocked => exact absurd advanced (by simp [advance])
  | woken =>
      rw [advance] at advanced
      split at advanced
      · exact absurd advanced (by simp)
      · rename_i unlocked
        obtain rfl := Option.some.inj advanced
        exact .relock here unlocked
  | access =>
      cases call with
      | push value =>
          obtain rfl := Option.some.inj advanced
          exact .push here
      | pop =>
          rw [advance] at advanced
          split at advanced
          · exact absurd advanced (by simp)
          · rename_i out rest queue
            obtain rfl := Option.some.inj advanced
            exact .front here queue
  | erase out =>
      cases call with
      | push value => exact absurd advanced (by simp [advance])
      | pop =>
          obtain rfl := Option.some.inj advanced
          exact .erase here
  | signal => exact absurd advanced (by simp [advance])
  | unlock =>
      obtain rfl := Option.some.inj advanced
      exact .unlock here

/-- Every action is one of the moves. -/
theorem move_of_act
    {capacity : Nat}
    {action : Action ι T}
    {s s' : State ι T}
    (acted : s.act capacity action = some s') :
    s.Move capacity s' := by
  cases action with
  | call thread call =>
      rw [act] at acted
      split at acted
      · rename_i here
        obtain rfl := Option.some.inj acted
        exact .call call here
      · exact absurd acted (by simp)
  | next thread =>
      rw [act] at acted
      split at acted
      · exact absurd acted (by simp)
      · rename_i call stage here
        exact move_of_advance here acted
  | signal thread woken =>
      rw [act] at acted
      split at acted
      · rename_i call here
        split at acted
        · rename_i signals
          obtain rfl := Option.some.inj acted
          exact .signal here signals
        · exact absurd acted (by simp)
      · exact absurd acted (by simp)
  | wakeup thread =>
      rw [act] at acted
      split at acted
      · rename_i call here
        obtain rfl := Option.some.inj acted
        exact .wakeup here
      · exact absurd acted (by simp)

end State

/-! ## The mutex and the queue -/

/-- Between locking and unlocking. -/
def Stage.critical {T : Type} : Stage T → Bool
  | .lock => false
  | .blocked => false
  | .woken => false
  | _ => true

/-- The thread stands between locking and unlocking. -/
def holding {T : Type} : Point T (Stage T) → Bool
  | .idle => false
  | .inside _ stage => stage.critical

/-- The queue lets the call through. -/
def Ready {T : Type} (capacity : Nat) (bq : List T) : Call T → Prop
  | .push _ => bq.length < capacity
  | .pop => bq ≠ []

/-- The queue holds the call up. -/
def Suspended {T : Type} (capacity : Nat) (bq : List T) : Call T → Prop
  | .push _ => bq.length = capacity
  | .pop => bq = []

/-- What a thread inside knows about the queue. -/
def Assured {T : Type} (capacity : Nat) (bq : List T) : Point T (Stage T) → Prop
  | .idle => True
  | .inside call stage =>
      match stage with
      | .wait => Suspended capacity bq call
      | .access => Ready capacity bq call
      | .erase out => bq.head? = some out
      | _ => True

section Points

variable {T : Type} {capacity : Nat} {bq : List T}

/-- Waking up does not bring the mutex. -/
theorem holding_resume (point : Point T (Stage T)) :
    holding (resume point) = holding point := by
  cases point with
  | idle => rfl
  | inside call stage => cases stage <;> rfl

/-- Outside of the mutex nothing is known about the queue. -/
theorem assured_of_outside
    (point : Point T (Stage T))
    (outside : holding point = false) :
    Assured capacity bq point := by
  cases point with
  | idle => trivial
  | inside call stage =>
      cases stage with
      | lock => trivial
      | blocked => trivial
      | woken => trivial
      | check => exact absurd outside Bool.false_ne_true.symm
      | wait => exact absurd outside Bool.false_ne_true.symm
      | access => exact absurd outside Bool.false_ne_true.symm
      | erase out => exact absurd outside Bool.false_ne_true.symm
      | signal => exact absurd outside Bool.false_ne_true.symm
      | unlock => exact absurd outside Bool.false_ne_true.symm

/-- A woken thread looks at the queue again, so nothing has to hold for it. -/
theorem Assured.resume
    {point : Point T (Stage T)}
    (assured : Assured capacity bq point) :
    Assured capacity bq (resume point) := by
  cases point with
  | idle => trivial
  | inside call stage =>
      cases stage with
      | blocked => trivial
      | _ => exact assured

end Points

namespace State

variable {ι T : Type} {capacity : Nat} {s s' : State ι T}

/-- The mutex keeps the threads apart, what they have seen of the queue still holds, and the
values leave in the order in which they came. -/
structure InOrder (capacity : Nat) (s : State ι T) : Prop where
  guarded : Guarded holding s.mtx s.pc
  assured : ∀ thread, Assured capacity s.bq (s.pc thread)
  bounded : s.bq.length ≤ capacity
  fifo : s.pushed = s.popped ++ s.bq

/-- `isfull` and `isempty` tell when a call has to wait. -/
theorem suspends_iff {call : Call T} :
    s.suspends capacity call = true ↔ Suspended capacity s.bq call := by
  cases call with
  | push value => exact decide_eq_true_iff
  | pop => exact decide_eq_true_iff.trans List.length_eq_zero_iff

/-- The loop ends only when there is room or a value: `==` is enough in a queue that
is not above its capacity. -/
theorem ready_of_not_suspends
    {call : Call T}
    (bounded : s.bq.length ≤ capacity)
    (proceeds : s.suspends capacity call = false) :
    Ready capacity s.bq call := by
  have free : ¬ Suspended capacity s.bq call := by
    rw [← suspends_iff, proceeds]
    exact Bool.false_ne_true
  cases call with
  | push value => exact Nat.lt_of_le_of_ne bounded free
  | pop => exact free

/-- A step that leaves the queue alone. -/
theorem InOrder.of_quiet
    {mtx : Option ι}
    {pc : ι → Point T (Stage T)}
    (order : s.InOrder capacity)
    (guarded : Guarded holding mtx pc)
    (assured : ∀ thread, Assured capacity s.bq (pc thread)) :
    ({ s with mtx := mtx, pc := pc } : State ι T).InOrder capacity := by
  constructor
  · exact guarded
  · exact assured
  · exact order.bounded
  · exact order.fifo

/-- Between `front()` and `pop()` the value stays where it is. -/
theorem InOrder.present_at_erase
    {thread : ι}
    {call : Call T}
    {out : T}
    (order : s.InOrder capacity)
    (here : s.pc thread = .inside call (.erase out)) :
    s.bq ≠ [] := by
  have first := order.assured thread
  rw [here] at first
  intro empty
  rw [empty] at first
  exact Option.some_ne_none out first.symm

variable [Fintype ι] [DecidableEq ι]

/-- The thread that sends a signal is not woken by it. -/
theorem still_signalling
    {thread : ι}
    {call : Call T}
    {woken : Finset ι}
    (here : s.pc thread = .inside call .signal)
    (signals : Signals (Point.at call.side.other Stage.isBlocked) s.pc woken) :
    (s.condSignal woken).pc thread = .inside call .signal := by
  refine (wake_of_notMem fun isWoken => ?_).trans here
  have waits := signals.1 thread isWoken
  rw [here] at waits
  exact absurd (Bool.and_eq_true_iff.mp waits).2 Bool.false_ne_true

omit [Fintype ι] in
/-- The room that a producer has seen is still there when it pushes. -/
theorem InOrder.push
    {thread : ι}
    {value : T}
    (order : s.InOrder capacity)
    (here : s.pc thread = .inside (.push value) .access) :
    ((s.push value).goto thread (.inside (.push value) .signal)).InOrder capacity := by
  have room := order.assured thread
  rw [here] at room
  constructor
  · exact order.guarded.move here rfl
  · exact order.guarded.assertion here rfl assured_of_outside trivial
  · change (s.bq ++ [value]).length ≤ capacity
    rw [List.length_append]
    exact room
  · change s.pushed ++ [value] = s.popped ++ (s.bq ++ [value])
    rw [order.fifo, List.append_assoc]

omit [Fintype ι] in
/-- The value that a consumer has seen in front is the one that it removes. -/
theorem InOrder.erase
    {thread : ι}
    {out : T}
    (order : s.InOrder capacity)
    (here : s.pc thread = .inside .pop (.erase out)) :
    ((s.erase out).goto thread (.inside .pop .signal)).InOrder capacity := by
  have first := order.assured thread
  rw [here] at first
  have queue : s.bq = out :: s.bq.tail := List.eq_cons_of_mem_head? first
  constructor
  · exact order.guarded.move here rfl
  · exact order.guarded.assertion here rfl assured_of_outside trivial
  · change s.bq.tail.length ≤ capacity
    rw [List.length_tail]
    exact Nat.le_trans (Nat.sub_le _ _) order.bounded
  · change s.pushed = (s.popped ++ [out]) ++ s.bq.tail
    rw [order.fifo, List.append_assoc, List.singleton_append, ← queue]

/-- Every step keeps the order. -/
theorem InOrder.move
    (order : s.InOrder capacity)
    (moved : s.Move capacity s') :
    s'.InOrder capacity := by
  cases moved with
  | call call here =>
      apply order.of_quiet
      · exact order.guarded.move here rfl
      · exact assertion_update order.assured trivial
  | lock here unlocked =>
      apply order.of_quiet
      · exact order.guarded.lock unlocked rfl
      · exact assertion_update order.assured trivial
  | relock here unlocked =>
      apply order.of_quiet
      · exact order.guarded.lock unlocked rfl
      · exact assertion_update order.assured trivial
  | suspend here suspends =>
      apply order.of_quiet
      · exact order.guarded.move here rfl
      · apply assertion_update order.assured
        exact suspends_iff.mp suspends
  | proceed here suspends =>
      apply order.of_quiet
      · exact order.guarded.move here rfl
      · apply assertion_update order.assured
        exact ready_of_not_suspends order.bounded suspends
  | wait here =>
      apply order.of_quiet
      · exact order.guarded.unlock here rfl rfl
      · exact assertion_update order.assured trivial
  | push here => exact order.push here
  | front here queue =>
      apply order.of_quiet
      · exact order.guarded.move here rfl
      · apply assertion_update order.assured
        rw [queue]
        rfl
  | erase here => exact order.erase here
  | @signal thread call woken here signals =>
      have awake : Guarded holding s.mtx (s.condSignal woken).pc :=
        order.guarded.of_same (wake_same holding_resume)
      apply order.of_quiet
      · exact awake.move (still_signalling here signals) rfl
      · exact assertion_update (assertion_wake order.assured fun _ => Assured.resume) trivial
  | unlock here =>
      apply order.of_quiet
      · exact order.guarded.unlock here rfl rfl
      · exact assertion_update order.assured trivial
  | wakeup here =>
      apply order.of_quiet
      · exact order.guarded.move here rfl
      · exact assertion_update order.assured trivial

end State

/-- In every run the queue is in order. -/
theorem inOrder
    (ι T : Type) [Fintype ι] [DecidableEq ι] (capacity : Nat) :
    (machine ι T capacity).Invariant (State.InOrder capacity) := by
  apply Transition.Machine.invariant_of_actions
  · rintro s rfl
    refine ⟨?_, fun _ => trivial, Nat.zero_le capacity, rfl⟩
    intro thread
    exact iff_of_false Bool.false_ne_true (by simp [State.create])
  · intro action s s' order acted
    exact order.move (State.move_of_act acted)

/-! ## The bounded queue -/

/-- What a queue of the capacity is for. -/
structure BoundedFifo {ι T : Type} (capacity : Nat) (s : State ι T) : Prop where
  bounded : s.bq.length ≤ capacity
  atFront : ∀ thread, s.pc thread = .inside .pop .access → s.bq ≠ []
  atErase : ∀ thread call out, s.pc thread = .inside call (.erase out) → s.bq ≠ []
  fifo : s.popped ++ s.bq = s.pushed

/-- However its threads take turns, and whatever wakes them, a queue keeps to its
capacity, is never read or shortened when it is empty, and holds what was pushed and
not yet popped, in order. -/
theorem queue_bounded_fifo
    (ι T : Type) [Fintype ι] [DecidableEq ι] (capacity : Nat) :
    (machine ι T capacity).Invariant (BoundedFifo capacity) := by
  intro s reached
  have order := inOrder ι T capacity s reached
  constructor
  · exact order.bounded
  · intro thread here
    have ready := order.assured thread
    rw [here] at ready
    exact ready
  · intro thread call out here
    exact order.present_at_erase here
  · exact order.fifo.symm

/-- A consumer waits and is woken by a push, but another one is faster: the first one
finds the queue empty and waits again. -/
example :
    ((Transition.run (State.act 1)
      [.call 0 .pop, .next 0, .next 0, .next 0, .call 1 (.push 7), .next 1, .next 1,
        .next 1, .signal 1 {0}, .next 1, .call 2 .pop, .next 2, .next 2, .next 2, .next 2,
        .signal 2 ∅, .next 2, .next 0, .next 0, .next 0]
      (State.create (Fin 3) Nat)).map fun s => (s.popped, s.bq, s.mtx)) =
    some ([7], [], none) := by
  decide

/-! ## Wakeups -/

namespace Stage

variable {T : Type}

/-- On the way from a wakeup, or from the lock, to the own change of the queue. -/
def active : Stage T → Bool
  | .woken => true
  | .check => true
  | .access => true
  | .erase _ => true
  | _ => false

/-- In front of the signal to the other side. -/
def signalling : Stage T → Bool
  | .signal => true
  | _ => false

end Stage

namespace State

variable {ι T : Type}

/-- How many more calls on the side the queue lets through. -/
def available (capacity : Nat) (s : State ι T) : Side → Nat
  | .producer => capacity - s.bq.length
  | .consumer => s.bq.length

variable [Fintype ι]

/-- While a thread of the side is blocked, every call that the queue would let through
is matched by an active thread of the side or by a signal that the other side is about
to send. -/
def Attended (capacity : Nat) (s : State ι T) (side : Side) : Prop :=
  0 < count (Point.at side Stage.isBlocked) s.pc →
    s.available capacity side ≤
      count (Point.at side Stage.active) s.pc +
        count (Point.at side.other Stage.signalling) s.pc

variable {capacity : Nat} {s s' : State ι T} {side : Side} {thread : ι}

/-- Nobody is missed where there is nothing to wake up for. -/
theorem attended_of_nothing
    (nothing : s.available capacity side = 0) :
    s.Attended capacity side := by
  intro _
  rw [nothing]
  exact Nat.zero_le _

omit [Fintype ι] in
/-- A call that suspends has seen nothing for its side. -/
theorem available_of_suspended
    {call : Call T}
    (suspended : Suspended capacity s.bq call) :
    s.available capacity call.side = 0 := by
  cases call with
  | push value =>
      change capacity - s.bq.length = 0
      rw [suspended, Nat.sub_self]
  | pop =>
      change s.bq.length = 0
      rw [suspended, List.length_nil]

variable [DecidableEq ι]

/-- A step of one thread keeps a side attended if it does not block the thread and
what it makes available is matched by what becomes of the thread. -/
theorem Attended.of_move
    {before point : Point T (Stage T)}
    (attended : s.Attended capacity side)
    (here : s.pc thread = before)
    (pc : s'.pc = Function.update s.pc thread point)
    (blocked : Point.at side Stage.isBlocked point = true →
      Point.at side Stage.isBlocked before = true)
    (matched : s'.available capacity side +
        (Point.at side Stage.active before).toNat +
          (Point.at side.other Stage.signalling before).toNat ≤
      s.available capacity side +
        (Point.at side Stage.active point).toNat +
          (Point.at side.other Stage.signalling point).toNat) :
    s'.Attended capacity side := by
  have blockedCount := count_update (Point.at side Stage.isBlocked) s.pc thread point
  have activeCount := count_update (Point.at side Stage.active) s.pc thread point
  have signalCount :=
    count_update (Point.at side.other Stage.signalling) s.pc thread point
  rw [here, ← pc] at blockedCount activeCount signalCount
  have notMore : (Point.at side Stage.isBlocked point).toNat ≤
      (Point.at side Stage.isBlocked before).toNat := Bool.toNat_le_toNat blocked
  intro somebody
  have enough := attended (by omega)
  omega

/-- A step of one thread that leaves the queue alone. -/
theorem Attended.of_quiet
    {before point : Point T (Stage T)}
    (attended : s.Attended capacity side)
    (here : s.pc thread = before)
    (bq : s'.bq = s.bq)
    (pc : s'.pc = Function.update s.pc thread point)
    (blocked : Point.at side Stage.isBlocked point = true →
      Point.at side Stage.isBlocked before = true)
    (active : Point.at side Stage.active before = true →
      Point.at side Stage.active point = true)
    (signalling : Point.at side.other Stage.signalling before = true →
      Point.at side.other Stage.signalling point = true) :
    s'.Attended capacity side := by
  apply attended.of_move here pc blocked
  have same : s'.available capacity side = s.available capacity side := by
    cases side with
    | producer => exact congrArg (fun bq => capacity - List.length bq) bq
    | consumer => exact congrArg List.length bq
  rw [same]
  apply Nat.add_le_add
  · exact Nat.add_le_add_left (Bool.toNat_le_toNat active) _
  · exact Bool.toNat_le_toNat signalling

/-- A step from one stage of a call to another one. -/
theorem Attended.of_stage
    {call : Call T}
    {stage next : Stage T}
    (attended : s.Attended capacity side)
    (here : s.pc thread = .inside call stage)
    (bq : s'.bq = s.bq)
    (pc : s'.pc = Function.update s.pc thread (.inside call next))
    (blocked : next.isBlocked = true → stage.isBlocked = true)
    (active : stage.active = true → next.active = true)
    (signalling : stage.signalling = true → next.signalling = true) :
    s'.Attended capacity side := by
  apply attended.of_quiet here bq pc
  · exact Point.at_of_imp blocked
  · exact Point.at_of_imp active
  · exact Point.at_of_imp signalling

/-- A step of the other side that neither blocks nor signals. -/
theorem Attended.of_other_side
    {call : Call T}
    {stage next : Stage T}
    (attended : s.Attended capacity side)
    (different : call.side ≠ side)
    (here : s.pc thread = .inside call stage)
    (bq : s'.bq = s.bq)
    (pc : s'.pc = Function.update s.pc thread (.inside call next))
    (signalling : stage.signalling = true → next.signalling = true) :
    s'.Attended capacity side := by
  apply attended.of_quiet here bq pc
  · intro present
    rw [Point.at_of_ne different] at present
    exact absurd present Bool.false_ne_true
  · intro present
    rw [Point.at_of_ne different] at present
    exact absurd present Bool.false_ne_true
  · exact Point.at_of_imp signalling

/-- A pushed value is attended to by its producer, up to its signal. -/
theorem Attended.push
    {value : T}
    (attended : s.Attended capacity side)
    (here : s.pc thread = .inside (.push value) .access)
    (room : s.bq.length < capacity) :
    ((s.push value).goto thread (.inside (.push value) .signal)).Attended capacity
      side := by
  apply attended.of_move here rfl
  · simp [Point.at, Stage.isBlocked]
  · cases side with
    | producer =>
        change capacity - (s.bq ++ [value]).length + 1 + 0 ≤ capacity - s.bq.length + 0 + 0
        rw [List.length_append, List.length_singleton]
        omega
    | consumer =>
        change (s.bq ++ [value]).length + 0 + 0 ≤ s.bq.length + 0 + 1
        rw [List.length_append, List.length_singleton]

/-- A freed place is attended to by its consumer, up to its signal. -/
theorem Attended.erase
    {out : T}
    (attended : s.Attended capacity side)
    (here : s.pc thread = .inside .pop (.erase out))
    (present : s.bq ≠ []) :
    ((s.erase out).goto thread (.inside .pop .signal)).Attended capacity side := by
  have positive := List.length_pos_iff.mpr present
  apply attended.of_move here rfl
  · simp [Point.at, Stage.isBlocked]
  · cases side with
    | producer =>
        change capacity - s.bq.tail.length + 0 + 0 ≤ capacity - s.bq.length + 0 + 1
        rw [List.length_tail]
        omega
    | consumer =>
        change s.bq.tail.length + 1 + 0 ≤ s.bq.length + 0 + 0
        rw [List.length_tail]
        omega

omit [Fintype ι] [DecidableEq ι] in
/-- Waking a thread does not bring it nearer to a point of a kind that a woken thread
is in when a blocked one is. -/
theorem at_resume
    {kind : Stage T → Bool}
    {point : Point T (Stage T)}
    (kept : kind .blocked = true → kind .woken = true)
    (present : Point.at side kind point = true) :
    Point.at side kind (resume point) = true := by
  cases point with
  | idle => exact present
  | inside call stage =>
      cases stage with
      | blocked => exact Point.at_of_imp kept present
      | _ => exact present

omit [Fintype ι] [DecidableEq ι] in
theorem isBlocked_of_resume
    {point : Point T (Stage T)}
    (present : Point.at side Stage.isBlocked (resume point) = true) :
    Point.at side Stage.isBlocked point = true := by
  cases point with
  | idle => exact present
  | inside call stage =>
      cases stage with
      | blocked =>
          exact absurd (Bool.and_eq_true_iff.mp present).2 Bool.false_ne_true
      | _ => exact present

omit [Fintype ι] [DecidableEq ι] in
theorem active_of_isBlocked
    {point : Point T (Stage T)}
    (waits : Point.at side Stage.isBlocked point = true) :
    Point.at side Stage.active point = false := by
  cases point with
  | idle => rfl
  | inside call stage =>
      cases stage with
      | blocked => exact Bool.and_false _
      | _ => exact absurd (Bool.and_eq_true_iff.mp waits).2 Bool.false_ne_true

omit [Fintype ι] [DecidableEq ι] in
theorem active_resume_of_isBlocked
    {point : Point T (Stage T)}
    (waits : Point.at side Stage.isBlocked point = true) :
    Point.at side Stage.active (resume point) = true := by
  cases point with
  | idle => exact absurd waits Bool.false_ne_true
  | inside call stage =>
      cases stage with
      | blocked => exact waits
      | _ => exact absurd (Bool.and_eq_true_iff.mp waits).2 Bool.false_ne_true

/-- A signal is sent: it wakes a blocked thread of the other side, if there is one. -/
theorem Attended.signal
    {call : Call T}
    {woken : Finset ι}
    (attended : s.Attended capacity side)
    (here : s.pc thread = .inside call .signal)
    (signals : Signals (Point.at call.side.other Stage.isBlocked) s.pc woken) :
    ((s.condSignal woken).goto thread (.inside call .unlock)).Attended capacity side := by
  have still := still_signalling here signals
  have blocked := count_update (Point.at side Stage.isBlocked)
    (s.condSignal woken).pc thread (.inside call .unlock)
  have active := count_update (Point.at side Stage.active)
    (s.condSignal woken).pc thread (.inside call .unlock)
  have signalling := count_update (Point.at side.other Stage.signalling)
    (s.condSignal woken).pc thread (.inside call .unlock)
  have blockedWoken : count (Point.at side Stage.isBlocked) (s.condSignal woken).pc ≤
      count (Point.at side Stage.isBlocked) s.pc :=
    count_wake_le fun _ => isBlocked_of_resume
  have activeWoken : count (Point.at side Stage.active) s.pc ≤
      count (Point.at side Stage.active) (s.condSignal woken).pc :=
    count_le_count_wake fun _ => at_resume fun _ => rfl
  have signallingWoken : count (Point.at side.other Stage.signalling) s.pc ≤
      count (Point.at side.other Stage.signalling) (s.condSignal woken).pc :=
    count_le_count_wake fun _ => at_resume fun blocked => blocked
  rw [still] at blocked active signalling
  simp only [Point.at, Stage.isBlocked, Stage.active, Stage.signalling, Bool.and_false,
    Bool.and_true, Bool.toNat_false, Nat.add_zero] at blocked active signalling
  change 0 < count (Point.at side Stage.isBlocked)
      (Function.update (s.condSignal woken).pc thread (.inside call .unlock)) →
    s.available capacity side ≤ count (Point.at side Stage.active)
        (Function.update (s.condSignal woken).pc thread (.inside call .unlock)) +
      count (Point.at side.other Stage.signalling)
        (Function.update (s.condSignal woken).pc thread (.inside call .unlock))
  rw [blocked, active]
  intro somebody
  have enough := attended (Nat.lt_of_lt_of_le somebody blockedWoken)
  by_cases target : side = call.side.other
  · subst target
    have oneMore : count (Point.at call.side.other Stage.active) s.pc <
        count (Point.at call.side.other Stage.active) (s.condSignal woken).pc := by
      apply signals.count_lt_count_wake (Nat.lt_of_lt_of_le somebody blockedWoken)
      · exact fun _ => at_resume fun _ => rfl
      · exact fun _ => active_of_isBlocked
      · exact fun _ => active_resume_of_isBlocked
    rw [Side.other_other, decide_eq_true rfl, Bool.toNat_true] at signalling
    rw [Side.other_other] at enough signallingWoken ⊢
    omega
  · rw [decide_eq_false fun same => target (by rw [same, Side.other_other]),
      Bool.toNat_false, Nat.add_zero] at signalling
    rw [signalling]
    omega

/-- Every step keeps each side attended to. -/
theorem Move.attended
    (moved : s.Move capacity s')
    (order : s.InOrder capacity)
    (attended : s.Attended capacity side) :
    s'.Attended capacity side := by
  cases moved with
  | call call here =>
      refine attended.of_quiet here rfl rfl ?_ ?_ ?_
      · simp [Point.at, Stage.isBlocked]
      · simp [Point.at]
      · simp [Point.at]
  | lock here unlocked => exact attended.of_stage here rfl rfl id (fun _ => rfl) id
  | relock here unlocked => exact attended.of_stage here rfl rfl id id id
  | @suspend thread call here suspends =>
      by_cases own : call.side = side
      · subst own
        apply attended_of_nothing
        exact available_of_suspended (suspends_iff.mp suspends)
      · exact attended.of_other_side own here rfl rfl id
  | proceed here suspends => exact attended.of_stage here rfl rfl id id id
  | @wait thread call here =>
      have suspended := order.assured thread
      rw [here] at suspended
      by_cases own : call.side = side
      · subst own
        apply attended_of_nothing
        exact available_of_suspended suspended
      · exact attended.of_other_side own here rfl rfl id
  | @push thread value here =>
      have room := order.assured thread
      rw [here] at room
      exact attended.push here room
  | front here queue => exact attended.of_stage here rfl rfl id id id
  | erase here => exact attended.erase here (order.present_at_erase here)
  | signal here signals => exact attended.signal here signals
  | unlock here =>
      refine attended.of_quiet here rfl rfl ?_ ?_ ?_
      · simp [Point.at]
      · simp [Point.at, Stage.active]
      · simp [Point.at, Stage.signalling]
  | wakeup here =>
      exact attended.of_stage here rfl rfl (fun _ => rfl) (fun _ => rfl) id

/-- Every thread inside a call is blocked and waits for a signal, although the queue
would let one of them through. -/
def LostWakeup (capacity : Nat) (s : State ι T) : Prop :=
  (∀ thread call stage, s.pc thread = .inside call stage → stage.isBlocked = true) ∧
    ((s.isempty = false ∧ ∃ thread, s.pc thread = .inside .pop .blocked) ∨
      (s.isfull capacity = false ∧
        ∃ thread value, s.pc thread = .inside (.push value) .blocked))

omit [DecidableEq ι] in
/-- Where all threads are blocked, a side that is attended has nothing to do. -/
theorem Attended.nothing
    {call : Call T}
    (attended : s.Attended capacity side)
    (allBlocked : ∀ thread call stage, s.pc thread = .inside call stage →
      stage.isBlocked = true)
    (here : s.pc thread = .inside call .blocked)
    (own : call.side = side) :
    s.available capacity side = 0 := by
  have nobody {kind : Stage T → Bool}
      (side : Side)
      (apart : ∀ stage, stage.isBlocked = true → kind stage = false) :
      count (Point.at side kind) s.pc = 0 := by
    apply count_eq_zero_iff.mpr
    intro thread
    cases at_point : s.pc thread with
    | idle => rfl
    | inside call stage =>
        rw [Point.at, apart stage (allBlocked thread call stage at_point), Bool.and_false]
  have somebody : 0 < count (Point.at side Stage.isBlocked) s.pc := by
    apply count_pos
    rw [here, Point.at, decide_eq_true own]
    rfl
  have enough := attended somebody
  rw [nobody, nobody] at enough
  · exact Nat.le_zero.mp enough
  · intro stage blocked
    cases stage with
    | blocked => rfl
    | _ => exact absurd blocked Bool.false_ne_true
  · intro stage blocked
    cases stage with
    | blocked => rfl
    | _ => exact absurd blocked Bool.false_ne_true

end State

/-- In every run both sides are attended to. -/
theorem attended
    (ι T : Type) [Fintype ι] [DecidableEq ι] (capacity : Nat) :
    (machine ι T capacity).Invariant fun s => ∀ side, s.Attended capacity side := by
  apply Transition.Machine.invariant_of_steps
  · rintro s rfl side somebody
    obtain ⟨thread, blocked⟩ := exists_of_count_pos somebody
    exact absurd blocked Bool.false_ne_true
  · rintro s s' reached attended ⟨action, acted⟩ side
    have order := inOrder ι T capacity s reached
    exact (State.move_of_act acted).attended order (attended side)

/-- No signal is lost: the threads are never all blocked while the queue would let
one of them through. -/
theorem no_lost_wakeup
    (ι T : Type) [Fintype ι] [DecidableEq ι] (capacity : Nat) :
    (machine ι T capacity).Invariant fun s => ¬ s.LostWakeup capacity := by
  rintro s reached ⟨allBlocked, held⟩
  have attended := attended ι T capacity s reached
  rcases held with ⟨notEmpty, thread, here⟩ | ⟨notFull, thread, value, here⟩
  · have nothing := (attended .consumer).nothing allBlocked here rfl
    exact of_decide_eq_false notEmpty nothing
  · have nothing := (attended .producer).nothing allBlocked here rfl
    have atLeast : capacity ≤ s.bq.length := Nat.le_of_sub_eq_zero nothing
    have bounded := (inOrder ι T capacity s reached).bounded
    exact of_decide_eq_false notFull (Nat.le_antisymm bounded atLeast)

end BlockQueue
end LearnInLinux
