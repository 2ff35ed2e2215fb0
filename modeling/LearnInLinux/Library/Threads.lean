import Mathlib.Data.Fintype.Card
import Mathlib.Data.Finset.Card
import Mathlib.Logic.Function.Basic

/-!
# Threads that share a mutex

A program of many threads is a function from threads to program points. What a
proof about it needs is kept here for any finite set of threads and any type of
points: how many threads stand at points of a kind, that a mutex keeps all but
its owner out of the guarded points, and what a signal to a condition variable
does to the threads that wait on it.
-/

namespace Threads

variable {ι σ : Type}

/-! ## Counting -/

/-- Number of threads at points of a kind. -/
def count [Fintype ι] (kind : σ → Bool) (pc : ι → σ) : Nat :=
  (Finset.univ.filter fun thread => kind (pc thread) = true).card

section Counting

variable [Fintype ι] {kind : σ → Bool} {pc pc' : ι → σ} {thread : ι}

/-- A thread of the kind counts. -/
theorem count_pos (present : kind (pc thread) = true) : 0 < count kind pc := by
  apply Finset.card_pos.mpr
  exact ⟨thread, Finset.mem_filter.mpr ⟨Finset.mem_univ thread, present⟩⟩

/-- Nobody is of the kind. -/
theorem count_eq_zero_iff :
    count kind pc = 0 ↔ ∀ thread, kind (pc thread) = false := by
  rw [count, Finset.card_eq_zero, Finset.filter_eq_empty_iff]
  constructor
  · intro nobody thread
    exact Bool.eq_false_iff.mpr (nobody (Finset.mem_univ thread))
  · intro nobody thread _
    exact Bool.eq_false_iff.mp (nobody thread)

/-- Somebody is of the kind. -/
theorem exists_of_count_pos (positive : 0 < count kind pc) :
    ∃ thread, kind (pc thread) = true := by
  by_contra nobody
  rw [not_exists] at nobody
  have zero : count kind pc = 0 :=
    count_eq_zero_iff.mpr fun thread => Bool.eq_false_iff.mpr (nobody thread)
  exact absurd positive (Nat.not_lt.mpr (Nat.le_of_eq zero))

/-- The count does not fall while every thread of the kind stays one. -/
theorem count_le_count
    (kept : ∀ thread, kind (pc thread) = true → kind (pc' thread) = true) :
    count kind pc ≤ count kind pc' := by
  apply Finset.card_le_card
  intro thread present
  rw [Finset.mem_filter] at present ⊢
  exact ⟨present.1, kept thread present.2⟩

/-- One more thread of the kind. -/
theorem count_lt_count
    (kept : ∀ thread, kind (pc thread) = true → kind (pc' thread) = true)
    (before : kind (pc thread) = false)
    (after : kind (pc' thread) = true) :
    count kind pc < count kind pc' := by
  apply Finset.card_lt_card
  rw [Finset.ssubset_iff_of_subset]
  · refine ⟨thread, ?_, ?_⟩
    · exact Finset.mem_filter.mpr ⟨Finset.mem_univ thread, after⟩
    · rw [Finset.mem_filter, before]
      exact fun present => Bool.false_ne_true present.2
  · intro other present
    rw [Finset.mem_filter] at present ⊢
    exact ⟨present.1, kept other present.2⟩

/-- When one thread moves, only its own kind matters. -/
theorem count_update
    [DecidableEq ι]
    (kind : σ → Bool) (pc : ι → σ) (thread : ι) (point : σ) :
    count kind (Function.update pc thread point) + (kind (pc thread)).toNat =
      count kind pc + (kind point).toNat := by
  have split (pc : ι → σ) : count kind pc =
      ((Finset.univ.erase thread).filter fun other => kind (pc other) = true).card +
        (kind (pc thread)).toNat := by
    rw [count, ← Finset.insert_erase (Finset.mem_univ thread), Finset.filter_insert,
      Finset.erase_insert_eq_erase]
    cases isKind : kind (pc thread) with
    | false => simp
    | true => simp
  have others :
      ((Finset.univ.erase thread).filter fun other =>
        kind (Function.update pc thread point other) = true) =
      (Finset.univ.erase thread).filter fun other => kind (pc other) = true := by
    apply Finset.filter_congr
    intro other present
    rw [Function.update_of_ne (Finset.ne_of_mem_erase present)]
  rw [split (Function.update pc thread point), split pc, others, Function.update_self]
  omega

section Moving

variable [DecidableEq ι] {before point : σ}

/-- A thread that stays of its kind does not change the count. -/
theorem count_update_same
    (here : pc thread = before)
    (same : kind point = kind before) :
    count kind (Function.update pc thread point) = count kind pc := by
  have moved := count_update kind pc thread point
  rw [here, same] at moved
  exact Nat.add_right_cancel moved

/-- The thread comes to the kind. -/
theorem count_update_enter
    (here : pc thread = before)
    (outside : kind before = false)
    (inside : kind point = true) :
    count kind (Function.update pc thread point) = count kind pc + 1 := by
  have moved := count_update kind pc thread point
  rw [here, outside, inside] at moved
  exact moved

/-- The thread leaves the kind. -/
theorem count_update_leave
    (here : pc thread = before)
    (inside : kind before = true)
    (outside : kind point = false) :
    count kind (Function.update pc thread point) + 1 = count kind pc := by
  have moved := count_update kind pc thread point
  rw [here, inside, outside] at moved
  exact moved

end Moving

end Counting

/-! ## Mutual exclusion -/

/-- Exactly the owner of the mutex stands at a guarded point. -/
def Guarded (inside : σ → Bool) (mutex : Option ι) (pc : ι → σ) : Prop :=
  ∀ thread, inside (pc thread) = true ↔ mutex = some thread

namespace Guarded

variable {inside : σ → Bool} {mutex : Option ι} {pc pc' : ι → σ} {thread other : ι}
  {before point : σ}

/-- A thread inside owns the mutex. -/
theorem owner
    (guarded : Guarded inside mutex pc)
    (present : inside (pc thread) = true) :
    mutex = some thread :=
  (guarded thread).mp present

/-- A thread outside does not own it. -/
theorem not_owner
    (guarded : Guarded inside mutex pc)
    (outside : inside (pc thread) = false) :
    mutex ≠ some thread := by
  intro owns
  rw [(guarded thread).mpr owns] at outside
  exact Bool.false_ne_true outside.symm

/-- No two threads are inside. -/
theorem unique
    (guarded : Guarded inside mutex pc)
    (first : inside (pc thread) = true)
    (second : inside (pc other) = true) :
    thread = other := by
  have owners := (guarded.owner first).symm.trans (guarded.owner second)
  exact Option.some.inj owners

/-- A move that neither enters nor leaves. -/
theorem of_same
    (guarded : Guarded inside mutex pc)
    (same : ∀ thread, inside (pc' thread) = inside (pc thread)) :
    Guarded inside mutex pc' := by
  intro thread
  rw [same]
  exact guarded thread

variable [DecidableEq ι]

/-- A thread that neither enters nor leaves. -/
theorem move
    (guarded : Guarded inside mutex pc)
    (here : pc thread = before)
    (same : inside point = inside before) :
    Guarded inside mutex (Function.update pc thread point) := by
  apply guarded.of_same
  intro other
  by_cases isThread : other = thread
  · rw [isThread, Function.update_self, same, here]
  · rw [Function.update_of_ne isThread]

/-- A thread enters with the mutex that it has got. -/
theorem lock
    (guarded : Guarded inside mutex pc)
    (unlocked : mutex = none)
    (entered : inside point = true) :
    Guarded inside (some thread) (Function.update pc thread point) := by
  rw [unlocked] at guarded
  intro other
  by_cases isThread : other = thread
  · rw [isThread, Function.update_self, entered]
    exact iff_of_true rfl rfl
  · rw [Function.update_of_ne isThread, guarded other]
    apply iff_of_false (by simp)
    intro owners
    exact isThread (Option.some.inj owners).symm

/-- The owner may change what is asserted at the guarded points. -/
theorem assertion
    {holds : σ → Prop}
    (guarded : Guarded inside mutex pc)
    (here : pc thread = before)
    (present : inside before = true)
    (outside : ∀ point, inside point = false → holds point)
    (own : holds point)
    (other : ι) :
    holds (Function.update pc thread point other) := by
  by_cases isThread : other = thread
  · rw [isThread, Function.update_self]
    exact own
  · rw [Function.update_of_ne isThread]
    apply outside
    rw [Bool.eq_false_iff]
    intro otherPresent
    rw [← here] at present
    exact isThread (guarded.unique otherPresent present)

/-- A thread leaves and gives the mutex back. -/
theorem unlock
    (guarded : Guarded inside mutex pc)
    (here : pc thread = before)
    (present : inside before = true)
    (left : inside point = false) :
    Guarded inside none (Function.update pc thread point) := by
  rw [← here] at present
  intro other
  by_cases isThread : other = thread
  · rw [isThread, Function.update_self, left]
    exact iff_of_false Bool.false_ne_true (by simp)
  · rw [Function.update_of_ne isThread]
    apply iff_of_false _ (by simp)
    intro otherPresent
    exact isThread (guarded.unique otherPresent present)

end Guarded

/-- What is asserted at the points of all threads stays when one of them moves. -/
theorem assertion_update
    [DecidableEq ι]
    {holds : σ → Prop}
    {pc : ι → σ}
    {thread : ι}
    {point : σ}
    (all : ∀ other, holds (pc other))
    (own : holds point)
    (other : ι) :
    holds (Function.update pc thread point other) := by
  by_cases isThread : other = thread
  · rw [isThread, Function.update_self]
    exact own
  · rw [Function.update_of_ne isThread]
    exact all other

/-! ## Producers and consumers -/

/-- The two sides of a queue. -/
inductive Side
  | producer
  | consumer
  deriving DecidableEq

namespace Side

/-- The side that a side works with. -/
def other : Side → Side
  | .producer => .consumer
  | .consumer => .producer

@[simp] theorem other_other (side : Side) : side.other.other = side := by
  cases side <;> rfl

@[simp] theorem other_ne (side : Side) : side.other ≠ side := by
  cases side <;> decide

@[simp] theorem ne_other (side : Side) : side ≠ side.other :=
  side.other_ne.symm

theorem eq_other_of_ne
    {side side' : Side}
    (different : side' ≠ side) :
    side' = side.other := by
  cases side <;> cases side' <;> first | rfl | exact absurd rfl different

end Side

/-- A call of a member function of a queue. -/
inductive Call (T : Type)
  | push (value : T)
  | pop

/-- `push` is a call of a producer and `pop` one of a consumer. -/
def Call.side {T : Type} : Call T → Side
  | .push _ => .producer
  | .pop => .consumer

/-- Where a thread is: outside, or in front of a step of a call. -/
inductive Point (T Stage : Type)
  | idle
  | inside (call : Call T) (stage : Stage)

/-- The thread is in a call on the side, at a stage of the kind. -/
def Point.at {T Stage : Type} (side : Side) (kind : Stage → Bool) :
    Point T Stage → Bool
  | .idle => false
  | .inside call stage => decide (call.side = side) && kind stage

namespace Point

variable {T Stage : Type} {side : Side} {kind : Stage → Bool} {call : Call T}
  {stage stage' : Stage}

/-- A call of the side. -/
theorem at_self (kind : Stage → Bool) (call : Call T) (stage : Stage) :
    Point.at call.side kind (.inside call stage) = kind stage := by
  rw [Point.at, decide_eq_true rfl, Bool.true_and]

/-- A call of the other side. -/
theorem at_of_ne (different : call.side ≠ side) :
    Point.at side kind (.inside call stage) = false := by
  rw [Point.at, decide_eq_false different, Bool.false_and]

theorem at_eq_false (outside : kind stage = false) :
    Point.at side kind (.inside call stage) = false := by
  rw [Point.at, outside, Bool.and_false]

theorem at_congr (same : kind stage = kind stage') :
    Point.at side kind (.inside call stage) =
      Point.at side kind (.inside call stage') := by
  rw [Point.at, Point.at, same]

/-- A call that goes on to a stage of the kind. -/
theorem at_of_imp
    (kept : kind stage = true → kind stage' = true)
    (present : Point.at side kind (.inside call stage) = true) :
    Point.at side kind (.inside call stage') = true := by
  rw [Point.at, Bool.and_eq_true] at present ⊢
  exact ⟨present.1, kept present.2⟩

/-- Who is of the kind is inside a call of the side. -/
theorem exists_of_at
    {point : Point T Stage}
    (present : Point.at side kind point = true) :
    ∃ call stage, point = .inside call stage ∧ call.side = side ∧ kind stage = true := by
  cases point with
  | idle => exact absurd present Bool.false_ne_true
  | inside call stage =>
      rw [Point.at, Bool.and_eq_true, decide_eq_true_iff] at present
      exact ⟨call, stage, rfl, present.1, present.2⟩

end Point

namespace Guarded

variable {T Stage : Type} {kind : Stage → Bool} {mutex : Option ι}
  {pc : ι → Point T Stage} {thread : ι} {call : Call T} {stage : Stage}

/-- A call at a guarded stage owns the mutex of its side. -/
theorem owner_at
    (guarded : Guarded (Point.at call.side kind) mutex pc)
    (here : pc thread = .inside call stage)
    (inside : kind stage = true) :
    mutex = some thread := by
  apply guarded.owner
  rw [here, Point.at_self]
  exact inside

variable {side : Side}

/-- A call at an unguarded stage does not. -/
theorem not_owner_of_outside
    (guarded : Guarded (Point.at side kind) mutex pc)
    (here : pc thread = .inside call stage)
    (outside : kind stage = false) :
    mutex ≠ some thread := by
  apply guarded.not_owner
  rw [here]
  exact Point.at_eq_false outside

/-- A call of the other side does not. -/
theorem not_owner_of_ne
    (guarded : Guarded (Point.at side kind) mutex pc)
    (here : pc thread = .inside call stage)
    (different : call.side ≠ side) :
    mutex ≠ some thread := by
  apply guarded.not_owner
  rw [here]
  exact Point.at_of_ne different

end Guarded

/-! ## Condition variables -/

/-- A signal wakes waiting threads, and at least one if there is one. -/
def Signals
    [Fintype ι]
    (waiting : σ → Bool) (pc : ι → σ) (woken : Finset ι) : Prop :=
  (∀ thread ∈ woken, waiting (pc thread) = true) ∧
    (0 < count waiting pc → 0 < woken.card)

instance
    [Fintype ι]
    (waiting : σ → Bool) (pc : ι → σ) (woken : Finset ι) :
    Decidable (Signals waiting pc woken) := by
  unfold Signals
  infer_instance

/-- The woken threads go on from where they wait. -/
def wake [DecidableEq ι] (resume : σ → σ) (woken : Finset ι) (pc : ι → σ) : ι → σ :=
  fun thread => if thread ∈ woken then resume (pc thread) else pc thread

section Waking

variable [DecidableEq ι] {resume : σ → σ} {woken : Finset ι} {pc : ι → σ}
  {thread : ι} {kind waiting : σ → Bool}

/-- A thread that is woken goes on. -/
theorem wake_of_mem (present : thread ∈ woken) :
    wake resume woken pc thread = resume (pc thread) :=
  if_pos present

/-- A thread that is not woken stays where it is. -/
theorem wake_of_notMem (absent : thread ∉ woken) :
    wake resume woken pc thread = pc thread :=
  if_neg absent

/-- What resuming does not change, waking does not change. -/
theorem wake_same
    {τ : Type}
    {view : σ → τ}
    (same : ∀ point, view (resume point) = view point)
    (thread : ι) :
    view (wake resume woken pc thread) = view (pc thread) := by
  by_cases present : thread ∈ woken
  · rw [wake_of_mem present, same]
  · rw [wake_of_notMem present]

/-- What is asserted at the points of all threads stays when some are woken. -/
theorem assertion_wake
    {holds : σ → Prop}
    (all : ∀ thread, holds (pc thread))
    (resumed : ∀ point, holds point → holds (resume point))
    (thread : ι) :
    holds (wake resume woken pc thread) := by
  by_cases present : thread ∈ woken
  · rw [wake_of_mem present]
    exact resumed _ (all thread)
  · rw [wake_of_notMem present]
    exact all thread

/-- Waking takes threads away from a kind that resuming leaves. -/
theorem count_wake_le
    [Fintype ι]
    (kept : ∀ point, kind (resume point) = true → kind point = true) :
    count kind (wake resume woken pc) ≤ count kind pc := by
  apply count_le_count
  intro thread present
  by_cases isWoken : thread ∈ woken
  · rw [wake_of_mem isWoken] at present
    exact kept _ present
  · rw [wake_of_notMem isWoken] at present
    exact present

/-- Waking brings threads to a kind that resuming keeps. -/
theorem count_le_count_wake
    [Fintype ι]
    (kept : ∀ point, kind point = true → kind (resume point) = true) :
    count kind pc ≤ count kind (wake resume woken pc) := by
  apply count_le_count
  intro thread present
  by_cases isWoken : thread ∈ woken
  · rw [wake_of_mem isWoken]
    exact kept _ present
  · rw [wake_of_notMem isWoken]
    exact present

/-- A signal to waiting threads brings at least one of them to where it resumes. -/
theorem Signals.count_lt_count_wake
    [Fintype ι]
    (signals : Signals waiting pc woken)
    (somebody : 0 < count waiting pc)
    (kept : ∀ point, kind point = true → kind (resume point) = true)
    (before : ∀ point, waiting point = true → kind point = false)
    (after : ∀ point, waiting point = true → kind (resume point) = true) :
    count kind pc < count kind (wake resume woken pc) := by
  obtain ⟨thread, isWoken⟩ := Finset.card_pos.mp (signals.2 somebody)
  have waits := signals.1 thread isWoken
  refine count_lt_count ?_ (before _ waits) ?_
  · intro other present
    by_cases otherWoken : other ∈ woken
    · rw [wake_of_mem otherWoken]
      exact kept _ present
    · rw [wake_of_notMem otherWoken]
      exact present
  · rw [wake_of_mem isWoken]
    exact after _ waits

end Waking

end Threads
