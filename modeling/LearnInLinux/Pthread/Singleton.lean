import LearnInLinux.Library.Ranking

/-!
# The one pool of the process

`getThreadPool` looks at the pointer without the mutex, and once more with it, before it
makes a pool. Any number of threads may call it at the same time. Every step is atomic,
and the steps of a thread come in the order of the source. The two copies of the class
differ in the default of `num` only.
-/

namespace LearnInLinux
namespace Singleton

open Threads
open Transition (run Settled Ranked)

/-- The steps of `getThreadPool`. -/
inductive Stage
  /-- `nullptr==thread_ptr` without the mutex. -/
  | check
  /-- The constructor of `lockGuard`. -/
  | lock
  /-- `nullptr==thread_ptr` once more. -/
  | recheck
  /-- `new ThreadPool<T>(num)` -/
  | construct
  /-- The assignment to `thread_ptr`. -/
  | assign (pool : Nat)
  /-- The destructor of `lockGuard`. -/
  | unlock
  /-- `return thread_ptr` -/
  | ret
  deriving DecidableEq

/-- Where a thread is: outside, or in a call with its argument. -/
inductive Point
  | idle
  | inside (num : Int) (stage : Stage)
  deriving DecidableEq

/-- The static members of the pool class, and where the callers of `getThreadPool` are. -/
structure State (ι : Type) where
  thread_ptr : Option Nat
  mutex : Option ι
  pc : ι → Point
  /-- The pools made so far, each with the number of its threads. -/
  pools : List Int
  /-- What the calls have returned; `none` is the null pointer. -/
  returned : List (ι × Option Nat)
  /-- How many calls there were. -/
  calls : Nat

/-- A thread calls `getThreadPool`, or takes its next step in it. -/
inductive Action (ι : Type)
  | call (thread : ι) (num : Int)
  | next (thread : ι)

/-- A step of a call. -/
def Action.Own {ι : Type} : Action ι → Prop
  | .call _ _ => False
  | .next _ => True

namespace State

variable {ι : Type} [DecidableEq ι]

/-- A thread goes to its next step. -/
def goto (thread : ι) (point : Point) (s : State ι) : State ι :=
  { s with pc := Function.update s.pc thread point }

/-- One step of `getThreadPool`; `none` while the thread has to wait. -/
def getThreadPool (thread : ι) (num : Int) (stage : Stage) (s : State ι) :
    Option (State ι) :=
  match stage with
  | .check =>
      if s.thread_ptr = none then some (s.goto thread (.inside num .lock))
      else some (s.goto thread (.inside num .ret))
  | .lock =>
      match s.mutex with
      | some _ => none
      | none => some { s.goto thread (.inside num .recheck) with mutex := some thread }
  | .recheck =>
      if s.thread_ptr = none then some (s.goto thread (.inside num .construct))
      else some (s.goto thread (.inside num .unlock))
  | .construct =>
      some { s.goto thread (.inside num (.assign s.pools.length)) with
        pools := s.pools ++ [num] }
  | .assign pool =>
      some { s.goto thread (.inside num .unlock) with thread_ptr := some pool }
  | .unlock => some { s.goto thread (.inside num .ret) with mutex := none }
  | .ret =>
      some { s.goto thread .idle with
        returned := s.returned ++ [(thread, s.thread_ptr)] }

/-- One step of a thread; `none` while it is not the next one, or has to wait. -/
def act (action : Action ι) (s : State ι) : Option (State ι) :=
  match action with
  | .call thread num =>
      match s.pc thread with
      | .idle => some { s.goto thread (.inside num .check) with calls := s.calls + 1 }
      | .inside _ _ => none
  | .next thread =>
      match s.pc thread with
      | .idle => none
      | .inside num stage => s.getThreadPool thread num stage

/-- In front of `main`. -/
def create (ι : Type) : State ι where
  thread_ptr := none
  mutex := none
  pc _ := .idle
  pools := []
  returned := []
  calls := 0

end State

/-- All runs of any threads that ask for the pool. -/
def machine (ι : Type) [DecidableEq ι] : Transition.Machine (State ι) :=
  .ofStep (fun s => s = State.create ι) State.act

/-! ## One pool -/

/-- Between locking and unlocking. -/
def holding : Point → Bool
  | .idle => false
  | .inside _ stage =>
      match stage with
      | .recheck => true
      | .construct => true
      | .assign _ => true
      | .unlock => true
      | _ => false

/-- What a thread knows of the pointer and the pools at a point of its call. -/
def Assured (thread_ptr : Option Nat) (pools : List Int) : Point → Prop
  | .idle => True
  | .inside num stage =>
      match stage with
      | .construct => pools = []
      | .assign pool => pool = 0 ∧ pools = [num] ∧ thread_ptr = none
      | .unlock => thread_ptr = some 0
      | .ret => thread_ptr = some 0
      | _ => True

/-- The thread is between making the pool and writing it down. -/
def publishing : Point → Bool
  | .inside _ (.assign _) => true
  | _ => false

/-- No pool yet, or one pool, which is written down or about to be. -/
structure OnePool {ι : Type} (s : State ι) : Prop where
  guarded : Guarded holding s.mutex s.pc
  assured : ∀ thread, Assured s.thread_ptr s.pools (s.pc thread)
  pointer : s.thread_ptr = none ∨ s.thread_ptr = some 0 ∧ s.pools.length = 1
  unwritten : s.thread_ptr = none → s.pools = [] ∨
    ∃ thread, publishing (s.pc thread) = true
  same : ∀ entry ∈ s.returned, entry.2 = some 0 ∧ s.thread_ptr = some 0

section Points

variable {thread_ptr : Option Nat} {pools : List Int} {point : Point}

/-- Only the assignment to `thread_ptr` publishes a pool. -/
theorem exists_of_publishing (isPublishing : publishing point = true) :
    ∃ num pool, point = .inside num (.assign pool) := by
  cases point with
  | idle => exact absurd isPublishing Bool.false_ne_true
  | inside num stage =>
      cases stage with
      | assign pool => exact ⟨num, pool, rfl⟩
      | _ => exact absurd isPublishing Bool.false_ne_true

/-- A pool is published under the mutex. -/
theorem holding_of_publishing (isPublishing : publishing point = true) :
    holding point = true := by
  obtain ⟨num, pool, rfl⟩ := exists_of_publishing isPublishing
  rfl

/-- Outside of the mutex a thread knows only that a pointer that is set stays. -/
theorem Assured.of_outside
    {pools' : List Int}
    (assured : Assured thread_ptr pools point)
    (outside : holding point = false) :
    Assured thread_ptr pools' point := by
  cases point with
  | idle => trivial
  | inside num stage =>
      cases stage with
      | check => trivial
      | lock => trivial
      | ret => exact assured
      | _ => exact absurd outside Bool.false_ne_true.symm

/-- The pointer is written while it is null, and no thread outside relies on that. -/
theorem Assured.written
    {pool : Nat}
    (assured : Assured none pools point)
    (outside : holding point = false) :
    Assured (some pool) pools point := by
  cases point with
  | idle => trivial
  | inside num stage =>
      cases stage with
      | check => trivial
      | lock => trivial
      | ret => exact absurd assured.symm (Option.some_ne_none 0)
      | _ => exact absurd outside Bool.false_ne_true.symm

end Points

namespace OnePool

variable {ι : Type} {s s' : State ι} {thread : ι} {num : Int}

/-- Before the first call there is no pool. -/
theorem create : OnePool (State.create ι) where
  guarded _ := iff_of_false Bool.false_ne_true (Option.some_ne_none _).symm
  assured _ := trivial
  pointer := .inl rfl
  unwritten _ := .inl rfl
  same _ present := absurd present List.not_mem_nil

/-- Under the mutex there is no other thread that is writing the pointer. -/
theorem publishing_iff
    (onePool : OnePool s)
    (inside : holding (s.pc thread) = true) :
    (∃ other, publishing (s.pc other) = true) ↔ publishing (s.pc thread) = true := by
  constructor
  · rintro ⟨other, isPublishing⟩
    obtain rfl := onePool.guarded.unique inside (holding_of_publishing isPublishing)
    exact isPublishing
  · exact fun isPublishing => ⟨thread, isPublishing⟩

variable [DecidableEq ι]

/-- A step that leaves pointer and pools alone and does not concern their writing. -/
theorem of_quiet
    {before point : Point}
    {mutex : Option ι}
    {returned : List (ι × Option Nat)}
    {calls : Nat}
    (onePool : OnePool s)
    (here : s.pc thread = before)
    (guarded : Guarded holding mutex (Function.update s.pc thread point))
    (assured : Assured s.thread_ptr s.pools point)
    (apart : publishing before = false)
    (same : ∀ entry ∈ returned, entry.2 = some 0 ∧ s.thread_ptr = some 0) :
    OnePool { s.goto thread point with
      mutex := mutex, returned := returned, calls := calls } where
  guarded := guarded
  assured := assertion_update onePool.assured assured
  pointer := onePool.pointer
  unwritten := by
    intro null
    rcases onePool.unwritten null with none | ⟨other, isPublishing⟩
    · exact .inl none
    · right
      refine ⟨other, ?_⟩
      have different : other ≠ thread := by
        rintro rfl
        rw [here, apart] at isPublishing
        exact Bool.false_ne_true isPublishing
      change publishing (Function.update s.pc thread point other) = true
      rw [Function.update_of_ne different]
      exact isPublishing
  same := same

/-- A pool is made while there is none. -/
theorem construct
    (onePool : OnePool s)
    (here : s.pc thread = .inside num .construct) :
    OnePool { s.goto thread (.inside num (.assign s.pools.length)) with
      pools := s.pools ++ [num] } := by
  have assured := onePool.assured thread
  rw [here] at assured
  have empty : s.pools = [] := assured
  have null : s.thread_ptr = none := by
    rcases onePool.pointer with null | ⟨-, one⟩
    · exact null
    · rw [empty] at one
      exact absurd one (by decide)
  constructor
  · exact onePool.guarded.move here rfl
  · change ∀ other, Assured s.thread_ptr (s.pools ++ [num])
      (Function.update s.pc thread _ other)
    intro other
    by_cases isThread : other = thread
    · rw [isThread, Function.update_self, empty]
      exact ⟨rfl, rfl, null⟩
    · rw [Function.update_of_ne isThread]
      apply (onePool.assured other).of_outside
      rw [Bool.eq_false_iff]
      intro inside
      exact isThread (onePool.guarded.unique inside (by rw [here]; rfl))
  · exact .inl null
  · intro _
    right
    refine ⟨thread, ?_⟩
    change publishing (Function.update s.pc thread _ thread) = true
    rw [Function.update_self]
    rfl
  · intro entry present
    have notNull := (onePool.same entry present).2
    rw [null] at notNull
    exact absurd notNull.symm (Option.some_ne_none 0)

/-- The pointer to the pool is written. -/
theorem assign
    {pool : Nat}
    (onePool : OnePool s)
    (here : s.pc thread = .inside num (.assign pool)) :
    OnePool { s.goto thread (.inside num .unlock) with thread_ptr := some pool } := by
  have assured := onePool.assured thread
  rw [here] at assured
  obtain ⟨rfl, one, null⟩ := assured
  constructor
  · exact onePool.guarded.move here rfl
  · change ∀ other, Assured (some 0) s.pools (Function.update s.pc thread _ other)
    intro other
    by_cases isThread : other = thread
    · rw [isThread, Function.update_self]
      rfl
    · rw [Function.update_of_ne isThread]
      have other_assured := onePool.assured other
      rw [null] at other_assured
      apply other_assured.written
      rw [Bool.eq_false_iff]
      intro inside
      exact isThread (onePool.guarded.unique inside (by rw [here]; rfl))
  · right
    refine ⟨rfl, ?_⟩
    change s.pools.length = 1
    rw [one]
    rfl
  · intro null
    exact absurd null (Option.some_ne_none 0)
  · intro entry present
    exact ⟨(onePool.same entry present).1, rfl⟩

/-- A step of a call leaves at most one pool. -/
theorem step
    {stage : Stage}
    (onePool : OnePool s)
    (here : s.pc thread = .inside num stage)
    (stepped : s.getThreadPool thread num stage = some s') :
    OnePool s' := by
  cases stage with
  | check =>
      rw [State.getThreadPool] at stepped
      split at stepped
      · obtain rfl := Option.some.inj stepped
        exact onePool.of_quiet here (onePool.guarded.move here rfl) trivial rfl onePool.same
      · rename_i notNull
        obtain rfl := Option.some.inj stepped
        have isSet : s.thread_ptr = some 0 := (onePool.pointer.resolve_left notNull).1
        exact onePool.of_quiet here (onePool.guarded.move here rfl) isSet rfl onePool.same
  | lock =>
      rw [State.getThreadPool] at stepped
      split at stepped
      · exact absurd stepped (by simp)
      · rename_i unlocked
        obtain rfl := Option.some.inj stepped
        exact onePool.of_quiet here (onePool.guarded.lock unlocked rfl) trivial rfl
          onePool.same
  | recheck =>
      rw [State.getThreadPool] at stepped
      split at stepped
      · rename_i null
        obtain rfl := Option.some.inj stepped
        have inside : holding (s.pc thread) = true := by
          rw [here]
          rfl
        have nobody : ¬ ∃ other, publishing (s.pc other) = true := by
          rw [onePool.publishing_iff inside, here]
          exact Bool.false_ne_true
        have empty : s.pools = [] := (onePool.unwritten null).resolve_right nobody
        exact onePool.of_quiet here (onePool.guarded.move here rfl) empty rfl onePool.same
      · rename_i notNull
        obtain rfl := Option.some.inj stepped
        have isSet : s.thread_ptr = some 0 := (onePool.pointer.resolve_left notNull).1
        exact onePool.of_quiet here (onePool.guarded.move here rfl) isSet rfl onePool.same
  | construct =>
      obtain rfl := Option.some.inj stepped
      exact onePool.construct here
  | assign pool =>
      obtain rfl := Option.some.inj stepped
      exact onePool.assign here
  | unlock =>
      have isSet := onePool.assured thread
      rw [here] at isSet
      obtain rfl := Option.some.inj stepped
      exact onePool.of_quiet here (onePool.guarded.unlock here rfl rfl) isSet rfl onePool.same
  | ret =>
      have isSet := onePool.assured thread
      rw [here] at isSet
      obtain rfl := Option.some.inj stepped
      refine onePool.of_quiet here (onePool.guarded.move here rfl) trivial rfl ?_
      intro entry present
      rcases List.mem_append.mp present with before | new
      · exact onePool.same entry before
      · rw [List.mem_singleton.mp new]
        exact ⟨isSet, isSet⟩

/-- Every step leaves at most one pool. -/
theorem act
    {action : Action ι}
    (onePool : OnePool s)
    (acted : s.act action = some s') :
    OnePool s' := by
  cases action with
  | call thread num =>
      rw [State.act] at acted
      split at acted
      · rename_i here
        obtain rfl := Option.some.inj acted
        exact onePool.of_quiet here (onePool.guarded.move here rfl) trivial rfl onePool.same
      · exact absurd acted (by simp)
  | next thread =>
      rw [State.act] at acted
      split at acted
      · exact absurd acted (by simp)
      · rename_i num stage here
        exact onePool.step here acted

end OnePool

/-- In every run there is at most one pool. -/
theorem onePool (ι : Type) [DecidableEq ι] : (machine ι).Invariant OnePool := by
  apply Transition.Machine.invariant_of_actions
  · rintro s rfl
    exact OnePool.create
  · exact fun action s s' onePool acted => onePool.act acted

/-! ## Every call returns -/

/-- How many steps are left of a call. -/
def Stage.left : Stage → Nat
  | .ret => 1
  | .unlock => 2
  | .assign _ => 3
  | .construct => 4
  | .recheck => 5
  | .lock => 6
  | .check => 7

/-- The steps that are left of a call. -/
def weight : Point → Nat
  | .idle => 0
  | .inside _ stage => stage.left

/-- The thread is in a call. -/
def isInside : Point → Bool
  | .idle => false
  | .inside _ _ => true

namespace State

variable {ι : Type} [DecidableEq ι] {s s' : State ι} {thread : ι}

/-- What one step of a call does to the account and to the rank. -/
theorem getThreadPool_cases
    {num : Int}
    {stage : Stage}
    (here : s.pc thread = .inside num stage)
    (stepped : s.getThreadPool thread num stage = some s') :
    (∃ stage', s'.pc = Function.update s.pc thread (.inside num stage') ∧
        stage'.left < stage.left ∧
        s'.returned = s.returned ∧ s'.calls = s.calls) ∨
      (stage = .ret ∧ s'.pc = Function.update s.pc thread .idle ∧
        s'.returned = s.returned ++ [(thread, s.thread_ptr)] ∧ s'.calls = s.calls) := by
  cases stage with
  | check =>
      rw [getThreadPool] at stepped
      split at stepped
      · obtain rfl := Option.some.inj stepped
        exact .inl ⟨.lock, rfl, by decide, rfl, rfl⟩
      · obtain rfl := Option.some.inj stepped
        exact .inl ⟨.ret, rfl, by decide, rfl, rfl⟩
  | lock =>
      rw [getThreadPool] at stepped
      split at stepped
      · exact absurd stepped (by simp)
      · obtain rfl := Option.some.inj stepped
        exact .inl ⟨.recheck, rfl, by decide, rfl, rfl⟩
  | recheck =>
      rw [getThreadPool] at stepped
      split at stepped
      · obtain rfl := Option.some.inj stepped
        exact .inl ⟨.construct, rfl, by decide, rfl, rfl⟩
      · obtain rfl := Option.some.inj stepped
        exact .inl ⟨.unlock, rfl, by decide, rfl, rfl⟩
  | construct =>
      obtain rfl := Option.some.inj stepped
      exact .inl ⟨.assign s.pools.length, rfl, Nat.lt_succ_self 3, rfl, rfl⟩
  | assign pool =>
      obtain rfl := Option.some.inj stepped
      exact .inl ⟨.unlock, rfl, Nat.lt_succ_self 2, rfl, rfl⟩
  | unlock =>
      obtain rfl := Option.some.inj stepped
      exact .inl ⟨.ret, rfl, by decide, rfl, rfl⟩
  | ret =>
      obtain rfl := Option.some.inj stepped
      exact .inr ⟨rfl, rfl, rfl, rfl⟩

/-- At rest every call has returned. -/
theorem idle_of_settled
    (onePool : OnePool s)
    (settled : Settled act Action.Own s)
    (thread : ι) :
    s.pc thread = .idle := by
  have atLock (other : ι) (num : Int) (stage : Stage)
      (here : s.pc other = .inside num stage) : stage = .lock ∧ s.mutex ≠ none := by
    have next := settled (.next other) trivial
    rw [act, here] at next
    cases stage with
    | lock =>
        refine ⟨rfl, ?_⟩
        intro unlocked
        simp [getThreadPool, unlocked] at next
    | check =>
        simp only [getThreadPool] at next
        split at next
        · exact absurd next (by simp)
        · exact absurd next (by simp)
    | recheck =>
        simp only [getThreadPool] at next
        split at next
        · exact absurd next (by simp)
        · exact absurd next (by simp)
    | _ => simp [getThreadPool] at next
  cases here : s.pc thread with
  | idle => rfl
  | inside num stage =>
      exfalso
      obtain ⟨-, locked⟩ := atLock thread num stage here
      obtain ⟨owner, owns⟩ := Option.ne_none_iff_exists'.mp locked
      have inside := (onePool.guarded owner).mpr owns
      cases at_owner : s.pc owner with
      | idle =>
          rw [at_owner] at inside
          exact Bool.false_ne_true inside
      | inside num' stage' =>
          obtain ⟨rfl, -⟩ := atLock owner num' stage' at_owner
          rw [at_owner] at inside
          exact Bool.false_ne_true inside

variable [Fintype ι]

/-- The steps that are left of all calls. -/
def rank (s : State ι) : Nat :=
  weigh weight s.pc

/-- What was called has returned or is inside. -/
def Accounted (s : State ι) : Prop :=
  s.returned.length + count isInside s.pc = s.calls

/-- A step of one thread lowers the rank by what it lowers its own weight. -/
theorem rank_lt
    {before point : Point}
    (here : s.pc thread = before)
    (pc : s'.pc = Function.update s.pc thread point)
    (less : weight point < weight before) :
    s'.rank < s.rank := by
  have moved := weigh_update weight s.pc thread point
  rw [here] at moved
  rw [rank, rank, pc]
  omega

/-- Every step keeps the number of calls. -/
theorem Accounted.act
    {action : Action ι}
    (accounted : s.Accounted)
    (acted : s.act action = some s') :
    s'.Accounted := by
  cases action with
  | call thread num =>
      rw [State.act] at acted
      split at acted
      · rename_i here
        obtain rfl := Option.some.inj acted
        have entered : count isInside (Function.update s.pc thread (.inside num .check)) =
            count isInside s.pc + 1 :=
          count_update_enter here rfl rfl
        change s.returned.length +
          count isInside (Function.update s.pc thread (.inside num .check)) = s.calls + 1
        rw [entered, ← accounted, Nat.add_assoc]
      · exact absurd acted (by simp)
  | next thread =>
      rw [State.act] at acted
      split at acted
      · exact absurd acted (by simp)
      · rename_i num stage here
        rcases getThreadPool_cases here acted with
          ⟨stage', pc, -, returned, calls⟩ | ⟨-, pc, returned, calls⟩
        · have same : count isInside (Function.update s.pc thread (.inside num stage')) =
              count isInside s.pc :=
            count_update_same here rfl
          rw [Accounted, pc, returned, calls, same]
          exact accounted
        · have left : count isInside (Function.update s.pc thread .idle) + 1 =
              count isInside s.pc :=
            count_update_leave here rfl rfl
          rw [Accounted, pc, returned, calls, List.length_append, List.length_singleton,
            ← accounted, ← left]
          omega

/-- Every step of a call lowers the rank. -/
theorem ranked :
    Ranked (act : Action ι → State ι → Option (State ι)) Action.Own (fun _ => True)
      rank where
  kept _ _ _ _ _ := trivial
  falls action s s' own _ acted := by
    cases action with
    | call thread num => exact absurd own id
    | next thread =>
        rw [act] at acted
        split at acted
        · exact absurd acted (by simp)
        · rename_i num stage here
          rcases getThreadPool_cases here acted with
            ⟨stage', pc, less, -, -⟩ | ⟨rfl, pc, -, -⟩
          · exact rank_lt here pc less
          · exact rank_lt here pc Nat.one_pos

end State

/-- In every run every call is under way or has returned. -/
theorem accounted
    (ι : Type) [Fintype ι] [DecidableEq ι] :
    (machine ι).Invariant State.Accounted := by
  apply Transition.Machine.invariant_of_actions
  · rintro s rfl
    have nobody : count isInside (State.create ι).pc = 0 :=
      count_eq_zero_iff.mpr fun _ => rfl
    rw [State.Accounted, nobody]
    rfl
  · exact fun action s s' accounted acted => accounted.act acted

/-- However the calls of `getThreadPool` are interleaved, at most one pool is ever made,
every call that returns returns the pointer to it, and left alone all calls return after
a bounded number of steps. -/
theorem calls_share_one_pool
    (ι : Type) [Fintype ι] [DecidableEq ι] :
    (machine ι).Invariant fun s =>
      s.pools.length ≤ 1 ∧
      (∀ thread pool, (thread, pool) ∈ s.returned → pool = some 0 ∧ s.pools.length = 1) ∧
      (∃ actions t, (∀ action ∈ actions, action.Own) ∧
        run State.act actions s = some t ∧ Settled State.act Action.Own t) ∧
      ∀ actions t, (∀ action ∈ actions, action.Own) → run State.act actions s = some t →
        actions.length ≤ s.rank ∧
        (Settled State.act Action.Own t →
          (∀ thread, t.pc thread = .idle) ∧ t.returned.length = t.calls) := by
  intro s reached
  have one := onePool ι s reached
  refine ⟨?_, ?_, State.ranked.exists_settled trivial, ?_⟩
  · rcases one.pointer with null | ⟨-, single⟩
    · rcases one.unwritten null with empty | ⟨thread, isPublishing⟩
      · rw [empty]
        exact Nat.zero_le 1
      · obtain ⟨num, pool, here⟩ := exists_of_publishing isPublishing
        have assured := one.assured thread
        rw [here] at assured
        rw [assured.2.1]
        exact Nat.le_refl 1
    · exact Nat.le_of_eq single
  · intro thread pool present
    obtain ⟨isPool, notNull⟩ := one.same _ present
    refine ⟨isPool, ?_⟩
    rcases one.pointer with null | ⟨-, single⟩
    · rw [null] at notNull
      exact absurd notNull.symm (Option.some_ne_none 0)
    · exact single
  · intro actions t own ran
    have bound := State.ranked.length_add_rank_le trivial own ran
    refine ⟨by omega, ?_⟩
    intro settled
    have reached' := Transition.reachable_of_run reached ran
    have idle := State.idle_of_settled (onePool ι t reached') settled
    refine ⟨idle, ?_⟩
    have nobody : count isInside t.pc = 0 := by
      apply count_eq_zero_iff.mpr
      intro thread
      rw [idle thread]
      rfl
    have accounted := accounted ι t reached'
    rw [State.Accounted, nobody, Nat.add_zero] at accounted
    exact accounted

end Singleton
end LearnInLinux
