import LearnInLinux.Library.Ranking
import LearnInLinux.Pthread.RingQueue
import Mathlib.Tactic

/-!
# The calls of a ring queue

What a step of a call does to its thread and to the values in the ring, and what is left
of the calls: without new ones the threads come to rest, and then only one side may be
left waiting, and only for the other one.
-/

namespace LearnInLinux

namespace RingQueue

open Ring Threads
open Transition (run Settled Ranked)

/-- Where a call is behind a step. -/
def Stage.following {T : Type} (call : Call T) : Stage → Point T Stage
  | .wait => .inside call .lock
  | .lock => .inside call .access
  | .access => .inside call .increment
  | .increment => .inside call .modulo
  | .modulo => .inside call .unlock
  | .unlock => .inside call .post
  | .post => .idle

/-- Steps that are left of a call. -/
def Stage.left : Stage → Nat
  | .wait => 7
  | .lock => 6
  | .access => 5
  | .increment => 4
  | .modulo => 3
  | .unlock => 2
  | .post => 1

/-- Number of steps that the thread has to take to the end of its call. -/
def left {T : Type} : Point T Stage → Nat
  | .idle => 0
  | .inside _ stage => stage.left

theorem left_following {T : Type} (call : Call T) (stage : Stage) :
    left (stage.following call) + 1 = stage.left := by
  cases stage <;> rfl

namespace State

variable {ι T : Type} [DecidableEq ι] {num : Nat} {s s' : State ι T} {thread : ι}
  {call : Call T} {stage : Stage}

/-- The values that are in the ring, the next one to be read in front. -/
def queued (s : State ι T) : List T :=
  s.written.drop s.read.length

theorem goto_of_call (acted : s.act num (.call thread call) = some s') :
    s' = s.goto thread (.inside call .wait) := by
  rw [act] at acted
  split at acted
  · exact (Option.some.inj acted).symm
  · exact absurd acted.symm (Option.some_ne_none s')

theorem pc_of_call (acted : s.act num (.call thread call) = some s') :
    s'.pc = Function.update s.pc thread (.inside call .wait) := by
  rw [goto_of_call acted]
  rfl

theorem act_next
    (here : s.pc thread = .inside call stage)
    (acted : s.act num (.next thread) = some s') :
    s.advance num thread call stage = some s' := by
  rw [act, here] at acted
  exact acted

theorem pc_of_advance (acted : s.advance num thread call stage = some s') :
    s'.pc = Function.update s.pc thread (stage.following call) := by
  cases stage with
  | wait =>
      rw [advance] at acted
      split at acted
      · obtain rfl := Option.some.inj acted
        rfl
      · exact absurd acted.symm (Option.some_ne_none s')
  | lock =>
      rw [advance] at acted
      split at acted
      · exact absurd acted.symm (Option.some_ne_none s')
      · obtain rfl := Option.some.inj acted
        rfl
  | access =>
      obtain rfl := Option.some.inj acted
      rw [goto, access_pc]
      rfl
  | _ =>
      obtain rfl := Option.some.inj acted
      rfl

/-- Only the access touches the values. -/
theorem values_of_advance
    (acted : s.advance num thread call stage = some s')
    (elsewhere : stage ≠ .access) :
    s'.written = s.written ∧ s'.read = s.read := by
  cases stage with
  | wait =>
      rw [advance] at acted
      split at acted
      · obtain rfl := Option.some.inj acted
        exact ⟨rfl, rfl⟩
      · exact absurd acted.symm (Option.some_ne_none s')
  | lock =>
      rw [advance] at acted
      split at acted
      · exact absurd acted.symm (Option.some_ne_none s')
      · obtain rfl := Option.some.inj acted
        exact ⟨rfl, rfl⟩
  | access => exact absurd rfl elsewhere
  | _ =>
      obtain rfl := Option.some.inj acted
      exact ⟨rfl, rfl⟩

section Counted

variable [Fintype ι]

omit [DecidableEq ι] in
theorem InOrder.length_queued_le (order : s.InOrder num) :
    s.queued.length ≤ num := by
  have upper := order.written_le
  rw [queued, List.length_drop]
  omega

/-- A `push` puts its value at the end of what is in the ring, where there is room. -/
theorem InOrder.queued_push
    {value : T}
    (order : s.InOrder num)
    (here : s.pc thread = .inside (.push value) .access)
    (acted : s.advance num thread (.push value) .access = some s') :
    s.queued.length < num ∧ s'.queued = s.queued ++ [value] := by
  have room : s.written.length < s.read.length + num := order.accesses_lt_granted here
  have lower := order.stored.read_le_written
  obtain rfl := Option.some.inj acted
  constructor
  · rw [queued, List.length_drop]
    omega
  · change (s.written ++ [value]).drop s.read.length = _
    rw [List.drop_append_of_le_length lower]
    rfl

/-- A `pop` takes the first of the values that are in the ring. -/
theorem InOrder.queued_pop
    (order : s.InOrder num)
    (here : s.pc thread = .inside .pop .access)
    (acted : s.advance num thread .pop .access = some s') :
    s.queued = s.rq (s.step .consumer) :: s'.queued ∧
      s'.read = s.read ++ [s.rq (s.step .consumer)] ∧ s'.written = s.written := by
  have index : s.step .consumer = s.read.length % num := order.step_at_access here
  have present : s.read.length < s.written.length := order.accesses_lt_granted here
  have slot := order.stored.slots s.read.length (Nat.le_refl _) present
  obtain rfl := Option.some.inj acted
  refine ⟨?_, rfl, rfl⟩
  change s.written.drop s.read.length = s.rq (s.step .consumer) ::
    s.written.drop (s.read ++ [s.rq (s.step .consumer)]).length
  rw [index, List.length_append, List.length_singleton, List.drop_eq_getElem_cons present]
  rw [List.getElem?_eq_getElem present] at slot
  rw [Option.some.inj slot]

end Counted

end State

/-! ## Rest -/

/-- A step of a call. -/
def Action.Own {ι T : Type} : Action ι T → Prop
  | .next _ => True
  | .call _ _ => False

namespace State

variable {ι T : Type} [Fintype ι] {num : Nat}

/-- Steps that are left of all calls. -/
def rank (s : State ι T) : Nat :=
  weigh left s.pc

variable [DecidableEq ι] {s s' : State ι T}

theorem rank_of_next
    {thread : ι}
    (acted : s.act num (.next thread) = some s') :
    s'.rank + 1 = s.rank := by
  cases here : s.pc thread with
  | idle =>
      rw [act, here] at acted
      exact absurd acted.symm (Option.some_ne_none s')
  | inside call stage =>
      have changed := weigh_update left s.pc thread (stage.following call)
      rw [here] at changed
      have less := left_following call stage
      rw [rank, rank, pc_of_advance (act_next here acted)]
      change _ + stage.left = _ at changed
      omega

theorem ranked (num : Nat) :
    Ranked (act num) Action.Own (fun _ : State ι T => True) rank := by
  constructor
  · exact fun _ _ _ _ _ => trivial
  · intro action s s' own _ acted
    cases action with
    | next thread => exact Nat.lt_of_succ_le (Nat.le_of_eq (rank_of_next acted))
    | call thread call => exact absurd own not_false

/-- What is left at a ring at rest: the calls that have not returned wait for a token,
the consumers among them because nothing is in the ring, the producers because it is
full. -/
structure AtRest (num : Nat) (s : State ι T) : Prop where
  waiting : ∀ thread call stage, s.pc thread = .inside call stage → stage = .wait
  empty : ∀ thread stage, s.pc thread = .inside .pop stage → s.queued = []
  full : ∀ thread value stage, s.pc thread = .inside (.push value) stage →
    s.queued.length = num

theorem InOrder.atRest
    (order : s.InOrder num)
    (settled : Settled (act num) Action.Own s) :
    s.AtRest num := by
  have stuck : ¬ s.Progresses num := by
    rintro ⟨thread, call, stage, -, s', acted⟩
    rw [settled (.next thread) trivial] at acted
    exact Option.some_ne_none s' acted.symm
  constructor
  · intro thread call stage here
    exact (order.waits_of_not_progresses stuck here).1
  · intro thread stage here
    have granted : s.written.length = s.read.length :=
      order.granted_of_not_progresses stuck ⟨thread, .pop, stage, here, rfl⟩
    rw [queued, ← granted, List.drop_length]
  · intro thread value stage here
    have granted : s.read.length + num = s.written.length :=
      order.granted_of_not_progresses stuck ⟨thread, .push value, stage, here, rfl⟩
    rw [queued, List.length_drop]
    omega

end State

/-- Left alone, the threads at a ring come to rest after a bounded number of steps, in
whatever order they take them. Then all calls have returned but for calls of one side,
which wait for the other side because the ring is empty or full. -/
theorem ring_settles
    (ι T : Type) [Fintype ι] [DecidableEq ι]
    (num : Nat)
    (positive : 0 < num) :
    (machine ι T num).Invariant fun s =>
      (∃ actions t, (∀ action ∈ actions, action.Own) ∧
        run (State.act num) actions s = some t ∧
        Settled (State.act num) Action.Own t) ∧
      ∀ actions t, (∀ action ∈ actions, action.Own) →
        run (State.act num) actions s = some t →
        actions.length ≤ s.rank ∧
        (Settled (State.act num) Action.Own t →
          t.AtRest num ∧ ∃ side, ∀ thread call stage,
            t.pc thread = .inside call stage → call.side = side) := by
  intro s reached
  refine ⟨(State.ranked num).exists_settled trivial, ?_⟩
  intro actions t own ran
  have bound := (State.ranked num).length_add_rank_le trivial own ran
  refine ⟨by omega, ?_⟩
  intro settled
  have order := inOrder ι T num t (Transition.reachable_of_run reached ran)
  have atRest := order.atRest settled
  refine ⟨atRest, ?_⟩
  by_cases consumes : ∃ thread stage, t.pc thread = .inside .pop stage
  · obtain ⟨consumer, waits, popping⟩ := consumes
    refine ⟨.consumer, ?_⟩
    intro thread call stage here
    cases call with
    | push value =>
        have isFull := atRest.full thread value stage here
        rw [atRest.empty consumer waits popping] at isFull
        exact absurd positive (Nat.not_lt.mpr (Nat.le_of_eq isFull.symm))
    | pop => rfl
  · refine ⟨.producer, ?_⟩
    intro thread call stage here
    cases call with
    | push value => rfl
    | pop => exact absurd ⟨thread, stage, here⟩ consumes

theorem ring_settles_one :
    (machine (Fin 2) Nat 1).Invariant fun s =>
      (∃ actions t, (∀ action ∈ actions, action.Own) ∧
        run (State.act 1) actions s = some t ∧ Settled (State.act 1) Action.Own t) ∧
      ∀ actions t, (∀ action ∈ actions, action.Own) →
        run (State.act 1) actions s = some t →
        actions.length ≤ s.rank ∧
        (Settled (State.act 1) Action.Own t →
          t.AtRest 1 ∧ ∃ side, ∀ thread call stage,
            t.pc thread = .inside call stage → call.side = side) :=
  ring_settles (Fin 2) Nat 1 Nat.one_pos

end RingQueue
end LearnInLinux
