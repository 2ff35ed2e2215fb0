import LearnInLinux.Library.Ranking
import Mathlib.Data.Int.Order.Basic

/-!
# Tickets behind a mutex

Threads sell tickets until there are none left: `getTickets` looks at the counter,
prints it and takes one off it, all under one mutex. Taking one off is a load and a
store, and every step is atomic. The program has 10000 tickets and 600 threads; here
there are any numbers of both.
-/

namespace LearnInLinux
namespace Tickets

open Threads
open Transition (run Settled Ranked)

/-- The steps of the loop of `getTickets`. -/
inductive Stage
  /-- `pthread_mutex_lock(td->pmtx)` -/
  | lock
  /-- `tickets > 0` -/
  | check
  /-- `printf("%s: %d\n", td->tname.c_str(), tickets)` -/
  | print
  /-- The load of `tickets--`. -/
  | load
  /-- The store of `tickets--`. -/
  | store (value : Int)
  /-- `pthread_mutex_unlock(td->pmtx)` behind a sale. -/
  | unlock
  /-- `pthread_mutex_unlock(td->pmtx)` in front of `break`. -/
  | stop
  deriving DecidableEq

/-- Where a thread is: not created yet, in the loop, or behind it. -/
inductive Point
  | idle
  | inside (stage : Stage)
  | finished
  deriving DecidableEq

/-- The counter, its mutex, where the threads are, and what was printed. -/
structure State (ι : Type) where
  tickets : Int
  mtx : Option ι
  pc : ι → Point
  /-- The lines printed, each with the thread that printed it. -/
  printed : List (ι × Int)

/-- `main` creates a thread, or a thread takes its next step. -/
inductive Action (ι : Type)
  /-- `pthread_create` -/
  | create (thread : ι)
  | next (thread : ι)

/-- A step of a thread. -/
def Action.Own {ι : Type} : Action ι → Prop
  | .create _ => False
  | .next _ => True

namespace State

variable {ι : Type} [DecidableEq ι]

/-- A thread goes to another point. -/
def goto (thread : ι) (point : Point) (s : State ι) : State ι :=
  { s with pc := Function.update s.pc thread point }

/-- One step of `getTickets`; `none` while the thread has to wait. -/
def getTickets (thread : ι) (stage : Stage) (s : State ι) : Option (State ι) :=
  match stage with
  | .lock =>
      match s.mtx with
      | some _ => none
      | none => some { s.goto thread (.inside .check) with mtx := some thread }
  | .check =>
      if 0 < s.tickets then some (s.goto thread (.inside .print))
      else some (s.goto thread (.inside .stop))
  | .print =>
      some { s.goto thread (.inside .load) with
        printed := s.printed ++ [(thread, s.tickets)] }
  | .load => some (s.goto thread (.inside (.store (s.tickets - 1))))
  | .store value => some { s.goto thread (.inside .unlock) with tickets := value }
  | .unlock => some { s.goto thread (.inside .lock) with mtx := none }
  | .stop => some { s.goto thread .finished with mtx := none }

/-- A step; `none` while it is not the next one of its thread, or has to wait. -/
def act (action : Action ι) (s : State ι) : Option (State ι) :=
  match action with
  | .create thread =>
      match s.pc thread with
      | .idle => some (s.goto thread (.inside .lock))
      | _ => none
  | .next thread =>
      match s.pc thread with
      | .inside stage => s.getTickets thread stage
      | _ => none

/-- Behind `pthread_mutex_init`. -/
def create (ι : Type) (n : Nat) : State ι where
  tickets := n
  mtx := none
  pc _ := .idle
  printed := []

end State

/-- All runs of any threads that sell `n` tickets. -/
def machine (ι : Type) [DecidableEq ι] (n : Nat) : Transition.Machine (State ι) :=
  .ofStep (fun s => s = State.create ι n) State.act

/-! ## Under the mutex -/

/-- Between locking and unlocking. -/
def holding : Point → Bool
  | .inside stage =>
      match stage with
      | .lock => false
      | _ => true
  | _ => false

/-- The ticket is printed and still counted. -/
def printing : Point → Bool
  | .inside .load => true
  | .inside (.store _) => true
  | _ => false

/-- What a thread knows of the counter. -/
def Assured (tickets : Int) : Point → Prop
  | .idle => True
  | .finished => tickets ≤ 0
  | .inside stage =>
      match stage with
      | .print => 0 < tickets
      | .load => 0 < tickets
      | .store value => 0 < tickets ∧ value = tickets - 1
      | .stop => tickets ≤ 0
      | _ => True

/-- The first `k` numbers from `n` downwards. -/
def countdown (n k : Nat) : List Int :=
  (List.range k).map fun i : Nat => (n : Int) - i

theorem countdown_succ (n k : Nat) :
    countdown n (k + 1) = countdown n k ++ [(n : Int) - k] := by
  rw [countdown, List.range_succ, List.map_append]
  rfl

/-- The tickets printed are the first ones, and all but one that is just being sold are
off the counter. -/
structure InOrder {ι : Type} [Fintype ι] (n : Nat) (s : State ι) : Prop where
  guarded : Guarded holding s.mtx s.pc
  assured : ∀ thread, Assured s.tickets (s.pc thread)
  counted : (s.printed.length : Int) + s.tickets = n + count printing s.pc
  down : s.printed.map Prod.snd = countdown n s.printed.length
  notNegative : 0 ≤ s.tickets

theorem holding_of_printing
    {point : Point}
    (isPrinting : printing point = true) :
    holding point = true := by
  cases point with
  | inside stage =>
      cases stage with
      | load => rfl
      | store value => rfl
      | _ => exact absurd isPrinting Bool.false_ne_true
  | _ => exact absurd isPrinting Bool.false_ne_true

/-- A thread that has not seen the counter at zero does not mind one ticket less. -/
theorem Assured.sold
    {tickets : Int}
    {point : Point}
    (assured : Assured tickets point)
    (left : 0 < tickets)
    (outside : holding point = false) :
    Assured (tickets - 1) point := by
  cases point with
  | idle => trivial
  | finished => exact absurd left (Int.not_lt.mpr assured)
  | inside stage =>
      cases stage with
      | lock => trivial
      | _ => exact absurd outside Bool.false_ne_true.symm

theorem Assured.left_of_printing
    {tickets : Int}
    {point : Point}
    (assured : Assured tickets point)
    (isPrinting : printing point = true) :
    0 < tickets := by
  cases point with
  | inside stage =>
      cases stage with
      | load => exact assured
      | store value => exact assured.1
      | _ => exact absurd isPrinting Bool.false_ne_true
  | _ => exact absurd isPrinting Bool.false_ne_true

namespace InOrder

variable {ι : Type} [Fintype ι] {n : Nat} {s s' : State ι} {thread : ι}

/-- The owner of the mutex is the only thread that can be about to sell. -/
theorem nobody_printing
    (order : InOrder n s)
    (inside : holding (s.pc thread) = true)
    (notPrinting : printing (s.pc thread) = false) :
    count printing s.pc = 0 := by
  apply count_eq_zero_iff.mpr
  intro other
  rw [Bool.eq_false_iff]
  intro isPrinting
  obtain rfl := order.guarded.unique inside (holding_of_printing isPrinting)
  rw [notPrinting] at isPrinting
  exact Bool.false_ne_true isPrinting

/-- Only one ticket at a time is printed and still counted, and the counter shows it. -/
theorem count_printing_le (order : InOrder n s) :
    (count printing s.pc : Int) ≤ s.tickets := by
  rcases Nat.eq_zero_or_pos (count printing s.pc) with nobody | somebody
  · rw [nobody]
    exact order.notNegative
  · have single : count printing s.pc ≤ 1 := by
      apply Finset.card_le_one.mpr
      intro thread isPrinting other otherPrinting
      exact order.guarded.unique
        (holding_of_printing (Finset.mem_filter.mp isPrinting).2)
        (holding_of_printing (Finset.mem_filter.mp otherPrinting).2)
    obtain ⟨thread, isPrinting⟩ := exists_of_count_pos somebody
    have left := (order.assured thread).left_of_printing isPrinting
    omega

/-- A thread ends when the counter is at zero, and then no ticket is on its way. -/
theorem soldOut_of_finished
    (order : InOrder n s)
    (finished : s.pc thread = .finished) :
    s.printed.map Prod.snd = countdown n n ∧ s.tickets = 0 := by
  have soldOut := order.assured thread
  rw [finished] at soldOut
  have zero : s.tickets = 0 := Int.le_antisymm soldOut order.notNegative
  have few := order.count_printing_le
  have counted := order.counted
  have all : s.printed.length = n := by omega
  have down := order.down
  rw [all] at down
  exact ⟨down, zero⟩

variable [DecidableEq ι]

/-- Only the owner of the mutex prints or counts down. -/
theorem owner_of_changed
    {action : Action ι}
    (order : InOrder n s)
    (acted : s.act action = some s')
    (changed : s'.printed ≠ s.printed ∨ s'.tickets ≠ s.tickets) :
    ∃ thread, action = .next thread ∧ s.mtx = some thread := by
  have quiet {point : Point} {mtx : Option ι} {thread : ι}
      (same : s' = { s.goto thread point with mtx := mtx }) : False := by
    rw [same] at changed
    rcases changed with printed | counted
    · exact printed rfl
    · exact counted rfl
  cases action with
  | create thread =>
      rw [State.act] at acted
      split at acted
      · exact (quiet (Option.some.inj acted).symm).elim
      · exact absurd acted (by simp)
  | next thread =>
      rw [State.act] at acted
      split at acted
      · rename_i stage here
        refine ⟨thread, rfl, order.guarded.owner ?_⟩
        rw [here]
        cases stage with
        | lock =>
            rw [State.getTickets] at acted
            split at acted
            · exact absurd acted (by simp)
            · exact (quiet (Option.some.inj acted).symm).elim
        | _ => rfl
      · exact absurd acted (by simp)

/-- A step that leaves the counter and the lines alone. -/
theorem of_quiet
    {before point : Point}
    {mtx : Option ι}
    (order : InOrder n s)
    (here : s.pc thread = before)
    (guarded : Guarded holding mtx (Function.update s.pc thread point))
    (assured : Assured s.tickets point)
    (same : printing point = printing before) :
    InOrder n { s.goto thread point with mtx := mtx } where
  guarded := guarded
  assured := assertion_update order.assured assured
  counted := by
    have unchanged : count printing (Function.update s.pc thread point) =
        count printing s.pc :=
      count_update_same here same
    change (s.printed.length : Int) + s.tickets =
      n + count printing (Function.update s.pc thread point)
    rw [unchanged]
    exact order.counted
  down := order.down
  notNegative := order.notNegative

/-- The ticket printed is the next one. -/
theorem print
    (order : InOrder n s)
    (here : s.pc thread = .inside .print) :
    InOrder n { s.goto thread (.inside .load) with
      printed := s.printed ++ [(thread, s.tickets)] } := by
  have left := order.assured thread
  rw [here] at left
  have inside : holding (s.pc thread) = true := by
    rw [here]
    rfl
  have nobody : count printing s.pc = 0 := by
    apply order.nobody_printing inside
    rw [here]
    rfl
  have counted := order.counted
  rw [nobody] at counted
  have entered : count printing (Function.update s.pc thread (.inside .load)) = 0 + 1 := by
    rw [← nobody]
    exact count_update_enter here rfl rfl
  constructor
  · exact order.guarded.move here rfl
  · exact assertion_update order.assured left
  · change ((s.printed ++ [(thread, s.tickets)]).length : Int) + s.tickets =
      n + count printing (Function.update s.pc thread (.inside .load))
    rw [entered, List.length_append, List.length_singleton]
    push_cast
    omega
  · change (s.printed ++ [(thread, s.tickets)]).map Prod.snd =
      countdown n (s.printed ++ [(thread, s.tickets)]).length
    have next : s.tickets = (n : Int) - s.printed.length := by omega
    rw [List.length_append, List.length_singleton, countdown_succ, List.map_append,
      order.down, ← next]
    rfl
  · exact order.notNegative

/-- The counter loses the ticket that was printed. -/
theorem store
    {value : Int}
    (order : InOrder n s)
    (here : s.pc thread = .inside (.store value)) :
    InOrder n { s.goto thread (.inside .unlock) with tickets := value } := by
  have assured := order.assured thread
  rw [here] at assured
  obtain ⟨left, rfl⟩ := assured
  have counted := order.counted
  have sold : count printing (Function.update s.pc thread (.inside .unlock)) + 1 =
      count printing s.pc :=
    count_update_leave here rfl rfl
  constructor
  · exact order.guarded.move here rfl
  · change ∀ other, Assured (s.tickets - 1)
      (Function.update s.pc thread (.inside .unlock) other)
    intro other
    by_cases isThread : other = thread
    · rw [isThread, Function.update_self]
      trivial
    · rw [Function.update_of_ne isThread]
      apply (order.assured other).sold left
      rw [Bool.eq_false_iff]
      intro inside
      exact isThread (order.guarded.unique inside (by rw [here]; rfl))
  · change (s.printed.length : Int) + (s.tickets - 1) =
      n + count printing (Function.update s.pc thread (.inside .unlock))
    omega
  · exact order.down
  · change 0 ≤ s.tickets - 1
    omega

theorem step
    {stage : Stage}
    (order : InOrder n s)
    (here : s.pc thread = .inside stage)
    (stepped : s.getTickets thread stage = some s') :
    InOrder n s' := by
  have assured := order.assured thread
  rw [here] at assured
  cases stage with
  | lock =>
      rw [State.getTickets] at stepped
      split at stepped
      · exact absurd stepped (by simp)
      · rename_i unlocked
        obtain rfl := Option.some.inj stepped
        exact order.of_quiet here (order.guarded.lock unlocked rfl) trivial rfl
  | check =>
      rw [State.getTickets] at stepped
      split at stepped
      · rename_i left
        obtain rfl := Option.some.inj stepped
        exact order.of_quiet here (order.guarded.move here rfl) left rfl
      · rename_i soldOut
        obtain rfl := Option.some.inj stepped
        exact order.of_quiet here (order.guarded.move here rfl) (Int.not_lt.mp soldOut) rfl
  | print =>
      obtain rfl := Option.some.inj stepped
      exact order.print here
  | load =>
      obtain rfl := Option.some.inj stepped
      exact order.of_quiet here (order.guarded.move here rfl) ⟨assured, rfl⟩ rfl
  | store value =>
      obtain rfl := Option.some.inj stepped
      exact order.store here
  | unlock =>
      obtain rfl := Option.some.inj stepped
      exact order.of_quiet here (order.guarded.unlock here rfl rfl) trivial rfl
  | stop =>
      obtain rfl := Option.some.inj stepped
      exact order.of_quiet here (order.guarded.unlock here rfl rfl) assured rfl

theorem act
    {action : Action ι}
    (order : InOrder n s)
    (acted : s.act action = some s') :
    InOrder n s' := by
  cases action with
  | create thread =>
      rw [State.act] at acted
      split at acted
      · rename_i here
        obtain rfl := Option.some.inj acted
        exact order.of_quiet here (order.guarded.move here rfl) trivial rfl
      · exact absurd acted (by simp)
  | next thread =>
      rw [State.act] at acted
      split at acted
      · rename_i stage here
        exact order.step here acted
      · exact absurd acted (by simp)

end InOrder

theorem inOrder
    (ι : Type) [Fintype ι] [DecidableEq ι] (n : Nat) :
    (machine ι n).Invariant (InOrder n) := by
  apply Transition.Machine.invariant_of_actions
  · rintro s rfl
    have nobody : count printing (State.create ι n).pc = 0 :=
      count_eq_zero_iff.mpr fun _ => rfl
    refine ⟨?_, fun _ => trivial, ?_, rfl, Int.natCast_nonneg n⟩
    · exact fun _ => iff_of_false Bool.false_ne_true (Option.some_ne_none _).symm
    · rw [nobody]
      exact (Int.add_zero _).symm ▸ Int.zero_add _
  · exact fun action s s' order acted => order.act acted

/-! ## The end of the sale -/

/-- What is left of a turn of the loop. -/
def Stage.left : Stage → Nat
  | .store _ => 3
  | .load => 4
  | .print => 5
  | .stop => 5
  | .check => 6
  | .lock => 7
  | .unlock => 8

/-- Bound on the steps that a thread has to take to the end of its round. -/
def weight : Point → Nat
  | .inside stage => stage.left
  | _ => 0

namespace State

variable {ι : Type} [DecidableEq ι] {n : Nat} {s s' : State ι} {thread : ι}

/-- A thread that goes on finds the mutex free or has it. -/
theorem idle_or_finished_of_settled
    (guarded : Guarded holding s.mtx s.pc)
    (settled : Settled act Action.Own s)
    (thread : ι) :
    s.pc thread = .idle ∨ s.pc thread = .finished := by
  have atLock (other : ι) (stage : Stage) (here : s.pc other = .inside stage) :
      stage = .lock ∧ s.mtx ≠ none := by
    have next := settled (.next other) trivial
    rw [act, here] at next
    cases stage with
    | lock =>
        refine ⟨rfl, ?_⟩
        intro unlocked
        simp [getTickets, unlocked] at next
    | check =>
        simp only [getTickets] at next
        split at next
        · exact absurd next (by simp)
        · exact absurd next (by simp)
    | _ => simp [getTickets] at next
  cases here : s.pc thread with
  | idle => exact .inl rfl
  | finished => exact .inr rfl
  | inside stage =>
      exfalso
      obtain ⟨-, locked⟩ := atLock thread stage here
      obtain ⟨owner, owns⟩ := Option.ne_none_iff_exists'.mp locked
      have inside := (guarded owner).mpr owns
      cases at_owner : s.pc owner with
      | inside stage' =>
          obtain ⟨rfl, -⟩ := atLock owner stage' at_owner
          rw [at_owner] at inside
          exact Bool.false_ne_true inside
      | _ =>
          rw [at_owner] at inside
          exact Bool.false_ne_true inside

variable [Fintype ι]

/-- A ticket is worth a turn of the loop. -/
def rank (s : State ι) : Nat :=
  6 * s.tickets.toNat + weigh weight s.pc

theorem rank_lt
    {before point : Point}
    (here : s.pc thread = before)
    (pc : s'.pc = Function.update s.pc thread point)
    (less : 6 * s'.tickets.toNat + weight point < 6 * s.tickets.toNat + weight before) :
    s'.rank < s.rank := by
  have moved := weigh_update weight s.pc thread point
  rw [here] at moved
  rw [rank, rank, pc]
  omega

theorem rank_getTickets
    {stage : Stage}
    (order : InOrder n s)
    (here : s.pc thread = .inside stage)
    (stepped : s.getTickets thread stage = some s') :
    s'.rank < s.rank := by
  cases stage with
  | lock =>
      rw [getTickets] at stepped
      split at stepped
      · exact absurd stepped (by simp)
      · obtain rfl := Option.some.inj stepped
        exact rank_lt here rfl (Nat.lt_succ_self _)
  | check =>
      rw [getTickets] at stepped
      split at stepped
      · obtain rfl := Option.some.inj stepped
        exact rank_lt here rfl (Nat.lt_succ_self _)
      · obtain rfl := Option.some.inj stepped
        exact rank_lt here rfl (Nat.lt_succ_self _)
  | print =>
      obtain rfl := Option.some.inj stepped
      exact rank_lt here rfl (Nat.lt_succ_self _)
  | load =>
      obtain rfl := Option.some.inj stepped
      exact rank_lt here rfl (Nat.lt_succ_self _)
  | store value =>
      have assured := order.assured thread
      rw [here] at assured
      obtain ⟨left, rfl⟩ := assured
      obtain rfl := Option.some.inj stepped
      apply rank_lt here rfl
      change 6 * (s.tickets - 1).toNat + 8 < 6 * s.tickets.toNat + 3
      omega
  | unlock =>
      obtain rfl := Option.some.inj stepped
      exact rank_lt here rfl (Nat.lt_succ_self _)
  | stop =>
      obtain rfl := Option.some.inj stepped
      exact rank_lt here rfl (Nat.lt_add_of_pos_right (Nat.succ_pos 4))

theorem ranked (n : Nat) :
    Ranked (act : Action ι → State ι → Option (State ι)) Action.Own (InOrder n) rank where
  kept _ _ _ order acted := order.act acted
  falls action s s' own order acted := by
    cases action with
    | create thread => exact absurd own id
    | next thread =>
        rw [act] at acted
        split at acted
        · rename_i stage here
          exact rank_getTickets order here acted
        · exact absurd acted (by simp)

end State

/-- However the threads take turns, the lines printed are the tickets from `n` downwards,
each once, and only the owner of the mutex prints or counts down. Left alone, the threads
come to an end after a bounded number of steps, and one that has finished leaves no ticket
unsold. -/
theorem tickets_sold_once
    (ι : Type) [Fintype ι] [DecidableEq ι] (n : Nat) :
    (machine ι n).Invariant fun s =>
      s.printed.map Prod.snd = countdown n s.printed.length ∧
      (∀ thread ticket, (thread, ticket) ∈ s.printed → 0 < ticket) ∧
      (∀ action t, s.act action = some t → t.printed ≠ s.printed ∨ t.tickets ≠ s.tickets →
        ∃ thread, action = .next thread ∧ s.mtx = some thread) ∧
      ((∃ thread, s.pc thread = .finished) →
        s.printed.map Prod.snd = countdown n n ∧ s.tickets = 0) ∧
      (∃ actions t, (∀ action ∈ actions, action.Own) ∧
        run State.act actions s = some t ∧ Settled State.act Action.Own t) ∧
      ∀ actions t, (∀ action ∈ actions, action.Own) → run State.act actions s = some t →
        actions.length ≤ s.rank ∧
        (Settled State.act Action.Own t →
          (∀ thread, t.pc thread = .idle ∨ t.pc thread = .finished) ∧
          ((∃ thread, t.pc thread = .finished) →
            t.printed.map Prod.snd = countdown n n ∧ t.tickets = 0)) := by
  intro s reached
  have order := inOrder ι n s reached
  refine ⟨order.down, ?_, fun action t => order.owner_of_changed, ?_,
    (State.ranked n).exists_settled order, ?_⟩
  · intro thread ticket present
    have isTicket : ticket ∈ countdown n s.printed.length := by
      rw [← order.down]
      exact List.mem_map_of_mem present
    obtain ⟨i, inside, rfl⟩ := List.mem_map.mp isTicket
    have counted := order.counted
    have few := order.count_printing_le
    rw [List.mem_range] at inside
    omega
  · rintro ⟨thread, finished⟩
    exact order.soldOut_of_finished finished
  · intro actions t own ran
    have bound := (State.ranked n).length_add_rank_le order own ran
    refine ⟨by omega, ?_⟩
    intro settled
    have order' := inOrder ι n t (Transition.reachable_of_run reached ran)
    have ended := State.idle_or_finished_of_settled order'.guarded settled
    refine ⟨ended, ?_⟩
    rintro ⟨thread, finished⟩
    exact order'.soldOut_of_finished finished

end Tickets
end LearnInLinux
