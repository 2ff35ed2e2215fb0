import LearnInLinux.Ipc.Fifo
import Mathlib.Tactic

/-!
# The named pipe comes to rest

While nothing is typed, no client comes or goes and no system call fails, the processes
at the pipe go on for a bounded number of steps. Then nobody is writing, everything that
was read has been printed, and the server has ended unless it waits for its first client
or some client is at its prompt.
-/

namespace LearnInLinux
namespace Fifo

open Threads
open Transition (run Settled Ranked)

/-- A step that a process takes by itself. -/
def Action.Own {ι : Type} : Action ι → Prop
  | .server _ => True
  | .reap _ => True
  | .child _ _ => True
  | .write _ _ => True
  | _ => False

/-! ## The rank -/

/-- Bound on the steps that a child can still take on what it holds. -/
def ChildAt.left : ChildAt → Nat
  | .read => 2
  | .print _ => 3
  | .exited => 1
  | _ => 0

/-- A byte that is still to be written costs its way through the pipe too. -/
def ClientAt.left : ClientAt → Nat
  | .write _ rest => 3 * rest.length + 1
  | _ => 0

/-- Steps of `main`; a fork pays for the child that it makes. -/
def ServerAt.left : ServerAt → Nat
  | .mkfifo => 16
  | .openRead => 15
  | .fork i => 5 + 3 * (nums - i)
  | .waitpid i => 2 + (nums - i)
  | .close => 2
  | .unlink => 1
  | .exited _ => 0

theorem ServerAt.left_forked (i : Fin nums) :
    (forked i).left + 3 ≤ (fork i).left := by
  have isChild := i.isLt
  have three : nums = 3 := rfl
  rw [forked]
  split
  · rename_i next
    simp only [left]
    omega
  · simp only [left]
    omega

theorem ServerAt.left_waited (i : Fin nums) :
    (waited i).left + 1 ≤ (waitpid i).left := by
  have isChild := i.isLt
  rw [waited]
  split
  · rename_i next
    simp only [left]
    omega
  · simp only [left]
    omega

namespace State

variable {ι : Type} [DecidableEq ι] [Fintype ι]

/-- Bound on the steps that are left. -/
def rank (s : State ι) : Nat :=
  weigh ClientAt.left s.clients + 2 * s.pipe.length + weigh ChildAt.left s.children +
    s.server.left

variable {room : Nat} {s s' : State ι} {action : Action ι}

theorem Move.rank_lt
    (moved : s.Move room action s')
    (own : action.Own) :
    s'.rank < s.rank := by
  cases moved with
  | mkfifoFails here =>
      simp only [rank, here, ServerAt.left]
      omega
  | mkfifo here =>
      simp only [rank, here, ServerAt.left]
      omega
  | opened here arrived =>
      simp only [rank, here, ServerAt.left, nums]
      omega
  | @fork i ok here =>
      have less := ServerAt.left_forked i
      rw [← here] at less
      cases ok with
      | false =>
          simp only [rank, Bool.false_eq_true, if_false]
          omega
      | true =>
          have changed := weigh_update ChildAt.left s.children i .read
          simp only [rank, if_true]
          change _ = _ + 2 at changed
          omega
  | @childless i ok here nobody =>
      have less := ServerAt.left_waited i
      rw [← here] at less
      simp only [rank]
      omega
  | close here =>
      simp only [rank, here, ServerAt.left]
      omega
  | unlink here =>
      simp only [rank, here, ServerAt.left]
      omega
  | @reap i child here ended =>
      have less := ServerAt.left_waited i
      have changed := weigh_update ChildAt.left s.children child .reaped
      rw [← here] at less
      change _ = _ + 0 at changed
      simp only [rank]
      omega
  | openFails here => exact absurd own not_false
  | @endOfFile child n here empty noWriter =>
      have changed := weigh_update ChildAt.left s.children child .exited
      rw [here] at changed
      change _ + 2 = _ + 1 at changed
      simp only [rank]
      omega
  | @read child n here positive small present =>
      have changed := weigh_update ChildAt.left s.children child (.print (s.pipe.take n))
      rw [here] at changed
      change _ + 2 = _ + 3 at changed
      simp only [rank, List.length_drop]
      omega
  | @print child n chunk here =>
      have changed := weigh_update ChildAt.left s.children child .read
      rw [here] at changed
      change _ + 3 = _ + 2 at changed
      simp only [rank]
      omega
  | readFails here => exact absurd own not_false
  | startFails here => exact absurd own not_false
  | startWaits here => exact absurd own not_false
  | start here => exact absurd own not_false
  | getline here => exact absurd own not_false
  | @written client n sent here =>
      have changed := weigh_update ClientAt.left s.clients client .getline
      rw [here] at changed
      change _ + 1 = _ + 0 at changed
      simp only [rank]
      omega
  | @broken client n sent rest here =>
      have changed := weigh_update ClientAt.left s.clients client .gone
      rw [here] at changed
      change _ + (3 * rest.length + 1) = _ + 0 at changed
      simp only [rank]
      omega
  | @write client n sent rest here positive present =>
      have changed := weigh_update ClientAt.left s.clients client
        (.write (sent ++ rest.take n) (rest.drop n))
      rw [here] at changed
      change _ + (3 * rest.length + 1) = _ + (3 * (rest.drop n).length + 1) at changed
      rw [List.length_drop] at changed
      simp only [rank, List.length_append, List.length_take]
      omega
  | kill => exact absurd own not_false

theorem ranked (room : Nat) :
    Ranked (act room) Action.Own (fun _ : State ι => True) rank := by
  constructor
  · exact fun _ _ _ _ _ => trivial
  · exact fun action s s' own _ acted => (move_of_act acted).rank_lt own

/-! ## Rest -/

/-- Nobody is writing, and what has been read has been printed. The server has ended, or
it waits for its first client, or for the end of a pipe that is empty and that a client at
its prompt still has open. -/
structure AtRest (s : State ι) : Prop where
  written : ∀ client sent rest, s.clients client ≠ .write sent rest
  printed : ∀ child,
    entriesOf child s.printed = (entriesOf child s.reads).map (Text.cString 0)
  server : (s.server = .openRead ∧ ∀ client, (s.clients client).hasFd = false) ∨
    (∃ i client, s.server = .waitpid i ∧ s.pipe = [] ∧ s.clients client = .getline) ∨
    ∃ status, s.server = .exited status

theorem ne_print_of_settled
    (settled : Settled (act room) Action.Own s)
    (child : Fin nums) (chunk : Bytes) :
    s.children child ≠ .print chunk := by
  intro here
  have blocked := settled (.child child 0) trivial
  simp only [act, getMessage, here] at blocked
  exact Option.some_ne_none _ blocked

/-- A child waits where the pipe is empty and somebody may still write. -/
theorem empty_of_settled
    {child : Fin nums}
    (settled : Settled (act room) Action.Own s)
    (here : s.children child = .read) :
    s.pipe = [] ∧ s.hasWriter = true := by
  have blocked := settled (.child child 1) trivial
  simp only [act, getMessage, here] at blocked
  by_cases empty : s.pipe = []
  · refine ⟨empty, ?_⟩
    by_contra noWriter
    rw [if_pos empty, if_neg noWriter] at blocked
    exact Option.some_ne_none _ blocked
  · have present : 0 < s.pipe.length := List.length_pos_iff.mpr empty
    rw [if_neg empty, if_pos ⟨Nat.one_pos, by decide, present⟩] at blocked
    exact absurd blocked (Option.some_ne_none _)

theorem ne_exited_of_settled
    {i : Fin nums}
    (settled : Settled (act room) Action.Own s)
    (waits : s.server = .waitpid i)
    (child : Fin nums) :
    s.children child ≠ .exited := by
  intro ended
  have blocked := settled (.reap child) trivial
  simp only [act, waits, ended] at blocked
  exact Option.some_ne_none _ blocked

/-- Where the server may wait. -/
theorem server_of_settled
    (settled : Settled (act room) Action.Own s) :
    (s.server = .openRead ∧ s.arrived = false) ∨
      (∃ i child, s.server = .waitpid i ∧ s.children child = .read) ∨
      ∃ status, s.server = .exited status := by
  have blocked := settled (.server true) trivial
  simp only [act, main] at blocked
  cases here : s.server with
  | mkfifo =>
      simp only [here] at blocked
      split at blocked
      · exact absurd blocked (Option.some_ne_none _)
      · exact absurd blocked (Option.some_ne_none _)
  | openRead =>
      simp only [here] at blocked
      split at blocked
      · exact absurd blocked (Option.some_ne_none _)
      · rename_i nobody
        exact .inl ⟨rfl, Bool.eq_false_iff.mpr nobody⟩
  | waitpid i =>
      simp only [here] at blocked
      split at blocked
      · rename_i someLeft
        obtain ⟨child, isLeft⟩ := someLeft
        refine .inr (.inl ⟨i, child, rfl, ?_⟩)
        cases point : s.children child with
        | read => rfl
        | print chunk => exact absurd point (ne_print_of_settled settled child chunk)
        | exited => exact absurd point (ne_exited_of_settled settled here child)
        | absent =>
            rw [point] at isLeft
            exact absurd isLeft Bool.false_ne_true
        | reaped =>
            rw [point] at isLeft
            exact absurd isLeft Bool.false_ne_true
      · exact absurd blocked (Option.some_ne_none _)
  | exited status => exact .inr (.inr ⟨status, rfl⟩)
  | _ =>
      simp only [here] at blocked
      exact absurd blocked (Option.some_ne_none _)

/-- While the pipe has a reader, some child is in front of `read`. -/
theorem exists_read_of_settled
    {client : ι}
    (sound : s.Sound)
    (settled : Settled (act room) Action.Own s)
    (writing : (s.clients client).hasFd = true)
    (hasReader : s.hasReader = true) :
    ∃ child, s.children child = .read := by
  rw [State.hasReader, Bool.or_eq_true, decide_eq_true_iff] at hasReader
  rcases hasReader with isServer | ⟨child, isAlive⟩
  · rcases server_of_settled settled with ⟨-, nobody⟩ | ⟨i, child, -, reads⟩ | ⟨status, ended⟩
    · have arrived := sound.arrivals client writing
      rw [nobody] at arrived
      exact absurd arrived Bool.false_ne_true
    · exact ⟨child, reads⟩
    · rw [ended] at isServer
      exact absurd isServer Bool.false_ne_true
  · refine ⟨child, ?_⟩
    cases point : s.children child with
    | read => rfl
    | print chunk => exact absurd point (ne_print_of_settled settled child chunk)
    | _ =>
        rw [point] at isAlive
        exact absurd isAlive Bool.false_ne_true

/-- A client in `write` can go on: where somebody reads the pipe is empty, and where
nobody does the client is killed. -/
theorem ne_write_of_settled
    (enough : PIPE_BUF ≤ room)
    (sound : s.Sound)
    (settled : Settled (act room) Action.Own s)
    (client : ι) (sent rest : Bytes) :
    s.clients client ≠ .write sent rest := by
  intro here
  have writing : (s.clients client).hasFd = true := by
    rw [here]
    rfl
  have blocked (n : Nat) := settled (.write client n) trivial
  simp only [act, write, here] at blocked
  by_cases nothing : rest = []
  · have possible := blocked 0
    rw [if_pos nothing] at possible
    exact Option.some_ne_none _ possible
  · by_cases noReader : s.hasReader = false
    · have possible := blocked 0
      rw [if_neg nothing, if_pos noReader] at possible
      exact Option.some_ne_none _ possible
    · obtain ⟨child, reads⟩ :=
        exists_read_of_settled sound settled writing (Bool.eq_true_of_not_eq_false noReader)
      have empty := (empty_of_settled settled reads).1
      have length : 0 < rest.length := List.length_pos_iff.mpr nothing
      have positive : 0 < PIPE_BUF := by decide
      -- A long line may go byte by byte, a short one has to go at once.
      obtain ⟨n, possible⟩ : ∃ n, 0 < n ∧ n ≤ rest.length ∧ s.pipe.length + n ≤ room ∧
          (sent.length + rest.length ≤ PIPE_BUF → n = rest.length) := by
        rw [empty, List.length_nil]
        by_cases short : sent.length + rest.length ≤ PIPE_BUF
        · exact ⟨rest.length, length, Nat.le_refl _, by omega, fun _ => rfl⟩
        · exact ⟨1, Nat.one_pos, length, by omega, fun isShort => absurd isShort short⟩
      have step := blocked n
      rw [if_neg nothing, if_neg noReader, if_pos possible] at step
      exact Option.some_ne_none _ step

theorem atRest_of_settled
    (enough : PIPE_BUF ≤ room)
    (sound : s.Sound)
    (settled : Settled (act room) Action.Own s) :
    s.AtRest := by
  have noWrite := ne_write_of_settled enough sound settled
  constructor
  · exact noWrite
  · intro child
    obtain ⟨finished, all, texts⟩ := sound.prints child
    have nothing : (s.children child).held = [] := by
      cases point : s.children child with
      | print chunk => exact absurd point (ne_print_of_settled settled child chunk)
      | _ => rfl
    rw [nothing, List.append_nil] at all
    rw [texts, all]
  · rcases server_of_settled settled with ⟨here, nobody⟩ | ⟨i, child, here, reads⟩ | ended
    · refine .inl ⟨here, ?_⟩
      intro client
      rw [Bool.eq_false_iff]
      intro holds
      have arrived := sound.arrivals client holds
      rw [nobody] at arrived
      exact Bool.false_ne_true arrived
    · obtain ⟨empty, hasWriter⟩ := empty_of_settled settled reads
      obtain ⟨client, holds⟩ := of_decide_eq_true hasWriter
      refine .inr (.inl ⟨i, client, here, empty, ?_⟩)
      cases point : s.clients client with
      | getline => rfl
      | write sent rest => exact absurd point (noWrite client sent rest)
      | _ =>
          rw [point] at holds
          exact absurd holds Bool.false_ne_true
    · exact .inr (.inr ended)

end State

end Fifo
end LearnInLinux
