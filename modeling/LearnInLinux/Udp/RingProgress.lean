import LearnInLinux.Udp.RingChat
import Mathlib.Tactic

/-!
# The chat server comes to rest

When no more datagrams come, the two threads go on for a bounded number of steps, and
then all messages have been sent to everybody who had to get them.
-/

namespace LearnInLinux

namespace Udp
namespace RingChat

open Boardcast (N Datagram Broadcast)
open RingQueue (Stage left left_following)
open Threads (Point Call)

/-- A step of the server's own: no thread receives. -/
def Action.Own : Action → Prop
  | .recvfrom _ => False
  | _ => True

/-! ## The rank -/

/-- Steps of `Recv` up to the next `recvfrom`. -/
def RecvAt.left (point : Point Bytes Stage) : RecvAt → Nat
  | .recvfrom => 0
  | .lock _ => 11
  | .assign _ => 10
  | .unlock _ => 9
  | .call _ => 8
  | .push _ => RingQueue.left point

/-- Steps of a turn of `Boardcast` behind its `pop`, when so many datagrams have been
received. -/
def turn (received : Nat) : Nat :=
  2 * received + 13

/-- Steps of `Boardcast` up to the access of its next `pop`, and a few more. -/
def CastAt.left (received : Nat) (point : Point Bytes Stage) : CastAt → Nat
  | .call => 8
  | .pop _ =>
      if point.at .consumer Stage.accessed then
        RingQueue.left point + turn received
      else RingQueue.left point
  | .lock _ => turn received
  | .first _ => 2 * received + 12
  | .copy _ v rest => v.length + 2 * rest.length + 11
  | .unlock _ v => v.length + 10
  | .sendto _ v => v.length + 9

namespace State

/-- Messages that have not been taken out of the ring. -/
def waiting (s : State) : Nat :=
  s.rq.queued.length + (s.recvAt.view (s.rq.pc .recv)).held.length

/-- Bound on the steps up to the next call of `recvfrom`. -/
def rank (s : State) : Nat :=
  s.recvAt.left (s.rq.pc .recv) + s.castAt.left s.received.length (s.rq.pc .boardcast) +
    s.waiting * turn s.received.length

variable {s s' : State}

/-- A step of `Recv` lowers the rank by what it lowers its own part. -/
theorem rank_lt_of_recv
    (sameCast : s'.castAt = s.castAt)
    (sameReceived : s'.received = s.received)
    (samePoint : s'.rq.pc .boardcast = s.rq.pc .boardcast)
    (sameWaiting : s'.waiting = s.waiting)
    (less : s'.recvAt.left (s'.rq.pc .recv) < s.recvAt.left (s.rq.pc .recv)) :
    s'.rank < s.rank := by
  rw [rank, rank, sameCast, sameReceived, samePoint, sameWaiting]
  omega

theorem rank_lt_of_boardcast
    (sameRecv : s'.recvAt = s.recvAt)
    (sameReceived : s'.received = s.received)
    (samePoint : s'.rq.pc .recv = s.rq.pc .recv)
    (sameQueue : s'.rq.queued = s.rq.queued)
    (less : s'.castAt.left s.received.length (s'.rq.pc .boardcast) <
      s.castAt.left s.received.length (s.rq.pc .boardcast)) :
    s'.rank < s.rank := by
  rw [rank, rank, waiting, waiting, sameRecv, sameReceived, samePoint, sameQueue]
  omega

theorem InOrder.rank_push
    {message : Bytes}
    {rq : RingQueue.State Party Bytes}
    (order : s.InOrder)
    (here : s.recvAt = .push message)
    (acted : s.rq.act N (.next .recv) = some rq) :
    ({ s with rq := rq, recvAt := .pushed message (rq.pc .recv) } : State).rank <
      s.rank := by
  have matching := order.recvMatches
  rw [here] at matching
  obtain ⟨stage, inside⟩ := matching
  have advanced := RingQueue.State.act_next inside acted
  have pc := RingQueue.State.pc_of_advance advanced
  have own : rq.pc .recv = stage.following (.push message) := by
    rw [pc, Function.update_self]
  refine rank_lt_of_recv rfl rfl ?_ ?_ ?_
  · rw [pc]
    exact Function.update_of_ne (by decide) _ _
  · by_cases isAccess : stage = .access
    · subst isAccess
      obtain ⟨-, queued⟩ := order.ring.queued_push inside advanced
      simp only [waiting, here, own, inside, queued, List.length_append,
        List.length_singleton]
      rfl
    · simp only [waiting, here, own, inside, queued_of_advance advanced isAccess,
        RecvAt.view_pushed message isAccess]
  · simp only [here, own, inside, RecvAt.left]
    have less := left_following (.push message) stage
    cases stage <;> exact Nat.lt_of_succ_le (Nat.le_of_eq less)

/-- The access of `pop` pays for the turn that follows it. -/
theorem InOrder.rank_pop
    {sendstring : Bytes}
    {rq : RingQueue.State Party Bytes}
    (order : s.InOrder)
    (here : s.castAt = .pop sendstring)
    (acted : s.rq.act N (.next .boardcast) = some rq) :
    ({ s with
       rq := rq
       castAt := .popped (s.out sendstring) (rq.pc .boardcast) } : State).rank <
      s.rank := by
  have matching := order.castMatches
  rw [here] at matching
  obtain ⟨stage, inside⟩ := matching
  have advanced := RingQueue.State.act_next inside acted
  have pc := RingQueue.State.pc_of_advance advanced
  have own : rq.pc .boardcast = stage.following .pop := by
    rw [pc, Function.update_self]
  have other : rq.pc .recv = s.rq.pc .recv := by
    rw [pc]
    exact Function.update_of_ne (by decide) _ _
  by_cases isAccess : stage = .access
  · subst isAccess
    obtain ⟨queued, -, -⟩ := order.ring.queued_pop inside advanced
    have before : s.waiting =
        rq.queued.length + (s.recvAt.view (s.rq.pc .recv)).held.length + 1 := by
      rw [waiting, queued, List.length_cons]
      omega
    rw [rank, rank, before, Nat.add_mul, Nat.one_mul]
    simp only [waiting, here, own, other, inside]
    change _ + (4 + turn s.received.length) + _ < _ + 5 + _
    omega
  · refine rank_lt_of_boardcast rfl rfl other ?_ ?_
    · exact queued_of_advance advanced isAccess
    · simp only [here, own, inside]
      cases stage with
      | access => exact absurd rfl isAccess
      | wait => exact Nat.lt_add_one 6
      | lock => exact Nat.lt_add_one 5
      | post => exact Nat.lt_add_of_pos_left Nat.one_pos
      | _ => exact Nat.add_lt_add_right (by decide) _

theorem InOrder.rank_lt
    (order : s.InOrder)
    (known : s.onlineuser.length ≤ s.received.length)
    (moved : s.Move s') :
    s'.rank < s.rank := by
  cases moved with
  | lock here unlocked =>
      refine rank_lt_of_recv rfl rfl rfl ?_ ?_
      · rw [waiting, waiting, here]
        rfl
      · rw [here]
        exact Nat.lt_add_one 10
  | assign here =>
      refine rank_lt_of_recv rfl rfl rfl ?_ ?_
      · rw [waiting, waiting, here]
        rfl
      · rw [here]
        exact Nat.lt_add_one 9
  | unlock here =>
      refine rank_lt_of_recv rfl rfl rfl ?_ ?_
      · rw [waiting, waiting, here]
        rfl
      · rw [here]
        exact Nat.lt_add_one 8
  | callPush here acted =>
      obtain rfl := RingQueue.State.goto_of_call acted
      refine rank_lt_of_recv rfl rfl rfl ?_ ?_
      · rw [waiting, waiting, here]
        rfl
      · rw [here]
        exact Nat.lt_add_one 7
  | push here acted => exact order.rank_push here acted
  | callPop here acted =>
      obtain rfl := RingQueue.State.goto_of_call acted
      refine rank_lt_of_boardcast rfl rfl rfl rfl ?_
      rw [here]
      exact Nat.lt_add_one 7
  | pop here acted => exact order.rank_pop here acted
  | lockTable here unlocked =>
      refine rank_lt_of_boardcast rfl rfl rfl rfl ?_
      simp only [here, CastAt.left, turn]
      omega
  | first here listed =>
      have length := listed.length_eq
      rw [List.length_map] at length
      refine rank_lt_of_boardcast rfl rfl rfl rfl ?_
      simp only [here, CastAt.left, List.length_nil]
      omega
  | copy here =>
      refine rank_lt_of_boardcast rfl rfl rfl rfl ?_
      simp only [here, CastAt.left, List.length_append, List.length_cons, List.length_nil]
      omega
  | copied here =>
      refine rank_lt_of_boardcast rfl rfl rfl rfl ?_
      simp only [here, CastAt.left, List.length_nil]
      omega
  | unlockTable here =>
      refine rank_lt_of_boardcast rfl rfl rfl rfl ?_
      simp only [here, CastAt.left]
      omega
  | sendto here =>
      refine rank_lt_of_boardcast rfl rfl rfl rfl ?_
      simp only [here, CastAt.left, List.length_cons]
      omega
  | finish here =>
      refine rank_lt_of_boardcast rfl rfl rfl rfl ?_
      simp only [here, CastAt.left, List.length_nil]
      omega

theorem move_of_own
    {action : Action}
    (own : action.Own)
    (acted : s.act action = some s') :
    s.Move s' := by
  cases action with
  | recvfrom datagram => exact absurd own not_false
  | recv => exact move_of_recv acted
  | first listed => exact move_of_first acted
  | boardcast => exact move_of_boardcast acted

end State

/-- Everybody in the table has sent a datagram. -/
theorem length_onlineuser_le
    {s : State}
    (reached : machine.Reachable s) :
    s.onlineuser.length ≤ s.received.length := by
  have order := Boardcast.inOrder s.view (reachable_view reached)
  obtain ⟨added, received, entered⟩ := order.entered
  have users : s.onlineuser.map Prod.snd ⊆ added.map Datagram.peer :=
    fun e present => (entered e).mp present
  have few := (order.distinct.endpoints.subperm users).length_le
  have total : s.received.length = added.length + s.view.recvAt.pending.length := by
    rw [← List.length_append]
    exact congrArg List.length received
  rw [List.length_map, List.length_map] at few
  change s.onlineuser.length ≤ added.length at few
  omega

theorem ranked :
    Transition.Ranked State.act Action.Own machine.Reachable State.rank := by
  constructor
  · exact fun action s s' reached acted => reached.step ⟨action, acted⟩
  · intro action s s' own reached acted
    exact (inOrder s reached).rank_lt (length_onlineuser_le reached)
      (State.move_of_own own acted)

/-! ## Rest -/

namespace State

variable {s s' : State}

/-- Where `Recv` has to wait. -/
theorem recv_blocked
    (order : s.InOrder)
    (blocked : s.recv = none) :
    s.recvAt = .recvfrom ∨ (∃ datagram, s.recvAt = .lock datagram ∧ s.mutex ≠ none) ∨
      ∃ message, s.recvAt = .push message ∧ s.rq.act N (.next .recv) = none := by
  have matching := order.recvMatches
  rw [recv] at blocked
  cases here : s.recvAt with
  | recvfrom => exact .inl rfl
  | lock datagram =>
      simp only [here] at blocked
      refine .inr (.inl ⟨datagram, rfl, ?_⟩)
      intro unlocked
      rw [unlocked] at blocked
      exact Option.some_ne_none _ blocked
  | call message =>
      rw [here] at matching
      have idle : s.rq.pc .recv = .idle := matching
      simp only [here, RingQueue.State.act, idle] at blocked
      exact absurd blocked (Option.some_ne_none _)
  | push message =>
      simp only [here] at blocked
      refine .inr (.inr ⟨message, rfl, ?_⟩)
      split at blocked
      · rename_i waits
        exact waits
      · exact absurd blocked (Option.some_ne_none _)
  | _ =>
      simp only [here] at blocked
      exact absurd blocked (Option.some_ne_none _)

/-- Where `Boardcast` has to wait. -/
theorem boardcast_blocked
    (order : s.InOrder)
    (blocked : s.boardcast = none)
    (noFirst : ∀ listed, s.act (.first listed) = none) :
    (∃ sendstring, s.castAt = .lock sendstring ∧ s.mutex ≠ none) ∨
      ∃ sendstring, s.castAt = .pop sendstring ∧ s.rq.act N (.next .boardcast) = none := by
  have matching := order.castMatches
  rw [boardcast] at blocked
  cases here : s.castAt with
  | call =>
      rw [here] at matching
      have idle : s.rq.pc .boardcast = .idle := matching
      simp only [here, RingQueue.State.act, idle] at blocked
      exact absurd blocked (Option.some_ne_none _)
  | pop sendstring =>
      simp only [here] at blocked
      refine .inr ⟨sendstring, rfl, ?_⟩
      split at blocked
      · rename_i waits
        exact waits
      · exact absurd blocked (Option.some_ne_none _)
  | lock sendstring =>
      simp only [here] at blocked
      refine .inl ⟨sendstring, rfl, ?_⟩
      intro unlocked
      rw [unlocked] at blocked
      exact Option.some_ne_none _ blocked
  | first sendstring =>
      have possible := noFirst (s.onlineuser.map Prod.snd)
      simp only [act, here] at possible
      rw [if_pos (List.Perm.refl _)] at possible
      exact absurd possible (Option.some_ne_none _)
  | copy sendstring v rest =>
      cases rest with
      | nil =>
          simp only [here] at blocked
          exact absurd blocked (Option.some_ne_none _)
      | cons user rest =>
          simp only [here] at blocked
          exact absurd blocked (Option.some_ne_none _)
  | unlock current v =>
      simp only [here] at blocked
      exact absurd blocked (Option.some_ne_none _)
  | sendto current v =>
      cases v with
      | nil =>
          simp only [here] at blocked
          exact absurd blocked (Option.some_ne_none _)
      | cons e v =>
          simp only [here] at blocked
          exact absurd blocked (Option.some_ne_none _)

/-- Everything that has been received has been sent to everybody heard of up to it. -/
structure AllSent (s : State) : Prop where
  receiving : s.recvAt = .recvfrom
  texts : s.finished.map Broadcast.text = s.received.map Datagram.message
  everybody : ∀ (number : Nat) (broadcast : Broadcast),
    s.finished[number]? = some broadcast → broadcast.sends.Nodup ∧
      ∀ datagram ∈ s.received.take (number + 1), datagram.peer ∈ broadcast.sends

/-- At rest nobody has the mutex of the table: its owner could go on. -/
theorem InOrder.unlocked_of_settled
    (order : s.InOrder)
    (settled : Transition.Settled State.act Action.Own s) :
    s.mutex = none := by
  rw [Option.eq_none_iff_forall_ne_some]
  intro owner owned
  have isHeld := (order.guarded owner).mpr owned
  cases owner with
  | recv =>
      change s.recvAt.holds = true at isHeld
      rcases recv_blocked order (settled .recv trivial) with
        here | ⟨datagram, here, -⟩ | ⟨message, here, -⟩
      all_goals
        rw [here] at isHeld
        exact Bool.false_ne_true isHeld
  | boardcast =>
      change s.castAt.holds = true at isHeld
      rcases boardcast_blocked order (settled .boardcast trivial)
        (fun listed => settled (.first listed) trivial) with
        ⟨sendstring, here, -⟩ | ⟨sendstring, here, -⟩
      all_goals
        rw [here] at isHeld
        exact Bool.false_ne_true isHeld

/-- At rest `Recv` is in front of `recvfrom`, and `Boardcast` waits for a message where
there is none. -/
theorem InOrder.empty_of_settled
    (order : s.InOrder)
    (settled : Transition.Settled State.act Action.Own s) :
    s.recvAt = .recvfrom ∧ s.rq.queued = [] ∧
      s.castAt.view (s.rq.pc .boardcast) = .pop := by
  have unlocked := order.unlocked_of_settled settled
  obtain ⟨sendstring, popping, popBlocked⟩ :
      ∃ sendstring, s.castAt = .pop sendstring ∧
        s.rq.act N (.next .boardcast) = none := by
    rcases boardcast_blocked order (settled .boardcast trivial)
      (fun listed => settled (.first listed) trivial) with ⟨-, -, owned⟩ | popping
    · exact absurd unlocked owned
    · exact popping
  have castMatches := order.castMatches
  rw [popping] at castMatches
  obtain ⟨stage, inside⟩ := castMatches
  have consuming : s.rq.Inside .consumer := ⟨.boardcast, .pop, stage, inside, rfl⟩
  have stuck (pushBlocked : s.rq.act N (.next .recv) = none) : ¬ s.rq.Progresses N := by
    rintro ⟨thread, call, stage, -, rq, acted⟩
    cases thread with
    | recv =>
        rw [pushBlocked] at acted
        exact Option.some_ne_none rq acted.symm
    | boardcast =>
        rw [popBlocked] at acted
        exact Option.some_ne_none rq acted.symm
  have recvMatches := order.recvMatches
  have receiving : s.recvAt = .recvfrom := by
    rcases recv_blocked order (settled .recv trivial) with
      here | ⟨datagram, -, owned⟩ | ⟨message, here, pushBlocked⟩
    · exact here
    · exact absurd unlocked owned
    · rw [here] at recvMatches
      obtain ⟨other, alsoInside⟩ := recvMatches
      have producing : s.rq.Inside .producer := ⟨.recv, .push message, other, alsoInside, rfl⟩
      exact absurd (order.ring.progresses (by decide) producing consuming)
        (stuck pushBlocked)
  rw [receiving] at recvMatches
  have idle : s.rq.pc .recv = .idle := recvMatches
  have standstill : ¬ s.rq.Progresses N := by
    apply stuck
    rw [RingQueue.State.act, idle]
  obtain ⟨rfl, -⟩ := order.ring.waits_of_not_progresses standstill inside
  have noneLeft : s.rq.written.length = s.rq.read.length :=
    order.ring.granted_of_not_progresses standstill consuming
  refine ⟨receiving, ?_, ?_⟩
  · rw [RingQueue.State.queued, ← noneLeft, List.drop_length]
  · rw [popping, inside]
    rfl

end State

theorem allSent_of_settled
    {s : State}
    (reached : machine.Reachable s)
    (settled : Transition.Settled State.act Action.Own s) :
    s.AllSent := by
  obtain ⟨receiving, queue, popping⟩ := (inOrder s reached).empty_of_settled settled
  have order := Boardcast.inOrder s.view (reachable_view reached)
  constructor
  · exact receiving
  · have fifo := order.fifo
    simp only [State.view, receiving, queue, popping, Boardcast.CastAt.held,
      Boardcast.RecvAt.held, RecvAt.view, List.append_nil] at fifo
    exact fifo
  · intro number broadcast present
    have addressed := order.finished number broadcast present
    exact ⟨addressed.once, addressed.everybody⟩

theorem received_of_own
    {action : Action}
    {s s' : State}
    (own : action.Own)
    (acted : s.act action = some s') :
    s'.received = s.received := by
  cases State.move_of_own own acted <;> rfl

theorem received_of_run
    {actions : List Action}
    {s t : State}
    (own : ∀ action ∈ actions, action.Own)
    (ran : Transition.run State.act actions s = some t) :
    t.received = s.received := by
  induction actions generalizing s with
  | nil =>
      obtain rfl := Option.some.inj ran
      rfl
  | cons action actions inductionHypothesis =>
      obtain ⟨next, acted, others⟩ := Option.bind_eq_some_iff.mp ran
      rw [inductionHypothesis (fun other present => own other (List.mem_cons_of_mem _ present))
        others]
      exact received_of_own (own action List.mem_cons_self) acted

/-- When no more datagrams come, the server comes to rest after a bounded number of
steps, in whatever order its threads take them, and has then sent every message to
everybody who was to get it. -/
theorem chat_settles :
    machine.Invariant fun s =>
      (∃ actions t, (∀ action ∈ actions, action.Own) ∧
        Transition.run State.act actions s = some t ∧
        Transition.Settled State.act Action.Own t) ∧
      ∀ actions t, (∀ action ∈ actions, action.Own) →
        Transition.run State.act actions s = some t →
        actions.length ≤ s.rank ∧ t.received = s.received ∧
        (Transition.Settled State.act Action.Own t → t.AllSent) := by
  intro s reached
  refine ⟨ranked.exists_settled reached, ?_⟩
  intro actions t own ran
  have bound := ranked.length_add_rank_le reached own ran
  refine ⟨by omega, received_of_run own ran, ?_⟩
  exact allSent_of_settled (Transition.reachable_of_run reached ran)

end RingChat
end Udp
end LearnInLinux
