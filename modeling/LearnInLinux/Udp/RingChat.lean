import LearnInLinux.Pthread.RingCalls
import LearnInLinux.Udp.Boardcast
import Mathlib.Tactic

/-!
# The chat server over its ring queue

The chat server of a living server object once more, with its parts as they are built:
`push` and `pop` are the steps of the ring queue, and the table of users is locked, used
entry by entry and unlocked. What the two threads do in this way is a run of `Boardcast`,
in which a use of the table and a use of the queue is one step each.
-/

namespace LearnInLinux

/-! ## The two threads -/

namespace Udp
namespace RingChat

open Boardcast (N Datagram Broadcast)
open RingQueue (Stage)
open Threads (Point Call)

/-- A thread, by the function that it runs. -/
inductive Party
  | recv
  | boardcast
  deriving DecidableEq

instance : Fintype Party where
  elems := {.recv, .boardcast}
  complete party := by
    cases party with
    | recv => exact Finset.mem_insert_self _ _
    | boardcast => exact Finset.mem_insert_of_mem (Finset.mem_singleton_self _)

/-- Where the thread of `Recv` is. -/
inductive RecvAt
  | recvfrom
  /-- `LockGuard ls(&_mutex)` -/
  | lock (datagram : Datagram)
  /-- `_onlineuser[name] = peer` -/
  | assign (datagram : Datagram)
  /-- The end of the block of `ls`. -/
  | unlock (datagram : Datagram)
  /-- In front of `_rq.push(message)`. -/
  | call (message : Bytes)
  /-- In `_rq.push(message)`. -/
  | push (message : Bytes)

/-- Where the thread of `Boardcast` is. -/
inductive CastAt
  /-- In front of `_rq.pop(&sendstring)`. -/
  | call
  /-- In `_rq.pop(&sendstring)`. -/
  | pop (sendstring : Bytes)
  /-- `LockGuard lg(&_mutex)` -/
  | lock (sendstring : Bytes)
  /-- In front of the first entry of the table. -/
  | first (sendstring : Bytes)
  /-- In the loop over the table: `v`, and the entries that are still to come. -/
  | copy (sendstring : Bytes) (v rest : List Endpoint)
  /-- The end of the block of `lg`. -/
  | unlock (current : Broadcast) (v : List Endpoint)
  /-- In the loop over `v`, with the users that are still to come. -/
  | sendto (current : Broadcast) (v : List Endpoint)

/-- The server with its mutex and its ring queue, where its threads are, and what they have
done. -/
structure State where
  onlineuser : Users
  /-- The owner of `_mutex`. -/
  mutex : Option Party
  rq : RingQueue.State Party Bytes
  recvAt : RecvAt
  castAt : CastAt
  /-- The datagrams received so far. -/
  received : List Datagram
  /-- The turns of the sending thread that are over. -/
  finished : List Broadcast

/-- A step of one of the threads. What `recvfrom` returns, where an error and an empty
datagram are `none`, and the order of the entries of the table are up to the
environment. -/
inductive Action
  | recvfrom (datagram : Option Datagram)
  | recv
  | first (order : List Endpoint)
  | boardcast

/-- The place behind a step in `_rq.push(message)`. -/
def RecvAt.pushed (message : Bytes) : Point Bytes Stage → RecvAt
  | .idle => .recvfrom
  | .inside _ _ => .push message

/-- The place behind a step in `_rq.pop(&sendstring)`. -/
def CastAt.popped (sendstring : Bytes) : Point Bytes Stage → CastAt
  | .idle => .lock sendstring
  | .inside _ _ => .pop sendstring

namespace State

/-- In front of the first call of either thread, with what the slots hold. -/
def create (ring : Nat → Bytes) : State where
  onlineuser := []
  mutex := none
  rq := .create N ring
  recvAt := .recvfrom
  castAt := .call
  received := []
  finished := []

/-- `*out = _ring[_c_step]`, in front of the step that does it. -/
def out (sendstring : Bytes) (s : State) : Bytes :=
  match s.rq.pc .boardcast with
  | .inside .pop .access => s.rq.rq (s.rq.step .consumer)
  | _ => sendstring

/-- The next step of `Recv` behind `recvfrom`; `none` while it has to wait. -/
def recv (s : State) : Option State :=
  match s.recvAt with
  | .recvfrom => none
  | .lock datagram =>
      match s.mutex with
      | some _ => none
      | none => some { s with mutex := some .recv, recvAt := .assign datagram }
  | .assign datagram =>
      some { s with
        onlineuser := s.onlineuser.assign (key datagram.peer) datagram.peer
        recvAt := .unlock datagram }
  | .unlock datagram =>
      some { s with mutex := none, recvAt := .call datagram.message }
  | .call message =>
      match s.rq.act N (.call .recv (.push message)) with
      | none => none
      | some rq => some { s with rq := rq, recvAt := .push message }
  | .push message =>
      match s.rq.act N (.next .recv) with
      | none => none
      | some rq => some { s with rq := rq, recvAt := .pushed message (rq.pc .recv) }

/-- The next step of `Boardcast`, but for the one that meets the table. -/
def boardcast (s : State) : Option State :=
  match s.castAt with
  | .call =>
      match s.rq.act N (.call .boardcast .pop) with
      | none => none
      | some rq => some { s with rq := rq, castAt := .pop [] }
  | .pop sendstring =>
      match s.rq.act N (.next .boardcast) with
      | none => none
      | some rq =>
          some { s with
            rq := rq
            castAt := .popped (s.out sendstring) (rq.pc .boardcast) }
  | .lock sendstring =>
      match s.mutex with
      | some _ => none
      | none => some { s with mutex := some .boardcast, castAt := .first sendstring }
  | .first _ => none
  | .copy sendstring v (user :: rest) =>
      some { s with castAt := .copy sendstring (v ++ [user]) rest }
  | .copy sendstring v [] =>
      some { s with castAt := .unlock ⟨sendstring, s.received.length, []⟩ v }
  | .unlock current v => some { s with mutex := none, castAt := .sendto current v }
  | .sendto current (e :: v) =>
      some { s with castAt := .sendto { current with sends := current.sends ++ [e] } v }
  | .sendto current [] =>
      some { s with castAt := .call, finished := s.finished ++ [current] }

/-- `none` while the step is not the next one of its thread, or has to wait. -/
def act (action : Action) (s : State) : Option State :=
  match action with
  | .recvfrom datagram =>
      match s.recvAt with
      | .recvfrom =>
          match datagram with
          | none => some s
          | some datagram =>
              some { s with
                recvAt := .lock datagram
                received := s.received ++ [datagram] }
      | _ => none
  | .recv => s.recv
  | .first order =>
      match s.castAt with
      | .first sendstring =>
          if order.Perm (s.onlineuser.map Prod.snd) then
            some { s with castAt := .copy sendstring [] order }
          else none
      | _ => none
  | .boardcast => s.boardcast

end State

/-- All interleavings of the two threads, over a ring whose slots hold anything. -/
def machine : Transition.Machine State :=
  .ofStep (fun s => ∃ ring, s = State.create ring) State.act

/-! ## What a step of the server is -/

namespace State

/-- Everything that one action of the server's own can do. -/
inductive Move (s : State) : State → Prop
  | lock {datagram : Datagram}
      (here : s.recvAt = .lock datagram)
      (unlocked : s.mutex = none) :
      Move s { s with mutex := some .recv, recvAt := .assign datagram }
  | assign {datagram : Datagram}
      (here : s.recvAt = .assign datagram) :
      Move s { s with
        onlineuser := s.onlineuser.assign (key datagram.peer) datagram.peer
        recvAt := .unlock datagram }
  | unlock {datagram : Datagram}
      (here : s.recvAt = .unlock datagram) :
      Move s { s with mutex := none, recvAt := .call datagram.message }
  | callPush {message : Bytes} {rq : RingQueue.State Party Bytes}
      (here : s.recvAt = .call message)
      (acted : s.rq.act N (.call .recv (.push message)) = some rq) :
      Move s { s with rq := rq, recvAt := .push message }
  | push {message : Bytes} {rq : RingQueue.State Party Bytes}
      (here : s.recvAt = .push message)
      (acted : s.rq.act N (.next .recv) = some rq) :
      Move s { s with rq := rq, recvAt := .pushed message (rq.pc .recv) }
  | callPop {rq : RingQueue.State Party Bytes}
      (here : s.castAt = .call)
      (acted : s.rq.act N (.call .boardcast .pop) = some rq) :
      Move s { s with rq := rq, castAt := .pop [] }
  | pop {sendstring : Bytes} {rq : RingQueue.State Party Bytes}
      (here : s.castAt = .pop sendstring)
      (acted : s.rq.act N (.next .boardcast) = some rq) :
      Move s { s with
        rq := rq
        castAt := .popped (s.out sendstring) (rq.pc .boardcast) }
  | lockTable {sendstring : Bytes}
      (here : s.castAt = .lock sendstring)
      (unlocked : s.mutex = none) :
      Move s { s with mutex := some .boardcast, castAt := .first sendstring }
  | first {sendstring : Bytes} {order : List Endpoint}
      (here : s.castAt = .first sendstring)
      (listed : order.Perm (s.onlineuser.map Prod.snd)) :
      Move s { s with castAt := .copy sendstring [] order }
  | copy {sendstring : Bytes} {v rest : List Endpoint} {user : Endpoint}
      (here : s.castAt = .copy sendstring v (user :: rest)) :
      Move s { s with castAt := .copy sendstring (v ++ [user]) rest }
  | copied {sendstring : Bytes} {v : List Endpoint}
      (here : s.castAt = .copy sendstring v []) :
      Move s { s with castAt := .unlock ⟨sendstring, s.received.length, []⟩ v }
  | unlockTable {current : Broadcast} {v : List Endpoint}
      (here : s.castAt = .unlock current v) :
      Move s { s with mutex := none, castAt := .sendto current v }
  | sendto {current : Broadcast} {e : Endpoint} {v : List Endpoint}
      (here : s.castAt = .sendto current (e :: v)) :
      Move s { s with castAt := .sendto { current with sends := current.sends ++ [e] } v }
  | finish {current : Broadcast}
      (here : s.castAt = .sendto current []) :
      Move s { s with castAt := .call, finished := s.finished ++ [current] }

variable {s s' : State}

/-- A step of `Recv` is one of the moves. -/
theorem move_of_recv (acted : s.recv = some s') : s.Move s' := by
  rw [recv] at acted
  cases here : s.recvAt with
  | recvfrom =>
      simp only [here] at acted
      exact absurd acted.symm (Option.some_ne_none s')
  | lock datagram =>
      simp only [here] at acted
      split at acted
      · exact absurd acted.symm (Option.some_ne_none s')
      · rename_i unlocked
        obtain rfl := Option.some.inj acted
        exact .lock here unlocked
  | assign datagram =>
      simp only [here] at acted
      obtain rfl := Option.some.inj acted
      exact .assign here
  | unlock datagram =>
      simp only [here] at acted
      obtain rfl := Option.some.inj acted
      exact .unlock here
  | call message =>
      simp only [here] at acted
      split at acted
      · exact absurd acted.symm (Option.some_ne_none s')
      · rename_i called
        obtain rfl := Option.some.inj acted
        exact .callPush here called
  | push message =>
      simp only [here] at acted
      split at acted
      · exact absurd acted.symm (Option.some_ne_none s')
      · rename_i advanced
        obtain rfl := Option.some.inj acted
        exact .push here advanced

/-- A step of `Boardcast` is one of the moves. -/
theorem move_of_boardcast (acted : s.boardcast = some s') : s.Move s' := by
  rw [boardcast] at acted
  split at acted
  · rename_i here
    split at acted
    · exact absurd acted.symm (Option.some_ne_none s')
    · rename_i called
      obtain rfl := Option.some.inj acted
      exact .callPop here called
  · rename_i here
    split at acted
    · exact absurd acted.symm (Option.some_ne_none s')
    · rename_i advanced
      obtain rfl := Option.some.inj acted
      exact .pop here advanced
  · rename_i here
    split at acted
    · exact absurd acted.symm (Option.some_ne_none s')
    · rename_i unlocked
      obtain rfl := Option.some.inj acted
      exact .lockTable here unlocked
  · exact absurd acted.symm (Option.some_ne_none s')
  · rename_i here
    obtain rfl := Option.some.inj acted
    exact .copy here
  · rename_i here
    obtain rfl := Option.some.inj acted
    exact .copied here
  · rename_i here
    obtain rfl := Option.some.inj acted
    exact .unlockTable here
  · rename_i here
    obtain rfl := Option.some.inj acted
    exact .sendto here
  · rename_i here
    obtain rfl := Option.some.inj acted
    exact .finish here

/-- The step of `Boardcast` that meets the table is one of the moves. -/
theorem move_of_first
    {order : List Endpoint}
    (acted : s.act (.first order) = some s') :
    s.Move s' := by
  simp only [act] at acted
  split at acted
  · rename_i here
    split at acted
    · rename_i listed
      obtain rfl := Option.some.inj acted
      exact .first here listed
    · exact absurd acted.symm (Option.some_ne_none s')
  · exact absurd acted.symm (Option.some_ne_none s')

/-- What a datagram does, or the failure to receive one. -/
theorem received_of_act
    {datagram : Option Datagram}
    (acted : s.act (.recvfrom datagram) = some s') :
    s' = s ∨ s.recvAt = .recvfrom ∧ ∃ datagram,
      s' = { s with recvAt := .lock datagram, received := s.received ++ [datagram] } := by
  simp only [act] at acted
  split at acted
  · rename_i here
    cases datagram with
    | none => exact .inl (Option.some.inj acted).symm
    | some datagram => exact .inr ⟨here, datagram, (Option.some.inj acted).symm⟩
  · exact absurd acted.symm (Option.some_ne_none s')

end State

/-! ## The invariant -/

/-- The thread is in its critical section of the table. -/
def RecvAt.holds : RecvAt → Bool
  | .assign _ => true
  | .unlock _ => true
  | _ => false

/-- The sending thread is between `lock` and `unlock`. -/
def CastAt.holds : CastAt → Bool
  | .first _ => true
  | .copy _ _ _ => true
  | .unlock _ _ => true
  | _ => false

/-- The thread is in the ring queue exactly while it is in its call of `push`. -/
def RecvAt.Matches (point : Point Bytes Stage) : RecvAt → Prop
  | .push message => ∃ stage, point = .inside (.push message) stage
  | _ => point = .idle

/-- The sending thread is inside the queue exactly while it is in `pop`. -/
def CastAt.Matches (point : Point Bytes Stage) : CastAt → Prop
  | .pop _ => ∃ stage, point = .inside .pop stage
  | _ => point = .idle

/-- What has been copied and what is still to come is the table. -/
def CastAt.Lists (users : List Endpoint) : CastAt → Prop
  | .copy _ v rest => (v ++ rest).Perm users
  | _ => True

namespace State

/-- The critical section of the table, for both threads. -/
def holds (s : State) : Party → Bool
  | .recv => s.recvAt.holds
  | .boardcast => s.castAt.holds

/-- The queue, the mutex and the copy of the table are in order. -/
structure InOrder (s : State) : Prop where
  ring : s.rq.InOrder N
  recvMatches : s.recvAt.Matches (s.rq.pc .recv)
  castMatches : s.castAt.Matches (s.rq.pc .boardcast)
  guarded : Threads.Guarded id s.mutex s.holds
  lists : s.castAt.Lists (s.onlineuser.map Prod.snd)

variable {s s' : State}

/-- In the beginning both threads are outside of everything. -/
theorem inOrder_create (ring : Nat → Bytes) : (create ring).InOrder := by
  constructor
  · exact RingQueue.State.InOrder.create N ring
  · rfl
  · rfl
  · intro party
    apply iff_of_false _ (Option.some_ne_none party).symm
    cases party with
    | recv => exact Bool.false_ne_true
    | boardcast => exact Bool.false_ne_true
  · trivial

/-- A step of `Recv` changes who holds the mutex by its own part. -/
theorem holds_of_recv (same : s'.castAt = s.castAt) :
    s'.holds = Function.update s.holds .recv s'.recvAt.holds := by
  funext party
  cases party with
  | recv => rfl
  | boardcast => exact congrArg CastAt.holds same

/-- So does a step of `Boardcast`. -/
theorem holds_of_boardcast (same : s'.recvAt = s.recvAt) :
    s'.holds = Function.update s.holds .boardcast s'.castAt.holds := by
  funext party
  cases party with
  | recv => exact congrArg RecvAt.holds same
  | boardcast => rfl

end State

/-- Outside of its section the sending thread has no part of the table. -/
theorem CastAt.lists_of_not_holds
    {castAt : CastAt}
    (outside : castAt.holds = false)
    (users : List Endpoint) :
    castAt.Lists users := by
  cases castAt with
  | copy sendstring v rest => exact absurd outside.symm Bool.false_ne_true
  | _ => trivial

/-- Behind a step of `push` the receiving thread is where the queue has it. -/
theorem RecvAt.pushed_matches (message : Bytes) (stage : Stage) :
    (RecvAt.pushed message (stage.following (.push message))).Matches
      (stage.following (.push message)) := by
  cases stage with
  | post => rfl
  | _ => exact ⟨_, rfl⟩

/-- Behind a step of `pop` the sending thread is where the queue has it. -/
theorem CastAt.popped_matches (sendstring : Bytes) (stage : Stage) :
    (CastAt.popped sendstring (stage.following .pop)).Matches
      (stage.following .pop) := by
  cases stage with
  | post => rfl
  | _ => exact ⟨_, rfl⟩

/-- `push` is called outside of the section. -/
theorem RecvAt.holds_pushed (message : Bytes) (point : Point Bytes Stage) :
    (RecvAt.pushed message point).holds = false := by
  cases point <;> rfl

/-- `pop` is called outside of the section. -/
theorem CastAt.holds_popped (sendstring : Bytes) (point : Point Bytes Stage) :
    (CastAt.popped sendstring point).holds = false := by
  cases point <;> rfl

namespace State

variable {s s' : State}

/-- A step of `Recv`. -/
theorem InOrder.recv_step
    (order : s.InOrder)
    (sameCast : s'.castAt = s.castAt)
    (ring : s'.rq.InOrder N)
    (samePoint : s'.rq.pc .boardcast = s.rq.pc .boardcast)
    (matching : s'.recvAt.Matches (s'.rq.pc .recv))
    (guarded : Threads.Guarded id s'.mutex
      (Function.update s.holds .recv s'.recvAt.holds))
    (lists : s.castAt.Lists (s'.onlineuser.map Prod.snd)) :
    s'.InOrder := by
  constructor
  · exact ring
  · exact matching
  · rw [samePoint, sameCast]
    exact order.castMatches
  · rw [holds_of_recv sameCast]
    exact guarded
  · rw [sameCast]
    exact lists

/-- A step of `Boardcast`. -/
theorem InOrder.boardcast_step
    (order : s.InOrder)
    (sameTable : s'.onlineuser = s.onlineuser)
    (sameRecv : s'.recvAt = s.recvAt)
    (ring : s'.rq.InOrder N)
    (samePoint : s'.rq.pc .recv = s.rq.pc .recv)
    (matching : s'.castAt.Matches (s'.rq.pc .boardcast))
    (guarded : Threads.Guarded id s'.mutex
      (Function.update s.holds .boardcast s'.castAt.holds))
    (lists : s'.castAt.Lists (s.onlineuser.map Prod.snd)) :
    s'.InOrder := by
  constructor
  · exact ring
  · rw [samePoint, sameRecv]
    exact order.recvMatches
  · exact matching
  · rw [holds_of_boardcast sameRecv]
    exact guarded
  · rw [sameTable]
    exact lists

/-- While the table is changed, nobody copies it. -/
theorem InOrder.alone
    (order : s.InOrder)
    (isHeld : s.recvAt.holds = true) :
    s.castAt.holds = false := by
  rw [Bool.eq_false_iff]
  intro otherHeld
  have owned : s.mutex = some .recv := (order.guarded .recv).mp isHeld
  rw [(order.guarded .boardcast).mp otherHeld] at owned
  exact absurd (Option.some.inj owned) (by decide)

/-- The sender is entered while the receiving thread holds the mutex. -/
theorem InOrder.assign
    {datagram : Datagram}
    (order : s.InOrder)
    (here : s.recvAt = .assign datagram) :
    ({ s with
       onlineuser := s.onlineuser.assign (key datagram.peer) datagram.peer
       recvAt := .unlock datagram } : State).InOrder := by
  have isHeld : s.recvAt.holds = true := congrArg RecvAt.holds here
  have matching := order.recvMatches
  rw [here] at matching
  exact order.recv_step rfl order.ring rfl matching (order.guarded.move rfl isHeld.symm)
    (CastAt.lists_of_not_holds (order.alone isHeld) _)

/-- The receiving thread calls `push`. -/
theorem InOrder.callPush
    {message : Bytes}
    {rq : RingQueue.State Party Bytes}
    (order : s.InOrder)
    (here : s.recvAt = .call message)
    (acted : s.rq.act N (.call .recv (.push message)) = some rq) :
    ({ s with rq := rq, recvAt := .push message } : State).InOrder := by
  have ring := order.ring.move (RingQueue.State.move_of_act acted)
  have pc := RingQueue.State.pc_of_call acted
  refine order.recv_step rfl ring ?_ ?_ ?_ order.lists
  · rw [pc]
    exact Function.update_of_ne (by decide) _ _
  · rw [pc, Function.update_self]
    exact ⟨.wait, rfl⟩
  · exact order.guarded.move rfl (congrArg RecvAt.holds here).symm

/-- A step of the receiving thread inside `push`. -/
theorem InOrder.push
    {message : Bytes}
    {rq : RingQueue.State Party Bytes}
    (order : s.InOrder)
    (here : s.recvAt = .push message)
    (acted : s.rq.act N (.next .recv) = some rq) :
    ({ s with rq := rq, recvAt := .pushed message (rq.pc .recv) } : State).InOrder := by
  have ring := order.ring.move (RingQueue.State.move_of_act acted)
  have matching := order.recvMatches
  rw [here] at matching
  obtain ⟨stage, inside⟩ := matching
  have pc := RingQueue.State.pc_of_advance (RingQueue.State.act_next inside acted)
  refine order.recv_step rfl ring ?_ ?_ ?_ order.lists
  · rw [pc]
    exact Function.update_of_ne (by decide) _ _
  · rw [pc, Function.update_self]
    exact RecvAt.pushed_matches message stage
  · refine order.guarded.move rfl ?_
    exact (RecvAt.holds_pushed message _).trans (congrArg RecvAt.holds here).symm

/-- The sending thread calls `pop`. -/
theorem InOrder.callPop
    {rq : RingQueue.State Party Bytes}
    (order : s.InOrder)
    (here : s.castAt = .call)
    (acted : s.rq.act N (.call .boardcast .pop) = some rq) :
    ({ s with rq := rq, castAt := .pop [] } : State).InOrder := by
  have ring := order.ring.move (RingQueue.State.move_of_act acted)
  have pc := RingQueue.State.pc_of_call acted
  refine order.boardcast_step rfl rfl ring ?_ ?_ ?_ trivial
  · rw [pc]
    exact Function.update_of_ne (by decide) _ _
  · rw [pc, Function.update_self]
    exact ⟨.wait, rfl⟩
  · exact order.guarded.move rfl (congrArg CastAt.holds here).symm

/-- A step of the sending thread inside `pop`. -/
theorem InOrder.pop
    {sendstring : Bytes}
    {rq : RingQueue.State Party Bytes}
    (order : s.InOrder)
    (here : s.castAt = .pop sendstring)
    (acted : s.rq.act N (.next .boardcast) = some rq) :
    ({ s with
       rq := rq
       castAt := .popped (s.out sendstring) (rq.pc .boardcast) } : State).InOrder := by
  have ring := order.ring.move (RingQueue.State.move_of_act acted)
  have matching := order.castMatches
  rw [here] at matching
  obtain ⟨stage, inside⟩ := matching
  have pc := RingQueue.State.pc_of_advance (RingQueue.State.act_next inside acted)
  have outside := CastAt.holds_popped (s.out sendstring) (rq.pc .boardcast)
  refine order.boardcast_step rfl rfl ring ?_ ?_ ?_ ?_
  · rw [pc]
    exact Function.update_of_ne (by decide) _ _
  · rw [pc, Function.update_self]
    exact CastAt.popped_matches (s.out sendstring) stage
  · exact order.guarded.move rfl (outside.trans (congrArg CastAt.holds here).symm)
  · exact CastAt.lists_of_not_holds outside _

/-- Every move keeps the order. -/
theorem InOrder.move
    (order : s.InOrder)
    (moved : s.Move s') :
    s'.InOrder := by
  have recvMatches := order.recvMatches
  have castMatches := order.castMatches
  have lists := order.lists
  cases moved with
  | lock here unlocked =>
      rw [here] at recvMatches
      exact order.recv_step rfl order.ring rfl recvMatches
        (order.guarded.lock unlocked rfl) order.lists
  | assign here => exact order.assign here
  | unlock here =>
      rw [here] at recvMatches
      exact order.recv_step rfl order.ring rfl recvMatches
        (order.guarded.unlock rfl (congrArg RecvAt.holds here) rfl) order.lists
  | callPush here acted => exact order.callPush here acted
  | push here acted => exact order.push here acted
  | callPop here acted => exact order.callPop here acted
  | pop here acted => exact order.pop here acted
  | lockTable here unlocked =>
      rw [here] at castMatches
      exact order.boardcast_step rfl rfl order.ring rfl castMatches
        (order.guarded.lock unlocked rfl) trivial
  | first here listed =>
      rw [here] at castMatches
      exact order.boardcast_step rfl rfl order.ring rfl castMatches
        (order.guarded.move rfl (congrArg CastAt.holds here).symm) listed
  | @copy sendstring v rest user here =>
      rw [here] at castMatches lists
      refine order.boardcast_step rfl rfl order.ring rfl castMatches
        (order.guarded.move rfl (congrArg CastAt.holds here).symm) ?_
      change ((v ++ [user]) ++ rest).Perm _
      rw [List.append_assoc]
      exact lists
  | copied here =>
      rw [here] at castMatches
      exact order.boardcast_step rfl rfl order.ring rfl castMatches
        (order.guarded.move rfl (congrArg CastAt.holds here).symm) trivial
  | unlockTable here =>
      rw [here] at castMatches
      exact order.boardcast_step rfl rfl order.ring rfl castMatches
        (order.guarded.unlock rfl (congrArg CastAt.holds here) rfl) trivial
  | sendto here =>
      rw [here] at castMatches
      exact order.boardcast_step rfl rfl order.ring rfl castMatches
        (order.guarded.move rfl (congrArg CastAt.holds here).symm) trivial
  | finish here =>
      rw [here] at castMatches
      exact order.boardcast_step rfl rfl order.ring rfl castMatches
        (order.guarded.move rfl (congrArg CastAt.holds here).symm) trivial

/-- A datagram is received. -/
theorem InOrder.receive
    (order : s.InOrder)
    (here : s.recvAt = .recvfrom)
    (datagram : Datagram) :
    ({ s with recvAt := .lock datagram, received := s.received ++ [datagram] } :
      State).InOrder := by
  have recvMatches := order.recvMatches
  rw [here] at recvMatches
  exact order.recv_step rfl order.ring rfl recvMatches
    (order.guarded.move rfl (congrArg RecvAt.holds here).symm) order.lists

/-- Every step of either thread. -/
theorem InOrder.act
    {action : Action}
    (order : s.InOrder)
    (acted : s.act action = some s') :
    s'.InOrder := by
  cases action with
  | recvfrom datagram =>
      rcases received_of_act acted with rfl | ⟨here, datagram, rfl⟩
      · exact order
      · exact order.receive here datagram
  | recv => exact order.move (move_of_recv acted)
  | first listed => exact order.move (move_of_first acted)
  | boardcast => exact order.move (move_of_boardcast acted)

end State

/-- All interleavings of the two threads. -/
theorem inOrder : machine.Invariant State.InOrder := by
  apply Transition.Machine.invariant_of_actions
  · rintro s ⟨ring, rfl⟩
    exact State.inOrder_create ring
  · exact fun action s s' order acted => order.act acted

/-! ## The server with atomic parts -/

/-- Behind its access `push` has done what it is for. -/
def RecvAt.view (point : Point Bytes Stage) : RecvAt → Boardcast.RecvAt
  | .recvfrom => .recvfrom
  | .lock datagram => .addUser datagram
  | .assign datagram => .addUser datagram
  | .unlock datagram => .push datagram.message
  | .call message => .push message
  | .push message =>
      if point.at .producer Stage.accessed then .recvfrom else .push message

/-- The table counts as copied when its last entry has been. -/
def CastAt.view (point : Point Bytes Stage) : CastAt → Boardcast.CastAt
  | .call => .pop
  | .pop sendstring =>
      if point.at .consumer Stage.accessed then .copy sendstring else .pop
  | .lock sendstring => .copy sendstring
  | .first sendstring => .copy sendstring
  | .copy sendstring _ _ => .copy sendstring
  | .unlock current v => .sendto current v
  | .sendto current v => .sendto current v

/-- But for the access to the slot a step of `push` is not seen. -/
theorem RecvAt.view_pushed
    {stage : Stage}
    (message : Bytes)
    (elsewhere : stage ≠ .access) :
    (RecvAt.pushed message (stage.following (.push message))).view
        (stage.following (.push message)) =
      (RecvAt.push message).view (.inside (.push message) stage) := by
  cases stage with
  | access => exact absurd rfl elsewhere
  | _ => rfl

/-- But for the access to the slot a step of `pop` is not seen. -/
theorem CastAt.view_popped
    {stage : Stage}
    (sendstring : Bytes)
    (elsewhere : stage ≠ .access) :
    (CastAt.popped sendstring (stage.following .pop)).view (stage.following .pop) =
      (CastAt.pop sendstring).view (.inside .pop stage) := by
  cases stage with
  | access => exact absurd rfl elsewhere
  | _ => rfl

namespace State

/-- The server without the insides of its queue and of its critical sections. -/
def view (s : State) : Boardcast.State where
  onlineuser := s.onlineuser
  rq := s.rq.queued
  recvAt := s.recvAt.view (s.rq.pc .recv)
  castAt := s.castAt.view (s.rq.pc .boardcast)
  received := s.received
  finished := s.finished

/-- The server with atomic parts stays where it is, or takes a step itself. -/
def Follows (s s' : State) : Prop :=
  s'.view = s.view ∨ Boardcast.machine.step s.view s'.view

variable {s s' : State}

/-- Both servers begin alike. -/
theorem view_create (ring : Nat → Bytes) : (create ring).view = Boardcast.State.create :=
  rfl

theorem out_of_elsewhere
    {stage : Stage}
    (sendstring : Bytes)
    (inside : s.rq.pc .boardcast = .inside .pop stage)
    (elsewhere : stage ≠ .access) :
    s.out sendstring = sendstring := by
  rw [out, inside]
  cases stage with
  | access => exact absurd rfl elsewhere
  | _ => rfl

/-- But for the access to the slot a step leaves the queue as it is. -/
theorem queued_of_advance
    {thread : Party}
    {call : Call Bytes}
    {stage : Stage}
    {rq rq' : RingQueue.State Party Bytes}
    (acted : rq.advance N thread call stage = some rq')
    (elsewhere : stage ≠ .access) :
    rq'.queued = rq.queued := by
  obtain ⟨written, read⟩ := RingQueue.State.values_of_advance acted elsewhere
  rw [RingQueue.State.queued, RingQueue.State.queued, written, read]

/-- The access of `push` is the push of the other server. -/
theorem InOrder.follows_push
    {message : Bytes}
    {rq : RingQueue.State Party Bytes}
    (order : s.InOrder)
    (here : s.recvAt = .push message)
    (acted : s.rq.act N (.next .recv) = some rq) :
    s.Follows { s with rq := rq, recvAt := .pushed message (rq.pc .recv) } := by
  have matching := order.recvMatches
  rw [here] at matching
  obtain ⟨stage, inside⟩ := matching
  have advanced := RingQueue.State.act_next inside acted
  have pc := RingQueue.State.pc_of_advance advanced
  have own : rq.pc .recv = stage.following (.push message) := by
    rw [pc, Function.update_self]
  have other : rq.pc .boardcast = s.rq.pc .boardcast := by
    rw [pc]
    exact Function.update_of_ne (by decide) _ _
  by_cases isAccess : stage = .access
  · subst isAccess
    obtain ⟨room, queued⟩ := order.ring.queued_push inside advanced
    refine .inr ⟨.push, ?_⟩
    simp only [view, Boardcast.State.act, here, inside, own, other, queued]
    exact if_pos room
  · refine .inl ?_
    simp only [view, here, inside, own, other, queued_of_advance advanced isAccess,
      RecvAt.view_pushed message isAccess]

/-- The access of `pop` is the pop of the other server. -/
theorem InOrder.follows_pop
    {sendstring : Bytes}
    {rq : RingQueue.State Party Bytes}
    (order : s.InOrder)
    (here : s.castAt = .pop sendstring)
    (acted : s.rq.act N (.next .boardcast) = some rq) :
    s.Follows { s with
      rq := rq
      castAt := .popped (s.out sendstring) (rq.pc .boardcast) } := by
  have matching := order.castMatches
  rw [here] at matching
  obtain ⟨stage, inside⟩ := matching
  have advanced := RingQueue.State.act_next inside acted
  have pc := RingQueue.State.pc_of_advance advanced
  have own : rq.pc .boardcast = stage.following .pop := by
    rw [pc, Function.update_self]
  have other : rq.pc .recv = s.rq.pc .recv := by
    rw [pc]
    exact Function.update_of_ne (by decide) _ _
  by_cases isAccess : stage = .access
  · subst isAccess
    obtain ⟨queued, -, -⟩ := order.ring.queued_pop inside advanced
    have taken : s.out sendstring = s.rq.rq (s.rq.step .consumer) := by
      rw [out, inside]
    refine .inr ⟨.pop, ?_⟩
    simp only [view, Boardcast.State.act, here, inside, own, other, queued, taken]
    rfl
  · refine .inl ?_
    simp only [view, here, inside, own, other, queued_of_advance advanced isAccess,
      out_of_elsewhere sendstring inside isAccess, CastAt.view_popped sendstring isAccess]

/-- The call of `push` is not seen. -/
theorem follows_callPush
    {message : Bytes}
    {rq : RingQueue.State Party Bytes}
    (here : s.recvAt = .call message)
    (acted : s.rq.act N (.call .recv (.push message)) = some rq) :
    s.Follows { s with rq := rq, recvAt := .push message } := by
  obtain rfl := RingQueue.State.goto_of_call acted
  refine .inl ?_
  rw [view, view, here]
  rfl

/-- The call of `pop` is not seen. -/
theorem follows_callPop
    {rq : RingQueue.State Party Bytes}
    (here : s.castAt = .call)
    (acted : s.rq.act N (.call .boardcast .pop) = some rq) :
    s.Follows { s with rq := rq, castAt := .pop [] } := by
  obtain rfl := RingQueue.State.goto_of_call acted
  refine .inl ?_
  rw [view, view, here]
  rfl

/-- Every move is a step of the other server, or not seen. -/
theorem InOrder.follows_move
    (order : s.InOrder)
    (moved : s.Move s') :
    s.Follows s' := by
  cases moved with
  | lock here unlocked =>
      refine .inl ?_
      rw [view, view, here]
      rfl
  | assign here =>
      refine .inr ⟨.addUser, ?_⟩
      simp only [view, Boardcast.State.act, here, RecvAt.view]
  | unlock here =>
      refine .inl ?_
      rw [view, view, here]
      rfl
  | callPush here acted => exact follows_callPush here acted
  | push here acted => exact order.follows_push here acted
  | callPop here acted => exact follows_callPop here acted
  | pop here acted => exact order.follows_pop here acted
  | lockTable here unlocked =>
      refine .inl ?_
      rw [view, view, here]
      rfl
  | first here listed =>
      refine .inl ?_
      rw [view, view, here]
      rfl
  | copy here =>
      refine .inl ?_
      rw [view, view, here]
      rfl
  | @copied sendstring v here =>
      -- The mutex has kept the table as it was when the loop began.
      have lists := order.lists
      rw [here, CastAt.Lists, List.append_nil] at lists
      refine .inr ⟨.copy v, ?_⟩
      simp only [view, Boardcast.State.act, here, CastAt.view]
      exact if_pos lists
  | unlockTable here =>
      refine .inl ?_
      rw [view, view, here]
      rfl
  | sendto here =>
      refine .inr ⟨.sendto, ?_⟩
      simp only [view, Boardcast.State.act, here, CastAt.view]
  | finish here =>
      refine .inr ⟨.sendto, ?_⟩
      simp only [view, Boardcast.State.act, here, CastAt.view]

/-- Every step is a step of the other server, or not seen. -/
theorem InOrder.follows
    {action : Action}
    (order : s.InOrder)
    (acted : s.act action = some s') :
    s.Follows s' := by
  cases action with
  | recvfrom datagram =>
      rcases received_of_act acted with rfl | ⟨here, datagram, rfl⟩
      · exact .inl rfl
      · refine .inr ⟨.recvfrom (some datagram), ?_⟩
        simp only [view, Boardcast.State.act, here, RecvAt.view]
  | recv => exact order.follows_move (move_of_recv acted)
  | first listed => exact order.follows_move (move_of_first acted)
  | boardcast => exact order.follows_move (move_of_boardcast acted)

end State

/-- What the server does is what the server with atomic parts can do. -/
theorem reachable_view
    {s : State}
    (reached : machine.Reachable s) :
    Boardcast.machine.Reachable s.view := by
  refine Transition.Machine.Reachable.map ?_ ?_ reached
  · rintro s ⟨ring, rfl⟩
    exact State.view_create ring
  · rintro s s' before ⟨action, acted⟩
    exact (inOrder s before).follows acted

/-- What the parts of the server are to each other. -/
structure State.Refines (s : State) : Prop where
  /-- The server with atomic parts comes to the state that it stands for. -/
  simulated : Boardcast.machine.Reachable s.view
  /-- The ring is never too small. -/
  bounded : s.view.rq.length ≤ N
  /-- The table is not changed while it is copied. -/
  alone : s.recvAt.holds = true → s.castAt.holds = false
  whole : ∀ sendstring v rest, s.castAt = .copy sendstring v rest →
    (v ++ rest).Perm (s.onlineuser.map Prod.snd)

/-- However the steps of the two threads interleave, a call of the ring queue and a
critical section of the table work like one step each. -/
theorem chat_refines : machine.Invariant State.Refines := by
  intro s reached
  have order := inOrder s reached
  constructor
  · exact reachable_view reached
  · exact order.ring.length_queued_le
  · exact order.alone
  · intro sendstring v rest here
    have lists := order.lists
    rw [here] at lists
    exact lists

end RingChat
end Udp
end LearnInLinux
