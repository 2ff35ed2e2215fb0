import LearnInLinux.Udp.RingChat
import Mathlib.Tactic

/-!
# The chat server and its destructor

`main` lets go of the server object as soon as `Start` has returned, and the destructor
destroys the mutex of the table of users before it joins the two threads, which never end.
The threads go on with a mutex that nobody can lock any more: `pthread_mutex_lock` and
`pthread_mutex_unlock` return `EINVAL`, and `LockGuard` does not look at it.

Here the destructor is a step of the main thread, and the table is locked, used entry by
entry and unlocked. Until the mutex is destroyed the server is the one of `Boardcast`, where
a use of the table is one step. Behind that an entry may be assigned in the middle of the
loop over the table, and then nothing is defined.
-/

namespace LearnInLinux
namespace Udp
namespace Destructor

open Boardcast (N Datagram Broadcast)
open RingChat (Party)

/-! ## The mutex -/

/-- What `_mutex` is. -/
inductive Mutex
  | free
  | owned (party : Party)
  | destroyed
  deriving DecidableEq

namespace Mutex

/-- `pthread_mutex_lock`: `none` while it waits. Its `EINVAL` is passed over. -/
def lock (party : Party) : Mutex → Option Mutex
  | .free => some (.owned party)
  | .owned _ => none
  | .destroyed => some .destroyed

/-- `pthread_mutex_unlock` -/
def unlock : Mutex → Mutex
  | .free => .free
  | .owned _ => .free
  | .destroyed => .destroyed

/-- `pthread_mutex_destroy`: a mutex that is locked stays as it is, with `EBUSY`. -/
def destroy : Mutex → Mutex
  | .free => .destroyed
  | .owned party => .owned party
  | .destroyed => .destroyed

/-- The thread that keeps the other one out. -/
def owner : Mutex → Option Party
  | .free => none
  | .owned party => some party
  | .destroyed => none

variable {mutex mutex' : Mutex} {party : Party}

/-- Only an owner keeps others out. -/
theorem owner_of_lock
    (initialized : mutex' ≠ .destroyed)
    (locked : mutex.lock party = some mutex') :
    mutex ≠ .destroyed ∧ mutex.owner = none ∧ mutex'.owner = some party := by
  cases mutex with
  | free =>
      obtain rfl := Option.some.inj locked
      exact ⟨Mutex.noConfusion, rfl, rfl⟩
  | owned other => exact absurd locked.symm (Option.some_ne_none mutex')
  | destroyed =>
      obtain rfl := Option.some.inj locked
      exact absurd rfl initialized

/-- An unlocked mutex is free. -/
theorem unlock_ne_destroyed (initialized : mutex.unlock ≠ .destroyed) :
    mutex ≠ .destroyed ∧ mutex.unlock.owner = none := by
  cases mutex with
  | free => exact ⟨Mutex.noConfusion, rfl⟩
  | owned other => exact ⟨Mutex.noConfusion, rfl⟩
  | destroyed => exact absurd rfl initialized

/-- A mutex that is still there was locked. -/
theorem destroy_ne_destroyed (initialized : mutex.destroy ≠ .destroyed) :
    mutex ≠ .destroyed ∧ mutex.destroy.owner = mutex.owner := by
  cases mutex with
  | free => exact absurd rfl initialized
  | owned other => exact ⟨Mutex.noConfusion, rfl⟩
  | destroyed => exact absurd rfl initialized

end Mutex

/-! ## The three threads -/

/-- Where the thread of `Recv` is. -/
inductive RecvAt
  | recvfrom
  /-- `LockGuard ls(&_mutex)` -/
  | lock (datagram : Datagram)
  /-- `_onlineuser[name] = peer` -/
  | assign (datagram : Datagram)
  /-- The end of the block of `ls`. -/
  | unlock (datagram : Datagram)
  /-- `_rq.push(message)` -/
  | push (message : Bytes)

/-- Where the thread of `Boardcast` is. -/
inductive CastAt
  /-- `_rq.pop(&sendstring)` -/
  | pop
  /-- `LockGuard lg(&_mutex)` -/
  | lock (sendstring : Bytes)
  /-- In front of the first entry of the table. -/
  | first (sendstring : Bytes)
  /-- In the loop over the table: `v`, and the entries that are still to come. -/
  | copy (sendstring : Bytes) (v rest : List Endpoint)
  /-- The end of the block of `lg`. -/
  | unlock (current : Broadcast) (v : List Endpoint)
  /-- In the loop over `v`, with the users that are still to come. -/
  | sendto (current : Broadcast) (v : List Endpoint)

/-- Where the main thread is, behind `Start`. -/
inductive MainAt
  /-- `pthread_mutex_destroy(&_mutex)` -/
  | destroy
  /-- In `_p->join()`, which does not return. -/
  | join

/-- The loop over the table is under way. -/
def CastAt.loops : CastAt → Bool
  | .copy _ _ _ => true
  | _ => false

/-- The server object with its threads, and what they have done so far. -/
structure State where
  onlineuser : Users
  mutex : Mutex
  rq : List Bytes
  recvAt : RecvAt
  castAt : CastAt
  mainAt : MainAt
  /-- The datagrams received so far. -/
  received : List Datagram
  /-- The turns of the sending thread that are over. -/
  finished : List Broadcast

/-- A server, or what becomes of it when a table is changed that is being walked. -/
inductive Outcome
  | running (s : State)
  | undefined

/-- A step of one of the threads. What `recvfrom` returns, where an error and an empty
datagram are `none`, and the order of the entries of the table are up to the
environment. -/
inductive Action
  | main
  | recvfrom (datagram : Option Datagram)
  | recv
  | first (order : List Endpoint)
  | boardcast

namespace State

/-- Behind `Start`: both threads run. -/
def create : State where
  onlineuser := []
  mutex := .free
  rq := []
  recvAt := .recvfrom
  castAt := .pop
  mainAt := .destroy
  received := []
  finished := []

/-- `~UdpServer` -/
def main (s : State) : Option State :=
  match s.mainAt with
  | .destroy => some { s with mutex := s.mutex.destroy, mainAt := .join }
  | .join => none

/-- `recvfrom` of the receiving thread. -/
def recvfrom (datagram : Option Datagram) (s : State) : Option State :=
  match s.recvAt with
  | .recvfrom =>
      match datagram with
      | none => some s
      | some datagram =>
          some { s with
            recvAt := .lock datagram
            received := s.received ++ [datagram] }
  | _ => none

/-- The next step of `Recv` behind `recvfrom`; `none` while it has to wait. -/
def recv (s : State) : Option Outcome :=
  match s.recvAt with
  | .recvfrom => none
  | .lock datagram =>
      match s.mutex.lock .recv with
      | none => none
      | some mutex => some (.running { s with mutex := mutex, recvAt := .assign datagram })
  | .assign datagram =>
      -- The loop of the other thread would read what is written here.
      if s.castAt.loops then some .undefined
      else
        some (.running { s with
          onlineuser := s.onlineuser.assign (key datagram.peer) datagram.peer
          recvAt := .unlock datagram })
  | .unlock datagram =>
      some (.running { s with mutex := s.mutex.unlock, recvAt := .push datagram.message })
  | .push message =>
      if s.rq.length < N then
        some (.running { s with rq := s.rq ++ [message], recvAt := .recvfrom })
      else none

/-- The step of `Boardcast` that meets the table. -/
def first (order : List Endpoint) (s : State) : Option State :=
  match s.castAt with
  | .first sendstring =>
      if order.Perm (s.onlineuser.map Prod.snd) then
        some { s with castAt := .copy sendstring [] order }
      else none
  | _ => none

/-- The next step of `Boardcast`, but for the one that meets the table. -/
def boardcast (s : State) : Option State :=
  match s.castAt with
  | .pop =>
      match s.rq with
      | [] => none
      | message :: rq => some { s with rq := rq, castAt := .lock message }
  | .lock sendstring =>
      match s.mutex.lock .boardcast with
      | none => none
      | some mutex => some { s with mutex := mutex, castAt := .first sendstring }
  | .first _ => none
  | .copy sendstring v (user :: rest) =>
      some { s with castAt := .copy sendstring (v ++ [user]) rest }
  | .copy sendstring v [] =>
      some { s with castAt := .unlock ⟨sendstring, s.received.length, []⟩ v }
  | .unlock current v =>
      some { s with mutex := s.mutex.unlock, castAt := .sendto current v }
  | .sendto current (e :: v) =>
      some { s with castAt := .sendto { current with sends := current.sends ++ [e] } v }
  | .sendto current [] =>
      some { s with castAt := .pop, finished := s.finished ++ [current] }

end State

/-- `none` while the step is not the next one of its thread, or has to wait. -/
def act (action : Action) : Outcome → Option Outcome
  | .undefined => none
  | .running s =>
      match action with
      | .main => s.main.map .running
      | .recvfrom datagram => (s.recvfrom datagram).map .running
      | .recv => s.recv
      | .first order => (s.first order).map .running
      | .boardcast => s.boardcast.map .running

/-- All interleavings of the three threads. -/
def machine : Transition.Machine Outcome :=
  .ofStep (fun outcome => outcome = .running State.create) act

/-! ## What a step of the server is -/

namespace State

/-- Everything that a step can do, but for the one behind which nothing is defined. -/
inductive Move (s : State) : State → Prop
  | destroy :
      Move s { s with mutex := s.mutex.destroy, mainAt := .join }
  | nothing :
      Move s s
  | recvfrom {datagram : Datagram}
      (here : s.recvAt = .recvfrom) :
      Move s { s with recvAt := .lock datagram, received := s.received ++ [datagram] }
  | lock {datagram : Datagram} {mutex : Mutex}
      (here : s.recvAt = .lock datagram)
      (locked : s.mutex.lock .recv = some mutex) :
      Move s { s with mutex := mutex, recvAt := .assign datagram }
  | assign {datagram : Datagram}
      (here : s.recvAt = .assign datagram)
      (apart : s.castAt.loops = false) :
      Move s { s with
        onlineuser := s.onlineuser.assign (key datagram.peer) datagram.peer
        recvAt := .unlock datagram }
  | unlock {datagram : Datagram}
      (here : s.recvAt = .unlock datagram) :
      Move s { s with mutex := s.mutex.unlock, recvAt := .push datagram.message }
  | push {message : Bytes}
      (here : s.recvAt = .push message)
      (room : s.rq.length < N) :
      Move s { s with rq := s.rq ++ [message], recvAt := .recvfrom }
  | pop {message : Bytes} {rq : List Bytes}
      (here : s.castAt = .pop)
      (queue : s.rq = message :: rq) :
      Move s { s with rq := rq, castAt := .lock message }
  | lockTable {sendstring : Bytes} {mutex : Mutex}
      (here : s.castAt = .lock sendstring)
      (locked : s.mutex.lock .boardcast = some mutex) :
      Move s { s with mutex := mutex, castAt := .first sendstring }
  | first {sendstring : Bytes} {order : List Endpoint}
      (here : s.castAt = .first sendstring)
      (listed : order.Perm (s.onlineuser.map Prod.snd)) :
      Move s { s with castAt := .copy sendstring [] order }
  | copy {sendstring : Bytes} {v rest : List Endpoint} {user : Endpoint}
      (here : s.castAt = .copy sendstring v (user :: rest)) :
      Move s { s with castAt := .copy sendstring (v ++ [user]) rest }
  | copied {sendstring : Bytes} {v : List Endpoint}
      (here : s.castAt = .copy sendstring v []) :
      Move s { s with castAt := .unlock ⟨sendstring, s.received.length, []⟩ v }
  | unlockTable {current : Broadcast} {v : List Endpoint}
      (here : s.castAt = .unlock current v) :
      Move s { s with mutex := s.mutex.unlock, castAt := .sendto current v }
  | sendto {current : Broadcast} {e : Endpoint} {v : List Endpoint}
      (here : s.castAt = .sendto current (e :: v)) :
      Move s { s with castAt := .sendto { current with sends := current.sends ++ [e] } v }
  | finish {current : Broadcast}
      (here : s.castAt = .sendto current []) :
      Move s { s with castAt := .pop, finished := s.finished ++ [current] }

/-- `Recv` is about to write into the table, and the loop of `Boardcast` reads it. -/
def Races (s : State) : Prop :=
  (∃ datagram, s.recvAt = .assign datagram) ∧ s.castAt.loops = true

variable {s s' : State}

/-- A step of the main thread. -/
theorem move_of_main (acted : s.main = some s') : s.Move s' := by
  rw [main] at acted
  split at acted
  · obtain rfl := Option.some.inj acted
    exact .destroy
  · exact absurd acted.symm (Option.some_ne_none s')

/-- A call of `recvfrom`. -/
theorem move_of_recvfrom
    {datagram : Option Datagram}
    (acted : s.recvfrom datagram = some s') :
    s.Move s' := by
  simp only [recvfrom] at acted
  split at acted
  · rename_i here
    split at acted
    · obtain rfl := Option.some.inj acted
      exact .nothing
    · obtain rfl := Option.some.inj acted
      exact .recvfrom here
  · exact absurd acted.symm (Option.some_ne_none s')

/-- The only step behind which nothing is defined is the second half of a race. -/
theorem move_of_recv
    {outcome : Outcome}
    (acted : s.recv = some outcome) :
    (∃ s', outcome = .running s' ∧ s.Move s') ∨ (outcome = .undefined ∧ s.Races) := by
  rw [recv] at acted
  split at acted
  · exact absurd acted.symm (Option.some_ne_none outcome)
  · rename_i here
    split at acted
    · exact absurd acted.symm (Option.some_ne_none outcome)
    · rename_i locked
      exact .inl ⟨_, (Option.some.inj acted).symm, .lock here locked⟩
  · rename_i datagram here
    split at acted
    · rename_i loops
      exact .inr ⟨(Option.some.inj acted).symm, ⟨datagram, here⟩, loops⟩
    · rename_i apart
      rw [Bool.not_eq_true] at apart
      exact .inl ⟨_, (Option.some.inj acted).symm, .assign here apart⟩
  · rename_i here
    exact .inl ⟨_, (Option.some.inj acted).symm, .unlock here⟩
  · rename_i here
    split at acted
    · rename_i room
      exact .inl ⟨_, (Option.some.inj acted).symm, .push here room⟩
    · exact absurd acted.symm (Option.some_ne_none outcome)

/-- The step of `Boardcast` that meets the table. -/
theorem move_of_first
    {order : List Endpoint}
    (acted : s.first order = some s') :
    s.Move s' := by
  rw [first] at acted
  split at acted
  · rename_i here
    split at acted
    · rename_i listed
      obtain rfl := Option.some.inj acted
      exact .first here listed
    · exact absurd acted.symm (Option.some_ne_none s')
  · exact absurd acted.symm (Option.some_ne_none s')

/-- Any other step of `Boardcast`. -/
theorem move_of_boardcast (acted : s.boardcast = some s') : s.Move s' := by
  rw [boardcast] at acted
  split at acted
  · rename_i here
    split at acted
    · exact absurd acted.symm (Option.some_ne_none s')
    · rename_i queue
      obtain rfl := Option.some.inj acted
      exact .pop here queue
  · rename_i here
    split at acted
    · exact absurd acted.symm (Option.some_ne_none s')
    · rename_i locked
      obtain rfl := Option.some.inj acted
      exact .lockTable here locked
  · exact absurd acted.symm (Option.some_ne_none s')
  · rename_i here
    obtain rfl := Option.some.inj acted
    exact .copy here
  · rename_i here
    obtain rfl := Option.some.inj acted
    exact .copied here
  · rename_i here
    obtain rfl := Option.some.inj acted
    exact .unlockTable here
  · rename_i here
    obtain rfl := Option.some.inj acted
    exact .sendto here
  · rename_i here
    obtain rfl := Option.some.inj acted
    exact .finish here

end State

/-- A step from a state is one of the moves, or the second half of a race. -/
theorem move_of_act
    {action : Action}
    {s : State}
    {outcome : Outcome}
    (acted : act action (.running s) = some outcome) :
    (∃ s', outcome = .running s' ∧ s.Move s') ∨ (outcome = .undefined ∧ s.Races) := by
  cases action with
  | main =>
      obtain ⟨s', moved, rfl⟩ := Option.map_eq_some_iff.mp acted
      exact .inl ⟨s', rfl, State.move_of_main moved⟩
  | recvfrom datagram =>
      obtain ⟨s', moved, rfl⟩ := Option.map_eq_some_iff.mp acted
      exact .inl ⟨s', rfl, State.move_of_recvfrom moved⟩
  | recv => exact State.move_of_recv acted
  | first order =>
      obtain ⟨s', moved, rfl⟩ := Option.map_eq_some_iff.mp acted
      exact .inl ⟨s', rfl, State.move_of_first moved⟩
  | boardcast =>
      obtain ⟨s', moved, rfl⟩ := Option.map_eq_some_iff.mp acted
      exact .inl ⟨s', rfl, State.move_of_boardcast moved⟩

/-! ## The invariant -/

/-- The thread is in its critical section of the table. -/
def RecvAt.holds : RecvAt → Bool
  | .assign _ => true
  | .unlock _ => true
  | _ => false

/-- The thread is in its critical section of the table. -/
def CastAt.holds : CastAt → Bool
  | .first _ => true
  | .copy _ _ _ => true
  | .unlock _ _ => true
  | _ => false

/-- The loop over the table is inside of the section. -/
theorem CastAt.holds_of_loops
    {castAt : CastAt}
    (loops : castAt.loops = true) :
    castAt.holds = true := by
  cases castAt with
  | copy sendstring v rest => rfl
  | _ => exact absurd loops Bool.false_ne_true

/-- What has been copied and what is still to come is the table. -/
def CastAt.Lists (users : List Endpoint) : CastAt → Prop
  | .copy _ v rest => (v ++ rest).Perm users
  | _ => True

/-- Outside of the loop the sending thread has no part of the table. -/
theorem CastAt.lists_of_not_loops
    {castAt : CastAt}
    (apart : castAt.loops = false)
    (users : List Endpoint) :
    castAt.Lists users := by
  cases castAt with
  | copy sendstring v rest => exact absurd apart.symm Bool.false_ne_true
  | _ => trivial

namespace State

/-- The critical section of the table, for both threads. -/
def holds (s : State) : Party → Bool
  | .recv => s.recvAt.holds
  | .boardcast => s.castAt.holds

/-- The mutex guards the table as long as it is one, and the loop walks the whole table. -/
structure InOrder (s : State) : Prop where
  guarded : s.mutex ≠ .destroyed → Threads.Guarded id s.mutex.owner s.holds
  lists : s.castAt.Lists (s.onlineuser.map Prod.snd)

variable {s s' : State}

/-- In the beginning both threads are outside of everything. -/
theorem inOrder_create : create.InOrder := by
  constructor
  · intro initialized party
    apply iff_of_false _ (Option.some_ne_none party).symm
    cases party with
    | recv => exact Bool.false_ne_true
    | boardcast => exact Bool.false_ne_true
  · trivial

theorem holds_recv
    {recvAt : RecvAt}
    (here : s.recvAt = recvAt) :
    s.holds .recv = recvAt.holds :=
  congrArg RecvAt.holds here

theorem holds_boardcast
    {castAt : CastAt}
    (here : s.castAt = castAt) :
    s.holds .boardcast = castAt.holds :=
  congrArg CastAt.holds here

/-- A step of `Recv` changes who is in the section by its own part. -/
theorem holds_of_recv (same : s'.castAt = s.castAt) :
    s'.holds = Function.update s.holds .recv s'.recvAt.holds := by
  funext party
  cases party with
  | recv => rfl
  | boardcast => exact congrArg CastAt.holds same

/-- So does a step of `Boardcast`. -/
theorem holds_of_boardcast (same : s'.recvAt = s.recvAt) :
    s'.holds = Function.update s.holds .boardcast s'.castAt.holds := by
  funext party
  cases party with
  | recv => exact congrArg RecvAt.holds same
  | boardcast => rfl

/-- A step of `Recv`. -/
theorem InOrder.recv_step
    (order : s.InOrder)
    (sameCast : s'.castAt = s.castAt)
    (guarded : s'.mutex ≠ .destroyed → s.mutex ≠ .destroyed ∧
      (Threads.Guarded id s.mutex.owner s.holds → Threads.Guarded id s'.mutex.owner
        (Function.update s.holds .recv s'.recvAt.holds)))
    (lists : s.castAt.Lists (s'.onlineuser.map Prod.snd)) :
    s'.InOrder := by
  constructor
  · intro initialized
    obtain ⟨before, keeps⟩ := guarded initialized
    rw [holds_of_recv sameCast]
    exact keeps (order.guarded before)
  · rw [sameCast]
    exact lists

/-- A step of `Boardcast`. -/
theorem InOrder.boardcast_step
    (order : s.InOrder)
    (sameRecv : s'.recvAt = s.recvAt)
    (guarded : s'.mutex ≠ .destroyed → s.mutex ≠ .destroyed ∧
      (Threads.Guarded id s.mutex.owner s.holds → Threads.Guarded id s'.mutex.owner
        (Function.update s.holds .boardcast s'.castAt.holds)))
    (lists : s'.castAt.Lists (s'.onlineuser.map Prod.snd)) :
    s'.InOrder := by
  constructor
  · intro initialized
    obtain ⟨before, keeps⟩ := guarded initialized
    rw [holds_of_boardcast sameRecv]
    exact keeps (order.guarded before)
  · exact lists

/-- A step that leaves the mutex alone, within a section or outside. -/
theorem guarded_move
    {party : Party}
    {inside : Bool}
    (same : s.holds party = inside) :
    s.mutex ≠ .destroyed → s.mutex ≠ .destroyed ∧
      (Threads.Guarded id s.mutex.owner s.holds → Threads.Guarded id s.mutex.owner
        (Function.update s.holds party inside)) :=
  fun initialized => ⟨initialized, fun guarded => guarded.move same rfl⟩

/-- Into the section: behind the lock, if it is one. -/
theorem guarded_lock
    {party : Party}
    {mutex : Mutex}
    (locked : s.mutex.lock party = some mutex)
    (initialized : mutex ≠ .destroyed) :
    s.mutex ≠ .destroyed ∧
      (Threads.Guarded id s.mutex.owner s.holds → Threads.Guarded id mutex.owner
        (Function.update s.holds party true)) := by
  obtain ⟨before, unlocked, owned⟩ := Mutex.owner_of_lock initialized locked
  refine ⟨before, fun guarded => ?_⟩
  rw [owned]
  exact guarded.lock unlocked rfl

/-- Out of the section. -/
theorem guarded_unlock
    {party : Party}
    (inside : s.holds party = true)
    (initialized : s.mutex.unlock ≠ .destroyed) :
    s.mutex ≠ .destroyed ∧
      (Threads.Guarded id s.mutex.owner s.holds → Threads.Guarded id s.mutex.unlock.owner
        (Function.update s.holds party false)) := by
  obtain ⟨before, unlocked⟩ := Mutex.unlock_ne_destroyed initialized
  refine ⟨before, fun guarded => ?_⟩
  rw [unlocked]
  exact guarded.unlock rfl inside rfl

/-- The destructor leaves a locked mutex to its owner. -/
theorem InOrder.destroy (order : s.InOrder) :
    ({ s with mutex := s.mutex.destroy, mainAt := .join } : State).InOrder := by
  constructor
  · intro initialized
    obtain ⟨before, same⟩ := Mutex.destroy_ne_destroyed initialized
    change Threads.Guarded id s.mutex.destroy.owner s.holds
    rw [same]
    exact order.guarded before
  · exact order.lists

/-- One step keeps the order: only the loop over the table, while it is under way, has a
share in it. -/
theorem InOrder.move
    (order : s.InOrder)
    (moved : s.Move s') :
    s'.InOrder := by
  cases moved with
  | destroy => exact order.destroy
  | nothing => exact order
  | recvfrom here =>
      exact order.recv_step rfl (guarded_move (holds_recv here)) order.lists
  | lock here locked => exact order.recv_step rfl (guarded_lock locked) order.lists
  | assign here apart =>
      exact order.recv_step rfl (guarded_move (holds_recv here))
        (CastAt.lists_of_not_loops apart _)
  | unlock here =>
      exact order.recv_step rfl (guarded_unlock (holds_recv here)) order.lists
  | push here room =>
      exact order.recv_step rfl (guarded_move (holds_recv here)) order.lists
  | pop here queue =>
      exact order.boardcast_step rfl (guarded_move (holds_boardcast here)) trivial
  | lockTable here locked => exact order.boardcast_step rfl (guarded_lock locked) trivial
  | first here listed =>
      exact order.boardcast_step rfl (guarded_move (holds_boardcast here)) listed
  | @copy sendstring v rest user here =>
      have lists := order.lists
      rw [here] at lists
      refine order.boardcast_step rfl (guarded_move (holds_boardcast here)) ?_
      change ((v ++ [user]) ++ rest).Perm _
      rw [List.append_assoc]
      exact lists
  | copied here =>
      exact order.boardcast_step rfl (guarded_move (holds_boardcast here)) trivial
  | unlockTable here =>
      exact order.boardcast_step rfl (guarded_unlock (holds_boardcast here)) trivial
  | sendto here =>
      exact order.boardcast_step rfl (guarded_move (holds_boardcast here)) trivial
  | finish here =>
      exact order.boardcast_step rfl (guarded_move (holds_boardcast here)) trivial

/-- A mutex that is not destroyed keeps the threads apart. -/
theorem InOrder.not_races
    (order : s.InOrder)
    (initialized : s.mutex ≠ .destroyed) :
    ¬ s.Races := by
  rintro ⟨⟨datagram, here⟩, loops⟩
  have guarded := order.guarded initialized
  have writes : s.holds .recv = true := holds_recv here
  have reads : s.holds .boardcast = true := CastAt.holds_of_loops loops
  exact absurd (guarded.unique writes reads) (by decide)

end State

/-! ## The server whose parts are one step each -/

/-- The sender counts as entered behind the assignment. -/
def RecvAt.view : RecvAt → Boardcast.RecvAt
  | .recvfrom => .recvfrom
  | .lock datagram => .addUser datagram
  | .assign datagram => .addUser datagram
  | .unlock datagram => .push datagram.message
  | .push message => .push message

/-- The table counts as copied behind its last entry. -/
def CastAt.view : CastAt → Boardcast.CastAt
  | .pop => .pop
  | .lock sendstring => .copy sendstring
  | .first sendstring => .copy sendstring
  | .copy sendstring _ _ => .copy sendstring
  | .unlock current v => .sendto current v
  | .sendto current v => .sendto current v

namespace State

/-- The server of `Boardcast` that a server stands for. -/
def view (s : State) : Boardcast.State where
  onlineuser := s.onlineuser
  rq := s.rq
  recvAt := s.recvAt.view
  castAt := s.castAt.view
  received := s.received
  finished := s.finished

/-- The server of `Boardcast` stays where it is, or takes a step itself. -/
def Follows (s s' : State) : Prop :=
  s'.view = s.view ∨ Boardcast.machine.step s.view s'.view

variable {s s' : State}

/-- Every move is a step of the other server, or not seen. -/
theorem InOrder.follows
    (order : s.InOrder)
    (moved : s.Move s') :
    s.Follows s' := by
  cases moved with
  | destroy => exact .inl rfl
  | nothing => exact .inl rfl
  | @recvfrom datagram here =>
      refine .inr ⟨.recvfrom (some datagram), ?_⟩
      simp only [view, Boardcast.State.act, here, RecvAt.view]
  | lock here locked =>
      refine .inl ?_
      rw [view, view, here]
      rfl
  | assign here apart =>
      refine .inr ⟨.addUser, ?_⟩
      simp only [view, Boardcast.State.act, here, RecvAt.view]
  | unlock here =>
      refine .inl ?_
      rw [view, view, here]
      rfl
  | push here room =>
      refine .inr ⟨.push, ?_⟩
      simp only [view, Boardcast.State.act, here, RecvAt.view]
      exact if_pos room
  | pop here queue =>
      refine .inr ⟨.pop, ?_⟩
      simp only [view, Boardcast.State.act, here, queue, CastAt.view]
  | lockTable here locked =>
      refine .inl ?_
      rw [view, view, here]
      rfl
  | first here listed =>
      refine .inl ?_
      rw [view, view, here]
      rfl
  | copy here =>
      refine .inl ?_
      rw [view, view, here]
      rfl
  | @copied sendstring v here =>
      -- Nothing has been written into the table since the loop began.
      have lists := order.lists
      rw [here, CastAt.Lists, List.append_nil] at lists
      refine .inr ⟨.copy v, ?_⟩
      simp only [view, Boardcast.State.act, here, CastAt.view]
      exact if_pos lists
  | unlockTable here =>
      refine .inl ?_
      rw [view, view, here]
      rfl
  | sendto here =>
      refine .inr ⟨.sendto, ?_⟩
      simp only [view, Boardcast.State.act, here, CastAt.view]
  | finish here =>
      refine .inr ⟨.sendto, ?_⟩
      simp only [view, Boardcast.State.act, here, CastAt.view]

end State

/-! ## The chat -/

namespace Outcome

/-- What a chat is for. Of a server behind a race nothing can be said. -/
def Delivers : Outcome → Prop
  | .running s => s.view.Delivers
  | .undefined => False

/-- The mutex of the table has not been destroyed. -/
def Initialized : Outcome → Prop
  | .running s => s.mutex ≠ .destroyed
  | .undefined => False

/-- The table is about to be written and is being read. -/
def Races : Outcome → Prop
  | .running s => s.Races
  | .undefined => False

/-- The invariant of a server for which everything is defined. -/
def InOrder : Outcome → Prop
  | .running s => s.InOrder ∧ Boardcast.machine.Reachable s.view
  | .undefined => True

variable {outcome outcome' : Outcome}

/-- Every step, but for the one behind which nothing is defined. -/
theorem InOrder.act
    {action : Action}
    (order : outcome.InOrder)
    (acted : act action outcome = some outcome') :
    outcome'.InOrder := by
  cases outcome with
  | undefined => exact absurd acted.symm (Option.some_ne_none outcome')
  | running s =>
      obtain ⟨inOrder, reached⟩ := order
      rcases move_of_act acted with ⟨s', rfl, moved⟩ | ⟨rfl, -⟩
      · refine ⟨inOrder.move moved, ?_⟩
        rcases inOrder.follows moved with same | step
        · rw [same]
          exact reached
        · exact reached.step step
      · trivial

end Outcome

/-- All interleavings of the three threads. -/
theorem inOrder : machine.Invariant Outcome.InOrder := by
  apply Transition.Machine.invariant_of_actions
  · rintro outcome rfl
    exact ⟨State.inOrder_create, .start rfl⟩
  · exact fun action outcome outcome' order acted => order.act acted

/-- A race is the only way out of what is defined. -/
theorem delivers_of_step
    {outcome outcome' : Outcome}
    (reached : machine.Reachable outcome)
    (moved : machine.step outcome outcome')
    (noRace : ¬ outcome.Races) :
    outcome'.Delivers := by
  have order := inOrder outcome' (reached.step moved)
  obtain ⟨action, acted⟩ := moved
  cases outcome with
  | undefined => exact absurd acted.symm (Option.some_ne_none outcome')
  | running s =>
      rcases move_of_act acted with ⟨s', rfl, -⟩ | ⟨-, races⟩
      · exact Boardcast.chat_delivers.1 s'.view order.2
      · exact absurd races noRace

/-- As long as no step is taken from a race, the chat is what it is for. -/
theorem delivers_of_restrict
    {allowed : Outcome → Outcome → Prop}
    (apart : ∀ outcome outcome', machine.Reachable outcome → allowed outcome outcome' →
      ¬ outcome.Races) :
    (machine.restrict allowed).Invariant Outcome.Delivers := by
  apply Transition.Machine.invariant_of_steps
  · rintro outcome rfl
    exact Boardcast.chat_delivers.1 Boardcast.State.create (.start rfl)
  · rintro outcome outcome' restricted - ⟨moved, isAllowed⟩
    have reached := Transition.Machine.reachable_of_restrict restricted
    exact delivers_of_step reached moved (apart outcome outcome' reached isAllowed)

/-- In no run do the threads race for a table with its mutex. -/
theorem not_races_of_initialized
    {outcome : Outcome}
    (reached : machine.Reachable outcome)
    (initialized : outcome.Initialized) :
    ¬ outcome.Races := by
  cases outcome with
  | undefined => exact absurd initialized id
  | running s => exact (inOrder _ reached).1.not_races initialized

/-- From a race one step more leads out of what is defined. -/
theorem step_of_races
    {outcome : Outcome}
    (races : outcome.Races) :
    machine.step outcome .undefined := by
  cases outcome with
  | undefined => exact absurd races id
  | running s =>
      obtain ⟨⟨datagram, here⟩, loops⟩ := races
      refine ⟨.recv, ?_⟩
      simp only [act, State.recv, here]
      exact if_pos loops

/-- As long as every step finds the mutex of the table as it was initialized, every message
goes once to everybody who has written up to it, in order, and different endpoints have
different entries in the table. Behind the destructor this lasts until a sender is entered
in the middle of the loop over the table, and no longer. -/
theorem chat_delivers_until_destroyed (outcome : Outcome) :
    ((machine.restrict fun before _ => before.Initialized).Reachable outcome →
        outcome.Delivers) ∧
      ((machine.restrict fun before _ => ¬ before.Races).Reachable outcome →
        outcome.Delivers) ∧
      (machine.Reachable outcome → outcome.Races →
        ∃ after, machine.step outcome after ∧ ¬ after.Delivers) ∧
      Function.Injective key := by
  refine ⟨?_, ?_, ?_, key_injective⟩
  · apply delivers_of_restrict
    exact fun before _ reached => not_races_of_initialized reached
  · apply delivers_of_restrict
    exact fun _ _ _ noRace => noRace
  · exact fun _ races => ⟨.undefined, step_of_races races, id⟩

/-! ## A datagram in the middle of a turn -/

/-- `a` from `10.0.0.1`. -/
def fromFirst : Datagram where
  peer := ⟨⟨10, 0, 0, 1⟩, 9001⟩
  chunk := ⟨[97], by decide, by decide⟩

/-- `b` from `10.0.0.2`. -/
def fromSecond : Datagram where
  peer := ⟨⟨10, 0, 0, 2⟩, 9002⟩
  chunk := ⟨[98], by decide, by decide⟩

/-- `main` is over when the first datagram comes; the second one comes while the table is
walked for the first. -/
def arrivalInTheLoop : List Action :=
  [.main, .recvfrom (some fromFirst), .recv, .recv, .recv, .recv, .boardcast, .boardcast,
    .first [fromFirst.peer], .recvfrom (some fromSecond), .recv, .recv]

/-- Two datagrams are enough: nobody waits for the loop over the table. -/
theorem arrival_in_the_loop :
    Transition.run act arrivalInTheLoop (.running .create) = some .undefined ∧
      ¬ machine.Invariant Outcome.Delivers := by
  have ran :
      Transition.run act arrivalInTheLoop (.running .create) = some .undefined := by
    rfl
  refine ⟨ran, fun delivers => ?_⟩
  exact delivers .undefined (Transition.reachable_of_run (.start rfl) ran)

end Destructor
end Udp
end LearnInLinux
