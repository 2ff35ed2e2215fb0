import LearnInLinux.Multiplex.Slots
import Mathlib.Data.Int.Order.Basic

/-!
# The server around `poll`

An array of `struct pollfd`, which is passed to `poll` as it is: `fd` and `events` say
what to look for, and `revents` is what `poll` has found. The pass over the array reads
`revents` and leaves them behind, also in the slots that it frees.
-/

namespace LearnInLinux
namespace Multiplex
namespace PollServer

open Slots (search search_free_cases slot slot_eq_some_iff slot_eq_none_iff slot_update
  slot_free)

/-- `POLLIN`, the only event that the server asks for. -/
def POLLIN : BitVec 16 := 1

/-- Number of slots of the array. -/
def nfds : Nat := 100

/-- The timeout of `poll`, in milliseconds. -/
def timeout : Int := 1000

/-- `struct pollfd` -/
structure PollFd where
  fd : Fd
  events : BitVec 16
  revents : BitVec 16

/-- `poll(fds, nfds, timeout)` returns a number and leaves `revents`. -/
abbrev Poll :=
  (fds : Nat → PollFd) → (nfds : Nat) → (timeout : Int) → (n : Int) →
    (revents : Nat → BitVec 16) → Prop

/-- Where the server is. -/
inductive Point
  | waiting
  /-- In front of slot `i` of `HandlerEvent`. -/
  | handling (i : Nat)

/-- The array of the server, the descriptors of the process and the history of the run. -/
structure State where
  fds : Nat → PollFd
  kernel : Kernel
  point : Point
  history : List Event

namespace State

/-- Behind the constructor. -/
def create (listensock : Fd) (kernel : Kernel) : State where
  fds := Function.update (fun _ => ⟨FD_NONE, 0, 0⟩) 0 ⟨listensock, POLLIN, 0⟩
  kernel := kernel
  point := .waiting
  history := []

/-- The server goes to another point. -/
def goto (point : Point) (s : State) : State :=
  { s with point := point }

/-- A note of a call. -/
def log (event : Event) (s : State) : State :=
  { s with history := event :: s.history }

/-- `close(fd)` -/
def close (fd : Fd) (s : State) : State :=
  { s with
    kernel := s.kernel.close fd
    history := .close fd (s.kernel.socket fd) :: s.history }

/-- `accept` has returned a new descriptor. -/
def opened (sock : Fd) (s : State) : State :=
  { s with
    kernel := s.kernel.accept sock
    history := .accepted sock s.kernel.accepted :: s.history }

/-- The fields of a slot that the server writes. -/
def set (pos : Nat) (fd : Fd) (events : BitVec 16) (s : State) : State :=
  { s with
    fds := Function.update s.fds pos { s.fds pos with fd := fd, events := events } }

/-- `none` is a result that `accept` does not have: a descriptor that is open. -/
def Accepter (listensock sock : Fd) (s : State) : Option State :=
  let called := s.log (.accept listensock (s.kernel.socket listensock))
  if sock < 0 then some called
  else if s.kernel.socket sock = none then
    let opened := called.opened sock
    let pos := search (fun pos => decide ((opened.fds pos).fd = FD_NONE)) (nfds - 1) 1
    if pos = nfds then some (opened.close sock)
    else some (opened.set pos sock POLLIN)
  else none

/-- `n` is what `recv` returns. -/
def Recver (pos : Nat) (n : Int) (s : State) : State :=
  let called := s.log (.recv (s.fds pos).fd (s.kernel.socket (s.fds pos).fd))
  if 0 < n then called
  else (called.close (called.fds pos).fd).set pos FD_NONE 0

/-- One turn of the loop of `HandlerEvent`; `result` is what the call in it returns. -/
def HandlerEvent
    (listensock : Fd) (i : Nat) (result : Int) (s : State) : Option State :=
  let next := Point.handling (i + 1)
  if (s.fds i).fd = FD_NONE then some (s.goto next)
  else if (s.fds i).revents &&& POLLIN ≠ 0 then
    if (s.fds i).fd = listensock then (s.Accepter listensock result).map (goto next)
    else some ((s.Recver i result).goto next)
  else some (s.goto next)

/-- What `poll` leaves in the array. -/
def poll (revents : Nat → BitVec 16) (s : State) : State :=
  { s with
    fds := fun i => if i < nfds then { s.fds i with revents := revents i } else s.fds i }

/-- The sockets that the array reports readable. -/
def readable (s : State) (fd : Fd) : Option Socket :=
  if ∃ i < nfds, (s.fds i).fd = fd ∧ (s.fds i).revents &&& POLLIN ≠ 0 then
    s.kernel.socket fd
  else none

/-- The `switch` behind `poll`. -/
def switch (n : Int) (s : State) : State :=
  if n = 0 then s
  else if n = -1 then s
  else (s.log (.round s.readable)).goto (.handling 0)

end State

/-- The steps of `Start`. -/
inductive Step (poll : Poll) (listensock : Fd) (s : State) : State → Prop
  | poll {n : Int} {revents : Nat → BitVec 16}
      (here : s.point = .waiting)
      (returned : poll s.fds nfds timeout n revents) :
      Step poll listensock s ((s.poll revents).switch n)
  | turn {i : Nat} {result : Int} {t : State}
      (here : s.point = .handling i)
      (inside : i < nfds)
      (handled : s.HandlerEvent listensock i result = some t) :
      Step poll listensock s t
  | finish
      (here : s.point = .handling nfds) :
      Step poll listensock s (s.goto .waiting)

/-- All runs of a server whose socket has been created. -/
def machine (poll : Poll) (listensock : Fd) : Transition.Machine State where
  start s := 0 ≤ listensock ∧
    ∃ kernel : Kernel, kernel.Initial listensock ∧ s = State.create listensock kernel
  step := Step poll listensock

/-! ## The server of slots -/

/-- The array with `poll` as a server of slots. -/
def device (poll : Poll) : Slots.Device (Nat → BitVec 16) where
  size := nfds
  ready revents i _ := decide (revents i &&& POLLIN ≠ 0)
  reports slot report := ∃ fds n revents,
    poll fds nfds timeout n revents ∧ n ≠ 0 ∧ n ≠ -1 ∧
      ∀ i, i < nfds → report i = revents i ∧ (slot i = none → (fds i).fd = FD_NONE)

namespace State

variable {listensock : Fd} {s t : State}

/-- The descriptor in a slot. -/
def fdArray (s : State) (i : Nat) : Fd :=
  (s.fds i).fd

/-- What the last `poll` has left in a slot. -/
def revents (s : State) (i : Nat) : BitVec 16 :=
  (s.fds i).revents

/-- The server as one of slots, of which `revents` says which are ready. -/
def view (s : State) : Slots.State (Nat → BitVec 16) where
  slot := slot s.fdArray
  kernel := s.kernel
  point :=
    match s.point with
    | .waiting => .waiting
    | .handling i => .visiting i s.revents
  history := s.history

/-- In the pass the server of slots visits the same slot. -/
theorem view_eq_visiting
    {i : Nat}
    (here : s.point = .handling i) :
    s.view.point = .visiting i s.revents := by
  rw [view, here]

theorem view_eq_waiting (here : s.point = .waiting) : s.view.point = .waiting := by
  rw [view, here]

theorem fds_create (listensock : Fd) (kernel : Kernel) :
    (create listensock kernel).fds =
      Function.update (fun _ => ⟨FD_NONE, 0, 0⟩) 0 ⟨listensock, POLLIN, 0⟩ :=
  rfl

theorem fds_set (pos : Nat) (fd : Fd) (events : BitVec 16) (s : State) :
    (s.set pos fd events).fds =
      Function.update s.fds pos ⟨fd, events, (s.fds pos).revents⟩ :=
  rfl

/-- `poll` writes `revents` of all slots and nothing else. -/
theorem fds_poll (revents : Nat → BitVec 16) (s : State) (i : Nat) :
    (s.poll revents).fds i =
      if i < nfds then ⟨(s.fds i).fd, (s.fds i).events, revents i⟩ else s.fds i :=
  rfl

/-- A slot that is set has its new descriptor. -/
theorem fdArray_set (pos : Nat) (fd : Fd) (events : BitVec 16) (s : State) :
    (s.set pos fd events).fdArray = Function.update s.fdArray pos fd := by
  funext i
  rw [fdArray, fds_set]
  by_cases same : i = pos
  · rw [same, Function.update_self, Function.update_self]
  · rw [Function.update_of_ne same, Function.update_of_ne same, fdArray]

/-- The server does not reset what `poll` has found. -/
theorem revents_set (pos : Nat) (fd : Fd) (events : BitVec 16) (s : State) :
    (s.set pos fd events).revents = s.revents := by
  funext i
  rw [revents, fds_set]
  by_cases same : i = pos
  · rw [same, Function.update_self, revents]
  · rw [Function.update_of_ne same, revents]

/-- `poll` leaves the descriptors where they are. -/
theorem fdArray_poll (revents : Nat → BitVec 16) (s : State) :
    (s.poll revents).fdArray = s.fdArray := by
  funext i
  rw [fdArray, fds_poll]
  by_cases inside : i < nfds
  · rw [if_pos inside, fdArray]
  · rw [if_neg inside, fdArray]

theorem revents_poll
    {revents : Nat → BitVec 16}
    {i : Nat}
    (inside : i < nfds) :
    (s.poll revents).revents i = revents i := by
  rw [State.revents, fds_poll, if_pos inside]

theorem nfds_pos : 1 ≤ nfds := by decide

/-- What can come out of `Accepter`. -/
theorem Accepter_cases
    {sock : Fd}
    (accepted : s.Accepter listensock sock = some t) :
    t = s.log (.accept listensock (s.kernel.socket listensock)) ∨
      (0 ≤ sock ∧ s.kernel.socket sock = none ∧
        ((∃ pos, 1 ≤ pos ∧ pos < nfds ∧ s.fdArray pos = FD_NONE ∧
            t = ((s.log (.accept listensock (s.kernel.socket listensock))).opened
              sock).set pos sock POLLIN) ∨
          ((∀ pos, 1 ≤ pos → pos < nfds → s.fdArray pos ≠ FD_NONE) ∧
            t = ((s.log (.accept listensock (s.kernel.socket listensock))).opened
              sock).close sock))) := by
  rw [Accepter] at accepted
  split at accepted
  · left
    exact (Option.some.inj accepted).symm
  · rename_i notNegative
    split at accepted
    · rename_i unused
      right
      refine ⟨Int.not_lt.mp notNegative, unused, ?_⟩
      rcases search_free_cases s.fdArray nfds_pos with
        ⟨atEnd, full⟩ | ⟨pos, rfl, positive, inside, isFree⟩
      · right
        refine ⟨full, ?_⟩
        exact (Option.some.inj ((if_pos atEnd).symm.trans accepted)).symm
      · left
        refine ⟨_, positive, inside, isFree, ?_⟩
        exact (Option.some.inj ((if_neg (Nat.ne_of_lt inside)).symm.trans accepted)).symm
    · exact absurd accepted (by simp)

/-- Where the table is full, `Accepter` closes the new descriptor and nothing else. -/
theorem Accepter_full
    {sock : Fd}
    (notNegative : 0 ≤ sock)
    (unused : s.kernel.socket sock = none)
    (full : ∀ pos, 1 ≤ pos → pos < nfds → s.fdArray pos ≠ FD_NONE) :
    s.Accepter listensock sock =
      some (((s.log (.accept listensock (s.kernel.socket listensock))).opened sock).close
        sock) := by
  rw [Accepter, if_neg (Int.not_lt.mpr notNegative), if_pos unused]
  apply if_pos
  rcases search_free_cases s.fdArray nfds_pos with
    ⟨atEnd, -⟩ | ⟨pos, -, positive, inside, isFree⟩
  · exact atEnd
  · exact absurd isFree (full pos positive inside)

/-- `Accepter` is one of three steps of the server of slots. -/
theorem view_accept
    {poll : Poll}
    {i : Nat}
    {sock : Fd}
    (visiting : s.view.point = .visiting i s.revents)
    (visited : i < nfds)
    (present : s.view.slot i = some listensock)
    (isReady : (device poll).ready s.revents i listensock = true)
    (accepted : s.Accepter listensock sock = some t) :
    Slots.Step (device poll) listensock s.view
      (t.goto (.handling (i + 1))).view := by
  rcases Accepter_cases accepted with rfl | ⟨notNegative, unused, outcome⟩
  · exact .fail visiting visited present isReady
  · rcases outcome with ⟨pos, positive, inside, free, rfl⟩ | ⟨-, rfl⟩
    · have assigned : Slots.Step (device poll) listensock s.view _ :=
        .assign visiting visited present isReady unused
          (Nat.one_le_iff_ne_zero.mp positive) inside (slot_eq_none_iff.mpr free)
      have notNone : sock ≠ FD_NONE := by
        rintro rfl
        exact absurd notNegative (by decide)
      change Slots.Step _ _ _ ⟨slot (s.set pos sock POLLIN).fdArray, _,
        .visiting _ (s.set pos sock POLLIN).revents, _⟩
      rw [fdArray_set, revents_set, slot_update notNone]
      exact assigned
    · exact .refuse visiting visited present isReady unused

/-- What one turn of the loop can do. -/
theorem HandlerEvent_cases
    {i : Nat}
    {result : Int}
    (handled : s.HandlerEvent listensock i result = some t) :
    t = s.goto (.handling (i + 1)) ∨
      ((s.fds i).fd ≠ FD_NONE ∧ (s.fds i).revents &&& POLLIN ≠ 0 ∧
        (((s.fds i).fd = listensock ∧ ∃ accepting,
            s.Accepter listensock result = some accepting ∧
              t = accepting.goto (.handling (i + 1))) ∨
          ((s.fds i).fd ≠ listensock ∧
            t = (s.Recver i result).goto (.handling (i + 1))))) := by
  rw [HandlerEvent] at handled
  split at handled
  · left
    exact (Option.some.inj handled).symm
  · rename_i taken
    split at handled
    · rename_i found
      right
      refine ⟨taken, found, ?_⟩
      split at handled
      · rename_i listening
        left
        obtain ⟨accepting, accepted, next⟩ := Option.map_eq_some_iff.mp handled
        exact ⟨listening, accepting, accepted, next.symm⟩
      · rename_i notListening
        right
        exact ⟨notListening, (Option.some.inj handled).symm⟩
    · left
      exact (Option.some.inj handled).symm

/-- A turn of the loop is a step of the server of slots. -/
theorem view_turn
    {poll : Poll}
    {i : Nat}
    {result : Int}
    (here : s.point = .handling i)
    (visited : i < nfds)
    (handled : s.HandlerEvent listensock i result = some t) :
    Slots.Step (device poll) listensock s.view t.view := by
  have visiting := view_eq_visiting here
  rcases HandlerEvent_cases handled with rfl | ⟨taken, found, outcome⟩
  · exact .skip visiting
  · have present : s.view.slot i = some (s.fds i).fd :=
      slot_eq_some_iff.mpr ⟨rfl, taken⟩
    have isReady : (device poll).ready s.revents i (s.fds i).fd = true :=
      decide_eq_true found
    rcases outcome with ⟨listening, accepting, accepted, rfl⟩ | ⟨notListening, rfl⟩
    · rw [listening] at present isReady
      exact view_accept visiting visited present isReady accepted
    · rw [Recver]
      split
      · exact .receive visiting visited present isReady
      · have released : Slots.Step (device poll) listensock s.view _ :=
          .release visiting visited present isReady notListening
        change Slots.Step _ _ _ ⟨slot (s.set i FD_NONE 0).fdArray, _,
          .visiting _ (s.set i FD_NONE 0).revents, _⟩
        rw [fdArray_set, revents_set, slot_free]
        exact released

/-- Outside of a pass, what `poll` leaves is not looked at. -/
theorem view_poll
    (here : s.point = .waiting)
    (revents : Nat → BitVec 16) :
    (s.poll revents).view = s.view := by
  have waiting : (s.poll revents).point = .waiting := here
  rw [view, view, fdArray_poll, waiting, here]
  rfl

/-- A step of the server is one of the server of slots, or that one does not see it. -/
theorem view_step
    {poll : Poll}
    (stepped : Step poll listensock s t) :
    t.view = s.view ∨ Slots.Step (device poll) listensock s.view t.view := by
  cases stepped with
  | @poll n revents here returned =>
      by_cases isTimeout : n = 0
      · left
        rw [switch, if_pos isTimeout]
        exact view_poll here revents
      · by_cases failed : n = -1
        · left
          rw [switch, if_neg isTimeout, if_pos failed]
          exact view_poll here revents
        · right
          rw [switch, if_neg isTimeout, if_neg failed, ← view_poll here revents]
          have waiting : (s.poll revents).view.point = .waiting := view_eq_waiting here
          apply Slots.Step.report waiting
          · refine ⟨s.fds, n, revents, returned, isTimeout, failed, ?_⟩
            intro i inside
            refine ⟨revents_poll inside, ?_⟩
            intro free
            change slot (s.poll revents).fdArray i = none at free
            rw [fdArray_poll] at free
            exact slot_eq_none_iff.mp free
          · intro i fd inside present isReady
            apply if_pos
            exact ⟨i, inside, (slot_eq_some_iff.mp present).1, of_decide_eq_true isReady⟩
  | turn here inside handled => exact .inr (view_turn here inside handled)
  | finish here => exact .inr (.finish (view_eq_visiting here))

/-- The constructor leaves a server of slots that has just begun. -/
theorem view_starts
    {kernel : Kernel}
    (notNegative : 0 ≤ listensock)
    (initial : kernel.Initial listensock) :
    Slots.Starts listensock (create listensock kernel).view := by
  constructor
  · funext i
    by_cases first : i = 0
    · rw [if_pos first]
      apply slot_eq_some_iff.mpr
      rw [first]
      refine ⟨rfl, ?_⟩
      rintro rfl
      exact absurd notNegative (by decide)
    · rw [if_neg first]
      apply slot_eq_none_iff.mpr
      rw [fdArray, fds_create, Function.update_of_ne first]
  · exact initial
  · rfl
  · rfl

end State

/-- What the server does a server of slots can do. -/
theorem reachable_view
    {poll : Poll}
    {listensock : Fd}
    {s : State}
    (reached : (machine poll listensock).Reachable s) :
    (Slots.machine (device poll) listensock).Reachable s.view := by
  refine reached.map ?_ ?_
  · rintro s ⟨notNegative, kernel, initial, rfl⟩
    exact State.view_starts notNegative initial
  · exact fun s t _ stepped => State.view_step stepped

/-! ## What the server asks for -/

/-- `events` asks for input where there is a descriptor, and for nothing elsewhere. -/
def Asks (entry : PollFd) : Prop :=
  entry.events = if entry.fd = FD_NONE then 0 else POLLIN

/-- A slot asks for `POLLIN` exactly while it holds a descriptor. -/
theorem Asks.events_iff
    {entry : PollFd}
    (asks : Asks entry) :
    entry.events = POLLIN ↔ entry.fd ≠ FD_NONE := by
  rw [asks]
  by_cases free : entry.fd = FD_NONE
  · rw [if_pos free]
    exact iff_of_false (by decide) (not_not_intro free)
  · rw [if_neg free]
    exact iff_of_true rfl free

namespace State

variable {listensock : Fd} {s t : State}

/-- Setting a slot leaves the others as they are. -/
theorem asks_set
    {pos : Nat}
    {fd : Fd}
    {events : BitVec 16}
    (asks : ∀ i, Asks (s.fds i))
    (own : Asks ⟨fd, events, (s.fds pos).revents⟩)
    (i : Nat) :
    Asks ((s.set pos fd events).fds i) := by
  rw [fds_set]
  by_cases same : i = pos
  · rw [same, Function.update_self]
    exact own
  · rw [Function.update_of_ne same]
    exact asks i

/-- A turn of the pass keeps what the slots ask for. -/
theorem asks_HandlerEvent
    {i : Nat}
    {result : Int}
    (asks : ∀ i, Asks (s.fds i))
    (handled : s.HandlerEvent listensock i result = some t)
    (j : Nat) :
    Asks (t.fds j) := by
  rcases HandlerEvent_cases handled with rfl | ⟨-, -, outcome⟩
  · exact asks j
  · rcases outcome with ⟨-, accepting, accepted, rfl⟩ | ⟨-, rfl⟩
    · rcases Accepter_cases accepted with rfl | ⟨notNegative, unused, outcome⟩
      · exact asks j
      · rcases outcome with ⟨pos, positive, inside, free, rfl⟩ | ⟨-, rfl⟩
        · have notNone : result ≠ FD_NONE := by
            rintro rfl
            exact absurd notNegative (by decide)
          exact asks_set asks (if_neg notNone).symm j
        · exact asks j
    · rw [Recver]
      split
      · exact asks j
      · exact asks_set asks (if_pos rfl).symm j

theorem asks_poll
    (asks : ∀ i, Asks (s.fds i))
    (revents : Nat → BitVec 16)
    (i : Nat) :
    Asks ((s.poll revents).fds i) := by
  rw [fds_poll]
  by_cases inside : i < nfds
  · rw [if_pos inside]
    exact asks i
  · rw [if_neg inside]
    exact asks i

/-- Every step keeps what the slots ask for. -/
theorem asks_step
    {poll : Poll}
    (asks : ∀ i, Asks (s.fds i))
    (stepped : Step poll listensock s t) :
    ∀ i, Asks (t.fds i) := by
  cases stepped with
  | @poll n revents here returned =>
      rw [switch]
      split
      · exact asks_poll asks revents
      · split
        · exact asks_poll asks revents
        · exact asks_poll asks revents
  | turn here inside handled => exact asks_HandlerEvent asks handled
  | finish here => exact asks

end State

/-- In every run exactly the slots with a descriptor ask for something. -/
theorem asks
    (poll : Poll) (listensock : Fd) :
    (machine poll listensock).Invariant fun s => ∀ i, Asks (s.fds i) := by
  apply Transition.Machine.invariant_of_steps
  · rintro s ⟨notNegative, kernel, -, rfl⟩ i
    rw [State.fds_create]
    by_cases first : i = 0
    · rw [first, Function.update_self]
      have notNone : listensock ≠ FD_NONE := by
        rintro rfl
        exact absurd notNegative (by decide)
      exact (if_neg notNone).symm
    · rw [Function.update_of_ne first]
      exact (if_pos rfl).symm
  · exact fun s t _ asks stepped => State.asks_step asks stepped

end PollServer
end Multiplex
end LearnInLinux
