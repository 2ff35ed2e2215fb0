import LearnInLinux.Multiplex.Slots
import Mathlib.Data.Finset.Insert
import Mathlib.Data.Int.Order.Basic

/-!
# The server around `select`

An array of descriptors as long as an `fd_set` has bits. Every round puts the
descriptors of the array into a set and passes the set to `select`; the pass behind
it runs over the array and asks the set about each of them.
-/

namespace LearnInLinux
namespace Multiplex

namespace SelectServer

open Slots (search search_free_cases slot slot_eq_some_iff slot_eq_none_iff slot_update
  slot_free)

/-- The bits of an `fd_set`. -/
def FD_SETSIZE : Nat := 1024

/-- `sizeof(fd_set) * BITS` -/
def NUM : Nat := 1024

/-- `fd_set`, as the set of the bits that are set. -/
abbrev FdSet := Finset Fd

/-- `FD_ZERO(&rfds)` -/
def FD_ZERO : FdSet := ∅

/-- Outside of the bits of the set, setting or asking for one is undefined. -/
def FD_SET (fd : Fd) (set : FdSet) : Option FdSet :=
  if 0 ≤ fd ∧ fd < FD_SETSIZE then some (insert fd set) else none

/-- `FD_ISSET(fd, &rfds)`; `none` outside of the bits of the set. -/
def FD_ISSET (fd : Fd) (set : FdSet) : Option Bool :=
  if 0 ≤ fd ∧ fd < FD_SETSIZE then some (decide (fd ∈ set)) else none

/-- `select(nfds, &set, nullptr, nullptr, nullptr)` returns a number and leaves a
set. -/
abbrev Select := (nfds : Fd) → (set : FdSet) → (n : Int) → (result : FdSet) → Prop

/-- Where the server is: in front of a round, in front of slot `i` of `HandlerEvent`,
or where the program is undefined. -/
inductive Point
  | waiting
  | handling (i : Nat) (rfds : FdSet)
  | undefined

/-- The array of the server, the descriptors of the process and the history of the run. -/
structure State where
  fdArray : Nat → Fd
  kernel : Kernel
  point : Point
  history : List Event

/-- The loop of `Start` that collects `rfds` and `maxfd`. -/
def collect (fdArray : Nat → Fd) :
    (left i : Nat) → (rfds : FdSet) → (maxfd : Fd) → Option (FdSet × Fd)
  | 0, _, rfds, maxfd => some (rfds, maxfd)
  | left + 1, i, rfds, maxfd =>
      if fdArray i = FD_NONE then collect fdArray left (i + 1) rfds maxfd
      else
        match FD_SET (fdArray i) rfds with
        | none => none
        | some rfds =>
            collect fdArray left (i + 1) rfds
              (if maxfd < fdArray i then fdArray i else maxfd)

namespace State

/-- Behind the constructor. -/
def create (listensock : Fd) (kernel : Kernel) : State where
  fdArray := Function.update (fun _ => FD_NONE) 0 listensock
  kernel := kernel
  point := .waiting
  history := []

/-- The server goes to another point. -/
def goto (point : Point) (s : State) : State :=
  { s with point := point }

/-- A note of a call. -/
def log (event : Event) (s : State) : State :=
  { s with history := event :: s.history }

/-- `close(fd)` -/
def close (fd : Fd) (s : State) : State :=
  { s with
    kernel := s.kernel.close fd
    history := .close fd (s.kernel.socket fd) :: s.history }

/-- `accept` has returned a new descriptor. -/
def opened (sock : Fd) (s : State) : State :=
  { s with
    kernel := s.kernel.accept sock
    history := .accepted sock s.kernel.accepted :: s.history }

/-- `none` is a result that `accept` does not have: a descriptor that is open. -/
def Accepter (listensock sock : Fd) (s : State) : Option State :=
  let called := s.log (.accept listensock (s.kernel.socket listensock))
  if sock < 0 then some called
  else if s.kernel.socket sock = none then
    let opened := called.opened sock
    let pos := search (fun pos => decide (opened.fdArray pos = FD_NONE)) (NUM - 1) 1
    if pos = NUM then some (opened.close sock)
    else some { opened with fdArray := Function.update opened.fdArray pos sock }
  else none

/-- `n` is what `recv` returns. -/
def Recver (pos : Nat) (n : Int) (s : State) : State :=
  let called := s.log (.recv (s.fdArray pos) (s.kernel.socket (s.fdArray pos)))
  if 0 < n then called
  else
    let closed := called.close (called.fdArray pos)
    { closed with fdArray := Function.update closed.fdArray pos FD_NONE }

/-- One turn of the loop of `HandlerEvent`; `result` is what the call in it returns. -/
def HandlerEvent
    (listensock : Fd) (i : Nat) (rfds : FdSet) (result : Int) (s : State) :
    Option State :=
  let next := Point.handling (i + 1) rfds
  if s.fdArray i = FD_NONE then some (s.goto next)
  else
    match FD_ISSET (s.fdArray i) rfds with
    | none => some (s.goto .undefined)
    | some false => some (s.goto next)
    | some true =>
        if s.fdArray i = listensock then (s.Accepter listensock result).map (goto next)
        else some ((s.Recver i result).goto next)

/-- The `switch` behind `select`. -/
def switch (n : Int) (result : FdSet) (s : State) : State :=
  if n = 0 then s
  else if n = -1 then s
  else
    { s with
      point := .handling 0 result
      history := .round (fun fd => if fd ∈ result then s.kernel.socket fd else none) ::
        s.history }

end State

/-- The steps of `Start`. -/
inductive Step (select : Select) (listensock : Fd) (s : State) : State → Prop
  | select {rfds result : FdSet} {maxfd : Fd} {n : Int}
      (here : s.point = .waiting)
      (collected : collect s.fdArray NUM 0 FD_ZERO listensock = some (rfds, maxfd))
      (returned : select (maxfd + 1) rfds n result) :
      Step select listensock s (s.switch n result)
  | undefined
      (here : s.point = .waiting)
      (overflow : collect s.fdArray NUM 0 FD_ZERO listensock = none) :
      Step select listensock s (s.goto .undefined)
  | turn {i : Nat} {rfds : FdSet} {result : Int} {t : State}
      (here : s.point = .handling i rfds)
      (inside : i < NUM)
      (handled : s.HandlerEvent listensock i rfds result = some t) :
      Step select listensock s t
  | finish {rfds : FdSet}
      (here : s.point = .handling NUM rfds) :
      Step select listensock s (s.goto .waiting)

/-- All runs of a server whose socket has been created. -/
def machine (select : Select) (listensock : Fd) : Transition.Machine State where
  start s := 0 ≤ listensock ∧
    ∃ kernel : Kernel, kernel.Initial listensock ∧ s = State.create listensock kernel
  step := Step select listensock

/-! ## The server of slots -/

/-- What is collected comes from the array. -/
theorem mem_of_collect
    {fdArray : Nat → Fd}
    {left i : Nat}
    {rfds result : FdSet}
    {maxfd maxfd' : Fd}
    (collected : collect fdArray left i rfds maxfd = some (result, maxfd'))
    {fd : Fd}
    (present : fd ∈ result) :
    fd ∈ rfds ∨ ∃ j, j < i + left ∧ slot fdArray j = some fd := by
  induction left generalizing i rfds maxfd with
  | zero =>
      obtain ⟨rfl, -⟩ := Prod.mk.inj (Option.some.inj collected)
      exact .inl present
  | succ left inductionHypothesis =>
      rw [collect] at collected
      split at collected
      · rcases inductionHypothesis collected with before | ⟨j, inside, atJ⟩
        · exact .inl before
        · exact .inr ⟨j, by omega, atJ⟩
      · rename_i taken
        split at collected
        · exact absurd collected (by simp)
        · rename_i extended set
          rcases inductionHypothesis collected with before | ⟨j, inside, atJ⟩
          · rw [FD_SET] at set
            split at set
            · obtain rfl := Option.some.inj set
              rcases Finset.mem_insert.mp before with rfl | before
              · exact .inr ⟨i, by omega, slot_eq_some_iff.mpr ⟨rfl, taken⟩⟩
              · exact .inl before
            · exact absurd set (by simp)
          · exact .inr ⟨j, by omega, atJ⟩

/-- The array with a set of `select` as a server of slots. -/
def device (select : Select) : Slots.Device FdSet where
  size := NUM
  ready rfds _ fd := decide (fd ∈ rfds)
  reports slot result := ∃ nfds set n,
    select nfds set n result ∧ n ≠ 0 ∧ n ≠ -1 ∧
      ∀ fd ∈ set, ∃ j, j < NUM ∧ slot j = some fd

namespace State

variable {listensock : Fd} {s t : State}

/-- The server as one of slots, of which the set says which are ready. -/
def view (s : State) : Slots.State FdSet where
  slot := slot s.fdArray
  kernel := s.kernel
  point :=
    match s.point with
    | .waiting => .waiting
    | .handling i rfds => .visiting i rfds
    | .undefined => .waiting
  history := s.history

/-- In the pass the server of slots visits the same slot. -/
theorem view_eq_visiting
    {i : Nat}
    {rfds : FdSet}
    (here : s.point = .handling i rfds) :
    s.view.point = .visiting i rfds := by
  rw [view, here]

theorem NUM_pos : 1 ≤ NUM := by decide

/-- What can come out of `Accepter`. -/
theorem Accepter_cases
    {sock : Fd}
    (accepted : s.Accepter listensock sock = some t) :
    t = s.log (.accept listensock (s.kernel.socket listensock)) ∨
      (0 ≤ sock ∧ s.kernel.socket sock = none ∧
        ((∃ pos, 1 ≤ pos ∧ pos < NUM ∧ s.fdArray pos = FD_NONE ∧
            t = { (s.log (.accept listensock (s.kernel.socket listensock))).opened sock with
              fdArray := Function.update s.fdArray pos sock }) ∨
          ((∀ pos, 1 ≤ pos → pos < NUM → s.fdArray pos ≠ FD_NONE) ∧
            t = ((s.log (.accept listensock (s.kernel.socket listensock))).opened
              sock).close sock))) := by
  rw [Accepter] at accepted
  split at accepted
  · left
    exact (Option.some.inj accepted).symm
  · rename_i notNegative
    split at accepted
    · rename_i unused
      right
      refine ⟨Int.not_lt.mp notNegative, unused, ?_⟩
      rcases search_free_cases s.fdArray NUM_pos with
        ⟨atEnd, full⟩ | ⟨pos, rfl, positive, inside, isFree⟩
      · right
        refine ⟨full, ?_⟩
        exact (Option.some.inj ((if_pos atEnd).symm.trans accepted)).symm
      · left
        refine ⟨_, positive, inside, isFree, ?_⟩
        exact (Option.some.inj ((if_neg (Nat.ne_of_lt inside)).symm.trans accepted)).symm
    · exact absurd accepted (by simp)

/-- Where the table is full, `Accepter` closes the new descriptor and nothing else. -/
theorem Accepter_full
    {sock : Fd}
    (notNegative : 0 ≤ sock)
    (unused : s.kernel.socket sock = none)
    (full : ∀ pos, 1 ≤ pos → pos < NUM → s.fdArray pos ≠ FD_NONE) :
    s.Accepter listensock sock =
      some (((s.log (.accept listensock (s.kernel.socket listensock))).opened sock).close
        sock) := by
  rw [Accepter, if_neg (Int.not_lt.mpr notNegative), if_pos unused]
  apply if_pos
  rcases search_free_cases s.fdArray NUM_pos with
    ⟨atEnd, -⟩ | ⟨pos, -, positive, inside, isFree⟩
  · exact atEnd
  · exact absurd isFree (full pos positive inside)

/-- What one turn of the loop can do. -/
theorem HandlerEvent_cases
    {i : Nat}
    {rfds : FdSet}
    {result : Int}
    (handled : s.HandlerEvent listensock i rfds result = some t) :
    t = s.goto (.handling (i + 1) rfds) ∨
      (s.fdArray i ≠ FD_NONE ∧
        ((FD_ISSET (s.fdArray i) rfds = none ∧ t = s.goto .undefined) ∨
          (FD_ISSET (s.fdArray i) rfds = some true ∧
            ((s.fdArray i = listensock ∧ ∃ accepting,
                s.Accepter listensock result = some accepting ∧
                  t = accepting.goto (.handling (i + 1) rfds)) ∨
              (s.fdArray i ≠ listensock ∧
                t = (s.Recver i result).goto (.handling (i + 1) rfds)))))) := by
  rw [HandlerEvent] at handled
  split at handled
  · left
    exact (Option.some.inj handled).symm
  · rename_i taken
    split at handled
    · rename_i outside
      right
      exact ⟨taken, .inl ⟨outside, (Option.some.inj handled).symm⟩⟩
    · left
      exact (Option.some.inj handled).symm
    · rename_i set
      right
      refine ⟨taken, .inr ⟨set, ?_⟩⟩
      split at handled
      · rename_i listening
        left
        obtain ⟨accepting, accepted, next⟩ := Option.map_eq_some_iff.mp handled
        exact ⟨listening, accepting, accepted, next.symm⟩
      · rename_i notListening
        right
        exact ⟨notListening, (Option.some.inj handled).symm⟩

/-- A bit that is set belongs to a descriptor of the set. -/
theorem ready_of_isSet
    {fd : Fd}
    {rfds : FdSet}
    (set : FD_ISSET fd rfds = some true) :
    decide (fd ∈ rfds) = true := by
  rw [FD_ISSET] at set
  split at set
  · exact Option.some.inj set
  · exact absurd set (by simp)

/-- `Accepter` is one of three steps of the server of slots. -/
theorem view_accept
    {select : Select}
    {i : Nat}
    {rfds : FdSet}
    {sock : Fd}
    (visiting : s.view.point = .visiting i rfds)
    (visited : i < NUM)
    (present : s.view.slot i = some listensock)
    (isReady : (device select).ready rfds i listensock = true)
    (accepted : s.Accepter listensock sock = some t) :
    Slots.Step (device select) listensock s.view
      (t.goto (.handling (i + 1) rfds)).view := by
  rcases Accepter_cases accepted with rfl | ⟨notNegative, unused, outcome⟩
  · exact .fail visiting visited present isReady
  · rcases outcome with ⟨pos, positive, inside, free, rfl⟩ | ⟨-, rfl⟩
    · have assigned : Slots.Step (device select) listensock s.view _ :=
        .assign visiting visited present isReady unused
          (Nat.one_le_iff_ne_zero.mp positive) inside (slot_eq_none_iff.mpr free)
      have notNone : sock ≠ FD_NONE := by
        rintro rfl
        exact absurd notNegative (by decide)
      change Slots.Step _ _ _ ⟨slot (Function.update s.fdArray pos sock), _, _, _⟩
      rw [slot_update notNone]
      exact assigned
    · exact .refuse visiting visited present isReady unused

/-- A turn of the loop is a step of the server of slots. -/
theorem view_turn
    {select : Select}
    {i : Nat}
    {rfds : FdSet}
    {result : Int}
    (here : s.point = .handling i rfds)
    (visited : i < NUM)
    (handled : s.HandlerEvent listensock i rfds result = some t) :
    Slots.Step (device select) listensock s.view t.view := by
  have visiting := view_eq_visiting here
  rcases HandlerEvent_cases handled with rfl | ⟨taken, ⟨-, rfl⟩ | ⟨set, outcome⟩⟩
  · exact .skip visiting
  · exact .finish visiting
  · have present : s.view.slot i = some (s.fdArray i) :=
      slot_eq_some_iff.mpr ⟨rfl, taken⟩
    have isReady : (device select).ready rfds i (s.fdArray i) = true := ready_of_isSet set
    rcases outcome with ⟨listening, accepting, accepted, rfl⟩ | ⟨notListening, rfl⟩
    · rw [listening] at present isReady
      exact view_accept visiting visited present isReady accepted
    · rw [Recver]
      split
      · exact .receive visiting visited present isReady
      · have released : Slots.Step (device select) listensock s.view _ :=
          .release visiting visited present isReady notListening
        change Slots.Step _ _ _ ⟨slot (Function.update s.fdArray i FD_NONE), _, _, _⟩
        rw [slot_free]
        exact released

/-- A step of the server is one of the server of slots, or that one does not see it. -/
theorem view_step
    {select : Select}
    (stepped : Step select listensock s t) :
    t.view = s.view ∨ Slots.Step (device select) listensock s.view t.view := by
  cases stepped with
  | @select rfds result maxfd n here collected returned =>
      have waiting : s.view.point = .waiting := by rw [view, here]
      by_cases timeout : n = 0
      · left
        rw [switch, if_pos timeout]
      · by_cases failed : n = -1
        · left
          rw [switch, if_neg timeout, if_pos failed]
        · right
          rw [switch, if_neg timeout, if_neg failed]
          apply Slots.Step.report waiting
          · refine ⟨maxfd + 1, rfds, n, returned, timeout, failed, ?_⟩
            intro fd present
            rcases mem_of_collect collected present with nothing | ⟨j, inside, atJ⟩
            · exact absurd nothing (Finset.notMem_empty fd)
            · exact ⟨j, by omega, atJ⟩
          · intro i fd _ _ isSet
            exact if_pos (of_decide_eq_true isSet)
  | undefined here overflow =>
      left
      rw [view, view, here]
      rfl
  | turn here inside handled => exact .inr (view_turn here inside handled)
  | finish here => exact .inr (.finish (view_eq_visiting here))

/-- The constructor leaves a server of slots that has just begun. -/
theorem view_starts
    {kernel : Kernel}
    (notNegative : 0 ≤ listensock)
    (initial : kernel.Initial listensock) :
    Slots.Starts listensock (create listensock kernel).view := by
  constructor
  · funext i
    change slot (Function.update (fun _ => FD_NONE) 0 listensock) i = _
    by_cases first : i = 0
    · rw [if_pos first, slot_eq_some_iff, first, Function.update_self]
      refine ⟨rfl, ?_⟩
      rintro rfl
      exact absurd notNegative (by decide)
    · rw [if_neg first, slot_eq_none_iff, Function.update_of_ne first]
  · exact initial
  · rfl
  · rfl

end State

/-- What the server does a server of slots can do. -/
theorem reachable_view
    {select : Select}
    {listensock : Fd}
    {s : State}
    (reached : (machine select listensock).Reachable s) :
    (Slots.machine (device select) listensock).Reachable s.view := by
  refine reached.map ?_ ?_
  · rintro s ⟨notNegative, kernel, initial, rfl⟩
    exact State.view_starts notNegative initial
  · exact fun s t _ stepped => State.view_step stepped

end SelectServer
end Multiplex
end LearnInLinux
