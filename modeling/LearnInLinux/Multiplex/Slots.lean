import LearnInLinux.Library.Transition
import LearnInLinux.Multiplex.Kernel

/-!
# A server of slots

What the servers around `select` and `poll` have in common: a table of slots for
descriptors, rounds in which the kernel reports some of them readable, and a pass over
the slots that accepts on the listening socket and receives on the others. The state
of a round is kept abstract. A device says how many slots there are, which slot a
report makes ready, and what it may report for a table.
-/

namespace LearnInLinux
namespace Multiplex
namespace Slots

/-! ## Slots of an array -/

/-- A descriptor of the array, if the slot is not free. -/
def slot (fdArray : Nat → Fd) (i : Nat) : Option Fd :=
  if fdArray i = FD_NONE then none else some (fdArray i)

theorem slot_eq_some_iff
    {fdArray : Nat → Fd}
    {i : Nat}
    {fd : Fd} :
    slot fdArray i = some fd ↔ fdArray i = fd ∧ fd ≠ FD_NONE := by
  rw [slot]
  by_cases free : fdArray i = FD_NONE
  · rw [if_pos free, free]
    apply iff_of_false (Option.some_ne_none fd).symm
    rintro ⟨rfl, different⟩
    exact different rfl
  · rw [if_neg free, Option.some.injEq]
    constructor
    · rintro rfl
      exact ⟨rfl, free⟩
    · exact fun same => same.1

theorem slot_eq_none_iff
    {fdArray : Nat → Fd}
    {i : Nat} :
    slot fdArray i = none ↔ fdArray i = FD_NONE := by
  rw [slot]
  by_cases free : fdArray i = FD_NONE
  · rw [if_pos free]
    exact iff_of_true rfl free
  · rw [if_neg free]
    exact iff_of_false (Option.some_ne_none _) free

theorem slot_update
    {fdArray : Nat → Fd}
    {pos : Nat}
    {fd : Fd}
    (present : fd ≠ FD_NONE) :
    slot (Function.update fdArray pos fd) =
      Function.update (slot fdArray) pos (some fd) := by
  funext i
  by_cases same : i = pos
  · rw [same, Function.update_self, slot_eq_some_iff, Function.update_self]
    exact ⟨rfl, present⟩
  · rw [Function.update_of_ne same, slot, slot, Function.update_of_ne same]

theorem slot_free (fdArray : Nat → Fd) (pos : Nat) :
    slot (Function.update fdArray pos FD_NONE) =
      Function.update (slot fdArray) pos none := by
  funext i
  by_cases same : i = pos
  · rw [same, Function.update_self, slot_eq_none_iff, Function.update_self]
  · rw [Function.update_of_ne same, slot, slot, Function.update_of_ne same]

/-- A search from `pos` on, over as many places as are `left`; behind the last place
when nothing is found. -/
def search (found : Nat → Bool) : (left pos : Nat) → Nat
  | 0, pos => pos
  | left + 1, pos => if found pos then pos else search found left (pos + 1)

theorem search_cases (found : Nat → Bool) (left pos : Nat) :
    (search found left pos = pos + left ∧
        ∀ i, pos ≤ i → i < pos + left → found i = false) ∨
      (pos ≤ search found left pos ∧ search found left pos < pos + left ∧
        found (search found left pos) = true) := by
  induction left generalizing pos with
  | zero =>
      left
      refine ⟨rfl, ?_⟩
      intro i behind inside
      exact absurd behind (Nat.not_le.mpr inside)
  | succ left inductionHypothesis =>
      rw [search]
      cases here : found pos with
      | true =>
          right
          rw [if_pos rfl]
          exact ⟨Nat.le_refl pos, by omega, here⟩
      | false =>
          rw [if_neg Bool.false_ne_true]
          rcases inductionHypothesis (pos + 1) with ⟨atEnd, nowhere⟩ | ⟨behind, inside, isFound⟩
          · left
            refine ⟨by omega, ?_⟩
            intro i iBehind iInside
            rcases Nat.eq_or_lt_of_le iBehind with same | later
            · rw [← same]
              exact here
            · exact nowhere i later (by omega)
          · right
            exact ⟨by omega, by omega, isFound⟩

/-- The search for a free place behind the first one finds one, or the array is full. -/
theorem search_free_cases
    (fdArray : Nat → Fd)
    {size : Nat}
    (notEmpty : 1 ≤ size) :
    (search (fun pos => decide (fdArray pos = FD_NONE)) (size - 1) 1 = size ∧
        ∀ pos, 1 ≤ pos → pos < size → fdArray pos ≠ FD_NONE) ∨
      ∃ pos, search (fun pos => decide (fdArray pos = FD_NONE)) (size - 1) 1 = pos ∧
        1 ≤ pos ∧ pos < size ∧ fdArray pos = FD_NONE := by
  have last : 1 + (size - 1) = size := Nat.add_sub_cancel' notEmpty
  rcases search_cases (fun pos => decide (fdArray pos = FD_NONE)) (size - 1) 1 with
    ⟨atEnd, nowhere⟩ | ⟨behind, inside, isFree⟩
  · left
    rw [last] at atEnd nowhere
    refine ⟨atEnd, ?_⟩
    intro pos positive inside
    exact of_decide_eq_false (nowhere pos positive inside)
  · right
    rw [last] at inside
    exact ⟨_, rfl, behind, inside, of_decide_eq_true isFree⟩

/-! ## The server -/

/-- The call that a server waits in: its number of slots and what its report says of them.
-/
structure Device (R : Type) where
  size : Nat
  ready : R → Nat → Fd → Bool
  reports : (Nat → Option Fd) → R → Prop

/-- A report does not speak about a descriptor that comes into a free slot later. -/
def Device.Truthful {R : Type} (device : Device R) : Prop :=
  ∀ slot report, device.reports slot report → ∀ i fd, i < device.size → slot i = none →
    (∀ j, j < device.size → slot j ≠ some fd) → device.ready report i fd = false

/-- In front of the call of the kernel, or of a slot of the pass. -/
inductive Point (R : Type)
  | waiting
  | visiting (i : Nat) (report : R)

theorem Point.waiting_ne {R : Type} (i : Nat) (report : R) :
    Point.waiting ≠ Point.visiting i report := by
  intro same
  cases same

/-- A server of slots and the history of its run. -/
structure State (R : Type) where
  slot : Nat → Option Fd
  kernel : Kernel
  point : Point R
  history : List Event

/-- Behind the constructor of a server. -/
structure Starts {R : Type} (listensock : Fd) (s : State R) : Prop where
  slot : s.slot = fun i => if i = 0 then some listensock else none
  kernel : s.kernel.Initial listensock
  point : s.point = .waiting
  history : s.history = []

/-- The steps of the server: a round, and one slot of the pass after the other. -/
inductive Step {R : Type} (device : Device R) (listensock : Fd) (s : State R) :
    State R → Prop
  | report {report : R} {reported : Fd → Option Socket}
      (here : s.point = .waiting)
      (reports : device.reports s.slot report)
      (known : ∀ i fd, i < device.size → s.slot i = some fd →
        device.ready report i fd = true → reported fd = s.kernel.socket fd) :
      Step device listensock s
        { s with point := .visiting 0 report, history := .round reported :: s.history }
  | finish {i : Nat} {report : R}
      (here : s.point = .visiting i report) :
      Step device listensock s { s with point := .waiting }
  | skip {i : Nat} {report : R}
      (here : s.point = .visiting i report) :
      Step device listensock s { s with point := .visiting (i + 1) report }
  | fail {i : Nat} {report : R}
      (here : s.point = .visiting i report)
      (visited : i < device.size)
      (present : s.slot i = some listensock)
      (isReady : device.ready report i listensock = true) :
      Step device listensock s
        { s with
          point := .visiting (i + 1) report
          history := .accept listensock (s.kernel.socket listensock) :: s.history }
  | assign {i pos : Nat} {report : R} {sock : Fd}
      (here : s.point = .visiting i report)
      (visited : i < device.size)
      (present : s.slot i = some listensock)
      (isReady : device.ready report i listensock = true)
      (unused : s.kernel.socket sock = none)
      (notFirst : pos ≠ 0)
      (inside : pos < device.size)
      (free : s.slot pos = none) :
      Step device listensock s
        { slot := Function.update s.slot pos (some sock)
          kernel := s.kernel.accept sock
          point := .visiting (i + 1) report
          history := .accepted sock s.kernel.accepted ::
            .accept listensock (s.kernel.socket listensock) :: s.history }
  | refuse {i : Nat} {report : R} {sock : Fd}
      (here : s.point = .visiting i report)
      (visited : i < device.size)
      (present : s.slot i = some listensock)
      (isReady : device.ready report i listensock = true)
      (unused : s.kernel.socket sock = none) :
      Step device listensock s
        { s with
          kernel := (s.kernel.accept sock).close sock
          point := .visiting (i + 1) report
          history := .close sock ((s.kernel.accept sock).socket sock) ::
            .accepted sock s.kernel.accepted ::
            .accept listensock (s.kernel.socket listensock) :: s.history }
  | receive {i : Nat} {report : R} {fd : Fd}
      (here : s.point = .visiting i report)
      (visited : i < device.size)
      (present : s.slot i = some fd)
      (isReady : device.ready report i fd = true) :
      Step device listensock s
        { s with
          point := .visiting (i + 1) report
          history := .recv fd (s.kernel.socket fd) :: s.history }
  | release {i : Nat} {report : R} {fd : Fd}
      (here : s.point = .visiting i report)
      (visited : i < device.size)
      (present : s.slot i = some fd)
      (isReady : device.ready report i fd = true)
      (isClient : fd ≠ listensock) :
      Step device listensock s
        { slot := Function.update s.slot i none
          kernel := s.kernel.close fd
          point := .visiting (i + 1) report
          history := .close fd (s.kernel.socket fd) ::
            .recv fd (s.kernel.socket fd) :: s.history }

/-- All runs of a server of slots. -/
def machine {R : Type} (device : Device R) (listensock : Fd) :
    Transition.Machine (State R) where
  start := Starts listensock
  step := Step device listensock

/-! ## The table -/

/-- The table is what the server needs it to be: the listening socket in front, no
descriptor twice, and the connections that are accepted and not yet closed. -/
structure TableOk
    (size : Nat) (listensock : Fd) (slot : Nat → Option Fd) (history : List Event) :
    Prop where
  first : slot 0 = some listensock
  distinct : ∀ i j fd, i < size → j < size → slot i = some fd → slot j = some fd → i = j
  clients : ∀ fd, (∃ i, 1 ≤ i ∧ i < size ∧ slot i = some fd) ↔
    ∃ number, .accepted fd number ∈ history ∧
      some (.client number) ∉ closes history
  closedClients : ∀ socket ∈ closes history, ∃ fd number,
    socket = some (.client number) ∧ .accepted fd number ∈ history
  once : (closes history).Nodup

namespace State

variable {R : Type} {device : Device R} {listensock : Fd} {s s' : State R}

/-- The slots hold the listening socket and every client once, and nothing else is open. -/
structure InOrder (size : Nat) (listensock : Fd) (s : State R) : Prop where
  first : s.slot 0 = some listensock
  distinct : ∀ i j fd, s.slot i = some fd → s.slot j = some fd → i = j
  inside : ∀ i fd, i ≠ 0 → s.slot i = some fd → i < size
  listening : s.kernel.socket listensock = some .listening
  client : ∀ i fd, i ≠ 0 → s.slot i = some fd →
    ∃ number, s.kernel.socket fd = some (.client number)
  present : ∀ fd number, s.kernel.socket fd = some (.client number) →
    ∃ i, i ≠ 0 ∧ s.slot i = some fd
  tracks : Tracks s.kernel s.history

namespace InOrder

variable {size : Nat}

theorem initial
    (starts : Starts listensock s) :
    s.InOrder size listensock := by
  have empty (i : Nat) (fd : Fd) (notFirst : i ≠ 0) : s.slot i ≠ some fd := by
    rw [starts.slot]
    change (if i = 0 then some listensock else none) ≠ some fd
    rw [if_neg notFirst]
    exact (Option.some_ne_none fd).symm
  have tracks := Tracks.initial starts.kernel
  constructor
  · rw [starts.slot]
    rfl
  · intro i j fd atI atJ
    by_cases iFirst : i = 0
    · by_cases jFirst : j = 0
      · rw [iFirst, jFirst]
      · exact absurd atJ (empty j fd jFirst)
    · exact absurd atI (empty i fd iFirst)
  · intro i fd notFirst atI
    exact absurd atI (empty i fd notFirst)
  · exact starts.kernel.listening
  · intro i fd notFirst atI
    exact absurd atI (empty i fd notFirst)
  · intro fd number client
    exact absurd ((tracks.open_iff fd number).mp client).1 List.not_mem_nil
  · rw [starts.history]
    exact tracks

/-- Every descriptor in the table is open. -/
theorem isOpen
    {i : Nat}
    {fd : Fd}
    (order : s.InOrder size listensock)
    (present : s.slot i = some fd) :
    s.kernel.socket fd ≠ none := by
  by_cases first : i = 0
  · rw [first, order.first] at present
    rw [← Option.some.inj present, order.listening]
    exact Option.some_ne_none _
  · obtain ⟨number, client⟩ := order.client i fd first present
    rw [client]
    exact Option.some_ne_none _

/-- Only the first slot holds the listening socket. -/
theorem eq_zero
    {i : Nat}
    (order : s.InOrder size listensock)
    (present : s.slot i = some listensock) :
    i = 0 :=
  order.distinct i 0 listensock present order.first

/-- Events that leave the connections alone. -/
theorem of_event
    {point : Point R}
    {event : Event}
    (order : s.InOrder size listensock)
    (isNeutral : event.neutral = true) :
    ({ s with point := point, history := event :: s.history } :
      State R).InOrder size listensock := by
  constructor
  · exact order.first
  · exact order.distinct
  · exact order.inside
  · exact order.listening
  · exact order.client
  · exact order.present
  · exact order.tracks.neutral isNeutral

theorem of_point
    {point : Point R}
    (order : s.InOrder size listensock) :
    ({ s with point := point } : State R).InOrder size listensock := by
  constructor
  · exact order.first
  · exact order.distinct
  · exact order.inside
  · exact order.listening
  · exact order.client
  · exact order.present
  · exact order.tracks

/-- A new connection comes into a free slot. -/
theorem assign
    {pos : Nat}
    {sock : Fd}
    {point : Point R}
    (order : s.InOrder size listensock)
    (unused : s.kernel.socket sock = none)
    (notFirst : pos ≠ 0)
    (inside : pos < size)
    (free : s.slot pos = none) :
    ({ slot := Function.update s.slot pos (some sock)
       kernel := s.kernel.accept sock
       point := point
       history := .accepted sock s.kernel.accepted :: s.history } :
      State R).InOrder size listensock := by
  have otherSock {i : Nat} {fd : Fd} (present : s.slot i = some fd) : fd ≠ sock := by
    rintro rfl
    exact order.isOpen present unused
  have assigned {i : Nat} {fd : Fd}
      (atI : Function.update s.slot pos (some sock) i = some fd) :
      (i = pos ∧ fd = sock) ∨ s.slot i = some fd := by
    rcases Transition.update_some_eq_some_iff.mp atI with ⟨same, new⟩ | ⟨-, before⟩
    · exact .inl ⟨same, new.symm⟩
    · exact .inr before
  constructor
  · exact (Function.update_of_ne notFirst.symm ..).trans order.first
  · intro i j fd atI atJ
    rcases assigned atI with ⟨rfl, rfl⟩ | iBefore
    · rcases assigned atJ with ⟨rfl, -⟩ | jBefore
      · rfl
      · exact absurd rfl (otherSock jBefore)
    · rcases assigned atJ with ⟨rfl, rfl⟩ | jBefore
      · exact absurd rfl (otherSock iBefore)
      · exact order.distinct i j fd iBefore jBefore
  · intro i fd iNotFirst atI
    rcases assigned atI with ⟨rfl, -⟩ | before
    · exact inside
    · exact order.inside i fd iNotFirst before
  · exact (Kernel.accept_socket_of_ne (otherSock order.first)).trans order.listening
  · intro i fd iNotFirst atI
    rcases assigned atI with ⟨rfl, rfl⟩ | before
    · exact ⟨s.kernel.accepted, Kernel.accept_socket_self fd s.kernel⟩
    · obtain ⟨number, client⟩ := order.client i fd iNotFirst before
      exact ⟨number, (Kernel.accept_socket_of_ne (otherSock before)).trans client⟩
  · intro fd number client
    rcases Kernel.client_of_accept client with ⟨rfl, -⟩ | before
    · exact ⟨pos, notFirst, Function.update_self ..⟩
    · obtain ⟨i, iNotFirst, atI⟩ := order.present fd number before
      refine ⟨i, iNotFirst, ?_⟩
      have notPos : i ≠ pos := by
        rintro rfl
        rw [free] at atI
        exact absurd atI.symm (Option.some_ne_none fd)
      exact (Function.update_of_ne notPos ..).trans atI
  · exact order.tracks.accept unused

/-- A new connection finds no free slot. -/
theorem refuse
    {sock : Fd}
    {point : Point R}
    (order : s.InOrder size listensock)
    (unused : s.kernel.socket sock = none) :
    ({ s with
       kernel := (s.kernel.accept sock).close sock
       point := point
       history := .close sock ((s.kernel.accept sock).socket sock) ::
         .accepted sock s.kernel.accepted :: s.history } :
      State R).InOrder size listensock := by
  have same := Kernel.close_accept_socket unused
  constructor
  · exact order.first
  · exact order.distinct
  · exact order.inside
  · exact (congrFun same listensock).trans order.listening
  · intro i fd notFirst present
    obtain ⟨number, client⟩ := order.client i fd notFirst present
    exact ⟨number, (congrFun same fd).trans client⟩
  · intro fd number client
    exact order.present fd number ((congrFun same fd).symm.trans client)
  · exact (order.tracks.accept unused).close (Kernel.accept_socket_self sock s.kernel)

/-- A connection is closed and its slot is free again. -/
theorem release
    {i : Nat}
    {fd : Fd}
    {point : Point R}
    (order : s.InOrder size listensock)
    (present : s.slot i = some fd)
    (isClient : fd ≠ listensock) :
    ({ slot := Function.update s.slot i none
       kernel := s.kernel.close fd
       point := point
       history := .close fd (s.kernel.socket fd) :: s.history } :
      State R).InOrder size listensock := by
  have notFirst : i ≠ 0 := by
    rintro rfl
    exact isClient (Option.some.inj (present.symm.trans order.first))
  have remains {j : Nat} {other : Fd}
      (atJ : Function.update s.slot i none j = some other) :
      s.slot j = some other ∧ other ≠ fd := by
    obtain ⟨elsewhere, before⟩ := Transition.update_none_eq_some_iff.mp atJ
    refine ⟨before, ?_⟩
    rintro rfl
    exact elsewhere (order.distinct j i other before present)
  constructor
  · exact (Function.update_of_ne notFirst.symm ..).trans order.first
  · intro j k other atJ atK
    exact order.distinct j k other (remains atJ).1 (remains atK).1
  · intro j other jNotFirst atJ
    exact order.inside j other jNotFirst (remains atJ).1
  · exact (Kernel.close_socket_of_ne isClient.symm).trans order.listening
  · intro j other jNotFirst atJ
    obtain ⟨atJ, different⟩ := remains atJ
    obtain ⟨number, client⟩ := order.client j other jNotFirst atJ
    exact ⟨number, (Kernel.close_socket_of_ne different).trans client⟩
  · intro other number client
    change (s.kernel.close fd).socket other = some (.client number) at client
    by_cases same : other = fd
    · rw [same, Kernel.close_socket_self] at client
      exact absurd client.symm (Option.some_ne_none _)
    · rw [Kernel.close_socket_of_ne same] at client
      obtain ⟨j, jNotFirst, atJ⟩ := order.present other number client
      refine ⟨j, jNotFirst, ?_⟩
      have notFreed : j ≠ i := by
        rintro rfl
        exact same (Option.some.inj (atJ.symm.trans present))
      exact (Function.update_of_ne notFreed ..).trans atJ
  · obtain ⟨number, client⟩ := order.client i fd notFirst present
    exact order.tracks.close client

theorem step
    (order : s.InOrder device.size listensock)
    (stepped : Step device listensock s s') :
    s'.InOrder device.size listensock := by
  cases stepped with
  | report here reports known => exact order.of_event rfl
  | finish here => exact order.of_point
  | skip here => exact order.of_point
  | fail here visited present isReady => exact order.of_event rfl
  | assign here visited present isReady unused notFirst inside free =>
      have called : ({ s with
          history := .accept listensock (s.kernel.socket listensock) :: s.history } :
          State R).InOrder device.size listensock := order.of_event rfl
      exact called.assign unused notFirst inside free
  | refuse here visited present isReady unused =>
      have called : ({ s with
          history := .accept listensock (s.kernel.socket listensock) :: s.history } :
          State R).InOrder device.size listensock := order.of_event rfl
      exact called.refuse unused
  | receive here visited present isReady => exact order.of_event rfl
  | @release i report fd here visited present isReady isClient =>
      have called : ({ s with history := .recv fd (s.kernel.socket fd) :: s.history } :
          State R).InOrder device.size listensock := order.of_event rfl
      exact called.release present isClient

theorem tableOk
    (order : s.InOrder size listensock) :
    TableOk size listensock s.slot s.history := by
  constructor
  · exact order.first
  · intro i j fd _ _ atI atJ
    exact order.distinct i j fd atI atJ
  · intro fd
    constructor
    · rintro ⟨i, positive, -, present⟩
      obtain ⟨number, client⟩ := order.client i fd (by omega) present
      exact ⟨number, (order.tracks.open_iff fd number).mp client⟩
    · rintro ⟨number, stillOpen⟩
      have client := (order.tracks.open_iff fd number).mpr stillOpen
      obtain ⟨i, notFirst, present⟩ := order.present fd number client
      refine ⟨i, Nat.one_le_iff_ne_zero.mpr notFirst, ?_, present⟩
      exact order.inside i fd notFirst present
  · exact order.tracks.closedClients
  · exact order.tracks.once

end InOrder

end State

theorem inOrder
    {R : Type} (device : Device R) (listensock : Fd) :
    (machine device listensock).Invariant (State.InOrder device.size listensock) := by
  apply Transition.Machine.invariant_of_steps
  · exact fun s starts => State.InOrder.initial starts
  · exact fun s s' _ order stepped => order.step stepped

/-! ## Rounds -/

namespace State

variable {R : Type} {device : Device R} {listensock : Fd} {s s' : State R}

/-- In a pass, what the report says about the slots that are still to be visited is
about the very sockets in them. -/
structure Current (device : Device R) (s : State R) : Prop where
  begins : ∀ report, s.point = .visiting 0 report → device.reports s.slot report
  ahead : ∀ i report, s.point = .visiting i report → ∀ j fd, i ≤ j →
    j < device.size → s.slot j = some fd → device.ready report j fd = true →
      reported s.history fd = s.kernel.socket fd
  backed : Backed s.history

namespace Current

/-- The slot behind the one that was visited, if the tables agree there. -/
theorem next
    {i : Nat}
    {report : R}
    {history : List Event}
    {slot : Nat → Option Fd}
    {kernel : Kernel}
    (current : s.Current device)
    (here : s.point = .visiting i report)
    (sameReport : reported history = reported s.history)
    (remains : ∀ j fd, i < j → slot j = some fd → device.ready report j fd = true →
      s.slot j = some fd ∧ kernel.socket fd = s.kernel.socket fd)
    (backed : Backed history) :
    ({ slot := slot
       kernel := kernel
       point := .visiting (i + 1) report
       history := history } : State R).Current device := by
  constructor
  · intro report' atZero
    exact absurd (Point.visiting.inj atZero).1 (Nat.succ_ne_zero i)
  · intro i' report' atNext j fd behind inside present isReady
    obtain ⟨rfl, rfl⟩ := Point.visiting.inj atNext
    obtain ⟨presentBefore, sameSocket⟩ := remains j fd behind present isReady
    change reported history fd = kernel.socket fd
    rw [sameReport, sameSocket]
    exact current.ahead i report here j fd (Nat.le_of_lt behind) inside presentBefore
      isReady
  · exact backed

/-- A call on the socket in a ready slot is backed by the report. -/
theorem call
    {i : Nat}
    {report : R}
    {fd : Fd}
    {size : Nat}
    (current : s.Current device)
    (order : s.InOrder size listensock)
    (here : s.point = .visiting i report)
    (visited : i < device.size)
    (present : s.slot i = some fd)
    (isReady : device.ready report i fd = true) :
    (s.kernel.socket fd ≠ none ∧ reported s.history fd = s.kernel.socket fd) ∧
      Backed s.history := by
  refine ⟨⟨order.isOpen present, ?_⟩, current.backed⟩
  exact current.ahead i report here i fd (Nat.le_refl i) visited present isReady

/-- `accept` is called in front of all other slots, so that the new descriptor comes
into a slot that was free when the kernel made its report. -/
theorem not_ready_of_new
    {i pos : Nat}
    {report : R}
    {sock : Fd}
    {size : Nat}
    (current : s.Current device)
    (truthful : device.Truthful)
    (order : s.InOrder size listensock)
    (here : s.point = .visiting i report)
    (present : s.slot i = some listensock)
    (unused : s.kernel.socket sock = none)
    (inside : pos < device.size)
    (free : s.slot pos = none) :
    device.ready report pos sock = false := by
  obtain rfl := order.eq_zero present
  apply truthful s.slot report (current.begins report here) pos sock inside free
  intro j _ taken
  exact order.isOpen taken unused

theorem step
    (truthful : device.Truthful)
    (current : s.Current device)
    (order : s.InOrder device.size listensock)
    (stepped : Step device listensock s s') :
    s'.Current device := by
  cases stepped with
  | @report report ready here reports known =>
      constructor
      · intro report' atZero
        obtain ⟨-, rfl⟩ := Point.visiting.inj atZero
        exact reports
      · intro i report' atZero j fd _ inside present isReady
        obtain ⟨-, rfl⟩ := Point.visiting.inj atZero
        exact known j fd inside present isReady
      · exact current.backed
  | finish here =>
      constructor
      · exact fun report atZero => absurd atZero (Point.waiting_ne 0 report)
      · exact fun i report atZero => absurd atZero (Point.waiting_ne i report)
      · exact current.backed
  | skip here =>
      apply current.next here
      · rfl
      · exact fun j fd _ present _ => ⟨present, rfl⟩
      · exact current.backed
  | fail here visited present isReady =>
      apply current.next here
      · rfl
      · exact fun j fd _ present _ => ⟨present, rfl⟩
      · exact current.call order here visited present isReady
  | @assign i pos report sock here visited present isReady unused notFirst inside free =>
      apply current.next here
      · rfl
      · intro j fd _ atJ otherReady
        by_cases isPos : j = pos
        · rw [isPos] at atJ otherReady
          rw [Function.update_self] at atJ
          obtain rfl := Option.some.inj atJ
          rw [current.not_ready_of_new truthful order here present unused inside free]
            at otherReady
          exact absurd otherReady Bool.false_ne_true
        · rw [Function.update_of_ne isPos] at atJ
          refine ⟨atJ, Kernel.accept_socket_of_ne ?_⟩
          rintro rfl
          exact order.isOpen atJ unused
      · exact current.call order here visited present isReady
  | refuse here visited present isReady unused =>
      apply current.next here
      · rfl
      · intro j fd _ atJ _
        exact ⟨atJ, congrFun (Kernel.close_accept_socket unused) fd⟩
      · exact current.call order here visited present isReady
  | receive here visited present isReady =>
      apply current.next here
      · rfl
      · exact fun j fd _ present _ => ⟨present, rfl⟩
      · exact current.call order here visited present isReady
  | @release i report fd here visited present isReady isClient =>
      apply current.next here
      · rfl
      · intro j other behind atJ _
        rw [Function.update_of_ne (Nat.ne_of_gt behind)] at atJ
        refine ⟨atJ, Kernel.close_socket_of_ne ?_⟩
        rintro rfl
        exact Nat.ne_of_gt behind (order.distinct j i other atJ present)
      · exact current.call order here visited present isReady

end Current

end State

theorem current
    {R : Type} {device : Device R} (truthful : device.Truthful) (listensock : Fd) :
    (machine device listensock).Invariant (State.Current device) := by
  apply Transition.Machine.invariant_of_steps
  · intro s starts
    constructor
    · intro report atZero
      rw [starts.point] at atZero
      exact absurd atZero (Point.waiting_ne 0 report)
    · intro i report atZero
      rw [starts.point] at atZero
      exact absurd atZero (Point.waiting_ne i report)
    · rw [starts.history]
      trivial
  · intro s s' reached current stepped
    exact current.step truthful (inOrder device listensock s reached) stepped

end Slots
end Multiplex
end LearnInLinux
