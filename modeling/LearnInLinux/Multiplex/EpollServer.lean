import LearnInLinux.Basic
import LearnInLinux.Multiplex.Kernel
import Mathlib.Data.Int.Order.Basic

/-!
# The server around `epoll_wait`

This server keeps no table of its own: epoll knows which descriptors to watch, and each
event that `epoll_wait` leaves in `_revs` names one of them. A turn of the pass over
`_revs` may close a descriptor, or get one from `accept`, before later events are looked
at, so what the later events name has to stay what it was.
-/

namespace LearnInLinux
namespace Multiplex
namespace EpollServer

/-- `EPOLLIN` -/
def EPOLLIN : BitVec 32 := 1

/-- Number of events that one `epoll_wait` can report. -/
def gnum : Nat := 64

/-- The timeout of `epoll_wait`, in milliseconds. -/
def timeout : Int := -1

/-- `sizeof(buffer)` of `Recver` -/
def bufferSize : Nat := 10240

/-- `struct epoll_event` -/
structure EpollEvent where
  events : BitVec 32
  fd : Fd

/-- The descriptors that an epoll instance watches, with the events it looks for. -/
abbrev Interest := Fd → Option (BitVec 32)

/-- `epoll_wait(epfd, revs, num, timeout)` returns a number and writes so many events. -/
abbrev EpollWait :=
  (interest : Interest) → (num : Nat) → (timeout : Int) → (n : Int) →
    (revs : Nat → EpollEvent) → Prop

/-- The operations of `epoll_ctl` that the server uses. -/
inductive Oper
  | add
  | del

/-- What the calls in one turn of the pass return. -/
structure Answer where
  /-- What `accept` or `recv` returns. -/
  result : Int
  /-- The bytes that `recv` writes. -/
  data : Bytes
  /-- Epoll has room for one more descriptor. -/
  room : Bool

/-- Where the server is. -/
inductive Point
  | waiting
  /-- In front of event `i` of the `n` events of `HandlerEvents`. -/
  | handling (i n : Nat)
  /-- An assertion has failed. -/
  | aborted

/-- The events of the last `epoll_wait`, the interest list, the descriptors of the process
and the history of the run. -/
structure State where
  revs : Nat → EpollEvent
  interest : Interest
  kernel : Kernel
  point : Point
  history : List Event
  /-- The connections that `Accepter` could not add to epoll. -/
  refused : List Nat
  /-- What `_HandlerRequest` was called with, and the socket it came from. -/
  requests : List (Option Socket × Bytes)

namespace State

/-- Behind the constructor. -/
def create (listensock : Fd) (revs : Nat → EpollEvent) (kernel : Kernel) : State where
  revs := revs
  interest := Function.update (fun _ => none) listensock (some EPOLLIN)
  kernel := kernel
  point := .waiting
  history := []
  refused := []
  requests := []

/-- The server goes to another point. -/
def goto (point : Point) (s : State) : State :=
  { s with point := point }

/-- A note of a call. -/
def log (event : Event) (s : State) : State :=
  { s with history := event :: s.history }

/-- The kernel also forgets what epoll was to look for. -/
def close (fd : Fd) (s : State) : State :=
  { s with
    interest := Function.update s.interest fd none
    kernel := s.kernel.close fd
    history := .close fd (s.kernel.socket fd) :: s.history }

/-- `accept` has returned a new descriptor. -/
def opened (sock : Fd) (s : State) : State :=
  { s with
    kernel := s.kernel.accept sock
    history := .accepted sock s.kernel.accepted :: s.history }

/-- Adding fails for a descriptor that is not open or is there already, or when there is
no room; deleting fails for a descriptor that is not there. -/
def CtlEpoll
    (oper : Oper) (sock : Fd) (events : BitVec 32) (room : Bool) (s : State) :
    Bool × State :=
  match oper with
  | .add =>
      if s.kernel.socket sock ≠ none ∧ s.interest sock = none ∧ room = true then
        (true, { s with interest := Function.update s.interest sock (some events) })
      else (false, s)
  | .del =>
      if s.interest sock ≠ none then
        (true, { s with interest := Function.update s.interest sock none })
      else (false, s)

/-- `none` is a result that `accept` does not have: a descriptor that is open. -/
def Accepter (listensock sock : Fd) (room : Bool) (s : State) : Option State :=
  let called := s.log (.accept listensock (s.kernel.socket listensock))
  if sock < 0 then some called
  else if s.kernel.socket sock = none then
    let (added, t) := (called.opened sock).CtlEpoll .add sock EPOLLIN room
    -- the descriptor is not closed when it could not be added
    if added then some t
    else some { t with refused := s.kernel.accepted :: t.refused }
  else none

/-- The callback gets what was read from a client. -/
def HandlerRequest (sock : Fd) (request : Bytes) (s : State) : State :=
  { s with requests := (s.kernel.socket sock, request) :: s.requests }

/-- `assert(res)` stands between the removal from epoll and `close`. -/
def leave (sock : Fd) (s : State) : State :=
  let (res, t) := s.CtlEpoll .del sock 0 true
  if res then t.close sock else t.goto .aborted

/-- `none` is a result that `recv` does not have: more bytes than it was asked for. -/
def Recver (sock : Fd) (n : Int) (data : Bytes) (s : State) : Option State :=
  let called := s.log (.recv sock (s.kernel.socket sock))
  if 0 < n then
    if data.length = n ∧ n ≤ bufferSize - 1 then
      some (called.HandlerRequest sock (Text.cString 0 (data ++ [0])))
    else none
  else if n = 0 then some (called.leave sock)
  else some (called.leave sock)

/-- One turn of the loop of `HandlerEvents`. -/
def HandlerEvents
    (listensock : Fd) (i n : Nat) (answer : Answer) (s : State) : Option State :=
  let revents := (s.revs i).events
  let sock := (s.revs i).fd
  let next := s.goto (.handling (i + 1) n)
  if revents &&& EPOLLIN ≠ 0 then
    if sock = listensock then next.Accepter listensock answer.result answer.room
    else next.Recver sock answer.result answer.data
  else some next

/-- What `epoll_wait` leaves in `_revs`. -/
def WaitEpoll (n : Int) (revs : Nat → EpollEvent) (s : State) : State :=
  { s with revs := fun i => if (i : Int) < n then revs i else s.revs i }

/-- The sockets that the first `n` events report readable. -/
def readable (n : Nat) (s : State) (fd : Fd) : Option Socket :=
  if ∃ i < n, (s.revs i).fd = fd ∧ (s.revs i).events &&& EPOLLIN ≠ 0 then
    s.kernel.socket fd
  else none

/-- The `switch` of `loopOnce`, with the assertion at the head of `HandlerEvents`. -/
def loopOnce (n : Int) (s : State) : State :=
  if n = 0 then s
  else if n = -1 then s
  else if 0 < n then (s.log (.round (s.readable n.toNat))).goto (.handling 0 n.toNat)
  else s.goto .aborted

end State

/-- The steps of `start`. -/
inductive Step (epollWait : EpollWait) (listensock : Fd) (s : State) : State → Prop
  | wait {n : Int} {revs : Nat → EpollEvent}
      (here : s.point = .waiting)
      (returned : epollWait s.interest gnum timeout n revs) :
      Step epollWait listensock s ((s.WaitEpoll n revs).loopOnce n)
  | turn {i n : Nat} {answer : Answer} {t : State}
      (here : s.point = .handling i n)
      (inside : i < n)
      (handled : s.HandlerEvents listensock i n answer = some t) :
      Step epollWait listensock s t
  | finish {n : Nat}
      (here : s.point = .handling n n) :
      Step epollWait listensock s (s.goto .waiting)

/-- All runs of a server whose constructor has added the listening socket. -/
def machine (epollWait : EpollWait) (listensock : Fd) : Transition.Machine State where
  start s := 0 ≤ listensock ∧ ∃ (revs : Nat → EpollEvent) (kernel : Kernel),
    kernel.Initial listensock ∧ s = State.create listensock revs kernel
  step := Step epollWait listensock

/-- `epoll_wait` returns -1 or a count of events that is at most `num`; each event is
about a descriptor that is watched, and no two of them are about the same. -/
structure Reports (epollWait : EpollWait) : Prop where
  count : ∀ interest num timeout n revs, epollWait interest num timeout n revs →
    -1 ≤ n ∧ n ≤ num
  watched : ∀ interest num timeout n revs, epollWait interest num timeout n revs →
    ∀ i : Nat, i < n → interest (revs i).fd ≠ none
  once : ∀ interest num timeout n revs, epollWait interest num timeout n revs →
    ∀ i j : Nat, i < j → j < n → (revs i).fd ≠ (revs j).fd

namespace State

variable {listensock : Fd} {s t : State}

/-! ## What the calls can do -/

/-- The constructor watches the listening socket. -/
theorem interest_create
    (listensock : Fd) (revs : Nat → EpollEvent) (kernel : Kernel) :
    (create listensock revs kernel).interest =
      Function.update (fun _ => none) listensock (some EPOLLIN) :=
  rfl

/-- `accept` opens the descriptor. -/
theorem kernel_opened (sock : Fd) (s : State) :
    (s.opened sock).kernel = s.kernel.accept sock :=
  rfl

/-- What can come out of `Accepter`. -/
theorem Accepter_cases
    {sock : Fd}
    {room : Bool}
    (accepted : s.Accepter listensock sock room = some t) :
    t = s.log (.accept listensock (s.kernel.socket listensock)) ∨
      (s.kernel.socket sock = none ∧
        ((s.interest sock = none ∧
            t = { (s.log (.accept listensock (s.kernel.socket listensock))).opened sock with
              interest := Function.update s.interest sock (some EPOLLIN) }) ∨
          t = { (s.log (.accept listensock (s.kernel.socket listensock))).opened sock with
              refused := s.kernel.accepted :: s.refused })) := by
  rw [Accepter] at accepted
  split at accepted
  · left
    exact (Option.some.inj accepted).symm
  · split at accepted
    · rename_i unused
      refine .inr ⟨unused, ?_⟩
      by_cases possible : s.interest sock = none ∧ room = true
      · left
        have opened : ((s.log (.accept listensock (s.kernel.socket listensock))).opened
            sock).kernel.socket sock ≠ none := by
          rw [kernel_opened, Kernel.accept_socket_self]
          exact Option.some_ne_none _
        rw [CtlEpoll, if_pos ⟨opened, possible⟩] at accepted
        exact ⟨possible.1, (Option.some.inj accepted).symm⟩
      · right
        rw [CtlEpoll, if_neg fun added => possible added.2] at accepted
        exact (Option.some.inj accepted).symm
    · exact absurd accepted (by simp)

/-- A descriptor that is watched is taken out and closed. -/
theorem leave_of_watched
    {sock : Fd}
    (watched : s.interest sock ≠ none) :
    s.leave sock = s.close sock := by
  rw [leave, CtlEpoll, if_pos watched]
  change ({ s with interest := Function.update s.interest sock none } : State).close sock = _
  rw [close, close, Function.update_idem]

/-- What `Recver` does on a watched descriptor. -/
theorem Recver_cases
    {sock : Fd}
    {n : Int}
    {data : Bytes}
    (watched : s.interest sock ≠ none)
    (received : s.Recver sock n data = some t) :
    (∃ request, t = (s.log (.recv sock (s.kernel.socket sock))).HandlerRequest sock
        request ∧ 0 ∉ request ∧ request.length < bufferSize) ∨
      t = (s.log (.recv sock (s.kernel.socket sock))).close sock := by
  have stillWatched :
      (s.log (.recv sock (s.kernel.socket sock))).interest sock ≠ none := watched
  rw [Recver] at received
  split at received
  · split at received
    · rename_i positive possible
      left
      refine ⟨_, (Option.some.inj received).symm, ?_, ?_⟩
      · exact Text.terminator_not_mem_cString 0 _
      · have shorter := (Text.cString_sublist 0 data).length_le
        rw [Text.cString_append_terminator]
        have size : bufferSize = 10240 := rfl
        omega
    · exact absurd received (by simp)
  · right
    rw [leave_of_watched stillWatched, ite_self] at received
    exact (Option.some.inj received).symm

/-- What one turn of the pass can do. -/
theorem HandlerEvents_cases
    {i n : Nat}
    {answer : Answer}
    (handled : s.HandlerEvents listensock i n answer = some t) :
    t = s.goto (.handling (i + 1) n) ∨
      ((s.revs i).events &&& EPOLLIN ≠ 0 ∧
        (((s.revs i).fd = listensock ∧
            (s.goto (.handling (i + 1) n)).Accepter listensock answer.result
              answer.room = some t) ∨
          ((s.revs i).fd ≠ listensock ∧
            (s.goto (.handling (i + 1) n)).Recver (s.revs i).fd answer.result
              answer.data = some t))) := by
  rw [HandlerEvents] at handled
  split at handled
  · rename_i found
    refine .inr ⟨found, ?_⟩
    split at handled
    · rename_i listening
      exact .inl ⟨listening, handled⟩
    · rename_i notListening
      exact .inr ⟨notListening, handled⟩
  · left
    exact (Option.some.inj handled).symm

/-! ## What epoll watches -/

/-- Epoll watches the listening socket and the connections that it had room for. -/
structure Watching (listensock : Fd) (s : State) : Prop where
  tracks : Tracks s.kernel s.history
  listening_iff : ∀ fd, s.kernel.socket fd = some .listening ↔ fd = listensock
  events : ∀ fd events, s.interest fd = some events → events = EPOLLIN
  watched_iff : ∀ fd, s.interest fd ≠ none ↔ fd = listensock ∨
    ∃ number, s.kernel.socket fd = some (.client number) ∧ number ∉ s.refused
  stranded : ∀ number ∈ s.refused, ∃ fd, s.kernel.socket fd = some (.client number)
  received : ∀ fd number, .recv fd (some (.client number)) ∈ s.history →
    number < s.kernel.accepted ∧ number ∉ s.refused

namespace Watching

variable {sock : Fd}

/-- A descriptor that is watched is open. -/
theorem open_of_watched
    (watching : Watching listensock s)
    (watched : s.interest sock ≠ none) :
    s.kernel.socket sock ≠ none := by
  rcases (watching.watched_iff sock).mp watched with rfl | ⟨number, client, -⟩
  · rw [(watching.listening_iff sock).mpr rfl]
    exact Option.some_ne_none _
  · rw [client]
    exact Option.some_ne_none _

/-- What `accept` returns is not watched yet. -/
theorem unwatched_of_unused
    (watching : Watching listensock s)
    (unused : s.kernel.socket sock = none) :
    s.interest sock = none := by
  by_contra watched
  exact watching.open_of_watched watched unused

/-- The listening socket keeps its descriptor. -/
theorem ne_listensock_of_unused
    (watching : Watching listensock s)
    (unused : s.kernel.socket sock = none) :
    sock ≠ listensock := by
  rintro rfl
  rw [(watching.listening_iff sock).mpr rfl] at unused
  exact Option.some_ne_none _ unused

/-- A watched descriptor other than the listening socket is a connection. -/
theorem client_of_watched
    (watching : Watching listensock s)
    (watched : s.interest sock ≠ none)
    (notListening : sock ≠ listensock) :
    ∃ number, s.kernel.socket sock = some (.client number) ∧ number ∉ s.refused := by
  rcases (watching.watched_iff sock).mp watched with listening | client
  · exact absurd listening notListening
  · exact client

/-- Only connections that were accepted are refused. -/
theorem refused_lt
    {number : Nat}
    (watching : Watching listensock s)
    (refused : number ∈ s.refused) :
    number < s.kernel.accepted := by
  obtain ⟨fd, client⟩ := watching.stranded number refused
  exact watching.tracks.client_lt client

/-- Where the server is and what it was called with does not matter. -/
theorem of_same
    (watching : Watching listensock s)
    (kernel : t.kernel = s.kernel)
    (interest : t.interest = s.interest)
    (history : t.history = s.history)
    (refused : t.refused = s.refused) :
    Watching listensock t := by
  cases s
  cases t
  cases kernel
  cases interest
  cases history
  cases refused
  exact ⟨watching.tracks, watching.listening_iff, watching.events, watching.watched_iff,
    watching.stranded, watching.received⟩

/-- The constructor. -/
theorem create
    {revs : Nat → EpollEvent}
    {kernel : Kernel}
    (initial : kernel.Initial listensock) :
    Watching listensock (State.create listensock revs kernel) := by
  have others (fd : Fd) (different : fd ≠ listensock) :
      kernel.socket fd ≠ some .listening ∧
        ∀ number, kernel.socket fd ≠ some (.client number) := by
    rcases initial.others fd different with isNone | isOther
    · simp [isNone]
    · simp [isOther]
  constructor
  · exact Tracks.initial initial
  · intro fd
    constructor
    · intro listening
      by_contra different
      exact (others fd different).1 listening
    · rintro rfl
      exact initial.listening
  · intro fd events watched
    rw [interest_create] at watched
    rcases Transition.update_some_eq_some_iff.mp watched with ⟨-, isIn⟩ | ⟨-, isNone⟩
    · exact isIn.symm
    · exact absurd isNone.symm (Option.some_ne_none _)
  · intro fd
    by_cases same : fd = listensock
    · apply iff_of_true _ (.inl same)
      rw [interest_create, same, Function.update_self]
      exact Option.some_ne_none _
    · apply iff_of_false
      · rw [interest_create, Function.update_of_ne same]
        exact not_not_intro rfl
      · rintro (isListening | ⟨number, client, -⟩)
        · exact same isListening
        · exact (others fd same).2 number client
  · intro number refused
    exact absurd refused List.not_mem_nil
  · intro fd number received
    exact absurd received List.not_mem_nil

/-- Nothing is opened or closed, and nothing is read from a refused connection. -/
theorem neutral
    {event : Event}
    (watching : Watching listensock s)
    (isNeutral : event.neutral = true)
    (received : ∀ fd number, event = .recv fd (some (.client number)) →
      number < s.kernel.accepted ∧ number ∉ s.refused) :
    Watching listensock (s.log event) where
  tracks := watching.tracks.neutral isNeutral
  listening_iff := watching.listening_iff
  events := watching.events
  watched_iff := watching.watched_iff
  stranded := watching.stranded
  received := by
    intro fd number present
    rcases List.mem_cons.mp present with isNew | before
    · exact received fd number isNew.symm
    · exact watching.received fd number before

/-- `epoll_wait` returns. -/
theorem round_returned
    (watching : Watching listensock s)
    (ready : Fd → Option Socket) :
    Watching listensock (s.log (.round ready)) :=
  watching.neutral rfl fun _ _ same => Event.noConfusion same

/-- `accept` is called on the listening socket. -/
theorem accept_called (watching : Watching listensock s) :
    Watching listensock (s.log (.accept listensock (s.kernel.socket listensock))) :=
  watching.neutral rfl fun _ _ same => Event.noConfusion same

/-- `recv` is called on a watched connection. -/
theorem recv_called
    (watching : Watching listensock s)
    (watched : s.interest sock ≠ none)
    (notListening : sock ≠ listensock) :
    Watching listensock (s.log (.recv sock (s.kernel.socket sock))) := by
  apply watching.neutral rfl
  intro fd number same
  obtain ⟨client, isClient, served⟩ := watching.client_of_watched watched notListening
  obtain ⟨-, isSocket⟩ := Event.recv.inj same
  obtain rfl : client = number :=
    Socket.client.inj (Option.some.inj (isClient.symm.trans isSocket))
  exact ⟨watching.tracks.client_lt isClient, served⟩

/-- A new connection is not the listening socket. -/
theorem listening_opened
    (watching : Watching listensock s)
    (unused : s.kernel.socket sock = none)
    (fd : Fd) :
    (s.kernel.accept sock).socket fd = some .listening ↔ fd = listensock := by
  by_cases same : fd = sock
  · rw [same, Kernel.accept_socket_self]
    exact iff_of_false (by simp) (watching.ne_listensock_of_unused unused)
  · rw [Kernel.accept_socket_of_ne same]
    exact watching.listening_iff fd

/-- A connection stays what it is when another one is accepted. -/
theorem client_opened
    {number : Nat}
    (unused : s.kernel.socket sock = none)
    (old : ∃ fd, s.kernel.socket fd = some (.client number)) :
    ∃ fd, (s.kernel.accept sock).socket fd = some (.client number) := by
  obtain ⟨fd, client⟩ := old
  refine ⟨fd, ?_⟩
  rw [Kernel.accept_socket_of_ne]
  · exact client
  · rintro rfl
    rw [unused] at client
    exact Option.some_ne_none _ client.symm

/-- Nothing was received from a connection before it was accepted. -/
theorem received_opened
    (watching : Watching listensock s)
    (fd : Fd) (number : Nat)
    (received : .recv fd (some (.client number)) ∈ (s.opened sock).history) :
    number < s.kernel.accepted ∧ number ∉ s.refused := by
  rcases List.mem_cons.mp received with isNew | before
  · exact Event.noConfusion isNew
  · exact watching.received fd number before

/-- The new connection is watched. -/
theorem add
    (watching : Watching listensock s)
    (unused : s.kernel.socket sock = none) :
    Watching listensock { s.opened sock with
      interest := Function.update s.interest sock (some EPOLLIN) } where
  tracks := watching.tracks.accept unused
  listening_iff := watching.listening_opened unused
  events := by
    intro fd events watched
    rcases Transition.update_some_eq_some_iff.mp watched with ⟨-, isIn⟩ | ⟨-, before⟩
    · exact isIn.symm
    · exact watching.events fd events before
  watched_iff := by
    intro fd
    change Function.update s.interest sock _ fd ≠ none ↔ _ ∨
      ∃ number, (s.kernel.accept sock).socket fd = _ ∧ number ∉ s.refused
    by_cases same : fd = sock
    · rw [same, Function.update_self, Kernel.accept_socket_self]
      apply iff_of_true (Option.some_ne_none _)
      refine .inr ⟨s.kernel.accepted, rfl, ?_⟩
      exact fun refused => Nat.lt_irrefl _ (watching.refused_lt refused)
    · rw [Function.update_of_ne same, Kernel.accept_socket_of_ne same]
      exact watching.watched_iff fd
  stranded := fun number refused => client_opened unused (watching.stranded number refused)
  received := by
    intro fd number received
    obtain ⟨older, served⟩ := watching.received_opened fd number received
    exact ⟨Nat.lt_succ_of_lt older, served⟩

/-- The new connection is not watched, and stays open. -/
theorem refuse
    (watching : Watching listensock s)
    (unused : s.kernel.socket sock = none) :
    Watching listensock { s.opened sock with
      refused := s.kernel.accepted :: s.refused } where
  tracks := watching.tracks.accept unused
  listening_iff := watching.listening_opened unused
  events := watching.events
  watched_iff := by
    intro fd
    change s.interest fd ≠ none ↔ _ ∨
      ∃ number, (s.kernel.accept sock).socket fd = _ ∧ number ∉ _ :: s.refused
    by_cases same : fd = sock
    · rw [same, Kernel.accept_socket_self]
      apply iff_of_false
      · exact not_not_intro (watching.unwatched_of_unused unused)
      · rintro (isListening | ⟨number, isNew, served⟩)
        · exact watching.ne_listensock_of_unused unused isListening
        · obtain rfl := Socket.client.inj (Option.some.inj isNew)
          exact served List.mem_cons_self
    · rw [watching.watched_iff, Kernel.accept_socket_of_ne same]
      apply or_congr_right
      apply exists_congr
      intro number
      apply and_congr_right
      intro client
      rw [List.mem_cons, not_or]
      exact (and_iff_right (Nat.ne_of_lt (watching.tracks.client_lt client))).symm
  stranded := by
    intro number refused
    rcases List.mem_cons.mp refused with rfl | before
    · exact ⟨sock, Kernel.accept_socket_self sock s.kernel⟩
    · exact client_opened unused (watching.stranded number before)
  received := by
    intro fd number received
    obtain ⟨older, served⟩ := watching.received_opened fd number received
    refine ⟨Nat.lt_succ_of_lt older, ?_⟩
    rw [List.mem_cons, not_or]
    exact ⟨Nat.ne_of_lt older, served⟩

/-- A watched connection leaves epoll and is closed. -/
theorem close
    (watching : Watching listensock s)
    (watched : s.interest sock ≠ none)
    (notListening : sock ≠ listensock) :
    Watching listensock (s.close sock) := by
  obtain ⟨client, isClient, served⟩ := watching.client_of_watched watched notListening
  constructor
  · exact watching.tracks.close isClient
  · intro fd
    change (s.kernel.close sock).socket fd = some .listening ↔ _
    by_cases same : fd = sock
    · rw [same, Kernel.close_socket_self]
      exact iff_of_false (by simp) notListening
    · rw [Kernel.close_socket_of_ne same]
      exact watching.listening_iff fd
  · intro fd events present
    exact watching.events fd events (Transition.update_none_eq_some_iff.mp present).2
  · intro fd
    change Function.update s.interest sock none fd ≠ none ↔ _ ∨
      ∃ number, (s.kernel.close sock).socket fd = _ ∧ number ∉ s.refused
    by_cases same : fd = sock
    · rw [same, Function.update_self, Kernel.close_socket_self]
      apply iff_of_false (not_not_intro rfl)
      rintro (isListening | ⟨number, isNone, -⟩)
      · exact notListening isListening
      · exact Option.some_ne_none _ isNone.symm
    · rw [Function.update_of_ne same, Kernel.close_socket_of_ne same]
      exact watching.watched_iff fd
  · intro number refused
    obtain ⟨fd, stranded⟩ := watching.stranded number refused
    refine ⟨fd, ?_⟩
    change (s.kernel.close sock).socket fd = _
    rw [Kernel.close_socket_of_ne]
    · exact stranded
    · rintro rfl
      obtain rfl : client = number :=
        Socket.client.inj (Option.some.inj (isClient.symm.trans stranded))
      exact served refused
  · intro fd number received
    rcases List.mem_cons.mp received with isNew | before
    · exact Event.noConfusion isNew
    · exact watching.received fd number before

end Watching

/-! ## What a pass still has to look at -/

/-- The events from `i` on are about different descriptors, which are still watched and
still denote what `epoll_wait` has reported. -/
structure Pending (i n : Nat) (s : State) : Prop where
  bound : n ≤ gnum
  watched : ∀ j, i ≤ j → j < n → s.interest (s.revs j).fd ≠ none
  current : ∀ j, i ≤ j → j < n → (s.revs j).events &&& EPOLLIN ≠ 0 →
    reported s.history (s.revs j).fd = s.kernel.socket (s.revs j).fd
  once : ∀ j k, i ≤ j → j < k → k < n → (s.revs j).fd ≠ (s.revs k).fd

/-- What holds of a pass at a point of the server. -/
def InPass (s : State) : Point → Prop
  | .waiting => True
  | .handling i n => Pending i n s
  | .aborted => False

namespace Pending

variable {i n : Nat}

/-- A turn that leaves the later descriptors alone. -/
theorem next
    (pending : Pending i n s)
    (revs : t.revs = s.revs)
    (sameReport : reported t.history = reported s.history)
    (kept : ∀ j, i < j → j < n →
      t.interest (s.revs j).fd = s.interest (s.revs j).fd ∧
        t.kernel.socket (s.revs j).fd = s.kernel.socket (s.revs j).fd) :
    Pending (i + 1) n t := by
  constructor
  · exact pending.bound
  · intro j behind inside
    rw [revs, (kept j behind inside).1]
    exact pending.watched j (Nat.le_of_lt behind) inside
  · intro j behind inside found
    rw [revs] at found ⊢
    rw [sameReport, (kept j behind inside).2]
    exact pending.current j (Nat.le_of_lt behind) inside found
  · intro j k behind between inside
    rw [revs]
    exact pending.once j k (Nat.le_of_lt behind) between inside

/-- A new descriptor is none of the later ones. -/
theorem ne_of_unused
    {sock : Fd}
    (pending : Pending i n s)
    (watching : Watching listensock s)
    (unused : s.kernel.socket sock = none)
    {j : Nat}
    (behind : i ≤ j)
    (inside : j < n) :
    (s.revs j).fd ≠ sock := by
  intro same
  apply pending.watched j behind inside
  rw [same]
  exact watching.unwatched_of_unused unused

end Pending

/-- What the states of a run have in common. -/
structure Sound (listensock : Fd) (s : State) : Prop where
  watching : Watching listensock s
  backed : Backed s.history
  inPass : InPass s s.point

namespace Sound

variable {i n : Nat}

/-- The events that are left are of descriptors that are watched. -/
theorem pending
    (sound : Sound listensock s)
    (here : s.point = .handling i n) :
    Pending i n s := by
  have inPass := sound.inPass
  rw [here] at inPass
  exact inPass

/-- The constructor. -/
theorem create
    {revs : Nat → EpollEvent}
    {kernel : Kernel}
    (initial : kernel.Initial listensock) :
    Sound listensock (State.create listensock revs kernel) :=
  ⟨.create initial, trivial, trivial⟩

/-- The server goes back to `epoll_wait`. -/
theorem waiting (sound : Sound listensock s) : Sound listensock (s.goto .waiting) :=
  ⟨sound.watching.of_same rfl rfl rfl rfl, sound.backed, trivial⟩

/-- A turn that finds nothing to read. -/
theorem skip
    (sound : Sound listensock s)
    (here : s.point = .handling i n) :
    Sound listensock (s.goto (.handling (i + 1) n)) where
  watching := sound.watching.of_same rfl rfl rfl rfl
  backed := sound.backed
  inPass := (sound.pending here).next rfl rfl fun _ _ _ => ⟨rfl, rfl⟩

/-- The descriptor of the event denotes the socket that was reported. -/
theorem reported_here
    (sound : Sound listensock s)
    (here : s.point = .handling i n)
    (inside : i < n)
    (found : (s.revs i).events &&& EPOLLIN ≠ 0) :
    s.kernel.socket (s.revs i).fd ≠ none ∧
      reported s.history (s.revs i).fd = s.kernel.socket (s.revs i).fd := by
  have pending := sound.pending here
  constructor
  · apply sound.watching.open_of_watched
    exact pending.watched i (Nat.le_refl i) inside
  · exact pending.current i (Nat.le_refl i) inside found

/-- The turn of the listening socket. -/
theorem accepter
    {sock : Fd}
    {room : Bool}
    (sound : Sound listensock s)
    (here : s.point = .handling i n)
    (inside : i < n)
    (found : (s.revs i).events &&& EPOLLIN ≠ 0)
    (listening : (s.revs i).fd = listensock)
    (accepted : (s.goto (.handling (i + 1) n)).Accepter listensock sock room = some t) :
    Sound listensock t := by
  have pending := sound.pending here
  have backed : Backed (.accept listensock (s.kernel.socket listensock) :: s.history) := by
    have isReported := sound.reported_here here inside found
    rw [listening] at isReported
    exact ⟨isReported, sound.backed⟩
  have called := sound.watching.accept_called
  rcases Accepter_cases accepted with rfl | ⟨unused, outcome⟩
  · exact ⟨called.of_same rfl rfl rfl rfl, backed, pending.next rfl rfl fun _ _ _ => ⟨rfl, rfl⟩⟩
  · have different (j : Nat) (behind : i < j) (inside : j < n) : (s.revs j).fd ≠ sock :=
      pending.ne_of_unused sound.watching unused (Nat.le_of_lt behind) inside
    rcases outcome with ⟨-, rfl⟩ | rfl
    · refine ⟨(called.add unused).of_same rfl rfl rfl rfl, backed, pending.next rfl rfl ?_⟩
      intro j behind inside
      exact ⟨Function.update_of_ne (different j behind inside) ..,
        Kernel.accept_socket_of_ne (different j behind inside)⟩
    · refine ⟨(called.refuse unused).of_same rfl rfl rfl rfl, backed, pending.next rfl rfl ?_⟩
      intro j behind inside
      exact ⟨rfl, Kernel.accept_socket_of_ne (different j behind inside)⟩

/-- The turn of a connection. -/
theorem recver
    {result : Int}
    {data : Bytes}
    (sound : Sound listensock s)
    (here : s.point = .handling i n)
    (inside : i < n)
    (found : (s.revs i).events &&& EPOLLIN ≠ 0)
    (notListening : (s.revs i).fd ≠ listensock)
    (received : (s.goto (.handling (i + 1) n)).Recver (s.revs i).fd result data = some t) :
    Sound listensock t := by
  have pending := sound.pending here
  have watched := pending.watched i (Nat.le_refl i) inside
  have backed : Backed
      (.recv (s.revs i).fd (s.kernel.socket (s.revs i).fd) :: s.history) :=
    ⟨sound.reported_here here inside found, sound.backed⟩
  have called := sound.watching.recv_called watched notListening
  have watchedNext : (s.goto (.handling (i + 1) n)).interest (s.revs i).fd ≠ none := watched
  rcases Recver_cases watchedNext received with ⟨request, rfl, -⟩ | rfl
  · exact ⟨called.of_same rfl rfl rfl rfl, backed, pending.next rfl rfl fun _ _ _ => ⟨rfl, rfl⟩⟩
  · refine ⟨(called.close watched notListening).of_same rfl rfl rfl rfl, backed,
      pending.next rfl rfl ?_⟩
    intro j behind inside
    have different := pending.once i j (Nat.le_refl i) behind inside
    exact ⟨Function.update_of_ne different.symm .., Kernel.close_socket_of_ne different.symm⟩

/-- Every turn of `HandlerEvents`. -/
theorem turn
    {answer : Answer}
    (sound : Sound listensock s)
    (here : s.point = .handling i n)
    (inside : i < n)
    (handled : s.HandlerEvents listensock i n answer = some t) :
    Sound listensock t := by
  rcases HandlerEvents_cases handled with rfl | ⟨found, outcome⟩
  · exact sound.skip here
  · rcases outcome with ⟨listening, accepted⟩ | ⟨notListening, received⟩
    · exact sound.accepter here inside found listening accepted
    · exact sound.recver here inside found notListening received

end Sound

/-- The entries of `_revs` that were reported. -/
theorem revs_WaitEpoll
    {count : Int}
    {revs : Nat → EpollEvent}
    {i : Nat}
    (inside : (i : Int) < count) :
    (s.WaitEpoll count revs).revs i = revs i :=
  if_pos inside

/-- A new pass is about what `epoll_wait` has just reported. -/
theorem Sound.wait
    {epollWait : EpollWait}
    {count : Int}
    {revs : Nat → EpollEvent}
    (reports : Reports epollWait)
    (sound : Sound listensock s)
    (here : s.point = .waiting)
    (returned : epollWait s.interest gnum timeout count revs) :
    Sound listensock ((s.WaitEpoll count revs).loopOnce count) := by
  obtain ⟨bound, fits⟩ := reports.count _ _ _ _ _ returned
  have unchanged : Sound listensock (s.WaitEpoll count revs) := by
    refine ⟨sound.watching.of_same rfl rfl rfl rfl, sound.backed, ?_⟩
    change InPass _ s.point
    rw [here]
    trivial
  rw [loopOnce]
  split
  · exact unchanged
  · split
    · exact unchanged
    · have positive : 0 < count := by omega
      rw [if_pos positive]
      have inRange {j : Nat} (inside : j < count.toNat) : (j : Int) < count := by omega
      refine ⟨(unchanged.watching.round_returned _).of_same rfl rfl rfl rfl,
        unchanged.backed, ?_⟩
      constructor
      · omega
      · intro j _ inside
        change s.interest ((s.WaitEpoll count revs).revs j).fd ≠ none
        rw [revs_WaitEpoll (inRange inside)]
        exact reports.watched _ _ _ _ _ returned j (inRange inside)
      · intro j _ inside found
        exact if_pos ⟨j, inside, rfl, found⟩
      · intro j k _ between inside
        change ((s.WaitEpoll count revs).revs j).fd ≠ ((s.WaitEpoll count revs).revs k).fd
        rw [revs_WaitEpoll (inRange inside),
          revs_WaitEpoll (inRange (Nat.lt_trans between inside))]
        exact reports.once _ _ _ _ _ returned j k between (inRange inside)

end State

/-- All runs of the server. -/
theorem sound
    {epollWait : EpollWait}
    (reports : Reports epollWait)
    (listensock : Fd) :
    (machine epollWait listensock).Invariant (State.Sound listensock) := by
  apply Transition.Machine.invariant_of_steps
  · rintro s ⟨-, revs, kernel, initial, rfl⟩
    exact .create initial
  · intro s t _ sound stepped
    cases stepped with
    | wait here returned => exact sound.wait reports here returned
    | turn here inside handled => exact sound.turn here inside handled
    | finish here => exact sound.waiting

/-! ## Runs -/

/-- What has become of the connections. -/
structure State.Accounted (listensock : Fd) (s : State) : Prop where
  /-- Epoll looks for input on the listening socket and on the connections it had room
  for, and for nothing else. -/
  interest : ∀ fd events, s.interest fd = some events ↔ events = EPOLLIN ∧
    (fd = listensock ∨ ∃ number, s.kernel.socket fd = some (.client number) ∧
      number ∉ s.refused)
  /-- A connection that epoll had room for is watched until it is closed. -/
  served : ∀ fd number, .accepted fd number ∈ s.history → number ∉ s.refused →
    (some (.client number) ∈ closes s.history ∨
      s.kernel.socket fd = some (.client number) ∧ s.interest fd = some EPOLLIN)
  /-- Any other connection stays open, is not watched and is never read. -/
  stranded : ∀ fd number, .accepted fd number ∈ s.history → number ∈ s.refused →
    some (.client number) ∉ closes s.history ∧
      s.kernel.socket fd = some (.client number) ∧ s.interest fd = none ∧
        ∀ fd', .recv fd' (some (.client number)) ∉ s.history
  closedOnce : (closes s.history).Nodup

/-- What is watched are the listening socket and the connections that were not refused. -/
theorem State.Watching.interest_iff
    {listensock : Fd}
    {s : State}
    (watching : State.Watching listensock s)
    (fd : Fd) :
    s.interest fd = some EPOLLIN ↔ fd = listensock ∨
      ∃ number, s.kernel.socket fd = some (.client number) ∧ number ∉ s.refused := by
  rw [← watching.watched_iff fd]
  constructor
  · intro watched
    rw [watched]
    exact Option.some_ne_none _
  · intro watched
    obtain ⟨events, isWatched⟩ := Option.ne_none_iff_exists'.mp watched
    rw [isWatched, watching.events fd events isWatched]

/-- In every state of a run epoll watches the listening socket and the open connections
that it had room for; every other connection is never read, watched or closed. -/
theorem connections_accounted
    (epollWait : EpollWait) (listensock : Fd)
    (reports : Reports epollWait) :
    (machine epollWait listensock).Invariant (State.Accounted listensock) := by
  intro s reached
  have watching := (sound reports listensock s reached).watching
  have tracks := watching.tracks
  constructor
  · intro fd events
    constructor
    · intro watched
      obtain rfl := watching.events fd events watched
      exact ⟨rfl, (watching.interest_iff fd).mp watched⟩
    · rintro ⟨rfl, isWatched⟩
      exact (watching.interest_iff fd).mpr isWatched
  · intro fd number accepted notRefused
    by_cases closed : some (.client number) ∈ closes s.history
    · exact .inl closed
    · right
      have isOpen := (tracks.open_iff fd number).mpr ⟨accepted, closed⟩
      exact ⟨isOpen, (watching.interest_iff fd).mpr (.inr ⟨number, isOpen, notRefused⟩)⟩
  · intro fd number accepted refused
    obtain ⟨other, isOther⟩ := watching.stranded number refused
    have notClosed := ((tracks.open_iff other number).mp isOther).2
    have isOpen := (tracks.open_iff fd number).mpr ⟨accepted, notClosed⟩
    refine ⟨notClosed, isOpen, ?_, ?_⟩
    · by_contra watched
      rcases (watching.watched_iff fd).mp watched with rfl | ⟨client, isClient, served⟩
      · rw [(watching.listening_iff fd).mpr rfl] at isOpen
        exact absurd isOpen (by simp)
      · obtain rfl : client = number :=
          Socket.client.inj (Option.some.inj (isClient.symm.trans isOpen))
        exact served refused
    · exact fun fd' received => (watching.received fd' number received).2 refused
  · exact tracks.once

/-- In no run does one of the assertions fail; every `accept` and `recv` is made on a
socket that the last `epoll_wait` has reported readable, and no event is read behind the
end of `_revs`. -/
theorem calls_backed_and_no_abort
    (epollWait : EpollWait) (listensock : Fd)
    (reports : Reports epollWait) :
    (machine epollWait listensock).Invariant fun s =>
      s.point ≠ .aborted ∧ Backed s.history ∧
        ∀ i n, s.point = .handling i n → n ≤ gnum := by
  intro s reached
  have sound := sound reports listensock s reached
  refine ⟨?_, sound.backed, fun i n here => (sound.pending here).bound⟩
  intro aborted
  have inPass := sound.inPass
  rw [aborted] at inPass
  exact inPass

/-- `epoll_wait` reports as many of the watched descriptors as it likes, each once. -/
def several : EpollWait := fun interest num _ n revs =>
  0 ≤ n ∧ n ≤ num ∧ (∀ i : Nat, i < n → interest (revs i).fd ≠ none) ∧
    ∀ i j : Nat, i < j → j < n → (revs i).fd ≠ (revs j).fd

theorem reports_several : Reports several := by
  constructor
  · rintro interest num timeout n revs ⟨notNegative, fits, -, -⟩
    exact ⟨by omega, fits⟩
  · rintro interest num timeout n revs ⟨-, -, watched, -⟩
    exact watched
  · rintro interest num timeout n revs ⟨-, -, -, once⟩
    exact once

/-- The listening socket and the first client. -/
def bothReady : Nat → EpollEvent := fun i =>
  ⟨EPOLLIN, if i = 0 then 3 else 5⟩

theorem several_bothReady
    {interest : Interest}
    {n : Nat}
    (few : n ≤ 2)
    (listening : interest 3 ≠ none)
    (client : n = 2 → interest 5 ≠ none) :
    several interest gnum timeout n bothReady := by
  have fits : (n : Int) ≤ gnum := Int.ofNat_le.mpr (Nat.le_trans few (by decide))
  refine ⟨Int.natCast_nonneg n, fits, fun i inside => ?_, fun i j between inside => ?_⟩
  · rcases Nat.eq_zero_or_pos i with rfl | behind
    · exact listening
    · rw [bothReady, if_neg (Nat.ne_of_gt behind)]
      exact client (by omega)
  · obtain rfl : i = 0 := by omega
    rw [bothReady, bothReady, if_pos rfl, if_neg (Nat.ne_of_gt between)]
    decide

/-- Only the listening socket is open. -/
def onlyListening : Kernel :=
  ⟨fun fd => if fd = 3 then some .listening else none, 0⟩

/-- `accept` returns the descriptor. -/
def brings (sock : Fd) : Answer :=
  ⟨sock, [], true⟩

/-- One client is connected, and the listening socket and this client are reported: the
first event has brought a second client, the other one a request. -/
theorem reachable_bothHandled :
    ∃ s, (machine several 3).Reachable s ∧ s.point = .handling 2 2 ∧
      s.kernel.accepted = 2 ∧ s.requests = [(some (.client 0), [104, 105])] := by
  have isInitial : onlyListening.Initial 3 :=
    ⟨rfl, rfl, fun fd different => .inl (if_neg different)⟩
  have created : (machine several 3).Reachable (State.create 3 bothReady onlyListening) :=
    .start ⟨by decide, bothReady, onlyListening, isInitial, rfl⟩
  have reported := created.step (.wait rfl (@several_bothReady _ 1 (by decide)
    (by decide) (by decide)))
  have accepted := reported.step (@Step.turn _ _ _ 0 1 (brings 5) _ rfl Nat.one_pos rfl)
  have waiting := accepted.step (@Step.finish _ _ _ 1 rfl)
  have reportedBoth := waiting.step (.wait rfl (@several_bothReady _ 2 (by decide)
    (by decide) (by decide)))
  have acceptedToo := reportedBoth.step (@Step.turn _ _ _ 0 2 (brings 6) _ rfl
    (by decide) rfl)
  have received := acceptedToo.step (@Step.turn _ _ _ 1 2 ⟨2, [104, 105], true⟩ _ rfl
    (by decide) rfl)
  exact ⟨_, received, rfl, rfl, rfl⟩

theorem connections_accounted_several :
    ∃ s : State, s.point = .handling 2 2 ∧ s.kernel.accepted = 2 ∧ State.Accounted 3 s := by
  obtain ⟨s, reached, here, two, -⟩ := reachable_bothHandled
  exact ⟨s, here, two, connections_accounted several 3 reports_several s reached⟩

theorem calls_backed_and_no_abort_several :
    ∃ s : State, s.point = .handling 2 2 ∧
      s.requests = [(some (.client 0), [104, 105])] ∧ Backed s.history := by
  obtain ⟨s, reached, here, -, request⟩ := reachable_bothHandled
  exact ⟨s, here, request, (calls_backed_and_no_abort several 3 reports_several s reached).2.1⟩

end EpollServer
end Multiplex
end LearnInLinux
