import LearnInLinux.Reactor.History
import LearnInLinux.Reactor.Safety

/-!
# Registrations that fail

`AddConnection` does not look at what `AddSockToEpoll` returns. A descriptor that epoll
refuses is in the map and open, but no event is ever reported for it. Handlers run for
reported events only, so nothing releases it either: the refusals of the history are
the connections that stay so for the rest of the run.
-/

namespace LearnInLinux
namespace Reactor

namespace Event

/-- `accept` has returned a descriptor, or epoll has refused one. -/
def registers : Event → Bool
  | .accepted .. => true
  | event => event.refusesAdd

/-- `recv` registers nothing. -/
theorem registers_recvs
    (call : Nat) (sock : SockId) (results : List RecvResult) :
    ∀ event ∈ results.map (Event.recv call (some sock)), event.registers = false := by
  intro event present
  obtain ⟨result, -, rfl⟩ := List.mem_map.mp present
  rfl

/-- Serving messages registers nothing. -/
theorem registers_messages
    (fd : Fd) (conn : Ptr) (sock : SockId) (messages : List Bytes) :
    ∀ event ∈ messages.flatMap (System.messageEvents fd conn sock),
      event.registers = false := by
  intro event present
  obtain ⟨message, -, present⟩ := List.mem_flatMap.mp present
  rw [System.messageEvents] at present
  rcases List.mem_cons.mp present with rfl | present
  · rfl
  · split at present
    · obtain rfl := List.mem_singleton.mp present
      rfl
    · exact absurd present List.not_mem_nil

end Event

/-- `send` registers nothing. -/
theorem SoftSend.registers
    {call : Nat}
    {sock : SockId}
    {event : Event}
    (soft : SoftSend call sock event) :
    event.registers = false := by
  rcases soft with ⟨bytes, rfl⟩ | ⟨errno, -, rfl⟩
  · rfl
  · rfl

namespace System

/-- Every accepted descriptor is watched and in the map, or closed and not in the map. -/
def Whole (s : System) : Prop :=
  ∀ call fd sock, .accepted call fd sock ∈ s.log →
    ((s.interest fd).isSome = true ∧ (s.connections fd).isSome = true) ∨
      (s.socket fd = none ∧ s.connections fd = none)

/-- Epoll has refused no descriptor that `accept` has returned. -/
def ClientsAdded (s : System) : Prop :=
  ∀ conn fd, .epollCtl .add conn fd false ∈ s.log → fd = s.listensock

/-- Where no ADD is refused, none of a client is. -/
theorem AddsSucceed.clientsAdded
    {s : System}
    (added : s.AddsSucceed) :
    s.ClientsAdded := by
  intro conn fd refused
  exact absurd (added _ refused) (by simp [Event.refusesAdd])

/-- A connection without a place in epoll. -/
structure Stranded (s : System) (fd : Fd) (conn : Ptr) : Prop where
  entry : s.connections fd = some conn
  unwatched : s.interest fd = none
  accepted : ∃ call sock, .accepted call fd sock ∈ s.log

/-- What epoll has refused is there still. -/
structure Refusals (s : System) : Prop where
  stranded : ∀ conn fd, .epollCtl .add conn fd false ∈ s.log → fd ≠ s.listensock →
    s.Stranded fd conn
  client : ∀ call fd sock, .accepted call fd sock ∈ s.log → fd ≠ s.listensock

namespace Refusals

variable {s s' : System} {fd : Fd} {conn : Ptr} {sock : SockId} {events : List Event}

/-- A step that leaves the connections without a place in epoll alone. -/
theorem of_kept
    (refusals : s.Refusals)
    (listensock : s'.listensock = s.listensock)
    (kept : ∀ fd conn, s.connections fd = some conn → s.interest fd = none →
      s'.connections fd = some conn ∧ s'.interest fd = none)
    (log : s'.log = s.log ++ events)
    (quiet : ∀ event ∈ events, event.registers = false) :
    s'.Refusals := by
  have old {event : Event} (registers : event.registers = true)
      (present : event ∈ s'.log) : event ∈ s.log := by
    rw [log, List.mem_append] at present
    rcases present with before | added
    · exact before
    · rw [quiet event added] at registers
      exact absurd registers Bool.false_ne_true
  constructor
  · intro conn fd refused notListening
    rw [listensock] at notListening
    have stranded := refusals.stranded conn fd (old rfl refused) notListening
    obtain ⟨entry, unwatched⟩ := kept fd conn stranded.entry stranded.unwatched
    obtain ⟨call, sock, accepted⟩ := stranded.accepted
    refine ⟨entry, unwatched, call, sock, ?_⟩
    rw [log]
    exact List.mem_append_left _ accepted
  · intro call fd sock accepted
    rw [listensock]
    exact refusals.client call fd sock (old rfl accepted)

/-- What registers nothing and leaves the tables alone refuses nobody. -/
theorem of_same
    (refusals : s.Refusals)
    (same : SameTables s s')
    (log : s'.log = s.log ++ events)
    (quiet : ∀ event ∈ events, event.registers = false) :
    s'.Refusals := by
  refine refusals.of_kept same.listensock ?_ log quiet
  intro fd conn entry unwatched
  refine ⟨(congrFun same.connections fd).trans entry, ?_⟩
  rw [← Option.not_isSome_iff_eq_none, same.watched, unwatched]
  exact Bool.false_ne_true

/-- A handler works on the connection of a reported event, which is watched. -/
theorem of_elsewhere
    (refusals : s.Refusals)
    (elsewhere : Elsewhere s s' fd conn)
    (watched : (s.interest fd).isSome = true)
    (listensock : s'.listensock = s.listensock)
    (log : s'.log = s.log ++ events)
    (quiet : ∀ event ∈ events, event.registers = false) :
    s'.Refusals := by
  refine refusals.of_kept listensock ?_ log quiet
  intro other conn' entry unwatched
  have different : other ≠ fd := by
    rintro rfl
    rw [unwatched] at watched
    exact Bool.false_ne_true watched
  exact ⟨(elsewhere.connections other different).trans entry,
    (elsewhere.interest other different).trans unwatched⟩

/-- An arrival is refused if its ADD fails. -/
theorem afterArrive
    (refusals : s.Refusals)
    (tables : s.Tables)
    (closed : s.socket fd = none)
    (added : Bool) :
    (s.afterArrive fd added).Refusals := by
  have unregistered := (tables.of_closed closed).1
  constructor
  · intro conn other refused notListening
    simp only [System.afterArrive, List.mem_append, List.mem_cons, reduceCtorEq,
      Event.epollCtl.injEq, true_and, List.not_mem_nil, or_false, false_or] at refused
    rcases refused with before | ⟨rfl, rfl, rfl⟩
    · have stranded := refusals.stranded conn other before notListening
      obtain ⟨call, sock, accepted⟩ := stranded.accepted
      have different : other ≠ fd := by
        rintro rfl
        have entry := stranded.entry
        rw [unregistered] at entry
        exact absurd entry (by simp)
      refine ⟨?_, ?_, call, sock, List.mem_append_left _ accepted⟩
      · rw [afterArrive_connections_of_ne different]
        exact stranded.entry
      · rw [afterArrive_interest_of_ne different]
        exact stranded.unwatched
    · refine ⟨afterArrive_connections_self, afterArrive_interest_self, ?_⟩
      exact ⟨s.calls, s.nextSock, List.mem_append_right _ List.mem_cons_self⟩
  · intro call other sock accepted
    simp only [System.afterArrive, List.mem_append, List.mem_cons, reduceCtorEq,
      Event.accepted.injEq, List.not_mem_nil, or_false] at accepted
    rcases accepted with before | ⟨-, rfl, -⟩
    · exact refusals.client call other sock before
    · intro isListening
      have listening := tables.listening
      change other = s.listensock at isListening
      rw [← isListening, unregistered] at listening
      exact Bool.false_ne_true listening

/-- So are all arrivals of one call of `Accepter`. -/
theorem arrivals
    (refusals : s.Refusals)
    (tables : s.Tables)
    (arrivals : Arrivals conn s s') :
    s'.Refusals := by
  induction arrivals with
  | done s => exact refusals
  | @failed s s' errno later inductionHypothesis =>
      have same := SameTables.record s
        (.acceptFailed s.calls (s.memory conn).sock errno)
      apply inductionHypothesis _ (tables.of_same same)
      exact refusals.of_same same rfl (by simp [Event.registers, Event.refusesAdd])
  | arrived fd added closed later inductionHypothesis =>
      exact inductionHypothesis (refusals.afterArrive tables closed added)
        (tables.afterArrive closed added)

end Refusals

/-! ## Every move keeps what was refused -/

section Moves

variable {s : System} {fd : Fd} {conn : Ptr} {sock : SockId}

/-- `Recver` that goes on refuses nobody. -/
theorem Refusals.afterRead
    (refusals : s.Refusals)
    (registered : s.Registered fd conn sock)
    (results : List RecvResult) :
    (s.afterRead fd conn sock results).Refusals := by
  refine refusals.of_same (SameTables.afterRead registered _)
    (afterRead_log s fd conn sock results) ?_
  intro event present
  rcases List.mem_cons.mp present with rfl | present
  · rfl
  · rcases List.mem_append.mp present with present | present
    · exact Event.registers_recvs _ _ _ event present
    · exact Event.registers_messages _ _ _ _ event present

/-- `Recver` that ends the process refuses nobody. -/
theorem Refusals.afterTrap
    (refusals : s.Refusals)
    (registered : s.Registered fd conn sock)
    (results : List RecvResult)
    (front : List Bytes)
    (message : Bytes) :
    (s.afterTrap fd conn sock results front message).Refusals := by
  have elsewhere :
      Elsewhere s (s.afterTrap fd conn sock results front message) fd conn :=
    ((Elsewhere.afterInput results).trans (Elsewhere.afterAnswers front)).trans
      (Elsewhere.record _)
  refine refusals.of_elsewhere elsewhere registered.watched
    (SameTables.entered s fd conn).listensock
    (afterTrap_log s fd conn sock results front message) ?_
  intro event present
  rcases List.mem_cons.mp present with rfl | present
  · rfl
  · rcases List.mem_append.mp present with present | present
    · exact Event.registers_recvs _ _ _ event present
    · rcases List.mem_append.mp present with present | last
      · exact Event.registers_messages _ _ _ _ event present
      · obtain rfl := List.mem_singleton.mp last
        rfl

/-- `Recver` that releases its connection refuses nobody. -/
theorem Refusals.afterClose
    (refusals : s.Refusals)
    (registered : s.Registered fd conn sock)
    (results : List RecvResult) :
    (s.afterClose fd conn sock results).Refusals := by
  have elsewhere : Elsewhere s (s.afterClose fd conn sock results) fd conn :=
    ((Elsewhere.entered.trans (Elsewhere.afterRecv results)).trans
      Elsewhere.afterRelease).trans (Elsewhere.record _)
  refine refusals.of_elsewhere elsewhere registered.watched
    (SameTables.entered s fd conn).listensock (afterClose_log s fd conn sock results) ?_
  intro event present
  rcases List.mem_cons.mp present with rfl | present
  · rfl
  · rcases List.mem_append.mp present with present | released
    · exact Event.registers_recvs _ _ _ event present
    · fin_cases released <;> rfl

/-- `Sender` that goes on refuses nobody. -/
theorem Refusals.afterWrite
    (refusals : s.Refusals)
    (registered : s.Registered fd conn sock)
    (outbuffer : Bytes)
    {events : List Event}
    (soft : ∀ event ∈ events, event.registers = false) :
    (s.afterWrite fd conn outbuffer events).Refusals := by
  refine refusals.of_same (SameTables.afterWrite registered _ _)
    (afterWrite_log s fd conn outbuffer events) ?_
  intro event present
  rcases List.mem_cons.mp present with rfl | present
  · rfl
  · rcases List.mem_append.mp present with present | last
    · exact soft event present
    · obtain rfl := List.mem_singleton.mp last
      rfl

/-- `Sender` that releases its connection refuses nobody. -/
theorem Refusals.afterBreak
    (refusals : s.Refusals)
    (registered : s.Registered fd conn sock)
    (outbuffer : Bytes)
    {events : List Event}
    (soft : ∀ event ∈ events, event.registers = false) :
    (s.afterBreak fd conn sock outbuffer events).Refusals := by
  have released : Elsewhere s
      (((s.entered fd conn).afterSend conn outbuffer events).afterRelease
        fd conn sock) fd conn :=
    (Elsewhere.entered.trans (Elsewhere.afterSend outbuffer events)).trans
      Elsewhere.afterRelease
  have elsewhere : Elsewhere s (s.afterBreak fd conn sock outbuffer events) fd conn :=
    ((released.trans (Elsewhere.record _)).trans (Elsewhere.record _)).trans
      (Elsewhere.record _)
  refine refusals.of_elsewhere elsewhere registered.watched
    (SameTables.entered s fd conn).listensock
    (afterBreak_log s fd conn sock outbuffer events) ?_
  intro event present
  rcases List.mem_cons.mp present with rfl | present
  · rfl
  · rcases List.mem_append.mp present with present | released
    · exact soft event present
    · fin_cases released <;> rfl

/-- Every step knows whom it refuses. -/
theorem Move.refusals
    {next : Process}
    (moved : s.Move next)
    (tables : s.Tables)
    (refusals : s.Refusals) :
    next.state.Refusals := by
  cases moved with
  | wait batch idle possible =>
      exact refusals.of_same
        ⟨rfl, rfl, rfl, rfl, rfl, rfl, fun _ => rfl, fun _ => rfl⟩
        (List.append_nil _).symm (by simp)
  | skip busy =>
      have log : s.advance.log = s.log ++ [] := by
        rw [advance_log, List.append_nil]
      exact refusals.of_same (SameTables.advance s) log (by simp)
  | @accept conn s' called arrivals =>
      have entered := SameTables.entered s s.listensock conn
      apply Refusals.arrivals _ (tables.of_same entered) arrivals
      refine refusals.of_same entered (entered_log s s.listensock conn) ?_
      simp [Event.registers, Event.refusesAdd]
  | read called registered continued drained survived =>
      exact refusals.afterRead registered _
  | trap called registered continued drained served trapped =>
      exact refusals.afterTrap registered _ _ _
  | close called registered continued closes => exact refusals.afterClose registered _
  | write called registered soft conserved =>
      apply refusals.afterWrite registered
      exact fun event present => (soft event present).registers
  | broken called registered soft hard =>
      apply refusals.afterBreak registered
      intro event present
      rcases List.mem_append.mp present with present | last
      · exact (soft event present).registers
      · obtain rfl := List.mem_singleton.mp last
        rfl

end Moves

/-- The constructor refuses nobody but the listening socket. -/
theorem create_refusals (listensock : Fd) (added : Bool) :
    (create listensock added).Refusals := by
  rw [create_eq]
  constructor
  · intro conn fd refused notListening
    obtain ⟨-, -, rfl, -⟩ := Event.epollCtl.inj (List.mem_singleton.mp refused)
    exact absurd rfl notListening
  · intro call fd sock accepted
    exact absurd (List.mem_singleton.mp accepted) (by simp)

/-! ## Whole states -/

variable {s : System}

/-- Where every connection is in the epoll set no ADD has failed. -/
theorem Refusals.clientsAdded_of_whole
    (refusals : s.Refusals)
    (whole : s.Whole) :
    s.ClientsAdded := by
  intro conn fd refused
  by_contra notListening
  have stranded := refusals.stranded conn fd refused notListening
  obtain ⟨call, sock, accepted⟩ := stranded.accepted
  rcases whole call fd sock accepted with ⟨watched, -⟩ | ⟨-, gone⟩
  · rw [stranded.unwatched] at watched
    exact Bool.false_ne_true watched
  · rw [stranded.entry] at gone
    exact absurd gone (by simp)

/-- Where no ADD has failed every connection is in the epoll set. -/
theorem Refusals.whole_of_clientsAdded
    (refusals : s.Refusals)
    (tables : s.Tables)
    (ledger : s.Ledger)
    (added : s.ClientsAdded) :
    s.Whole := by
  intro call fd sock accepted
  cases entry : s.connections fd with
  | none =>
      right
      refine ⟨?_, rfl⟩
      have same := tables.opened fd
      rw [entry] at same
      exact Option.not_isSome_iff_eq_none.mp (Bool.eq_false_iff.mp same)
  | some conn =>
      left
      refine ⟨?_, rfl⟩
      rcases ledger.watched fd conn entry with watched | refused
      · exact watched
      · exact absurd (added conn fd refused) (refusals.client call fd sock accepted)

end System

namespace Process

/-- All runs of the server. -/
theorem refusals : machine.Invariant fun process => process.state.Refusals :=
  invariant_of_moves System.create_refusals
    fun _ _ _ tables _ refusals moved => moved.refusals tables refusals

/-- A state of a run is whole exactly when epoll has refused no client so far. -/
theorem whole_iff_clientsAdded
    {process : Process}
    (reached : machine.Reachable process) :
    process.state.Whole ↔ process.state.ClientsAdded := by
  have tables := (orderly process reached).1
  have refusals := refusals process reached
  constructor
  · exact refusals.clientsAdded_of_whole
  · exact refusals.whole_of_clientsAdded tables (ledger process reached)

/-- Two clients are accepted in one call; the second addition to epoll may fail. -/
def arrivesTwice (added : Bool) : List System.Label :=
  [.wait [⟨3, epollin⟩],
    .next ⟨[.sock 5 true, .sock 6 added, .fail eagain], [], []⟩]

theorem whole_iff_clientsAdded_arrivesTwice :
    ∃ process, run (arrivesTwice true) (.running (System.create 3 true)) =
      some process ∧ process.state.connections 6 = some 2 ∧ process.state.Whole := by
  have ended : (run (arrivesTwice true) (.running (System.create 3 true))).map
      (fun process => (process.state.connections 6,
        decide process.state.AddsSucceed)) = some (some 2, true) := by
    decide +kernel
  obtain ⟨process, ran, outcome⟩ := Option.map_eq_some_iff.mp ended
  rw [Prod.mk.injEq, decide_eq_true_eq] at outcome
  refine ⟨process, ran, outcome.1, ?_⟩
  apply (whole_iff_clientsAdded (reachable_of_run (reachable_create 3 true) ran)).mpr
  exact System.AddsSucceed.clientsAdded outcome.2

/-- The client that epoll refuses stays open and in the map. -/
theorem not_always_whole :
    ¬ machine.Invariant fun process => process.state.Whole := by
  intro always
  have ended : (run (arrivesTwice false) (.running (System.create 3 true))).map
      (fun process => (process.state.connections 6, process.state.interest 6,
        decide (.accepted 1 6 2 ∈ process.state.log))) = some (some 2, none, true) := by
    decide +kernel
  obtain ⟨process, ran, outcome⟩ := Option.map_eq_some_iff.mp ended
  simp only [Prod.mk.injEq, decide_eq_true_eq] at outcome
  obtain ⟨entry, unwatched, accepted⟩ := outcome
  have whole := always process (reachable_of_run (reachable_create 3 true) ran)
  rcases whole 1 6 2 accepted with ⟨watched, -⟩ | ⟨-, gone⟩
  · rw [unwatched] at watched
    exact Bool.false_ne_true watched
  · rw [entry] at gone
    exact absurd gone (by simp)

end Process

end Reactor
end LearnInLinux
