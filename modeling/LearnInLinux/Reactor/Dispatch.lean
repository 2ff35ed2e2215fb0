import LearnInLinux.Reactor.Registry

/-!
# One step of the dispatcher

`Pending` says what is known of the events that are still to be handled: the
connections found under their descriptors are the ones that were there when
`epoll_wait` returned. With `Tables` it determines what a step can do, and
`Move` lists it once. Every later invariant is a case analysis on `Move`.
-/

namespace LearnInLinux
namespace Reactor

open Delimited (messages)

namespace System

/-- The half of the loop body that comes next is done. -/
def advance (s : System) : System :=
  match s.phase with
  | .reading => { s with phase := .writing }
  | .writing => { s with revs := s.revs.tail, phase := .reading }

/-- The half that comes next enters a callback of `conn`. -/
def entered (fd : Fd) (conn : Ptr) (s : System) : System :=
  s.advance.afterEnter fd conn

/-- Under the descriptor is what was there when the batch was fetched. -/
structure Settled (s : System) (fd : Fd) : Prop where
  same : s.connections fd = s.atWait fd
  watched : (s.interest fd).isSome = true

/-- The current event may have lost its connection in its reading half; all
other pending events are settled. -/
structure Pending (s : System) : Prop where
  distinct : (s.revs.map Revent.fd).Nodup
  settled : ∀ ev ∈ s.revs, s.Settled ev.fd ∨
    s.phase = .writing ∧ s.revs.head? = some ev ∧ s.connections ev.fd = none

/-- The half that comes next calls a callback of the connection under `fd`. -/
structure Called
    (s : System) (phase : Phase) (fd : Fd) (conn : Ptr) : Prop where
  current : ∃ ev rest, s.revs = ev :: rest ∧ ev.fd = fd
  phase_eq : s.phase = phase
  entry : s.connections fd = some conn
  settled : s.Settled fd

/-! ## Effects of whole handler calls -/

/-- The messages completed by the results of a reading loop. -/
def complete
    (conn : Ptr) (results : List RecvResult) (s : System) : List Bytes :=
  messages sepChar ((s.memory conn).inbuffer ++ chunkText (chunksOf results))

/-- `Recver` has taken in the results and cut the buffer. -/
def afterInput
    (fd : Fd) (conn : Ptr) (sock : SockId) (results : List RecvResult)
    (s : System) : System :=
  ((s.entered fd conn).afterRecv conn sock results).afterSplit conn

/-- `Recver` has served what was complete. -/
def afterRead
    (fd : Fd) (conn : Ptr) (sock : SockId) (results : List RecvResult)
    (s : System) : System :=
  (s.afterInput fd conn sock results).afterAnswers fd conn sock
    (s.complete conn results)

/-- `Recver` has served a front part and a division trapped. -/
def afterTrap
    (fd : Fd) (conn : Ptr) (sock : SockId) (results : List RecvResult)
    (front : List Bytes) (message : Bytes) (s : System) : System :=
  ((s.afterInput fd conn sock results).afterAnswers fd conn sock front).record
    (.message (some sock) message)

/-- `Recver` has released the connection and read it for the log line. -/
def afterClose
    (fd : Fd) (conn : Ptr) (sock : SockId) (results : List RecvResult)
    (s : System) : System :=
  (((s.entered fd conn).afterRecv conn sock results).afterRelease fd conn sock).record
    (.useAfterFree conn)

/-- `Sender` has sent a part and armed what is left to do. -/
def afterWrite
    (fd : Fd) (conn : Ptr) (outbuffer : Bytes) (events : List Event)
    (s : System) : System :=
  ((s.entered fd conn).afterSend conn outbuffer events).afterArm fd conn
    (if outbuffer = [] then readOnly else readWrite)

/-- `Sender` has released the connection and then run its tail on it. -/
def afterBreak
    (fd : Fd) (conn : Ptr) (sock : SockId) (outbuffer : Bytes)
    (events : List Event) (s : System) : System :=
  (((((s.entered fd conn).afterSend conn outbuffer events).afterRelease fd conn
    sock).record (.useAfterFree conn)).record (.useAfterFree conn)).record
      (.epollCtl .mod conn fd false)

/-- What one step executes: nothing, the fetching of a batch, or one handler on a
connection in working order. -/
inductive Turn (s : System) : Except Halt System → Prop
  | blocked : Turn s (.error .blocked)
  | wait (batch : List Revent)
      (idle : s.revs = [])
      (possible : s.BatchOk batch) :
      Turn s (.ok
        { s with revs := batch, phase := .reading, atWait := s.connections })
  | skip
      (busy : s.revs ≠ []) :
      Turn s (.ok s.advance)
  | accept {conn : Ptr}
      (called : s.Called .reading s.listensock conn)
      (results : List AcceptResult) :
      Turn s ((s.entered s.listensock conn).accepter conn results)
  | read {fd : Fd} {conn : Ptr} {sock : SockId}
      (called : s.Called .reading fd conn)
      (registered : s.Registered fd conn sock)
      (results : List RecvResult) :
      Turn s ((s.entered fd conn).recver conn results)
  | write {fd : Fd} {conn : Ptr} {sock : SockId}
      (called : s.Called .writing fd conn)
      (registered : s.Registered fd conn sock)
      (results : List SendResult) :
      Turn s ((s.entered fd conn).sender conn results)

/-- Everything that one step can do. -/
inductive Move (s : System) : Process → Prop
  | wait (batch : List Revent)
      (idle : s.revs = [])
      (possible : s.BatchOk batch) :
      Move s (.running
        { s with revs := batch, phase := .reading, atWait := s.connections })
  | skip
      (busy : s.revs ≠ []) :
      Move s (.running s.advance)
  | accept {conn : Ptr} {s' : System}
      (called : s.Called .reading s.listensock conn)
      (arrivals : Arrivals conn (s.entered s.listensock conn) s') :
      Move s (.running s')
  | read {fd : Fd} {conn : Ptr} {sock : SockId}
      {rounds : List RecvResult} {last : RecvResult}
      (called : s.Called .reading fd conn)
      (registered : s.Registered fd conn sock)
      (continued : ∀ result ∈ rounds, result.Continues)
      (drained : last.Drained)
      (survived : ∀ message ∈ s.complete conn (rounds ++ [last]),
        Survives message) :
      Move s (.running (s.afterRead fd conn sock (rounds ++ [last])))
  | trap {fd : Fd} {conn : Ptr} {sock : SockId}
      {rounds : List RecvResult} {last : RecvResult} {front : List Bytes}
      {message : Bytes}
      (called : s.Called .reading fd conn)
      (registered : s.Registered fd conn sock)
      (continued : ∀ result ∈ rounds, result.Continues)
      (drained : last.Drained)
      (served : front ++ [message] <+: s.complete conn (rounds ++ [last]))
      (trapped : ¬Survives message) :
      Move s (.aborted .trap
        (s.afterTrap fd conn sock (rounds ++ [last]) front message))
  | close {fd : Fd} {conn : Ptr} {sock : SockId}
      {rounds : List RecvResult} {last : RecvResult}
      (called : s.Called .reading fd conn)
      (registered : s.Registered fd conn sock)
      (continued : ∀ result ∈ rounds, result.Continues)
      (closes : last.Closes) :
      Move s (.running (s.afterClose fd conn sock (rounds ++ [last])))
  | write {fd : Fd} {conn : Ptr} {sock : SockId} {outbuffer : Bytes}
      {events : List Event}
      (called : s.Called .writing fd conn)
      (registered : s.Registered fd conn sock)
      (soft : ∀ event ∈ events, SoftSend (s.calls + 1) sock event)
      (conserved : sentBytes events ++ outbuffer = (s.memory conn).outbuffer) :
      Move s (.running (s.afterWrite fd conn outbuffer events))
  | broken {fd : Fd} {conn : Ptr} {sock : SockId} {outbuffer : Bytes}
      {events : List Event} {errno : Errno}
      (called : s.Called .writing fd conn)
      (registered : s.Registered fd conn sock)
      (soft : ∀ event ∈ events, SoftSend (s.calls + 1) sock event)
      (hard : HardErrno errno) :
      Move s (.aborted .assertion (s.afterBreak fd conn sock outbuffer
        (events ++ [.sendFailed (s.calls + 1) (some sock) errno])))

/-! ## Leaving a half -/

section Advance

variable {s : System} {fd : Fd} {conn : Ptr} {sock : SockId}

/-- The loop over the batch has no part in the objects. -/
@[simp] theorem advance_memory : s.advance.memory = s.memory := by
  unfold advance
  split <;> rfl

@[simp] theorem advance_connections : s.advance.connections = s.connections := by
  unfold advance
  split <;> rfl

@[simp] theorem advance_interest : s.advance.interest = s.interest := by
  unfold advance
  split <;> rfl

@[simp] theorem advance_atWait : s.advance.atWait = s.atWait := by
  unfold advance
  split <;> rfl

@[simp] theorem advance_alive : s.advance.alive = s.alive := by
  unfold advance
  split <;> rfl

@[simp] theorem advance_socket : s.advance.socket = s.socket := by
  unfold advance
  split <;> rfl

@[simp] theorem advance_calls : s.advance.calls = s.calls := by
  unfold advance
  split <;> rfl

/-- The loop over the batch leaves no event. -/
@[simp] theorem advance_log : s.advance.log = s.log := by
  unfold advance
  split <;> rfl

/-- The loop over the batch leaves the tables as they are. -/
theorem SameTables.advance (s : System) : SameTables s s.advance := by
  unfold System.advance
  split <;>
    exact ⟨rfl, rfl, rfl, rfl, rfl, rfl, fun _ => rfl, fun _ => rfl⟩

/-- So does the call of a handler itself. -/
theorem SameTables.entered (s : System) (fd : Fd) (conn : Ptr) :
    SameTables s (s.entered fd conn) :=
  (SameTables.advance s).trans (SameTables.afterEnter _ fd conn)

/-- A connection stays registered from one entry of the batch to the next. -/
theorem Registered.advance (registered : s.Registered fd conn sock) :
    s.advance.Registered fd conn sock := by
  unfold System.advance
  split <;>
    exact ⟨registered.entry, registered.sock_eq, registered.live,
      registered.opened, registered.watched, registered.exceptCb⟩

/-- A connection stays registered when its handler is called. -/
theorem Registered.entered (registered : s.Registered fd conn sock) :
    (s.entered fd conn).Registered fd conn sock :=
  registered.advance.afterEnter

/-- Reading and cutting the buffer leave the tables as they are. -/
theorem SameTables.afterInput
    (s : System) (fd : Fd) (conn : Ptr) (sock : SockId)
    (results : List RecvResult) :
    SameTables s (s.afterInput fd conn sock results) := by
  have received := SameTables.afterRecv (s.entered fd conn) conn sock results
  have cut := SameTables.afterSplit
    ((s.entered fd conn).afterRecv conn sock results) conn
  exact ((SameTables.entered s fd conn).trans received).trans cut

/-- A connection stays registered while its handler reads. -/
theorem Registered.afterInput
    (registered : s.Registered fd conn sock)
    (results : List RecvResult) :
    (s.afterInput fd conn sock results).Registered fd conn sock :=
  (registered.entered.afterRecv results).afterSplit

end Advance

/-! ## What the moves add to the history -/

section Log

variable (s : System) (fd : Fd) (conn : Ptr) (sock : SockId)

/-- The call of a handler is noted. -/
theorem entered_log :
    (s.entered fd conn).log = s.log ++ [.invoked fd conn (s.atWait fd)] := by
  rw [entered, afterEnter, advance_log, advance_atWait]

theorem entered_calls : (s.entered fd conn).calls = s.calls + 1 := by
  rw [entered, afterEnter, advance_calls]

theorem entered_nextSock : (s.entered fd conn).nextSock = s.nextSock :=
  (SameTables.entered s fd conn).nextSock

/-- What is noted of a reading loop. -/
theorem afterInput_log (results : List RecvResult) :
    (s.afterInput fd conn sock results).log =
      s.log ++ .invoked fd conn (s.atWait fd) ::
        results.map (Event.recv (s.calls + 1) (some sock)) := by
  rw [afterInput, afterSplit, afterRecv, entered_log, entered_calls,
    List.append_assoc, List.singleton_append]

/-- What `Recver` notes when it goes on. -/
theorem afterRead_log (results : List RecvResult) :
    (s.afterRead fd conn sock results).log =
      s.log ++ .invoked fd conn (s.atWait fd) ::
        (results.map (Event.recv (s.calls + 1) (some sock)) ++
          (s.complete conn results).flatMap (messageEvents fd conn sock)) := by
  rw [afterRead, afterAnswers, afterInput_log, List.append_assoc, List.cons_append]

/-- What `Recver` notes up to the message on which the process ends. -/
theorem afterTrap_log
    (results : List RecvResult) (front : List Bytes) (message : Bytes) :
    (s.afterTrap fd conn sock results front message).log =
      s.log ++ .invoked fd conn (s.atWait fd) ::
        (results.map (Event.recv (s.calls + 1) (some sock)) ++
          (front.flatMap (messageEvents fd conn sock) ++
            [.message (some sock) message])) := by
  rw [afterTrap, record, afterAnswers, afterInput_log]
  simp

/-- What `Recver` notes when it releases its connection, with the use of the freed object
behind it. -/
theorem afterClose_log (results : List RecvResult) :
    (s.afterClose fd conn sock results).log =
      s.log ++ .invoked fd conn (s.atWait fd) ::
        (results.map (Event.recv (s.calls + 1) (some sock)) ++
          [.epollCtl .del conn fd true, .closed (some sock), .deleted conn,
            .useAfterFree conn]) := by
  rw [afterClose, record, afterRelease, afterRecv, entered_log, entered_calls]
  simp

/-- What `Sender` notes when it leaves the connection open. -/
theorem afterWrite_log (outbuffer : Bytes) (events : List Event) :
    (s.afterWrite fd conn outbuffer events).log =
      s.log ++ .invoked fd conn (s.atWait fd) ::
        (events ++ [.epollCtl .mod conn fd true]) := by
  rw [afterWrite, afterArm, afterSend, entered_log]
  simp

/-- What `Sender` notes when it releases its connection, with the uses of the freed object
and the `epoll_ctl` that fails. -/
theorem afterBreak_log (outbuffer : Bytes) (events : List Event) :
    (s.afterBreak fd conn sock outbuffer events).log =
      s.log ++ .invoked fd conn (s.atWait fd) ::
        (events ++ [.epollCtl .del conn fd true, .closed (some sock), .deleted conn,
          .useAfterFree conn, .useAfterFree conn, .epollCtl .mod conn fd false]) := by
  rw [afterBreak, record, record, record, afterRelease, afterSend, entered_log]
  simp

end Log

/-! ## Every step is one of the moves -/

section Moves

variable {s : System} {fd : Fd} {conn : Ptr} {sock : SockId} {ev : Revent}
  {rest : List Revent}

/-- In the reading half every pending event is settled. -/
theorem Pending.settled_of_reading
    (pending : s.Pending)
    (reading : s.phase = .reading)
    (present : ev ∈ s.revs) :
    s.Settled ev.fd := by
  rcases pending.settled ev present with settled | ⟨writing, _⟩
  · exact settled
  · rw [reading] at writing
    exact absurd writing (by decide)

/-- A connection found under the current event is called on settled ground. -/
theorem Pending.called
    (pending : s.Pending)
    (current : s.revs = ev :: rest)
    (entry : s.connections ev.fd = some conn) :
    s.Called s.phase ev.fd conn := by
  refine ⟨⟨ev, rest, current, rfl⟩, rfl, entry, ?_⟩
  have present : ev ∈ s.revs := by
    rw [current]
    exact List.mem_cons_self
  rcases pending.settled ev present with settled | ⟨_, _, gone⟩
  · exact settled
  · rw [entry] at gone
    exact absurd gone (by simp)

/-- The connection of a call is registered, unless it is the one of the listening socket. -/
theorem Called.registered
    {phase : Phase}
    (called : s.Called phase fd conn)
    (tables : s.Tables)
    (notListening : fd ≠ s.listensock) :
    ∃ sock, s.Registered fd conn sock :=
  tables.registered called.entry notListening called.settled.watched

/-- The callbacks found in the two slots of a registered connection. -/
theorem Tables.slots
    (tables : s.Tables)
    (entry : s.connections fd = some conn) :
    (fd = s.listensock ∧ (s.memory conn).recvCb = some .accepter ∧
      (s.memory conn).sendCb = none) ∨
    (fd ≠ s.listensock ∧ (s.memory conn).recvCb = some .recver ∧
      (s.memory conn).sendCb = some .sender) := by
  by_cases listening : fd = s.listensock
  · left
    rw [listening] at entry
    have fixed := tables.listener conn entry
    simp only [Connection.fixed, Prod.mk.injEq] at fixed
    exact ⟨listening, fixed.2.1, fixed.2.2.1⟩
  · right
    have fixed := tables.client fd conn entry listening
    simp only [Connection.fixed, Prod.mk.injEq] at fixed
    exact ⟨listening, fixed.2.1, fixed.2.2.1⟩

/-- Dispatching to a callback enters it on the live object. -/
theorem Tables.invoke
    (tables : s.Tables)
    (entry : s.connections fd = some conn)
    (slot : Connection → Option Callback)
    (answers : Answers) :
    s.advance.invoke slot fd answers =
      match slot (s.memory conn) with
      | none => .ok s.advance
      | some callback => (s.entered fd conn).call callback conn answers := by
  have live : s.advance.alive conn = true := by
    rw [advance_alive]
    exact (tables.entry fd conn entry).1
  have entry' : s.advance.connections fd = some conn := by
    rw [advance_connections]
    exact entry
  rw [← advance_memory]
  simp only [System.invoke, entry', touch_of_alive live]
  rfl

/-- What `Accepter` can do. -/
theorem Called.accept
    (called : s.Called .reading s.listensock conn)
    (tables : s.Tables)
    (results : List AcceptResult)
    {next : Process}
    (result : Process.after ((s.entered s.listensock conn).accepter conn results) =
      some next) :
    s.Move next := by
  have live : (s.entered s.listensock conn).alive conn = true := by
    change s.advance.alive conn = true
    rw [advance_alive]
    exact (tables.entry _ conn called.entry).1
  have entered : (s.entered s.listensock conn).Tables :=
    tables.of_same (SameTables.entered s s.listensock conn)
  rcases entered.accepter live results with
    blocked | ⟨s', arrivals, returned⟩
  · rw [blocked] at result
    exact absurd result (by simp [Process.after])
  · rw [returned] at result
    obtain rfl := Option.some.inj result
    exact .accept called arrivals

/-- What `Recver` can do. -/
theorem Called.read
    (called : s.Called .reading fd conn)
    (registered : s.Registered fd conn sock)
    (results : List RecvResult)
    {next : Process}
    (result : Process.after ((s.entered fd conn).recver conn results) = some next) :
    s.Move next := by
  have contents : ((s.entered fd conn).memory conn).inbuffer =
      (s.memory conn).inbuffer := by
    change (s.advance.memory conn).inbuffer = _
    rw [advance_memory]
  rcases registered.entered.recver results with
    blocked | ⟨rounds, last, rest, _, continued, outcome⟩
  · rw [blocked] at result
    exact absurd result (by simp [Process.after])
  · rcases outcome with ⟨drained, outcome⟩ | ⟨closes, outcome⟩
    · rw [outcome, contents] at result
      rcases (registered.afterInput (rounds ++ [last])).deliver
          (s.complete conn (rounds ++ [last])) with
        ⟨survived, served⟩ | ⟨front, message, behind, split, _, trapped, died⟩
      · change Process.after ((s.afterInput fd conn sock (rounds ++ [last])).deliver
          conn (s.complete conn (rounds ++ [last]))) = some next at result
        rw [served] at result
        obtain rfl := Option.some.inj result
        exact .read called registered continued drained survived
      · change Process.after ((s.afterInput fd conn sock (rounds ++ [last])).deliver
          conn (s.complete conn (rounds ++ [last]))) = some next at result
        rw [died] at result
        obtain rfl := Option.some.inj result
        refine .trap called registered continued drained ⟨behind, ?_⟩ trapped
        rw [split, List.append_assoc, List.singleton_append]
    · rw [outcome] at result
      obtain rfl := Option.some.inj result
      exact .close called registered continued closes

/-- What `Sender` can do. -/
theorem Called.write
    (called : s.Called .writing fd conn)
    (registered : s.Registered fd conn sock)
    (results : List SendResult)
    {next : Process}
    (result : Process.after ((s.entered fd conn).sender conn results) = some next) :
    s.Move next := by
  have contents : ((s.entered fd conn).memory conn).outbuffer =
      (s.memory conn).outbuffer := by
    change (s.advance.memory conn).outbuffer = _
    rw [advance_memory]
  have calls : (s.entered fd conn).calls = s.calls + 1 := by
    change s.advance.calls + 1 = _
    rw [advance_calls]
  rcases registered.entered.sender results with
    blocked | ⟨outbuffer, events, soft, conserved, outcome⟩
  · rw [blocked] at result
    exact absurd result (by simp [Process.after])
  · rw [calls] at soft outcome
    rw [contents] at conserved
    rcases outcome with outcome | ⟨errno, hard, outcome⟩
    · rw [outcome] at result
      obtain rfl := Option.some.inj result
      exact .write called registered soft conserved
    · rw [outcome] at result
      obtain rfl := Option.some.inj result
      exact .broken called registered soft hard

/-- A half of the loop body calls the callback in its slot, if there is one. -/
theorem Tables.turn_of_invoke
    (tables : s.Tables)
    (pending : s.Pending)
    (current : s.revs = ev :: rest)
    (answers : Answers)
    {slot : Connection → Option Callback}
    (half : s.phase = .reading ∧ slot = Connection.recvCb ∨
      s.phase = .writing ∧ slot = Connection.sendCb) :
    s.Turn (s.advance.invoke slot ev.fd answers) := by
  have skipped : s.Turn (.ok s.advance) := .skip (by simp [current])
  cases entry : s.connections ev.fd with
  | none =>
      rw [System.invoke, advance_connections, entry]
      exact skipped
  | some conn =>
      have called := pending.called current entry
      rw [tables.invoke entry]
      rcases half with ⟨reading, rfl⟩ | ⟨writing, rfl⟩
      · rw [reading] at called
        rcases tables.slots entry with
          ⟨listening, recvCb, _⟩ | ⟨notListening, recvCb, _⟩
        · rw [recvCb]
          rw [listening] at called ⊢
          exact .accept called answers.accepts
        · rw [recvCb]
          obtain ⟨sock, registered⟩ := called.registered tables notListening
          exact .read called registered answers.recvs
      · rw [writing] at called
        rcases tables.slots entry with
          ⟨_, _, sendCb⟩ | ⟨notListening, _, sendCb⟩
        · rw [sendCb]
          exact skipped
        · rw [sendCb]
          obtain ⟨sock, registered⟩ := called.registered tables notListening
          exact .write called registered answers.sends

/-- Every step takes one of the turns. -/
theorem Tables.turn
    (tables : s.Tables)
    (pending : s.Pending)
    (label : Label) :
    s.Turn (s.loopOnce label) := by
  cases label with
  | wait batch =>
      rw [loopOnce]
      split
      · rename_i fetched
        exact .wait batch fetched.1 fetched.2
      · exact .blocked
  | next answers =>
      cases current : s.revs with
      | nil =>
          simp only [loopOnce, current]
          exact .blocked
      | cons ev rest =>
          have skipped : s.Turn (.ok s.advance) := .skip (by simp [current])
          cases half : s.phase with
          | reading =>
              have advanced : s.advance =
                  { s with revs := ev :: rest, phase := .writing } := by
                simp [advance, half, current]
              simp only [loopOnce, current, half, ← advanced]
              split
              · exact tables.turn_of_invoke pending current answers
                  (Or.inl ⟨half, rfl⟩)
              · exact skipped
          | writing =>
              have advanced : s.advance =
                  { s with revs := rest, phase := .reading } := by
                simp [advance, half, current]
              simp only [loopOnce, current, half, ← advanced]
              split
              · exact tables.turn_of_invoke pending current answers
                  (Or.inr ⟨half, rfl⟩)
              · exact skipped

/-- A step that returns or dies is one of the moves. -/
theorem Tables.move
    (tables : s.Tables)
    (pending : s.Pending)
    (label : Label)
    {next : Process}
    (result : Process.after (s.loopOnce label) = some next) :
    s.Move next := by
  have turn := tables.turn pending label
  generalize s.loopOnce label = outcome at turn result
  cases turn with
  | blocked => exact absurd result (by simp [Process.after])
  | wait batch idle possible =>
      obtain rfl := Option.some.inj result
      exact .wait batch idle possible
  | skip busy =>
      obtain rfl := Option.some.inj result
      exact .skip busy
  | accept called results => exact called.accept tables results result
  | read called registered results => exact called.read registered results result
  | write called registered results => exact called.write registered results result

end Moves

/-! ## The moves keep the tables and the batch -/

section Kept

variable {s s' : System} {fd : Fd} {conn : Ptr} {sock : SockId} {next : Process}

/-- `Recver` that goes on leaves the tables as they are. -/
theorem SameTables.afterRead
    (registered : s.Registered fd conn sock)
    (results : List RecvResult) :
    SameTables s (s.afterRead fd conn sock results) :=
  (SameTables.afterInput s fd conn sock results).trans
    (SameTables.afterAnswers (registered.afterInput results) _)

/-- `Sender` that goes on leaves the tables as they are. -/
theorem SameTables.afterWrite
    (registered : s.Registered fd conn sock)
    (outbuffer : Bytes) (events : List Event) :
    SameTables s (s.afterWrite fd conn outbuffer events) := by
  have sent := SameTables.afterSend (s.entered fd conn) conn outbuffer events
  have armed := SameTables.afterArm (registered.entered.afterSend outbuffer events)
    (if outbuffer = [] then readOnly else readWrite)
  exact ((SameTables.entered s fd conn).trans sent).trans armed

/-- The tables when `Recver` has taken in its results. -/
theorem Tables.afterRecv
    (tables : s.Tables)
    (fd : Fd) (conn : Ptr) (sock : SockId) (results : List RecvResult) :
    ((s.entered fd conn).afterRecv conn sock results).Tables :=
  (tables.of_same (SameTables.entered s fd conn)).of_same
    (SameTables.afterRecv _ conn sock results)

/-- The tables when `Sender` has left its loop. -/
theorem Tables.afterSend
    (tables : s.Tables)
    (fd : Fd) (conn : Ptr) (outbuffer : Bytes) (events : List Event) :
    ((s.entered fd conn).afterSend conn outbuffer events).Tables :=
  (tables.of_same (SameTables.entered s fd conn)).of_same
    (SameTables.afterSend _ conn outbuffer events)

/-- `Recver` releases the connection from all tables. -/
theorem Tables.afterClose
    (tables : s.Tables)
    (registered : s.Registered fd conn sock)
    (results : List RecvResult) :
    (s.afterClose fd conn sock results).Tables := by
  have received := tables.afterRecv fd conn sock results
  have released := received.afterRelease (registered.entered.afterRecv results)
  exact released.of_same (SameTables.record _ _)

/-- `Sender` releases the connection from all tables. -/
theorem Tables.afterBreak
    (tables : s.Tables)
    (registered : s.Registered fd conn sock)
    (outbuffer : Bytes) (events : List Event) :
    (s.afterBreak fd conn sock outbuffer events).Tables := by
  have sent := tables.afterSend fd conn outbuffer events
  have released := sent.afterRelease (registered.entered.afterSend outbuffer events)
  exact ((released.of_same (SameTables.record _ _)).of_same
    (SameTables.record _ _)).of_same (SameTables.record _ _)

/-- Every step keeps the tables in order. -/
theorem Move.tables
    (moved : s.Move next)
    (tables : s.Tables) :
    next.state.Tables := by
  cases moved with
  | wait batch idle possible =>
      exact tables.of_same
        ⟨rfl, rfl, rfl, rfl, rfl, rfl, fun _ => rfl, fun _ => rfl⟩
  | skip busy => exact tables.of_same (SameTables.advance s)
  | accept called arrivals =>
      exact (tables.of_same (SameTables.entered s _ _)).arrivals arrivals
  | read called registered continued drained survived =>
      exact tables.of_same (SameTables.afterRead registered _)
  | @trap fd conn sock rounds last front message called registered =>
      have input := SameTables.afterInput s fd conn sock (rounds ++ [last])
      have answered := SameTables.afterAnswers
        (registered.afterInput (rounds ++ [last])) front
      exact ((tables.of_same input).of_same answered).of_same
        (SameTables.record _ (.message (some sock) message))
  | close called registered continued closes =>
      exact tables.afterClose registered _
  | write called registered soft conserved =>
      exact tables.of_same (SameTables.afterWrite registered _ _)
  | broken called registered soft hard =>
      exact tables.afterBreak registered _ _

/-- Leaving a half, only settled events are left. -/
theorem Pending.advance
    (pending : s.Pending)
    {ev : Revent}
    (present : ev ∈ s.advance.revs) :
    s.Settled ev.fd := by
  cases half : s.phase with
  | reading =>
      have present' : ev ∈ s.revs := by
        simpa [System.advance, half] using present
      exact pending.settled_of_reading half present'
  | writing =>
      have present' : ev ∈ s.revs.tail := by
        simpa [System.advance, half] using present
      rcases pending.settled ev (List.mem_of_mem_tail present') with
        settled | ⟨_, current, _⟩
      · exact settled
      · obtain ⟨rest, revs⟩ := List.head?_eq_some_iff.mp current
        have distinct := pending.distinct
        rw [revs, List.map_cons, List.nodup_cons] at distinct
        rw [revs, List.tail_cons] at present'
        exact absurd (List.mem_map_of_mem present') distinct.1

/-- No descriptor is in the rest of the batch twice. -/
theorem Pending.distinct_advance (pending : s.Pending) :
    (s.advance.revs.map Revent.fd).Nodup := by
  unfold System.advance
  split
  · exact pending.distinct
  · exact pending.distinct.sublist ((List.tail_sublist s.revs).map Revent.fd)

/-- What holds of a descriptor depends on the tables only. -/
theorem Settled.of_same
    (settled : s.Settled fd)
    (same : SameTables s s')
    (atWait : s'.atWait = s.atWait) :
    s'.Settled fd where
  same := by rw [same.connections, atWait, settled.same]
  watched := by rw [same.watched, settled.watched]

/-- Between two batches there is nothing left to attend to. -/
theorem pending_of_idle (idle : s.revs = []) : s.Pending := by
  constructor <;> simp [idle]

theorem create_revs (listensock : Fd) (added : Bool) :
    (create listensock added).revs = [] := by
  rw [create_eq]

/-- A half that does not touch the tables keeps the batch in order. -/
theorem Pending.of_same
    (pending : s.Pending)
    (same : SameTables s s')
    (atWait : s'.atWait = s.atWait)
    (revs : s'.revs = s.advance.revs) :
    s'.Pending where
  distinct := by
    rw [revs]
    exact pending.distinct_advance
  settled ev present := by
    rw [revs] at present
    exact Or.inl ((pending.advance present).of_same same atWait)

/-- A descriptor handed out by `accept` has no event in the batch. -/
theorem Tables.settled_of_arrivals
    (tables : s.Tables)
    (arrivals : Arrivals conn s s') :
    s'.revs = s.revs ∧ ∀ fd, s.Settled fd → s'.Settled fd := by
  induction arrivals with
  | done s => exact ⟨rfl, fun _ settled => settled⟩
  | @failed s s' errno later inductionHypothesis =>
      have same := SameTables.record s
        (.acceptFailed s.calls (s.memory conn).sock errno)
      obtain ⟨revs, keeps⟩ := inductionHypothesis (tables.of_same same)
      exact ⟨revs, fun fd settled => keeps fd (settled.of_same same rfl)⟩
  | @arrived s s' fresh added closed later inductionHypothesis =>
      obtain ⟨revs, keeps⟩ := inductionHypothesis (tables.afterArrive closed added)
      refine ⟨revs, fun fd settled => keeps fd ?_⟩
      have different : fd ≠ fresh := by
        rintro rfl
        have watched := settled.watched
        rw [(tables.of_closed closed).2] at watched
        exact absurd watched (by simp)
      constructor
      · simpa [System.afterArrive, different] using settled.same
      · simpa [System.afterArrive, different] using settled.watched

/-- Releasing a connection unsettles its own event, which is the current one. -/
theorem Pending.afterClose
    (pending : s.Pending)
    (called : s.Called .reading fd conn)
    (results : List RecvResult) :
    (s.afterClose fd conn sock results).Pending := by
  obtain ⟨⟨ev, rest, current, rfl⟩, reading, _, _⟩ := called
  have advanced : s.advance = { s with phase := .writing } := by
    simp [System.advance, reading]
  have distinct := pending.distinct
  rw [current, List.map_cons, List.nodup_cons] at distinct
  constructor
  · exact pending.distinct_advance
  · intro other present
    have present' : other ∈ s.revs := by
      change other ∈ s.advance.revs at present
      rw [advanced] at present
      exact present
    rw [current] at present'
    rcases List.mem_cons.mp present' with rfl | behind
    · right
      simp [System.afterClose, System.entered, advanced, System.afterEnter,
        System.afterRecv, System.afterRelease, System.record, current]
    · left
      have different : other.fd ≠ ev.fd := by
        intro equal
        rw [← equal] at distinct
        exact distinct.1 (List.mem_map_of_mem behind)
      rw [← current] at present'
      have settled := pending.settled_of_reading reading present'
      constructor
      · simpa [System.afterClose, System.entered, advanced, System.afterEnter,
          System.afterRecv, System.afterRelease, System.record, different]
          using settled.same
      · simpa [System.afterClose, System.entered, advanced, System.afterEnter,
          System.afterRecv, System.afterRelease, System.record, different]
          using settled.watched

/-- Every step keeps the rest of the batch in order. -/
theorem Move.pending
    (moved : s.Move (.running s'))
    (tables : s.Tables)
    (pending : s.Pending) :
    s'.Pending := by
  cases moved with
  | wait batch idle possible =>
      exact ⟨possible.2.1, fun ev present => Or.inl ⟨rfl, possible.2.2 ev present⟩⟩
  | skip busy =>
      exact pending.of_same (SameTables.advance s) advance_atWait rfl
  | @accept conn s' called arrivals =>
      have entered := SameTables.entered s s.listensock conn
      obtain ⟨revs, keeps⟩ := (tables.of_same entered).settled_of_arrivals arrivals
      constructor
      · rw [revs]
        exact pending.distinct_advance
      · intro ev present
        rw [revs] at present
        have settled := pending.advance present
        exact Or.inl (keeps ev.fd (settled.of_same entered advance_atWait))
  | read called registered continued drained survived =>
      exact pending.of_same (SameTables.afterRead registered _) advance_atWait rfl
  | close called registered continued closes =>
      exact pending.afterClose called _
  | write called registered soft conserved =>
      exact pending.of_same (SameTables.afterWrite registered _ _) advance_atWait rfl

end Kept

end System

namespace Process

/-- The tables are in order, and the batch too while the process runs. -/
theorem orderly : machine.Invariant
    fun process => process.state.Tables ∧
      ∀ s, process = .running s → s.Pending := by
  apply Transition.Machine.invariant_of_steps
  · rintro _ ⟨listensock, added, rfl⟩
    refine ⟨System.create_tables listensock added, ?_⟩
    intro s equal
    obtain rfl := Process.running.inj equal
    exact System.pending_of_idle (System.create_revs listensock added)
  · rintro _ next reached ⟨tables, inOrder⟩ ⟨s, label, rfl, result⟩
    have pending := inOrder s rfl
    have moved := tables.move pending label result
    refine ⟨moved.tables tables, ?_⟩
    rintro s' rfl
    exact moved.pending tables pending

/-- To prove an invariant, look at the constructor and at every move. -/
theorem invariant_of_moves
    {property : Process → Prop}
    (base : ∀ listensock added, property (.running (System.create listensock added)))
    (preserved : ∀ s next, machine.Reachable (.running s) → s.Tables → s.Pending →
      property (.running s) → s.Move next → property next) :
    machine.Invariant property := by
  apply Transition.Machine.invariant_of_steps
  · rintro _ ⟨listensock, added, rfl⟩
    exact base listensock added
  · rintro _ next reached holds ⟨s, label, rfl, result⟩
    obtain ⟨tables, inOrder⟩ := orderly _ reached
    have pending := inOrder s rfl
    exact preserved s next reached tables pending holds
      (tables.move pending label result)

end Process

end Reactor
end LearnInLinux
