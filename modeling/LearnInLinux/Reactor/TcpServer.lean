import LearnInLinux.Reactor.Calculator
import LearnInLinux.Library.Transition
import Mathlib.Logic.Function.Basic

/-!
# The reactor server

One thread runs `Dispather`: it waits on an epoll instance and hands every
reported event to a callback of the connection found under its descriptor.
The state holds the server's tables, the memory of its `Connection` objects,
the kernel's tables of open descriptors and of epoll interest, and the history
of what was done. What the kernel answers is an input: a handler takes the list
of results of the system calls it will make, and a call that needs more results
than were given, or one that the kernel cannot give, is `blocked`.

The memory of a deleted object keeps its last contents, and reading it is
recorded in the history.
-/

namespace LearnInLinux
namespace Reactor

open Text

/-- A file descriptor. -/
abbrev Fd := Nat

/-- Identity of a `Connection` object. -/
abbrev Ptr := Nat

/-- Identity of a socket, kept while descriptors are reused. -/
abbrev SockId := Nat

/-- `EPOLLIN` -/
def epollin : UInt32 := 0x001
/-- `EPOLLOUT` -/
def epollout : UInt32 := 0x004
/-- `EPOLLERR` -/
def epollerr : UInt32 := 0x008
/-- `EPOLLHUP` -/
def epollhup : UInt32 := 0x010
/-- `EPOLLET` -/
def epollet : UInt32 := 0x80000000

/-- The member functions that are bound into callbacks. -/
inductive Callback
  | accepter
  | recver
  | sender
  | excepter
  deriving DecidableEq

/-- One `Connection` object. -/
structure Connection where
  sock : Fd
  recvCb : Option Callback
  sendCb : Option Callback
  exceptCb : Option Callback
  inbuffer : Bytes
  outbuffer : Bytes
  deriving DecidableEq, Inhabited

/-- Result of one `accept`; with a new descriptor comes the result of the
`epoll_ctl` that adds it. -/
inductive AcceptResult
  | sock (fd : Fd) (added : Bool)
  | fail (errno : Errno)
  deriving DecidableEq

/-- Result of one `recv`. -/
inductive RecvResult
  | data (chunk : Chunk)
  | eof
  | fail (errno : Errno)
  deriving DecidableEq

/-- Result of one `send`: a positive count, or a count that is not positive
and the `errno` read after it. -/
inductive SendResult
  | sent (count : Nat)
  | fail (errno : Errno)
  deriving DecidableEq

/-- Operations of `epoll_ctl`. -/
inductive EpollOp
  | add
  | mod
  | del
  deriving DecidableEq

/-- What the history records. Calls of handlers are numbered, and a system
call carries the number of the handler call it was made in. -/
inductive Event
  | accepted (call : Nat) (fd : Fd) (sock : SockId)
  | acceptFailed (call : Nat) (fd : Fd) (errno : Errno)
  | recv (call : Nat) (sock : Option SockId) (result : RecvResult)
  | sent (call : Nat) (sock : Option SockId) (bytes : Bytes)
  | sendFailed (call : Nat) (sock : Option SockId) (errno : Errno)
  | epollCtl (op : EpollOp) (conn : Ptr) (fd : Fd) (ok : Bool)
  | closed (sock : Option SockId)
  | deleted (conn : Ptr)
  | useAfterFree (conn : Ptr)
  | invoked (fd : Fd) (conn : Ptr) (atWait : Option Ptr)
  | message (sock : Option SockId) (message : Bytes)
  deriving DecidableEq

/-- One entry of the array filled by `epoll_wait`. -/
structure Revent where
  fd : Fd
  events : UInt32
  deriving DecidableEq

/-- The two halves of the body of `LoopOnce` for one event. -/
inductive Phase
  | reading
  | writing
  deriving DecidableEq

/-- The process: the server, its heap of connections, its descriptors and the history of the
run. -/
structure System where
  listensock : Fd
  /-- The map from descriptors to connections. -/
  connections : Fd → Option Ptr
  /-- Events of the batch that are not handled yet, the current one first. -/
  revs : List Revent
  phase : Phase
  memory : Ptr → Connection
  alive : Ptr → Bool
  nextPtr : Ptr
  /-- The open descriptors managed by the server. -/
  socket : Fd → Option SockId
  nextSock : SockId
  /-- The epoll interest set with the armed events. -/
  interest : Fd → Option UInt32
  /-- The map as it was when `epoll_wait` returned the batch. -/
  atWait : Fd → Option Ptr
  calls : Nat
  log : List Event

/-- Why the process died. -/
inductive Reason
  | assertion
  | trap
  | emptyCallback
  deriving DecidableEq

/-- How a handler call can end without returning. -/
inductive Halt
  | blocked
  | aborted (reason : Reason) (state : System)

namespace System

/-- A note of what was done. -/
def record (event : Event) (s : System) : System :=
  { s with log := s.log ++ [event] }

/-- Read or write the object `conn`. -/
def touch (conn : Ptr) (s : System) : System :=
  if s.alive conn then s else s.record (.useAfterFree conn)

/-- A store to a connection. -/
def setConnection (conn : Ptr) (c : Connection) (s : System) : System :=
  { s with memory := Function.update s.memory conn c }

/-- The socket behind `conn->_sock`. -/
def socketOf (conn : Ptr) (s : System) : Option SockId :=
  s.socket (s.memory conn).sock

/-- `IsConnectionExists` -/
def isConnectionExists (fd : Fd) (s : System) : Bool :=
  (s.connections fd).isSome

/-! ## Epoll -/

/-- `EPOLL_CTL_ADD`; it cannot succeed on a registered descriptor. -/
def addSockToEpoll
    (conn : Ptr) (fd : Fd) (events : UInt32) (added : Bool)
    (s : System) : Bool × System :=
  if added ∧ s.interest fd = none then
    (true, { s with interest := Function.update s.interest fd (some events) }
      |>.record (.epollCtl .add conn fd true))
  else (false, s.record (.epollCtl .add conn fd false))

/-- `EPOLL_CTL_MOD`; it succeeds on a registered descriptor. -/
def ctrlEpoll
    (conn : Ptr) (fd : Fd) (events : UInt32)
    (s : System) : Bool × System :=
  if (s.interest fd).isSome then
    (true, { s with
        interest := Function.update s.interest fd (some (events ||| epollet)) }
      |>.record (.epollCtl .mod conn fd true))
  else (false, s.record (.epollCtl .mod conn fd false))

/-- `EPOLL_CTL_DEL`; it succeeds on a registered descriptor. -/
def delFromEpoll (conn : Ptr) (fd : Fd) (s : System) : Bool × System :=
  if (s.interest fd).isSome then
    (true, { s with interest := Function.update s.interest fd none }
      |>.record (.epollCtl .del conn fd true))
  else (false, s.record (.epollCtl .del conn fd false))

/-! ## Connections -/

/-- `new Connection(sock)` with its callbacks. -/
def newConnection
    (fd : Fd) (recvCb sendCb exceptCb : Option Callback)
    (s : System) : Ptr × System :=
  (s.nextPtr,
    { s with
      memory := Function.update s.memory s.nextPtr
        { sock := fd, recvCb, sendCb, exceptCb, inbuffer := [], outbuffer := [] }
      alive := Function.update s.alive s.nextPtr true
      nextPtr := s.nextPtr + 1 })

/-- `_connections.insert`, which keeps an entry that is already there. -/
def insertConnection (fd : Fd) (conn : Ptr) (s : System) : System :=
  if (s.connections fd).isSome then s
  else { s with connections := Function.update s.connections fd (some conn) }

/-- Register a descriptor: allocate its object, add it to epoll, insert it into
the map. The result of the addition to epoll is not looked at. -/
def addConnection
    (fd : Fd) (recvCb sendCb exceptCb : Option Callback) (added : Bool)
    (s : System) : System :=
  let (conn, s) := s.newConnection fd recvCb sendCb exceptCb
  let (_, s) := s.addSockToEpoll conn fd (epollin ||| epollet) added
  s.insertConnection fd conn

/-- `EnableReadWrite` -/
def enableReadWrite
    (conn : Ptr) (readable writeable : Bool)
    (s : System) : Except Halt System :=
  let events := (if readable then epollin else 0) |||
    (if writeable then epollout else 0)
  let s := s.touch conn
  let (res, s) := s.ctrlEpoll conn (s.memory conn).sock events
  if res then .ok s else .error (.aborted .assertion s)

/-- Release a connection: out of epoll, out of the map, descriptor closed,
object deleted. -/
def excepter (conn : Ptr) (s : System) : Except Halt System :=
  let s := s.touch conn
  let fd := (s.memory conn).sock
  if !s.isConnectionExists fd then .ok s
  else
    let (res, s) := s.delFromEpoll conn fd
    if !res then .error (.aborted .assertion s)
    else
      let s := { s with connections := Function.update s.connections fd none }
      let s := { s with socket := Function.update s.socket fd none }
        |>.record (.closed (s.socket fd))
      .ok ({ s with alive := Function.update s.alive conn false }
        |>.record (.deleted conn))

/-- `conn->_except_cb(conn)`. -/
def callExcept (conn : Ptr) (s : System) : Except Halt System :=
  match (s.memory conn).exceptCb with
  | some .excepter => s.excepter conn
  | _ => .error (.aborted .emptyCallback s)

/-! ## Accepting -/

/-- The socket behind a new descriptor. -/
def openSocket (fd : Fd) (s : System) : System :=
  { s with
    socket := Function.update s.socket fd (some s.nextSock)
    nextSock := s.nextSock + 1 }
  |>.record (.accepted s.calls fd s.nextSock)

/-- The loop of `Accepter`. The kernel never returns an open descriptor. -/
def accepter (conn : Ptr) :
    List AcceptResult → System → Except Halt System
  | [], _ => .error .blocked
  | .fail errno :: rest, s =>
      let s := s.touch conn
      let s := s.record (.acceptFailed s.calls (s.memory conn).sock errno)
      if errno = eagain ∨ errno = ewouldblock then .ok s
      else if errno = eintr then accepter conn rest s
      else .ok s
  | .sock fd added :: rest, s =>
      if (s.socket fd).isSome then .error .blocked
      else
        let s := s.touch conn
        let s := s.openSocket fd
        accepter conn rest
          (s.addConnection fd (some .recver) (some .sender) (some .excepter) added)

/-! ## The business callback -/

/-- `NetCal`: parse, calculate, queue the answer and ask for write events. -/
def netCal (conn : Ptr) (request : Bytes) (s : System) : Except Halt System :=
  match requestOf request with
  | none => .ok s
  | some req =>
      match calculator req with
      | none => .error (.aborted .trap s)
      | some resp =>
          let sendstr := encode resp.serialize
          let s := s.touch conn
          let c := s.memory conn
          (s.setConnection conn { c with outbuffer := c.outbuffer ++ sendstr })
            |>.enableReadWrite conn true true

/-- Pass every message to the business callback. -/
def deliver (conn : Ptr) :
    List Bytes → System → Except Halt System
  | [], s => .ok s
  | msg :: rest, s => do
      let s ← (s.record (.message (s.socketOf conn) msg)).netCal conn msg
      deliver conn rest s

/-! ## Reading -/

/-- The loop of `Recver`. Result: the state and the `err` flag. -/
def recvLoop (conn : Ptr) :
    List RecvResult → System → Except Halt (System × Bool)
  | [], _ => .error .blocked
  | result :: rest, s =>
      let s := s.touch conn
      let s := s.record (.recv s.calls (s.socketOf conn) result)
      match result with
      | .fail errno =>
          if errno = eagain ∨ errno = ewouldblock then .ok (s, false)
          else if errno = eintr then recvLoop conn rest s
          else do
            let s ← s.callExcept conn
            .ok (s, true)
      | .eof => do
          let s ← s.callExcept conn
          .ok (s, true)
      | .data chunk =>
          let c := s.memory conn
          recvLoop conn rest
            (s.setConnection conn { c with inbuffer := c.inbuffer ++ chunk.text })

/-- `Recver`, with what its calls of `recv` return. -/
def recver (conn : Ptr) (results : List RecvResult)
    (s : System) : Except Halt System := do
  let (s, err) ← recvLoop conn results s
  -- the log line behind the loop prints `_sock` and `_inbuffer` in every case
  let s := s.touch conn
  if err then .ok s
  else
    let c := s.memory conn
    let (inbuffer, messages) := spliteMessage c.inbuffer []
    (s.setConnection conn { c with inbuffer }).deliver conn messages

/-! ## Writing -/

/-- The loop of `Sender`. The kernel accepts at least one byte and at most what
it is given. -/
def sendLoop (conn : Ptr) :
    List SendResult → System → Except Halt System
  | [], _ => .error .blocked
  | result :: rest, s =>
      let s := s.touch conn
      let c := s.memory conn
      match result with
      | .sent count =>
          if 0 < count ∧ count ≤ c.outbuffer.length then
            let s := s.record
              (.sent s.calls (s.socketOf conn) (c.outbuffer.take count))
            let outbuffer := erase c.outbuffer 0 count
            let s := s.setConnection conn { c with outbuffer }
            if outbuffer = [] then .ok s else sendLoop conn rest s
          else .error .blocked
      | .fail errno =>
          let s := s.record (.sendFailed s.calls (s.socketOf conn) errno)
          if errno = eagain ∨ errno = ewouldblock then .ok s
          else if errno = eintr then sendLoop conn rest s
          else s.callExcept conn

/-- `Sender`, with what its calls of `send` return. -/
def sender (conn : Ptr) (results : List SendResult)
    (s : System) : Except Halt System := do
  let s ← sendLoop conn results s
  -- the tail runs also when the loop was left through `_except_cb`
  let s := s.touch conn
  if (s.memory conn).outbuffer = [] then s.enableReadWrite conn true false
  else s.enableReadWrite conn true true

/-! ## Dispatching -/

/-- Results of the system calls of one handler call. -/
structure Answers where
  accepts : List AcceptResult
  recvs : List RecvResult
  sends : List SendResult

/-- The call of a callback. -/
def call (callback : Callback) (conn : Ptr) (answers : Answers)
    (s : System) : Except Halt System :=
  match callback with
  | .accepter => s.accepter conn answers.accepts
  | .recver => s.recver conn answers.recvs
  | .sender => s.sender conn answers.sends
  | .excepter => s.excepter conn

/-- Run the callback in `slot` of the connection registered under `fd`, if
there are a connection and a callback. -/
def invoke (slot : Connection → Option Callback) (fd : Fd) (answers : Answers)
    (s : System) : Except Halt System :=
  match s.connections fd with
  | none => .ok s
  | some conn =>
      let s := s.touch conn
      match slot (s.memory conn) with
      | none => .ok s
      | some callback =>
          { s with calls := s.calls + 1 }
            |>.record (.invoked fd conn (s.atWait fd))
            |>.call callback conn answers

/-- Errors and hang-ups are handed to reading and writing. -/
def effective (revents : UInt32) : UInt32 :=
  let revents :=
    if revents &&& epollerr ≠ 0 then revents ||| (epollin ||| epollout)
    else revents
  if revents &&& epollhup ≠ 0 then revents ||| (epollin ||| epollout)
  else revents

/-- What the environment decides: the batch that `epoll_wait` returns, or the
results of the system calls in the next half of the loop body. -/
inductive Label
  | wait (batch : List Revent)
  | next (answers : Answers)

/-- A batch that `epoll_wait` can return into 128 places: every descriptor is
registered and reported at most once. -/
def BatchOk (s : System) (batch : List Revent) : Prop :=
  batch.length ≤ 128 ∧ (batch.map Revent.fd).Nodup ∧
    ∀ ev ∈ batch, (s.interest ev.fd).isSome = true

instance (s : System) (batch : List Revent) : Decidable (s.BatchOk batch) := by
  unfold BatchOk
  infer_instance

/-- One step of `LoopOnce`: fetch the next batch, or do the reading or the
writing half for the current event. -/
def loopOnce (label : Label) (s : System) : Except Halt System :=
  match label with
  | .wait batch =>
      if s.revs = [] ∧ s.BatchOk batch then
        .ok { s with revs := batch, phase := .reading, atWait := s.connections }
      else .error .blocked
  | .next answers =>
      match s.revs, s.phase with
      | [], _ => .error .blocked
      | ev :: _, .reading =>
          let s := { s with phase := .writing }
          if effective ev.events &&& epollin ≠ 0 then
            s.invoke Connection.recvCb ev.fd answers
          else .ok s
      | ev :: rest, .writing =>
          let s := { s with revs := rest, phase := .reading }
          if effective ev.events &&& epollout ≠ 0 then
            s.invoke Connection.sendCb ev.fd answers
          else .ok s

/-- The server after its constructor: the listening socket is open and
registered like any other connection, with `Accepter` as only callback. -/
def create (listensock : Fd) (added : Bool) : System :=
  ({ listensock
     connections := fun _ => none
     revs := []
     phase := .reading
     memory := fun _ => default
     alive := fun _ => false
     nextPtr := 0
     socket := Function.update (fun _ => none) listensock (some 0)
     nextSock := 1
     interest := fun _ => none
     atWait := fun _ => none
     calls := 0
     log := [] } : System)
  |>.addConnection listensock (some .accepter) none none added

end System

/-- A server process, running between two handler calls or dead. -/
inductive Process
  | running (state : System)
  | aborted (reason : Reason) (state : System)

namespace Process

/-- The state in which the process is or has ended. -/
def state : Process → System
  | .running state => state
  | .aborted _ state => state

/-- Why the process has ended. -/
def reason : Process → Option Reason
  | .running _ => none
  | .aborted reason _ => some reason

/-- The process behind a step that returned or died. A blocked step has none. -/
def after : Except Halt System → Option Process
  | .ok s => some (.running s)
  | .error (.aborted reason s) => some (.aborted reason s)
  | .error .blocked => none

/-- `Dispather` as a transition system. -/
def machine : Transition.Machine Process where
  start process := ∃ listensock added,
    process = .running (System.create listensock added)
  step before next := ∃ s label, before = .running s ∧
    after (s.loopOnce label) = some next

/-- The process behind a given series of steps. -/
def run : List System.Label → Process → Option Process
  | [], process => some process
  | label :: labels, .running s => (after (s.loopOnce label)).bind (run labels)
  | _ :: _, .aborted _ _ => none

theorem eq_running_of_reason
    {process : Process}
    (alive : process.reason = none) :
    process = .running process.state := by
  cases process with
  | running s => rfl
  | aborted cause s => exact absurd alive (by simp [reason])

theorem reachable_of_run
    {process result : Process}
    (reached : machine.Reachable process)
    {labels : List System.Label}
    (ran : run labels process = some result) :
    machine.Reachable result := by
  induction labels generalizing process with
  | nil =>
      obtain rfl := Option.some.inj ran
      exact reached
  | cons label labels inductionHypothesis =>
      cases process with
      | running s =>
          obtain ⟨next, stepped, others⟩ := Option.bind_eq_some_iff.mp ran
          exact inductionHypothesis (reached.step ⟨s, label, rfl, stepped⟩) others
      | aborted reason s => exact absurd ran (by simp [run])

theorem reachable_create (listensock : Fd) (added : Bool) :
    machine.Reachable (.running (System.create listensock added)) :=
  .start ⟨listensock, added, rfl⟩

end Process

end Reactor
end LearnInLinux
