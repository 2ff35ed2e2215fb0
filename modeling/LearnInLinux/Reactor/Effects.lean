import LearnInLinux.Reactor.TcpServer

/-!
# What a handler call does to a registered connection

Each handler is described once by the state it leaves: the functions `after…`
give the changed buffers, the changed epoll entry and the events added to the
history, and everything else in the state is unchanged by their definition.
Later arguments use these descriptions and do not unfold the handlers again.
-/

namespace LearnInLinux
namespace Reactor

/-! ## Kinds of results -/

/-- An error number that is neither "try later" nor "interrupted". -/
def HardErrno (errno : Errno) : Prop :=
  errno ≠ eagain ∧ errno ≠ ewouldblock ∧ errno ≠ eintr

instance (errno : Errno) : Decidable (HardErrno errno) := by
  unfold HardErrno
  infer_instance

namespace RecvResult

/-- The reading loop goes round again. -/
def Continues : RecvResult → Prop
  | .data _ => True
  | .eof => False
  | .fail errno => errno = eintr

/-- The reading loop ends because there is nothing to read. -/
def Drained : RecvResult → Prop
  | .fail errno => errno = eagain ∨ errno = ewouldblock
  | _ => False

/-- The reading loop ends because the connection is over. -/
def Closes : RecvResult → Prop
  | .data _ => False
  | .eof => True
  | .fail errno => HardErrno errno

instance : DecidablePred Closes
  | .data _ => inferInstanceAs (Decidable False)
  | .eof => inferInstanceAs (Decidable True)
  | .fail errno => inferInstanceAs (Decidable (HardErrno errno))

end RecvResult

/-- The chunks among the results of a reading loop. -/
def chunksOf (results : List RecvResult) : List Chunk :=
  results.filterMap fun
    | .data chunk => some chunk
    | _ => none

@[simp] theorem chunksOf_nil : chunksOf [] = [] := rfl

/-- The chunks of two lists of results behind each other. -/
@[simp] theorem chunksOf_append (front back : List RecvResult) :
    chunksOf (front ++ back) = chunksOf front ++ chunksOf back := by
  simp [chunksOf]

@[simp] theorem chunksOf_data (chunk : Chunk) :
    chunksOf [.data chunk] = [chunk] := rfl

@[simp] theorem chunksOf_eof : chunksOf [.eof] = [] := rfl

@[simp] theorem chunksOf_fail (errno : Errno) :
    chunksOf [.fail errno] = [] := rfl

/-- The message is parsed to a request. -/
def Accepted (message : Bytes) : Prop :=
  (requestOf message).isSome = true

instance (message : Bytes) : Decidable (Accepted message) := by
  unfold Accepted
  infer_instance

/-- The request in the message, if there is one, has a result. -/
def Survives (message : Bytes) : Prop :=
  ∀ req, requestOf message = some req → calculator req ≠ none

/-- Events armed by `EnableReadWrite(conn, true, true)`. -/
def readWrite : UInt32 := epollin ||| epollout ||| epollet

/-- Events armed by `AddConnection` and `EnableReadWrite(conn, true, false)`. -/
def readOnly : UInt32 := epollin ||| epollet

/-- Bytes accepted by the sends in a list of events. -/
def sentBytes (events : List Event) : Bytes :=
  events.flatMap fun
    | .sent _ _ bytes => bytes
    | _ => []

@[simp] theorem sentBytes_nil : sentBytes [] = [] := rfl

/-- The bytes sent in two lists of events behind each other. -/
@[simp] theorem sentBytes_append (front back : List Event) :
    sentBytes (front ++ back) = sentBytes front ++ sentBytes back := by
  simp [sentBytes]

/-- A system call of a sending loop that goes on or ends without an error. -/
def SoftSend (call : Nat) (sock : SockId) (event : Event) : Prop :=
  (∃ bytes, event = .sent call (some sock) bytes) ∨
    ∃ errno, ¬HardErrno errno ∧ event = .sendFailed call (some sock) errno

namespace System

/-- A client connection in working order: in the map under its own descriptor,
allocated, open, watched by epoll, and with the callbacks of a client. -/
structure Registered
    (s : System) (fd : Fd) (conn : Ptr) (sock : SockId) : Prop where
  entry : s.connections fd = some conn
  sock_eq : (s.memory conn).sock = fd
  live : s.alive conn = true
  opened : s.socket fd = some sock
  watched : (s.interest fd).isSome = true
  exceptCb : (s.memory conn).exceptCb = some .excepter

/-! ## Descriptions -/

/-- A callback is entered. -/
def afterEnter (fd : Fd) (conn : Ptr) (s : System) : System :=
  { s with
    calls := s.calls + 1
    log := s.log ++ [.invoked fd conn (s.atWait fd)] }

/-- The results of a reading loop are taken in. -/
def afterRecv
    (conn : Ptr) (sock : SockId) (results : List RecvResult)
    (s : System) : System :=
  { s with
    memory := Function.update s.memory conn
      { s.memory conn with
        inbuffer := (s.memory conn).inbuffer ++ chunkText (chunksOf results) }
    log := s.log ++ results.map (Event.recv s.calls (some sock)) }

/-- The complete messages are cut off the input buffer. -/
def afterSplit (conn : Ptr) (s : System) : System :=
  { s with
    memory := Function.update s.memory conn
      { s.memory conn with
        inbuffer := Delimited.remainder sepChar (s.memory conn).inbuffer } }

/-- Events of one message passed to the business callback. -/
def messageEvents
    (fd : Fd) (conn : Ptr) (sock : SockId) (message : Bytes) : List Event :=
  .message (some sock) message ::
    if Accepted message then [.epollCtl .mod conn fd true] else []

/-- The messages are answered into the output buffer. -/
def afterAnswers
    (fd : Fd) (conn : Ptr) (sock : SockId) (messages : List Bytes)
    (s : System) : System :=
  { s with
    memory := Function.update s.memory conn
      { s.memory conn with
        outbuffer := (s.memory conn).outbuffer ++ replies messages }
    interest := Function.update s.interest fd
      (if ∃ message ∈ messages, Accepted message then some readWrite
        else s.interest fd)
    log := s.log ++ messages.flatMap (messageEvents fd conn sock) }

/-- The connection is released. -/
def afterRelease
    (fd : Fd) (conn : Ptr) (sock : SockId) (s : System) : System :=
  { s with
    interest := Function.update s.interest fd none
    connections := Function.update s.connections fd none
    socket := Function.update s.socket fd none
    alive := Function.update s.alive conn false
    log := s.log ++
      [.epollCtl .del conn fd true, .closed (some sock), .deleted conn] }

/-- A sending loop leaves `outbuffer` and adds `events` to the history. -/
def afterSend
    (conn : Ptr) (outbuffer : Bytes) (events : List Event)
    (s : System) : System :=
  { s with
    memory := Function.update s.memory conn { s.memory conn with outbuffer }
    log := s.log ++ events }

/-- `EnableReadWrite` arms the events that its caller asks for. -/
def afterArm
    (fd : Fd) (conn : Ptr) (events : UInt32) (s : System) : System :=
  { s with
    interest := Function.update s.interest fd (some events)
    log := s.log ++ [.epollCtl .mod conn fd true] }

/-- Two stretches of a reading loop are one. -/
theorem afterRecv_append
    (conn : Ptr) (sock : SockId) (front back : List RecvResult)
    (s : System) :
    (s.afterRecv conn sock front).afterRecv conn sock back =
      s.afterRecv conn sock (front ++ back) := by
  simp [afterRecv]

/-- One call of `recv` that returns data. -/
theorem afterRecv_data
    (conn : Ptr) (sock : SockId) (chunk : Chunk) (s : System) :
    (s.record (.recv s.calls (some sock) (.data chunk))).setConnection conn
        { s.memory conn with
          inbuffer := (s.memory conn).inbuffer ++ chunk.text } =
      s.afterRecv conn sock [.data chunk] := by
  simp [afterRecv, setConnection, record]

/-- A result without data only enters the history. -/
theorem afterRecv_of_no_chunk
    (conn : Ptr) (sock : SockId) (s : System)
    {result : RecvResult}
    (noChunk : chunksOf [result] = []) :
    s.record (.recv s.calls (some sock) result) =
      s.afterRecv conn sock [result] := by
  simp [afterRecv, record, noChunk]

/-- Two stretches of a loop over messages are one. -/
theorem afterAnswers_append
    (fd : Fd) (conn : Ptr) (sock : SockId) (front back : List Bytes)
    (s : System) :
    (s.afterAnswers fd conn sock front).afterAnswers fd conn sock back =
      s.afterAnswers fd conn sock (front ++ back) := by
  by_cases inFront : ∃ message ∈ front, Accepted message
  · obtain ⟨message, present, accepted⟩ := inFront
    have inBoth : ∃ message, (message ∈ front ∨ message ∈ back) ∧
        Accepted message := ⟨message, Or.inl present, accepted⟩
    have inFront : ∃ message ∈ front, Accepted message :=
      ⟨message, present, accepted⟩
    simp [afterAnswers, inFront, inBoth]
  · have inBoth : (∃ message, (message ∈ front ∨ message ∈ back) ∧
        Accepted message) ↔ ∃ message ∈ back, Accepted message := by
      constructor
      · rintro ⟨message, present | present, accepted⟩
        · exact absurd ⟨message, present, accepted⟩ inFront
        · exact ⟨message, present, accepted⟩
      · rintro ⟨message, present, accepted⟩
        exact ⟨message, Or.inr present, accepted⟩
    simp [afterAnswers, inFront, inBoth]

/-- No message, no answer. -/
theorem afterAnswers_nil
    (fd : Fd) (conn : Ptr) (sock : SockId) (s : System) :
    s.afterAnswers fd conn sock [] = s := by
  simp [afterAnswers]

/-- Two stretches of a sending loop are one. -/
theorem afterSend_afterSend
    (conn : Ptr) (first second : Bytes) (front back : List Event)
    (s : System) :
    (s.afterSend conn first front).afterSend conn second back =
      s.afterSend conn second (front ++ back) := by
  simp [afterSend]

/-! ## Small steps -/

/-- A live object may be used. -/
theorem touch_of_alive
    {s : System} {conn : Ptr}
    (live : s.alive conn = true) :
    s.touch conn = s := by
  simp [touch, live]

/-- The use of a deleted object is noted. -/
theorem touch_of_dead
    {s : System} {conn : Ptr}
    (dead : s.alive conn = false) :
    s.touch conn = s.record (.useAfterFree conn) := by
  simp [touch, dead]

/-- Arming the descriptor of a deleted object reads the object and fails. -/
theorem enableReadWrite_of_dead
    {s : System} {fd : Fd} {conn : Ptr}
    (dead : s.alive conn = false)
    (sock_eq : (s.memory conn).sock = fd)
    (unwatched : s.interest fd = none)
    (readable writeable : Bool) :
    s.enableReadWrite conn readable writeable =
      .error (.aborted .assertion
        ((s.record (.useAfterFree conn)).record (.epollCtl .mod conn fd false))) := by
  rw [enableReadWrite, touch_of_dead dead]
  simp [record, ctrlEpoll, sock_eq, unwatched]

namespace Registered

variable {s : System} {fd : Fd} {conn : Ptr} {sock : SockId}

/-- A registered connection may be used. -/
theorem touch (registered : s.Registered fd conn sock) : s.touch conn = s :=
  touch_of_alive registered.live

/-- The descriptor of a registered connection refers to its socket. -/
theorem socketOf (registered : s.Registered fd conn sock) :
    s.socketOf conn = some sock := by
  rw [System.socketOf, registered.sock_eq, registered.opened]

/-- A note leaves a connection registered. -/
theorem record
    (registered : s.Registered fd conn sock)
    (event : Event) :
    (s.record event).Registered fd conn sock :=
  ⟨registered.entry, registered.sock_eq, registered.live, registered.opened,
    registered.watched, registered.exceptCb⟩

/-- So does the call of its handler. -/
theorem afterEnter (registered : s.Registered fd conn sock) :
    (s.afterEnter fd conn).Registered fd conn sock :=
  ⟨registered.entry, registered.sock_eq, registered.live, registered.opened,
    registered.watched, registered.exceptCb⟩

/-- The buffers of the object and the armed events can change freely. -/
theorem of_buffers
    (registered : s.Registered fd conn sock)
    {s' : System} {c : Connection}
    (connections : s'.connections = s.connections)
    (alive : s'.alive = s.alive)
    (socket : s'.socket = s.socket)
    (memory : s'.memory = Function.update s.memory conn c)
    (sameSock : c.sock = (s.memory conn).sock)
    (sameExceptCb : c.exceptCb = (s.memory conn).exceptCb)
    (watched : (s'.interest fd).isSome = true) :
    s'.Registered fd conn sock where
  entry := by rw [connections, registered.entry]
  sock_eq := by rw [memory, Function.update_self, sameSock, registered.sock_eq]
  live := by rw [alive, registered.live]
  opened := by rw [socket, registered.opened]
  watched := watched
  exceptCb := by rw [memory, Function.update_self, sameExceptCb, registered.exceptCb]

/-- So does a change of its buffers. -/
theorem setBuffers
    (registered : s.Registered fd conn sock)
    (inbuffer outbuffer : Bytes) :
    (s.setConnection conn
      { s.memory conn with inbuffer, outbuffer }).Registered fd conn sock :=
  registered.of_buffers rfl rfl rfl rfl rfl rfl registered.watched

/-- So does what the reading loop does. -/
theorem afterRecv
    (registered : s.Registered fd conn sock)
    (results : List RecvResult) :
    (s.afterRecv conn sock results).Registered fd conn sock :=
  registered.of_buffers rfl rfl rfl rfl rfl rfl registered.watched

/-- So does cutting the input buffer. -/
theorem afterSplit (registered : s.Registered fd conn sock) :
    (s.afterSplit conn).Registered fd conn sock :=
  registered.of_buffers rfl rfl rfl rfl rfl rfl registered.watched

/-- So do the callbacks. -/
theorem afterAnswers
    (registered : s.Registered fd conn sock)
    (messages : List Bytes) :
    (s.afterAnswers fd conn sock messages).Registered fd conn sock := by
  refine registered.of_buffers rfl rfl rfl rfl rfl rfl ?_
  simp only [System.afterAnswers, Function.update_self]
  split
  · rfl
  · exact registered.watched

/-- So does what the sending loop does. -/
theorem afterSend
    (registered : s.Registered fd conn sock)
    (outbuffer : Bytes) (events : List Event) :
    (s.afterSend conn outbuffer events).Registered fd conn sock :=
  registered.of_buffers rfl rfl rfl rfl rfl rfl registered.watched

/-! ## The handlers on a registered connection -/

/-- `_except_cb` of a registered connection releases it. -/
theorem callExcept (registered : s.Registered fd conn sock) :
    s.callExcept conn = .ok (s.afterRelease fd conn sock) := by
  simp only [System.callExcept, registered.exceptCb, excepter, registered.touch,
    registered.sock_eq, isConnectionExists, registered.entry, delFromEpoll,
    registered.watched, Option.isSome_some, Bool.not_true, Bool.false_eq_true,
    if_false, if_true, System.record, registered.opened]
  simp [System.afterRelease]

/-- `EnableReadWrite` of a registered connection succeeds. -/
theorem enableReadWrite
    (registered : s.Registered fd conn sock)
    (readable writeable : Bool) :
    s.enableReadWrite conn readable writeable =
      .ok (s.afterArm fd conn
        ((if readable then epollin else 0) |||
          (if writeable then epollout else 0) ||| epollet)) := by
  simp only [System.enableReadWrite, registered.touch, registered.sock_eq,
    ctrlEpoll, registered.watched, if_true, System.record]
  rfl

/-- How the reading loop ends: it waits for more results, or it takes in results
while they let it go round and returns on the first one that ends it. -/
def RecvLoopEnds
    (s : System) (fd : Fd) (conn : Ptr) (sock : SockId)
    (results : List RecvResult) : Prop :=
  s.recvLoop conn results = .error .blocked ∨
  ∃ rounds last rest, results = rounds ++ last :: rest ∧
    (∀ result ∈ rounds, result.Continues) ∧
    ((last.Drained ∧ s.recvLoop conn results =
        .ok (s.afterRecv conn sock (rounds ++ [last]), false)) ∨
      (last.Closes ∧ s.recvLoop conn results =
        .ok ((s.afterRecv conn sock (rounds ++ [last])).afterRelease
          fd conn sock, true)))

/-- A round that goes on continues from the state with its result taken in. -/
private theorem RecvLoopEnds.cons
    {result : RecvResult}
    {rest : List RecvResult}
    (ends : RecvLoopEnds (s.afterRecv conn sock [result]) fd conn sock rest)
    (continues : result.Continues)
    (unfolded : s.recvLoop conn (result :: rest) =
      (s.afterRecv conn sock [result]).recvLoop conn rest) :
    RecvLoopEnds s fd conn sock (result :: rest) := by
  unfold RecvLoopEnds
  rw [unfolded]
  rcases ends with blocked | ⟨rounds, last, rest', split, continued, outcome⟩
  · exact Or.inl blocked
  · right
    refine ⟨result :: rounds, last, rest', by rw [split, List.cons_append], ?_, ?_⟩
    · simpa using ⟨continues, continued⟩
    · rw [afterRecv_append] at outcome
      exact outcome

/-- The reading loop on a registered connection ends in one of the ways. -/
theorem recvLoop
    (registered : s.Registered fd conn sock)
    (results : List RecvResult) :
    RecvLoopEnds s fd conn sock results := by
  induction results generalizing s with
  | nil => exact Or.inl rfl
  | cons result rest inductionHypothesis =>
      have goesOn := (inductionHypothesis (registered.afterRecv [result])).cons
      cases result with
      | data chunk =>
          refine goesOn trivial ?_
          simp only [System.recvLoop, registered.touch, registered.socketOf]
          rw [← afterRecv_data]
          rfl
      | eof =>
          right
          refine ⟨[], .eof, rest, rfl, by simp, Or.inr ⟨trivial, ?_⟩⟩
          simp only [System.recvLoop, registered.touch, registered.socketOf]
          rw [afterRecv_of_no_chunk conn sock s chunksOf_eof,
            (registered.afterRecv [.eof]).callExcept]
          rfl
      | fail errno =>
          by_cases drained : errno = eagain ∨ errno = ewouldblock
          · right
            refine ⟨[], .fail errno, rest, rfl, by simp, Or.inl ⟨drained, ?_⟩⟩
            simp only [System.recvLoop, registered.touch, registered.socketOf]
            rw [afterRecv_of_no_chunk conn sock s (chunksOf_fail errno),
              if_pos drained]
            rfl
          · by_cases interrupted : errno = eintr
            · refine goesOn interrupted ?_
              simp only [System.recvLoop, registered.touch, registered.socketOf]
              rw [afterRecv_of_no_chunk conn sock s (chunksOf_fail errno),
                if_neg drained, if_pos interrupted]
            · right
              have hard : HardErrno errno := by
                rw [not_or] at drained
                exact ⟨drained.1, drained.2, interrupted⟩
              refine ⟨[], .fail errno, rest, rfl, by simp, Or.inr ⟨hard, ?_⟩⟩
              simp only [System.recvLoop, registered.touch, registered.socketOf]
              rw [afterRecv_of_no_chunk conn sock s (chunksOf_fail errno),
                if_neg drained, if_neg interrupted,
                (registered.afterRecv [.fail errno]).callExcept]
              rfl

/-- One message through the business callback. -/
theorem netCal
    (registered : s.Registered fd conn sock)
    (message : Bytes) :
    (Survives message ∧
      (s.record (.message (some sock) message)).netCal conn message =
        .ok (s.afterAnswers fd conn sock [message])) ∨
    (¬Survives message ∧
      (s.record (.message (some sock) message)).netCal conn message =
        .error (.aborted .trap (s.record (.message (some sock) message)))) := by
  cases parsed : requestOf message with
  | none =>
      left
      refine ⟨by simp [Survives, parsed], ?_⟩
      simp [System.netCal, parsed, System.afterAnswers, messageEvents, Accepted,
        reply, replies, System.record]
  | some req =>
      cases computed : calculator req with
      | none =>
          right
          refine ⟨by simp [Survives, parsed, computed], ?_⟩
          simp [System.netCal, parsed, computed]
      | some resp =>
          left
          refine ⟨by simp [Survives, parsed, computed], ?_⟩
          have called := registered.record (.message (some sock) message)
          simp only [System.netCal, parsed, computed, called.touch]
          rw [(called.setBuffers _ _).enableReadWrite]
          simp [System.afterArm, System.afterAnswers, System.record, setConnection,
            messageEvents, Accepted, reply, replies, parsed, computed, readWrite]

/-- All messages through the business callback, up to the first trap. -/
theorem deliver
    (registered : s.Registered fd conn sock)
    (messages : List Bytes) :
    ((∀ message ∈ messages, Survives message) ∧
      s.deliver conn messages = .ok (s.afterAnswers fd conn sock messages)) ∨
    ∃ front message rest, messages = front ++ message :: rest ∧
      (∀ earlier ∈ front, Survives earlier) ∧ ¬Survives message ∧
      s.deliver conn messages = .error (.aborted .trap
        ((s.afterAnswers fd conn sock front).record
          (.message (some sock) message))) := by
  induction messages generalizing s with
  | nil =>
      left
      exact ⟨by simp, by rw [afterAnswers_nil]; rfl⟩
  | cons message rest inductionHypothesis =>
      have unfolded : s.deliver conn (message :: rest) =
          ((s.record (.message (some sock) message)).netCal conn message).bind
            fun s' => s'.deliver conn rest := by
        rw [System.deliver, registered.socketOf]
        rfl
      rcases registered.netCal message with
        ⟨survives, result⟩ | ⟨trapped, result⟩
      · rw [result] at unfolded
        change _ = (s.afterAnswers fd conn sock [message]).deliver conn rest
          at unfolded
        rcases inductionHypothesis (registered.afterAnswers [message]) with
          ⟨others, outcome⟩ | ⟨front, bad, behind, split, others, trapped, outcome⟩
        · left
          refine ⟨by simpa using ⟨survives, others⟩, ?_⟩
          rw [unfolded, outcome, afterAnswers_append, List.singleton_append]
        · right
          refine ⟨message :: front, bad, behind, by rw [split, List.cons_append],
            by simpa using ⟨survives, others⟩, trapped, ?_⟩
          rw [unfolded, outcome, afterAnswers_append, List.singleton_append]
      · right
        refine ⟨[], message, rest, rfl, by simp, trapped, ?_⟩
        rw [unfolded, result, afterAnswers_nil]
        rfl

/-- `Recver` either waits for more results, serves every complete message,
traps in one of them, or releases the connection and then reads it for the log
line. -/
theorem recver
    (registered : s.Registered fd conn sock)
    (results : List RecvResult) :
    s.recver conn results = .error .blocked ∨
    ∃ rounds last rest, results = rounds ++ last :: rest ∧
      (∀ result ∈ rounds, result.Continues) ∧
      ((last.Drained ∧ s.recver conn results =
          ((s.afterRecv conn sock (rounds ++ [last])).afterSplit conn).deliver conn
            (Delimited.messages sepChar ((s.memory conn).inbuffer ++
              chunkText (chunksOf (rounds ++ [last]))))) ∨
        (last.Closes ∧ s.recver conn results =
          .ok (((s.afterRecv conn sock (rounds ++ [last])).afterRelease
            fd conn sock).record (.useAfterFree conn)))) := by
  rcases registered.recvLoop results with
    blocked | ⟨rounds, last, rest, split, continued, outcome⟩
  · left
    rw [System.recver, blocked]
    rfl
  · right
    refine ⟨rounds, last, rest, split, continued, ?_⟩
    rcases outcome with ⟨drained, result⟩ | ⟨closes, result⟩
    · left
      refine ⟨drained, ?_⟩
      have after := registered.afterRecv (rounds ++ [last])
      rw [System.recver, result]
      simp only [bind, Except.bind, after.touch, spliteMessage_eq, List.nil_append,
        Bool.false_eq_true, if_false]
      simp [System.afterRecv, System.afterSplit, setConnection]
    · right
      refine ⟨closes, ?_⟩
      rw [System.recver, result]
      simp only [bind, Except.bind, if_true]
      rw [touch_of_dead]
      simp [System.afterRelease]

/-- How the sending loop ends: it waits for more results, or it sends a front
part of the output buffer and keeps the rest, and on a hard error releases the
connection. -/
def SendLoopEnds
    (s : System) (fd : Fd) (conn : Ptr) (sock : SockId)
    (results : List SendResult) : Prop :=
  s.sendLoop conn results = .error .blocked ∨
  ∃ outbuffer events, (∀ event ∈ events, SoftSend s.calls sock event) ∧
    sentBytes events ++ outbuffer = (s.memory conn).outbuffer ∧
    (s.sendLoop conn results = .ok (s.afterSend conn outbuffer events) ∨
      ∃ errno, HardErrno errno ∧ s.sendLoop conn results =
        .ok ((s.afterSend conn outbuffer
          (events ++ [.sendFailed s.calls (some sock) errno])).afterRelease
            fd conn sock))

/-- A round that goes on continues from the state with its call taken in. -/
private theorem SendLoopEnds.cons
    {result : SendResult}
    {rest : List SendResult}
    {outbuffer : Bytes}
    {event : Event}
    (ends : SendLoopEnds (s.afterSend conn outbuffer [event]) fd conn sock rest)
    (soft : SoftSend s.calls sock event)
    (conserved : sentBytes [event] ++ outbuffer = (s.memory conn).outbuffer)
    (unfolded : s.sendLoop conn (result :: rest) =
      (s.afterSend conn outbuffer [event]).sendLoop conn rest) :
    SendLoopEnds s fd conn sock (result :: rest) := by
  unfold SendLoopEnds
  rw [unfolded]
  rcases ends with blocked | ⟨left, events, softs, kept, outcome⟩
  · exact Or.inl blocked
  · right
    refine ⟨left, event :: events, by simpa using ⟨soft, softs⟩, ?_, ?_⟩
    · have kept' : sentBytes events ++ left = outbuffer := by
        simpa [System.afterSend] using kept
      rw [← List.singleton_append, sentBytes_append, List.append_assoc, kept',
        conserved]
    · simp only [afterSend_afterSend, List.singleton_append] at outcome
      exact outcome

/-- The sending loop on a registered connection ends in one of the ways. -/
theorem sendLoop
    (registered : s.Registered fd conn sock)
    (results : List SendResult) :
    SendLoopEnds s fd conn sock results := by
  induction results generalizing s with
  | nil => exact Or.inl rfl
  | cons result rest inductionHypothesis =>
      have goesOn
          (outbuffer : Bytes) (event : Event) :
          SoftSend s.calls sock event →
          sentBytes [event] ++ outbuffer = (s.memory conn).outbuffer →
          s.sendLoop conn (result :: rest) =
            (s.afterSend conn outbuffer [event]).sendLoop conn rest →
          SendLoopEnds s fd conn sock (result :: rest) :=
        (inductionHypothesis (registered.afterSend outbuffer [event])).cons
      cases result with
      | sent count =>
          by_cases possible : 0 < count ∧ count ≤ (s.memory conn).outbuffer.length
          · have soft : SoftSend s.calls sock (.sent s.calls (some sock)
                ((s.memory conn).outbuffer.take count)) := Or.inl ⟨_, rfl⟩
            have conserved : sentBytes [.sent s.calls (some sock)
                ((s.memory conn).outbuffer.take count)] ++
                  (s.memory conn).outbuffer.drop count =
                    (s.memory conn).outbuffer := by
              simp [sentBytes]
            by_cases empty : (s.memory conn).outbuffer.drop count = []
            · right
              refine ⟨_, _, by simpa using soft, conserved, Or.inl ?_⟩
              simp only [System.sendLoop, registered.touch, registered.socketOf,
                Text.erase_zero]
              rw [if_pos possible, if_pos empty]
              rfl
            · refine goesOn _ _ soft conserved ?_
              simp only [System.sendLoop, registered.touch, registered.socketOf,
                Text.erase_zero]
              rw [if_pos possible, if_neg empty]
              rfl
          · left
            simp only [System.sendLoop, registered.touch]
            rw [if_neg possible]
      | fail errno =>
          have recorded : s.record (.sendFailed s.calls (some sock) errno) =
              s.afterSend conn (s.memory conn).outbuffer
                [.sendFailed s.calls (some sock) errno] := by
            simp [System.record, System.afterSend]
          by_cases later : errno = eagain ∨ errno = ewouldblock
          · right
            have notHard : ¬HardErrno errno := fun hard => by
              rcases later with same | same
              · exact hard.1 same
              · exact hard.2.1 same
            have soft : SoftSend s.calls sock
                (.sendFailed s.calls (some sock) errno) :=
              Or.inr ⟨errno, notHard, rfl⟩
            refine ⟨_, [.sendFailed s.calls (some sock) errno],
              by simpa using soft, rfl, Or.inl ?_⟩
            simp only [System.sendLoop, registered.touch, registered.socketOf]
            rw [if_pos later, recorded]
          · by_cases interrupted : errno = eintr
            · have soft : ¬HardErrno errno := fun hard => hard.2.2 interrupted
              refine goesOn _ _ (Or.inr ⟨errno, soft, rfl⟩) rfl ?_
              simp only [System.sendLoop, registered.touch, registered.socketOf]
              rw [if_neg later, if_pos interrupted, recorded]
            · right
              rw [not_or] at later
              refine ⟨(s.memory conn).outbuffer, [], by simp, rfl,
                Or.inr ⟨errno, ⟨later.1, later.2, interrupted⟩, ?_⟩⟩
              simp only [System.sendLoop, registered.touch, registered.socketOf]
              rw [if_neg (not_or.mpr later), if_neg interrupted, recorded,
                (registered.afterSend _ _).callExcept]
              rfl

/-- The tail of `Sender` on a connection that is still there. -/
theorem sender_of_sent
    (registered : s.Registered fd conn sock)
    {results : List SendResult}
    {outbuffer : Bytes}
    {events : List Event}
    (looped : s.sendLoop conn results = .ok (s.afterSend conn outbuffer events)) :
    s.sender conn results = .ok ((s.afterSend conn outbuffer events).afterArm
      fd conn (if outbuffer = [] then readOnly else readWrite)) := by
  have after := registered.afterSend outbuffer events
  have contents : ((s.afterSend conn outbuffer events).memory conn).outbuffer =
      outbuffer := by
    simp [System.afterSend]
  rw [System.sender, looped]
  simp only [bind, Except.bind, after.touch, contents, after.enableReadWrite]
  split <;> rfl

/-- The tail of `Sender` on a connection that the loop has released. -/
theorem sender_of_released
    (registered : s.Registered fd conn sock)
    {results : List SendResult}
    {outbuffer : Bytes}
    {events : List Event}
    (looped : s.sendLoop conn results =
      .ok ((s.afterSend conn outbuffer events).afterRelease fd conn sock)) :
    s.sender conn results = .error (.aborted .assertion
      (((((s.afterSend conn outbuffer events).afterRelease fd conn sock).record
        (.useAfterFree conn)).record (.useAfterFree conn)).record
          (.epollCtl .mod conn fd false))) := by
  rw [System.sender, looped]
  simp only [bind, Except.bind]
  rw [touch_of_dead (by simp [System.afterRelease])]
  -- both branches of the tail try to arm a descriptor that is gone
  split <;>
    apply enableReadWrite_of_dead <;>
    simp [System.afterRelease, System.afterSend, System.record, registered.sock_eq]

/-- `Sender` either waits for more results, sends what the kernel takes and arms
what is left to do, or releases the connection and then fails its assertion. -/
theorem sender
    (registered : s.Registered fd conn sock)
    (results : List SendResult) :
    s.sender conn results = .error .blocked ∨
    ∃ outbuffer events, (∀ event ∈ events, SoftSend s.calls sock event) ∧
      sentBytes events ++ outbuffer = (s.memory conn).outbuffer ∧
      (s.sender conn results = .ok ((s.afterSend conn outbuffer events).afterArm
          fd conn (if outbuffer = [] then readOnly else readWrite)) ∨
        ∃ errno, HardErrno errno ∧ s.sender conn results =
          .error (.aborted .assertion
            (((((s.afterSend conn outbuffer
              (events ++ [.sendFailed s.calls (some sock) errno])).afterRelease
                fd conn sock).record (.useAfterFree conn)).record
                  (.useAfterFree conn)).record (.epollCtl .mod conn fd false)))) := by
  rcases registered.sendLoop results with
    blocked | ⟨outbuffer, events, soft, conserved, outcome⟩
  · left
    rw [System.sender, blocked]
    rfl
  · right
    refine ⟨outbuffer, events, soft, conserved, ?_⟩
    rcases outcome with looped | ⟨errno, hard, looped⟩
    · exact Or.inl (registered.sender_of_sent looped)
    · exact Or.inr ⟨errno, hard, registered.sender_of_released looped⟩

end Registered

end System

end Reactor
end LearnInLinux
