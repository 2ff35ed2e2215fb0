import LearnInLinux.Reactor.Dispatch

/-!
# The history of one socket

The events about one socket, what they say was received, passed on and sent,
and what each move adds to them. A move works on one connection; `Frame` says
that everything about the others stays.
-/

namespace LearnInLinux
namespace Reactor

open Delimited (messages remainder)

namespace Event

/-- The socket that was read, written, served or closed. -/
def socket : Event → Option SockId
  | .recv _ sock _ => sock
  | .sent _ sock _ => sock
  | .sendFailed _ sock _ => sock
  | .closed sock => sock
  | .message sock _ => sock
  | _ => none

end Event

/-- The events about a socket. -/
def about (sock : SockId) (events : List Event) : List Event :=
  events.filter fun event => event.socket = some sock

/-- Results of the calls of `recv` in a list of events. -/
def received (events : List Event) : List RecvResult :=
  events.filterMap fun
    | .recv _ _ result => some result
    | _ => none

/-- Results of the calls of `recv` in one call of a handler. -/
def receivedIn (call : Nat) (events : List Event) : List RecvResult :=
  events.filterMap fun
    | .recv call' _ result => if call' = call then some result else none
    | _ => none

/-- Messages passed to the business callback. -/
def delivered (events : List Event) : List Bytes :=
  events.filterMap fun
    | .message _ message => some message
    | _ => none

/-- What the received data appends to an input buffer. -/
def text (events : List Event) : Bytes :=
  chunkText (chunksOf (received events))

/-- The bytes received. -/
def receivedBytes (events : List Event) : Bytes :=
  chunkBytes (chunksOf (received events))

/-! ## Projections of lists of events -/

section Projections

variable {sock other : SockId} {call : Nat}

@[simp] theorem about_nil : about sock [] = [] := rfl

/-- The events about a socket in two lists behind each other. -/
@[simp] theorem about_append (front back : List Event) :
    about sock (front ++ back) = about sock front ++ about sock back := by
  simp [about]

@[simp] theorem received_nil : received [] = [] := rfl

@[simp] theorem delivered_nil : delivered [] = [] := rfl

@[simp] theorem text_nil : text [] = [] := rfl

/-- The results of `recv` in two lists behind each other. -/
@[simp] theorem received_append (front back : List Event) :
    received (front ++ back) = received front ++ received back := by
  simp [received]

/-- The results of one call of a handler in two lists behind each other. -/
@[simp] theorem receivedIn_append (front back : List Event) :
    receivedIn call (front ++ back) =
      receivedIn call front ++ receivedIn call back := by
  simp [receivedIn]

/-- The messages in two lists behind each other. -/
@[simp] theorem delivered_append (front back : List Event) :
    delivered (front ++ back) = delivered front ++ delivered back := by
  simp [delivered]

/-- The texts of two lists behind each other. -/
@[simp] theorem text_append (front back : List Event) :
    text (front ++ back) = text front ++ text back := by
  simp [text]

/-- A list in which everything is about the socket. -/
theorem about_of_all
    {events : List Event}
    (all : ∀ event ∈ events, event.socket = some sock) :
    about sock events = events := by
  simpa [about, List.filter_eq_self] using all

/-- A list in which nothing is about the socket. -/
theorem about_of_none
    {events : List Event}
    (others : ∀ event ∈ events, event.socket ≠ some sock) :
    about sock events = [] := by
  simpa [about, List.filter_eq_nil_iff] using others

/-- An event that is about no socket. -/
theorem about_cons_of_none
    {event : Event}
    (noSocket : event.socket = none)
    (events : List Event) :
    about sock (event :: events) = about sock events := by
  simp [about, noSocket]

/-- The projections of the results of one reading loop. -/
@[simp] theorem received_recvs (results : List RecvResult) :
    received (results.map (Event.recv call (some sock))) = results := by
  simp [received, List.filterMap_map]

@[simp] theorem delivered_recvs (results : List RecvResult) :
    delivered (results.map (Event.recv call (some sock))) = [] := by
  simp [delivered]

@[simp] theorem sentBytes_recvs (results : List RecvResult) :
    sentBytes (results.map (Event.recv call (some sock))) = [] := by
  simp [sentBytes, List.flatMap_map]

/-- What a reading loop appends to the buffer is the text of its chunks. -/
@[simp] theorem text_recvs (results : List RecvResult) :
    text (results.map (Event.recv call (some sock))) =
      chunkText (chunksOf results) := by
  simp [text]

/-- The projections of messages passed on. -/
@[simp] theorem received_messages (messages : List Bytes) :
    received (messages.map (Event.message (some sock))) = [] := by
  simp [received]

@[simp] theorem delivered_messages (messages : List Bytes) :
    delivered (messages.map (Event.message (some sock))) = messages := by
  simp [delivered, List.filterMap_map]

@[simp] theorem sentBytes_messages (messages : List Bytes) :
    sentBytes (messages.map (Event.message (some sock))) = [] := by
  simp [sentBytes, List.flatMap_map]

@[simp] theorem text_messages (messages : List Bytes) :
    text (messages.map (Event.message (some sock))) = [] := by
  simp [text]

/-- The projections of one sending loop. -/
theorem received_soft
    {events : List Event}
    (soft : ∀ event ∈ events, SoftSend call sock event) :
    received events = [] := by
  rw [received, List.filterMap_eq_nil_iff]
  intro event present
  rcases soft event present with ⟨bytes, rfl⟩ | ⟨errno, _, rfl⟩ <;> rfl

/-- Nothing is passed on in a sending loop. -/
theorem delivered_soft
    {events : List Event}
    (soft : ∀ event ∈ events, SoftSend call sock event) :
    delivered events = [] := by
  rw [delivered, List.filterMap_eq_nil_iff]
  intro event present
  rcases soft event present with ⟨bytes, rfl⟩ | ⟨errno, _, rfl⟩ <;> rfl

/-- The events of a sending loop are about its own socket. -/
theorem SoftSend.socket
    {event : Event}
    (soft : SoftSend call sock event) :
    event.socket = some sock := by
  rcases soft with ⟨bytes, rfl⟩ | ⟨errno, _, rfl⟩ <;> rfl

/-- The results of a reading loop are of its own call and socket. -/
theorem mem_recvs
    {call' : Nat}
    {sock' : Option SockId}
    {result : RecvResult}
    {results : List RecvResult}
    (present : .recv call' sock' result ∈
      results.map (Event.recv call (some sock))) :
    call' = call ∧ sock' = some sock ∧ result ∈ results := by
  obtain ⟨result', isResult, equal⟩ := List.mem_map.mp present
  rw [Event.recv.injEq] at equal
  obtain ⟨rfl, rfl, rfl⟩ := equal
  exact ⟨rfl, rfl, isResult⟩

/-- Behind the results of a loop nothing else was received. -/
theorem mem_recvs_of_append
    {call' : Nat}
    {sock' : Option SockId}
    {result : RecvResult}
    {results : List RecvResult}
    {others : List Event}
    (noRecv : received others = [])
    (present : .recv call' sock' result ∈
      results.map (Event.recv call (some sock)) ++ others) :
    call' = call ∧ sock' = some sock ∧ result ∈ results := by
  rcases List.mem_append.mp present with isResult | isOther
  · exact mem_recvs isResult
  · rw [received, List.filterMap_eq_nil_iff] at noRecv
    exact absurd (noRecv _ isOther) (by simp)

/-- All results of a reading loop are about its socket. -/
theorem about_recvs (results : List RecvResult) :
    about sock (results.map (Event.recv call (some sock))) =
      results.map (Event.recv call (some sock)) := by
  apply about_of_all
  simp [Event.socket]

/-- No result of a reading loop is about another socket. -/
theorem about_recvs_other
    (different : other ≠ sock)
    (results : List RecvResult) :
    about other (results.map (Event.recv call (some sock))) = [] := by
  apply about_of_none
  simpa [Event.socket] using fun _ _ => different.symm

/-- What is about one socket is not about another one. -/
theorem about_of_all_other
    (different : other ≠ sock)
    {events : List Event}
    (all : ∀ event ∈ events, event.socket = some sock) :
    about other events = [] := by
  apply about_of_none
  intro event present
  rw [all event present, Ne, Option.some.injEq]
  exact different.symm

/-- Of the events of a served message only the message is about a socket. -/
theorem about_messageEvents (fd : Fd) (conn : Ptr) (messages : List Bytes) :
    about sock (messages.flatMap (System.messageEvents fd conn sock)) =
      messages.map (Event.message (some sock)) := by
  induction messages with
  | nil => rfl
  | cons message messages inductionHypothesis =>
      rw [List.flatMap_cons, about_append, inductionHypothesis, List.map_cons]
      have first : about sock (System.messageEvents fd conn sock message) =
          [.message (some sock) message] := by
        unfold System.messageEvents
        split <;> simp [about, Event.socket]
      rw [first, List.singleton_append]

/-- No message is about another socket. -/
theorem about_messageEvents_other
    (different : other ≠ sock)
    (fd : Fd) (conn : Ptr) (messages : List Bytes) :
    about other (messages.flatMap (System.messageEvents fd conn sock)) = [] := by
  apply about_of_none
  intro event present
  obtain ⟨message, _, present⟩ := List.mem_flatMap.mp present
  unfold System.messageEvents at present
  split at present <;> simp at present <;> grind [Event.socket]

end Projections

namespace System

variable {s : System} {fd : Fd} {conn : Ptr} {sock : SockId}

/-- The events about a socket so far. -/
def history (sock : SockId) (s : System) : List Event :=
  about sock s.log

/-- A handler call on one connection leaves the others as they were. -/
structure Frame
    (s s' : System) (fd : Fd) (conn : Ptr) (sock : SockId) : Prop where
  connections : ∀ other, other ≠ fd → s'.connections other = s.connections other
  memory : ∀ other, other ≠ conn → s'.memory other = s.memory other
  socket : ∀ other, other ≠ fd → s'.socket other = s.socket other
  interest : ∀ other, other ≠ fd → s'.interest other = s.interest other
  nextSock : s'.nextSock = s.nextSock
  calls : s'.calls = s.calls + 1
  history : ∀ other, other ≠ sock → s'.history other = s.history other

/-- The history grows with the log. -/
theorem history_of_log
    {s' : System}
    {events : List Event}
    (log : s'.log = s.log ++ events) :
    s'.history sock = s.history sock ++ about sock events := by
  rw [history, log, about_append]
  rfl

/-- In front of the first event no socket has a history. -/
theorem history_create (listensock : Fd) (added : Bool) :
    (create listensock added).history sock = [] := by
  rw [create_eq]
  simp [history, about, Event.socket]

theorem history_afterArrive (added : Bool) :
    (s.afterArrive fd added).history sock = s.history sock := by
  simp [history, afterArrive, about, Event.socket]

theorem history_failedAccept (call : Nat) (errno : Errno) :
    (s.record (.acceptFailed call fd errno)).history sock = s.history sock := by
  simp [history, record, about, Event.socket]

/-- `Recver` adds its results, and behind them the messages that have become complete. -/
theorem history_afterRead (results : List RecvResult) :
    (s.afterRead fd conn sock results).history sock =
      s.history sock ++ (results.map (Event.recv (s.calls + 1) (some sock)) ++
        (s.complete conn results).map (Event.message (some sock))) := by
  rw [history_of_log (afterRead_log s fd conn sock results), about_cons_of_none rfl,
    about_append, about_recvs, about_messageEvents]

/-- `Recver` up to the message on which the process ends. -/
theorem history_afterTrap
    (results : List RecvResult) (front : List Bytes) (message : Bytes) :
    (s.afterTrap fd conn sock results front message).history sock =
      s.history sock ++ (results.map (Event.recv (s.calls + 1) (some sock)) ++
        (front ++ [message]).map (Event.message (some sock))) := by
  rw [history_of_log (afterTrap_log s fd conn sock results front message),
    about_cons_of_none rfl, about_append, about_append, about_recvs,
    about_messageEvents]
  simp [about, Event.socket]

/-- `Recver` adds its results, and behind them the end of the connection. -/
theorem history_afterClose (results : List RecvResult) :
    (s.afterClose fd conn sock results).history sock =
      s.history sock ++ (results.map (Event.recv (s.calls + 1) (some sock)) ++
        [.closed (some sock)]) := by
  rw [history_of_log (afterClose_log s fd conn sock results), about_cons_of_none rfl,
    about_append, about_recvs]
  simp [about, Event.socket]

/-- `Sender` adds what it has sent and the errors that it has passed over. -/
theorem history_afterWrite
    (outbuffer : Bytes)
    {events : List Event}
    (soft : ∀ event ∈ events, SoftSend (s.calls + 1) sock event) :
    (s.afterWrite fd conn outbuffer events).history sock =
      s.history sock ++ events := by
  rw [history_of_log (afterWrite_log s fd conn outbuffer events),
    about_cons_of_none rfl, about_append,
    about_of_all fun event present => (soft event present).socket]
  simp [about, Event.socket]

/-- `Sender` adds what it has done, and behind it the end of the connection. -/
theorem history_afterBreak
    (outbuffer : Bytes)
    {events : List Event}
    (all : ∀ event ∈ events, event.socket = some sock) :
    (s.afterBreak fd conn sock outbuffer events).history sock =
      s.history sock ++ (events ++ [.closed (some sock)]) := by
  rw [history_of_log (afterBreak_log s fd conn sock outbuffer events),
    about_cons_of_none rfl, about_append, about_of_all all]
  simp [about, Event.socket]

/-- The tables and the objects of the other connections are as they were. -/
structure Elsewhere (s s' : System) (fd : Fd) (conn : Ptr) : Prop where
  connections : ∀ other, other ≠ fd → s'.connections other = s.connections other
  memory : ∀ other, other ≠ conn → s'.memory other = s.memory other
  socket : ∀ other, other ≠ fd → s'.socket other = s.socket other
  interest : ∀ other, other ≠ fd → s'.interest other = s.interest other

namespace Elsewhere

variable {s' s'' : System}

/-- Two changes behind each other. -/
theorem trans
    (first : Elsewhere s s' fd conn)
    (second : Elsewhere s' s'' fd conn) :
    Elsewhere s s'' fd conn where
  connections other different :=
    (second.connections other different).trans (first.connections other different)
  memory other different :=
    (second.memory other different).trans (first.memory other different)
  socket other different :=
    (second.socket other different).trans (first.socket other different)
  interest other different :=
    (second.interest other different).trans (first.interest other different)

/-- The call of a handler itself touches no connection. -/
theorem entered : Elsewhere s (s.entered fd conn) fd conn where
  connections other _ := congrFun advance_connections other
  memory other _ := congrFun advance_memory other
  socket other _ := congrFun advance_socket other
  interest other _ := congrFun advance_interest other

theorem record (event : Event) : Elsewhere s (s.record event) fd conn :=
  ⟨fun _ _ => rfl, fun _ _ => rfl, fun _ _ => rfl, fun _ _ => rfl⟩

theorem afterRecv (results : List RecvResult) :
    Elsewhere s (s.afterRecv conn sock results) fd conn where
  connections _ _ := rfl
  memory _ different := Function.update_of_ne different _ _
  socket _ _ := rfl
  interest _ _ := rfl

theorem afterSplit : Elsewhere s (s.afterSplit conn) fd conn where
  connections _ _ := rfl
  memory _ different := Function.update_of_ne different _ _
  socket _ _ := rfl
  interest _ _ := rfl

/-- The reading half of `Recver`, with the message boundaries looked for. -/
theorem afterInput (results : List RecvResult) :
    Elsewhere s (s.afterInput fd conn sock results) fd conn :=
  (entered.trans (afterRecv results)).trans afterSplit

/-- The callbacks append to the output buffer of their own connection. -/
theorem afterAnswers (messages : List Bytes) :
    Elsewhere s (s.afterAnswers fd conn sock messages) fd conn where
  connections _ _ := rfl
  memory _ different := Function.update_of_ne different _ _
  socket _ _ := rfl
  interest _ different := Function.update_of_ne different _ _

theorem afterSend (outbuffer : Bytes) (events : List Event) :
    Elsewhere s (s.afterSend conn outbuffer events) fd conn where
  connections _ _ := rfl
  memory _ different := Function.update_of_ne different _ _
  socket _ _ := rfl
  interest _ _ := rfl

theorem afterArm (events : UInt32) :
    Elsewhere s (s.afterArm fd conn events) fd conn where
  connections _ _ := rfl
  memory _ _ := rfl
  socket _ _ := rfl
  interest _ different := Function.update_of_ne different _ _

/-- The release of a connection leaves the others where they are. -/
theorem afterRelease : Elsewhere s (s.afterRelease fd conn sock) fd conn where
  connections _ different := Function.update_of_ne different _ _
  memory _ _ := rfl
  socket _ different := Function.update_of_ne different _ _
  interest _ different := Function.update_of_ne different _ _

/-- With the log of a handler call, what is unchanged elsewhere is its frame. -/
theorem frame
    (elsewhere : Elsewhere s s' fd conn)
    (nextSock : s'.nextSock = s.nextSock)
    (calls : s'.calls = s.calls + 1)
    {events : List Event}
    (log : s'.log = s.log ++ .invoked fd conn (s.atWait fd) :: events)
    (others : ∀ other, other ≠ sock → about other events = []) :
    Frame s s' fd conn sock where
  connections := elsewhere.connections
  memory := elsewhere.memory
  socket := elsewhere.socket
  interest := elsewhere.interest
  nextSock := nextSock
  calls := calls
  history other different := by
    rw [history_of_log log, about_cons_of_none rfl, others other different,
      List.append_nil]

end Elsewhere

namespace Frame

/-- `Recver` that goes on. -/
theorem afterRead (results : List RecvResult) :
    Frame s (s.afterRead fd conn sock results) fd conn sock := by
  have elsewhere : Elsewhere s (s.afterRead fd conn sock results) fd conn :=
    (Elsewhere.afterInput results).trans (Elsewhere.afterAnswers _)
  apply elsewhere.frame (entered_nextSock s fd conn) (entered_calls s fd conn)
    (afterRead_log s fd conn sock results)
  intro other different
  rw [about_append, about_recvs_other different, about_messageEvents_other different,
    List.append_nil]

/-- `Recver` that ends the process. -/
theorem afterTrap
    (results : List RecvResult) (front : List Bytes) (message : Bytes) :
    Frame s (s.afterTrap fd conn sock results front message) fd conn sock := by
  have elsewhere :
      Elsewhere s (s.afterTrap fd conn sock results front message) fd conn :=
    ((Elsewhere.afterInput results).trans (Elsewhere.afterAnswers front)).trans
      (Elsewhere.record _)
  apply elsewhere.frame (entered_nextSock s fd conn) (entered_calls s fd conn)
    (afterTrap_log s fd conn sock results front message)
  intro other different
  rw [about_append, about_append, about_recvs_other different,
    about_messageEvents_other different]
  simp [about, Event.socket, different.symm]

/-- `Recver` that releases its connection. -/
theorem afterClose (results : List RecvResult) :
    Frame s (s.afterClose fd conn sock results) fd conn sock := by
  have elsewhere : Elsewhere s (s.afterClose fd conn sock results) fd conn :=
    ((Elsewhere.entered.trans (Elsewhere.afterRecv results)).trans
      Elsewhere.afterRelease).trans (Elsewhere.record _)
  apply elsewhere.frame (entered_nextSock s fd conn) (entered_calls s fd conn)
    (afterClose_log s fd conn sock results)
  intro other different
  rw [about_append, about_recvs_other different]
  simp [about, Event.socket, different.symm]

/-- `Sender` that leaves the connection open. -/
theorem afterWrite
    (outbuffer : Bytes)
    {events : List Event}
    (soft : ∀ event ∈ events, SoftSend (s.calls + 1) sock event) :
    Frame s (s.afterWrite fd conn outbuffer events) fd conn sock := by
  have elsewhere : Elsewhere s (s.afterWrite fd conn outbuffer events) fd conn :=
    (Elsewhere.entered.trans (Elsewhere.afterSend outbuffer events)).trans
      (Elsewhere.afterArm _)
  apply elsewhere.frame (entered_nextSock s fd conn) (entered_calls s fd conn)
    (afterWrite_log s fd conn outbuffer events)
  intro other different
  rw [about_append,
    about_of_all_other different fun event present => (soft event present).socket]
  simp [about, Event.socket]

/-- `Sender` that releases its connection. -/
theorem afterBreak
    (outbuffer : Bytes)
    {events : List Event}
    (all : ∀ event ∈ events, event.socket = some sock) :
    Frame s (s.afterBreak fd conn sock outbuffer events) fd conn sock := by
  have released : Elsewhere s
      (((s.entered fd conn).afterSend conn outbuffer events).afterRelease
        fd conn sock) fd conn :=
    (Elsewhere.entered.trans (Elsewhere.afterSend outbuffer events)).trans
      Elsewhere.afterRelease
  have elsewhere : Elsewhere s (s.afterBreak fd conn sock outbuffer events) fd conn :=
    ((released.trans (Elsewhere.record _)).trans (Elsewhere.record _)).trans
      (Elsewhere.record _)
  apply elsewhere.frame (entered_nextSock s fd conn) (entered_calls s fd conn)
    (afterBreak_log s fd conn sock outbuffer events)
  intro other different
  rw [about_append, about_of_all_other different all]
  simp [about, Event.socket, different.symm]

end Frame

end System

end Reactor
end LearnInLinux
