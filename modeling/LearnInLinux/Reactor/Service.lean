import LearnInLinux.Reactor.History
import LearnInLinux.Reactor.Safety

/-!
# What a client gets

`Serving` relates the buffers of every registered connection, its epoll entry
and the history of its socket. It holds between any two handler calls of a
running server; the accounting of the answers and the armed events are read off
it.
-/

namespace LearnInLinux
namespace Reactor

open Delimited (messages remainder)

/-- The buffers of a connection are what its history says: the messages of the
received text were passed on, their answers are sent or queued, and the
unfinished rest is kept. -/
structure Balanced (c : Connection) (events : List Event) : Prop where
  inbuffer : c.inbuffer = remainder sepChar (text events)
  delivered : delivered events = messages sepChar (text events)
  outbuffer : sentBytes events ++ c.outbuffer =
    replies (messages sepChar (text events))

theorem Balanced.initial
    {c : Connection}
    (noInput : c.inbuffer = [])
    (noOutput : c.outbuffer = []) :
    Balanced c [] := by
  constructor <;> simp [noInput, noOutput]

namespace System

/-- The buffers of every connection are what its history leaves in them. -/
structure Serving (s : System) : Prop where
  unused : ∀ sock, s.nextSock ≤ sock → s.history sock = []
  balanced : ∀ fd conn sock, s.connections fd = some conn →
    s.socket fd = some sock → Balanced (s.memory conn) (s.history sock)
  armed : ∀ fd conn mask, s.connections fd = some conn →
    s.interest fd = some mask →
    mask = if (s.memory conn).outbuffer = [] then readOnly else readWrite
  unwatched : ∀ fd conn, s.connections fd = some conn → s.interest fd = none →
    (s.memory conn).outbuffer = []

/-- Nothing that `Serving` looks at has changed. -/
theorem Serving.of_eq
    {s s' : System}
    (serving : s.Serving)
    (connections : s'.connections = s.connections)
    (memory : s'.memory = s.memory)
    (socket : s'.socket = s.socket)
    (interest : s'.interest = s.interest)
    (nextSock : s'.nextSock = s.nextSock)
    (history : ∀ sock, s'.history sock = s.history sock) :
    s'.Serving where
  unused sock := by
    rw [nextSock, history]
    exact serving.unused sock
  balanced fd conn sock := by
    rw [connections, socket, memory, history]
    exact serving.balanced fd conn sock
  armed fd conn mask := by
    rw [connections, interest, memory]
    exact serving.armed fd conn mask
  unwatched fd conn := by
    rw [connections, interest, memory]
    exact serving.unwatched fd conn

/-! ## The moves keep it -/

section Kept

variable {s s' : System} {fd : Fd} {conn : Ptr} {sock : SockId}

theorem Serving.entered
    (serving : s.Serving)
    (fd : Fd) (conn : Ptr) :
    (s.entered fd conn).Serving := by
  refine serving.of_eq advance_connections advance_memory advance_socket
    advance_interest (entered_nextSock s fd conn) fun sock => ?_
  rw [history_of_log (entered_log s fd conn), about_cons_of_none rfl]
  simp

/-- A call on one connection keeps it if what is now found under the descriptor
of that connection is in order. -/
theorem Serving.of_frame
    (serving : s.Serving)
    (tables : s.Tables)
    (registered : s.Registered fd conn sock)
    (frame : Frame s s' fd conn sock)
    (balanced : ∀ conn' sock', s'.connections fd = some conn' →
      s'.socket fd = some sock' → Balanced (s'.memory conn') (s'.history sock'))
    (armed : ∀ conn', s'.connections fd = some conn' →
      s'.interest fd =
        some (if (s'.memory conn').outbuffer = [] then readOnly else readWrite)) :
    s'.Serving := by
  refine ⟨?_, ?_, ?_, ?_⟩
  · intro other bound
    rw [frame.nextSock] at bound
    have different : other ≠ sock :=
      Nat.ne_of_gt (Nat.lt_of_lt_of_le
        (tables.socket_lt fd sock registered.opened) bound)
    rw [frame.history other different]
    exact serving.unused other bound
  · intro other conn' sock' present isOpen
    by_cases same : other = fd
    · subst same
      exact balanced conn' sock' present isOpen
    · rw [frame.connections other same] at present
      rw [frame.socket other same] at isOpen
      rw [frame.memory conn' (tables.conn_ne registered same present),
        frame.history sock' (tables.sock_ne registered same isOpen)]
      exact serving.balanced other conn' sock' present isOpen
  · intro other conn' mask present watched
    by_cases same : other = fd
    · subst same
      rw [armed conn' present, Option.some.injEq] at watched
      exact watched.symm
    · rw [frame.connections other same] at present
      rw [frame.interest other same] at watched
      rw [frame.memory conn' (tables.conn_ne registered same present)]
      exact serving.armed other conn' mask present watched
  · intro other conn' present notWatched
    by_cases same : other = fd
    · subst same
      rw [armed conn' present] at notWatched
      exact absurd notWatched (by simp)
    · rw [frame.connections other same] at present
      rw [frame.interest other same] at notWatched
      rw [frame.memory conn' (tables.conn_ne registered same present)]
      exact serving.unwatched other conn' present notWatched

/-- The same for a connection that stays registered. -/
theorem Serving.of_frame_registered
    (serving : s.Serving)
    (tables : s.Tables)
    (registered : s.Registered fd conn sock)
    (frame : Frame s s' fd conn sock)
    (same : SameTables s s')
    (balanced : Balanced (s'.memory conn) (s'.history sock))
    (armed : s'.interest fd =
      some (if (s'.memory conn).outbuffer = [] then readOnly else readWrite)) :
    s'.Serving := by
  have entry {conn' : Ptr} (present : s'.connections fd = some conn') :
      conn = conn' := by
    rw [same.connections, registered.entry, Option.some.injEq] at present
    exact present
  have opened {sock' : SockId} (isOpen : s'.socket fd = some sock') :
      sock = sock' := by
    rw [same.socket, registered.opened, Option.some.injEq] at isOpen
    exact isOpen
  apply serving.of_frame tables registered frame
  · intro conn' sock' present isOpen
    rw [← entry present, ← opened isOpen]
    exact balanced
  · intro conn' present
    rw [← entry present]
    exact armed

/-- The epoll entry of a registered connection. -/
theorem Serving.interest
    (serving : s.Serving)
    (registered : s.Registered fd conn sock) :
    s.interest fd =
      some (if (s.memory conn).outbuffer = [] then readOnly else readWrite) := by
  obtain ⟨mask, watched⟩ := Option.isSome_iff_exists.mp registered.watched
  rw [watched, serving.armed fd conn mask registered.entry watched]

/-- Answers to surviving messages are empty only if none was accepted. -/
theorem replies_eq_nil_iff
    {served : List Bytes}
    (survived : ∀ message ∈ served, Survives message) :
    replies served = [] ↔ ¬∃ message ∈ served, Accepted message := by
  rw [replies, List.flatMap_eq_nil_iff, not_exists]
  refine forall_congr' fun message => ?_
  rw [not_and]
  refine forall_congr' fun present => ?_
  have survives := survived message present
  cases parsed : requestOf message with
  | none => simp [reply, Accepted, parsed]
  | some req =>
      obtain ⟨resp, computed⟩ := Option.ne_none_iff_exists'.mp (survives req parsed)
      simp [reply, Accepted, parsed, computed, encode_ne_nil]

/-- The object after its input was served. -/
theorem afterRead_memory (results : List RecvResult) :
    (s.afterRead fd conn sock results).memory conn =
      { s.memory conn with
        inbuffer := remainder sepChar ((s.memory conn).inbuffer ++
          chunkText (chunksOf results))
        outbuffer := (s.memory conn).outbuffer ++
          replies (s.complete conn results) } := by
  simp [System.afterRead, System.afterAnswers, System.afterInput, System.afterSplit,
    System.afterRecv, System.entered, System.afterEnter]

/-- The object after a part of its output was sent. -/
theorem afterWrite_memory (outbuffer : Bytes) (events : List Event) :
    (s.afterWrite fd conn outbuffer events).memory conn =
      { s.memory conn with outbuffer } := by
  simp [System.afterWrite, System.afterArm, System.afterSend, System.entered,
    System.afterEnter]

theorem Serving.afterRead
    (serving : s.Serving)
    (tables : s.Tables)
    (registered : s.Registered fd conn sock)
    (results : List RecvResult)
    (survived : ∀ message ∈ s.complete conn results, Survives message) :
    (s.afterRead fd conn sock results).Serving := by
  have before := serving.balanced fd conn sock registered.entry registered.opened
  have newText : text ((s.afterRead fd conn sock results).history sock) =
      text (s.history sock) ++ chunkText (chunksOf results) := by
    rw [history_afterRead]
    simp
  have complete : messages sepChar (text (s.history sock) ++
      chunkText (chunksOf results)) =
      messages sepChar (text (s.history sock)) ++ s.complete conn results := by
    rw [Delimited.messages_append, System.complete, before.inbuffer]
  refine serving.of_frame_registered tables registered (Frame.afterRead results)
    (SameTables.afterRead registered results) ?_ ?_
  · constructor
    · rw [newText, Delimited.remainder_append (text (s.history sock)),
        ← before.inbuffer, afterRead_memory]
    · rw [newText, complete, ← before.delivered, history_afterRead]
      simp
    · rw [newText, complete, afterRead_memory, history_afterRead]
      simp [← before.outbuffer]
  · have entry : (s.afterRead fd conn sock results).interest fd =
        if ∃ message ∈ s.complete conn results, Accepted message then some readWrite
        else s.interest fd := by
      simp [System.afterRead, System.afterAnswers, System.afterInput,
        System.afterSplit, System.afterRecv, System.entered, System.afterEnter]
    rw [entry, afterRead_memory, serving.interest registered]
    have silent := replies_eq_nil_iff survived
    split
    · rename_i accepted
      have answered : replies (s.complete conn results) ≠ [] := fun empty =>
        silent.mp empty accepted
      simp [answered]
    · rename_i rejected
      simp [silent.mpr rejected]

theorem Serving.afterWrite
    (serving : s.Serving)
    (tables : s.Tables)
    (registered : s.Registered fd conn sock)
    {outbuffer : Bytes}
    {events : List Event}
    (soft : ∀ event ∈ events, SoftSend (s.calls + 1) sock event)
    (conserved : sentBytes events ++ outbuffer = (s.memory conn).outbuffer) :
    (s.afterWrite fd conn outbuffer events).Serving := by
  have before := serving.balanced fd conn sock registered.entry registered.opened
  have newText : text ((s.afterWrite fd conn outbuffer events).history sock) =
      text (s.history sock) := by
    rw [history_afterWrite outbuffer soft, text_append, text, text,
      received_soft soft, chunksOf_nil, chunkText_nil, List.append_nil]
  refine serving.of_frame_registered tables registered
    (Frame.afterWrite outbuffer soft)
    (SameTables.afterWrite registered outbuffer events) ?_ ?_
  · constructor
    · rw [afterWrite_memory, newText]
      exact before.inbuffer
    · rw [newText, ← before.delivered, history_afterWrite outbuffer soft,
        delivered_append, delivered_soft soft, List.append_nil]
    · rw [newText, ← before.outbuffer, history_afterWrite outbuffer soft,
        afterWrite_memory, sentBytes_append, List.append_assoc, conserved]
  · rw [afterWrite_memory]
    simp [System.afterWrite, System.afterArm]

/-- Releasing a connection drops it and keeps the others. -/
theorem Serving.afterClose
    (serving : s.Serving)
    (tables : s.Tables)
    (registered : s.Registered fd conn sock)
    (results : List RecvResult) :
    (s.afterClose fd conn sock results).Serving := by
  have gone : (s.afterClose fd conn sock results).connections fd = none := by
    simp [System.afterClose, System.afterRelease, System.record]
  apply serving.of_frame tables registered (Frame.afterClose results)
  · intro conn' sock' present
    rw [gone] at present
    exact absurd present (by simp)
  · intro conn' present
    rw [gone] at present
    exact absurd present (by simp)

/-- An arrival starts with empty buffers, an empty history and nothing armed but
reading. -/
theorem Serving.afterArrive
    (serving : s.Serving)
    (tables : s.Tables)
    (added : Bool) :
    (s.afterArrive fd added).Serving := by
  refine ⟨?_, ?_, ?_, ?_⟩
  · intro sock bound
    rw [history_afterArrive]
    exact serving.unused sock (Nat.le_of_succ_le bound)
  · intro other conn' sock' present isOpen
    rw [history_afterArrive]
    by_cases same : other = fd
    · subst same
      rw [afterArrive_connections_self, Option.some.injEq] at present
      rw [afterArrive_socket_self, Option.some.injEq] at isOpen
      rw [← present, ← isOpen, afterArrive_memory_self,
        serving.unused s.nextSock (Nat.le_refl _)]
      exact Balanced.initial rfl rfl
    · rw [afterArrive_connections_of_ne same] at present
      rw [afterArrive_socket_of_ne same] at isOpen
      rw [afterArrive_memory_of_ne (tables.ne_nextPtr present)]
      exact serving.balanced other conn' sock' present isOpen
  · intro other conn' mask present watched
    by_cases same : other = fd
    · subst same
      rw [afterArrive_connections_self, Option.some.injEq] at present
      rw [← present, afterArrive_memory_self, if_pos rfl]
      rw [afterArrive_interest_self] at watched
      split at watched
      · exact (Option.some.inj watched).symm
      · exact absurd watched (by simp)
    · rw [afterArrive_connections_of_ne same] at present
      rw [afterArrive_interest_of_ne same] at watched
      rw [afterArrive_memory_of_ne (tables.ne_nextPtr present)]
      exact serving.armed other conn' mask present watched
  · intro other conn' present notWatched
    by_cases same : other = fd
    · subst same
      rw [afterArrive_connections_self, Option.some.injEq] at present
      rw [← present, afterArrive_memory_self]
    · rw [afterArrive_connections_of_ne same] at present
      rw [afterArrive_interest_of_ne same] at notWatched
      rw [afterArrive_memory_of_ne (tables.ne_nextPtr present)]
      exact serving.unwatched other conn' present notWatched

theorem Serving.arrivals
    (serving : s.Serving)
    (tables : s.Tables)
    (arrivals : Arrivals conn s s') :
    s'.Serving := by
  induction arrivals with
  | done s => exact serving
  | failed errno later inductionHypothesis =>
      refine inductionHypothesis ?_ (tables.of_same (SameTables.record _ _))
      exact serving.of_eq rfl rfl rfl rfl rfl fun _ => history_failedAccept _ errno
  | arrived fd added closed later inductionHypothesis =>
      exact inductionHypothesis (serving.afterArrive tables added)
        (tables.afterArrive closed added)

theorem Move.serving
    (moved : s.Move (.running s'))
    (tables : s.Tables)
    (serving : s.Serving) :
    s'.Serving := by
  cases moved with
  | wait batch idle possible =>
      exact serving.of_eq rfl rfl rfl rfl rfl fun _ => rfl
  | skip busy =>
      refine serving.of_eq advance_connections advance_memory advance_socket
        advance_interest (SameTables.advance s).nextSock fun sock => ?_
      rw [history, advance_log]
      rfl
  | accept called arrivals =>
      exact (serving.entered _ _).arrivals
        (tables.of_same (SameTables.entered s _ _)) arrivals
  | read called registered continued drained survived =>
      exact serving.afterRead tables registered _ survived
  | close called registered continued closes =>
      exact serving.afterClose tables registered _
  | write called registered soft conserved =>
      exact serving.afterWrite tables registered soft conserved

end Kept

theorem create_buffers (listensock : Fd) (added : Bool) (conn : Ptr) :
    ((create listensock added).memory conn).inbuffer = [] ∧
    ((create listensock added).memory conn).outbuffer = [] := by
  rw [create_eq]
  by_cases first : conn = 0 <;>
    simp [first, default, instInhabitedConnection.default]

theorem create_serving (listensock : Fd) (added : Bool) :
    (create listensock added).Serving := by
  have buffers := create_buffers listensock added
  refine ⟨fun sock _ => history_create listensock added, ?_, ?_,
    fun _ conn _ _ => (buffers conn).2⟩
  · intro fd conn sock _ _
    rw [history_create]
    exact Balanced.initial (buffers conn).1 (buffers conn).2
  · intro fd conn mask _ watched
    rw [if_pos (buffers conn).2]
    simp only [create_eq, Function.update_apply] at watched
    split at watched
    · split at watched
      · exact (Option.some.inj watched).symm
      · exact absurd watched (by simp)
    · exact absurd watched (by simp)

end System

namespace Process

theorem serving : machine.Invariant
    fun process => ∀ s, process = .running s → s.Serving := by
  apply invariant_of_moves
  · rintro listensock added s equal
    obtain rfl := Process.running.inj equal
    exact System.create_serving listensock added
  · rintro s _ reached tables pending holds moved s' rfl
    exact moved.serving tables (holds s rfl)

/-- The socket of a registered connection. -/
theorem exists_socket
    {s : System}
    (reached : machine.Reachable (.running s))
    {fd : Fd}
    {conn : Ptr}
    (entry : s.connections fd = some conn) :
    ∃ sock, s.socket fd = some sock := by
  have tables : s.Tables := (orderly _ reached).1
  apply Option.isSome_iff_exists.mp
  rw [tables.opened fd]
  exact Option.isSome_iff_exists.mpr ⟨conn, entry⟩

/-- On every registered connection what was sent followed by what is queued are
the answers to the complete messages received, in the order of arrival. -/
theorem replies_accounted
    {s : System}
    (reached : machine.Reachable (.running s))
    {fd : Fd}
    {conn : Ptr}
    (entry : s.connections fd = some conn) :
    ∃ sock, s.socket fd = some sock ∧
      (0 ∉ receivedBytes (s.history sock) →
        sentBytes (s.history sock) ++ (s.memory conn).outbuffer =
          replies (messages sepChar (receivedBytes (s.history sock)))) := by
  obtain ⟨sock, opened⟩ := exists_socket reached entry
  refine ⟨sock, opened, fun textOnly => ?_⟩
  have balanced := (serving _ reached s rfl).balanced fd conn sock entry opened
  rw [balanced.outbuffer, text, receivedBytes, chunkText_eq_chunkBytes textOnly]

theorem replies_accounted_answersInPart :
    ∃ s sock, run answersInPart (.running (System.create 3 true)) =
        some (.running s) ∧
      s.socket 5 = some sock ∧ receivedBytes (s.history sock) ≠ [] ∧
      sentBytes (s.history sock) ++ (s.memory 1).outbuffer =
        replies (messages sepChar (receivedBytes (s.history sock))) := by
  have ended : (run answersInPart (.running (System.create 3 true))).map
      (fun process => (process.reason, process.state.connections 5,
        process.state.socket 5,
        decide (receivedBytes (process.state.history 1) ≠ [] ∧
          0 ∉ receivedBytes (process.state.history 1)))) =
        some (none, some 1, some 1, true) := by
    decide +kernel
  obtain ⟨process, ran, outcome⟩ := Option.map_eq_some_iff.mp ended
  simp only [Prod.mk.injEq, decide_eq_true_eq] at outcome
  obtain ⟨alive, entry, opened, nonempty, textOnly⟩ := outcome
  rw [eq_running_of_reason alive] at ran
  obtain ⟨sock, opened', accounted⟩ :=
    replies_accounted (reachable_of_run (reachable_create 3 true) ran) entry
  have same : 1 = sock := Option.some.inj (opened.symm.trans opened')
  subst same
  exact ⟨process.state, 1, ran, opened, nonempty, accounted textOnly⟩

/-- On a connection that epoll did not refuse, reading is always armed,
edge-triggered, and writing is armed exactly while answers are queued. -/
theorem writing_armed_iff
    {s : System}
    (reached : machine.Reachable (.running s))
    {fd : Fd}
    {conn : Ptr}
    (entry : s.connections fd = some conn)
    (added : .epollCtl .add conn fd false ∉ s.log) :
    ∃ events, s.interest fd = some events ∧
      events &&& epollin ≠ 0 ∧ events &&& epollet ≠ 0 ∧
      (events &&& epollout ≠ 0 ↔ (s.memory conn).outbuffer ≠ []) := by
  rcases (ledger _ reached).watched fd conn entry with watched | refused
  · obtain ⟨events, armed⟩ := Option.isSome_iff_exists.mp watched
    refine ⟨events, armed, ?_⟩
    rw [(serving _ reached s rfl).armed fd conn events entry armed]
    by_cases empty : (s.memory conn).outbuffer = []
    · rw [if_pos empty, iff_false_right (not_not.mpr empty)]
      decide
    · rw [if_neg empty, iff_true_right empty]
      decide
  · exact absurd refused added

theorem writing_armed_answersInPart :
    ∃ s events, run answersInPart (.running (System.create 3 true)) =
        some (.running s) ∧
      s.interest 5 = some events ∧ events &&& epollout ≠ 0 := by
  have ended : (run answersInPart (.running (System.create 3 true))).map
      (fun process => (process.reason, process.state.connections 5,
        decide (.epollCtl .add 1 5 false ∉ process.state.log ∧
          (process.state.memory 1).outbuffer ≠ []))) =
        some (none, some 1, true) := by
    decide +kernel
  obtain ⟨process, ran, outcome⟩ := Option.map_eq_some_iff.mp ended
  simp only [Prod.mk.injEq, decide_eq_true_eq] at outcome
  obtain ⟨alive, entry, added, queued⟩ := outcome
  rw [eq_running_of_reason alive] at ran
  obtain ⟨events, watched, _, _, armed⟩ :=
    writing_armed_iff (reachable_of_run (reachable_create 3 true) ran) entry added
  exact ⟨process.state, events, ran, watched, armed.mpr queued⟩

end Process

/-! ## Nothing received is lost -/

/-- Messages passed on and input buffer carry the text received. -/
theorem System.Serving.wire_eq_text
    {s : System}
    (serving : s.Serving)
    {fd : Fd}
    {conn : Ptr}
    {sock : SockId}
    (entry : s.connections fd = some conn)
    (opened : s.socket fd = some sock) :
    Delimited.wire sepChar (delivered (s.history sock)) (s.memory conn).inbuffer =
      text (s.history sock) := by
  have balanced := serving.balanced fd conn sock entry opened
  rw [balanced.delivered, balanced.inbuffer]
  exact (Delimited.splits_messages _).wire_eq

namespace Process

/-- The messages passed on, each followed by `X`, and then the input buffer are
the bytes received exactly if no NUL byte was among them. Then the messages do
not depend on the pieces in which the bytes arrived. -/
theorem received_accounted
    {s : System}
    (reached : machine.Reachable (.running s))
    {fd : Fd}
    {conn : Ptr}
    (entry : s.connections fd = some conn) :
    ∃ sock, s.socket fd = some sock ∧
      (Delimited.wire sepChar (delivered (s.history sock)) (s.memory conn).inbuffer =
          receivedBytes (s.history sock) ↔
        0 ∉ receivedBytes (s.history sock)) ∧
      (0 ∉ receivedBytes (s.history sock) →
        ∀ s' fd' conn' sock', machine.Reachable (.running s') →
          s'.connections fd' = some conn' → s'.socket fd' = some sock' →
          receivedBytes (s'.history sock') = receivedBytes (s.history sock) →
          delivered (s'.history sock') = delivered (s.history sock) ∧
          (s'.memory conn').inbuffer = (s.memory conn).inbuffer) := by
  obtain ⟨sock, opened⟩ := exists_socket reached entry
  refine ⟨sock, opened, ?_, ?_⟩
  · rw [(serving _ reached s rfl).wire_eq_text entry opened]
    constructor
    · intro complete
      rw [← complete]
      exact nul_not_mem_chunkText _
    · intro textOnly
      exact chunkText_eq_chunkBytes textOnly
  · intro textOnly s' fd' conn' sock' reached' entry' opened' sameBytes
    have textOnly' : 0 ∉ receivedBytes (s'.history sock') := by
      rw [sameBytes]
      exact textOnly
    have sameText : text (s'.history sock') = text (s.history sock) := by
      rw [text, text, chunkText_eq_chunkBytes textOnly,
        chunkText_eq_chunkBytes textOnly']
      exact sameBytes
    have balanced := (serving _ reached s rfl).balanced fd conn sock entry opened
    have balanced' :=
      (serving _ reached' s' rfl).balanced fd' conn' sock' entry' opened'
    constructor
    · rw [balanced'.delivered, balanced.delivered, sameText]
    · rw [balanced'.inbuffer, balanced.inbuffer, sameText]

theorem received_accounted_answersInPart :
    ∃ s sock, run answersInPart (.running (System.create 3 true)) =
        some (.running s) ∧
      s.socket 5 = some sock ∧ receivedBytes (s.history sock) = onePlusTwo.bytes ∧
      Delimited.wire sepChar (delivered (s.history sock)) (s.memory 1).inbuffer =
        onePlusTwo.bytes := by
  have ended : (run answersInPart (.running (System.create 3 true))).map
      (fun process => (process.reason, process.state.connections 5,
        process.state.socket 5, receivedBytes (process.state.history 1))) =
        some (none, some 1, some 1, onePlusTwo.bytes) := by
    decide +kernel
  obtain ⟨process, ran, outcome⟩ := Option.map_eq_some_iff.mp ended
  simp only [Prod.mk.injEq] at outcome
  obtain ⟨alive, entry, opened, bytes⟩ := outcome
  rw [eq_running_of_reason alive] at ran
  obtain ⟨sock, opened', complete, _⟩ :=
    received_accounted (reachable_of_run (reachable_create 3 true) ran) entry
  have same : 1 = sock := Option.some.inj (opened.symm.trans opened')
  subst same
  refine ⟨process.state, 1, ran, opened, bytes, ?_⟩
  rw [← bytes]
  apply complete.mpr
  rw [bytes]
  decide

/-- The bytes `1 +`, a NUL byte, and ` 2X`. -/
def onePlusNulTwo : Chunk :=
  ⟨[49, 32, 43, 0, 32, 50, 88], by decide, by decide⟩

/-- A client is accepted on descriptor 5 and sends a NUL byte. -/
def sendsNul : List System.Label :=
  [.wait [⟨3, epollin⟩],
    .next ⟨[.sock 5 true, .fail eagain], [], []⟩,
    .next ⟨[], [], []⟩,
    .wait [⟨5, epollin⟩],
    .next ⟨[], [.data onePlusNulTwo, .fail eagain], []⟩]

/-- Of a chunk with a NUL byte the server keeps what is in front of it. -/
theorem bytes_lost_behind_nul :
    ∃ s, machine.Reachable (.running s) ∧ s.connections 5 = some 1 ∧
      s.socket 5 = some 1 ∧
      receivedBytes (s.history 1) = onePlusNulTwo.bytes ∧
      Delimited.wire sepChar (delivered (s.history 1)) (s.memory 1).inbuffer ≠
        receivedBytes (s.history 1) := by
  have ended : (run sendsNul (.running (System.create 3 true))).map
      (fun process => (process.reason, process.state.connections 5,
        process.state.socket 5,
        decide (receivedBytes (process.state.history 1) = onePlusNulTwo.bytes))) =
        some (none, some 1, some 1, true) := by
    decide +kernel
  obtain ⟨process, ran, outcome⟩ := Option.map_eq_some_iff.mp ended
  simp only [Prod.mk.injEq, decide_eq_true_eq] at outcome
  obtain ⟨alive, entry, opened, bytes⟩ := outcome
  rw [eq_running_of_reason alive] at ran
  have reached := reachable_of_run (reachable_create 3 true) ran
  refine ⟨process.state, reached, entry, opened, bytes, ?_⟩
  rw [(serving _ reached _ rfl).wire_eq_text entry opened, bytes]
  intro complete
  apply nul_not_mem_chunkText (chunksOf (received (process.state.history 1)))
  rw [← text, complete]
  decide

end Process

end Reactor
end LearnInLinux
