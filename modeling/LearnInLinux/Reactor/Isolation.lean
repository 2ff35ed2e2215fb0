import LearnInLinux.Reactor.Service

/-!
# A connection by itself

`Solo` is one connection without a server around it: it moves only with the
results of its own calls of `recv` and `send`. Every connection of a reachable
server is where `Solo` is after these results. So what happens on the other
connections, and in which order, makes no difference to it.
-/

namespace LearnInLinux
namespace Reactor

open Delimited (messages remainder)

/-- The result of a call of `recv` or `send` on the connection. -/
inductive Observation
  | recv (result : RecvResult)
  | sent (count : Nat)
  | sendFailed (errno : Errno)
  deriving DecidableEq

/-- The results in a list of events. Where one call of a handler ends and the next
one begins follows from them. -/
def observations (events : List Event) : List Observation :=
  events.filterMap fun
    | .recv _ _ result => some (.recv result)
    | .sent _ _ bytes => some (.sent bytes.length)
    | .sendFailed _ _ errno => some (.sendFailed errno)
    | _ => none

/-- A connection by itself. -/
structure Solo where
  isOpen : Bool
  inbuffer : Bytes
  outbuffer : Bytes
  delivered : List Bytes
  sent : Bytes
  deriving DecidableEq

namespace Solo

/-- A connection that was accepted just now. -/
def initial : Solo where
  isOpen := true
  inbuffer := []
  outbuffer := []
  delivered := []
  sent := []

/-- Pass on and answer the complete messages. -/
def serve (solo : Solo) : Solo :=
  { solo with
    inbuffer := remainder sepChar solo.inbuffer
    outbuffer := solo.outbuffer ++ replies (messages sepChar solo.inbuffer)
    delivered := solo.delivered ++ messages sepChar solo.inbuffer }

/-- The connection is closed. -/
def close (solo : Solo) : Solo :=
  { solo with isOpen := false }

/-- Take in one result. -/
def observe (solo : Solo) : Observation → Solo
  | .recv (.data chunk) => { solo with inbuffer := solo.inbuffer ++ chunk.text }
  | .recv .eof => solo.close
  | .recv (.fail errno) =>
      if errno = eagain ∨ errno = ewouldblock then solo.serve
      else if errno = eintr then solo
      else solo.close
  | .sent count =>
      { solo with
        outbuffer := solo.outbuffer.drop count
        sent := solo.sent ++ solo.outbuffer.take count }
  | .sendFailed errno => if HardErrno errno then solo.close else solo

/-- Take in the results in a list of events. -/
def after (solo : Solo) (events : List Event) : Solo :=
  (observations events).foldl observe solo

end Solo

/-! ## Results of one handler call -/

@[simp] theorem observations_nil : observations [] = [] := rfl

@[simp] theorem observations_append (front back : List Event) :
    observations (front ++ back) = observations front ++ observations back :=
  List.filterMap_append

@[simp] theorem observations_messages (sock : SockId) (messages : List Bytes) :
    observations (messages.map (Event.message (some sock))) = [] := by
  simp [observations]

@[simp] theorem observations_closed (sock : SockId) :
    observations [.closed (some sock)] = [] := rfl

@[simp] theorem observations_recvs
    (call : Nat) (sock : SockId) (results : List RecvResult) :
    observations (results.map (Event.recv call (some sock))) =
      results.map Observation.recv := by
  induction results with
  | nil => rfl
  | cons result results inductionHypothesis =>
      rw [List.map_cons, List.map_cons, ← inductionHypothesis]
      rfl

namespace Solo

variable {solo : Solo} {rounds : List RecvResult} {last : RecvResult}
  {events : List Event}

theorem after_append (solo : Solo) (front back : List Event) :
    solo.after (front ++ back) = (solo.after front).after back := by
  rw [after, observations_append, List.foldl_append]
  rfl

theorem after_of_observations_nil
    (nothing : observations events = []) :
    solo.after events = solo := by
  rw [after, nothing]
  rfl

/-- The rounds of a reading loop fill the input buffer. -/
theorem after_rounds
    (call : Nat) (sock : SockId)
    (continued : ∀ result ∈ rounds, result.Continues) :
    solo.after (rounds.map (Event.recv call (some sock))) =
      { solo with inbuffer := solo.inbuffer ++ chunkText (chunksOf rounds) } := by
  rw [after, observations_recvs]
  induction rounds generalizing solo with
  | nil => simp
  | cons result rounds inductionHypothesis =>
      rw [List.forall_mem_cons] at continued
      rw [List.map_cons, List.foldl_cons, inductionHypothesis continued.2]
      cases result with
      | data chunk =>
          have first : chunksOf (.data chunk :: rounds) = chunk :: chunksOf rounds := rfl
          rw [first, chunkText_cons, ← List.append_assoc]
          rfl
      | eof => exact absurd continued.1 id
      | fail errno =>
          have interrupted : errno = eintr := continued.1
          have first : chunksOf (.fail errno :: rounds) = chunksOf rounds := rfl
          rw [first, interrupted]
          rfl

theorem chunksOf_concat_of_drained
    (rounds : List RecvResult)
    (drained : last.Drained) :
    chunksOf (rounds ++ [last]) = chunksOf rounds := by
  cases last with
  | data chunk => exact absurd drained id
  | eof => exact absurd drained id
  | fail errno => simp

/-- A reading loop that drains the socket ends with serving what is complete. -/
theorem after_drained
    (call : Nat) (sock : SockId)
    (continued : ∀ result ∈ rounds, result.Continues)
    (drained : last.Drained) :
    solo.after ((rounds ++ [last]).map (Event.recv call (some sock))) =
      { solo with
        inbuffer := remainder sepChar
          (solo.inbuffer ++ chunkText (chunksOf (rounds ++ [last])))
        outbuffer := solo.outbuffer ++ replies (messages sepChar
          (solo.inbuffer ++ chunkText (chunksOf (rounds ++ [last]))))
        delivered := solo.delivered ++ messages sepChar
          (solo.inbuffer ++ chunkText (chunksOf (rounds ++ [last]))) } := by
  rw [List.map_append, after_append, after_rounds call sock continued,
    chunksOf_concat_of_drained rounds drained]
  cases last with
  | data chunk => exact absurd drained id
  | eof => exact absurd drained id
  | fail errno => exact if_pos drained

/-- A reading loop that sees the end closes the connection and serves nothing. -/
theorem after_closes
    (call : Nat) (sock : SockId)
    (continued : ∀ result ∈ rounds, result.Continues)
    (closes : last.Closes) :
    solo.after ((rounds ++ [last]).map (Event.recv call (some sock))) =
      { solo with
        isOpen := false
        inbuffer := solo.inbuffer ++ chunkText (chunksOf rounds) } := by
  rw [List.map_append, after_append, after_rounds call sock continued]
  cases last with
  | data chunk => exact absurd closes id
  | eof => rfl
  | fail errno =>
      have notLater : ¬(errno = eagain ∨ errno = ewouldblock) :=
        not_or.mpr ⟨closes.1, closes.2.1⟩
      exact (if_neg notLater).trans (if_neg closes.2.2)

/-- A sending loop moves a front part of the output buffer to what was sent. -/
theorem after_soft
    {call : Nat}
    {sock : SockId}
    {outbuffer : Bytes}
    (soft : ∀ event ∈ events, SoftSend call sock event)
    (conserved : sentBytes events ++ outbuffer = solo.outbuffer) :
    solo.after events =
      { solo with outbuffer, sent := solo.sent ++ sentBytes events } := by
  induction events generalizing solo with
  | nil =>
      rw [sentBytes_nil, List.nil_append] at conserved
      rw [conserved, sentBytes_nil, List.append_nil]
      rfl
  | cons event events inductionHypothesis =>
      rw [List.forall_mem_cons] at soft
      obtain ⟨⟨bytes, rfl⟩ | ⟨errno, notHard, rfl⟩, others⟩ := soft
      · rw [← List.singleton_append, sentBytes_append, List.append_assoc] at conserved
        have moved : solo.after [.sent call (some sock) bytes] =
            { solo with
              outbuffer := sentBytes events ++ outbuffer
              sent := solo.sent ++ bytes } := by
          have only : sentBytes [.sent call (some sock) bytes] = bytes :=
            List.append_nil bytes
          rw [only] at conserved
          change solo.observe (.sent bytes.length) = _
          rw [observe, ← conserved, List.drop_left, List.take_left]
        rw [← List.singleton_append, after_append, moved,
          inductionHypothesis others rfl, sentBytes_append, ← List.append_assoc]
        simp [sentBytes]
      · have unmoved : solo.after [.sendFailed call (some sock) errno] = solo :=
          if_neg notHard
        rw [← List.singleton_append, after_append, unmoved,
          inductionHypothesis others conserved]
        rfl

end Solo

namespace System

variable {s s' : System} {fd : Fd} {conn : Ptr} {sock : SockId}

/-- Every connection is where it would be by itself. -/
structure Mirrors (s : System) : Prop where
  registered : ∀ fd conn sock, s.connections fd = some conn →
    s.socket fd = some sock →
    Solo.initial.after (s.history sock) =
      { isOpen := true
        inbuffer := (s.memory conn).inbuffer
        outbuffer := (s.memory conn).outbuffer
        delivered := delivered (s.history sock)
        sent := sentBytes (s.history sock) }
  released : ∀ sock, sock < s.nextSock → (∀ fd, s.socket fd ≠ some sock) →
    (Solo.initial.after (s.history sock)).isOpen = false
  observed : ∀ sock,
    (Solo.initial.after (s.history sock)).delivered = delivered (s.history sock) ∧
    (Solo.initial.after (s.history sock)).sent = sentBytes (s.history sock)
  unwatched : ∀ fd sock, s.socket fd = some sock → s.interest fd = none →
    observations (s.history sock) = []

namespace Mirrors

/-- Nothing that is compared has changed. -/
theorem of_eq
    (mirrors : s.Mirrors)
    (connections : s'.connections = s.connections)
    (memory : s'.memory = s.memory)
    (socket : s'.socket = s.socket)
    (interest : s'.interest = s.interest)
    (nextSock : s'.nextSock = s.nextSock)
    (history : ∀ sock, s'.history sock = s.history sock) :
    s'.Mirrors where
  registered fd conn sock := by
    rw [connections, socket, memory, history]
    exact mirrors.registered fd conn sock
  released sock := by
    rw [nextSock, socket, history]
    exact mirrors.released sock
  observed sock := by
    rw [history]
    exact mirrors.observed sock
  unwatched fd sock := by
    rw [socket, interest, history]
    exact mirrors.unwatched fd sock

theorem entered
    (mirrors : s.Mirrors)
    (fd : Fd) (conn : Ptr) :
    (s.entered fd conn).Mirrors := by
  refine mirrors.of_eq advance_connections advance_memory advance_socket
    advance_interest (entered_nextSock s fd conn) fun sock => ?_
  rw [history_of_log (entered_log s fd conn), about_cons_of_none rfl, about_nil,
    List.append_nil]

/-- A call on one connection: the others stay where they are. -/
theorem of_frame
    (mirrors : s.Mirrors)
    (tables : s.Tables)
    (registered : s.Registered fd conn sock)
    (frame : Frame s s' fd conn sock)
    (entry : ∀ conn' sock', s'.connections fd = some conn' →
      s'.socket fd = some sock' → conn' = conn ∧ sock' = sock ∧
      Solo.initial.after (s'.history sock) =
        { isOpen := true
          inbuffer := (s'.memory conn).inbuffer
          outbuffer := (s'.memory conn).outbuffer
          delivered := delivered (s'.history sock)
          sent := sentBytes (s'.history sock) })
    (released : s'.socket fd ≠ some sock →
      (Solo.initial.after (s'.history sock)).isOpen = false)
    (observed :
      (Solo.initial.after (s'.history sock)).delivered = delivered (s'.history sock) ∧
      (Solo.initial.after (s'.history sock)).sent = sentBytes (s'.history sock))
    (watched : ∀ sock', s'.socket fd = some sock' → s'.interest fd ≠ none) :
    s'.Mirrors := by
  refine ⟨?_, ?_, ?_, ?_⟩
  · intro other conn' sock' present isOpen
    by_cases same : other = fd
    · subst same
      obtain ⟨rfl, rfl, mirrored⟩ := entry conn' sock' present isOpen
      exact mirrored
    · rw [frame.connections other same] at present
      rw [frame.socket other same] at isOpen
      rw [frame.memory conn' (tables.conn_ne registered same present),
        frame.history sock' (tables.sock_ne registered same isOpen)]
      exact mirrors.registered other conn' sock' present isOpen
  · intro other bound closed
    by_cases same : other = sock
    · subst same
      exact released (closed fd)
    · rw [frame.history other same]
      apply mirrors.released other (by rwa [frame.nextSock] at bound)
      intro fd' isOpen
      by_cases here : fd' = fd
      · rw [here, registered.opened, Option.some.injEq] at isOpen
        exact same isOpen.symm
      · rw [← frame.socket fd' here] at isOpen
        exact closed fd' isOpen
  · intro other
    by_cases same : other = sock
    · subst same
      exact observed
    · rw [frame.history other same]
      exact mirrors.observed other
  · intro other sock' isOpen notWatched
    by_cases same : other = fd
    · subst same
      exact absurd notWatched (watched sock' isOpen)
    · rw [frame.socket other same] at isOpen
      rw [frame.interest other same] at notWatched
      rw [frame.history sock' (tables.sock_ne registered same isOpen)]
      exact mirrors.unwatched other sock' isOpen notWatched

/-- The same for a connection that stays registered. -/
theorem of_frame_registered
    (mirrors : s.Mirrors)
    (tables : s.Tables)
    (registered : s.Registered fd conn sock)
    (frame : Frame s s' fd conn sock)
    (same : SameTables s s')
    (mirrored : Solo.initial.after (s'.history sock) =
      { isOpen := true
        inbuffer := (s'.memory conn).inbuffer
        outbuffer := (s'.memory conn).outbuffer
        delivered := delivered (s'.history sock)
        sent := sentBytes (s'.history sock) }) :
    s'.Mirrors := by
  have opened : s'.socket fd = some sock := by
    rw [same.socket, registered.opened]
  apply mirrors.of_frame tables registered frame
  · intro conn' sock' present isOpen
    rw [same.connections, registered.entry, Option.some.injEq] at present
    rw [opened, Option.some.injEq] at isOpen
    exact ⟨present.symm, isOpen.symm, mirrored⟩
  · intro closed
    exact absurd opened closed
  · rw [mirrored]
    exact ⟨rfl, rfl⟩
  · intro sock' _ notWatched
    have watched := same.watched fd
    rw [registered.watched, notWatched] at watched
    exact absurd watched (by simp)

theorem afterRead
    (mirrors : s.Mirrors)
    (tables : s.Tables)
    (registered : s.Registered fd conn sock)
    {rounds : List RecvResult}
    {last : RecvResult}
    (continued : ∀ result ∈ rounds, result.Continues)
    (drained : last.Drained) :
    (s.afterRead fd conn sock (rounds ++ [last])).Mirrors := by
  apply mirrors.of_frame_registered tables registered (Frame.afterRead _)
    (SameTables.afterRead registered _)
  rw [history_afterRead, afterRead_memory, Solo.after_append, Solo.after_append,
    mirrors.registered fd conn sock registered.entry registered.opened,
    Solo.after_drained _ _ continued drained,
    Solo.after_of_observations_nil (observations_messages _ _)]
  rw [delivered_append, delivered_append, delivered_recvs, delivered_messages,
    sentBytes_append, sentBytes_append, sentBytes_recvs, sentBytes_messages,
    List.nil_append, List.append_nil, List.append_nil]
  rfl

theorem afterWrite
    (mirrors : s.Mirrors)
    (tables : s.Tables)
    (registered : s.Registered fd conn sock)
    {outbuffer : Bytes}
    {events : List Event}
    (soft : ∀ event ∈ events, SoftSend (s.calls + 1) sock event)
    (conserved : sentBytes events ++ outbuffer = (s.memory conn).outbuffer) :
    (s.afterWrite fd conn outbuffer events).Mirrors := by
  apply mirrors.of_frame_registered tables registered
    (Frame.afterWrite outbuffer soft) (SameTables.afterWrite registered outbuffer events)
  rw [history_afterWrite outbuffer soft, afterWrite_memory, Solo.after_append,
    mirrors.registered fd conn sock registered.entry registered.opened,
    Solo.after_soft soft conserved, delivered_append, delivered_soft soft,
    sentBytes_append, List.append_nil]

theorem afterClose
    (mirrors : s.Mirrors)
    (tables : s.Tables)
    (registered : s.Registered fd conn sock)
    {rounds : List RecvResult}
    {last : RecvResult}
    (continued : ∀ result ∈ rounds, result.Continues)
    (closes : last.Closes) :
    (s.afterClose fd conn sock (rounds ++ [last])).Mirrors := by
  have gone : (s.afterClose fd conn sock (rounds ++ [last])).socket fd = none := by
    simp [System.afterClose, System.afterRelease, System.record]
  have before := mirrors.registered fd conn sock registered.entry registered.opened
  have mirrored := Solo.after_append Solo.initial (s.history sock)
    ((rounds ++ [last]).map (Event.recv (s.calls + 1) (some sock)) ++
      [.closed (some sock)])
  rw [Solo.after_append _ _ [.closed (some sock)],
    Solo.after_of_observations_nil (observations_closed sock),
    Solo.after_closes _ _ continued closes] at mirrored
  apply mirrors.of_frame tables registered (Frame.afterClose _)
  · intro conn' sock' _ isOpen
    rw [gone] at isOpen
    exact absurd isOpen (by simp)
  · intro _
    rw [history_afterClose, mirrored]
  · rw [history_afterClose, mirrored, before]
    simp [delivered, sentBytes]
  · intro sock' isOpen
    rw [gone] at isOpen
    exact absurd isOpen (by simp)

/-- An arrival starts where a connection by itself starts. -/
theorem afterArrive
    (mirrors : s.Mirrors)
    (tables : s.Tables)
    (serving : s.Serving)
    (closed : s.socket fd = none)
    (added : Bool) :
    (s.afterArrive fd added).Mirrors := by
  have fresh : s.history s.nextSock = [] := serving.unused _ (Nat.le_refl _)
  refine ⟨?_, ?_, ?_, ?_⟩
  · intro other conn' sock' present isOpen
    rw [history_afterArrive]
    by_cases same : other = fd
    · subst same
      rw [afterArrive_connections_self, Option.some.injEq] at present
      rw [afterArrive_socket_self, Option.some.injEq] at isOpen
      rw [← present, ← isOpen, afterArrive_memory_self, fresh]
      rfl
    · rw [afterArrive_connections_of_ne same] at present
      rw [afterArrive_socket_of_ne same] at isOpen
      rw [afterArrive_memory_of_ne (tables.ne_nextPtr present)]
      exact mirrors.registered other conn' sock' present isOpen
  · intro sock' bound notOpen
    rw [history_afterArrive]
    rcases Nat.lt_succ_iff_lt_or_eq.mp bound with old | rfl
    · apply mirrors.released sock' old
      intro other isOpen
      have different : other ≠ fd := by
        rintro rfl
        rw [closed] at isOpen
        exact absurd isOpen (by simp)
      exact notOpen other ((afterArrive_socket_of_ne different).trans isOpen)
    · exact absurd afterArrive_socket_self (notOpen fd)
  · intro sock'
    rw [history_afterArrive]
    exact mirrors.observed sock'
  · intro other sock' isOpen notWatched
    rw [history_afterArrive]
    by_cases same : other = fd
    · subst same
      rw [afterArrive_socket_self, Option.some.injEq] at isOpen
      rw [← isOpen, fresh]
      rfl
    · rw [afterArrive_socket_of_ne same] at isOpen
      rw [afterArrive_interest_of_ne same] at notWatched
      exact mirrors.unwatched other sock' isOpen notWatched

theorem arrivals
    (mirrors : s.Mirrors)
    (tables : s.Tables)
    (serving : s.Serving)
    (arrivals : Arrivals conn s s') :
    s'.Mirrors := by
  induction arrivals with
  | done s => exact mirrors
  | failed errno later inductionHypothesis =>
      refine inductionHypothesis ?_ (tables.of_same (SameTables.record _ _)) ?_
      · exact mirrors.of_eq rfl rfl rfl rfl rfl fun _ => history_failedAccept _ errno
      · exact serving.of_eq rfl rfl rfl rfl rfl fun _ => history_failedAccept _ errno
  | arrived fd added closed later inductionHypothesis =>
      exact inductionHypothesis (mirrors.afterArrive tables serving closed added)
        (tables.afterArrive closed added) (serving.afterArrive tables added)

end Mirrors

theorem create_mirrors (listensock : Fd) (added : Bool) :
    (create listensock added).Mirrors := by
  have empty := create_buffers listensock added
  refine ⟨?_, ?_, ?_, ?_⟩
  · intro fd conn sock _ _
    rw [history_create, (empty conn).1, (empty conn).2]
    rfl
  · intro sock bound notOpen
    have listening : sock = 0 := by
      simpa [create_eq] using bound
    subst listening
    exact absurd (by simp [create_eq]) (notOpen listensock)
  · intro sock
    rw [history_create]
    exact ⟨rfl, rfl⟩
  · intro fd sock _ _
    rw [history_create]
    rfl

theorem Move.mirrors
    (moved : s.Move (.running s'))
    (tables : s.Tables)
    (serving : s.Serving)
    (mirrors : s.Mirrors) :
    s'.Mirrors := by
  cases moved with
  | wait batch idle possible =>
      exact mirrors.of_eq rfl rfl rfl rfl rfl fun _ => rfl
  | skip busy =>
      refine mirrors.of_eq advance_connections advance_memory advance_socket
        advance_interest (SameTables.advance s).nextSock fun sock => ?_
      rw [history, advance_log]
      rfl
  | accept called arrivals =>
      exact (mirrors.entered _ _).arrivals
        (tables.of_same (SameTables.entered s _ _)) (serving.entered _ _) arrivals
  | read called registered continued drained survived =>
      exact mirrors.afterRead tables registered continued drained
  | close called registered continued closes =>
      exact mirrors.afterClose tables registered continued closes
  | write called registered soft conserved =>
      exact mirrors.afterWrite tables registered soft conserved

end System

namespace Process

/-- In every state that a running server reaches, every connection is where it
would be by itself. -/
theorem mirrors : machine.Invariant
    fun process => ∀ s, process = .running s → s.Mirrors := by
  apply invariant_of_moves
  · rintro listensock added s equal
    obtain rfl := Process.running.inj equal
    exact System.create_mirrors listensock added
  · rintro s _ reached tables pending holds moved s' rfl
    exact moved.mirrors tables (serving _ reached s rfl) (holds s rfl)

/-- Two connections, of the same or of different runs, that saw the same results
of their own calls. -/
structure Alike (s s' : System) (sock sock' : SockId) : Prop where
  accepted : sock < s.nextSock
  accepted' : sock' < s'.nextSock
  sameResults : observations (s.history sock) = observations (s'.history sock')

theorem Alike.after_eq
    {s s' : System}
    {sock sock' : SockId}
    (alike : Alike s s' sock sock') :
    Solo.initial.after (s.history sock) = Solo.initial.after (s'.history sock') := by
  rw [Solo.after, Solo.after, alike.sameResults]

/-- Open connections are open in the connection by itself, closed ones closed. -/
theorem isOpen_iff
    {s : System}
    (reached : machine.Reachable (.running s))
    {sock : SockId}
    (accepted : sock < s.nextSock) :
    (Solo.initial.after (s.history sock)).isOpen = true ↔
      ∃ fd, s.socket fd = some sock := by
  have mirrored := mirrors _ reached s rfl
  constructor
  · intro isOpen
    by_contra closed
    rw [not_exists] at closed
    rw [mirrored.released sock accepted closed] at isOpen
    exact absurd isOpen (by simp)
  · rintro ⟨fd, opened⟩
    have tables : s.Tables := (orderly _ reached).1
    have registered : (s.connections fd).isSome = true := by
      rw [← tables.opened fd, opened]
      rfl
    obtain ⟨conn, entry⟩ := Option.isSome_iff_exists.mp registered
    rw [mirrored.registered fd conn sock entry opened]

/-- What a connection delivers and sends, whether it is still there, and its buffers
and armed events depend on nothing but the results of its own calls. (A connection
that epoll refused to add has no armed events, and then no calls.) -/
theorem connections_isolated
    {s s' : System}
    (reached : machine.Reachable (.running s))
    (reached' : machine.Reachable (.running s'))
    {sock sock' : SockId}
    (alike : Alike s s' sock sock') :
    delivered (s.history sock) = delivered (s'.history sock') ∧
    sentBytes (s.history sock) = sentBytes (s'.history sock') ∧
    ((∃ fd, s.socket fd = some sock) ↔ ∃ fd', s'.socket fd' = some sock') ∧
    ∀ fd conn fd' conn',
      s.connections fd = some conn → s.socket fd = some sock →
      s'.connections fd' = some conn' → s'.socket fd' = some sock' →
      (s.memory conn).inbuffer = (s'.memory conn').inbuffer ∧
      (s.memory conn).outbuffer = (s'.memory conn').outbuffer ∧
      (∀ events events', s.interest fd = some events →
        s'.interest fd' = some events' → events = events') ∧
      (observations (s.history sock) ≠ [] →
        s.interest fd = s'.interest fd') := by
  have mirrored := mirrors _ reached s rfl
  have mirrored' := mirrors _ reached' s' rfl
  refine ⟨?_, ?_, ?_, ?_⟩
  · rw [← (mirrored.observed sock).1, ← (mirrored'.observed sock').1, alike.after_eq]
  · rw [← (mirrored.observed sock).2, ← (mirrored'.observed sock').2, alike.after_eq]
  · rw [← isOpen_iff reached alike.accepted, ← isOpen_iff reached' alike.accepted',
      alike.after_eq]
  · intro fd conn fd' conn' entry opened entry' opened'
    have equal := alike.after_eq
    rw [mirrored.registered fd conn sock entry opened,
      mirrored'.registered fd' conn' sock' entry' opened', Solo.mk.injEq] at equal
    obtain ⟨_, inbuffer, outbuffer, _⟩ := equal
    have armed (events events' : UInt32) (watched : s.interest fd = some events)
        (watched' : s'.interest fd' = some events') : events = events' := by
      rw [(serving _ reached s rfl).armed fd conn events entry watched,
        (serving _ reached' s' rfl).armed fd' conn' events' entry' watched', outbuffer]
    refine ⟨inbuffer, outbuffer, armed, fun observed => ?_⟩
    have isWatched : s.interest fd ≠ none := fun notWatched =>
      observed (mirrored.unwatched fd sock opened notWatched)
    have isWatched' : s'.interest fd' ≠ none := fun notWatched =>
      observed (alike.sameResults.trans
        (mirrored'.unwatched fd' sock' opened' notWatched))
    obtain ⟨events, watched⟩ := Option.ne_none_iff_exists'.mp isWatched
    obtain ⟨events', watched'⟩ := Option.ne_none_iff_exists'.mp isWatched'
    rw [watched, watched', armed events events' watched watched']

/-- The same client on descriptor 5, accepted behind another one that quits in
between. -/
def answersBeside : List System.Label :=
  [.wait [⟨3, epollin⟩],
    .next ⟨[.sock 7 true, .sock 5 true, .fail eagain], [], []⟩,
    .next ⟨[], [], []⟩,
    .wait [⟨7, epollin⟩, ⟨5, epollin ||| epollout⟩],
    .next ⟨[], [.eof], []⟩,
    .next ⟨[], [], []⟩,
    .next ⟨[], [.data onePlusTwo, .fail eagain], []⟩,
    .next ⟨[], [], [.sent 2, .fail eagain]⟩]

theorem connections_isolated_answersBeside :
    ∃ s s', run answersInPart (.running (System.create 3 true)) =
        some (.running s) ∧
      run answersBeside (.running (System.create 3 true)) = some (.running s') ∧
      s.connections 7 = none ∧ s.interest 5 = s'.interest 5 ∧
      (s.memory 1).outbuffer = (s'.memory 2).outbuffer := by
  have ended : (run answersInPart (.running (System.create 3 true))).map
      (fun process => (process.reason, process.state.connections 5,
        process.state.socket 5, process.state.connections 7,
        decide (1 < process.state.nextSock ∧
          observations (process.state.history 1) =
            [.recv (.data onePlusTwo), .recv (.fail eagain), .sent 2,
              .sendFailed eagain]))) =
        some (none, some 1, some 1, none, true) := by
    decide +kernel
  have ended' : (run answersBeside (.running (System.create 3 true))).map
      (fun process => (process.reason, process.state.connections 5,
        process.state.socket 5,
        decide (2 < process.state.nextSock ∧
          observations (process.state.history 2) =
            [.recv (.data onePlusTwo), .recv (.fail eagain), .sent 2,
              .sendFailed eagain]))) =
        some (none, some 2, some 2, true) := by
    decide +kernel
  obtain ⟨process, ran, outcome⟩ := Option.map_eq_some_iff.mp ended
  obtain ⟨process', ran', outcome'⟩ := Option.map_eq_some_iff.mp ended'
  simp only [Prod.mk.injEq, decide_eq_true_eq] at outcome outcome'
  obtain ⟨alive, entry, opened, noOther, accepted, results⟩ := outcome
  obtain ⟨alive', entry', opened', accepted', results'⟩ := outcome'
  rw [eq_running_of_reason alive] at ran
  rw [eq_running_of_reason alive'] at ran'
  have isolated := connections_isolated
    (reachable_of_run (reachable_create 3 true) ran)
    (reachable_of_run (reachable_create 3 true) ran')
    ⟨accepted, accepted', results.trans results'.symm⟩
  obtain ⟨_, outbuffer, _, armed⟩ :=
    isolated.2.2.2 5 1 5 2 entry opened entry' opened'
  refine ⟨process.state, process'.state, ran, ran', noOther, armed ?_, outbuffer⟩
  rw [results]
  exact List.cons_ne_nil _ _

end Process

end Reactor
end LearnInLinux
