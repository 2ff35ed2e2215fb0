import LearnInLinux.Reactor.Effects

/-!
# The tables of the server

`Tables` ties the map of connections, the memory of their objects, the open
descriptors and the epoll interest set together. It holds after the constructor
and is kept by every handler, also when additions to epoll fail; such a failure
only leaves a connection that epoll does not watch.
-/

namespace LearnInLinux
namespace Reactor

/-- The part of a connection that never changes. -/
def Connection.fixed (c : Connection) :
    Fd × Option Callback × Option Callback × Option Callback :=
  (c.sock, c.recvCb, c.sendCb, c.exceptCb)

namespace System

/-- The map of the server and the connections that live belong together. -/
structure Tables (s : System) : Prop where
  entry : ∀ fd conn, s.connections fd = some conn →
    s.alive conn = true ∧ (s.memory conn).sock = fd
  owned : ∀ conn, s.alive conn = true →
    s.connections (s.memory conn).sock = some conn ∧ conn < s.nextPtr
  opened : ∀ fd, (s.socket fd).isSome = (s.connections fd).isSome
  watched : ∀ fd, (s.interest fd).isSome = true →
    (s.connections fd).isSome = true
  socket_lt : ∀ fd sock, s.socket fd = some sock → sock < s.nextSock
  socket_inj : ∀ fd fd' sock, s.socket fd = some sock →
    s.socket fd' = some sock → fd = fd'
  listening : (s.connections s.listensock).isSome = true
  listener : ∀ conn, s.connections s.listensock = some conn →
    (s.memory conn).fixed = (s.listensock, some .accepter, none, none)
  client : ∀ fd conn, s.connections fd = some conn → fd ≠ s.listensock →
    (s.memory conn).fixed = (fd, some .recver, some .sender, some .excepter)

/-- A change of buffers, of armed events, of the batch or of the history. -/
structure SameTables (s s' : System) : Prop where
  listensock : s'.listensock = s.listensock
  connections : s'.connections = s.connections
  alive : s'.alive = s.alive
  nextPtr : s'.nextPtr = s.nextPtr
  socket : s'.socket = s.socket
  nextSock : s'.nextSock = s.nextSock
  fixed : ∀ conn, (s'.memory conn).fixed = (s.memory conn).fixed
  watched : ∀ fd, (s'.interest fd).isSome = (s.interest fd).isSome

namespace SameTables

variable {s s' s'' : System} {fd : Fd} {conn : Ptr} {sock : SockId}

/-- Two changes that leave the tables alone. -/
theorem trans (first : SameTables s s') (second : SameTables s' s'') :
    SameTables s s'' where
  listensock := second.listensock.trans first.listensock
  connections := second.connections.trans first.connections
  alive := second.alive.trans first.alive
  nextPtr := second.nextPtr.trans first.nextPtr
  socket := second.socket.trans first.socket
  nextSock := second.nextSock.trans first.nextSock
  fixed conn := (second.fixed conn).trans (first.fixed conn)
  watched fd := (second.watched fd).trans (first.watched fd)

/-- A note leaves the tables alone. -/
theorem record (s : System) (event : Event) : SameTables s (s.record event) :=
  ⟨rfl, rfl, rfl, rfl, rfl, rfl, fun _ => rfl, fun _ => rfl⟩

/-- So does the call of a handler. -/
theorem afterEnter (s : System) (fd : Fd) (conn : Ptr) :
    SameTables s (s.afterEnter fd conn) :=
  ⟨rfl, rfl, rfl, rfl, rfl, rfl, fun _ => rfl, fun _ => rfl⟩

/-- Writing buffers of one object. -/
private theorem of_buffers
    {c : Connection}
    (sameFixed : c.fixed = (s.memory conn).fixed)
    (memory : s'.memory = Function.update s.memory conn c)
    (conn' : Ptr) :
    (s'.memory conn').fixed = (s.memory conn').fixed := by
  rw [memory, Function.update_apply]
  split
  · rename_i equal
    rw [sameFixed, equal]
  · rfl

/-- So does a reading loop. -/
theorem afterRecv (s : System) (conn : Ptr) (sock : SockId)
    (results : List RecvResult) :
    SameTables s (s.afterRecv conn sock results) :=
  ⟨rfl, rfl, rfl, rfl, rfl, rfl, of_buffers (by rfl) rfl, fun _ => rfl⟩

/-- So does cutting the input buffer. -/
theorem afterSplit (s : System) (conn : Ptr) :
    SameTables s (s.afterSplit conn) :=
  ⟨rfl, rfl, rfl, rfl, rfl, rfl, of_buffers (by rfl) rfl, fun _ => rfl⟩

/-- So does a sending loop. -/
theorem afterSend (s : System) (conn : Ptr) (outbuffer : Bytes)
    (events : List Event) :
    SameTables s (s.afterSend conn outbuffer events) :=
  ⟨rfl, rfl, rfl, rfl, rfl, rfl, of_buffers (by rfl) rfl, fun _ => rfl⟩

/-- Arming other events on a watched descriptor. -/
private theorem of_interest
    {armed : Option UInt32}
    (watched : (s.interest fd).isSome = true)
    (some_armed : armed.isSome = true)
    (fd' : Fd) :
    (Function.update s.interest fd armed fd').isSome =
      (s.interest fd').isSome := by
  rw [Function.update_apply]
  split
  · rename_i equal
    rw [some_armed, equal, watched]
  · rfl

/-- So does arming what is registered. -/
theorem afterArm
    (registered : s.Registered fd conn sock)
    (events : UInt32) :
    SameTables s (s.afterArm fd conn events) :=
  ⟨rfl, rfl, rfl, rfl, rfl, rfl, fun _ => rfl,
    of_interest registered.watched rfl⟩

/-- So do the callbacks. -/
theorem afterAnswers
    (registered : s.Registered fd conn sock)
    (messages : List Bytes) :
    SameTables s (s.afterAnswers fd conn sock messages) := by
  refine ⟨rfl, rfl, rfl, rfl, rfl, rfl, of_buffers (by rfl) rfl,
    of_interest registered.watched ?_⟩
  split
  · rfl
  · exact registered.watched

end SameTables

namespace Tables

variable {s s' : System} {fd : Fd} {conn : Ptr} {sock : SockId}

/-- The tables are in order whatever happens outside of them. -/
theorem of_same (tables : s.Tables) (same : SameTables s s') : s'.Tables where
  entry fd conn registered := by
    rw [same.connections] at registered
    have old := tables.entry fd conn registered
    have sock_eq := congrArg Prod.fst (same.fixed conn)
    refine ⟨?_, sock_eq.trans old.2⟩
    rw [same.alive]
    exact old.1
  owned conn live := by
    rw [same.alive] at live
    have sock_eq : (s'.memory conn).sock = (s.memory conn).sock :=
      congrArg Prod.fst (same.fixed conn)
    rw [same.connections, sock_eq, same.nextPtr]
    exact tables.owned conn live
  opened fd := by
    rw [same.socket, same.connections]
    exact tables.opened fd
  watched fd := by
    rw [same.watched, same.connections]
    exact tables.watched fd
  socket_lt fd sock := by
    rw [same.socket, same.nextSock]
    exact tables.socket_lt fd sock
  socket_inj fd fd' sock := by
    rw [same.socket]
    exact tables.socket_inj fd fd' sock
  listening := by
    rw [same.connections, same.listensock]
    exact tables.listening
  listener conn := by
    rw [same.connections, same.listensock, same.fixed]
    exact tables.listener conn
  client fd conn := by
    rw [same.connections, same.listensock, same.fixed]
    exact tables.client fd conn

/-- A watched connection other than the listening one is in working order. -/
theorem registered
    (tables : s.Tables)
    (entry : s.connections fd = some conn)
    (notListening : fd ≠ s.listensock)
    (watched : (s.interest fd).isSome = true) :
    ∃ sock, s.Registered fd conn sock := by
  have isOpen : (s.socket fd).isSome = true := by
    rw [tables.opened fd, entry]
    rfl
  obtain ⟨sock, opened⟩ := Option.isSome_iff_exists.mp isOpen
  have fixed := tables.client fd conn entry notListening
  simp only [Connection.fixed, Prod.mk.injEq] at fixed
  exact ⟨sock, entry, fixed.1, (tables.entry fd conn entry).1, opened, watched,
    fixed.2.2.2⟩

/-- Different descriptors have different objects. -/
theorem conn_ne
    (tables : s.Tables)
    (registered : s.Registered fd conn sock)
    {other : Fd}
    {conn' : Ptr}
    (different : other ≠ fd)
    (present : s.connections other = some conn') :
    conn' ≠ conn := by
  rintro rfl
  exact different ((tables.entry other conn' present).2.symm.trans registered.sock_eq)

/-- Different descriptors have different sockets. -/
theorem sock_ne
    (tables : s.Tables)
    (registered : s.Registered fd conn sock)
    {other : Fd}
    {sock' : SockId}
    (different : other ≠ fd)
    (isOpen : s.socket other = some sock') :
    sock' ≠ sock := by
  rintro rfl
  exact different (tables.socket_inj other fd sock' isOpen registered.opened)

/-- A registered connection is a client. -/
theorem ne_listensock
    (tables : s.Tables)
    (registered : s.Registered fd conn sock) :
    fd ≠ s.listensock := by
  rintro rfl
  have fixed := tables.listener conn registered.entry
  simp only [Connection.fixed, Prod.mk.injEq] at fixed
  have exceptCb := registered.exceptCb
  rw [fixed.2.2.2] at exceptCb
  exact absurd exceptCb (by simp)

/-! ## Releasing a connection -/

/-- A release takes the connection out of all tables. -/
theorem afterRelease
    (tables : s.Tables)
    (registered : s.Registered fd conn sock) :
    (s.afterRelease fd conn sock).Tables := by
  have notListening := tables.ne_listensock registered
  refine ⟨?_, ?_, ?_, ?_, ?_, ?_, ?_, ?_, ?_⟩
  · intro other entry present
    have different : other ≠ fd := by
      rintro rfl
      simp [System.afterRelease] at present
    have present' : s.connections other = some entry := by
      simpa [System.afterRelease, different] using present
    obtain ⟨live, sock_eq⟩ := tables.entry other entry present'
    have otherConn : entry ≠ conn := by
      rintro rfl
      exact different (sock_eq.symm.trans registered.sock_eq)
    exact ⟨by simpa [System.afterRelease, otherConn] using live, sock_eq⟩
  · intro entry live
    have otherConn : entry ≠ conn := by
      rintro rfl
      simp [System.afterRelease] at live
    have live' : s.alive entry = true := by
      simpa [System.afterRelease, otherConn] using live
    obtain ⟨present, bound⟩ := tables.owned entry live'
    have different : (s.memory entry).sock ≠ fd := by
      intro equal
      rw [equal, registered.entry] at present
      exact otherConn (Option.some.inj present).symm
    exact ⟨by simpa [System.afterRelease, different] using present, bound⟩
  · intro other
    have old := tables.opened other
    simp only [System.afterRelease, Function.update_apply]
    split
    · rfl
    · exact old
  · intro other
    have old := tables.watched other
    simp only [System.afterRelease, Function.update_apply]
    split
    · simp
    · exact old
  · intro other sock' isOpen
    simp only [System.afterRelease, Function.update_apply] at isOpen
    split at isOpen
    · simp at isOpen
    · exact tables.socket_lt other sock' isOpen
  · intro first second sock' firstOpen secondOpen
    simp only [System.afterRelease, Function.update_apply] at firstOpen secondOpen
    split at firstOpen
    · simp at firstOpen
    · split at secondOpen
      · simp at secondOpen
      · exact tables.socket_inj first second sock' firstOpen secondOpen
  · simpa [System.afterRelease, notListening.symm] using tables.listening
  · intro entry present
    exact tables.listener entry
      (by simpa [System.afterRelease, notListening.symm] using present)
  · intro other entry present
    have different : other ≠ fd := by
      rintro rfl
      simp [System.afterRelease] at present
    exact tables.client other entry
      (by simpa [System.afterRelease, different] using present)

end Tables

/-! ## Accepting a connection -/

/-- A descriptor arrives from `accept` and is registered. -/
def afterArrive (fd : Fd) (added : Bool) (s : System) : System :=
  { s with
    socket := Function.update s.socket fd (some s.nextSock)
    nextSock := s.nextSock + 1
    memory := Function.update s.memory s.nextPtr
      { sock := fd, recvCb := some .recver, sendCb := some .sender,
        exceptCb := some .excepter, inbuffer := [], outbuffer := [] }
    alive := Function.update s.alive s.nextPtr true
    nextPtr := s.nextPtr + 1
    interest := Function.update s.interest fd
      (if added then some readOnly else none)
    connections := Function.update s.connections fd (some s.nextPtr)
    log := s.log ++ [.accepted s.calls fd s.nextSock,
      .epollCtl .add s.nextPtr fd added] }

/-- What the loop of `Accepter` does: failed calls and arrivals. -/
inductive Arrivals (conn : Ptr) : System → System → Prop
  | done (s : System) : Arrivals conn s s
  | failed {s s' : System} (errno : Errno)
      (later : Arrivals conn
        (s.record (.acceptFailed s.calls (s.memory conn).sock errno)) s') :
      Arrivals conn s s'
  | arrived {s s' : System} (fd : Fd) (added : Bool)
      (closed : s.socket fd = none)
      (later : Arrivals conn (s.afterArrive fd added) s') :
      Arrivals conn s s'

/-! What an arrival changes is found under its descriptor and at a fresh object. -/

section Arriving

variable {s : System} {fd other : Fd} {conn : Ptr} {added : Bool}

theorem afterArrive_connections_self :
    (s.afterArrive fd added).connections fd = some s.nextPtr :=
  Function.update_self ..

theorem afterArrive_connections_of_ne (different : other ≠ fd) :
    (s.afterArrive fd added).connections other = s.connections other :=
  Function.update_of_ne different ..

theorem afterArrive_socket_self :
    (s.afterArrive fd added).socket fd = some s.nextSock :=
  Function.update_self ..

theorem afterArrive_socket_of_ne (different : other ≠ fd) :
    (s.afterArrive fd added).socket other = s.socket other :=
  Function.update_of_ne different ..

theorem afterArrive_interest_self :
    (s.afterArrive fd added).interest fd = if added then some readOnly else none :=
  Function.update_self ..

theorem afterArrive_interest_of_ne (different : other ≠ fd) :
    (s.afterArrive fd added).interest other = s.interest other :=
  Function.update_of_ne different ..

theorem afterArrive_memory_self :
    (s.afterArrive fd added).memory s.nextPtr =
      { sock := fd, recvCb := some .recver, sendCb := some .sender,
        exceptCb := some .excepter, inbuffer := [], outbuffer := [] } :=
  Function.update_self ..

theorem afterArrive_memory_of_ne (different : conn ≠ s.nextPtr) :
    (s.afterArrive fd added).memory conn = s.memory conn :=
  Function.update_of_ne different ..

/-- The new connection is the only one behind the new descriptor. -/
theorem afterArrive_socket_cases
    {sock : SockId}
    (isOpen : (s.afterArrive fd added).socket other = some sock) :
    (other = fd ∧ sock = s.nextSock) ∨ s.socket other = some sock := by
  rcases Transition.update_some_eq_some_iff.mp isOpen with ⟨same, new⟩ | ⟨-, before⟩
  · exact .inl ⟨same, new.symm⟩
  · exact .inr before

end Arriving

namespace Tables

variable {s s' : System} {fd : Fd} {conn : Ptr} {sock : SockId}

/-- What is registered is not the next object. -/
theorem ne_nextPtr
    (tables : s.Tables)
    (present : s.connections fd = some conn) :
    conn ≠ s.nextPtr :=
  Nat.ne_of_lt (tables.owned conn (tables.entry fd conn present).1).2

/-- A closed descriptor is neither registered nor watched. -/
theorem of_closed
    (tables : s.Tables)
    (closed : s.socket fd = none) :
    s.connections fd = none ∧ s.interest fd = none := by
  have unregistered : s.connections fd = none := by
    have same := tables.opened fd
    rw [closed] at same
    simpa using same.symm
  refine ⟨unregistered, ?_⟩
  by_contra present
  have watched := tables.watched fd (Option.isSome_iff_ne_none.mpr present)
  rw [unregistered] at watched
  simp at watched

/-- `AddConnection` for a socket that was accepted just now. -/
theorem openSocket_addConnection
    (tables : s.Tables)
    (closed : s.socket fd = none)
    (added : Bool) :
    (s.openSocket fd).addConnection fd (some .recver) (some .sender)
        (some .excepter) added = s.afterArrive fd added := by
  obtain ⟨unregistered, unwatched⟩ := tables.of_closed closed
  cases added with
  | true =>
      simp [openSocket, addConnection, newConnection, addSockToEpoll, record,
        insertConnection, unregistered, unwatched, System.afterArrive, readOnly]
  | false =>
      have unchanged : Function.update s.interest fd none = s.interest := by
        rw [← unwatched, Function.update_eq_self]
      simp [openSocket, addConnection, newConnection, addSockToEpoll, record,
        insertConnection, unregistered, System.afterArrive, unchanged]

/-- An arrival enters the connection into all tables. -/
theorem afterArrive
    (tables : s.Tables)
    (closed : s.socket fd = none)
    (added : Bool) :
    (s.afterArrive fd added).Tables := by
  obtain ⟨unregistered, unwatched⟩ := tables.of_closed closed
  have notListening : fd ≠ s.listensock := by
    rintro rfl
    have listening := tables.listening
    rw [unregistered] at listening
    simp at listening
  have old_ne_new {entry : Ptr} (live : s.alive entry = true) :
      entry ≠ s.nextPtr :=
    Nat.ne_of_lt (tables.owned entry live).2
  refine ⟨?_, ?_, ?_, ?_, ?_, ?_, ?_, ?_, ?_⟩
  · intro other entry present
    simp only [System.afterArrive, Function.update_apply] at present
    split at present
    · rename_i equal
      rw [Option.some.injEq] at present
      subst present
      simp [System.afterArrive, equal]
    · obtain ⟨live, sock_eq⟩ := tables.entry other entry present
      simpa [System.afterArrive, old_ne_new live] using ⟨live, sock_eq⟩
  · intro entry live
    by_cases fresh : entry = s.nextPtr
    · subst fresh
      simp [System.afterArrive]
    · have live' : s.alive entry = true := by
        simpa [System.afterArrive, fresh] using live
      obtain ⟨present, bound⟩ := tables.owned entry live'
      have different : (s.memory entry).sock ≠ fd := by
        intro equal
        rw [equal, unregistered] at present
        simp at present
      refine ⟨by simpa [System.afterArrive, fresh, different] using present, ?_⟩
      exact Nat.lt_succ_of_lt bound
  · intro other
    have old := tables.opened other
    simp only [System.afterArrive, Function.update_apply]
    split
    · rfl
    · exact old
  · intro other
    have old := tables.watched other
    simp only [System.afterArrive, Function.update_apply]
    split
    · simp
    · exact old
  · intro other sock' isOpen
    rcases afterArrive_socket_cases isOpen with ⟨-, rfl⟩ | wasOpen
    · exact Nat.lt_succ_self s.nextSock
    · exact Nat.lt_succ_of_lt (tables.socket_lt other sock' wasOpen)
  · intro first second sock' firstOpen secondOpen
    have old_lt {other : Fd} (wasOpen : s.socket other = some s.nextSock) : False :=
      Nat.lt_irrefl s.nextSock (tables.socket_lt other s.nextSock wasOpen)
    rcases afterArrive_socket_cases firstOpen with ⟨rfl, rfl⟩ | firstOld
    · rcases afterArrive_socket_cases secondOpen with ⟨rfl, -⟩ | secondOld
      · rfl
      · exact (old_lt secondOld).elim
    · rcases afterArrive_socket_cases secondOpen with ⟨rfl, rfl⟩ | secondOld
      · exact (old_lt firstOld).elim
      · exact tables.socket_inj first second sock' firstOld secondOld
  · simpa [System.afterArrive, notListening.symm] using tables.listening
  · intro entry present
    have present' : s.connections s.listensock = some entry := by
      rw [← present]
      exact (afterArrive_connections_of_ne notListening.symm).symm
    rw [afterArrive_memory_of_ne (tables.ne_nextPtr present')]
    exact tables.listener entry present'
  · intro other entry present notListen
    by_cases equal : other = fd
    · subst equal
      rw [afterArrive_connections_self, Option.some.injEq] at present
      rw [← present, afterArrive_memory_self]
      rfl
    · rw [afterArrive_connections_of_ne equal] at present
      rw [afterArrive_memory_of_ne (tables.ne_nextPtr present)]
      exact tables.client other entry present notListen

/-- So do all arrivals of one call of `Accepter`. -/
theorem arrivals
    (tables : s.Tables)
    (arrivals : Arrivals conn s s') :
    s'.Tables := by
  induction arrivals with
  | done s => exact tables
  | failed errno later inductionHypothesis =>
      exact inductionHypothesis (tables.of_same (SameTables.record _ _))
  | arrived fd added closed later inductionHypothesis =>
      exact inductionHypothesis (tables.afterArrive closed added)

/-- `Accepter` either waits for more results or returns after arrivals. -/
theorem accepter
    (tables : s.Tables)
    (live : s.alive conn = true)
    (results : List AcceptResult) :
    s.accepter conn results = .error .blocked ∨
    ∃ s', Arrivals conn s s' ∧ s.accepter conn results = .ok s' := by
  induction results generalizing s with
  | nil => exact Or.inl rfl
  | cons result rest inductionHypothesis =>
      cases result with
      | fail errno =>
          have failed : s.accepter conn (.fail errno :: rest) =
              if errno = eagain ∨ errno = ewouldblock then
                .ok (s.record (.acceptFailed s.calls (s.memory conn).sock errno))
              else if errno = eintr then
                (s.record (.acceptFailed s.calls (s.memory conn).sock errno)).accepter
                  conn rest
              else
                .ok (s.record (.acceptFailed s.calls (s.memory conn).sock errno)) := by
            simp only [System.accepter, touch_of_alive live]
          rw [failed]
          split
          · exact Or.inr ⟨_, .failed errno (.done _), rfl⟩
          · split
            · rcases inductionHypothesis (tables.of_same (SameTables.record s _))
                live with blocked | ⟨s', later, returned⟩
              · exact Or.inl blocked
              · exact Or.inr ⟨s', .failed errno later, returned⟩
            · exact Or.inr ⟨_, .failed errno (.done _), rfl⟩
      | sock fd added =>
          cases isOpen : s.socket fd with
          | some sock =>
              left
              simp [System.accepter, isOpen]
          | none =>
              have arrived : s.accepter conn (.sock fd added :: rest) =
                  (s.afterArrive fd added).accepter conn rest := by
                rw [System.accepter, if_neg (by simp [isOpen])]
                simp only [touch_of_alive live,
                  tables.openSocket_addConnection isOpen]
              have live' : (s.afterArrive fd added).alive conn = true := by
                simp only [System.afterArrive, Function.update_apply]
                split
                · rfl
                · exact live
              rw [arrived]
              rcases inductionHypothesis (tables.afterArrive isOpen added) live'
                with blocked | ⟨s', later, returned⟩
              · exact Or.inl blocked
              · exact Or.inr ⟨s', .arrived fd added isOpen later, returned⟩

end Tables

/-! ## The constructor -/

/-- The state after the constructor, written out. -/
theorem create_eq (listensock : Fd) (added : Bool) :
    create listensock added =
      { listensock
        connections := Function.update (fun _ => none) listensock (some 0)
        revs := []
        phase := .reading
        memory := Function.update (fun _ => default) 0
          { sock := listensock, recvCb := some .accepter, sendCb := none,
            exceptCb := none, inbuffer := [], outbuffer := [] }
        alive := Function.update (fun _ => false) 0 true
        nextPtr := 1
        socket := Function.update (fun _ => none) listensock (some 0)
        nextSock := 1
        interest := Function.update (fun _ => none) listensock
          (if added then some readOnly else none)
        atWait := fun _ => none
        calls := 0
        log := [.epollCtl .add 0 listensock added] } := by
  cases added with
  | true =>
      simp [create, addConnection, newConnection, addSockToEpoll, record,
        insertConnection, readOnly]
  | false =>
      simp [create, addConnection, newConnection, addSockToEpoll, record,
        insertConnection]

/-- The constructor enters the listening socket. -/
theorem create_tables (listensock : Fd) (added : Bool) :
    (create listensock added).Tables := by
  rw [create_eq]
  refine ⟨?_, ?_, ?_, ?_, ?_, ?_, ?_, ?_, ?_⟩ <;>
    simp [Function.update_apply, Connection.fixed]
  -- only the listening socket can be watched
  intro fd watched
  by_contra other
  rw [if_neg other] at watched
  exact absurd watched (by simp)

end System

end Reactor
end LearnInLinux
