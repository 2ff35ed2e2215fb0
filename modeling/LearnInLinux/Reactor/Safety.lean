import LearnInLinux.Reactor.Dispatch

/-!
# The registry and the release of connections

The history is compared with the tables: what was closed or deleted is gone for
good, and every callback ran on the connection that its event was reported for.
The last section settles what happens to a connection after its release.
-/

namespace LearnInLinux
namespace Reactor

namespace Event

/-- Neither a release nor a callback on the wrong connection. -/
def Harmless : Event → Prop
  | .invoked _ conn atWait => atWait = some conn
  | .closed _ => False
  | .deleted _ => False
  | _ => True

/-- `epoll_ctl` refused to add a descriptor. -/
def refusesAdd : Event → Bool
  | .epollCtl .add _ _ false => true
  | _ => false

/-- Calls of `recv` are harmless. -/
theorem Harmless.recvs
    (call : Nat) (sock : SockId) (results : List RecvResult) :
    ∀ event ∈ results.map (Event.recv call (some sock)), event.Harmless := by
  intro event present
  obtain ⟨result, _, rfl⟩ := List.mem_map.mp present
  exact trivial

/-- So is serving messages. -/
theorem Harmless.messages
    (fd : Fd) (conn : Ptr) (sock : SockId) (messages : List Bytes) :
    ∀ event ∈ messages.flatMap (System.messageEvents fd conn sock),
      event.Harmless := by
  intro event present
  obtain ⟨message, _, present⟩ := List.mem_flatMap.mp present
  unfold System.messageEvents at present
  split at present <;> simp at present <;> grind [Harmless]

end Event

/-- System calls of a sending loop are harmless. -/
theorem SoftSend.harmless
    {call : Nat}
    {sock : SockId}
    {event : Event}
    (soft : SoftSend call sock event) :
    event.Harmless := by
  rcases soft with ⟨bytes, rfl⟩ | ⟨errno, _, rfl⟩ <;> exact trivial

namespace System

/-- No addition to epoll was refused. -/
def AddsSucceed (s : System) : Prop :=
  ∀ event ∈ s.log, event.refusesAdd = false

instance (s : System) : Decidable s.AddsSucceed := by
  unfold AddsSucceed
  infer_instance

/-- The history agrees with the tables. -/
structure Ledger (s : System) : Prop where
  invoked : ∀ fd conn atWait, .invoked fd conn atWait ∈ s.log →
    atWait = some conn
  closed_none : .closed none ∉ s.log
  closed : ∀ sock, .closed (some sock) ∈ s.log →
    sock < s.nextSock ∧ ∀ fd, s.socket fd ≠ some sock
  closed_once : ∀ sock, s.log.count (.closed (some sock)) ≤ 1
  deleted : ∀ conn, .deleted conn ∈ s.log →
    conn < s.nextPtr ∧ s.alive conn = false
  deleted_once : ∀ conn, s.log.count (.deleted conn) ≤ 1
  watched : ∀ fd conn, s.connections fd = some conn →
    (s.interest fd).isSome = true ∨ .epollCtl .add conn fd false ∈ s.log

namespace Ledger

variable {s s' : System} {fd : Fd} {conn : Ptr} {sock : SockId}

/-- Harmless events can be added as long as the tables stay. -/
theorem of_same
    (ledger : s.Ledger)
    (same : SameTables s s')
    {events : List Event}
    (log : s'.log = s.log ++ events)
    (harmless : ∀ event ∈ events, event.Harmless) :
    s'.Ledger := by
  have old {event : Event} (harmful : ¬event.Harmless) :
      event ∈ s'.log ↔ event ∈ s.log := by
    rw [log, List.mem_append]
    constructor
    · rintro (present | added)
      · exact present
      · exact absurd (harmless event added) harmful
    · exact Or.inl
  have count {event : Event} (harmful : ¬event.Harmless) :
      s'.log.count event = s.log.count event := by
    rw [log, List.count_append, Nat.add_eq_left, List.count_eq_zero]
    exact fun added => harmful (harmless event added)
  refine ⟨?_, ?_, ?_, ?_, ?_, ?_, ?_⟩
  · intro fd conn atWait present
    rw [log, List.mem_append] at present
    rcases present with present | added
    · exact ledger.invoked fd conn atWait present
    · exact harmless _ added
  · rw [old id]
    exact ledger.closed_none
  · intro sock present
    rw [old id] at present
    rw [same.nextSock, same.socket]
    exact ledger.closed sock present
  · intro sock
    rw [count id]
    exact ledger.closed_once sock
  · intro conn present
    rw [old id] at present
    rw [same.nextPtr, same.alive]
    exact ledger.deleted conn present
  · intro conn
    rw [count id]
    exact ledger.deleted_once conn
  · intro fd conn entry
    rw [same.connections] at entry
    rw [same.watched, log, List.mem_append]
    rcases ledger.watched fd conn entry with watched | refused
    · exact Or.inl watched
    · exact Or.inr (Or.inl refused)

/-- A harmless event changes nothing in the ledger. -/
theorem record
    (ledger : s.Ledger)
    {event : Event}
    (harmless : event.Harmless) :
    (s.record event).Ledger :=
  ledger.of_same (SameTables.record s event) rfl (by simpa using harmless)

/-- The loop over the batch has no part in the ledger. -/
theorem advance (ledger : s.Ledger) : s.advance.Ledger :=
  have log : s.advance.log = s.log ++ [] := by
    rw [advance_log, List.append_nil]
  ledger.of_same (SameTables.advance s) log (by simp)

/-- The handler of a live connection is called. -/
theorem entered
    (ledger : s.Ledger)
    {phase : Phase}
    (called : s.Called phase fd conn) :
    (s.entered fd conn).Ledger := by
  refine ledger.advance.of_same (SameTables.afterEnter s.advance fd conn)
    (by rfl) ?_
  intro event present
  obtain rfl := List.mem_singleton.mp present
  change s.advance.atWait fd = some conn
  rw [advance_atWait, ← called.settled.same, called.entry]

/-- A reading loop is harmless. -/
theorem afterRecv
    (ledger : s.Ledger)
    (conn : Ptr) (sock : SockId) (results : List RecvResult) :
    (s.afterRecv conn sock results).Ledger :=
  ledger.of_same (SameTables.afterRecv s conn sock results) (by rfl)
    (Event.Harmless.recvs _ _ _)

/-- So is cutting the buffer behind it. -/
theorem afterInput
    (ledger : s.Ledger)
    {phase : Phase}
    (called : s.Called phase fd conn)
    (results : List RecvResult) :
    (s.afterInput fd conn sock results).Ledger :=
  ((ledger.entered called).afterRecv conn sock results).of_same
    (SameTables.afterSplit _ conn) (List.append_nil _).symm (by simp)

/-- So is answering. -/
theorem afterAnswers
    (ledger : s.Ledger)
    (registered : s.Registered fd conn sock)
    (messages : List Bytes) :
    (s.afterAnswers fd conn sock messages).Ledger :=
  ledger.of_same (SameTables.afterAnswers registered messages) (by rfl)
    (Event.Harmless.messages _ _ _ _)

/-- So is a sending loop that goes on. -/
theorem afterSend
    (ledger : s.Ledger)
    (conn : Ptr) (outbuffer : Bytes)
    {events : List Event}
    (harmless : ∀ event ∈ events, event.Harmless) :
    (s.afterSend conn outbuffer events).Ledger :=
  ledger.of_same (SameTables.afterSend s conn outbuffer events) (by rfl) harmless

/-- The descriptor of a registered connection is in the epoll set. -/
theorem afterArm
    (ledger : s.Ledger)
    (registered : s.Registered fd conn sock)
    (events : UInt32) :
    (s.afterArm fd conn events).Ledger :=
  ledger.of_same (SameTables.afterArm registered events) (by rfl)
    (by simp [Event.Harmless])

/-- A release closes an open socket and deletes a live object. -/
theorem afterRelease
    (ledger : s.Ledger)
    (tables : s.Tables)
    (registered : s.Registered fd conn sock) :
    (s.afterRelease fd conn sock).Ledger := by
  have notClosed : .closed (some sock) ∉ s.log := fun present =>
    (ledger.closed sock present).2 fd registered.opened
  have notDeleted : .deleted conn ∉ s.log := fun present => by
    have dead := (ledger.deleted conn present).2
    rw [registered.live] at dead
    exact absurd dead (by simp)
  refine ⟨?_, ?_, ?_, ?_, ?_, ?_, ?_⟩
  · intro other entry atWait present
    exact ledger.invoked other entry atWait
      (by simpa [System.afterRelease] using present)
  · simpa [System.afterRelease] using ledger.closed_none
  · intro other present
    have gone : other = sock ∨ .closed (some other) ∈ s.log := by
      simpa [System.afterRelease, or_comm] using present
    simp only [System.afterRelease, Function.update_apply]
    rcases gone with rfl | present
    · refine ⟨tables.socket_lt fd other registered.opened, fun fd' => ?_⟩
      split
      · simp
      · rename_i different
        intro isOpen
        exact different
          (tables.socket_inj fd' fd other isOpen registered.opened)
    · obtain ⟨bound, notOpen⟩ := ledger.closed other present
      refine ⟨bound, fun fd' => ?_⟩
      split
      · simp
      · exact notOpen fd'
  · intro other
    by_cases equal : other = sock
    · subst equal
      simp [System.afterRelease, List.count_append,
        List.count_eq_zero.mpr notClosed]
    · have once := ledger.closed_once other
      simpa [System.afterRelease, List.count_append, List.count_cons,
        Ne.symm equal] using once
  · intro other present
    have gone : other = conn ∨ .deleted other ∈ s.log := by
      simpa [System.afterRelease, or_comm] using present
    simp only [System.afterRelease, Function.update_apply]
    rcases gone with rfl | present
    · exact ⟨(tables.owned other registered.live).2, by simp⟩
    · obtain ⟨bound, dead⟩ := ledger.deleted other present
      exact ⟨bound, by split <;> simp [dead]⟩
  · intro other
    by_cases equal : other = conn
    · subst equal
      simp [System.afterRelease, List.count_append,
        List.count_eq_zero.mpr notDeleted]
    · have once := ledger.deleted_once other
      simpa [System.afterRelease, List.count_append, List.count_cons,
        Ne.symm equal] using once
  · intro other entry present
    have different : other ≠ fd := by
      rintro rfl
      simp [System.afterRelease] at present
    have present' : s.connections other = some entry := by
      simpa [System.afterRelease, different] using present
    simpa [System.afterRelease, different] using ledger.watched other entry present'

/-- An arrival brings a socket and an object that were never used. -/
theorem afterArrive
    (ledger : s.Ledger)
    (added : Bool) :
    (s.afterArrive fd added).Ledger := by
  refine ⟨?_, ?_, ?_, ?_, ?_, ?_, ?_⟩
  · intro other entry atWait present
    exact ledger.invoked other entry atWait
      (by simpa [System.afterArrive] using present)
  · simpa [System.afterArrive] using ledger.closed_none
  · intro other present
    obtain ⟨bound, notOpen⟩ := ledger.closed other
      (by simpa [System.afterArrive] using present)
    refine ⟨Nat.lt_succ_of_lt bound, fun fd' => ?_⟩
    simp only [System.afterArrive, Function.update_apply]
    split
    · rw [Ne, Option.some.injEq]
      exact Nat.ne_of_gt bound
    · exact notOpen fd'
  · intro other
    simpa [System.afterArrive, List.count_append, List.count_cons]
      using ledger.closed_once other
  · intro other present
    obtain ⟨bound, dead⟩ := ledger.deleted other
      (by simpa [System.afterArrive] using present)
    refine ⟨Nat.lt_succ_of_lt bound, ?_⟩
    simpa [System.afterArrive, Nat.ne_of_lt bound] using dead
  · intro other
    simpa [System.afterArrive, List.count_append, List.count_cons]
      using ledger.deleted_once other
  · intro other entry present
    by_cases equal : other = fd
    · subst equal
      rw [afterArrive_connections_self, Option.some.injEq] at present
      subst present
      cases added <;> simp [System.afterArrive]
    · rw [afterArrive_connections_of_ne equal] at present
      rcases ledger.watched other entry present with watched | refused
      · left
        rw [afterArrive_interest_of_ne equal]
        exact watched
      · right
        simp [System.afterArrive, refused]

/-- Every new connection is entered. -/
theorem arrivals
    (ledger : s.Ledger)
    (arrivals : Arrivals conn s s') :
    s'.Ledger := by
  induction arrivals with
  | done s => exact ledger
  | failed errno later inductionHypothesis =>
      exact inductionHypothesis (ledger.record trivial)
  | arrived fd added closed later inductionHypothesis =>
      exact inductionHypothesis (ledger.afterArrive added)

end Ledger

/-- In front of the first batch there is only the listening socket. -/
theorem create_ledger (listensock : Fd) (added : Bool) :
    (create listensock added).Ledger := by
  rw [create_eq]
  refine ⟨?_, ?_, ?_, ?_, ?_, ?_, ?_⟩ <;>
    cases added <;>
    simp [Function.update_apply]

/-- Every step keeps the ledger. -/
theorem Move.ledger
    {s : System}
    {next : Process}
    (moved : s.Move next)
    (tables : s.Tables)
    (ledger : s.Ledger) :
    next.state.Ledger := by
  cases moved with
  | wait batch idle possible =>
      exact ledger.of_same
        ⟨rfl, rfl, rfl, rfl, rfl, rfl, fun _ => rfl, fun _ => rfl⟩
        (List.append_nil _).symm (by simp)
  | skip busy => exact ledger.advance
  | accept called arrivals => exact (ledger.entered called).arrivals arrivals
  | read called registered continued drained survived =>
      exact (ledger.afterInput called _).afterAnswers (registered.afterInput _) _
  | trap called registered continued drained served trapped =>
      exact ((ledger.afterInput called _).afterAnswers
        (registered.afterInput _) _).record trivial
  | @close fd conn sock rounds last called registered continued closes =>
      have received := (ledger.entered called).afterRecv conn sock (rounds ++ [last])
      have tables' := tables.afterRecv fd conn sock (rounds ++ [last])
      exact (received.afterRelease tables' (registered.entered.afterRecv _)).record
        trivial
  | @write fd conn sock outbuffer events called registered soft conserved =>
      have sent := (ledger.entered called).afterSend conn outbuffer
        fun event present => (soft event present).harmless
      exact sent.afterArm (registered.entered.afterSend _ _) _
  | @broken fd conn sock outbuffer events errno called registered soft hard =>
      have harmless : ∀ event ∈ events ++
          [.sendFailed (s.calls + 1) (some sock) errno], event.Harmless := by
        intro event present
        rcases List.mem_append.mp present with present | last
        · exact (soft event present).harmless
        · obtain rfl := List.mem_singleton.mp last
          exact trivial
      have sent := (ledger.entered called).afterSend conn outbuffer harmless
      have tables' := tables.afterSend fd conn outbuffer
        (events ++ [.sendFailed (s.calls + 1) (some sock) errno])
      have released := sent.afterRelease tables' (registered.entered.afterSend _ _)
      have touched {s : System} (ledger : s.Ledger) :
          (s.record (.useAfterFree conn)).Ledger :=
        ledger.record trivial
      exact (touched (touched released)).record trivial

end System

namespace Event

/-- A `recv` that reports the end or a hard error, or a `send` that fails with a
hard error. -/
def Fatal : Event → Prop
  | .recv _ _ result => result.Closes
  | .sendFailed _ _ errno => HardErrno errno
  | _ => False

instance : DecidablePred Fatal := fun event =>
  match event with
  | .recv _ _ result => inferInstanceAs (Decidable result.Closes)
  | .sendFailed _ _ errno => inferInstanceAs (Decidable (HardErrno errno))
  | .accepted .. | .acceptFailed .. | .sent .. | .epollCtl .. | .closed _
  | .deleted _ | .useAfterFree _ | .invoked .. | .message .. =>
      inferInstanceAs (Decidable False)

/-- No failure of a connection and no trace of one. -/
def Calm : Event → Prop
  | .useAfterFree _ => False
  | .deleted _ => False
  | event => ¬event.Fatal

end Event

namespace Process

/-- In every reached state the history agrees with the tables. -/
theorem ledger : machine.Invariant fun process => process.state.Ledger :=
  invariant_of_moves System.create_ledger
    fun _ _ _ tables _ ledger moved => moved.ledger tables ledger

/-- The three tables have the same keys, every entry is filed under its own
descriptor, nothing is closed or deleted twice, and every callback ran on the
connection that was registered when `epoll_wait` returned. -/
theorem registry_consistent
    {process : Process}
    (reached : machine.Reachable process)
    (added : process.state.AddsSucceed) :
    (∀ fd, (process.state.connections fd).isSome =
      (process.state.interest fd).isSome) ∧
    (∀ fd, (process.state.connections fd).isSome =
      (process.state.socket fd).isSome) ∧
    (∀ fd conn, process.state.connections fd = some conn →
      process.state.alive conn = true ∧ (process.state.memory conn).sock = fd) ∧
    (.closed none ∉ process.state.log ∧
      ∀ sock, process.state.log.count (.closed (some sock)) ≤ 1) ∧
    (∀ conn, process.state.log.count (.deleted conn) ≤ 1) ∧
    (∀ fd conn atWait, .invoked fd conn atWait ∈ process.state.log →
      atWait = some conn) := by
  have tables := (orderly process reached).1
  have history := ledger process reached
  refine ⟨?_, ?_, tables.entry, ⟨history.closed_none, history.closed_once⟩,
    history.deleted_once, history.invoked⟩
  · intro fd
    rw [Bool.eq_iff_iff]
    constructor
    · intro registered
      obtain ⟨conn, entry⟩ := Option.isSome_iff_exists.mp registered
      rcases history.watched fd conn entry with watched | refused
      · exact watched
      · exact absurd (added _ refused) (by simp [Event.refusesAdd])
    · exact tables.watched fd
  · exact fun fd => (tables.opened fd).symm

/-- The bytes `1 + 2X`. -/
def onePlusTwo : Chunk :=
  ⟨[49, 32, 43, 32, 50, 88], by decide, by decide⟩

/-- A client is accepted on descriptor 5 and asks for `1 + 2`. -/
def asks : List System.Label :=
  [.wait [⟨3, epollin⟩],
    .next ⟨[.sock 5 true, .fail eagain], [], []⟩,
    .next ⟨[], [], []⟩,
    .wait [⟨5, epollin ||| epollout⟩],
    .next ⟨[], [.data onePlusTwo, .fail eagain], []⟩]

/-- The answer is sent in part. -/
def answersInPart : List System.Label :=
  asks ++ [.next ⟨[], [], [.sent 2, .fail eagain]⟩]

theorem registry_consistent_answersInPart :
    ∃ process, run answersInPart (.running (System.create 3 true)) = some process ∧
      process.state.connections 5 = some 1 ∧
      (∀ fd, (process.state.connections fd).isSome =
        (process.state.interest fd).isSome) ∧
      ∀ conn, process.state.log.count (.deleted conn) ≤ 1 := by
  have ended : (run answersInPart (.running (System.create 3 true))).map
      (fun process => (process.state.connections 5,
        decide process.state.AddsSucceed)) = some (some 1, true) := by
    decide +kernel
  obtain ⟨process, ran, outcome⟩ := Option.map_eq_some_iff.mp ended
  rw [Prod.mk.injEq, decide_eq_true_eq] at outcome
  have consistent := registry_consistent
    (reachable_of_run (reachable_create 3 true) ran) outcome.2
  exact ⟨process, ran, outcome.1, consistent.1, consistent.2.2.2.2.1⟩

/-! ## After the release -/

/-- A released connection is left alone: it is not touched and not named to
`epoll_ctl` again, and the assertion on `epoll_ctl` has not failed. -/
structure LeavesReleasedAlone (process : Process) : Prop where
  untouched : ∀ conn, .useAfterFree conn ∉ process.state.log
  unnamed : ∀ front back conn,
    process.state.log = front ++ .deleted conn :: back →
    ∀ op fd ok, .epollCtl op conn fd ok ∉ back
  asserted : ∀ s, process ≠ .aborted .assertion s

end Process

/-- A result behind which the loop goes on does not close the connection. -/
theorem RecvResult.Continues.not_closes
    {result : RecvResult}
    (continues : result.Continues) :
    ¬result.Closes := by
  cases result with
  | data chunk => exact id
  | eof => exact absurd continues id
  | fail errno => exact fun closes => closes.2.2 continues

/-- Neither does one that says that nothing is there. -/
theorem RecvResult.Drained.not_closes
    {result : RecvResult}
    (drained : result.Drained) :
    ¬result.Closes := by
  cases result with
  | data chunk => exact id
  | eof => exact absurd drained id
  | fail errno =>
      rintro ⟨notAgain, notBlock, _⟩
      exact drained.elim notAgain notBlock

/-- No result of a reading loop that ends without a release is fatal. -/
theorem RecvResult.not_closes_of_drained
    {rounds : List RecvResult}
    {last : RecvResult}
    (continued : ∀ result ∈ rounds, result.Continues)
    (drained : last.Drained) :
    ∀ result ∈ rounds ++ [last], ¬result.Closes := by
  intro result present
  rcases List.mem_append.mp present with present | isLast
  · exact (continued result present).not_closes
  · obtain rfl := List.mem_singleton.mp isLast
    exact drained.not_closes

namespace Event

/-- No connection is released in a reading loop without end of the stream or error. -/
theorem Calm.recvs
    {call : Nat}
    {sock : SockId}
    {results : List RecvResult}
    (quiet : ∀ result ∈ results, ¬result.Closes) :
    ∀ event ∈ results.map (Event.recv call (some sock)), event.Calm := by
  intro event present
  obtain ⟨result, isResult, rfl⟩ := List.mem_map.mp present
  exact quiet result isResult

/-- Serving messages releases no connection. -/
theorem Calm.messages
    (fd : Fd) (conn : Ptr) (sock : SockId) (messages : List Bytes) :
    ∀ event ∈ messages.flatMap (System.messageEvents fd conn sock),
      event.Calm := by
  intro event present
  obtain ⟨message, _, present⟩ := List.mem_flatMap.mp present
  unfold System.messageEvents at present
  split at present <;> simp at present <;> grind [Calm, Fatal]

end Event

/-- An error that is passed over releases no connection. -/
theorem SoftSend.calm
    {call : Nat}
    {sock : SockId}
    {event : Event}
    (soft : SoftSend call sock event) :
    event.Calm := by
  rcases soft with ⟨bytes, rfl⟩ | ⟨errno, notHard, rfl⟩
  · exact id
  · exact notHard

namespace System

variable {s s' : System} {conn : Ptr} {next : Process}

/-- New connections release none. -/
theorem Arrivals.calm (arrivals : Arrivals conn s s') :
    ∃ events, s'.log = s.log ++ events ∧ ∀ event ∈ events, event.Calm := by
  induction arrivals with
  | done s => exact ⟨[], by simp⟩
  | failed errno later inductionHypothesis =>
      obtain ⟨events, log, calm⟩ := inductionHypothesis
      refine ⟨_ :: events, by rw [log, record, List.append_assoc]; rfl, ?_⟩
      exact List.forall_mem_cons.mpr ⟨id, calm⟩
  | arrived fd added closed later inductionHypothesis =>
      obtain ⟨events, log, calm⟩ := inductionHypothesis
      refine ⟨_ :: _ :: events, by rw [log, afterArrive, List.append_assoc]; rfl, ?_⟩
      exact List.forall_mem_cons.mpr ⟨id, List.forall_mem_cons.mpr ⟨id, calm⟩⟩

/-- A move without a failed connection only adds calm events; a move with one
also uses the released object. -/
theorem Move.calm_or_fatal (moved : s.Move next) :
    ∃ events, next.state.log = s.log ++ events ∧
      (((∀ event ∈ events, event.Calm) ∧
          ∀ s', next ≠ .aborted .assertion s') ∨
        (∃ event ∈ events, event.Fatal) ∧
          ∃ conn, .useAfterFree conn ∈ events) := by
  cases moved with
  | wait batch idle possible =>
      exact ⟨[], (List.append_nil _).symm, Or.inl ⟨by simp, by simp⟩⟩
  | skip busy =>
      refine ⟨[], ?_, Or.inl ⟨by simp, by simp⟩⟩
      rw [List.append_nil]
      exact advance_log
  | @accept conn s' called arrivals =>
      obtain ⟨events, log, calm⟩ := arrivals.calm
      refine ⟨.invoked s.listensock conn (s.atWait s.listensock) :: events, ?_,
        Or.inl ⟨List.forall_mem_cons.mpr ⟨id, calm⟩, by simp⟩⟩
      rw [Process.state, log, entered_log, List.append_assoc, List.singleton_append]
  | read called registered continued drained survived =>
      have quiet := RecvResult.not_closes_of_drained continued drained
      refine ⟨_, afterRead_log _ _ _ _ _, Or.inl ⟨?_, by simp⟩⟩
      exact List.forall_mem_cons.mpr ⟨id, List.forall_mem_append.mpr
        ⟨Event.Calm.recvs quiet, Event.Calm.messages _ _ _ _⟩⟩
  | trap called registered continued drained served trapped =>
      have quiet := RecvResult.not_closes_of_drained continued drained
      refine ⟨_, afterTrap_log _ _ _ _ _ _ _, Or.inl ⟨?_, by simp⟩⟩
      exact List.forall_mem_cons.mpr ⟨id, List.forall_mem_append.mpr
        ⟨Event.Calm.recvs quiet, List.forall_mem_append.mpr
          ⟨Event.Calm.messages _ _ _ _, List.forall_mem_singleton.mpr id⟩⟩⟩
  | @close fd conn sock rounds last called registered continued closes =>
      refine ⟨_, afterClose_log _ _ _ _ _, Or.inr
        ⟨⟨.recv (s.calls + 1) (some sock) last, by simp, closes⟩, conn, by simp⟩⟩
  | write called registered soft conserved =>
      refine ⟨_, afterWrite_log _ _ _ _ _, Or.inl ⟨?_, by simp⟩⟩
      exact List.forall_mem_cons.mpr ⟨id, List.forall_mem_append.mpr
        ⟨fun event present => (soft event present).calm,
          List.forall_mem_singleton.mpr id⟩⟩
  | @broken fd conn sock outbuffer events errno called registered soft hard =>
      refine ⟨_, afterBreak_log _ _ _ _ _ _, Or.inr
        ⟨⟨.sendFailed (s.calls + 1) (some sock) errno, by simp, hard⟩, conn, by simp⟩⟩

end System

namespace Process

/-- Either nothing failed so far, or a failed connection was used after its
release. -/
def CalmOrFatal (process : Process) : Prop :=
  ((∀ event ∈ process.state.log, event.Calm) ∧
      ∀ s, process ≠ .aborted .assertion s) ∨
    (∃ event ∈ process.state.log, event.Fatal) ∧
      ∃ conn, .useAfterFree conn ∈ process.state.log

/-- The constructor releases no connection. -/
theorem create_calm (listensock : Fd) (added : Bool) :
    ∀ event ∈ (System.create listensock added).log, event.Calm := by
  rw [System.create_eq]
  exact List.forall_mem_singleton.mpr id

/-- In every run nothing is released, or some call has failed for good. -/
theorem calmOrFatal : machine.Invariant CalmOrFatal := by
  apply invariant_of_moves
  · exact fun listensock added => Or.inl ⟨create_calm listensock added, by simp⟩
  · intro s next reached tables pending before moved
    obtain ⟨events, log, added⟩ := moved.calm_or_fatal
    unfold CalmOrFatal
    simp only [log, List.mem_append]
    rcases before with ⟨calm, _⟩ | ⟨⟨event, present, fatal⟩, conn, used⟩
    · rcases added with ⟨addedCalm, alive⟩ | ⟨⟨event, present, fatal⟩, conn, used⟩
      · refine Or.inl ⟨fun event present => ?_, alive⟩
        exact present.elim (calm event) (addedCalm event)
      · exact Or.inr ⟨⟨event, Or.inr present, fatal⟩, conn, Or.inr used⟩
    · exact Or.inr ⟨⟨event, Or.inl present, fatal⟩, conn, Or.inl used⟩

/-- Released connections are left alone in exactly the runs in which no
connection ended or failed so far. -/
theorem leavesReleasedAlone_iff
    {process : Process}
    (reached : machine.Reachable process) :
    process.LeavesReleasedAlone ↔
      ∀ event ∈ process.state.log, ¬event.Fatal := by
  constructor
  · intro alone event present fatal
    rcases calmOrFatal process reached with ⟨calm, _⟩ | ⟨_, conn, used⟩
    · have eventCalm := calm event present
      cases event <;> first | exact eventCalm fatal | exact fatal
    · exact alone.untouched conn used
  · intro quiet
    rcases calmOrFatal process reached with
      ⟨calm, asserted⟩ | ⟨⟨event, present, fatal⟩, _⟩
    · refine ⟨fun conn used => calm _ used, ?_, asserted⟩
      intro front back conn log
      have deleted : .deleted conn ∈ process.state.log := by simp [log]
      exact absurd deleted (calm _)
    · exact absurd fatal (quiet event present)

theorem leavesReleasedAlone_answersInPart :
    ∃ process, run answersInPart (.running (System.create 3 true)) = some process ∧
      process.LeavesReleasedAlone := by
  have ended : (run answersInPart (.running (System.create 3 true))).map
      (fun process => decide (∀ event ∈ process.state.log, ¬event.Fatal)) =
        some true := by
    decide +kernel
  obtain ⟨process, ran, quiet⟩ := Option.map_eq_some_iff.mp ended
  have reached := reachable_of_run (reachable_create 3 true) ran
  exact ⟨process, ran, (leavesReleasedAlone_iff reached).mpr (of_decide_eq_true quiet)⟩

/-- The peer has reset the connection when the answer is sent. -/
def sendFails : List System.Label :=
  asks ++ [.next ⟨[], [], [.fail 104]⟩]

/-- When `send` fails with `ECONNRESET`, the tail of `Sender` reads the deleted
connection, names its closed descriptor to `epoll_ctl` and aborts the server. -/
theorem released_used_again :
    ∃ process, machine.Reachable process ∧
      run sendFails (.running (System.create 3 true)) = some process ∧
      process.reason = some .assertion ∧
      .useAfterFree 1 ∈ process.state.log ∧
      ¬process.LeavesReleasedAlone := by
  have ended : (run sendFails (.running (System.create 3 true))).map
      (fun process => (process.reason,
        decide (.useAfterFree 1 ∈ process.state.log))) =
      some (some .assertion, true) := by
    decide +kernel
  obtain ⟨process, ran, outcome⟩ := Option.map_eq_some_iff.mp ended
  rw [Prod.mk.injEq, decide_eq_true_eq] at outcome
  exact ⟨process, reachable_of_run (reachable_create 3 true) ran, ran, outcome.1,
    outcome.2, fun alone => alone.untouched 1 outcome.2⟩

end Process

end Reactor
end LearnInLinux
