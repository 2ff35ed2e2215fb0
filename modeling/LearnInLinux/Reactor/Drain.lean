import LearnInLinux.Reactor.Service

/-!
# Edge-triggered descriptors

A descriptor added with `EPOLLET` is reported again only for something new. So
a handler has to go on until the kernel says that nothing is left for now, on
every exit that leaves the direction armed. `Recver` and `Sender` do; `Accepter`
gives up on a hard error and leaves the listening socket armed.
-/

namespace LearnInLinux
namespace Reactor

namespace Event

/-- Calls of `accept`, `recv` and `send`. -/
def isTransfer : Event → Bool
  | .accepted .. => true
  | .acceptFailed .. => true
  | .recv .. => true
  | .sent .. => true
  | .sendFailed .. => true
  | _ => false

/-- The handler call in which a transfer was made. -/
def call : Event → Option Nat
  | .accepted call _ _ => some call
  | .acceptFailed call _ _ => some call
  | .recv call _ _ => some call
  | .sent call _ _ => some call
  | .sendFailed call _ _ => some call
  | _ => none

/-- The kernel said that nothing is left for now. -/
def ReportsAgain : Event → Prop
  | .acceptFailed _ _ errno => errno = eagain ∨ errno = ewouldblock
  | .recv _ _ result => result.Drained
  | .sendFailed _ _ errno => errno = eagain ∨ errno = ewouldblock
  | _ => False

/-- `accept` failed, and neither for an empty queue nor for an interruption. -/
def BreaksAccept : Event → Prop
  | .acceptFailed _ _ errno => HardErrno errno
  | _ => False

instance : DecidablePred BreaksAccept := fun event =>
  match event with
  | .acceptFailed _ _ errno => inferInstanceAs (Decidable (HardErrno errno))
  | .accepted .. | .recv .. | .sent .. | .sendFailed .. | .epollCtl .. | .closed _
  | .deleted _ | .useAfterFree _ | .invoked .. | .message .. =>
      inferInstanceAs (Decidable False)

end Event

/-- The last transfer in a history. -/
def lastTransfer (events : List Event) : Option Event :=
  (events.filter Event.isTransfer).getLast?

/-- No `accept` failed for good so far. -/
def AcceptsSettle (events : List Event) : Prop :=
  ∀ event ∈ events, ¬event.BreaksAccept

instance (events : List Event) : Decidable (AcceptsSettle events) := by
  unfold AcceptsSettle
  infer_instance

/-- The direction that the callbacks of a half serve. -/
def Phase.direction : Phase → UInt32
  | .reading => epollin
  | .writing => epollout

namespace System

/-- The handler `call` on `fd` returned in a state in which the direction is no
longer armed, or the last of its transfers found nothing left. -/
def LeavesNothing (call : Nat) (fd : Fd) (direction : UInt32) (s : System) : Prop :=
  ∀ events, s.interest fd = some events → events &&& direction ≠ 0 →
    ∃ event, lastTransfer s.log = some event ∧ event.call = some call ∧
      event.ReportsAgain

/-- If the step from `s` to `s'` called a handler, it left nothing behind. -/
def Drains (s s' : System) : Prop :=
  s'.calls = s.calls + 1 → ∀ ev ∈ s.revs.head?,
    s'.LeavesNothing s'.calls ev.fd s.phase.direction

end System

/-! ## The last transfer of a history -/

section Histories

variable {events others : List Event} {event : Event}

theorem lastTransfer_concat (transfer : event.isTransfer = true) :
    lastTransfer (events ++ [event]) = some event := by
  rw [lastTransfer, List.filter_append, List.filter_cons_of_pos transfer,
    List.filter_nil, List.getLast?_concat]

theorem lastTransfer_append
    (noTransfer : ∀ event ∈ others, event.isTransfer = false) :
    lastTransfer (events ++ others) = lastTransfer events := by
  have nothing : others.filter Event.isTransfer = [] := by
    rw [List.filter_eq_nil_iff]
    intro event present
    rw [noTransfer event present]
    exact Bool.false_ne_true
  rw [lastTransfer, List.filter_append, nothing, List.append_nil]
  rfl

theorem acceptsSettle_append :
    AcceptsSettle (events ++ others) ↔
      AcceptsSettle events ∧ AcceptsSettle others :=
  List.forall_mem_append

theorem acceptsSettle_append_of_all
    (settle : AcceptsSettle others) :
    AcceptsSettle (events ++ others) ↔ AcceptsSettle events := by
  rw [acceptsSettle_append]
  exact and_iff_left settle

theorem acceptsSettle_recvs
    (call : Nat) (sock : SockId) (results : List RecvResult) :
    AcceptsSettle (results.map (Event.recv call (some sock))) := by
  intro event present
  obtain ⟨result, _, rfl⟩ := List.mem_map.mp present
  exact id

theorem acceptsSettle_soft
    {call : Nat}
    {sock : SockId}
    (soft : ∀ event ∈ events, SoftSend call sock event) :
    AcceptsSettle events := by
  intro event present
  rcases soft event present with ⟨bytes, rfl⟩ | ⟨errno, _, rfl⟩
  · exact id
  · exact id

/-- Serving messages neither transfers nor accepts. -/
theorem messageEvents_quiet
    {fd : Fd}
    {conn : Ptr}
    {sock : SockId}
    {messages : List Bytes}
    (present : event ∈ messages.flatMap (System.messageEvents fd conn sock)) :
    event.isTransfer = false ∧ ¬event.BreaksAccept := by
  obtain ⟨message, _, present⟩ := List.mem_flatMap.mp present
  unfold System.messageEvents at present
  split at present
  · rcases List.mem_cons.mp present with rfl | armed
    · exact ⟨rfl, id⟩
    · obtain rfl := List.mem_singleton.mp armed
      exact ⟨rfl, id⟩
  · obtain rfl := List.mem_singleton.mp present
    exact ⟨rfl, id⟩

end Histories

namespace System

variable {s s' : System} {fd : Fd} {conn : Ptr} {sock : SockId}

/-! ## The three handlers -/

/-- `Accepter` returns on the first failure that is no interruption, and before
that nothing breaks. -/
theorem Tables.accepter_returns
    (tables : s.Tables)
    (live : s.alive conn = true)
    {results : List AcceptResult}
    (returned : s.accepter conn results = .ok s') :
    ∃ errno, errno ≠ eintr ∧ s'.calls = s.calls ∧
      (∃ fd, lastTransfer s'.log = some (.acceptFailed s.calls fd errno)) ∧
      (AcceptsSettle s'.log ↔ AcceptsSettle s.log ∧ ¬HardErrno errno) := by
  induction results generalizing s with
  | nil => exact absurd returned (by simp [System.accepter])
  | cons result rest inductionHypothesis =>
      cases result with
      | fail errno =>
          let failed := s.record (.acceptFailed s.calls (s.memory conn).sock errno)
          have settle : AcceptsSettle failed.log ↔
              AcceptsSettle s.log ∧ ¬HardErrno errno := by
            have last : AcceptsSettle
                [.acceptFailed s.calls (s.memory conn).sock errno] ↔
                  ¬HardErrno errno :=
              List.forall_mem_singleton
            rw [← last]
            exact acceptsSettle_append
          have unfolded : s.accepter conn (.fail errno :: rest) =
              if errno = eagain ∨ errno = ewouldblock then .ok failed
              else if errno = eintr then failed.accepter conn rest
              else .ok failed := by
            rw [System.accepter, touch_of_alive live]
          rw [unfolded] at returned
          by_cases interrupted : errno = eintr
          · have notLater : ¬(errno = eagain ∨ errno = ewouldblock) := by
              rw [interrupted]
              decide
            rw [if_neg notLater, if_pos interrupted] at returned
            obtain ⟨last, notInterrupted, calls, ended, history⟩ :=
              inductionHypothesis (tables.of_same (SameTables.record s _)) live
                returned
            have soft : ¬HardErrno errno := fun hard => hard.2.2 interrupted
            refine ⟨last, notInterrupted, calls, ended, ?_⟩
            rw [history, settle, and_iff_left soft]
          · have ends : s' = failed := by
              split at returned
              · exact (Except.ok.inj returned).symm
              · exact (Except.ok.inj returned).symm
            rw [ends]
            exact ⟨errno, interrupted, rfl,
              ⟨_, lastTransfer_concat rfl⟩, settle⟩
      | sock fd added =>
          rw [System.accepter] at returned
          split at returned
          · exact absurd returned (by simp)
          · rename_i notOpen
            have closed : s.socket fd = none := by
              simpa using notOpen
            simp only [touch_of_alive live, tables.openSocket_addConnection closed]
              at returned
            have live' : (s.afterArrive fd added).alive conn = true := by
              have old : conn ≠ s.nextPtr := Nat.ne_of_lt (tables.owned conn live).2
              simpa [System.afterArrive, old] using live
            obtain ⟨last, notInterrupted, calls, ended, history⟩ :=
              inductionHypothesis (tables.afterArrive closed added) live' returned
            refine ⟨last, notInterrupted, calls, ended, ?_⟩
            rw [history, System.afterArrive, acceptsSettle_append_of_all]
            simp [AcceptsSettle, Event.BreaksAccept]

/-- `Recver` returns with nothing left to read or without the connection. -/
theorem Registered.recver_returns
    (registered : s.Registered fd conn sock)
    {results : List RecvResult}
    (returned : s.recver conn results = .ok s') :
    s'.LeavesNothing s.calls fd epollin ∧
      (AcceptsSettle s'.log ↔ AcceptsSettle s.log) := by
  rcases registered.recver results with
    blocked | ⟨rounds, last, rest, _, _, ⟨drained, outcome⟩ | ⟨_, outcome⟩⟩
  · rw [blocked] at returned
    exact absurd returned (by simp)
  · rw [outcome] at returned
    have input := (registered.afterRecv (rounds ++ [last])).afterSplit
    rcases input.deliver (Delimited.messages sepChar ((s.memory conn).inbuffer ++
        chunkText (chunksOf (rounds ++ [last])))) with
      ⟨_, served⟩ | ⟨_, _, _, _, _, _, died⟩
    · rw [served] at returned
      obtain rfl := Except.ok.inj returned
      have settle := acceptsSettle_recvs s.calls sock (rounds ++ [last])
      constructor
      · intro events _ _
        refine ⟨.recv s.calls (some sock) last, ?_, rfl, drained⟩
        rw [System.afterAnswers, lastTransfer_append fun event present =>
          (messageEvents_quiet present).1]
        rw [System.afterSplit, System.afterRecv, List.map_append, ← List.append_assoc]
        exact lastTransfer_concat rfl
      · rw [System.afterAnswers, acceptsSettle_append_of_all fun event present =>
          (messageEvents_quiet present).2]
        exact acceptsSettle_append_of_all settle
    · rw [died] at returned
      exact absurd returned (by simp)
  · rw [outcome] at returned
    obtain rfl := Except.ok.inj returned
    have settle := acceptsSettle_recvs s.calls sock (rounds ++ [last])
    constructor
    · intro events watched _
      exact absurd watched (by simp [System.record, System.afterRelease])
    · have released : AcceptsSettle [.epollCtl .del conn fd true,
          .closed (some sock), .deleted conn] := by
        simp [AcceptsSettle, Event.BreaksAccept]
      have used : AcceptsSettle [.useAfterFree conn] := by
        simp [AcceptsSettle, Event.BreaksAccept]
      apply (acceptsSettle_append_of_all used).trans
      apply (acceptsSettle_append_of_all released).trans
      exact acceptsSettle_append_of_all settle

/-- The sending loop returns without the connection, with an empty buffer, or
with nothing left to do. -/
theorem Registered.sendLoop_returns
    (registered : s.Registered fd conn sock)
    {results : List SendResult}
    (returned : s.sendLoop conn results = .ok s') :
    s'.interest fd = none ∨ (s'.memory conn).outbuffer = [] ∨
      ∃ errno, (errno = eagain ∨ errno = ewouldblock) ∧
        lastTransfer s'.log = some (.sendFailed s.calls (some sock) errno) := by
  induction results generalizing s with
  | nil => exact absurd returned (by simp [System.sendLoop])
  | cons result rest inductionHypothesis =>
      cases result with
      | sent count =>
          simp only [System.sendLoop, registered.touch, registered.socketOf,
            Text.erase_zero] at returned
          split at returned
          · split at returned
            · rename_i empty
              obtain rfl := Except.ok.inj returned
              right
              left
              simpa [setConnection] using empty
            · have after := registered.afterSend ((s.memory conn).outbuffer.drop count)
                [.sent s.calls (some sock) ((s.memory conn).outbuffer.take count)]
              have later := inductionHypothesis after returned
              exact later
          · exact absurd returned (by simp)
      | fail errno =>
          have failed := registered.record (.sendFailed s.calls (some sock) errno)
          simp only [System.sendLoop, registered.touch, registered.socketOf]
            at returned
          split at returned
          · rename_i later
            obtain rfl := Except.ok.inj returned
            exact Or.inr (Or.inr ⟨errno, later, lastTransfer_concat rfl⟩)
          · split at returned
            · have later := inductionHypothesis failed returned
              exact later
            · rw [failed.callExcept] at returned
              obtain rfl := Except.ok.inj returned
              left
              simp [System.afterRelease]

/-- `Sender` returns with writing disarmed or with nothing left to do. -/
theorem Registered.sender_returns
    (registered : s.Registered fd conn sock)
    {results : List SendResult}
    (returned : s.sender conn results = .ok s') :
    s'.LeavesNothing s.calls fd epollout ∧
      (AcceptsSettle s'.log ↔ AcceptsSettle s.log) := by
  rcases registered.sendLoop results with
    blocked | ⟨outbuffer, events, soft, _, looped | ⟨errno, hard, looped⟩⟩
  · rw [System.sender, blocked] at returned
    exact absurd returned (by simp [bind, Except.bind])
  · have after := registered.afterSend outbuffer events
    rw [registered.sender_of_sent looped] at returned
    obtain rfl := Except.ok.inj returned
    constructor
    · intro mask watched armed
      simp only [System.afterArm, Function.update_self, Option.some.injEq] at watched
      rcases registered.sendLoop_returns looped with
        unwatched | empty | ⟨errno, later, last⟩
      · have watched' := after.watched
        rw [unwatched] at watched'
        exact absurd watched' (by simp)
      · simp only [System.afterSend, Function.update_self] at empty
        rw [← watched, if_pos empty] at armed
        exact absurd armed (by decide)
      · refine ⟨.sendFailed s.calls (some sock) errno, ?_, rfl, later⟩
        rw [System.afterArm, lastTransfer_append (by simp [Event.isTransfer])]
        exact last
    · have rearmed : AcceptsSettle [.epollCtl .mod conn fd true] := by
        simp [AcceptsSettle, Event.BreaksAccept]
      rw [System.afterArm, acceptsSettle_append_of_all rearmed]
      exact acceptsSettle_append_of_all (acceptsSettle_soft soft)
  · rw [registered.sender_of_released looped] at returned
    exact absurd returned (by simp)

/-! ## One step -/

/-- The bits armed on a registered connection always contain reading. -/
theorem Serving.reading_armed
    (serving : s.Serving)
    {events : UInt32}
    (entry : s.connections fd = some conn)
    (watched : s.interest fd = some events) :
    events &&& epollin ≠ 0 := by
  rw [serving.armed fd conn events entry watched]
  split
  · decide
  · decide

theorem acceptsSettle_entered (fd : Fd) (conn : Ptr) :
    AcceptsSettle (s.entered fd conn).log ↔ AcceptsSettle s.log := by
  have invoked : AcceptsSettle [.invoked fd conn (s.atWait fd)] := by
    simp [AcceptsSettle, Event.BreaksAccept]
  rw [entered_log]
  exact acceptsSettle_append_of_all invoked

/-- A call of `Accepter` drains exactly if no `accept` broke. -/
theorem Called.accepter_drains_iff
    (called : s.Called .reading s.listensock conn)
    (tables : s.Tables)
    (tables' : s'.Tables)
    (serving' : s'.Serving)
    (settled : AcceptsSettle s.log)
    {results : List AcceptResult}
    (returned : (s.entered s.listensock conn).accepter conn results = .ok s') :
    s.Drains s' ↔ AcceptsSettle s'.log := by
  have live : (s.entered s.listensock conn).alive conn = true := by
    change s.advance.alive conn = true
    rw [advance_alive]
    exact (tables.entry _ conn called.entry).1
  have same := SameTables.entered s s.listensock conn
  have entered := tables.of_same same
  obtain ⟨errno, notInterrupted, calls, ⟨listening, last⟩, history⟩ :=
    entered.accepter_returns live returned
  rw [entered_calls] at calls last
  rw [history, acceptsSettle_entered, and_iff_right settled]
  obtain ⟨ev, rest, current, equal⟩ := called.current
  rw [Drains, current, List.head?_cons, calls, called.phase_eq]
  constructor
  · intro drains hard
    have settledNow : s'.Settled s.listensock := by
      rcases entered.accepter live results with blocked | ⟨s'', arrivals, returned'⟩
      · rw [blocked] at returned
        exact absurd returned (by simp)
      · rw [returned, Except.ok.injEq] at returned'
        rw [returned']
        exact (entered.settled_of_arrivals arrivals).2 _
          (called.settled.of_same same advance_atWait)
    obtain ⟨events, watched⟩ := Option.isSome_iff_exists.mp settledNow.watched
    obtain ⟨conn', entry⟩ := Option.isSome_iff_exists.mp
      (tables'.watched s.listensock settledNow.watched)
    have armed := serving'.reading_armed entry watched
    rw [← equal] at watched
    obtain ⟨event, isLast, _, again⟩ := drains rfl ev rfl events watched armed
    rw [last, Option.some.injEq] at isLast
    subst isLast
    rcases again with same | same
    · exact hard.1 same
    · exact hard.2.1 same
  · intro soft _ other isCurrent events _ _
    refine ⟨_, last, rfl, ?_⟩
    by_contra notAgain
    rw [Event.ReportsAgain, not_or] at notAgain
    exact soft ⟨notAgain.1, notAgain.2, notInterrupted⟩

/-- A step that returns drains exactly if no `accept` broke in it. -/
theorem Turn.drains_iff
    {outcome : Except Halt System}
    (turn : s.Turn outcome)
    (returned : outcome = .ok s')
    (tables : s.Tables)
    (tables' : s'.Tables)
    (serving' : s'.Serving)
    (settled : AcceptsSettle s.log) :
    s.Drains s' ↔ AcceptsSettle s'.log := by
  have handled {phase : Phase} {fd : Fd} {conn : Ptr}
      (called : s.Called phase fd conn)
      (leaves : s'.LeavesNothing (s.entered fd conn).calls fd phase.direction)
      (history : AcceptsSettle s'.log ↔ AcceptsSettle (s.entered fd conn).log) :
      s.Drains s' ↔ AcceptsSettle s'.log := by
    rw [history, acceptsSettle_entered]
    apply iff_of_true _ settled
    intro calls other isCurrent
    obtain ⟨ev, rest, current, rfl⟩ := called.current
    rw [current, List.head?_cons, Option.mem_some_iff] at isCurrent
    rw [calls, ← isCurrent, called.phase_eq, ← entered_calls]
    exact leaves
  have idle (calls : s'.calls = s.calls) (log : s'.log = s.log) :
      s.Drains s' ↔ AcceptsSettle s'.log := by
    rw [log]
    apply iff_of_true _ settled
    intro called
    rw [calls] at called
    exact absurd called (Nat.ne_of_lt (Nat.lt_succ_self s.calls))
  cases turn with
  | blocked => exact absurd returned (by simp)
  | wait batch empty possible =>
      obtain rfl := Except.ok.inj returned
      exact idle rfl rfl
  | skip busy =>
      obtain rfl := Except.ok.inj returned
      exact idle advance_calls advance_log
  | accept called results =>
      exact called.accepter_drains_iff tables tables' serving' settled returned
  | read called registered results =>
      obtain ⟨leaves, history⟩ := registered.entered.recver_returns returned
      exact handled called leaves history
  | write called registered results =>
      obtain ⟨leaves, history⟩ := registered.entered.sender_returns returned
      exact handled called leaves history

/-- A step in which the process dies accepts nothing. -/
theorem Move.acceptsSettle_of_aborted
    {reason : Reason}
    (moved : s.Move (.aborted reason s'))
    (settled : AcceptsSettle s.log) :
    AcceptsSettle s'.log := by
  cases moved with
  | @trap fd conn sock rounds last front message called registered =>
      rw [afterTrap_log]
      apply acceptsSettle_append.mpr
      refine ⟨settled, List.forall_mem_cons.mpr ⟨id, ?_⟩⟩
      apply acceptsSettle_append.mpr
      refine ⟨acceptsSettle_recvs _ _ _, acceptsSettle_append.mpr ⟨?_, ?_⟩⟩
      · exact fun event present => (messageEvents_quiet present).2
      · simp [AcceptsSettle, Event.BreaksAccept]
  | @broken fd conn sock outbuffer events errno called registered soft hard =>
      rw [afterBreak_log]
      apply acceptsSettle_append.mpr
      refine ⟨settled, List.forall_mem_cons.mpr ⟨id, ?_⟩⟩
      rw [List.append_assoc]
      apply acceptsSettle_append.mpr
      refine ⟨acceptsSettle_soft soft, ?_⟩
      simp [AcceptsSettle, Event.BreaksAccept]

end System

namespace Process

theorem eq_ok_of_after
    {outcome : Except Halt System}
    {s : System}
    (returned : after outcome = some (.running s)) :
    outcome = .ok s := by
  rcases outcome with (_ | _) | s'
  · exact absurd returned (by simp [after])
  · exact absurd returned (by simp [after])
  · rw [after, Option.some.injEq, running.injEq] at returned
    rw [returned]

/-! ## Whole runs -/

/-- Every handler call that returns in a run leaves nothing behind. -/
def DrainsAlong : List System.Label → Process → Prop
  | [], _ => True
  | _ :: _, .aborted _ _ => True
  | label :: labels, .running s => ∀ next, after (s.loopOnce label) = some next →
      (∀ s', next = .running s' → s.Drains s') ∧ DrainsAlong labels next

/-- What broke stays in the history. -/
theorem acceptsSettle_of_run
    {process result : Process}
    (reached : machine.Reachable process)
    {labels : List System.Label}
    (ran : run labels process = some result)
    (settled : AcceptsSettle result.state.log) :
    AcceptsSettle process.state.log := by
  induction labels generalizing process with
  | nil =>
      obtain rfl := Option.some.inj ran
      exact settled
  | cons label labels inductionHypothesis =>
      cases process with
      | running s =>
          obtain ⟨next, stepped, others⟩ := Option.bind_eq_some_iff.mp ran
          have later := inductionHypothesis
            (reached.step ⟨s, label, rfl, stepped⟩) others
          obtain ⟨tables, inOrder⟩ := orderly _ reached
          obtain ⟨events, log, _⟩ :=
            (tables.move (inOrder s rfl) label stepped).calm_or_fatal
          rw [log] at later
          exact (acceptsSettle_append.mp later).1
      | aborted reason s => exact absurd ran (by simp [run])

/-- One step of a run and the rest of it. -/
theorem drainsAlong_step
    {s : System}
    {label : System.Label}
    {next : Process}
    (reached : machine.Reachable (.running s))
    (settled : AcceptsSettle s.log)
    (stepped : after (s.loopOnce label) = some next) :
    (∀ s', next = .running s' → s.Drains s') ↔ AcceptsSettle next.state.log := by
  obtain ⟨tables, inOrder⟩ := orderly _ reached
  have reached' := reached.step ⟨s, label, rfl, stepped⟩
  cases next with
  | running s' =>
      have turn := tables.turn (inOrder s rfl) label
      have drains := turn.drains_iff (eq_ok_of_after stepped) tables
        (orderly _ reached').1 (serving _ reached' s' rfl) settled
      rw [state, ← drains]
      constructor
      · exact fun all => all s' rfl
      · rintro drained other equal
        rw [← running.inj equal]
        exact drained
  | aborted reason s' =>
      have moved := tables.move (inOrder s rfl) label stepped
      apply iff_of_true
      · intro other equal
        exact absurd equal (by simp)
      · exact moved.acceptsSettle_of_aborted settled

theorem drainsAlong_iff
    {process result : Process}
    (reached : machine.Reachable process)
    (settled : AcceptsSettle process.state.log)
    {labels : List System.Label}
    (ran : run labels process = some result) :
    DrainsAlong labels process ↔ AcceptsSettle result.state.log := by
  induction labels generalizing process with
  | nil =>
      obtain rfl := Option.some.inj ran
      exact iff_of_true trivial settled
  | cons label labels inductionHypothesis =>
      cases process with
      | aborted reason s => exact absurd ran (by simp [run])
      | running s =>
          obtain ⟨next, stepped, others⟩ := Option.bind_eq_some_iff.mp ran
          have reached' := reached.step ⟨s, label, rfl, stepped⟩
          have first := drainsAlong_step reached settled stepped
          constructor
          · intro drains
            obtain ⟨now, later⟩ := drains next stepped
            exact (inductionHypothesis reached' (first.mp now) others).mp later
          · intro quiet other stepped'
            rw [stepped, Option.some.injEq] at stepped'
            subst stepped'
            have quietNow := acceptsSettle_of_run reached' others quiet
            exact ⟨first.mpr quietNow,
              (inductionHypothesis reached' quietNow others).mpr quiet⟩

theorem acceptsSettle_create (listensock : Fd) (added : Bool) :
    AcceptsSettle (System.create listensock added).log := by
  rw [System.create_eq]
  simp [AcceptsSettle, Event.BreaksAccept]

/-- In a run of the server every handler call drains its descriptor exactly if no
`accept` failed with an error other than an empty queue or an interruption. -/
theorem drained_iff_accepts_settle
    {listensock : Fd}
    {added : Bool}
    {labels : List System.Label}
    {process : Process}
    (ran : run labels (.running (System.create listensock added)) = some process) :
    DrainsAlong labels (.running (System.create listensock added)) ↔
      ∀ event ∈ process.state.log, ¬event.BreaksAccept :=
  drainsAlong_iff (reachable_create listensock added)
    (acceptsSettle_create listensock added) ran

theorem drained_answersInPart :
    DrainsAlong answersInPart (.running (System.create 3 true)) := by
  have ended : (run answersInPart (.running (System.create 3 true))).map
      (fun process => decide (AcceptsSettle process.state.log)) = some true := by
    decide +kernel
  obtain ⟨process, ran, settled⟩ := Option.map_eq_some_iff.mp ended
  exact (drained_iff_accepts_settle ran).mpr (of_decide_eq_true settled)

/-- The first connection is aborted before it is accepted, and others may wait
behind it. -/
def firstAborted : List System.Label :=
  [.wait [⟨3, epollin⟩], .next ⟨[.fail 103], [], []⟩]

/-- `Accepter` returns after `ECONNABORTED` with the listening socket armed and
without having seen the end of its queue. -/
theorem clients_left_behind :
    ∃ process, run firstAborted (.running (System.create 3 true)) = some process ∧
      process.reason = none ∧ process.state.interest 3 = some readOnly ∧
      ¬DrainsAlong firstAborted (.running (System.create 3 true)) := by
  have ended : (run firstAborted (.running (System.create 3 true))).map
      (fun process => (process.reason, process.state.interest 3,
        decide (AcceptsSettle process.state.log))) =
      some (none, some readOnly, false) := by
    decide +kernel
  obtain ⟨process, ran, outcome⟩ := Option.map_eq_some_iff.mp ended
  simp only [Prod.mk.injEq, decide_eq_false_iff_not] at outcome
  obtain ⟨alive, armed, broken⟩ := outcome
  refine ⟨process, ran, alive, armed, fun drains => broken ?_⟩
  exact (drainsAlong_iff (reachable_create 3 true) (acceptsSettle_create 3 true)
    ran).mp drains

end Process

end Reactor
end LearnInLinux
