import LearnInLinux.Reactor.Service

/-!
# Requests in front of the end of the stream

When `recv` returns 0 the connection is released inside the reading loop, and
what the same loop had read before is not split any more. So the messages served
are those of the earlier reading loops. This module follows the history of a
socket through its release and says for which streams that is every message.
-/

namespace LearnInLinux
namespace Reactor

open Delimited (messages remainder)

/-! ## Streams -/

/-- The messages of the text of the older chunks are all the messages received,
up to order, exactly if the newer chunks close no message and no message has a
NUL byte. -/
theorem perm_messages_iff (older newer : List Chunk) :
    (messages sepChar (chunkText older)).Perm
        (messages sepChar (chunkBytes older ++ chunkBytes newer)) ↔
      sepChar ∉ chunkBytes newer ∧
        ∀ message ∈ messages sepChar (chunkBytes older ++ chunkBytes newer),
          0 ∉ message := by
  constructor
  · intro perm
    constructor
    · -- a separator in the newer chunks is one more message
      have kept : (chunkText older).count sepChar ≤ (chunkBytes older).count sepChar :=
        (chunkText_sublist older).count_le sepChar
      have lengths := perm.length_eq
      rw [Delimited.length_messages, Delimited.length_messages, List.count_append]
        at lengths
      rw [← List.count_eq_zero]
      omega
    · intro message present nul
      have served := perm.mem_iff.mpr present
      exact nul_not_mem_chunkText older
        ((Delimited.splits_messages _).mem_stream served nul)
  · rintro ⟨clean, textOnly⟩
    rw [Delimited.messages_append_of_clean _ clean] at textOnly ⊢
    have cut : Delimited.Splits sepChar (chunkBytes older)
        (messages sepChar (chunkBytes older)) (remainder sepChar (chunkBytes older)) :=
      Delimited.splits_messages (chunkBytes older)
    have front : 0 ∉ ((messages sepChar (chunkBytes older)).map
        (· ++ [sepChar])).flatten := by
      simp only [List.mem_flatten, List.mem_map, not_exists, not_and]
      rintro _ ⟨message, present, rfl⟩
      rw [List.mem_append, not_or]
      exact ⟨textOnly message present, by decide⟩
    obtain ⟨kept, text_eq, sublist⟩ :=
      chunkText_of_clean_front cut.wire_eq.symm front
    have keptClean : sepChar ∉ kept := fun present =>
      cut.rest_clean (sublist.subset present)
    have textCut : Delimited.Splits sepChar (chunkText older)
        (messages sepChar (chunkBytes older)) kept :=
      ⟨text_eq.symm, cut.messages_clean, keptClean⟩
    rw [← textCut.eq_messages.1]

/-! ## The history of a socket whose stream has ended -/

/-- Before the call that saw the end of the stream the messages of the text were
served; that call only adds results of `recv` and the release. -/
structure Ended
    (events : List Event) (sock : SockId) (call : Nat)
    (older : List Event) (rounds : List RecvResult) : Prop where
  split : events = older ++ (rounds.map (Event.recv call (some sock)) ++
    [.recv call (some sock) .eof, .closed (some sock)])
  served : delivered older = messages sepChar (text older)
  earlier : ∀ call' sock' result, .recv call' sock' result ∈ older → call' < call
  notClosed : .closed (some sock) ∉ older

namespace System

/-- What the history says about open sockets and about ended streams. -/
structure Endings (s : System) : Prop where
  recent : ∀ sock call sock' result, .recv call sock' result ∈ s.history sock →
    call ≤ s.calls
  open_ : ∀ fd sock, s.socket fd = some sock →
    ∀ call, .recv call (some sock) .eof ∉ s.history sock
  ended : ∀ sock call, .recv call (some sock) .eof ∈ s.history sock →
    sock < s.nextSock ∧ ∃ older rounds, Ended (s.history sock) sock call older rounds

section Kept

variable {s s' : System} {fd : Fd} {conn : Ptr} {sock : SockId} {next : Process}

/-- No history changed, and what is open now was open or is new. -/
theorem Endings.of_history
    (endings : s.Endings)
    (history : ∀ sock, s'.history sock = s.history sock)
    (calls : s.calls ≤ s'.calls)
    (nextSock : s.nextSock ≤ s'.nextSock)
    (opens : ∀ fd sock, s'.socket fd = some sock →
      s.socket fd = some sock ∨ s.nextSock ≤ sock) :
    s'.Endings where
  recent sock call sock' result present := by
    rw [history] at present
    exact (endings.recent sock call sock' result present).trans calls
  open_ fd sock isOpen call present := by
    rw [history] at present
    rcases opens fd sock isOpen with wasOpen | fresh
    · exact endings.open_ fd sock wasOpen call present
    · exact absurd (endings.ended sock call present).1 (Nat.not_lt.mpr fresh)
  ended sock call present := by
    rw [history] at present ⊢
    obtain ⟨bound, ended⟩ := endings.ended sock call present
    exact ⟨Nat.lt_of_lt_of_le bound nextSock, ended⟩

/-- A call on one connection only changes what is known about its socket. -/
theorem Endings.of_frame
    (endings : s.Endings)
    (tables : s.Tables)
    (registered : s.Registered fd conn sock)
    (frame : Frame s s' fd conn sock)
    {events : List Event}
    (history : s'.history sock = s.history sock ++ events)
    (now : s'.socket fd = none ∨ s'.socket fd = some sock)
    (recent : ∀ call sock' result, .recv call sock' result ∈ events →
      call = s.calls + 1)
    (ended : ∀ call, .recv call (some sock) .eof ∈ events →
      s'.socket fd = none ∧
        ∃ older rounds, Ended (s'.history sock) sock call older rounds) :
    s'.Endings := by
  have bound := tables.socket_lt fd sock registered.opened
  have noEof := endings.open_ fd sock registered.opened
  have newEof {call : Nat}
      (present : .recv call (some sock) .eof ∈ s'.history sock) :
      .recv call (some sock) .eof ∈ events := by
    rw [history, List.mem_append] at present
    exact present.resolve_left (noEof call)
  refine ⟨?_, ?_, ?_⟩
  · intro other call sock' result present
    rw [frame.calls]
    by_cases same : other = sock
    · subst same
      rw [history, List.mem_append] at present
      rcases present with old | new
      · exact Nat.le_succ_of_le (endings.recent other call sock' result old)
      · exact Nat.le_of_eq (recent call sock' result new)
    · rw [frame.history other same] at present
      exact Nat.le_succ_of_le (endings.recent other call sock' result present)
  · intro fd' other isOpen call present
    by_cases sameFd : fd' = fd
    · subst sameFd
      rcases now with closed | opened
      · rw [closed] at isOpen
        exact absurd isOpen (by simp)
      · rw [opened, Option.some.injEq] at isOpen
        subst isOpen
        rw [(ended call (newEof present)).1] at opened
        exact absurd opened (by simp)
    · rw [frame.socket fd' sameFd] at isOpen
      have different : other ≠ sock := by
        rintro rfl
        exact sameFd (tables.socket_inj fd' fd other isOpen registered.opened)
      rw [frame.history other different] at present
      exact endings.open_ fd' other isOpen call present
  · intro other call present
    by_cases same : other = sock
    · subst same
      refine ⟨?_, (ended call (newEof present)).2⟩
      rw [frame.nextSock]
      exact bound
    · rw [frame.history other same] at present ⊢
      rw [frame.nextSock]
      exact endings.ended other call present

theorem Endings.entered
    (endings : s.Endings)
    (fd : Fd) (conn : Ptr) :
    (s.entered fd conn).Endings := by
  refine endings.of_history ?_ ?_ ?_ ?_
  · intro sock
    rw [history_of_log (entered_log s fd conn), about_cons_of_none rfl]
    simp
  · rw [entered_calls]
    exact Nat.le_succ s.calls
  · exact Nat.le_of_eq (entered_nextSock s fd conn).symm
  · intro fd' sock isOpen
    rw [(SameTables.entered s fd conn).socket] at isOpen
    exact Or.inl isOpen

theorem Endings.arrivals
    (endings : s.Endings)
    (arrivals : Arrivals conn s s') :
    s'.Endings := by
  induction arrivals with
  | done s => exact endings
  | failed errno later inductionHypothesis =>
      refine inductionHypothesis (endings.of_history ?_ (Nat.le_refl _)
        (Nat.le_refl _) fun _ _ => Or.inl)
      exact fun _ => history_failedAccept _ errno
  | @arrived s s' fd added closed later inductionHypothesis =>
      refine inductionHypothesis (endings.of_history ?_ (Nat.le_refl _)
        (Nat.le_succ _) ?_)
      · exact fun _ => history_afterArrive added
      · intro fd' sock isOpen
        by_cases same : fd' = fd
        · subst same
          rw [afterArrive_socket_self, Option.some.injEq] at isOpen
          exact Or.inr (Nat.le_of_eq isOpen)
        · rw [afterArrive_socket_of_ne same] at isOpen
          exact Or.inl isOpen

/-- The results of a loop that drained the socket contain no end of stream. -/
theorem eof_not_mem_of_drained
    {rounds : List RecvResult}
    {last : RecvResult}
    (continued : ∀ result ∈ rounds, result.Continues)
    (drained : last.Drained) :
    .eof ∉ rounds ++ [last] := fun present =>
  RecvResult.not_closes_of_drained continued drained .eof present trivial

/-- The call that sees the end of the stream closes the history. -/
theorem ended_afterClose
    (serving : s.Serving)
    (ledger : s.Ledger)
    (endings : s.Endings)
    (registered : s.Registered fd conn sock)
    (rounds : List RecvResult) :
    Ended ((s.afterClose fd conn sock (rounds ++ [.eof])).history sock) sock
      (s.calls + 1) (s.history sock) rounds where
  split := by
    rw [history_afterClose]
    simp
  served :=
    (serving.balanced fd conn sock registered.entry registered.opened).delivered
  earlier call' sock' result present :=
    Nat.lt_succ_of_le (endings.recent sock call' sock' result present)
  notClosed present :=
    (ledger.closed sock (List.mem_of_mem_filter present)).2 fd registered.opened

/-- A loop that ends with the stream closes the connection behind its last call. -/
theorem Endings.afterClose
    (endings : s.Endings)
    (tables : s.Tables)
    (serving : s.Serving)
    (ledger : s.Ledger)
    (registered : s.Registered fd conn sock)
    {rounds : List RecvResult}
    {last : RecvResult}
    (continued : ∀ result ∈ rounds, result.Continues) :
    (s.afterClose fd conn sock (rounds ++ [last])).Endings := by
  have gone : (s.afterClose fd conn sock (rounds ++ [last])).socket fd = none := by
    simp [System.afterClose, System.afterRelease, System.record]
  refine endings.of_frame tables registered (Frame.afterClose _)
    (history_afterClose _) (Or.inl gone) ?_ ?_
  · intro call sock' result present
    exact (mem_recvs_of_append rfl present).1
  · intro call present
    refine ⟨gone, s.history sock, rounds, ?_⟩
    obtain ⟨rfl, _, isResult⟩ := mem_recvs_of_append rfl present
    -- only the last result ends the loop
    have isLast : last = .eof := by
      rcases List.mem_append.mp isResult with inRounds | isLast
      · exact absurd (continued .eof inRounds) id
      · exact (List.mem_singleton.mp isLast).symm
    rw [isLast]
    exact ended_afterClose serving ledger endings registered rounds

/-- A failed `send` closes the connection without a `recv`. -/
theorem Endings.afterBreak
    {events : List Event}
    {outbuffer : Bytes}
    {errno : Errno}
    (endings : s.Endings)
    (tables : s.Tables)
    (registered : s.Registered fd conn sock)
    (soft : ∀ event ∈ events, SoftSend (s.calls + 1) sock event) :
    (s.afterBreak fd conn sock outbuffer
      (events ++ [.sendFailed (s.calls + 1) (some sock) errno])).Endings := by
  have all : ∀ event ∈ events ++ [.sendFailed (s.calls + 1) (some sock) errno],
      event.socket = some sock := by
    simp only [List.forall_mem_append, List.forall_mem_singleton]
    exact ⟨fun event present => (soft event present).socket, rfl⟩
  have noRecv {call : Nat} {sock' : Option SockId} {result : RecvResult} :
      .recv call sock' result ∉
        (events ++ [.sendFailed (s.calls + 1) (some sock) errno]) ++
          [.closed (some sock)] := by
    intro present
    have sent : .recv call sock' result ∈ events := by simpa using present
    exact absurd (soft _ sent) (by simp [SoftSend])
  refine endings.of_frame tables registered (Frame.afterBreak _ all)
    (history_afterBreak _ all) ?_ ?_ ?_
  · left
    simp [System.afterBreak, System.afterRelease, System.record]
  · exact fun call sock' result present => absurd present noRecv
  · exact fun call present => absurd present noRecv

theorem Move.endings
    (moved : s.Move next)
    (tables : s.Tables)
    (serving : s.Serving)
    (ledger : s.Ledger)
    (endings : s.Endings) :
    next.state.Endings := by
  cases moved with
  | wait batch idle possible =>
      exact endings.of_history (fun _ => rfl) (Nat.le_refl _) (Nat.le_refl _)
        fun _ _ => Or.inl
  | skip busy =>
      refine endings.of_history ?_ (Nat.le_of_eq advance_calls.symm)
        (Nat.le_of_eq (SameTables.advance s).nextSock.symm) ?_
      · intro sock
        rw [Process.state, history, advance_log]
        rfl
      · intro fd sock isOpen
        exact Or.inl (by rwa [Process.state, advance_socket] at isOpen)
  | accept called arrivals => exact (endings.entered _ _).arrivals arrivals
  | @read fd conn sock rounds last called registered continued drained survived =>
      refine endings.of_frame tables registered (Frame.afterRead _)
        (history_afterRead _) ?_ ?_ ?_
      · right
        rw [Process.state, (SameTables.afterRead registered _).socket]
        exact registered.opened
      · intro call sock' result present
        exact (mem_recvs_of_append (received_messages _) present).1
      · intro call present
        exact absurd (mem_recvs_of_append (received_messages _) present).2.2
          (eof_not_mem_of_drained continued drained)
  | @trap fd conn sock rounds last front message called registered continued drained =>
      refine endings.of_frame tables registered (Frame.afterTrap _ _ _)
        (history_afterTrap _ _ _) ?_ ?_ ?_
      · right
        change s.advance.socket fd = some sock
        rw [advance_socket]
        exact registered.opened
      · intro call sock' result present
        exact (mem_recvs_of_append (received_messages _) present).1
      · intro call present
        exact absurd (mem_recvs_of_append (received_messages _) present).2.2
          (eof_not_mem_of_drained continued drained)
  | close called registered continued closes =>
      exact endings.afterClose tables serving ledger registered continued
  | @write fd conn sock outbuffer events called registered soft conserved =>
      refine endings.of_frame tables registered (Frame.afterWrite _ soft)
        (history_afterWrite _ soft) ?_ ?_ ?_
      · right
        rw [Process.state, (SameTables.afterWrite registered _ _).socket]
        exact registered.opened
      · intro call sock' result present
        exact absurd (soft _ present) (by simp [SoftSend])
      · intro call present
        exact absurd (soft _ present) (by simp [SoftSend])
  | broken called registered soft hard => exact endings.afterBreak tables registered soft

end Kept

theorem create_endings (listensock : Fd) (added : Bool) :
    (create listensock added).Endings := by
  constructor <;> simp [history_create]

end System

/-! ## What was served before the release -/

/-- The events before the release of a socket. -/
def untilClosed (sock : SockId) (events : List Event) : List Event :=
  events.takeWhile fun event => event ≠ .closed (some sock)

/-- The messages among the received bytes are those passed on before the release,
each as often as it was received. -/
def ServedBeforeClose (sock : SockId) (events : List Event) : Prop :=
  (delivered (about sock (untilClosed sock events))).Perm
    (messages sepChar (receivedBytes (about sock events)))

instance (sock : SockId) (events : List Event) :
    Decidable (ServedBeforeClose sock events) := by
  unfold ServedBeforeClose
  infer_instance

theorem about_untilClosed (sock : SockId) (events : List Event) :
    about sock (untilClosed sock events) = untilClosed sock (about sock events) := by
  induction events with
  | nil => rfl
  | cons event events inductionHypothesis =>
      unfold about untilClosed at inductionHypothesis ⊢
      by_cases closes : event = .closed (some sock)
      · subst closes
        simp [Event.socket]
      · by_cases isAbout : event.socket = some sock
        · simp only [List.takeWhile_cons, List.filter_cons, closes, isAbout, ne_eq,
            not_false_eq_true, decide_true, if_true, inductionHypothesis]
        · simp only [List.takeWhile_cons, List.filter_cons, closes, isAbout, ne_eq,
            not_false_eq_true, decide_true, decide_false, if_true,
            Bool.false_eq_true, if_false, inductionHypothesis]

namespace Ended

variable {events older : List Event} {sock : SockId} {call : Nat}
  {rounds : List RecvResult}

theorem delivered_untilClosed (ended : Ended events sock call older rounds) :
    delivered (untilClosed sock events) = messages sepChar (text older) := by
  have front : ∀ event ∈ older ++ (rounds.map (Event.recv call (some sock)) ++
      [.recv call (some sock) .eof]), event ≠ .closed (some sock) := by
    simp only [List.forall_mem_append, List.forall_mem_singleton, List.forall_mem_map]
    refine ⟨fun event present equal => ended.notClosed (equal ▸ present), ?_, ?_⟩
    · exact fun result _ => by simp
    · simp
  have cut : untilClosed sock events =
      older ++ (rounds.map (Event.recv call (some sock)) ++
        [.recv call (some sock) .eof]) := by
    have split : events = (older ++ (rounds.map (Event.recv call (some sock)) ++
        [.recv call (some sock) .eof])) ++ [.closed (some sock)] := by
      rw [ended.split]
      simp
    rw [split, untilClosed, List.takeWhile_append_of_pos (by simpa using front)]
    simp
  rw [cut, ← ended.served]
  simp [delivered]

theorem receivedBytes_eq (ended : Ended events sock call older rounds) :
    receivedBytes events =
      receivedBytes older ++ chunkBytes (chunksOf rounds) := by
  rw [ended.split]
  simp [receivedBytes, received]

/-- The last call received what its own loop read. -/
theorem receivedIn_eq (ended : Ended events sock call older rounds) :
    receivedIn call events = rounds ++ [.eof] := by
  have none : receivedIn call older = [] := by
    rw [receivedIn, List.filterMap_eq_nil_iff]
    intro event present
    cases event with
    | recv call' sock' result =>
        exact if_neg (Nat.ne_of_lt (ended.earlier call' sock' result present))
    | _ => rfl
  rw [ended.split, receivedIn_append, none]
  simp [receivedIn, List.filterMap_map]

end Ended

namespace Process

theorem endings : machine.Invariant fun process => process.state.Endings := by
  refine invariant_of_moves System.create_endings ?_
  intro s next reached tables pending endings moved
  exact moved.endings tables (serving _ reached s rfl) (ledger _ reached) endings

/-- When the stream of a client has ended, every message received on it was
passed on exactly once before the release if and only if the reading loop that
saw the end read no separator and no message has a NUL byte. -/
theorem servedBeforeClose_iff
    {process : Process}
    (reached : machine.Reachable process)
    {call : Nat}
    {sock : SockId}
    (ended : .recv call (some sock) .eof ∈ process.state.log) :
    ServedBeforeClose sock process.state.log ↔
      sepChar ∉ chunkBytes (chunksOf
        (receivedIn call (about sock process.state.log))) ∧
      ∀ message ∈ messages sepChar (receivedBytes (about sock process.state.log)),
        0 ∉ message := by
  have present : .recv call (some sock) .eof ∈ process.state.history sock :=
    List.mem_filter.mpr ⟨ended, by simp [Event.socket]⟩
  obtain ⟨_, older, rounds, last⟩ :=
    (endings process reached).ended sock call present
  change Ended (about sock process.state.log) sock call older rounds at last
  rw [ServedBeforeClose, about_untilClosed, last.delivered_untilClosed,
    last.receivedBytes_eq, last.receivedIn_eq, chunksOf_append, chunksOf_eof,
    List.append_nil]
  exact perm_messages_iff (chunksOf (received older)) (chunksOf rounds)

/-- The client asks, and ends its stream after the request was served. -/
def asksThenEnds : List System.Label :=
  asks ++ [.next ⟨[], [], [.sent 4]⟩, .wait [⟨5, epollin⟩], .next ⟨[], [.eof], []⟩]

theorem servedBeforeClose_asksThenEnds :
    ∃ process, run asksThenEnds (.running (System.create 3 true)) = some process ∧
      ServedBeforeClose 1 process.state.log := by
  have ended : (run asksThenEnds (.running (System.create 3 true))).map
      (fun process => decide (.recv 4 (some 1) .eof ∈ process.state.log ∧
        (sepChar ∉ chunkBytes (chunksOf
          (receivedIn 4 (about 1 process.state.log))) ∧
        ∀ message ∈ messages sepChar (receivedBytes (about 1 process.state.log)),
          0 ∉ message))) = some true := by
    decide +kernel
  obtain ⟨process, ran, outcome⟩ := Option.map_eq_some_iff.mp ended
  have facts := of_decide_eq_true outcome
  have reached := reachable_of_run (reachable_create 3 true) ran
  exact ⟨process, ran, (servedBeforeClose_iff reached facts.1).mpr facts.2⟩

/-- The request and the end of the stream are seen in one reading loop. -/
def asksAndEnds : List System.Label :=
  [.wait [⟨3, epollin⟩],
    .next ⟨[.sock 5 true, .fail eagain], [], []⟩,
    .next ⟨[], [], []⟩,
    .wait [⟨5, epollin⟩],
    .next ⟨[], [.data onePlusTwo, .eof], []⟩]

/-- The request `1 + 2X` in front of the end of the stream is never served. -/
theorem request_lost_at_end :
    ∃ process, machine.Reachable process ∧
      run asksAndEnds (.running (System.create 3 true)) = some process ∧
      (∃ call, .recv call (some 1) .eof ∈ process.state.log) ∧
      delivered process.state.log = [] ∧
      ¬ServedBeforeClose 1 process.state.log := by
  have ended : (run asksAndEnds (.running (System.create 3 true))).map
      (fun process => decide (.recv 2 (some 1) .eof ∈ process.state.log ∧
        delivered process.state.log = [] ∧
        ¬ServedBeforeClose 1 process.state.log)) = some true := by
    decide +kernel
  obtain ⟨process, ran, outcome⟩ := Option.map_eq_some_iff.mp ended
  have facts := of_decide_eq_true outcome
  exact ⟨process, reachable_of_run (reachable_create 3 true) ran, ran, ⟨2, facts.1⟩,
    facts.2⟩

end Process

end Reactor
end LearnInLinux
