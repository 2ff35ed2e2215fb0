import LearnInLinux.HttpServer.Handler
import LearnInLinux.Library.Descriptors

/-!
# A process for every connection

`Start` forks a child for each connection that it accepts. The child is born with a copy
of all descriptors of the server, gives up the listening socket and handles one request;
the server gives up the connection. A client sees the end of its connection when no
process holds it any more, so the question is who holds what, in all runs of the server
and its children.
-/

namespace LearnInLinux
namespace HttpServer

open Descriptors

/-- Where `Start` is, with the connection of this turn of its loop. -/
inductive StartAt
  | accept
  | fork (number : Nat) (sockfd : Fd)
  | close (number : Nat) (sockfd : Fd)

/-- The connection that `Start` has in hand. -/
def StartAt.holds : StartAt → Option (Nat × Fd)
  | .accept => none
  | .fork number sockfd => some (number, sockfd)
  | .close number sockfd => some (number, sockfd)

/-- Where a child is. -/
inductive ChildAt
  | closeListen (sockfd : Fd)
  | recv (sockfd : Fd)
  | send (sockfd : Fd) (response : Bytes)
  /-- The handler has left the range of a vector, or has read what nobody wrote. -/
  | undefined (sockfd : Fd)
  | closeSock (sockfd : Fd)
  | exit
  | exited

/-- The socket that the child works with. -/
def ChildAt.sock : ChildAt → Option Fd
  | .closeListen sockfd => some sockfd
  | .recv sockfd => some sockfd
  | .send sockfd _ => some sockfd
  | .undefined sockfd => some sockfd
  | .closeSock sockfd => some sockfd
  | .exit => none
  | .exited => none

/-- The child has not yet given up the listening socket. -/
def ChildAt.listens : ChildAt → Bool
  | .closeListen _ => true
  | _ => false

/-- The handler has returned, or the child has ended. -/
def ChildAt.handled : ChildAt → Bool
  | .closeSock _ => true
  | .exit => true
  | .exited => true
  | _ => false

/-- A child with its own descriptors. -/
structure Child where
  table : Table
  point : ChildAt

/-- What was done to a connection. -/
structure Link where
  received : List Received
  sent : List Bytes

/-- Nothing has been done to a connection that was accepted just now. -/
def Link.new : Link where
  received := []
  sent := []

/-- A call on a socket. -/
inductive Call
  | recv (received : Received)
  | send (bytes : Bytes)

/-- A call of `HandlerHttp` on the connection. -/
def Link.record (link : Link) : Call → Link
  | .recv received => { link with received := link.received ++ [received] }
  | .send bytes => { link with sent := link.sent ++ [bytes] }

/-- The parent, its children in the order of their connections, and the connections. -/
structure State where
  table : Table
  main : StartAt
  accepted : Nat
  child : Nat → Option Child
  link : Nat → Link

/-- What the next step of a child is, as far as the child does not decide it. -/
inductive ChildAction
  | next
  | recv (received : Received)
  /-- The child gets a signal: `SIGPIPE` from a `send`, or one for a wrong access. -/
  | killed
  /-- Something is sent after a wrong access. -/
  | garbage (bytes : Bytes)
  /-- The handler returns after a wrong access. -/
  | survives

/-- A step of the parent or of a child, with what the kernel returns. -/
inductive Action
  | accept (result : Option Fd)
  | fork (created : Bool)
  | close
  | child (number : Nat) (action : ChildAction)

/-- The answer of the handler to what `recv` returns. -/
def answer (files : Bytes → Option Bytes) : Received → Option Outcome
  | .data request => handlerHttpRequest files request
  | _ => none

/-- The end of a process closes what it has open. -/
def Child.ended : Child where
  table := fun _ => none
  point := .exited

/-- A step of a child, with the call that it makes on a socket. -/
def Child.step
    (files : Bytes → Option Bytes)
    (listensock : Fd)
    (action : ChildAction)
    (child : Child) : Option (Child × Option (Fd × Call)) :=
  match child.point, action with
  | .closeListen sockfd, .next => some (⟨child.table.close listensock, .recv sockfd⟩, none)
  | .recv sockfd, .recv received =>
      match answer files received with
      | some outcome =>
          some ({ child with point := .send sockfd outcome.response },
            some (sockfd, .recv received))
      | none =>
          some ({ child with point := .undefined sockfd }, some (sockfd, .recv received))
  | .send sockfd response, .next =>
      some ({ child with point := .closeSock sockfd }, some (sockfd, .send response))
  | .send _ _, .killed => some (.ended, none)
  | .undefined sockfd, .garbage bytes => some (child, some (sockfd, .send bytes))
  | .undefined _, .killed => some (.ended, none)
  | .undefined sockfd, .survives => some ({ child with point := .closeSock sockfd }, none)
  | .closeSock sockfd, .next => some (⟨child.table.close sockfd, .exit⟩, none)
  | .exit, .next => some (.ended, none)
  | _, _ => none

namespace State

/-- The connection behind the descriptor takes note of the call. -/
def record (table : Table) (call : Option (Fd × Call)) (s : State) : State :=
  match call with
  | none => s
  | some (sockfd, call) =>
      { s with link := table.onLink sockfd (fun link => link.record call) s.link }

/-- A step of `Start` or of a child. `accept` gives out descriptors that are not open. -/
def act
    (files : Bytes → Option Bytes)
    (listensock : Fd)
    (action : Action)
    (s : State) : Option State :=
  match action with
  | .accept result =>
      match s.main, result with
      | .accept, none => some s
      | .accept, some sockfd =>
          if s.table listensock = some .listen ∧ s.table sockfd = none then
            some { s with
              table := s.table.accept sockfd s.accepted
              main := .fork s.accepted sockfd
              accepted := s.accepted + 1 }
          else none
      | _, _ => none
  | .fork created =>
      match s.main with
      | .fork number sockfd =>
          some { s with
            main := .close number sockfd
            child :=
              if created then
                Function.update s.child number (some ⟨s.table, .closeListen sockfd⟩)
              else s.child }
      | _ => none
  | .close =>
      match s.main with
      | .close _ sockfd => some { s with main := .accept, table := s.table.close sockfd }
      | _ => none
  | .child number action =>
      match s.child number with
      | none => none
      | some child =>
          match child.step files listensock action with
          | none => none
          | some (after, call) =>
              some { s.record child.table call with
                child := Function.update s.child number (some after) }

end State

/-- In front of `Start`, with any descriptors besides the listening socket. -/
structure Starts (listensock : Fd) (s : State) : Prop where
  listening : ∀ fd, s.table fd = some .listen ↔ fd = listensock
  noLink : ∀ fd number, s.table fd ≠ some (.link number)
  main : s.main = .accept
  accepted : s.accepted = 0
  child : s.child = fun _ => none
  link : s.link = fun _ => .new

/-- All runs of the server and its children, with the readable files by their paths. -/
def machine (files : Bytes → Option Bytes) (listensock : Fd) : Transition.Machine State :=
  .ofStep (Starts listensock) (State.act files listensock)

/-! ## A child and its connection -/

/-- What is received and sent on the connection of a child. -/
inductive Answers (files : Bytes → Option Bytes) : ChildAt → Link → Prop
  | closeListen {sockfd : Fd} : Answers files (.closeListen sockfd) .new
  | recv {sockfd : Fd} : Answers files (.recv sockfd) .new
  | send {sockfd : Fd} {received : Received} {outcome : Outcome}
      (answered : answer files received = some outcome) :
      Answers files (.send sockfd outcome.response) ⟨[received], []⟩
  | undefined {sockfd : Fd} {received : Received} {sent : List Bytes}
      (unanswered : answer files received = none) :
      Answers files (.undefined sockfd) ⟨[received], sent⟩
  | sent {point : ChildAt} {received : Received} {outcome : Outcome}
      (handled : point.handled = true)
      (answered : answer files received = some outcome) :
      Answers files point ⟨[received], [outcome.response]⟩
  | survived {point : ChildAt} {received : Received} {sent : List Bytes}
      (handled : point.handled = true)
      (unanswered : answer files received = none) :
      Answers files point ⟨[received], sent⟩
  | killed {received : Received} {outcome : Outcome}
      (answered : answer files received = some outcome) :
      Answers files .exited ⟨[received], []⟩

/-- The child has the connection of its number and no other one, and the listening socket
only at its start. -/
structure Child.Sound
    (files : Bytes → Option Bytes)
    (listensock : Fd)
    (number : Nat)
    (child : Child)
    (link : Link) : Prop where
  holds : ∀ fd other, child.table fd = some (.link other) ↔
    other = number ∧ child.point.sock = some fd
  listening : ∀ fd, child.table fd = some .listen ↔
    fd = listensock ∧ child.point.listens = true
  answers : Answers files child.point link

section Children

variable {files : Bytes → Option Bytes} {listensock sockfd : Fd} {number : Nat}
  {table : Table} {child : Child} {link : Link}

/-- The child goes on with the descriptors that it has. -/
theorem Child.Sound.go
    (sound : child.Sound files listensock number link)
    (point : ChildAt)
    (sameSock : point.sock = child.point.sock)
    (sameStart : point.listens = child.point.listens)
    {after : Link}
    (answers : Answers files point after) :
    Child.Sound files listensock number { child with point } after where
  holds fd other := by
    rw [sound.holds, sameSock]
  listening fd := by
    rw [sound.listening, sameStart]
  answers := answers

theorem Child.Sound.end (answers : Answers files .exited link) :
    Child.ended.Sound files listensock number link where
  holds fd other := by
    apply iff_of_false (Option.some_ne_none _).symm
    exact fun held => Option.some_ne_none fd held.2.symm
  listening fd := by
    apply iff_of_false (Option.some_ne_none _).symm
    exact fun held => Bool.false_ne_true held.2
  answers := answers

theorem Child.Sound.closeListen
    (sound : Child.Sound files listensock number ⟨table, .closeListen sockfd⟩ link) :
    Child.Sound files listensock number ⟨table.close listensock, .recv sockfd⟩ link where
  holds fd other := by
    have listening := (sound.listening listensock).mpr ⟨rfl, rfl⟩
    rw [Table.close_eq_some_iff, sound.holds]
    constructor
    · exact fun held => held.2
    · rintro ⟨rfl, isSock⟩
      refine ⟨?_, rfl, isSock⟩
      rintro rfl
      have isLink := (sound.holds _ _).mpr ⟨rfl, isSock⟩
      rw [listening] at isLink
      exact File.noConfusion (Option.some.inj isLink)
  listening fd := by
    rw [Table.close_eq_some_iff, sound.listening]
    constructor
    · exact fun held => absurd held.2.1 held.1
    · exact fun impossible => absurd impossible.2 Bool.false_ne_true
  answers := by
    cases sound.answers with
    | closeListen => exact .recv
    | sent handled answered => exact Bool.noConfusion handled
    | survived handled unanswered => exact Bool.noConfusion handled

theorem Child.Sound.closeSock
    (sound : Child.Sound files listensock number ⟨table, .closeSock sockfd⟩ link) :
    Child.Sound files listensock number ⟨table.close sockfd, .exit⟩ link where
  holds fd other := by
    rw [Table.close_eq_some_iff, sound.holds]
    constructor
    · rintro ⟨different, -, isSock⟩
      exact absurd (Option.some.inj isSock).symm different
    · exact fun held => absurd held.2.symm (Option.some_ne_none fd)
  listening fd := by
    rw [Table.close_eq_some_iff, sound.listening]
    constructor
    · exact fun held => absurd held.2.2 Bool.false_ne_true
    · exact fun impossible => absurd impossible.2 Bool.false_ne_true
  answers := by
    cases sound.answers with
    | sent handled answered => exact .sent rfl answered
    | survived handled unanswered => exact .survived rfl unanswered

/-- What a call on the socket of the child leaves on its connection. -/
def Link.recordCall (link : Link) (call : Option (Fd × Call)) : Link :=
  match call with
  | none => link
  | some (_, call) => link.record call

theorem Child.Sound.step
    {action : ChildAction}
    {after : Child}
    {call : Option (Fd × Call)}
    (sound : child.Sound files listensock number link)
    (stepped : child.step files listensock action = some (after, call)) :
    after.Sound files listensock number (link.recordCall call) ∧
      ∀ made ∈ call, child.table made.1 = some (.link number) := by
  obtain ⟨table, point⟩ := child
  have own {sockfd : Fd} (isSock : point.sock = some sockfd) :
      table sockfd = some (.link number) :=
    (sound.holds sockfd number).mpr ⟨rfl, isSock⟩
  have answers := sound.answers
  cases point with
  | closeListen sockfd =>
      cases action with
      | next =>
          obtain ⟨rfl, rfl⟩ := Prod.mk.inj (Option.some.inj stepped)
          exact ⟨sound.closeListen, by simp⟩
      | _ => exact absurd stepped (by simp [Child.step])
  | recv sockfd =>
      cases action with
      | recv received =>
          cases answers with
          | sent handled answered => exact Bool.noConfusion handled
          | survived handled unanswered => exact Bool.noConfusion handled
          | recv =>
              cases answered : answer files received with
              | some outcome =>
                  simp only [Child.step, answered, Option.some.injEq, Prod.mk.injEq] at stepped
                  obtain ⟨rfl, rfl⟩ := stepped
                  refine ⟨sound.go (.send sockfd outcome.response) rfl rfl (.send answered), ?_⟩
                  rintro made ⟨⟩
                  exact own rfl
              | none =>
                  simp only [Child.step, answered, Option.some.injEq, Prod.mk.injEq] at stepped
                  obtain ⟨rfl, rfl⟩ := stepped
                  refine ⟨sound.go (.undefined sockfd) rfl rfl (.undefined answered), ?_⟩
                  rintro made ⟨⟩
                  exact own rfl
      | _ => exact absurd stepped (by simp [Child.step])
  | send sockfd response =>
      cases answers with
      | sent handled answered => exact Bool.noConfusion handled
      | survived handled unanswered => exact Bool.noConfusion handled
      | send answered =>
          cases action with
          | next =>
              obtain ⟨rfl, rfl⟩ := Prod.mk.inj (Option.some.inj stepped)
              refine ⟨sound.go (.closeSock sockfd) rfl rfl (.sent rfl answered), ?_⟩
              rintro made ⟨⟩
              exact own rfl
          | killed =>
              obtain ⟨rfl, rfl⟩ := Prod.mk.inj (Option.some.inj stepped)
              exact ⟨.end (.killed answered), by simp⟩
          | _ => exact absurd stepped (by simp [Child.step])
  | undefined sockfd =>
      cases answers with
      | sent handled answered => exact Bool.noConfusion handled
      | survived handled unanswered => exact Bool.noConfusion handled
      | undefined unanswered =>
          cases action with
          | garbage bytes =>
              obtain ⟨rfl, rfl⟩ := Prod.mk.inj (Option.some.inj stepped)
              refine ⟨sound.go (.undefined sockfd) rfl rfl (.undefined unanswered), ?_⟩
              rintro made ⟨⟩
              exact own rfl
          | killed =>
              obtain ⟨rfl, rfl⟩ := Prod.mk.inj (Option.some.inj stepped)
              exact ⟨.end (.survived rfl unanswered), by simp⟩
          | survives =>
              obtain ⟨rfl, rfl⟩ := Prod.mk.inj (Option.some.inj stepped)
              exact ⟨sound.go (.closeSock sockfd) rfl rfl (.survived rfl unanswered), by simp⟩
          | _ => exact absurd stepped (by simp [Child.step])
  | closeSock sockfd =>
      cases action with
      | next =>
          obtain ⟨rfl, rfl⟩ := Prod.mk.inj (Option.some.inj stepped)
          exact ⟨sound.closeSock, by simp⟩
      | _ => exact absurd stepped (by simp [Child.step])
  | exit =>
      cases action with
      | next =>
          obtain ⟨rfl, rfl⟩ := Prod.mk.inj (Option.some.inj stepped)
          refine ⟨.end ?_, by simp⟩
          cases answers with
          | sent handled answered => exact .sent rfl answered
          | survived handled unanswered => exact .survived rfl unanswered
      | _ => exact absurd stepped (by simp [Child.step])
  | exited => exact absurd stepped (by simp [Child.step])

end Children

/-! ## The server and its children -/

theorem State.record_eq
    {s : State}
    {table : Table}
    {call : Option (Fd × Call)}
    {number : Nat}
    (own : ∀ made ∈ call, table made.1 = some (.link number)) :
    s.record table call =
      { s with link := Function.update s.link number ((s.link number).recordCall call) } := by
  cases call with
  | none => rw [record, Link.recordCall, Function.update_eq_self]
  | some made =>
      rw [record, Table.onLink_of_link (own made rfl)]
      rfl

/-- `Start` has the connection of its turn and no other one, and each child is as it should
be with its own. -/
structure Sound (files : Bytes → Option Bytes) (listensock : Fd) (s : State) : Prop where
  listening : ∀ fd, s.table fd = some .listen ↔ fd = listensock
  holds : ∀ fd number, s.table fd = some (.link number) ↔
    s.main.holds = some (number, fd)
  inTurn : ∀ number fd, s.main.holds = some (number, fd) → number < s.accepted
  unforked : ∀ number fd, s.main = .fork number fd → s.child number = none
  children : ∀ number child, s.child number = some child →
    number < s.accepted ∧ child.Sound files listensock number (s.link number)
  untouched : ∀ number, s.child number = none → s.link number = .new

section Invariants

variable {files : Bytes → Option Bytes} {listensock sockfd : Fd} {number : Nat} {s : State}

theorem sound_of_starts (starts : Starts listensock s) : Sound files listensock s where
  listening := starts.listening
  holds fd number := by
    apply iff_of_false (starts.noLink fd number)
    rw [starts.main]
    exact (Option.some_ne_none _).symm
  inTurn number fd held := by
    rw [starts.main] at held
    exact absurd held (Option.some_ne_none _).symm
  unforked number _ _ := congrFun starts.child number
  children number child found := by
    rw [starts.child] at found
    exact absurd found (Option.some_ne_none _).symm
  untouched number _ := congrFun starts.link number

theorem Sound.accept
    (sound : Sound files listensock s)
    (main : s.main = .accept)
    (free : s.table sockfd = none) :
    Sound files listensock { s with
      table := s.table.accept sockfd s.accepted
      main := .fork s.accepted sockfd
      accepted := s.accepted + 1 } where
  listening fd := (Table.accept_eq_listen_iff free).trans (sound.listening fd)
  holds fd number := by
    have before := sound.holds fd number
    rw [main] at before
    rw [Table.accept_eq_link_iff, before]
    constructor
    · rintro (⟨rfl, rfl⟩ | ⟨-, nothing⟩)
      · rfl
      · exact absurd nothing (Option.some_ne_none _).symm
    · intro held
      obtain ⟨rfl, rfl⟩ := Prod.mk.inj (Option.some.inj held)
      exact .inl ⟨rfl, rfl⟩
  inTurn number fd held := by
    obtain ⟨rfl, -⟩ := Prod.mk.inj (Option.some.inj held)
    exact Nat.lt_succ_self _
  unforked number fd isFork := by
    obtain ⟨rfl, -⟩ := StartAt.fork.inj isFork
    cases found : s.child s.accepted with
    | none => rfl
    | some child => exact absurd (sound.children _ child found).1 (Nat.lt_irrefl _)
  children number child found :=
    ⟨Nat.lt_succ_of_lt (sound.children number child found).1,
      (sound.children number child found).2⟩
  untouched := sound.untouched

theorem Sound.fork
    (sound : Sound files listensock s)
    (main : s.main = .fork number sockfd) :
    Sound files listensock { s with
      main := .close number sockfd
      child := Function.update s.child number (some ⟨s.table, .closeListen sockfd⟩) } where
  listening := sound.listening
  holds fd other := by
    rw [sound.holds, main]
    rfl
  inTurn other fd held := sound.inTurn other fd (main ▸ held)
  unforked other fd isFork := StartAt.noConfusion isFork
  children other child found := by
    rcases Transition.update_some_eq_some_iff.mp found with ⟨rfl, rfl⟩ | ⟨-, before⟩
    · refine ⟨sound.inTurn other sockfd (main ▸ rfl), ?_, ?_, ?_⟩
      · intro fd entry
        rw [sound.holds, main]
        constructor
        · intro held
          obtain ⟨rfl, rfl⟩ := Prod.mk.inj (Option.some.inj held)
          exact ⟨rfl, rfl⟩
        · rintro ⟨rfl, isSock⟩
          rw [← Option.some.inj isSock]
          rfl
      · intro fd
        rw [sound.listening]
        exact (and_iff_left rfl).symm
      · rw [sound.untouched other (sound.unforked other sockfd main)]
        exact .closeListen
    · exact sound.children other child before
  untouched other nobody :=
    sound.untouched other (Transition.update_some_eq_none_iff.mp nobody).2

/-- `fork` has failed, and `Start` goes on as if there were a child. -/
theorem Sound.forkFailed
    (sound : Sound files listensock s)
    (main : s.main = .fork number sockfd) :
    Sound files listensock { s with main := .close number sockfd } where
  listening := sound.listening
  holds fd other := by
    rw [sound.holds, main]
    rfl
  inTurn other fd held := sound.inTurn other fd (main ▸ held)
  unforked other fd isFork := StartAt.noConfusion isFork
  children := sound.children
  untouched := sound.untouched

theorem Sound.close
    (sound : Sound files listensock s)
    (main : s.main = .close number sockfd) :
    Sound files listensock { s with main := .accept, table := s.table.close sockfd } where
  listening fd := by
    have isLink := (sound.holds sockfd number).mpr (main ▸ rfl)
    exact (Table.close_eq_listen_iff isLink).trans (sound.listening fd)
  holds fd other := by
    rw [Table.close_eq_some_iff, sound.holds, main]
    apply iff_of_false
    · rintro ⟨different, held⟩
      exact different (Prod.mk.inj (Option.some.inj held)).2.symm
    · exact (Option.some_ne_none _).symm
  inTurn other fd held := absurd held (Option.some_ne_none _).symm
  unforked other fd isFork := StartAt.noConfusion isFork
  children := sound.children
  untouched := sound.untouched

theorem Sound.child
    {child after : Child}
    {link : Link}
    (sound : Sound files listensock s)
    (found : s.child number = some child)
    (childSound : after.Sound files listensock number link) :
    Sound files listensock { s with
      child := Function.update s.child number (some after)
      link := Function.update s.link number link } where
  listening := sound.listening
  holds := sound.holds
  inTurn := sound.inTurn
  unforked other fd isFork := by
    have different : other ≠ number := by
      rintro rfl
      rw [sound.unforked other fd isFork] at found
      exact Option.some_ne_none _ found.symm
    exact (Function.update_of_ne different ..).trans (sound.unforked other fd isFork)
  children other entry entryFound := by
    rcases Transition.update_some_eq_some_iff.mp entryFound with ⟨rfl, rfl⟩ | ⟨different, before⟩
    · refine ⟨(sound.children other child found).1, ?_⟩
      simpa using childSound
    · simpa [Function.update_of_ne different] using sound.children other entry before
  untouched other nobody := by
    obtain ⟨different, noChild⟩ := Transition.update_some_eq_none_iff.mp nobody
    exact (Function.update_of_ne different ..).trans (sound.untouched other noChild)

theorem Sound.act
    {action : Action}
    {next : State}
    (sound : Sound files listensock s)
    (stepped : s.act files listensock action = some next) :
    Sound files listensock next := by
  unfold State.act at stepped
  cases action with
  | accept result =>
      cases main : s.main with
      | accept =>
          cases result with
          | none =>
              simp only [main, Option.some.injEq] at stepped
              rw [← stepped]
              exact sound
          | some sockfd =>
              simp only [main, Option.ite_none_right_eq_some, Option.some.injEq] at stepped
              rw [← stepped.2]
              exact sound.accept main stepped.1.2
      | fork number sockfd => simp [main] at stepped
      | close number sockfd => simp [main] at stepped
  | fork created =>
      cases main : s.main with
      | fork number sockfd =>
          simp only [main, Option.some.injEq] at stepped
          rw [← stepped]
          cases created with
          | true => exact sound.fork main
          | false => exact sound.forkFailed main
      | accept => simp [main] at stepped
      | close number sockfd => simp [main] at stepped
  | close =>
      cases main : s.main with
      | close number sockfd =>
          simp only [main, Option.some.injEq] at stepped
          rw [← stepped]
          exact sound.close main
      | accept => simp [main] at stepped
      | fork number sockfd => simp [main] at stepped
  | child number action =>
      cases found : s.child number with
      | none => simp [found] at stepped
      | some child =>
          cases moved : child.step files listensock action with
          | none => simp [found, moved] at stepped
          | some result =>
              obtain ⟨after, call⟩ := result
              simp only [found, moved, Option.some.injEq] at stepped
              obtain ⟨childSound, own⟩ := (sound.children number child found).2.step moved
              rw [← stepped, State.record_eq own]
              exact sound.child found childSound

end Invariants

theorem sound (files : Bytes → Option Bytes) (listensock : Fd) :
    (machine files listensock).Invariant (Sound files listensock) := by
  apply Transition.Machine.invariant_of_actions
  · exact fun s starts => sound_of_starts starts
  · exact fun action s next sound stepped => sound.act stepped

/-- No process has the connection open. -/
structure State.Released (number : Nat) (s : State) : Prop where
  start : ∀ fd, s.table fd ≠ some (.link number)
  children : ∀ other child fd, s.child other = some child →
    child.table fd ≠ some (.link number)

/-- A connection is released exactly when the turn of `Start` for it is over and its child,
if there is one, has closed it or has ended. Whatever the children do, the one of a
connection receives once and sends the answer to what it has received, unless the handler
left the range of its data; and without a child nothing is received or sent. -/
theorem connections_released (files : Bytes → Option Bytes) (listensock : Fd) :
    (machine files listensock).Invariant fun s => ∀ number,
      (s.Released number ↔
        (∀ fd, s.main.holds ≠ some (number, fd)) ∧
        ∀ child, s.child number = some child → child.point.sock = none) ∧
      (∀ child, s.child number = some child →
        Answers files child.point (s.link number) ∧
        ∀ fd, child.table fd = some .listen ↔
          fd = listensock ∧ child.point.listens = true) ∧
      (s.child number = none → s.link number = .new) := by
  intro s reached number
  have sound := sound files listensock s reached
  refine ⟨⟨?_, ?_⟩, ?_, sound.untouched number⟩
  · rintro ⟨start, children⟩
    constructor
    · exact fun fd held => start fd ((sound.holds fd number).mpr held)
    · intro child found
      cases isSock : child.point.sock with
      | none => rfl
      | some fd =>
          have held := ((sound.children number child found).2.holds fd number).mpr ⟨rfl, isSock⟩
          exact absurd held (children number child fd found)
  · rintro ⟨notInTurn, closed⟩
    constructor
    · exact fun fd held => notInTurn fd ((sound.holds fd number).mp held)
    · intro other child fd found held
      obtain ⟨rfl, isSock⟩ := ((sound.children other child found).2.holds fd number).mp held
      rw [closed child found] at isSock
      exact Option.some_ne_none fd isSock.symm
  · intro child found
    have childSound := (sound.children number child found).2
    exact ⟨childSound.answers, childSound.listening⟩

end HttpServer
end LearnInLinux
