import LearnInLinux.Library.Descriptors
import LearnInLinux.NetCal.CalServer

/-!
# The threads of the network calculator

`Start` accepts connections one after another and gives each of them a thread, and the
thread works with a descriptor of the whole process: once it is closed, the next
connection may get the same number while older threads still run. `Turn` is what a thread
does with a connection of its own when nobody else is there; that the threads of the
server do just this, each with the connection it was started for, is proved for all
orders of their steps.
-/

namespace LearnInLinux
namespace NetCal
namespace TcpServer

open Descriptors Frames

/-- A function given to `BindService`, by one round of its loop: from the buffer and a
chunk to the buffer and what is sent. `none` is an exception or a trap, which ends the
process. -/
abbrev Func := Bytes → Chunk → Option (Bytes × List Bytes)

/-- Where a thread is, with the functions of `func_` that `Excute` has not finished. -/
inductive Point
  /-- `pthread_create` has failed: there is a `ThreadData` but no thread. -/
  | notCreated
  | detach
  | excute (func_ : List Func)
  | recv (f : Func) (func_ : List Func) (inbuffer : Bytes)
  | send (f : Func) (func_ : List Func) (inbuffer : Bytes) (respStrings : List Bytes)
  | close
  | returned
  | crashed

/-- The thread has closed its socket. -/
def Point.hasClosed : Point → Bool
  | .returned => true
  | _ => false

/-- The exception or the trap came up in the thread. -/
def Point.hasCrashed : Point → Bool
  | .crashed => true
  | _ => false

/-- What `Start` hands to a thread, and where the thread is. -/
structure ThreadData where
  sock : Fd
  point : Point

/-- What was done to a connection. -/
structure Link where
  /-- What the calls of `recv` returned; `none` is the end of the stream or an error. -/
  received : List (Option Chunk)
  /-- The strings handed to `send`. -/
  sent : List Bytes
  /-- Number of calls of `close`. -/
  closed : Nat

/-- Nothing has been done to a connection that was accepted just now. -/
def Link.new : Link where
  received := []
  sent := []
  closed := 0

/-- Where `Start` is. -/
inductive StartAt
  | accept
  | create (sock : Fd)

/-- The process: `Start`, the threads in the order of their connections, and the
connections. -/
structure State where
  table : Table
  main : StartAt
  threads : List ThreadData
  link : Nat → Link
  /-- The process has ended. -/
  ended : Bool

/-- A step of `Start` or of a thread, with what the kernel returns. -/
inductive Action
  | accept (result : Option Fd)
  | create (created : Bool)
  | next (number : Nat)
  | recv (number : Nat) (result : Option Chunk)

namespace State

/-- A call on a socket, for the connection behind it. -/
def onLink (sock : Fd) (change : Link → Link) (s : State) : State :=
  { s with link := s.table.onLink sock change s.link }

/-- A thread goes to another point. -/
def moveTo (number : Nat) (sock : Fd) (point : Point) (s : State) : State :=
  { s with threads := s.threads.set number ⟨sock, point⟩ }

/-- `close(td->sock_)` -/
def close (sock : Fd) (s : State) : State :=
  let s := s.onLink sock fun link => { link with closed := link.closed + 1 }
  { s with table := s.table.close sock }

/-- `Accept`. The kernel gives out descriptors that are not open. -/
def accept (listensock : Fd) (result : Option Fd) (s : State) : Option State :=
  match s.main, result with
  | .create _, _ => none
  | .accept, none => some s
  | .accept, some sock =>
      if s.table listensock = some .listen ∧ s.table sock = none then
        some { s with
          table := s.table.accept sock s.threads.length
          main := .create sock }
      else none

/-- `pthread_create`. Its result is not looked at. -/
def create (created : Bool) (s : State) : Option State :=
  match s.main with
  | .accept => none
  | .create sock =>
      some { s with
        main := .accept
        threads := s.threads ++ [⟨sock, if created then .detach else .notCreated⟩] }

/-- A step of a thread that is not in `recv`. -/
def next (func_ : List Func) (number : Nat) (s : State) : Option State :=
  match s.threads[number]? with
  | none => none
  | some td =>
      match td.point with
      | .detach => some (s.moveTo number td.sock (.excute func_))
      | .excute [] => some (s.moveTo number td.sock .close)
      | .excute (f :: others) => some (s.moveTo number td.sock (.recv f others []))
      | .send f others inbuffer [] =>
          some (s.moveTo number td.sock (.recv f others inbuffer))
      | .send f others inbuffer (respString :: respStrings) =>
          let s := s.onLink td.sock fun link =>
            { link with sent := link.sent ++ [respString] }
          some (s.moveTo number td.sock (.send f others inbuffer respStrings))
      | .close => some ((s.close td.sock).moveTo number td.sock .returned)
      | _ => none

/-- `recv` returns, and the round goes on to its `send`. On a descriptor that is no
connection the call fails. -/
def recv (number : Nat) (result : Option Chunk) (s : State) : Option State :=
  match s.threads[number]? with
  | none => none
  | some td =>
      match td.point with
      | .recv f others inbuffer =>
          let s := s.onLink td.sock fun link =>
            { link with received := link.received ++ [result] }
          match result, s.table.linkOf td.sock with
          | none, _ => some (s.moveTo number td.sock (.excute others))
          | some _, none => none
          | some chunk, some _ =>
              match f inbuffer chunk with
              | none => some { s.moveTo number td.sock .crashed with ended := true }
              | some (inbuffer, respStrings) =>
                  some (s.moveTo number td.sock (.send f others inbuffer respStrings))
      | _ => none

/-- A step of the process; `none` while it is not the next one, and behind the end. -/
def act (func_ : List Func) (listensock : Fd) (action : Action) (s : State) :
    Option State :=
  if s.ended = true then none
  else
    match action with
    | .accept result => s.accept listensock result
    | .create created => s.create created
    | .next number => s.next func_ number
    | .recv number result => s.recv number result

end State

/-- In front of `Start`. -/
structure Starts (listensock : Fd) (s : State) : Prop where
  listening : s.table listensock = some .listen
  noLink : ∀ sock number, s.table sock ≠ some (.link number)
  main : s.main = .accept
  threads : s.threads = []
  link : s.link = fun _ => .new
  ended : s.ended = false

/-- All runs of a server with these functions. -/
def machine (func_ : List Func) (listensock : Fd) : Transition.Machine State :=
  .ofStep (Starts listensock) (State.act func_ listensock)

/-! ## A thread alone with its connection -/

/-- A step of a thread that has the connection to itself. -/
inductive Turn (func_ : List Func) : Point × Link → Point × Link → Prop
  | detach {link : Link} : Turn func_ (.detach, link) (.excute func_, link)
  | finish {link : Link} : Turn func_ (.excute [], link) (.close, link)
  | call {link : Link} {f : Func} {others : List Func} :
      Turn func_ (.excute (f :: others), link) (.recv f others [], link)
  | stop {link : Link} {f : Func} {others : List Func} {inbuffer : Bytes} :
      Turn func_ (.recv f others inbuffer, link)
        (.excute others, { link with received := link.received ++ [none] })
  | serve {link : Link} {f : Func} {others : List Func} {inbuffer after : Bytes}
      {chunk : Chunk} {respStrings : List Bytes}
      (served : f inbuffer chunk = some (after, respStrings)) :
      Turn func_ (.recv f others inbuffer, link)
        (.send f others after respStrings,
          { link with received := link.received ++ [some chunk] })
  | crash {link : Link} {f : Func} {others : List Func} {inbuffer : Bytes}
      {chunk : Chunk}
      (failed : f inbuffer chunk = none) :
      Turn func_ (.recv f others inbuffer, link)
        (.crashed, { link with received := link.received ++ [some chunk] })
  | send {link : Link} {f : Func} {others : List Func} {inbuffer respString : Bytes}
      {respStrings : List Bytes} :
      Turn func_ (.send f others inbuffer (respString :: respStrings), link)
        (.send f others inbuffer respStrings,
          { link with sent := link.sent ++ [respString] })
  | again {link : Link} {f : Func} {others : List Func} {inbuffer : Bytes} :
      Turn func_ (.send f others inbuffer [], link) (.recv f others inbuffer, link)
  | close {link : Link} :
      Turn func_ (.close, link) (.returned, { link with closed := link.closed + 1 })

/-- A connection that is served by nobody or by one thread. -/
def alone (func_ : List Func) : Transition.Machine (Point × Link) where
  start := fun (point, link) => (point = .detach ∨ point = .notCreated) ∧ link = .new
  step := Turn func_

/-! ## Every thread has a connection of its own -/

namespace State

/-- The descriptor is the one of the connection: its thread has not closed it, or
`Start` is about to make that thread. -/
def Holds (number : Nat) (sock : Fd) (s : State) : Prop :=
  (∃ td, s.threads[number]? = some td ∧ td.sock = sock ∧ td.point.hasClosed = false) ∨
    number = s.threads.length ∧ s.main = .create sock

/-- A step of a thread on its own connection. -/
def turn (number : Nat) (sock : Fd) (point : Point) (link : Link) (s : State) : State where
  table := if point.hasClosed = true then s.table.close sock else s.table
  main := s.main
  threads := s.threads.set number ⟨sock, point⟩
  link := Function.update s.link number link
  ended := s.ended || point.hasCrashed

end State

/-- All that a step can do. -/
inductive Move (func_ : List Func) (listensock : Fd) (s : State) : State → Prop
  | refused (main : s.main = .accept) : Move func_ listensock s s
  | accepted {sock : Fd}
      (main : s.main = .accept)
      (free : s.table sock = none) :
      Move func_ listensock s { s with
        table := s.table.accept sock s.threads.length
        main := .create sock }
  | created {sock : Fd} {point : Point}
      (main : s.main = .create sock)
      (isNew : point = .detach ∨ point = .notCreated) :
      Move func_ listensock s { s with
        main := .accept
        threads := s.threads ++ [⟨sock, point⟩] }
  | turned {number : Nat} {td : ThreadData} {point : Point} {link : Link}
      (found : s.threads[number]? = some td)
      (turned : Turn func_ (td.point, s.link number) (point, link)) :
      Move func_ listensock s (s.turn number td.sock point link)

namespace State

variable {func_ : List Func} {listensock sock : Fd} {number : Nat} {point : Point}
  {change : Link → Link} {s next : State}

/-- A call on a socket of a connection changes this connection. -/
theorem onLink_of_link (refers : s.table sock = some (.link number)) :
    s.onLink sock change =
      { s with link := Function.update s.link number (change (s.link number)) } := by
  rw [onLink, Table.onLink_of_link refers]

/-- A turn that leaves the connection alone. -/
theorem turn_link
    (alive : s.ended = false)
    (opened : point.hasClosed = false)
    (fine : point.hasCrashed = false) :
    s.turn number sock point (s.link number) = s.moveTo number sock point := by
  simp [turn, moveTo, alive, opened, fine]

/-- A turn that does a call on the connection. -/
theorem turn_onLink
    (alive : s.ended = false)
    (own : s.table sock = some (.link number))
    (opened : point.hasClosed = false)
    (fine : point.hasCrashed = false) :
    s.turn number sock point (change (s.link number)) =
      (s.onLink sock change).moveTo number sock point := by
  simp [turn, moveTo, onLink_of_link own, alive, opened, fine]

/-- The turn that closes the connection. -/
theorem turn_close
    (alive : s.ended = false)
    (own : s.table sock = some (.link number)) :
    s.turn number sock .returned { s.link number with closed := (s.link number).closed + 1 } =
      (s.close sock).moveTo number sock .returned := by
  simp [turn, moveTo, close, onLink_of_link own, alive, Point.hasClosed,
    Point.hasCrashed]

/-- The turn that ends the process. -/
theorem turn_crash
    (own : s.table sock = some (.link number)) :
    s.turn number sock .crashed (change (s.link number)) =
      { (s.onLink sock change).moveTo number sock .crashed with ended := true } := by
  simp [turn, moveTo, onLink_of_link own, Point.hasClosed, Point.hasCrashed]

end State

section Moves

variable {func_ : List Func} {listensock : Fd} {number : Nat} {s after : State}

/-- What `Accept` can do. -/
theorem move_of_accept
    {result : Option Fd}
    (stepped : s.accept listensock result = some after) :
    Move func_ listensock s after := by
  unfold State.accept at stepped
  cases main : s.main with
  | create sock => simp [main] at stepped
  | accept =>
      cases result with
      | none =>
          simp only [main, Option.some.injEq] at stepped
          rw [← stepped]
          exact .refused main
      | some sock =>
          simp only [main, Option.ite_none_right_eq_some, Option.some.injEq] at stepped
          rw [← stepped.2]
          exact .accepted main stepped.1.2

/-- What `pthread_create` can do. -/
theorem move_of_create
    {created : Bool}
    (stepped : s.create created = some after) :
    Move func_ listensock s after := by
  rw [State.create] at stepped
  cases main : s.main with
  | accept => simp [main] at stepped
  | create sock =>
      simp only [main, Option.some.injEq] at stepped
      rw [← stepped]
      apply Move.created main
      cases created with
      | true => exact .inl rfl
      | false => exact .inr rfl

/-- While the process runs, every thread that has not closed its socket has its own
connection behind it. -/
structure Own (s : State) : Prop where
  alive : s.ended = false
  refers : ∀ number td, s.threads[number]? = some td → td.point.hasClosed = false →
    s.table td.sock = some (.link number)

/-- What a thread that is not in `recv` can do to its own connection. -/
theorem Own.move_of_next
    (own : Own s)
    (stepped : s.next func_ number = some after) :
    Move func_ listensock s after := by
  rw [State.next] at stepped
  cases found : s.threads[number]? with
  | none => simp [found] at stepped
  | some td =>
      obtain ⟨sock, point⟩ := td
      have refers := own.refers number _ found
      have turned {after : Point} {link : Link} :=
        @Move.turned func_ listensock s number ⟨sock, point⟩ after link found
      cases point with
      | notCreated => simp [found] at stepped
      | recv f others inbuffer => simp [found] at stepped
      | returned => simp [found] at stepped
      | crashed => simp [found] at stepped
      | detach =>
          simp only [found, Option.some.injEq] at stepped
          rw [← stepped, ← State.turn_link own.alive rfl rfl]
          exact turned .detach
      | excute others =>
          cases others with
          | nil =>
              simp only [found, Option.some.injEq] at stepped
              rw [← stepped, ← State.turn_link own.alive rfl rfl]
              exact turned .finish
          | cons f others =>
              simp only [found, Option.some.injEq] at stepped
              rw [← stepped, ← State.turn_link own.alive rfl rfl]
              exact turned .call
      | send f others inbuffer respStrings =>
          cases respStrings with
          | nil =>
              simp only [found, Option.some.injEq] at stepped
              rw [← stepped, ← State.turn_link own.alive rfl rfl]
              exact turned .again
          | cons respString respStrings =>
              simp only [found, Option.some.injEq] at stepped
              rw [← stepped, ← State.turn_onLink own.alive (refers rfl) rfl rfl]
              exact turned .send
      | close =>
          simp only [found, Option.some.injEq] at stepped
          rw [← stepped, ← State.turn_close own.alive (refers rfl)]
          exact turned .close

/-- What a thread can do behind `recv`. -/
theorem Own.move_of_recv
    {result : Option Chunk}
    (own : Own s)
    (stepped : s.recv number result = some after) :
    Move func_ listensock s after := by
  rw [State.recv] at stepped
  cases found : s.threads[number]? with
  | none => simp [found] at stepped
  | some td =>
      obtain ⟨sock, point⟩ := td
      have turned {after : Point} {link : Link} :=
        @Move.turned func_ listensock s number ⟨sock, point⟩ after link found
      cases point with
      | recv f others inbuffer =>
          have refers := own.refers number _ found rfl
          have stillOwn (change : Link → Link) :
              (s.onLink sock change).table.linkOf sock = some number :=
            Table.linkOf_eq_some_iff.mpr refers
          cases result with
          | none =>
              simp only [found, Option.some.injEq] at stepped
              rw [← stepped, ← State.turn_onLink own.alive refers rfl rfl]
              exact turned .stop
          | some chunk =>
              simp only [found, stillOwn] at stepped
              cases served : f inbuffer chunk with
              | none =>
                  simp only [served, Option.some.injEq] at stepped
                  rw [← stepped, ← State.turn_crash refers]
                  exact turned (.crash served)
              | some result =>
                  simp only [served, Option.some.injEq] at stepped
                  rw [← stepped, ← State.turn_onLink own.alive refers rfl rfl]
                  exact turned (.serve served)
      | _ => simp [found] at stepped

/-- A step of the process is one of the moves, and there is none behind its end. -/
theorem move_of_act
    {action : Action}
    (own : s.ended = false → Own s)
    (stepped : s.act func_ listensock action = some after) :
    s.ended = false ∧ Move func_ listensock s after := by
  unfold State.act at stepped
  cases alive : s.ended with
  | true => simp [alive] at stepped
  | false =>
      simp only [alive, Bool.false_eq_true, if_false] at stepped
      refine ⟨rfl, ?_⟩
      cases action with
      | accept result => exact move_of_accept stepped
      | create created => exact move_of_create stepped
      | next number => exact (own alive).move_of_next stepped
      | recv number result => exact (own alive).move_of_recv stepped

end Moves

/-- The descriptors of connections are those held for them, and every thread is where it
could be if it had its connection to itself. -/
structure Sound (func_ : List Func) (listensock : Fd) (s : State) : Prop where
  listening : s.table listensock = some .listen
  holds : ∀ sock number, s.table sock = some (.link number) ↔ s.Holds number sock
  untouched : ∀ number, s.threads.length ≤ number → s.link number = .new
  reached : ∀ number td, s.threads[number]? = some td →
    (alone func_).Reachable (td.point, s.link number)
  ended : s.ended = true ↔
    ∃ td ∈ s.threads, td.point.hasCrashed = true

section Invariants

variable {func_ : List Func} {listensock sock other : Fd} {number : Nat} {td : ThreadData}
  {s after : State}

/-- A connection has one descriptor. -/
theorem State.Holds.unique
    (holds : s.Holds number sock)
    (holdsOther : s.Holds number other) :
    sock = other := by
  rcases holds with ⟨td, found, rfl, -⟩ | ⟨isNext, main⟩
  · rcases holdsOther with ⟨tdOther, foundOther, rfl, -⟩ | ⟨isNext, -⟩
    · rw [found] at foundOther
      rw [Option.some.inj foundOther]
    · rw [isNext, List.getElem?_eq_none (Nat.le_refl _)] at found
      exact absurd found.symm (Option.some_ne_none td)
  · rcases holdsOther with ⟨tdOther, foundOther, -⟩ | ⟨-, mainOther⟩
    · rw [isNext, List.getElem?_eq_none (Nat.le_refl _)] at foundOther
      exact absurd foundOther.symm (Option.some_ne_none tdOther)
    · rw [main] at mainOther
      exact StartAt.create.inj mainOther

/-- A thread that has not closed its socket holds it. -/
theorem holds_of_thread
    (found : s.threads[number]? = some td)
    (opened : td.point.hasClosed = false) :
    s.Holds number td.sock :=
  .inl ⟨td, found, rfl, opened⟩

/-- While the process lives, the sockets of the threads are their own connections. -/
theorem Sound.own
    (sound : Sound func_ listensock s)
    (alive : s.ended = false) :
    Own s where
  alive := alive
  refers _ _ found opened := (sound.holds _ _).mpr (holds_of_thread found opened)

/-- In front of `Start` there is no thread. -/
theorem sound_of_starts (starts : Starts listensock s) : Sound func_ listensock s where
  listening := starts.listening
  holds sock number := by
    apply iff_of_false (starts.noLink sock number)
    rintro (⟨td, found, -⟩ | ⟨-, main⟩)
    · rw [starts.threads] at found
      exact absurd found.symm (Option.some_ne_none td)
    · rw [starts.main] at main
      exact StartAt.noConfusion main
  untouched number _ := congrFun starts.link number
  reached number td found := by
    rw [starts.threads] at found
    exact absurd found.symm (Option.some_ne_none td)
  ended := by
    rw [starts.ended]
    apply iff_of_false Bool.false_ne_true
    rintro ⟨td, present, -⟩
    rw [starts.threads] at present
    exact absurd present List.not_mem_nil

/-- The new connection waits for its thread. -/
theorem Sound.accepted
    (sound : Sound func_ listensock s)
    (main : s.main = .accept)
    (free : s.table sock = none) :
    Sound func_ listensock { s with
      table := s.table.accept sock s.threads.length
      main := .create sock } where
  listening := (Table.accept_eq_listen_iff free).mpr sound.listening
  holds other number := by
    rw [Table.accept_eq_link_iff, sound.holds]
    constructor
    · rintro (⟨rfl, isNext⟩ | ⟨-, held | ⟨-, creates⟩⟩)
      · exact .inr ⟨isNext, rfl⟩
      · exact .inl held
      · rw [main] at creates
        exact StartAt.noConfusion creates
    · rintro (held | ⟨isNext, creates⟩)
      · refine .inr ⟨?_, .inl held⟩
        rintro rfl
        rw [(sound.holds _ _).mpr (.inl held)] at free
        exact absurd free (Option.some_ne_none _)
      · exact .inl ⟨(StartAt.create.inj creates).symm, isNext⟩
  untouched := sound.untouched
  reached := sound.reached
  ended := sound.ended

/-- The new thread takes the connection over. -/
theorem Sound.created
    {point : Point}
    (sound : Sound func_ listensock s)
    (main : s.main = .create sock)
    (isNew : point = .detach ∨ point = .notCreated) :
    Sound func_ listensock { s with
      main := .accept
      threads := s.threads ++ [⟨sock, point⟩] } where
  listening := sound.listening
  holds other number := by
    have opened : point.hasClosed = false := by
      rcases isNew with rfl | rfl
      · rfl
      · rfl
    rw [sound.holds]
    constructor
    · rintro (⟨td, found, same, notClosed⟩ | ⟨isNext, creates⟩)
      · exact .inl ⟨td, Transition.getElem?_concat_eq_some_iff.mpr (.inl found), same,
          notClosed⟩
      · rw [main] at creates
        exact .inl ⟨_, Transition.getElem?_concat_eq_some_iff.mpr (.inr ⟨isNext, rfl⟩),
          StartAt.create.inj creates, opened⟩
    · rintro (⟨td, found, same, notClosed⟩ | ⟨-, creates⟩)
      · rcases Transition.getElem?_concat_eq_some_iff.mp found with before | ⟨isNext, rfl⟩
        · exact .inl ⟨td, before, same, notClosed⟩
        · refine .inr ⟨isNext, ?_⟩
          rw [main, ← same]
      · exact StartAt.noConfusion creates
  untouched number outside := by
    rw [List.length_append] at outside
    exact sound.untouched number (Nat.le_of_succ_le outside)
  reached number td found := by
    rcases Transition.getElem?_concat_eq_some_iff.mp found with before | ⟨isNext, rfl⟩
    · exact sound.reached number td before
    · exact .start ⟨isNew, sound.untouched number (Nat.le_of_eq isNext.symm)⟩
  ended := by
    refine sound.ended.trans ?_
    constructor
    · rintro ⟨td, present, crashed⟩
      exact ⟨td, List.mem_append_left _ present, crashed⟩
    · rintro ⟨td, present, crashed⟩
      rcases List.mem_append.mp present with before | isNext
      · exact ⟨td, before, crashed⟩
      · obtain rfl := List.mem_singleton.mp isNext
        rcases isNew with rfl | rfl
        · exact Bool.noConfusion crashed
        · exact Bool.noConfusion crashed

/-- The entry of a thread after the turn of one of them. -/
theorem getElem?_turn
    {point : Point}
    (found : s.threads[number]? = some td)
    (entry : Nat) :
    (s.threads.set number ⟨td.sock, point⟩)[entry]? =
      if entry = number then some ⟨td.sock, point⟩ else s.threads[entry]? := by
  by_cases same : entry = number
  · have inside := (List.getElem?_eq_some_iff.mp found).1
    rw [same, if_pos rfl, List.getElem?_set_self inside]
  · rw [if_neg same, List.getElem?_set_ne fun other => same other.symm]

/-- A thread that takes a turn has its socket open, and has not crashed. -/
theorem opened_of_turn
    {point afterPoint : Point}
    {link afterLink : Link}
    (turned : Turn func_ (point, link) (afterPoint, afterLink)) :
    point.hasClosed = false ∧ point.hasCrashed = false := by
  cases turned <;> exact ⟨rfl, rfl⟩

/-- A descriptor belongs to one connection. -/
theorem Sound.number_unique
    {entry : Nat}
    (sound : Sound func_ listensock s)
    (holds : s.Holds number sock)
    (holdsToo : s.Holds entry sock) :
    entry = number := by
  have refers := (sound.holds sock number).mpr holds
  rw [(sound.holds sock entry).mpr holdsToo] at refers
  exact File.link.inj (Option.some.inj refers)

/-- A turn gives up the descriptor of the thread or none. -/
theorem Sound.holds_turn
    {point : Point}
    {link : Link}
    (sound : Sound func_ listensock s)
    (found : s.threads[number]? = some td)
    (opened : td.point.hasClosed = false)
    (entry : Nat) :
    (s.turn number td.sock point link).Holds entry other ↔
      (point.hasClosed = true → other ≠ td.sock) ∧ s.Holds entry other := by
  have holdsHere := holds_of_thread found opened
  have inside := (List.getElem?_eq_some_iff.mp found).1
  have elsewhere (different : entry ≠ number) (holds : s.Holds entry other) :
      (point.hasClosed = true → other ≠ td.sock) ∧ s.Holds entry other := by
    refine ⟨?_, holds⟩
    rintro - rfl
    exact different (sound.number_unique holdsHere holds)
  unfold State.Holds State.turn
  simp only [getElem?_turn found, List.length_set]
  by_cases same : entry = number
  · subst same
    rw [if_pos rfl]
    constructor
    · rintro (⟨_, isTd, rfl, notClosed⟩ | ⟨isNext, -⟩)
      · obtain rfl := Option.some.inj isTd
        refine ⟨fun closed => ?_, holdsHere⟩
        rw [notClosed] at closed
        exact absurd closed Bool.false_ne_true
      · exact absurd isNext (Nat.ne_of_lt inside)
    · rintro ⟨kept, holds⟩
      have isHere := State.Holds.unique holds holdsHere
      refine .inl ⟨_, rfl, isHere.symm, ?_⟩
      exact Bool.eq_false_iff.mpr fun closed => kept closed isHere
  · rw [if_neg same]
    exact ⟨elsewhere same, And.right⟩

/-- A turn of a thread leaves the connections of the others alone. -/
theorem Sound.turned
    {point : Point}
    {link : Link}
    (sound : Sound func_ listensock s)
    (alive : s.ended = false)
    (found : s.threads[number]? = some td)
    (turned : Turn func_ (td.point, s.link number) (point, link)) :
    Sound func_ listensock (s.turn number td.sock point link) where
  listening := by
    have refers := (sound.holds _ _).mpr (holds_of_thread found (opened_of_turn turned).1)
    cases closed : point.hasClosed with
    | false => simp [State.turn, closed, sound.listening]
    | true => simp [State.turn, closed, Table.close_eq_listen_iff refers, sound.listening]
  holds other entry := by
    rw [sound.holds_turn found (opened_of_turn turned).1, ← sound.holds]
    cases closed : point.hasClosed with
    | false => simp [State.turn, closed]
    | true => simp [State.turn, closed, Table.close_eq_some_iff]
  untouched entry outside := by
    have inside := (List.getElem?_eq_some_iff.mp found).1
    change (s.threads.set number _).length ≤ entry at outside
    rw [List.length_set] at outside
    have different : entry ≠ number := Nat.ne_of_gt (Nat.lt_of_lt_of_le inside outside)
    exact (Function.update_of_ne different ..).trans (sound.untouched entry outside)
  reached entry entryTd entryFound := by
    change (s.threads.set number ⟨td.sock, point⟩)[entry]? = some entryTd at entryFound
    change (alone func_).Reachable (entryTd.point, Function.update s.link number link entry)
    rw [getElem?_turn found] at entryFound
    by_cases same : entry = number
    · rw [if_pos same] at entryFound
      obtain rfl := Option.some.inj entryFound
      rw [same, Function.update_self]
      exact (sound.reached number td found).step turned
    · rw [if_neg same] at entryFound
      rw [Function.update_of_ne same]
      exact sound.reached entry entryTd entryFound
  ended := by
    have nobody := sound.ended
    rw [alive] at nobody
    change (s.ended || point.hasCrashed) = true ↔
      ∃ entryTd ∈ s.threads.set number ⟨td.sock, point⟩, entryTd.point.hasCrashed = true
    rw [alive, Bool.false_or]
    constructor
    · intro crashed
      have inside := (List.getElem?_eq_some_iff.mp found).1
      exact ⟨⟨td.sock, point⟩, List.mem_set inside _, crashed⟩
    · rintro ⟨entryTd, present, crashed⟩
      rcases List.mem_or_eq_of_mem_set present with before | rfl
      · exact absurd (nobody.mpr ⟨entryTd, before, crashed⟩) Bool.false_ne_true
      · exact crashed

end Invariants

/-- However the threads interleave, each of them does what it would do alone with its
connection. -/
theorem sound (func_ : List Func) (listensock : Fd) :
    (machine func_ listensock).Invariant (Sound func_ listensock) := by
  apply Transition.Machine.invariant_of_actions
  · exact fun s starts => sound_of_starts starts
  · intro action s next sound stepped
    obtain ⟨alive, move⟩ := move_of_act sound.own stepped
    cases move with
    | refused main => exact sound
    | accepted main free => exact sound.accepted main free
    | created main isNew => exact sound.created main isNew
    | turned found turned => exact sound.turned alive found turned

/-! ## The calculator in the threads -/

variable {json : JsonCpp} {listensock : Fd} {s : State}

/-- The thread has run `calculator` over the chunks of its connection, and has sent its
answers but for those of the last round that are still to come. -/
inductive Serving (json : JsonCpp) : Point → Link → Prop
  | notCreated : Serving json .notCreated .new
  | detach : Serving json .detach .new
  | excute : Serving json (.excute [round json]) .new
  | recv {chunks : List Chunk} {inbuffer : Bytes} {sent : List Bytes}
      (ran : calculator json chunks [] [] = some (inbuffer, sent)) :
      Serving json (.recv (round json) [] inbuffer) ⟨chunks.map some, sent, 0⟩
  | send {chunks : List Chunk} {inbuffer : Bytes} {sent respStrings : List Bytes}
      (ran : calculator json chunks [] [] = some (inbuffer, sent ++ respStrings)) :
      Serving json (.send (round json) [] inbuffer respStrings) ⟨chunks.map some, sent, 0⟩
  | finish {chunks : List Chunk} {inbuffer : Bytes} {sent : List Bytes}
      (ran : calculator json chunks [] [] = some (inbuffer, sent)) :
      Serving json (.excute []) ⟨chunks.map some ++ [none], sent, 0⟩
  | close {chunks : List Chunk} {inbuffer : Bytes} {sent : List Bytes}
      (ran : calculator json chunks [] [] = some (inbuffer, sent)) :
      Serving json .close ⟨chunks.map some ++ [none], sent, 0⟩
  | returned {chunks : List Chunk} {inbuffer : Bytes} {sent : List Bytes}
      (ran : calculator json chunks [] [] = some (inbuffer, sent)) :
      Serving json .returned ⟨chunks.map some ++ [none], sent, 1⟩
  | crashed {chunks : List Chunk} {chunk : Chunk} {inbuffer : Bytes} {sent : List Bytes}
      (ran : calculator json chunks [] [] = some (inbuffer, sent))
      (failed : calculator json (chunks ++ [chunk]) [] [] = none) :
      Serving json .crashed ⟨(chunks ++ [chunk]).map some, sent, 0⟩

/-- The calculator on one more chunk goes on from the buffer that it has. -/
theorem calculator_next
    {chunks : List Chunk}
    {chunk : Chunk}
    {inbuffer : Bytes}
    {sent : List Bytes}
    (ran : calculator json chunks [] [] = some (inbuffer, sent)) :
    calculator json (chunks ++ [chunk]) [] [] =
      (round json inbuffer chunk).map fun (inbuffer, respStrings) =>
        (inbuffer, sent ++ respStrings) := by
  rw [calculator_append, ran]
  simp only [Option.bind_some, calculator]
  cases round json inbuffer chunk with
  | none => rfl
  | some result => rfl

/-- Every turn of a thread of the calculator is one of the calculator. -/
theorem Serving.turn
    {point after : Point}
    {link linkAfter : Link}
    (serving : Serving json point link)
    (turned : Turn [round json] (point, link) (after, linkAfter)) :
    Serving json after linkAfter := by
  cases serving with
  | notCreated => cases turned
  | detach =>
      cases turned
      exact .excute
  | excute =>
      cases turned
      exact @Serving.recv json [] [] [] rfl
  | recv ran =>
      cases turned with
      | stop => exact .finish ran
      | @serve _ _ _ _ _ chunk _ served =>
          rw [← List.map_singleton, ← List.map_append]
          apply Serving.send
          rw [calculator_next ran, served]
          rfl
      | @crash _ _ _ _ chunk failed =>
          rw [← List.map_singleton, ← List.map_append]
          apply Serving.crashed ran
          rw [calculator_next ran, failed]
          rfl
  | @send _ _ sent _ ran =>
      cases turned with
      | @send _ _ _ _ respString respStrings =>
          apply Serving.send
          rw [List.append_assoc]
          exact ran
      | again =>
          rw [List.append_nil] at ran
          exact .recv ran
  | finish ran =>
      cases turned
      exact .close ran
  | close ran =>
      cases turned
      exact .returned ran
  | returned ran => cases turned
  | crashed ran failed => cases turned

/-- A thread alone with its connection is a calculator on what it receives. -/
theorem serving :
    (alone [round json]).Invariant fun (point, link) => Serving json point link := by
  apply Transition.Machine.invariant_of_steps
  · rintro ⟨point, link⟩ ⟨rfl | rfl, rfl⟩
    · exact .detach
    · exact .notCreated
  · rintro ⟨point, link⟩ ⟨after, linkAfter⟩ _ serving turned
    exact serving.turn turned

section Serving

variable {point : Point} {link : Link} {chunks : List Chunk}

end Serving

/-- The server listens on descriptor 3. -/
def listening : State where
  table := Function.update (fun _ => none) 3 (some .listen)
  main := .accept
  threads := []
  link := fun _ => .new
  ended := false

end TcpServer
end NetCal
end LearnInLinux
