import LearnInLinux.Library.Descriptors
import LearnInLinux.TcpUpper

/-!
# One connection after the other

`loop` serves a connection to its end before it accepts the next one. The array of
`transervice` is made anew for every connection and never cleared, and every reply is the
whole of it: a client is sent its request, and behind it what older and longer requests
have left in the array.
-/

namespace LearnInLinux
namespace TcpUpper
namespace TcpServer

open Descriptors

/-! ## The server -/

/-- Where the server is, with the socket of the connection that it serves. -/
inductive Point
  | accept
  | read (sock : Fd)
  | write (sock : Fd)
  | close (sock : Fd)
  /-- By SIGPIPE. -/
  | killed (sock : Fd)

/-- The socket of the connection that is being served. -/
def Point.sock : Point → Option Fd
  | .accept => none
  | .read sock => some sock
  | .write sock => some sock
  | .close sock => some sock
  | .killed sock => some sock

/-- What was done to a connection. -/
structure Link where
  /-- What is in `inbuffer` when `transervice` begins. -/
  start : Buffer
  /-- What the calls of `read` returned; `none` is the end of the stream or an error. -/
  received : List (Option Chunk)
  sent : List Bytes
  /-- Number of calls of `close`. -/
  closed : Nat

/-- Nothing has been done to a connection that was accepted just now. -/
def Link.new (start : Buffer) : Link where
  start := start
  received := []
  sent := []
  closed := 0

/-- The one thread of the server with the array of `transervice`, and the connections. -/
structure State where
  point : Point
  inbuffer : Buffer
  /-- The sockets that `accept` has returned. -/
  accepted : List Fd
  table : Table
  link : Nat → Link

/-- A step of the server, with what the kernel returns and what the stack holds. -/
inductive Action
  | accept (result : Option Fd) (stack : Buffer)
  | read (result : Option Chunk)
  | write (written : Written)
  | close

namespace State

/-- A call on a socket, for the connection behind it. -/
def onLink (sock : Fd) (change : Link → Link) (s : State) : State :=
  { s with link := s.table.onLink sock change s.link }

/-- The server goes to another point. -/
def goto (point : Point) (s : State) : State :=
  { s with point := point }

/-- `close(sock)` -/
def close (sock : Fd) (s : State) : State :=
  let s := s.onLink sock fun link => { link with closed := link.closed + 1 }
  { s with table := s.table.close sock }

/-- `accept`, and the call of `transervice`. -/
def accept (listensock : Fd) (result : Option Fd) (stack : Buffer) (s : State) :
    Option State :=
  match s.point, result with
  | .accept, none => some s
  | .accept, some sock =>
      if s.table listensock = some .listen ∧ s.table sock = none then
        some {
          point := .read sock
          inbuffer := stack
          accepted := s.accepted ++ [sock]
          table := s.table.accept sock s.accepted.length
          link := Function.update s.link s.accepted.length (.new stack) }
      else none
  | _, _ => none

/-- `read` returns, and the request is transformed. -/
def read (result : Option Chunk) (s : State) : Option State :=
  match s.point with
  | .read sock =>
      let t := s.onLink sock fun link => { link with received := link.received ++ [result] }
      match result, s.table.linkOf sock with
      | none, _ => some (t.goto (.close sock))
      | some _, none => none
      | some chunk, some _ =>
          match transervice chunk.bytes chunk.bounded s.inbuffer with
          | none => some (t.goto (.close sock))
          | some inbuffer => some { t with point := .write sock, inbuffer := inbuffer }
  | _ => none

/-- `write(sock, inbuffer, sizeof(inbuffer))`. Its result is not looked at. -/
def write (written : Written) (s : State) : Option State :=
  match s.point with
  | .write sock =>
      match written with
      | .all =>
          some ((s.onLink sock fun link =>
            { link with sent := link.sent ++ [s.inbuffer.val] }).goto (.read sock))
      | .failed => some (s.goto (.read sock))
      | .sigpipe => some (s.goto (.killed sock))
  | _ => none

/-- A step of the server; `none` while it is not the next one. -/
def act (listensock : Fd) (action : Action) (s : State) : Option State :=
  match action with
  | .accept result stack => s.accept listensock result stack
  | .read result => s.read result
  | .write written => s.write written
  | .close =>
      match s.point with
      | .close sock => some ((s.close sock).goto .accept)
      | _ => none

end State

/-- In front of `loop`. -/
structure Starts (listensock : Fd) (s : State) : Prop where
  point : s.point = .accept
  accepted : s.accepted = []
  listening : s.table listensock = some .listen
  noLink : ∀ sock number, s.table sock ≠ some (.link number)

/-- All runs of `loop` on a listening socket. -/
def machine (listensock : Fd) : Transition.Machine State :=
  .ofStep (Starts listensock) (State.act listensock)

/-! ## What the array holds -/

/-- A byte of the array behind some requests, the newest of them in front. -/
def cell (start : Buffer) (i : Nat) : List Chunk → UInt8
  | [] => start.val.getD i 0
  | chunk :: earlier =>
      if i < chunk.bytes.length then upper (chunk.bytes.getD i 0)
      else if i = chunk.bytes.length then 0
      else cell start i earlier

/-- The array behind the requests. -/
def cells (start : Buffer) (chunks : List Chunk) : Bytes :=
  (List.range 1024).map fun i => cell start i chunks.reverse

/-- In front of the first request the array is what the stack held. -/
theorem cells_nil (start : Buffer) : cells start [] = start.val := by
  apply List.ext_getElem
  · rw [cells, List.length_map, List.length_range, start.property]
  · intro i inside present
    simp [cells, cell, List.getD_eq_getElem?_getD, present]

/-- The array behind `transervice`: the request in capital letters, its terminator and what
was there before. -/
theorem val_transervice
    {data : Bytes}
    {small : data.length ≤ 1023}
    {inbuffer reply : Buffer}
    (served : transervice data small inbuffer = some reply) :
    reply.val = data.map upper ++ 0 :: inbuffer.val.drop (data.length + 1) := by
  have content := Buffer.val_set_fill small inbuffer
  rw [transervice] at served
  split at served
  · exact absurd served (by simp)
  · obtain rfl := Option.some.inj served
    rw [transform]
    change List.map upper (List.take _ _) ++ List.drop _ _ = _
    rw [content, List.take_left' rfl, List.drop_left' rfl]

/-- One more request. -/
theorem cells_concat
    {start inbuffer reply : Buffer}
    {chunks : List Chunk}
    {chunk : Chunk}
    (before : inbuffer.val = cells start chunks)
    (served : transervice chunk.bytes chunk.bounded inbuffer = some reply) :
    reply.val = cells start (chunks ++ [chunk]) := by
  rw [val_transervice served, before]
  have bounded := chunk.bounded
  apply List.ext_getElem
  · simp [cells]
    omega
  · intro i inside present
    have small : i < 1024 := by simpa [cells] using present
    simp only [cells, List.getElem_map, List.getElem_range, List.reverse_append,
      List.reverse_singleton, List.singleton_append, cell]
    by_cases inRequest : i < chunk.bytes.length
    · rw [if_pos inRequest, List.getElem_append_left (by simpa using inRequest),
        List.getElem_map]
      simp [List.getD_eq_getElem?_getD, inRequest]
    · rw [if_neg inRequest, List.getElem_append_right (by simpa using inRequest)]
      by_cases atEnd : i = chunk.bytes.length
      · rw [if_pos atEnd]
        simp [atEnd]
      · rw [if_neg atEnd]
        obtain ⟨k, rfl⟩ : ∃ k, i = chunk.bytes.length + (k + 1) :=
          ⟨i - chunk.bytes.length - 1, by omega⟩
        have behind : chunk.bytes.length + 1 + k = chunk.bytes.length + (k + 1) := by omega
        simp [behind]

/-! ## A service alone with its connection -/

/-- The replies to some requests. -/
def answers (start : Buffer) (chunks : List Chunk) : List Bytes :=
  (List.range chunks.length).map fun k => cells start (chunks.take (k + 1))

/-- The reply to one more request is the array behind it. -/
theorem answers_concat (start : Buffer) (chunks : List Chunk) (chunk : Chunk) :
    answers start (chunks ++ [chunk]) =
      answers start chunks ++ [cells start (chunks ++ [chunk])] := by
  have whole : (chunks ++ [chunk]).take (chunks.length + 1) = chunks ++ [chunk] :=
    List.take_of_length_le (by simp)
  have earlier : (List.range chunks.length).map
      (fun k => cells start ((chunks ++ [chunk]).take (k + 1))) = answers start chunks := by
    apply List.map_congr_left
    intro k present
    rw [List.take_append_of_le_length (List.mem_range.mp present)]
  rw [answers, List.length_append, List.length_singleton, List.range_succ, List.map_append,
    List.map_singleton, earlier, whole]

/-- Behind this result of `read` the service closes the connection. -/
def Ends : Option Chunk → Prop
  | none => True
  | some chunk => strcasecmp chunk.bytes quit = true

/-- `transervice` returns without a reply exactly on "quit". -/
theorem transervice_eq_none_iff
    {chunk : Chunk}
    {inbuffer : Buffer} :
    transervice chunk.bytes chunk.bounded inbuffer = none ↔ Ends (some chunk) := by
  have sameText : Text.cString 0 ((inbuffer.fill chunk.bytes chunk.bounded).set
      chunk.bytes.length 0).val = Text.cString 0 chunk.bytes := by
    rw [Buffer.val_set_fill, Text.cString_append_terminator_cons]
  have sameVerdict : strcasecmp ((inbuffer.fill chunk.bytes chunk.bounded).set
      chunk.bytes.length 0).val quit = strcasecmp chunk.bytes quit := by
    rw [strcasecmp, sameText, strcasecmp]
  rw [transervice, sameVerdict, Ends]
  split
  · rename_i isQuit
    exact iff_of_true rfl isQuit
  · rename_i notQuit
    exact iff_of_false (Option.some_ne_none _) notQuit

/-- The requests that a service has answered, all of them or up to some failed calls of
`write`, and the result of `read` that it has ended with. -/
structure Link.Answered (link : Link) (chunks : List Chunk) (last : Option (Option Chunk)) :
    Prop where
  received : link.received = chunks.map some ++ last.toList
  goesOn : ∀ chunk ∈ chunks, ¬Ends (some chunk)
  ends : ∀ result, last = some result → Ends result
  sent : link.sent.Sublist (answers link.start chunks)

/-- The reply to the last request is missing. -/
theorem Link.Answered.of_request
    {link : Link}
    {chunks : List Chunk}
    {chunk : Chunk}
    (received : link.received = chunks.map some ++ [some chunk])
    (goesOn : ∀ request ∈ chunks ++ [chunk], ¬Ends (some request))
    (sent : link.sent.Sublist (answers link.start chunks)) :
    link.Answered (chunks ++ [chunk]) none := by
  refine ⟨?_, goesOn, fun result same => absurd same.symm (Option.some_ne_none result), ?_⟩
  · rw [received]
    simp
  · rw [answers_concat]
    exact sent.trans (List.sublist_append_left _ _)

/-- What a service has done on its way to a point. -/
def Phase (inbuffer : Buffer) (link : Link) : Point → Prop
  | .accept => True
  | .read _ => ∃ chunks, link.Answered chunks none ∧
      inbuffer.val = cells link.start chunks
  | .write _ => ∃ chunks chunk, link.received = chunks.map some ++ [some chunk] ∧
      (∀ request ∈ chunks ++ [chunk], ¬Ends (some request)) ∧
      link.sent.Sublist (answers link.start chunks) ∧
      inbuffer.val = cells link.start (chunks ++ [chunk])
  | .close _ => ∃ chunks last, link.Answered chunks (some last)
  | .killed _ => ∃ chunks, link.Answered chunks none

/-- A step of the service on its connection. -/
inductive Turn (sock : Fd) : Point × Buffer × Link → Point × Buffer × Link → Prop
  | stop {inbuffer : Buffer} {link : Link} :
      Turn sock (.read sock, inbuffer, link)
        (.close sock, inbuffer, { link with received := link.received ++ [none] })
  | quit {inbuffer : Buffer} {link : Link} {chunk : Chunk}
      (isQuit : transervice chunk.bytes chunk.bounded inbuffer = none) :
      Turn sock (.read sock, inbuffer, link)
        (.close sock, inbuffer, { link with received := link.received ++ [some chunk] })
  | request {inbuffer after : Buffer} {link : Link} {chunk : Chunk}
      (served : transervice chunk.bytes chunk.bounded inbuffer = some after) :
      Turn sock (.read sock, inbuffer, link)
        (.write sock, after, { link with received := link.received ++ [some chunk] })
  | sent {inbuffer : Buffer} {link : Link} :
      Turn sock (.write sock, inbuffer, link)
        (.read sock, inbuffer, { link with sent := link.sent ++ [inbuffer.val] })
  | failed {inbuffer : Buffer} {link : Link} :
      Turn sock (.write sock, inbuffer, link) (.read sock, inbuffer, link)
  | sigpipe {inbuffer : Buffer} {link : Link} :
      Turn sock (.write sock, inbuffer, link) (.killed sock, inbuffer, link)

/-- Every step of the service leads from one phase to the next. -/
theorem Phase.turn
    {sock : Fd}
    {point pointAfter : Point}
    {inbuffer after : Buffer}
    {link linkAfter : Link}
    (phase : Phase inbuffer link point)
    (turned : Turn sock (point, inbuffer, link) (pointAfter, after, linkAfter)) :
    Phase after linkAfter pointAfter := by
  cases turned with
  | stop =>
      obtain ⟨chunks, answered, -⟩ := phase
      refine ⟨chunks, none, ?_, answered.goesOn, ?_, answered.sent⟩
      · rw [answered.received]
        simp
      · rintro result same
        obtain rfl := Option.some.inj same
        trivial
  | @quit _ _ chunk isQuit =>
      obtain ⟨chunks, answered, -⟩ := phase
      refine ⟨chunks, some chunk, ?_, answered.goesOn, ?_, answered.sent⟩
      · rw [answered.received]
        simp
      · intro result same
        obtain rfl := Option.some.inj same
        exact transervice_eq_none_iff.mp isQuit
  | @request _ _ _ chunk served =>
      obtain ⟨chunks, answered, content⟩ := phase
      refine ⟨chunks, chunk, ?_, ?_, answered.sent, cells_concat content served⟩
      · rw [answered.received]
        simp
      · intro request present
        rcases List.mem_append.mp present with before | new
        · exact answered.goesOn request before
        · obtain rfl := List.mem_singleton.mp new
          intro ends
          rw [transervice_eq_none_iff.mpr ends] at served
          exact Option.some_ne_none _ served.symm
  | sent =>
      obtain ⟨chunks, chunk, received, goesOn, sent, content⟩ := phase
      refine ⟨chunks ++ [chunk], ⟨?_, goesOn, by simp, ?_⟩, content⟩
      · rw [received]
        simp
      · rw [answers_concat, content]
        exact sent.append (List.Sublist.refl _)
  | failed =>
      obtain ⟨chunks, chunk, received, goesOn, sent, content⟩ := phase
      exact ⟨chunks ++ [chunk], .of_request received goesOn sent, content⟩
  | sigpipe =>
      obtain ⟨chunks, chunk, received, goesOn, sent, -⟩ := phase
      exact ⟨chunks ++ [chunk], .of_request received goesOn sent⟩

/-- At every point the replies belong to the requests so far. -/
theorem Phase.answered
    {point : Point}
    {inbuffer : Buffer}
    {link : Link}
    (phase : Phase inbuffer link point)
    (somebody : point.sock ≠ none) :
    ∃ chunks last, link.Answered chunks last := by
  cases point with
  | accept => exact absurd rfl somebody
  | read sock =>
      obtain ⟨chunks, answered, -⟩ := phase
      exact ⟨chunks, none, answered⟩
  | write sock =>
      obtain ⟨chunks, chunk, received, goesOn, sent, -⟩ := phase
      exact ⟨_, none, .of_request received goesOn sent⟩
  | close sock =>
      obtain ⟨chunks, last, answered⟩ := phase
      exact ⟨chunks, some last, answered⟩
  | killed sock =>
      obtain ⟨chunks, answered⟩ := phase
      exact ⟨chunks, none, answered⟩

/-- No step of the service but `close` gives the socket back. -/
theorem Turn.same
    {sock : Fd}
    {point pointAfter : Point}
    {inbuffer after : Buffer}
    {link linkAfter : Link}
    (turned : Turn sock (point, inbuffer, link) (pointAfter, after, linkAfter)) :
    pointAfter.sock = point.sock ∧ linkAfter.closed = link.closed := by
  cases turned <;> exact ⟨rfl, rfl⟩

/-! ## The server -/

/-- All that a step can do. -/
inductive Move (s : State) : State → Prop
  | refused : Move s s
  | accepted {sock : Fd} {stack : Buffer}
      (here : s.point = .accept)
      (free : s.table sock = none) :
      Move s
        { point := .read sock
          inbuffer := stack
          accepted := s.accepted ++ [sock]
          table := s.table.accept sock s.accepted.length
          link := Function.update s.link s.accepted.length (.new stack) }
  | turned {sock : Fd} {number : Nat} {point : Point} {inbuffer : Buffer} {link : Link}
      (refers : s.table sock = some (.link number))
      (turned : Turn sock (s.point, s.inbuffer, s.link number) (point, inbuffer, link)) :
      Move s
        { s with
          point := point
          inbuffer := inbuffer
          link := Function.update s.link number link }
  | closed {sock : Fd} {number : Nat}
      (here : s.point = .close sock)
      (refers : s.table sock = some (.link number)) :
      Move s
        { s with
          point := .accept
          table := s.table.close sock
          link := Function.update s.link number
            { s.link number with closed := (s.link number).closed + 1 } }

/-- All connections but the one that is being served are closed. -/
structure Sound (listensock : Fd) (s : State) : Prop where
  listening : s.table listensock = some .listen
  current : ∀ sock, s.point.sock = some sock → ∃ before, s.accepted = before ++ [sock]
  table : ∀ sock number, s.table sock = some (.link number) ↔
    s.point.sock = some sock ∧ number + 1 = s.accepted.length
  phase : ∀ number, s.point.sock ≠ none → number + 1 = s.accepted.length →
    Phase s.inbuffer (s.link number) s.point ∧ (s.link number).closed = 0
  done : ∀ number, number < s.accepted.length →
    (number + 1 = s.accepted.length → s.point.sock = none) →
    (s.link number).closed = 1 ∧ ∃ chunks last, (s.link number).Answered chunks (some last)

namespace Sound

variable {listensock sock : Fd} {s t : State}

/-- In front of `loop` there is no connection. -/
theorem create (starts : Starts listensock s) : Sound listensock s := by
  have nobody : s.point.sock = none := by
    rw [starts.point]
    rfl
  constructor
  · exact starts.listening
  · intro sock isSock
    rw [nobody] at isSock
    exact absurd isSock.symm (Option.some_ne_none sock)
  · intro sock number
    apply iff_of_false (starts.noLink sock number)
    rintro ⟨isSock, -⟩
    rw [nobody] at isSock
    exact Option.some_ne_none sock isSock.symm
  · exact fun number somebody => absurd nobody somebody
  · intro number inside
    rw [starts.accepted] at inside
    exact absurd inside (Nat.not_lt_zero number)

/-- The socket refers to the last connection. -/
theorem exists_link
    (sound : Sound listensock s)
    (here : s.point.sock = some sock) :
    ∃ number, s.table sock = some (.link number) := by
  obtain ⟨before, accepted⟩ := sound.current sock here
  refine ⟨before.length, (sound.table sock before.length).mpr ⟨here, ?_⟩⟩
  rw [accepted, List.length_append]
  rfl

/-- A call on a socket of a connection changes this connection. -/
theorem onLink_of_link
    {number : Nat}
    {change : Link → Link}
    (refers : s.table sock = some (.link number)) :
    s.onLink sock change =
      { s with link := Function.update s.link number (change (s.link number)) } := by
  rw [State.onLink, Table.onLink_of_link refers]

/-- What `accept` can do. -/
theorem move_of_accept
    {result : Option Fd}
    {stack : Buffer}
    (stepped : s.accept listensock result stack = some t) :
    Move s t := by
  cases here : s.point with
  | accept =>
      cases result with
      | none =>
          simp only [State.accept, here] at stepped
          obtain rfl := Option.some.inj stepped
          exact .refused
      | some sock =>
          simp only [State.accept, here] at stepped
          split at stepped
          · rename_i allowed
            obtain rfl := Option.some.inj stepped
            exact .accepted here allowed.2
          · exact absurd stepped (by simp)
  | _ => simp [State.accept, here] at stepped

/-- What `read` can do. -/
theorem move_of_read
    {result : Option Chunk}
    (sound : Sound listensock s)
    (stepped : s.read result = some t) :
    Move s t := by
  rw [State.read] at stepped
  split at stepped
  · rename_i sock here
    have isSock : s.point.sock = some sock := congrArg Point.sock here
    obtain ⟨number, refers⟩ := sound.exists_link isSock
    have turned {point : Point} {inbuffer : Buffer} {link : Link}
        (turns : Turn sock (.read sock, s.inbuffer, s.link number) (point, inbuffer, link)) :
        Move s { s with
          point := point
          inbuffer := inbuffer
          link := Function.update s.link number link } := by
      rw [← here] at turns
      exact .turned refers turns
    simp only [onLink_of_link refers, Table.linkOf_eq_some_iff.mpr refers] at stepped
    cases result with
    | none =>
        obtain rfl := Option.some.inj stepped
        exact turned .stop
    | some chunk =>
        cases served : transervice chunk.bytes chunk.bounded s.inbuffer with
        | none =>
            simp only [served] at stepped
            obtain rfl := Option.some.inj stepped
            exact turned (.quit served)
        | some after =>
            simp only [served] at stepped
            obtain rfl := Option.some.inj stepped
            exact turned (.request served)
  · exact absurd stepped (by simp)

/-- What `write` can do. -/
theorem move_of_write
    {written : Written}
    (sound : Sound listensock s)
    (stepped : s.write written = some t) :
    Move s t := by
  rw [State.write] at stepped
  split at stepped
  · rename_i sock here
    have isSock : s.point.sock = some sock := congrArg Point.sock here
    obtain ⟨number, refers⟩ := sound.exists_link isSock
    have turned {point : Point} {link : Link}
        (turns : Turn sock (.write sock, s.inbuffer, s.link number)
          (point, s.inbuffer, link)) :
        Move s { s with point := point, link := Function.update s.link number link } := by
      rw [← here] at turns
      exact .turned refers turns
    cases written with
    | all =>
        simp only [onLink_of_link refers] at stepped
        obtain rfl := Option.some.inj stepped
        exact turned .sent
    | failed =>
        obtain rfl := Option.some.inj stepped
        have same := turned .failed
        rw [Function.update_eq_self] at same
        exact same
    | sigpipe =>
        obtain rfl := Option.some.inj stepped
        have same := turned .sigpipe
        rw [Function.update_eq_self] at same
        exact same
  · exact absurd stepped (by simp)

/-- A step of the server is one of the moves. -/
theorem move_of_act
    {action : Action}
    (sound : Sound listensock s)
    (acted : s.act listensock action = some t) :
    Move s t := by
  cases action with
  | accept result stack => exact move_of_accept acted
  | read result => exact sound.move_of_read acted
  | write written => exact sound.move_of_write acted
  | close =>
      simp only [State.act] at acted
      split at acted
      · rename_i sock here
        have isSock : s.point.sock = some sock := congrArg Point.sock here
        obtain ⟨number, refers⟩ := sound.exists_link isSock
        simp only [State.close, onLink_of_link refers] at acted
        obtain rfl := Option.some.inj acted
        exact .closed here refers
      · exact absurd acted (by simp)

/-- The new connection is the only one that is open. -/
theorem accepted
    {stack : Buffer}
    (sound : Sound listensock s)
    (here : s.point = .accept)
    (free : s.table sock = none) :
    Sound listensock
      { point := .read sock
        inbuffer := stack
        accepted := s.accepted ++ [sock]
        table := s.table.accept sock s.accepted.length
        link := Function.update s.link s.accepted.length (.new stack) } := by
  have nobody : s.point.sock = none := congrArg Point.sock here
  have length : (s.accepted ++ [sock]).length = s.accepted.length + 1 :=
    List.length_append
  constructor
  · exact (Table.accept_eq_listen_iff free).mpr sound.listening
  · intro other isOther
    obtain rfl := Option.some.inj isOther
    exact ⟨s.accepted, rfl⟩
  · intro other number
    rw [Table.accept_eq_link_iff, length]
    constructor
    · rintro (⟨rfl, rfl⟩ | ⟨-, before⟩)
      · exact ⟨rfl, rfl⟩
      · have isSock := ((sound.table other number).mp before).1
        exact absurd (nobody.symm.trans isSock).symm (Option.some_ne_none other)
    · rintro ⟨isOther, last⟩
      exact .inl ⟨(Option.some.inj isOther).symm, Nat.succ.inj last⟩
  · intro number _ last
    obtain rfl : number = s.accepted.length := Nat.succ.inj (last.trans length)
    simp only [Function.update_self]
    refine ⟨⟨[], ⟨rfl, by simp, by simp, List.Sublist.refl _⟩, (cells_nil stack).symm⟩, rfl⟩
  · intro number inside ended
    have different : number ≠ s.accepted.length := by
      rintro rfl
      exact Option.some_ne_none sock (ended length.symm)
    simp only [Function.update_of_ne different]
    have earlier : number < s.accepted.length :=
      Nat.lt_of_le_of_ne (Nat.le_of_lt_succ (inside.trans_eq length)) different
    exact sound.done number earlier fun _ => nobody

/-- A step of the service keeps to the last connection. -/
theorem turned
    {number : Nat}
    {point : Point}
    {inbuffer : Buffer}
    {link : Link}
    (sound : Sound listensock s)
    (refers : s.table sock = some (.link number))
    (turned : Turn sock (s.point, s.inbuffer, s.link number) (point, inbuffer, link)) :
    Sound listensock
      { s with
        point := point
        inbuffer := inbuffer
        link := Function.update s.link number link } := by
  obtain ⟨isSock, last⟩ := (sound.table sock number).mp refers
  obtain ⟨sameSock, sameClosed⟩ := turned.same
  have somebody : s.point.sock ≠ none := by
    rw [isSock]
    exact Option.some_ne_none sock
  constructor
  · exact sound.listening
  · intro other isOther
    exact sound.current other (sameSock.symm.trans isOther)
  · intro other entry
    rw [sameSock]
    exact sound.table other entry
  · intro other _ otherLast
    obtain rfl : other = number := Nat.succ.inj (otherLast.trans last.symm)
    obtain ⟨phase, opened⟩ := sound.phase other somebody last
    simp only [Function.update_self]
    exact ⟨phase.turn turned, sameClosed.trans opened⟩
  · intro other inside ended
    have different : other ≠ number := by
      rintro rfl
      exact somebody (sameSock.symm.trans (ended last))
    simp only [Function.update_of_ne different]
    apply sound.done other inside
    intro otherLast
    exact absurd (Nat.succ.inj (otherLast.trans last.symm)) different

/-- Behind `close` no connection is open. -/
theorem closed
    {number : Nat}
    (sound : Sound listensock s)
    (here : s.point = .close sock)
    (refers : s.table sock = some (.link number)) :
    Sound listensock
      { s with
        point := .accept
        table := s.table.close sock
        link := Function.update s.link number
          { s.link number with closed := (s.link number).closed + 1 } } := by
  obtain ⟨isSock, last⟩ := (sound.table sock number).mp refers
  constructor
  · exact (Table.close_eq_listen_iff refers).mpr sound.listening
  · exact fun other isOther => absurd isOther.symm (Option.some_ne_none other)
  · intro other entry
    apply iff_of_false
    · intro open_
      obtain ⟨different, before⟩ := Table.close_eq_some_iff.mp open_
      have isOther := ((sound.table other entry).mp before).1
      exact different (Option.some.inj (isOther.symm.trans isSock))
    · exact fun nobody => absurd nobody.1.symm (Option.some_ne_none other)
  · exact fun other somebody => absurd rfl somebody
  · intro other inside _
    by_cases same : other = number
    · have somebody : s.point.sock ≠ none := by
        rw [isSock]
        exact Option.some_ne_none sock
      obtain ⟨phase, opened⟩ := sound.phase number somebody last
      rw [here] at phase
      obtain ⟨chunks, result, answered⟩ := phase
      simp only [same, Function.update_self]
      refine ⟨congrArg Nat.succ opened, chunks, result, ?_⟩
      exact ⟨answered.received, answered.goesOn, answered.ends, answered.sent⟩
    · simp only [Function.update_of_ne same]
      apply sound.done other inside
      intro otherLast
      exact absurd (Nat.succ.inj (otherLast.trans last.symm)) same

/-- Every move keeps the connections in order. -/
theorem move
    (sound : Sound listensock s)
    (moved : Move s t) :
    Sound listensock t := by
  cases moved with
  | refused => exact sound
  | accepted here free => exact sound.accepted here free
  | turned refers turned => exact sound.turned refers turned
  | closed here refers => exact sound.closed here refers

end Sound

/-- All runs of `loop`. -/
theorem sound (listensock : Fd) : (machine listensock).Invariant (Sound listensock) := by
  apply Transition.Machine.invariant_of_actions
  · exact fun s starts => .create starts
  · exact fun action s t sound acted => sound.move (sound.move_of_act acted)

/-! ## Runs -/

/-- What has become of the connections. -/
structure State.InTurn (s : State) : Prop where
  /-- Every connection was closed once, but for the last one while it is served. -/
  closed : ∀ number, number < s.accepted.length → (s.link number).closed =
    if number + 1 = s.accepted.length ∧ s.point.sock ≠ none then 0 else 1
  /-- No other connection has a descriptor. -/
  table : ∀ sock number, s.table sock = some (.link number) ↔
    s.point.sock = some sock ∧ number + 1 = s.accepted.length
  /-- The replies are the array behind the requests of their own connection, in order, and
  it is closed behind the end of the stream, an error or "quit". -/
  answered : ∀ number, number < s.accepted.length →
    ∃ chunks last, (s.link number).Answered chunks last ∧
      ((s.link number).closed = 1 → last ≠ none)

/-- In every run of `loop` at most one connection is open, and all replies on a connection
are made of its own requests and of what the stack held when it was accepted. -/
theorem connections_in_turn (listensock : Fd) :
    (machine listensock).Invariant State.InTurn := by
  intro s reached
  have sound := sound listensock s reached
  constructor
  · intro number inside
    split
    · rename_i served
      exact (sound.phase number served.2 served.1).2
    · rename_i notServed
      apply (sound.done number inside ?_).1
      intro last
      by_contra somebody
      exact notServed ⟨last, somebody⟩
  · exact sound.table
  · intro number inside
    by_cases served : number + 1 = s.accepted.length ∧ s.point.sock ≠ none
    · obtain ⟨phase, opened⟩ := sound.phase number served.2 served.1
      obtain ⟨chunks, last, answered⟩ := phase.answered served.2
      refine ⟨chunks, last, answered, ?_⟩
      intro isClosed
      exact absurd (opened.symm.trans isClosed) (by decide)
    · have ended : number + 1 = s.accepted.length → s.point.sock = none := by
        intro last
        by_contra somebody
        exact served ⟨last, somebody⟩
      obtain ⟨-, chunks, last, answered⟩ := sound.done number inside ended
      exact ⟨chunks, some last, answered, fun _ => Option.some_ne_none last⟩

end TcpServer
end TcpUpper
end LearnInLinux
