import LearnInLinux.TcpPool

/-!
# The client of the server with a thread pool

The client sends a line and waits for the answer, and keeps its connection as long as
answers come. Two of the three services close the connection behind one answer, so that
the next line goes to nobody. Here the client meets a service that has the connection to
itself. A `read` and a `recv` get all that is there, up to the size of their buffers.
-/

namespace LearnInLinux
namespace TcpPool
namespace TcpClient

open TcpUpper (quit)

/-! ## The client and the service of its connection -/

/-- A line that is typed, short enough for one `read` of the service. -/
structure Line where
  bytes : Bytes
  bounded : bytes.length ≤ 1023

/-- Where the client is. -/
inductive Point
  | connect
  | getline
  /-- In front of `recv`, behind the `send` of the line. -/
  | recv (line : Line)
  | exited (status : Nat)
  /-- By SIGPIPE. -/
  | killed

/-- The client, the service of its connection, and what is on the way between them. -/
structure State where
  client : Point
  /-- Where the service of the connection is. -/
  serving : Serving
  /-- Bytes on their way to the service, and to the client. -/
  toServer : Bytes
  toClient : Bytes
  /-- The connection was reset: the service has closed it with bytes unread, or bytes came
  behind. -/
  reset : Bool
  /-- The lines sent, with the text printed behind `server 回显# `. -/
  shown : List (Line × Option Bytes)

/-- A step of the client or of the service, with what the kernel returns. -/
inductive Action
  | connect (ok : Bool)
  | send (line : Line)
  | recv
  /-- `recv` returns 0, or -1 on a connection that was reset. -/
  | fail (error : Bool)
  | read (result : Option Chunk)
  | serve

namespace State

/-- A step of the client or of the service; `none` while it is not the next one. -/
def act (f : Service) (action : Action) (s : State) : Option State :=
  match action with
  | .connect ok =>
      match s.client with
      | .connect =>
          if ok then
            some { s with
              client := .getline
              serving := .read
              toServer := []
              toClient := []
              reset := false }
          else some { s with client := .exited 3 }
      | _ => none
  | .send line =>
      match s.client with
      | .getline =>
          if line.bytes = quit then some { s with client := .exited 0 }
          else if s.reset then some { s with client := .killed }
          -- `send` returns 0, and the client closes the socket
          else if line.bytes = [] then
            some { s with client := .connect, shown := s.shown ++ [(line, none)] }
          else
            some { s with
              client := .recv line
              toServer := s.toServer ++ line.bytes
              reset := s.serving.hasClosed }
      | _ => none
  | .recv =>
      match s.client with
      | .recv line =>
          if s.toClient = [] then none
          else
            some { s with
              client := .getline
              toClient := s.toClient.drop 1023
              shown := s.shown ++
                [(line, some (Text.cString 0 (s.toClient.take 1023 ++ [0])))] }
      | _ => none
  | .fail error =>
      match s.client with
      | .recv line =>
          if s.toClient = [] ∧ s.serving.hasClosed ∧ (error → s.reset) then
            -- there is no branch for -1: the socket stays in use
            some { s with
              client := if error then .getline else .connect
              shown := s.shown ++ [(line, none)] }
          else none
      | _ => none
  | .read result =>
      match s.serving, result with
      | .read, none => some { s with serving := .close }
      | .read, some chunk =>
          if chunk.bytes = s.toServer.take 1023 then
            some { s with
              serving := .write (f.reply chunk)
              toServer := s.toServer.drop 1023 }
          else none
      | _, _ => none
  | .serve =>
      match s.serving with
      | .write message =>
          some { s with
            serving := if f.loops then .read else .close
            toClient := s.toClient ++ message }
      | .close =>
          some { s with serving := .closed, reset := s.reset || !s.toServer.isEmpty }
      | _ => none

/-- In front of the loop of `main`. -/
def create : State where
  client := .connect
  serving := .closed
  toServer := []
  toClient := []
  reset := false
  shown := []

/-! ## What a step is -/

variable {f : Service} {s t : State}

/-- Everything that one action can do. -/
inductive Move (f : Service) (s : State) : State → Prop
  | connected
      (here : s.client = .connect) :
      Move f s
        { s with
          client := .getline
          serving := .read
          toServer := []
          toClient := []
          reset := false }
  | refused
      (here : s.client = .connect) :
      Move f s { s with client := .exited 3 }
  | quit
      (here : s.client = .getline) :
      Move f s { s with client := .exited 0 }
  | sigpipe
      (here : s.client = .getline)
      (reset : s.reset = true) :
      Move f s { s with client := .killed }
  | nothing {line : Line}
      (here : s.client = .getline)
      (empty : line.bytes = []) :
      Move f s { s with client := .connect, shown := s.shown ++ [(line, none)] }
  | sent {line : Line}
      (here : s.client = .getline)
      (nonempty : line.bytes ≠ []) :
      Move f s
        { s with
          client := .recv line
          toServer := s.toServer ++ line.bytes
          reset := s.serving.hasClosed }
  | printed {line : Line}
      (here : s.client = .recv line)
      (present : s.toClient ≠ []) :
      Move f s
        { s with
          client := .getline
          toClient := s.toClient.drop 1023
          shown := s.shown ++
            [(line, some (Text.cString 0 (s.toClient.take 1023 ++ [0])))] }
  | ended {line : Line}
      (here : s.client = .recv line)
      (empty : s.toClient = [])
      (closed : s.serving.hasClosed = true) :
      Move f s { s with client := .connect, shown := s.shown ++ [(line, none)] }
  | failed {line : Line}
      (here : s.client = .recv line)
      (empty : s.toClient = [])
      (closed : s.serving.hasClosed = true)
      (reset : s.reset = true) :
      Move f s { s with client := .getline, shown := s.shown ++ [(line, none)] }
  | stop
      (reading : s.serving = .read) :
      Move f s { s with serving := .close }
  | read {chunk : Chunk}
      (reading : s.serving = .read)
      (same : chunk.bytes = s.toServer.take 1023) :
      Move f s
        { s with serving := .write (f.reply chunk), toServer := s.toServer.drop 1023 }
  | write {message : Bytes}
      (writing : s.serving = .write message) :
      Move f s
        { s with
          serving := if f.loops then .read else .close
          toClient := s.toClient ++ message }
  | close
      (leaving : s.serving = .close) :
      Move f s { s with serving := .closed, reset := s.reset || !s.toServer.isEmpty }

/-- A step is one of the moves. -/
theorem move_of_act
    {action : Action}
    (acted : s.act f action = some t) :
    Move f s t := by
  cases action with
  | connect ok =>
      simp only [act] at acted
      split at acted
      · rename_i here
        split at acted
        · obtain rfl := Option.some.inj acted
          exact .connected here
        · obtain rfl := Option.some.inj acted
          exact .refused here
      · exact absurd acted (by simp)
  | send line =>
      simp only [act] at acted
      split at acted
      · rename_i here
        split at acted
        · obtain rfl := Option.some.inj acted
          exact .quit here
        · split at acted
          · rename_i reset
            obtain rfl := Option.some.inj acted
            exact .sigpipe here reset
          · split at acted
            · rename_i empty
              obtain rfl := Option.some.inj acted
              exact .nothing here empty
            · rename_i nonempty
              obtain rfl := Option.some.inj acted
              exact .sent here nonempty
      · exact absurd acted (by simp)
  | recv =>
      simp only [act] at acted
      split at acted
      · rename_i line here
        split at acted
        · exact absurd acted (by simp)
        · rename_i present
          obtain rfl := Option.some.inj acted
          exact .printed here present
      · exact absurd acted (by simp)
  | fail error =>
      simp only [act] at acted
      split at acted
      · rename_i line here
        split at acted
        · rename_i guard
          obtain ⟨empty, closed, isReset⟩ := guard
          obtain rfl := Option.some.inj acted
          cases error with
          | false => exact .ended here empty closed
          | true => exact .failed here empty closed (isReset rfl)
        · exact absurd acted (by simp)
      · exact absurd acted (by simp)
  | read result =>
      simp only [act] at acted
      split at acted
      · rename_i reading
        obtain rfl := Option.some.inj acted
        exact .stop reading
      · rename_i chunk reading
        split at acted
        · rename_i same
          obtain rfl := Option.some.inj acted
          exact .read reading same
        · exact absurd acted (by simp)
      · exact absurd acted (by simp)
  | serve =>
      simp only [act] at acted
      split at acted
      · rename_i message writing
        obtain rfl := Option.some.inj acted
        exact .write writing
      · rename_i leaving
        obtain rfl := Option.some.inj acted
        exact .close leaving
      · exact absurd acted (by simp)

end State

/-- All interleavings of the client and of services that have its connections to
themselves. -/
def machine (f : Service) : Transition.Machine State :=
  .ofStep (fun s => s = State.create) (State.act f)

/-! ## One line at a time -/

/-- The service will not read again. -/
def leaves : Serving → Bool
  | .close => true
  | .closed => true
  | _ => false

/-- The client has no connection. -/
def Point.isApart : Point → Bool
  | .getline => false
  | .recv _ => false
  | _ => true

/-- What is under way: at most the line that the client waits for, or the answer to it. -/
inductive Aligned (f : Service) : Point → Serving → Bytes → Bytes → Prop
  | apart {client : Point} {serving : Serving} {toServer toClient : Bytes}
      (isApart : client.isApart = true) :
      Aligned f client serving toServer toClient
  | ready : Aligned f .getline .read [] []
  | finished {serving : Serving} {toServer : Bytes}
      (leaving : leaves serving = true) :
      Aligned f .getline serving toServer []
  | asked {line : Line} :
      Aligned f (.recv line) .read line.bytes []
  | answering {line : Line} {chunk : Chunk}
      (same : chunk.bytes = line.bytes) :
      Aligned f (.recv line) (.write (f.reply chunk)) [] []
  | answered {line : Line} {chunk : Chunk}
      (same : chunk.bytes = line.bytes)
      (loops : f.loops = true) :
      Aligned f (.recv line) .read [] (f.reply chunk)
  | last {line : Line} {chunk : Chunk} {serving : Serving} {toServer : Bytes}
      (same : chunk.bytes = line.bytes)
      (leaving : leaves serving = true) :
      Aligned f (.recv line) serving toServer (f.reply chunk)
  | lost {line : Line} {serving : Serving} {toServer : Bytes}
      (leaving : leaves serving = true) :
      Aligned f (.recv line) serving toServer []

variable {f : Service} {s t : State}

/-- A service that has closed its socket has left its loop. -/
theorem leaves_of_hasClosed
    {serving : Serving}
    (closed : serving.hasClosed = true) :
    leaves serving = true := by
  cases serving with
  | read => exact closed
  | write message => exact closed
  | close => rfl
  | closed => rfl

namespace Aligned

variable {client : Point} {serving : Serving} {line : Line} {toServer toClient : Bytes}

/-- In front of the next line nothing is left of an answer. -/
theorem toClient_eq_nil (aligned : Aligned f .getline serving toServer toClient) :
    toClient = [] := by
  cases aligned with
  | apart isApart => exact absurd isApart (by decide)
  | ready => rfl
  | finished leaving => rfl

/-- The client sends a line. -/
theorem send
    (aligned : Aligned f .getline serving toServer toClient)
    (line : Line) :
    Aligned f (.recv line) serving (toServer ++ line.bytes) toClient := by
  cases aligned with
  | apart isApart => exact absurd isApart (by decide)
  | ready => exact .asked
  | finished leaving => exact .lost leaving

/-- What is printed is the answer to the line. -/
theorem recv
    (short : ∀ chunk, (f.reply chunk).length ≤ 1023)
    (aligned : Aligned f (.recv line) serving toServer toClient)
    (present : toClient ≠ []) :
    (∃ chunk : Chunk, chunk.bytes = line.bytes ∧ toClient = f.reply chunk) ∧
      Aligned f .getline serving toServer (toClient.drop 1023) ∧
        (f.loops = false → leaves serving = true) := by
  cases aligned with
  | apart isApart => exact absurd isApart (by simp [Point.isApart])
  | asked => exact absurd rfl present
  | answering same => exact absurd rfl present
  | @answered _ chunk same loops =>
      rw [List.drop_of_length_le (short chunk)]
      exact ⟨⟨chunk, same, rfl⟩, .ready, fun once => absurd (once.symm.trans loops) (by decide)⟩
  | @last _ chunk _ _ same leaving =>
      rw [List.drop_of_length_le (short chunk)]
      exact ⟨⟨chunk, same, rfl⟩, .finished leaving, fun _ => leaving⟩
  | lost leaving => exact absurd rfl present

/-- The service reads what has come, up to its buffer. -/
theorem read
    {chunk : Chunk}
    (aligned : Aligned f client .read toServer toClient)
    (same : chunk.bytes = toServer.take 1023) :
    Aligned f client (.write (f.reply chunk)) (toServer.drop 1023) toClient := by
  cases aligned with
  | apart isApart => exact .apart isApart
  | ready => exact absurd same chunk.nonempty
  | finished leaving => exact absurd leaving (by decide)
  | @asked line =>
      rw [List.take_of_length_le line.bounded] at same
      rw [List.drop_of_length_le line.bounded]
      exact .answering same
  | answered _ _ => exact absurd same chunk.nonempty
  | last _ leaving => exact absurd leaving (by decide)
  | lost leaving => exact absurd leaving (by decide)

/-- The service closes instead of reading. -/
theorem stop (aligned : Aligned f client .read toServer toClient) :
    Aligned f client .close toServer toClient := by
  cases aligned with
  | apart isApart => exact .apart isApart
  | ready => exact .finished rfl
  | finished leaving => exact absurd leaving (by decide)
  | asked => exact .lost rfl
  | answered same _ => exact .last same rfl
  | last _ leaving => exact absurd leaving (by decide)
  | lost leaving => exact absurd leaving (by decide)

/-- The service writes its answer. -/
theorem write
    {message : Bytes}
    (aligned : Aligned f client (.write message) toServer toClient) :
    Aligned f client (if f.loops then .read else .close) toServer (toClient ++ message) := by
  cases aligned with
  | apart isApart => exact .apart isApart
  | finished leaving => exact absurd leaving (by simp [leaves])
  | answering same =>
      cases loops : f.loops with
      | true => exact .answered same loops
      | false => exact .last same rfl
  | last _ leaving => exact absurd leaving (by simp [leaves])
  | lost leaving => exact absurd leaving (by simp [leaves])

/-- The service closes its socket. -/
theorem close (aligned : Aligned f client .close toServer toClient) :
    Aligned f client .closed toServer toClient := by
  cases aligned with
  | apart isApart => exact .apart isApart
  | finished _ => exact .finished rfl
  | last same _ => exact .last same rfl
  | lost _ => exact .lost rfl

end Aligned

/-- What was printed for a line is the answer to it. -/
def Own (f : Service) (shown : List (Line × Option Bytes)) : Prop :=
  ∀ line text, (line, some text) ∈ shown →
    ∃ chunk : Chunk, chunk.bytes = line.bytes ∧ text = Text.cString 0 (f.reply chunk)

/-- One more line with its own answer. -/
theorem Own.concat
    {shown : List (Line × Option Bytes)}
    {line : Line}
    {printed : Option Bytes}
    (own : Own f shown)
    (isOwn : ∀ text, printed = some text →
      ∃ chunk : Chunk, chunk.bytes = line.bytes ∧ text = Text.cString 0 (f.reply chunk)) :
    Own f (shown ++ [(line, printed)]) := by
  intro other text present
  rcases List.mem_append.mp present with before | new
  · exact own other text before
  · obtain ⟨rfl, same⟩ := Prod.mk.inj (List.mem_singleton.mp new)
    exact isOwn text same.symm

/-- One more line without an answer. -/
theorem Own.nothing
    {shown : List (Line × Option Bytes)}
    (own : Own f shown)
    (line : Line) :
    Own f (shown ++ [(line, none)]) :=
  own.concat fun text isText => absurd isText.symm (Option.some_ne_none text)

/-- What the states of a run have in common. -/
structure Sound (f : Service) (s : State) : Prop where
  aligned : Aligned f s.client s.serving s.toServer s.toClient
  own : Own f s.shown

namespace Sound

/-- Every move keeps client and service aligned. -/
theorem move
    (short : ∀ chunk, (f.reply chunk).length ≤ 1023)
    (sound : Sound f s)
    (moved : State.Move f s t) :
    Sound f t := by
  have aligned := sound.aligned
  cases moved with
  | connected here => exact ⟨.ready, sound.own⟩
  | refused here => exact ⟨.apart rfl, sound.own⟩
  | quit here => exact ⟨.apart rfl, sound.own⟩
  | sigpipe here reset => exact ⟨.apart rfl, sound.own⟩
  | @nothing line here empty => exact ⟨.apart rfl, sound.own.nothing line⟩
  | @sent line here nonempty =>
      rw [here] at aligned
      exact ⟨aligned.send line, sound.own⟩
  | @printed line here present =>
      rw [here] at aligned
      obtain ⟨⟨chunk, same, reply⟩, next, -⟩ := aligned.recv short present
      refine ⟨next, sound.own.concat ?_⟩
      intro text isText
      obtain rfl := Option.some.inj isText
      refine ⟨chunk, same, ?_⟩
      rw [reply, List.take_of_length_le (short chunk), Text.cString_append_terminator]
  | @ended line here empty closed => exact ⟨.apart rfl, sound.own.nothing line⟩
  | @failed line here empty closed reset =>
      refine ⟨?_, sound.own.nothing line⟩
      rw [empty]
      exact .finished (leaves_of_hasClosed closed)
  | stop reading =>
      rw [reading] at aligned
      exact ⟨aligned.stop, sound.own⟩
  | read reading same =>
      rw [reading] at aligned
      exact ⟨aligned.read same, sound.own⟩
  | write writing =>
      rw [writing] at aligned
      exact ⟨aligned.write, sound.own⟩
  | close leaving =>
      rw [leaving] at aligned
      exact ⟨aligned.close, sound.own⟩

end Sound

/-- All runs with a service whose answers fit into the buffer of the client. -/
theorem sound
    (short : ∀ chunk, (f.reply chunk).length ≤ 1023) :
    (machine f).Invariant (Sound f) := by
  apply Transition.Machine.invariant_of_actions
  · rintro s rfl
    exact ⟨.apart rfl, fun line text shown => absurd shown List.not_mem_nil⟩
  · exact fun action s t sound acted => sound.move short (State.move_of_act acted)

/-! ## Services that answer once -/

/-- Of two lines in a row one was not answered. -/
def EveryOther (shown : List (Line × Option Bytes)) : Prop :=
  shown.IsChain fun before after => before.2 = none ∨ after.2 = none

/-- The last line was answered. -/
def lastAnswered (shown : List (Line × Option Bytes)) : Bool :=
  match shown.getLast? with
  | some (_, some _) => true
  | _ => false

/-- The last line is the one that was added. -/
theorem lastAnswered_concat
    (shown : List (Line × Option Bytes))
    (line : Line)
    (printed : Option Bytes) :
    lastAnswered (shown ++ [(line, printed)]) = printed.isSome := by
  rw [lastAnswered, List.getLast?_concat]
  cases printed with
  | none => rfl
  | some text => rfl

/-- One more line, answered only if the last one was not. -/
theorem EveryOther.concat
    {shown : List (Line × Option Bytes)}
    {line : Line}
    {printed : Option Bytes}
    (alternates : EveryOther shown)
    (fits : lastAnswered shown = false ∨ printed = none) :
    EveryOther (shown ++ [(line, printed)]) := by
  refine List.isChain_append.mpr ⟨alternates, List.isChain_singleton _, ?_⟩
  intro last isLast next isNext
  obtain rfl := Option.some.inj isNext
  rcases fits with notAnswered | nothing
  · left
    rw [lastAnswered, Option.mem_def.mp isLast] at notAnswered
    obtain ⟨sent, answer⟩ := last
    cases answer with
    | none => rfl
    | some text => exact absurd notAnswered (by simp)
  · exact .inr nothing

/-- Behind an answer the connection is spent. -/
structure Spent (s : State) : Prop where
  alternates : EveryOther s.shown
  getline : s.client = .getline → lastAnswered s.shown = true → leaves s.serving = true
  recv : ∀ line, s.client = .recv line → lastAnswered s.shown = true →
    leaves s.serving = true ∧ s.toClient = []
  connect : s.client = .connect → lastAnswered s.shown = false

namespace Spent

theorem of_nothing
    {line : Line}
    {client : Point}
    (spent : Spent s)
    (notRecv : ∀ line, client ≠ .recv line) :
    Spent { s with client := client, shown := s.shown ++ [(line, none)] } where
  alternates := spent.alternates.concat (.inr rfl)
  getline _ answered := absurd answered (by simp [lastAnswered_concat])
  recv line isRecv _ := absurd isRecv (notRecv line)
  connect _ := lastAnswered_concat s.shown line none

/-- The client has ended. -/
theorem of_ended
    {client : Point}
    (spent : Spent s)
    (notGetline : client ≠ .getline)
    (notRecv : ∀ line, client ≠ .recv line)
    (notConnect : client ≠ .connect) :
    Spent { s with client := client } where
  alternates := spent.alternates
  getline isGetline := absurd isGetline notGetline
  recv line isRecv := absurd isRecv (notRecv line)
  connect isConnect := absurd isConnect notConnect

/-- The service goes on, and does not come back from where it leaves. -/
theorem of_service
    {serving : Serving}
    {toServer : Bytes}
    {reset : Bool}
    (spent : Spent s)
    (stays : leaves s.serving = true → leaves serving = true) :
    Spent { s with serving := serving, toServer := toServer, reset := reset } where
  alternates := spent.alternates
  getline here answered := stays (spent.getline here answered)
  recv line here answered :=
    ⟨stays (spent.recv line here answered).1, (spent.recv line here answered).2⟩
  connect := spent.connect

/-- Every move, with a service that answers once. -/
theorem move
    (short : ∀ chunk, (f.reply chunk).length ≤ 1023)
    (once : f.loops = false)
    (sound : Sound f s)
    (spent : Spent s)
    (moved : State.Move f s t) :
    Spent t := by
  cases moved with
  | connected here =>
      have fresh := spent.connect here
      constructor
      · exact spent.alternates
      · exact fun _ answered => absurd (fresh.symm.trans answered) (by decide)
      · exact fun line isRecv => absurd isRecv (by simp)
      · exact fun isConnect => absurd isConnect (by simp)
  | refused here => exact spent.of_ended (by simp) (by simp) (by simp)
  | quit here => exact spent.of_ended (by simp) (by simp) (by simp)
  | sigpipe here reset => exact spent.of_ended (by simp) (by simp) (by simp)
  | nothing here empty => exact spent.of_nothing (by simp)
  | @sent line here nonempty =>
      have aligned := sound.aligned
      rw [here] at aligned
      constructor
      · exact spent.alternates
      · exact fun isGetline => absurd isGetline (by simp)
      · intro other _ answered
        exact ⟨spent.getline here answered, aligned.toClient_eq_nil⟩
      · exact fun isConnect => absurd isConnect (by simp)
  | @printed line here present =>
      have aligned := sound.aligned
      rw [here] at aligned
      have leaving := (aligned.recv short present).2.2 once
      have notAnswered : lastAnswered s.shown = false := by
        by_contra answered
        have nothing := (spent.recv line here (Bool.eq_true_of_not_eq_false answered)).2
        exact present nothing
      constructor
      · exact spent.alternates.concat (.inl notAnswered)
      · exact fun _ _ => leaving
      · exact fun other isRecv => absurd isRecv (by simp)
      · exact fun isConnect => absurd isConnect (by simp)
  | ended here empty closed => exact spent.of_nothing (by simp)
  | failed here empty closed reset => exact spent.of_nothing (by simp)
  | stop reading => exact spent.of_service fun _ => rfl
  | read reading same =>
      apply spent.of_service
      intro leaving
      rw [reading] at leaving
      exact absurd leaving (by decide)
  | @write message writing =>
      have working (leaving : leaves s.serving = true) : False := by
        rw [writing] at leaving
        exact absurd leaving (by simp [leaves])
      constructor
      · exact spent.alternates
      · exact fun here answered => (working (spent.getline here answered)).elim
      · exact fun line here answered => (working (spent.recv line here answered).1).elim
      · exact spent.connect
  | close leaving => exact spent.of_service fun _ => rfl

end Spent

/-- All runs with a service that answers once. -/
theorem everyOther
    (short : ∀ chunk, (f.reply chunk).length ≤ 1023)
    (once : f.loops = false) :
    (machine f).Invariant fun s => EveryOther s.shown := by
  have spent : (machine f).Invariant Spent := by
    apply Transition.Machine.invariant_of_steps
    · rintro s rfl
      constructor
      · exact List.isChain_nil
      · exact fun _ answered => absurd answered (by decide)
      · exact fun _ _ answered => absurd answered (by decide)
      · exact fun _ => rfl
    · rintro s t reached spent ⟨action, acted⟩
      exact spent.move short once (sound short s reached) (State.move_of_act acted)
  exact fun s reached => (spent s reached).alternates

/-! ## The service that goes on -/

/-- The client is through with no line without an answer, but for those that `send` cannot
send. -/
def AllAnswered (shown : List (Line × Option Bytes)) : Prop :=
  ∀ line printed, (line, printed) ∈ shown → line.bytes ≠ [] → printed ≠ none

/-- No `read` of the service fails. -/
def ReadsOn (s t : State) : Prop :=
  s.serving = .read → t.serving ≠ .close

/-- The service of the connection goes on. -/
structure Served (s : State) : Prop where
  answered : AllAnswered s.shown
  stays : s.client.isApart = false → leaves s.serving = false

/-- One more line, which is answered or empty. -/
theorem AllAnswered.concat
    {shown : List (Line × Option Bytes)}
    {line : Line}
    {printed : Option Bytes}
    (answered : AllAnswered shown)
    (isAnswered : line.bytes ≠ [] → printed ≠ none) :
    AllAnswered (shown ++ [(line, printed)]) := by
  intro other text present nonempty
  rcases List.mem_append.mp present with before | new
  · exact answered other text before nonempty
  · obtain ⟨rfl, rfl⟩ := Prod.mk.inj (List.mem_singleton.mp new)
    exact isAnswered nonempty

/-- Every move on which no `read` fails. -/
theorem Served.move
    (loops : f.loops = true)
    (served : Served s)
    (moved : State.Move f s t)
    (readsOn : ReadsOn s t) :
    Served t := by
  have atRecv {line : Line} (here : s.client = .recv line) : leaves s.serving = false := by
    apply served.stays
    rw [here]
    rfl
  cases moved with
  | connected here => exact ⟨served.answered, fun _ => rfl⟩
  | refused here =>
      exact ⟨served.answered, fun linked => absurd linked (by simp [Point.isApart])⟩
  | quit here =>
      exact ⟨served.answered, fun linked => absurd linked (by simp [Point.isApart])⟩
  | sigpipe here reset =>
      exact ⟨served.answered, fun linked => absurd linked (by simp [Point.isApart])⟩
  | nothing here empty =>
      exact ⟨served.answered.concat fun nonempty => absurd empty nonempty,
        fun linked => absurd linked (by simp [Point.isApart])⟩
  | sent here nonempty =>
      refine ⟨served.answered, fun _ => served.stays ?_⟩
      rw [here]
      rfl
  | printed here present =>
      exact ⟨served.answered.concat fun _ => Option.some_ne_none _, fun _ => atRecv here⟩
  | ended here empty closed =>
      have leaving := leaves_of_hasClosed closed
      exact absurd (leaving.symm.trans (atRecv here)) (by decide)
  | failed here empty closed reset =>
      have leaving := leaves_of_hasClosed closed
      exact absurd (leaving.symm.trans (atRecv here)) (by decide)
  | stop reading => exact absurd rfl (readsOn reading)
  | read reading same => exact ⟨served.answered, fun _ => rfl⟩
  | write writing =>
      refine ⟨served.answered, fun _ => ?_⟩
      change leaves (if f.loops then .read else .close) = false
      rw [loops]
      rfl
  | close leaving =>
      refine ⟨served.answered, fun linked => ?_⟩
      have stays := served.stays linked
      rw [leaving] at stays
      exact absurd stays (by decide)

/-- All runs with a service that goes on, on which no `read` fails. -/
theorem allAnswered
    (loops : f.loops = true) :
    ((machine f).restrict ReadsOn).Invariant fun s => AllAnswered s.shown := by
  have served : ((machine f).restrict ReadsOn).Invariant Served := by
    apply Transition.Machine.invariant_of_steps
    · rintro s rfl
      exact ⟨fun _ _ shown => absurd shown List.not_mem_nil,
        fun linked => absurd linked (by decide)⟩
    · rintro s t _ served ⟨⟨action, acted⟩, readsOn⟩
      exact served.move loops (State.move_of_act acted) readsOn
  exact fun s reached => (served s reached).answered

/-! ## The services of the server -/

/-- What a service takes out of its buffer fits into the one of the client. -/
theorem length_text_le (chunk : Chunk) : chunk.text.length ≤ 1023 := by
  rw [Chunk.text_eq]
  exact Nat.le_trans (Text.cString_sublist 0 chunk.bytes).length_le chunk.bounded

theorem service_short (chunk : Chunk) : (service.reply chunk).length ≤ 1023 :=
  length_text_le chunk

theorem change_short (chunk : Chunk) : (change.reply chunk).length ≤ 1023 := by
  rw [change, List.length_map]
  exact length_text_le chunk

theorem dictOnline_short (chunk : Chunk) : (dictOnline.reply chunk).length ≤ 1023 := by
  change ((dict.lookup chunk.text).getD (utf8 "我不知道...")).length ≤ 1023
  have entries : ∀ entry ∈ dict, entry.2.length ≤ 1023 := by decide +kernel
  cases found : dict.lookup chunk.text with
  | none =>
      rw [Option.getD_none]
      decide +kernel
  | some message =>
      obtain ⟨front, back, isEntry, -⟩ := List.lookup_eq_some_iff.mp found
      apply entries (chunk.text, message)
      rw [isEntry]
      exact List.mem_append_right front List.mem_cons_self

/-- Whatever the client prints for a line is the answer of the service to this line. With
a service that answers once, it prints nothing for one of two lines in a row; with the
service that goes on, it gives up no line but an empty one, unless a `read` fails. -/
theorem client_of_services :
    (∀ f ∈ [service, change, dictOnline], (machine f).Invariant fun s => Own f s.shown) ∧
      (∀ f ∈ [change, dictOnline], (machine f).Invariant fun s => EveryOther s.shown) ∧
      ((machine service).restrict ReadsOn).Invariant fun s => AllAnswered s.shown := by
  refine ⟨?_, ?_, allAnswered rfl⟩
  · have own {f : Service} (short : ∀ chunk, (f.reply chunk).length ≤ 1023) :
        (machine f).Invariant fun s => Own f s.shown :=
      fun s reached => (sound short s reached).own
    simp only [List.forall_mem_cons, List.not_mem_nil, false_imp_iff, implies_true, and_true]
    exact ⟨own service_short, own change_short, own dictOnline_short⟩
  · simp only [List.forall_mem_cons, List.not_mem_nil, false_imp_iff, implies_true, and_true]
    exact ⟨everyOther change_short rfl, everyOther dictOnline_short rfl⟩

end TcpClient
end TcpPool
end LearnInLinux
