import LearnInLinux.Basic
import LearnInLinux.Library.Ranking
import Mathlib.Tactic

/-!
# The named pipe

A server creates a named pipe, opens it and forks three children, which all read from it
and print what they get; behind them it removes the pipe. Any number of clients open the
pipe and write the lines that are typed into them. Every step of a process is atomic, and
any process may take the next one.
-/

namespace LearnInLinux
namespace Fifo

open Threads
open Transition (run Settled Ranked)

/-- Children of the server. -/
def nums : Nat := 3

/-- Length of `buffer`. -/
def SIZE : Nat := 128

/-- A `write` of at most so many bytes is atomic. -/
def PIPE_BUF : Nat := 4096

/-- What one party did in a history of all of them. -/
def entriesOf {κ α : Type} [DecidableEq κ] (party : κ) (history : List (κ × α)) : List α :=
  history.filterMap fun entry => if entry.1 = party then some entry.2 else none

theorem entriesOf_concat_self
    {κ α : Type}
    [DecidableEq κ]
    (party : κ) (history : List (κ × α)) (entry : α) :
    entriesOf party (history ++ [(party, entry)]) = entriesOf party history ++ [entry] := by
  rw [entriesOf, List.filterMap_append, List.filterMap_cons_some (by rw [if_pos rfl])]
  rfl

/-- An entry of another party does not count. -/
theorem entriesOf_concat_other
    {κ α : Type}
    [DecidableEq κ]
    {party other : κ}
    (history : List (κ × α)) (entry : α)
    (different : other ≠ party) :
    entriesOf party (history ++ [(other, entry)]) = entriesOf party history := by
  rw [entriesOf, List.filterMap_append,
    List.filterMap_cons_none (by rw [if_neg different])]
  exact List.append_nil _

/-- Where the server is in `main`. -/
inductive ServerAt
  | mkfifo
  /-- In `open(ipcPath.c_str(), O_RDONLY)`, which waits for a writer. -/
  | openRead
  | fork (i : Fin nums)
  | waitpid (i : Fin nums)
  | close
  | unlink
  | exited (status : Nat)

/-- Where a child is in `getMessage`. -/
inductive ChildAt
  /-- Not forked. -/
  | absent
  | read
  /-- In front of `cout`, with the bytes that were read. -/
  | print (chunk : Bytes)
  /-- Behind `exit(1)`, and not waited for yet. -/
  | exited
  | reaped

/-- Where a client is in its `main`. -/
inductive ClientAt
  | absent
  /-- In `open(ipcPath.c_str(), O_WRONLY)`, which waits for a reader. -/
  | openWrite
  | getline
  /-- In `write`: what has been written of the line, and the rest. -/
  | write (sent rest : Bytes)
  /-- The open failed, or a signal has killed the client. -/
  | gone

/-- The child is in its loop. -/
def ChildAt.isAlive : ChildAt → Bool
  | .read => true
  | .print _ => true
  | _ => false

/-- Forked and not waited for. -/
def ChildAt.isLeft : ChildAt → Bool
  | .read => true
  | .print _ => true
  | .exited => true
  | _ => false

/-- The server has the pipe open for reading, or is about to. -/
def ServerAt.hasFd : ServerAt → Bool
  | .openRead => true
  | .fork _ => true
  | .waitpid _ => true
  | .close => true
  | _ => false

/-- The client has the pipe open. -/
def ClientAt.hasFd : ClientAt → Bool
  | .getline => true
  | .write _ _ => true
  | _ => false

/-- The pipe and its file, the server with its children, the clients, and what was done so
far. -/
structure State (ι : Type) where
  /-- The file `ipcPath` is there. -/
  linked : Bool
  pipe : Bytes
  /-- A client has opened the pipe, so that the `open` of the server returns. -/
  arrived : Bool
  server : ServerAt
  children : Fin nums → ChildAt
  clients : ι → ClientAt
  /-- The lines typed, and the pieces of them that were written. -/
  typed : List (ι × Bytes)
  written : List (ι × Bytes)
  /-- What `read` has returned to the children, and what they have printed. -/
  reads : List (Fin nums × Bytes)
  printed : List (Fin nums × Bytes)

/-- A step of a process. How a system call ends and how many bytes it transfers is up to
the environment, as are the lines typed, the clients started and the signals. -/
inductive Action (ι : Type)
  /-- The next step of the server; `ok` says whether a `fork` succeeds. -/
  | server (ok : Bool)
  /-- `waitpid` returns for this child. -/
  | reap (child : Fin nums)
  | openFails
  /-- The next step of the child; its `read` returns `n` bytes. -/
  | child (child : Fin nums) (n : Nat)
  | readFails (child : Fin nums)
  | start (client : ι)
  | getline (client : ι) (buffer : Bytes)
  /-- `n` bytes are written. -/
  | write (client : ι) (n : Nat)
  | kill (client : ι)

/-- Behind a turn of the loop of `fork`. -/
def ServerAt.forked (i : Fin nums) : ServerAt :=
  if next : i.val + 1 < nums then .fork ⟨i.val + 1, next⟩ else .waitpid ⟨0, by decide⟩

/-- Behind a turn of the loop of `waitpid`. -/
def ServerAt.waited (i : Fin nums) : ServerAt :=
  if next : i.val + 1 < nums then .waitpid ⟨i.val + 1, next⟩ else .close

namespace State

variable {ι : Type}

/-- Somebody can read from the pipe. -/
def hasReader (s : State ι) : Bool :=
  s.server.hasFd || decide (∃ child, (s.children child).isAlive = true)

/-- A client has the pipe open. -/
def hasWriter [Fintype ι] (s : State ι) : Bool :=
  decide (∃ client, (s.clients client).hasFd = true)

/-- In front of `main` of the server; the file may be there from an earlier run. -/
def create (linked : Bool) : State ι where
  linked := linked
  pipe := []
  arrived := false
  server := .mkfifo
  children _ := .absent
  clients _ := .absent
  typed := []
  written := []
  reads := []
  printed := []

/-- The next step of `main`, but for a `waitpid` that returns for a child. -/
def main (ok : Bool) (s : State ι) : Option (State ι) :=
  match s.server with
  | .mkfifo =>
      if s.linked then some { s with server := .exited 1 }
      else some { s with linked := true, server := .openRead }
  | .openRead =>
      if s.arrived then some { s with server := .fork ⟨0, by decide⟩ } else none
  | .fork i =>
      some { s with
        server := .forked i
        children := if ok then Function.update s.children i .read else s.children }
  | .waitpid i =>
      -- Without children `waitpid` returns `-1` at once.
      if ∃ child, (s.children child).isLeft = true then none
      else some { s with server := .waited i }
  | .close => some { s with server := .unlink }
  | .unlink => some { s with linked := false, server := .exited 0 }
  | .exited _ => none

variable [DecidableEq ι] [Fintype ι]

/-- The next step of `getMessage`. -/
def getMessage (child : Fin nums) (n : Nat) (s : State ι) : Option (State ι) :=
  match s.children child with
  | .read =>
      if s.pipe = [] then
        if s.hasWriter then none
        else some { s with children := Function.update s.children child .exited }
      else if 0 < n ∧ n ≤ SIZE - 1 ∧ n ≤ s.pipe.length then
        some { s with
          pipe := s.pipe.drop n
          children := Function.update s.children child (.print (s.pipe.take n))
          reads := s.reads ++ [(child, s.pipe.take n)] }
      else none
  | .print chunk =>
      some { s with
        children := Function.update s.children child .read
        printed := s.printed ++ [(child, Text.cString 0 chunk)] }
  | _ => none

/-- A step in the `write` of a client, on a pipe of `room` bytes. -/
def write (room : Nat) (client : ι) (n : Nat) (s : State ι) : Option (State ι) :=
  match s.clients client with
  | .write sent rest =>
      if rest = [] then some { s with clients := Function.update s.clients client .getline }
      else if s.hasReader = false then
        some { s with clients := Function.update s.clients client .gone }
      else if 0 < n ∧ n ≤ rest.length ∧ s.pipe.length + n ≤ room ∧
          (sent.length + rest.length ≤ PIPE_BUF → n = rest.length) then
        some { s with
          pipe := s.pipe ++ rest.take n
          clients :=
            Function.update s.clients client (.write (sent ++ rest.take n) (rest.drop n))
          written := s.written ++ [(client, rest.take n)] }
      else none
  | _ => none

/-- `open(ipcPath.c_str(), O_WRONLY)` -/
def start (client : ι) (s : State ι) : Option (State ι) :=
  match s.clients client with
  | .absent =>
      if s.linked then
        if s.hasReader then
          some { s with
            arrived := true
            clients := Function.update s.clients client .getline }
        else some { s with clients := Function.update s.clients client .openWrite }
      else some { s with clients := Function.update s.clients client .gone }
  | _ => none

/-- A step of a process; `none` while it is not the next one, or has to wait. -/
def act (room : Nat) (action : Action ι) (s : State ι) : Option (State ι) :=
  match action with
  | .server ok => s.main ok
  | .reap child =>
      match s.server, s.children child with
      | .waitpid i, .exited =>
          some { s with
            server := .waited i
            children := Function.update s.children child .reaped }
      | _, _ => none
  | .openFails =>
      match s.server with
      | .openRead => some { s with server := .exited 2 }
      | _ => none
  | .child child n => s.getMessage child n
  | .readFails child =>
      match s.children child with
      | .read => some { s with children := Function.update s.children child .exited }
      | _ => none
  | .start client => s.start client
  | .getline client buffer =>
      match s.clients client with
      | .getline =>
          if 10 ∈ buffer then none
          else
            some { s with
              clients := Function.update s.clients client (.write [] buffer)
              typed := s.typed ++ [(client, buffer)] }
      | _ => none
  | .write client n => s.write room client n
  | .kill client =>
      match s.clients client with
      | .absent => none
      | _ => some { s with clients := Function.update s.clients client .gone }

end State

/-- All runs of the server with any clients. The file may be there from the start. -/
def machine (ι : Type) [DecidableEq ι] [Fintype ι] (room : Nat) :
    Transition.Machine (State ι) :=
  .ofStep (fun s => ∃ linked, s = State.create linked) (State.act room)

/-! ## What a step is -/

namespace State

variable {ι : Type} [DecidableEq ι] [Fintype ι]

/-- Everything that one action can do. -/
inductive Move (room : Nat) (s : State ι) : Action ι → State ι → Prop
  | mkfifoFails {ok : Bool}
      (here : s.server = .mkfifo) :
      Move room s (.server ok) { s with server := .exited 1 }
  | mkfifo {ok : Bool}
      (here : s.server = .mkfifo) :
      Move room s (.server ok) { s with linked := true, server := .openRead }
  | opened {ok : Bool}
      (here : s.server = .openRead)
      (arrived : s.arrived = true) :
      Move room s (.server ok) { s with server := .fork ⟨0, by decide⟩ }
  | fork {i : Fin nums} {ok : Bool}
      (here : s.server = .fork i) :
      Move room s (.server ok) { s with
        server := .forked i
        children := if ok then Function.update s.children i .read else s.children }
  | childless {i : Fin nums} {ok : Bool}
      (here : s.server = .waitpid i)
      (nobody : ∀ child, (s.children child).isLeft = false) :
      Move room s (.server ok) { s with server := .waited i }
  | close {ok : Bool}
      (here : s.server = .close) :
      Move room s (.server ok) { s with server := .unlink }
  | unlink {ok : Bool}
      (here : s.server = .unlink) :
      Move room s (.server ok) { s with linked := false, server := .exited 0 }
  | reap {i child : Fin nums}
      (here : s.server = .waitpid i)
      (ended : s.children child = .exited) :
      Move room s (.reap child) { s with
        server := .waited i
        children := Function.update s.children child .reaped }
  | openFails
      (here : s.server = .openRead) :
      Move room s .openFails { s with server := .exited 2 }
  | endOfFile {child : Fin nums} {n : Nat}
      (here : s.children child = .read)
      (empty : s.pipe = [])
      (noWriter : s.hasWriter = false) :
      Move room s (.child child n) { s with
        children := Function.update s.children child .exited }
  | read {child : Fin nums} {n : Nat}
      (here : s.children child = .read)
      (positive : 0 < n)
      (small : n ≤ SIZE - 1)
      (present : n ≤ s.pipe.length) :
      Move room s (.child child n) { s with
        pipe := s.pipe.drop n
        children := Function.update s.children child (.print (s.pipe.take n))
        reads := s.reads ++ [(child, s.pipe.take n)] }
  | print {child : Fin nums} {n : Nat} {chunk : Bytes}
      (here : s.children child = .print chunk) :
      Move room s (.child child n) { s with
        children := Function.update s.children child .read
        printed := s.printed ++ [(child, Text.cString 0 chunk)] }
  | readFails {child : Fin nums}
      (here : s.children child = .read) :
      Move room s (.readFails child) { s with
        children := Function.update s.children child .exited }
  | startFails {client : ι}
      (here : s.clients client = .absent) :
      Move room s (.start client) { s with
        clients := Function.update s.clients client .gone }
  | startWaits {client : ι}
      (here : s.clients client = .absent) :
      Move room s (.start client) { s with
        clients := Function.update s.clients client .openWrite }
  | start {client : ι}
      (here : s.clients client = .absent) :
      Move room s (.start client) { s with
        arrived := true
        clients := Function.update s.clients client .getline }
  | getline {client : ι} {buffer : Bytes}
      (here : s.clients client = .getline) :
      Move room s (.getline client buffer) { s with
        clients := Function.update s.clients client (.write [] buffer)
        typed := s.typed ++ [(client, buffer)] }
  | written {client : ι} {n : Nat} {sent : Bytes}
      (here : s.clients client = .write sent []) :
      Move room s (.write client n) { s with
        clients := Function.update s.clients client .getline }
  | broken {client : ι} {n : Nat} {sent rest : Bytes}
      (here : s.clients client = .write sent rest) :
      Move room s (.write client n) { s with
        clients := Function.update s.clients client .gone }
  | write {client : ι} {n : Nat} {sent rest : Bytes}
      (here : s.clients client = .write sent rest)
      (positive : 0 < n)
      (present : n ≤ rest.length) :
      Move room s (.write client n) { s with
        pipe := s.pipe ++ rest.take n
        clients :=
          Function.update s.clients client (.write (sent ++ rest.take n) (rest.drop n))
        written := s.written ++ [(client, rest.take n)] }
  | kill {client : ι} :
      Move room s (.kill client) { s with
        clients := Function.update s.clients client .gone }

variable {room : Nat} {s s' : State ι}

/-- A step of the server is one of the moves. -/
theorem move_of_main
    {ok : Bool}
    (acted : s.main ok = some s') :
    s.Move room (.server ok) s' := by
  rw [main] at acted
  split at acted
  · rename_i here
    split at acted
    · obtain rfl := Option.some.inj acted
      exact .mkfifoFails here
    · obtain rfl := Option.some.inj acted
      exact .mkfifo here
  · rename_i here
    split at acted
    · rename_i arrived
      obtain rfl := Option.some.inj acted
      exact .opened here arrived
    · exact absurd acted.symm (Option.some_ne_none s')
  · rename_i here
    obtain rfl := Option.some.inj acted
    exact .fork here
  · rename_i here
    split at acted
    · exact absurd acted.symm (Option.some_ne_none s')
    · rename_i nobody
      obtain rfl := Option.some.inj acted
      exact .childless here fun child =>
        Bool.eq_false_iff.mpr fun isLeft => nobody ⟨child, isLeft⟩
  · rename_i here
    obtain rfl := Option.some.inj acted
    exact .close here
  · rename_i here
    obtain rfl := Option.some.inj acted
    exact .unlink here
  · exact absurd acted.symm (Option.some_ne_none s')

/-- A step of a child is one of the moves. -/
theorem move_of_getMessage
    {child : Fin nums}
    {n : Nat}
    (acted : s.getMessage child n = some s') :
    s.Move room (.child child n) s' := by
  rw [getMessage] at acted
  split at acted
  · rename_i here
    split at acted
    · rename_i empty
      split at acted
      · exact absurd acted.symm (Option.some_ne_none s')
      · rename_i noWriter
        obtain rfl := Option.some.inj acted
        exact .endOfFile here empty (Bool.eq_false_iff.mpr noWriter)
    · split at acted
      · rename_i possible
        obtain rfl := Option.some.inj acted
        exact .read here possible.1 possible.2.1 possible.2.2
      · exact absurd acted.symm (Option.some_ne_none s')
  · rename_i here
    obtain rfl := Option.some.inj acted
    exact .print here
  · exact absurd acted.symm (Option.some_ne_none s')

/-- A `write` of a client is one of the moves. -/
theorem move_of_write
    {client : ι}
    {n : Nat}
    (acted : s.write room client n = some s') :
    s.Move room (.write client n) s' := by
  rw [write] at acted
  split at acted
  · rename_i sent rest here
    split at acted
    · rename_i nothing
      subst nothing
      obtain rfl := Option.some.inj acted
      exact .written here
    · split at acted
      · obtain rfl := Option.some.inj acted
        exact .broken here
      · split at acted
        · rename_i possible
          obtain rfl := Option.some.inj acted
          exact .write here possible.1 possible.2.1
        · exact absurd acted.symm (Option.some_ne_none s')
  · exact absurd acted.symm (Option.some_ne_none s')

theorem move_of_start
    {client : ι}
    (acted : s.start client = some s') :
    s.Move room (.start client) s' := by
  rw [start] at acted
  split at acted
  · rename_i here
    split at acted
    · split at acted
      · obtain rfl := Option.some.inj acted
        exact .start here
      · obtain rfl := Option.some.inj acted
        exact .startWaits here
    · obtain rfl := Option.some.inj acted
      exact .startFails here
  · exact absurd acted.symm (Option.some_ne_none s')

/-- Every action is one of the moves. -/
theorem move_of_act
    {action : Action ι}
    (acted : s.act room action = some s') :
    s.Move room action s' := by
  cases action with
  | server ok => exact move_of_main acted
  | reap child =>
      rw [act] at acted
      split at acted
      · rename_i here ended
        obtain rfl := Option.some.inj acted
        exact .reap here ended
      · exact absurd acted.symm (Option.some_ne_none s')
  | openFails =>
      rw [act] at acted
      split at acted
      · rename_i here
        obtain rfl := Option.some.inj acted
        exact .openFails here
      · exact absurd acted.symm (Option.some_ne_none s')
  | child child n => exact move_of_getMessage acted
  | readFails child =>
      rw [act] at acted
      split at acted
      · rename_i here
        obtain rfl := Option.some.inj acted
        exact .readFails here
      · exact absurd acted.symm (Option.some_ne_none s')
  | start client => exact move_of_start acted
  | getline client buffer =>
      rw [act] at acted
      split at acted
      · rename_i here
        split at acted
        · exact absurd acted.symm (Option.some_ne_none s')
        · obtain rfl := Option.some.inj acted
          exact .getline here
      · exact absurd acted.symm (Option.some_ne_none s')
  | write client n => exact move_of_write acted
  | kill client =>
      rw [act] at acted
      split at acted
      · exact absurd acted.symm (Option.some_ne_none s')
      · obtain rfl := Option.some.inj acted
        exact .kill

end State

/-! ## The invariant -/

/-- What the child has read and not printed. -/
def ChildAt.held : ChildAt → List Bytes
  | .print chunk => [chunk]
  | _ => []

/-- What a client has written of what was typed. -/
def ClientAt.Keeps (written typed : Bytes) : ClientAt → Prop
  | .write sent rest => sent <:+ written ∧ written ++ rest = typed
  | .gone => written <+: typed
  | _ => written = typed

/-- The server has not come to the fork of this child. -/
def ServerAt.isBefore (child : Fin nums) : ServerAt → Prop
  | .mkfifo => True
  | .openRead => True
  | .fork i => i ≤ child
  | .exited status => status ≠ 0
  | _ => False

/-- Calls of `waitpid` that have returned. -/
def ServerAt.waits : ServerAt → Nat
  | .waitpid i => i
  | .close => nums
  | .unlink => nums
  | .exited _ => nums
  | _ => 0

theorem ServerAt.waits_waited (i : Fin nums) : (waited i).waits = i.val + 1 := by
  rw [waited]
  split
  · rfl
  · rename_i isLast
    exact Nat.le_antisymm (Nat.not_lt.mp isLast) i.isLt

theorem ServerAt.waits_forked (i : Fin nums) : (forked i).waits = 0 := by
  rw [forked]
  split
  · rfl
  · rfl

/-- Behind a `fork` only the later children are still to come. -/
theorem ServerAt.isBefore_forked
    {i child : Fin nums}
    (before : (forked i).isBefore child) :
    i < child := by
  rw [forked] at before
  split at before
  · exact Nat.lt_of_succ_le before
  · exact absurd before not_false

theorem ServerAt.not_isBefore_waited (i child : Fin nums) : ¬ (waited i).isBefore child := by
  rw [waited]
  split
  · exact not_false
  · exact not_false

namespace State

variable {ι : Type}

/-- The child prints what it reads, each time up to the first NUL. -/
def Prints (s : State ι) (child : Fin nums) : Prop :=
  ∃ finished, finished ++ (s.children child).held = entriesOf child s.reads ∧
    entriesOf child s.printed = finished.map (Text.cString 0)

/-- What went into the pipe comes out of it in pieces, each printed by the child that read
it, and everybody is where this needs them to be. -/
structure Sound [DecidableEq ι] (s : State ι) : Prop where
  stream : (s.reads.map Prod.snd).flatten ++ s.pipe = (s.written.map Prod.snd).flatten
  sizes : ∀ entry ∈ s.reads, entry.2 ≠ [] ∧ entry.2.length ≤ SIZE - 1
  prints : ∀ child, s.Prints child
  keeps : ∀ client, (s.clients client).Keeps (entriesOf client s.written).flatten
    (entriesOf client s.typed).flatten
  forks : ∀ child, s.server.isBefore child → s.children child = .absent
  waits : count ChildAt.isLeft s.children + s.server.waits ≤ nums
  arrivals : ∀ client, (s.clients client).hasFd = true → s.arrived = true

/-- Nothing has been written or read yet. -/
theorem sound_create
    [DecidableEq ι]
    (linked : Bool) :
    (create linked : State ι).Sound := by
  constructor
  · rfl
  · exact fun entry present => absurd present List.not_mem_nil
  · exact fun child => ⟨[], rfl, rfl⟩
  · exact fun client => rfl
  · exact fun child before => rfl
  · have nobody : count ChildAt.isLeft (create linked : State ι).children = 0 :=
      count_eq_zero_iff.mpr fun child => rfl
    rw [nobody]
    exact Nat.zero_le nums
  · exact fun client holds => absurd holds Bool.false_ne_true

variable {s s' : State ι} {child : Fin nums}

/-- Only what a child has in hand matters. -/
theorem prints_of_update
    {point : ChildAt}
    (prints : ∀ child, s.Prints child)
    (same : point.held = (s.children child).held)
    (children : s'.children = Function.update s.children child point)
    (printed : s'.printed = s.printed)
    (reads : s'.reads = s.reads)
    (other : Fin nums) :
    s'.Prints other := by
  have held : (s'.children other).held = (s.children other).held := by
    rw [children]
    by_cases isChild : other = child
    · rw [isChild, Function.update_self, same]
    · rw [Function.update_of_ne isChild]
  rw [Prints, held, printed, reads]
  exact prints other

/-- A child that has read holds what it is to print. -/
theorem prints_of_read
    {chunk : Bytes}
    (prints : ∀ child, s.Prints child)
    (here : s.children child = .read)
    (children : s'.children = Function.update s.children child (.print chunk))
    (printed : s'.printed = s.printed)
    (reads : s'.reads = s.reads ++ [(child, chunk)])
    (other : Fin nums) :
    s'.Prints other := by
  obtain ⟨finished, all, texts⟩ := prints other
  rw [Prints, children, printed, reads]
  by_cases isChild : other = child
  · subst isChild
    rw [here] at all
    refine ⟨finished, ?_, texts⟩
    rw [Function.update_self, entriesOf_concat_self, ← all]
    exact congrArg (· ++ [chunk]) (List.append_nil finished).symm
  · rw [Function.update_of_ne isChild, entriesOf_concat_other _ _ (Ne.symm isChild)]
    exact ⟨finished, all, texts⟩

/-- A child that has printed holds nothing. -/
theorem prints_of_print
    {chunk : Bytes}
    (prints : ∀ child, s.Prints child)
    (here : s.children child = .print chunk)
    (children : s'.children = Function.update s.children child .read)
    (printed : s'.printed = s.printed ++ [(child, Text.cString 0 chunk)])
    (reads : s'.reads = s.reads)
    (other : Fin nums) :
    s'.Prints other := by
  obtain ⟨finished, all, texts⟩ := prints other
  rw [Prints, children, printed, reads]
  by_cases isChild : other = child
  · subst isChild
    rw [here] at all
    refine ⟨finished ++ [chunk], ?_, ?_⟩
    · rw [Function.update_self]
      exact (List.append_nil _).trans all
    · rw [entriesOf_concat_self, List.map_append, texts]
      rfl
  · rw [Function.update_of_ne isChild, entriesOf_concat_other _ _ (Ne.symm isChild)]
    exact ⟨finished, all, texts⟩

variable [DecidableEq ι] [Fintype ι] {room : Nat} {action : Action ι}

/-- Every step keeps what was written equal to what was read and what is in the pipe. -/
theorem Move.stream
    (moved : s.Move room action s')
    (stream : (s.reads.map Prod.snd).flatten ++ s.pipe = (s.written.map Prod.snd).flatten) :
    (s'.reads.map Prod.snd).flatten ++ s'.pipe = (s'.written.map Prod.snd).flatten := by
  cases moved with
  | read here positive small present =>
      rw [List.map_append, List.flatten_append]
      simp only [List.map_cons, List.map_nil, List.flatten_cons, List.flatten_nil,
        List.append_nil]
      rw [List.append_assoc, List.take_append_drop]
      exact stream
  | write here positive present =>
      rw [List.map_append, List.flatten_append, ← stream]
      simp only [List.map_cons, List.map_nil, List.flatten_cons, List.flatten_nil,
        List.append_nil, List.append_assoc]
  | _ => exact stream

/-- Every piece that is read fits into the buffer. -/
theorem Move.sizes
    (moved : s.Move room action s')
    (sizes : ∀ entry ∈ s.reads, entry.2 ≠ [] ∧ entry.2.length ≤ SIZE - 1) :
    ∀ entry ∈ s'.reads, entry.2 ≠ [] ∧ entry.2.length ≤ SIZE - 1 := by
  cases moved with
  | @read child n here positive small present =>
      intro entry inReads
      rcases List.mem_append.mp inReads with before | isNew
      · exact sizes entry before
      · rw [List.mem_singleton.mp isNew]
        have length : (s.pipe.take n).length = n := List.length_take_of_le present
        refine ⟨?_, ?_⟩
        · exact List.ne_nil_of_length_pos (length.symm ▸ positive)
        · exact Nat.le_trans (Nat.le_of_eq length) small
  | _ => exact sizes

/-- Every step keeps the prints of a child equal to what it has read. -/
theorem Move.prints
    (moved : s.Move room action s')
    (unforked : ∀ child, s.server.isBefore child → s.children child = .absent)
    (prints : ∀ child, s.Prints child) :
    ∀ child, s'.Prints child := by
  cases moved with
  | @fork i ok here =>
      cases ok with
      | false => exact prints
      | true =>
          refine prints_of_update prints ?_ rfl rfl rfl
          rw [unforked i (by rw [here]; exact le_refl i)]
          rfl
  | reap here ended => exact prints_of_update prints (by rw [ended]; rfl) rfl rfl rfl
  | endOfFile here empty noWriter =>
      exact prints_of_update prints (by rw [here]; rfl) rfl rfl rfl
  | readFails here => exact prints_of_update prints (by rw [here]; rfl) rfl rfl rfl
  | read here positive small present => exact prints_of_read prints here rfl rfl rfl
  | print here => exact prints_of_print prints here rfl rfl rfl
  | _ => exact prints

/-- Every step leaves the children that are still to be forked alone. -/
theorem Move.forks
    (moved : s.Move room action s')
    (forks : ∀ child, s.server.isBefore child → s.children child = .absent) :
    ∀ child, s'.server.isBefore child → s'.children child = .absent := by
  -- A child that has been forked is not behind the place of the server.
  have kept {child other : Fin nums} (point : ChildAt)
      (forked : s.children child ≠ .absent)
      (before : s.server.isBefore other) :
      Function.update s.children child point other = .absent := by
    have isAbsent := forks other before
    rw [Function.update_of_ne]
    · exact isAbsent
    · rintro rfl
      exact forked isAbsent
  cases moved with
  | mkfifoFails here => exact fun child _ => forks child (by rw [here]; trivial)
  | mkfifo here => exact fun child _ => forks child (by rw [here]; trivial)
  | opened here arrived => exact fun child _ => forks child (by rw [here]; trivial)
  | @fork i ok here =>
      intro child before
      have later : i < child := ServerAt.isBefore_forked before
      have isAbsent := forks child (by rw [here]; exact le_of_lt later)
      cases ok with
      | false => exact isAbsent
      | true => exact (Function.update_of_ne (ne_of_gt later) _ _).trans isAbsent
  | childless here nobody =>
      exact fun child before => absurd before (ServerAt.not_isBefore_waited _ child)
  | close here => exact fun child before => absurd before not_false
  | unlink here => exact fun child before => absurd rfl before
  | reap here ended =>
      exact fun child before => absurd before (ServerAt.not_isBefore_waited _ child)
  | openFails here => exact fun child _ => forks child (by rw [here]; trivial)
  | endOfFile here empty noWriter =>
      exact fun child before => kept .exited (by rw [here]; simp) before
  | read here positive small present =>
      exact fun child before => kept _ (by rw [here]; simp) before
  | print here => exact fun child before => kept .read (by rw [here]; simp) before
  | readFails here => exact fun child before => kept .exited (by rw [here]; simp) before
  | _ => exact forks

/-- A client that has the pipe open has arrived. -/
theorem Move.arrivals
    (moved : s.Move room action s')
    (arrivals : ∀ client, (s.clients client).hasFd = true → s.arrived = true) :
    ∀ client, (s'.clients client).hasFd = true → s'.arrived = true := by
  have closed {client other : ι} (point : ClientAt)
      (outside : point.hasFd = false)
      (holds : (Function.update s.clients client point other).hasFd = true) :
      s.arrived = true := by
    by_cases same : other = client
    · rw [same, Function.update_self, outside] at holds
      exact absurd holds Bool.false_ne_true
    · rw [Function.update_of_ne same] at holds
      exact arrivals other holds
  cases moved with
  | startFails here => exact fun other holds => closed .gone rfl holds
  | startWaits here => exact fun other holds => closed .openWrite rfl holds
  | start here => exact fun other holds => rfl
  | getline here => exact fun other _ => arrivals _ (by rw [here]; rfl)
  | written here => exact fun other _ => arrivals _ (by rw [here]; rfl)
  | broken here => exact fun other holds => closed .gone rfl holds
  | write here positive present => exact fun other _ => arrivals _ (by rw [here]; rfl)
  | kill => exact fun other holds => closed .gone rfl holds
  | _ => exact arrivals

/-- One child more or less is left. -/
theorem Move.waits
    (moved : s.Move room action s')
    (forks : ∀ child, s.server.isBefore child → s.children child = .absent)
    (waits : count ChildAt.isLeft s.children + s.server.waits ≤ nums) :
    count ChildAt.isLeft s'.children + s'.server.waits ≤ nums := by
  have nobody (unforked : ∀ child, s.children child = .absent) :
      count ChildAt.isLeft s.children = 0 :=
    count_eq_zero_iff.mpr fun child => by rw [unforked child]; rfl
  have most (pc : Fin nums → ChildAt) : count ChildAt.isLeft pc ≤ nums :=
    (Finset.card_le_univ _).trans (Nat.le_of_eq (Fintype.card_fin nums))
  have same {child : Fin nums} {before point : ChildAt}
      (here : s.children child = before)
      (isLeft : point.isLeft = before.isLeft) :
      count ChildAt.isLeft (Function.update s.children child point) +
        s.server.waits ≤ nums := by
    rw [count_update_same here isLeft]
    exact waits
  cases moved with
  | mkfifoFails here =>
      have unforked := nobody fun child => forks child (by rw [here]; trivial)
      change count ChildAt.isLeft s.children + nums ≤ nums
      rw [unforked, Nat.zero_add]
  | mkfifo here => exact most _
  | opened here arrived => exact most _
  | @fork i ok here =>
      have returned := ServerAt.waits_forked i
      exact Nat.le_trans (Nat.le_of_eq (congrArg _ returned)) (most _)
  | @childless i ok here empty =>
      have left : count ChildAt.isLeft s.children = 0 := count_eq_zero_iff.mpr empty
      have returned := ServerAt.waits_waited i
      have isChild := i.isLt
      change count ChildAt.isLeft s.children + (ServerAt.waited i).waits ≤ nums
      omega
  | close here =>
      rw [here] at waits
      exact waits
  | unlink here =>
      rw [here] at waits
      exact waits
  | @reap i child here ended =>
      rw [here] at waits
      have fewer : count ChildAt.isLeft (Function.update s.children child .reaped) + 1 =
          count ChildAt.isLeft s.children := count_update_leave ended rfl rfl
      have returned := ServerAt.waits_waited i
      change count ChildAt.isLeft (Function.update s.children child .reaped) +
        (ServerAt.waited i).waits ≤ nums
      change count ChildAt.isLeft s.children + i.val ≤ nums at waits
      omega
  | openFails here =>
      have unforked := nobody fun child => forks child (by rw [here]; trivial)
      change count ChildAt.isLeft s.children + nums ≤ nums
      rw [unforked, Nat.zero_add]
  | endOfFile here empty noWriter =>
      exact same here rfl
  | read here positive small present =>
      exact same here rfl
  | print here =>
      exact same here rfl
  | readFails here =>
      exact same here rfl
  | _ => exact waits

omit [Fintype ι] in
/-- A client goes to another point; what the others did stays. -/
theorem keeps_of_update
    {client : ι}
    {point : ClientAt}
    {written typed : List (ι × Bytes)}
    (keeps : ∀ client, (s.clients client).Keeps (entriesOf client s.written).flatten
      (entriesOf client s.typed).flatten)
    (others : ∀ other, client ≠ other → entriesOf other written = entriesOf other s.written ∧
      entriesOf other typed = entriesOf other s.typed)
    (own : point.Keeps (entriesOf client written).flatten (entriesOf client typed).flatten)
    (other : ι) :
    (Function.update s.clients client point other).Keeps (entriesOf other written).flatten
      (entriesOf other typed).flatten := by
  by_cases same : other = client
  · rw [same, Function.update_self]
    exact own
  · rw [Function.update_of_ne same, (others other (Ne.symm same)).1,
      (others other (Ne.symm same)).2]
    exact keeps other

/-- Every step keeps what a client has written a beginning of what was typed. -/
theorem Move.keeps
    (moved : s.Move room action s')
    (keeps : ∀ client, (s.clients client).Keeps (entriesOf client s.written).flatten
      (entriesOf client s.typed).flatten) :
    ∀ client, (s'.clients client).Keeps (entriesOf client s'.written).flatten
      (entriesOf client s'.typed).flatten := by
  have quiet {client : ι} {point : ClientAt}
      (own : point.Keeps (entriesOf client s.written).flatten
        (entriesOf client s.typed).flatten) :
      ∀ other, (Function.update s.clients client point other).Keeps
        (entriesOf other s.written).flatten (entriesOf other s.typed).flatten :=
    keeps_of_update keeps (fun other different => ⟨rfl, rfl⟩) own
  cases moved with
  | @startFails client here =>
      have before := keeps client
      rw [here] at before
      exact quiet (before ▸ List.prefix_rfl)
  | @startWaits client here =>
      have before := keeps client
      rw [here] at before
      exact quiet before
  | @start client here =>
      have before := keeps client
      rw [here] at before
      exact quiet before
  | @getline client buffer here =>
      have before := keeps client
      rw [here] at before
      refine keeps_of_update keeps (fun other different => ⟨rfl, ?_⟩) ?_
      · exact entriesOf_concat_other _ _ different
      · refine ⟨List.nil_suffix, ?_⟩
        rw [entriesOf_concat_self, List.flatten_append, ← before]
        exact congrArg _ (List.append_nil buffer).symm
  | @written client n sent here =>
      have before := keeps client
      rw [here] at before
      exact quiet ((List.append_nil _).symm.trans before.2)
  | @broken client n sent rest here =>
      have before := keeps client
      rw [here] at before
      exact quiet ⟨rest, before.2⟩
  | @write client n sent rest here positive present =>
      have before := keeps client
      rw [here] at before
      refine keeps_of_update keeps (fun other different => ⟨?_, rfl⟩) ?_
      · exact entriesOf_concat_other _ _ different
      · rw [entriesOf_concat_self, List.flatten_append, List.flatten_singleton]
        refine ⟨?_, ?_⟩
        · obtain ⟨front, whole⟩ := before.1
          exact ⟨front, by rw [← whole, List.append_assoc]⟩
        · rw [List.append_assoc, List.take_append_drop]
          exact before.2
  | @kill client =>
      apply quiet
      have before := keeps client
      cases here : s.clients client with
      | write sent rest =>
          rw [here] at before
          exact ⟨rest, before.2⟩
      | gone =>
          rw [here] at before
          exact before
      | _ =>
          rw [here] at before
          exact before ▸ List.prefix_rfl
  | _ => exact keeps

/-- Every step keeps the invariant. -/
theorem Sound.move
    (sound : s.Sound)
    (moved : s.Move room action s') :
    s'.Sound := by
  constructor
  · exact moved.stream sound.stream
  · exact moved.sizes sound.sizes
  · exact moved.prints sound.forks sound.prints
  · exact moved.keeps sound.keeps
  · exact moved.forks sound.forks
  · exact moved.waits sound.forks sound.waits
  · exact moved.arrivals sound.arrivals

end State

/-- The invariant holds in every run. -/
theorem sound
    (ι : Type) [DecidableEq ι] [Fintype ι] (room : Nat) :
    (machine ι room).Invariant State.Sound := by
  apply Transition.Machine.invariant_of_actions
  · rintro s ⟨linked, rfl⟩
    exact State.sound_create linked
  · exact fun action s s' sound acted => sound.move (State.move_of_act acted)

/-! ## What arrives -/

theorem mem_entriesOf_iff
    {κ α : Type}
    [DecidableEq κ]
    {party : κ}
    {history : List (κ × α)}
    {entry : α} :
    entry ∈ entriesOf party history ↔ (party, entry) ∈ history := by
  rw [entriesOf, List.mem_filterMap]
  constructor
  · rintro ⟨⟨other, found⟩, present, isEntry⟩
    by_cases same : other = party
    · rw [if_pos same] at isEntry
      rw [← same, ← Option.some.inj isEntry]
      exact present
    · rw [if_neg same] at isEntry
      exact absurd isEntry.symm (Option.some_ne_none entry)
  · exact fun present => ⟨(party, entry), present, if_pos rfl⟩

/-- A client writes what was typed, from its beginning. -/
theorem ClientAt.Keeps.isPrefix
    {written typed : Bytes}
    {point : ClientAt}
    (keeps : point.Keeps written typed) :
    written <+: typed := by
  cases point with
  | write sent rest => exact ⟨rest, keeps.2⟩
  | gone => exact keeps
  | _ => exact keeps ▸ List.prefix_rfl

namespace State

variable {ι : Type} [DecidableEq ι] {s : State ι}

/-- Every byte that was read has been typed into some client. -/
theorem Sound.typed_of_read
    {entry : Fin nums × Bytes}
    {byte : UInt8}
    (sound : s.Sound)
    (wasRead : entry ∈ s.reads)
    (present : byte ∈ entry.2) :
    ∃ line ∈ s.typed, byte ∈ line.2 := by
  have inStream : byte ∈ (s.written.map Prod.snd).flatten := by
    rw [← sound.stream]
    apply List.mem_append_left
    exact List.mem_flatten_of_mem (List.mem_map_of_mem wasRead) present
  obtain ⟨piece, isPiece, inPiece⟩ := List.mem_flatten.mp inStream
  obtain ⟨⟨client, own⟩, wasWritten, rfl⟩ := List.mem_map.mp isPiece
  have inOwn : byte ∈ (entriesOf client s.written).flatten :=
    List.mem_flatten_of_mem (mem_entriesOf_iff.mpr wasWritten) inPiece
  have inTyped := (sound.keeps client).isPrefix.subset inOwn
  obtain ⟨line, isLine, inLine⟩ := List.mem_flatten.mp inTyped
  exact ⟨(client, line), mem_entriesOf_iff.mp isLine, inLine⟩

/-- What the pipe is for. -/
structure Delivers (s : State ι) : Prop where
  /-- What the children have read is what was written, in this order and without gaps;
  only what is in the pipe has not been read. -/
  stream : (s.reads.map Prod.snd).flatten ++ s.pipe = (s.written.map Prod.snd).flatten
  sizes : ∀ entry ∈ s.reads, entry.2 ≠ [] ∧ entry.2.length ≤ SIZE - 1
  prints : ∀ child, s.Prints child
  /-- Without NUL in the lines, the texts are the bytes. -/
  texts : (∀ line ∈ s.typed, 0 ∉ line.2) → ∀ child,
    entriesOf child s.printed ++ (s.children child).held = entriesOf child s.reads
  /-- A client writes what is typed into it, all of it in front of the next line. -/
  writes : ∀ client,
    (entriesOf client s.written).flatten <+: (entriesOf client s.typed).flatten ∧
      (s.clients client = .getline →
        (entriesOf client s.written).flatten = (entriesOf client s.typed).flatten)
  /-- Behind the loop of `waitpid` there is no child any more. -/
  reaped : s.server = .close ∨ s.server = .unlink ∨ s.server = .exited 0 →
    ∀ child, (s.children child).isLeft = false

/-- Without NUL bytes a child prints what it has read. -/
theorem Sound.texts
    (sound : s.Sound)
    (textOnly : ∀ line ∈ s.typed, 0 ∉ line.2)
    (child : Fin nums) :
    entriesOf child s.printed ++ (s.children child).held = entriesOf child s.reads := by
  obtain ⟨finished, all, texts⟩ := sound.prints child
  have whole : ∀ chunk ∈ finished, Text.cString 0 chunk = chunk := by
    intro chunk present
    apply Text.cString_eq_self
    intro isZero
    have wasRead : chunk ∈ entriesOf child s.reads := by
      rw [← all]
      exact List.mem_append_left _ present
    obtain ⟨line, isLine, inLine⟩ :=
      sound.typed_of_read (mem_entriesOf_iff.mp wasRead) isZero
    exact textOnly line isLine inLine
  rw [texts, List.map_congr_left whole, List.map_id', all]

/-- Behind the loop of `waitpid` no child is left. -/
theorem Sound.reaped
    (sound : s.Sound)
    (behind : s.server = .close ∨ s.server = .unlink ∨ s.server = .exited 0)
    (child : Fin nums) :
    (s.children child).isLeft = false := by
  have waits := sound.waits
  have all : s.server.waits = nums := by
    rcases behind with here | here | here
    all_goals
      rw [here]
      rfl
  have nobody : count ChildAt.isLeft s.children = 0 := by omega
  exact count_eq_zero_iff.mp nobody child

/-- The invariant says what the two programs are for. -/
theorem Sound.delivers (sound : s.Sound) : s.Delivers := by
  constructor
  · exact sound.stream
  · exact sound.sizes
  · exact sound.prints
  · exact sound.texts
  · intro client
    have keeps := sound.keeps client
    refine ⟨keeps.isPrefix, ?_⟩
    intro here
    rw [here] at keeps
    exact keeps
  · exact sound.reaped

end State

/-- Whatever clients come, go and write, and whoever reads: every byte that is written
is read once, in order, and printed by the child that has read it. -/
theorem fifo_delivers
    (ι : Type) [DecidableEq ι] [Fintype ι] (room : Nat) :
    (machine ι room).Invariant State.Delivers := by
  intro s reached
  exact (sound ι room s reached).delivers

end Fifo
end LearnInLinux
