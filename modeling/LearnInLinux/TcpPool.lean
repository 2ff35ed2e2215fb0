import LearnInLinux.Library.Descriptors
import LearnInLinux.Pthread.Progress
import LearnInLinux.TcpUpper

/-!
# A server with a thread pool

The thread of `start` accepts connections and pushes a task with the socket of each into
the pool; a worker takes the task out and hands the socket to a service, which reads,
answers and closes it. The socket is a bare number on its way through the queue, and the
kernel gives a number out again once it is closed. The runs here are the runs of the pool
with the descriptors of the process beside them. No result of `write` is looked at, and on
a connection that was reset it may end the process by SIGPIPE.
-/

namespace LearnInLinux
namespace TcpPool

open Descriptors

/-! ## The services -/

/-- A service: the answer to what `read` has put into `char buffer[1024]`, and whether it
reads again. -/
structure Service where
  reply : Chunk → Bytes
  loops : Bool

/-- `write(sock, buffer, strlen(buffer))`, up to the end of the connection. -/
def service : Service where
  reply := Chunk.text
  loops := true

/-- One answer, with the small letters of the string made large. -/
def change : Service where
  reply chunk :=
    chunk.text.map fun c => if TcpUpper.islower c then TcpUpper.toupper c else c
  loops := false

/-- The bytes of a text of the source. -/
def utf8 (text : String) : Bytes := text.toUTF8.toList

/-- The words that the service knows. -/
def dict : List (Bytes × Bytes) :=
  [(utf8 "apple", utf8 "苹果"),
    (utf8 "bite", utf8 "比特"),
    (utf8 "banana", utf8 "香蕉"),
    (utf8 "hard", utf8 "好难啊")]

/-- One answer, the entry of the string in the dictionary. -/
def dictOnline : Service where
  reply chunk := (dict.lookup chunk.text).getD (utf8 "我不知道...")
  loops := false

/-! ## The server -/

/-- The arguments of a service. The number of the connection stands for the address of its
client. -/
structure Task where
  sock : Fd
  number : Nat
  deriving DecidableEq

/-- Where a worker is in the service. -/
inductive Serving
  | read
  | write (message : Bytes)
  | close
  | closed

/-- The service has closed its socket. -/
def Serving.hasClosed : Serving → Bool
  | .closed => true
  | _ => false

/-- What was done to a connection. -/
structure Link where
  /-- What the calls of `read` returned; `none` is the end of the stream or an error. -/
  received : List (Option Chunk)
  /-- The texts that `write` was called with, and whether it has sent them. -/
  written : List (Bytes × Bool)
  /-- Number of calls of `close`. -/
  closed : Nat

/-- A connection that was just accepted. -/
def Link.new : Link where
  received := []
  written := []
  closed := 0

/-- Where the thread of `start` is. -/
inductive StartAt
  | accept
  | push (task : Task)
  /-- In the call of `pushTask`. -/
  | pushing

/-- The task that a worker hands to the service. -/
def running : ThreadPool.Point Task → Option Task
  | .routine (.run task) => some task
  | _ => none

/-- The task of a call of `pushTask` that is not in the queue yet. -/
def calling : ThreadPool.Point Task → Option Task
  | .push task .lock => some task
  | .push task .add => some task
  | _ => none

/-- The pool, `Start` and the services that the workers are in, with the connections. -/
structure State (ι : Type) where
  pool : ThreadPool.State ι Task
  main : StartAt
  accepted : List Task
  table : Table
  serving : ι → Serving
  link : Nat → Link
  /-- No `write` has ended the process. -/
  alive : Bool

/-- A step of `start`, of the pool or of a service, with what the kernel returns. -/
inductive Action (ι : Type)
  | accept (result : Option Fd)
  | push
  | pushed
  | next (thread : ι)
  | signal (thread : ι) (woken : Finset ι)
  | wakeup (worker : ι)
  | read (worker : ι) (result : Option Chunk)
  | write (worker : ι) (written : Written)
  | close (worker : ι)

/-- A step of a thread of the process: the kernel brings no connection, and nobody is woken
without a signal. -/
def Action.Own {ι : Type} : Action ι → Prop
  | .accept _ => False
  | .wakeup _ => False
  | _ => True

namespace State

variable {ι : Type}

/-- A call on a socket, for the connection behind it. -/
def onLink (sock : Fd) (change : Link → Link) (s : State ι) : State ι :=
  { s with link := s.table.onLink sock change s.link }

/-- `close(sock)` -/
def close (sock : Fd) (s : State ι) : State ι :=
  let s := s.onLink sock fun link => { link with closed := link.closed + 1 }
  { s with table := s.table.close sock }

variable [DecidableEq ι]

/-- A worker goes to another point of its service. -/
def goto (worker : ι) (point : Serving) (s : State ι) : State ι :=
  { s with serving := Function.update s.serving worker point }

/-- `read` returns. On a descriptor that is no connection it fails. -/
def read (f : Service) (worker : ι) (result : Option Chunk) (s : State ι) :
    Option (State ι) :=
  match running (s.pool.pc worker), s.serving worker with
  | some task, .read =>
      let s := s.onLink task.sock fun link =>
        { link with received := link.received ++ [result] }
      match result, s.table.linkOf task.sock with
      | none, _ => some (s.goto worker .close)
      | some _, none => none
      | some chunk, some _ => some (s.goto worker (.write (f.reply chunk)))
  | _, _ => none

/-- Behind `write`: a service that loops reads again. -/
def behindWrite
    (f : Service) (worker : ι) (sock : Fd) (message : Bytes) (sent : Bool) (s : State ι) :
    State ι :=
  (s.onLink sock fun link =>
    { link with written := link.written ++ [(message, sent)] }).goto worker
      (if f.loops then .read else .close)

/-- `write` returns, or ends the process. -/
def write (f : Service) (worker : ι) (written : Written) (s : State ι) : Option (State ι) :=
  match running (s.pool.pc worker), s.serving worker with
  | some task, .write message =>
      match written with
      | .all => some (s.behindWrite f worker task.sock message true)
      | .failed => some (s.behindWrite f worker task.sock message false)
      | .sigpipe => some { s with alive := false }
  | _, _ => none

/-- The last step of a service. -/
def closeSock (worker : ι) (s : State ι) : Option (State ι) :=
  match running (s.pool.pc worker), s.serving worker with
  | some task, .close => some ((s.close task.sock).goto worker .closed)
  | _, _ => none

variable [Fintype ι]

/-- A step of the pool. -/
def poolAct (action : ThreadPool.Action ι Task) (s : State ι) : Option (State ι) :=
  (s.pool.act .wakeupInside action).map fun pool => { s with pool }

/-- A step of a thread in the code of the pool. It is back from `task(name)` when the
service has closed the socket. -/
def next (thread : ι) (s : State ι) : Option (State ι) :=
  match running (s.pool.pc thread), s.serving thread with
  | none, _ => s.poolAct (.next thread)
  | some _, .closed => (s.poolAct (.next thread)).map fun s => s.goto thread .read
  | some _, _ => none

/-- `accept` returns, and the task is made. -/
def accept (listensock : Fd) (result : Option Fd) (s : State ι) : Option (State ι) :=
  match s.main, result with
  | .accept, none => some s
  | .accept, some sock =>
      if s.table listensock = some .listen ∧ s.table sock = none then
        some { s with
          table := s.table.accept sock s.accepted.length
          accepted := s.accepted ++ [⟨sock, s.accepted.length⟩]
          main := .push ⟨sock, s.accepted.length⟩ }
      else none
  | _, _ => none

/-- A step of a process that is alive. -/
def step (f : Service) (main : ι) (listensock : Fd) (action : Action ι) (s : State ι) :
    Option (State ι) :=
  match action with
  | .accept result => s.accept listensock result
  | .push =>
      match s.main with
      | .push task => (s.poolAct (.push main task)).map fun s => { s with main := .pushing }
      | _ => none
  | .pushed =>
      match s.main, s.pool.pc main with
      | .pushing, .idle => some { s with main := .accept }
      | _, _ => none
  | .next thread => s.next thread
  | .signal thread woken => s.poolAct (.signal thread woken)
  | .wakeup worker => s.poolAct (.wakeup worker)
  | .read worker result => s.read f worker result
  | .write worker written => s.write f worker written
  | .close worker => s.closeSock worker

/-- A step of the process; `none` while it is not the next one, and behind the end. -/
def act (f : Service) (main : ι) (listensock : Fd) (action : Action ι) (s : State ι) :
    Option (State ι) :=
  if s.alive then s.step f main listensock action else none

end State

/-- In front of the loop of `start`, behind `run`: every other thread is a worker. -/
structure Starts {ι : Type} [DecidableEq ι] (main : ι) (listensock : Fd) (s : State ι) :
    Prop where
  pool : s.pool =
    { ThreadPool.State.create ι Task with
      pc := fun thread => if thread = main then .idle else .routine .lock }
  main : s.main = .accept
  accepted : s.accepted = []
  listening : s.table listensock = some .listen
  noLink : ∀ sock number, s.table sock ≠ some (.link number)
  serving : s.serving = fun _ => .read
  link : s.link = fun _ => .new
  alive : s.alive = true

/-- All runs of a server that hands its sockets to the service. -/
def machine
    (ι : Type) [Fintype ι] [DecidableEq ι]
    (f : Service) (main : ι) (listensock : Fd) : Transition.Machine (State ι) :=
  .ofStep (Starts main listensock) (State.act f main listensock)

/-! ## A service alone with its connection -/

/-- What was received and written when the service comes to its `close`. -/
inductive Done (f : Service) : List (Option Chunk) → List (Bytes × Bool) → Prop
  | ended {chunks : List Chunk} {written : List (Bytes × Bool)}
      (once : f.loops = false → chunks = [])
      (replies : written.map Prod.fst = chunks.map f.reply) :
      Done f (chunks.map some ++ [none]) written
  | answered {chunk : Chunk} {sent : Bool}
      (once : f.loops = false) :
      Done f [some chunk] [(f.reply chunk, sent)]

/-- What a service has done to its connection on its way to a point. -/
inductive Served (f : Service) : Serving → Link → Prop
  | read {chunks : List Chunk} {written : List (Bytes × Bool)}
      (once : f.loops = false → chunks = [])
      (replies : written.map Prod.fst = chunks.map f.reply) :
      Served f .read ⟨chunks.map some, written, 0⟩
  | write {chunks : List Chunk} {chunk : Chunk} {written : List (Bytes × Bool)}
      (once : f.loops = false → chunks = [])
      (replies : written.map Prod.fst = chunks.map f.reply) :
      Served f (.write (f.reply chunk)) ⟨chunks.map some ++ [some chunk], written, 0⟩
  | close {received : List (Option Chunk)} {written : List (Bytes × Bool)}
      (done : Done f received written) :
      Served f .close ⟨received, written, 0⟩
  | closed {received : List (Option Chunk)} {written : List (Bytes × Bool)}
      (done : Done f received written) :
      Served f .closed ⟨received, written, 1⟩

/-- A step of a service that has the connection to itself. -/
inductive Turn (f : Service) : Serving × Link → Serving × Link → Prop
  | read {link : Link} {chunk : Chunk} :
      Turn f (.read, link)
        (.write (f.reply chunk), { link with received := link.received ++ [some chunk] })
  | stop {link : Link} :
      Turn f (.read, link) (.close, { link with received := link.received ++ [none] })
  | write {link : Link} {message : Bytes} {sent : Bool} :
      Turn f (.write message, link)
        (if f.loops then .read else .close,
          { link with written := link.written ++ [(message, sent)] })
  | close {link : Link} :
      Turn f (.close, link) (.closed, { link with closed := link.closed + 1 })

/-- Every step of a service goes on where the last one has left off. -/
theorem Served.turn
    {f : Service}
    {point after : Serving}
    {link linkAfter : Link}
    (served : Served f point link)
    (turned : Turn f (point, link) (after, linkAfter)) :
    Served f after linkAfter := by
  cases served with
  | read once replies =>
      cases turned with
      | read => exact .write once replies
      | stop => exact .close (.ended once replies)
  | @write chunks chunk written once replies =>
      cases turned with
      | @write _ _ sent =>
          cases loops : f.loops with
          | true =>
              have answered : Served f .read
                  ⟨(chunks ++ [chunk]).map some, written ++ [(f.reply chunk, sent)], 0⟩ := by
                apply Served.read
                · exact fun single => absurd (loops.symm.trans single) (by simp)
                · rw [List.map_append, List.map_append, replies]
                  rfl
              simpa using answered
          | false =>
              obtain rfl := once loops
              obtain rfl := List.map_eq_nil_iff.mp replies
              exact .close (.answered loops)
  | close done =>
      cases turned
      exact .closed done
  | closed done => cases turned

/-- The service closes its socket once. -/
theorem Served.closed_eq
    {f : Service}
    {point : Serving}
    {link : Link}
    (served : Served f point link) :
    link.closed = if point.hasClosed = true then 1 else 0 := by
  cases served <;> rfl

/-- A service that takes a step has its socket open. -/
theorem opened_of_turn
    {f : Service}
    {point after : Serving}
    {link linkAfter : Link}
    (turned : Turn f (point, link) (after, linkAfter)) :
    point.hasClosed = false := by
  cases turned <;> rfl

/-! ## What the rest of the server sees of the pool -/

section Pool

variable {ι : Type} [DecidableEq ι] {pool after : ThreadPool.State ι Task} {thread worker : ι}

/-- The tasks that the calls of `pushTask` and the services have in hand, and the logs. -/
structure View (ι : Type) where
  pushed : List Task
  ran : List (ι × Task)
  running : ι → Option Task
  calling : ι → Option Task

/-- What the server has to know of the pool. -/
def view (pool : ThreadPool.State ι Task) : View ι where
  pushed := pool.pushed
  ran := pool.ran
  running := running ∘ pool.pc
  calling := calling ∘ pool.pc

/-- Everything that a step of a thread in the code of the pool can do about the view. -/
inductive ViewMove (pool : ThreadPool.State ι Task) (thread : ι) : View ι → Prop
  | quiet : ViewMove pool thread (view pool)
  | add {task : Task}
      (here : pool.pc thread = .push task .add) :
      ViewMove pool thread
        { view pool with
          pushed := pool.pushed ++ [task]
          calling := Function.update (view pool).calling thread none }
  | hand {task : Task}
      (here : pool.pc thread = .routine (.unlock task)) :
      ViewMove pool thread
        { view pool with running := Function.update (view pool).running thread (some task) }
  | back {task : Task}
      (here : pool.pc thread = .routine (.run task)) :
      ViewMove pool thread
        { view pool with
          ran := pool.ran ++ [(thread, task)]
          running := Function.update (view pool).running thread none }

/-- A thread goes to another point. -/
theorem view_update
    {point before : ThreadPool.Point Task}
    (here : pool.pc thread = before)
    (tq pushed : List Task)
    (mtx : Option ι)
    (taken ran : List (ι × Task)) :
    view ⟨tq, mtx, Function.update pool.pc thread point, pushed, taken, ran⟩ =
      ⟨pushed, ran,
        if running point = running before then (view pool).running
        else Function.update (view pool).running thread (running point),
        if calling point = calling before then (view pool).calling
        else Function.update (view pool).calling thread (calling point)⟩ := by
  have looked {look : ThreadPool.Point Task → Option Task} :
      look ∘ Function.update pool.pc thread point =
        if look point = look before then look ∘ pool.pc
        else Function.update (look ∘ pool.pc) thread (look point) := by
    rw [Function.comp_update]
    split
    · rename_i same
      rw [same, ← here]
      exact Function.update_eq_self thread (look ∘ pool.pc)
    · rfl
  rw [view, looked, looked]
  rfl

/-- A thread goes to a point that looks the same. -/
theorem view_goto
    {point before : ThreadPool.Point Task}
    {tq : List Task}
    {mtx : Option ι}
    {taken : List (ι × Task)}
    (here : pool.pc thread = before)
    (sameRunning : running point = running before)
    (sameCalling : calling point = calling before) :
    view ⟨tq, mtx, Function.update pool.pc thread point, pool.pushed, taken, pool.ran⟩ =
      view pool := by
  rw [view_update here, if_pos sameRunning, if_pos sameCalling]
  rfl

/-- A signal does not change which task is run. -/
theorem running_resume (point : ThreadPool.Point Task) :
    running (ThreadPool.resume point) = running point := by
  cases point with
  | routine stage => cases stage <;> rfl
  | _ => rfl

/-- A signal does not change who is in `push`. -/
theorem calling_resume (point : ThreadPool.Point Task) :
    calling (ThreadPool.resume point) = calling point := by
  cases point with
  | routine stage => cases stage <;> rfl
  | _ => rfl

/-- The server does not see who is woken. -/
theorem view_wakeup (woken : Finset ι) (pool : ThreadPool.State ι Task) :
    view (pool.Wakeup woken) = view pool := by
  have same {α : Type} (look : ThreadPool.Point Task → α)
      (resumed : ∀ point, look (ThreadPool.resume point) = look point) :
      look ∘ (pool.Wakeup woken).pc = look ∘ pool.pc := by
    funext thread
    change look (Threads.wake ThreadPool.resume woken pool.pc thread) = look (pool.pc thread)
    by_cases present : thread ∈ woken
    · rw [Threads.wake_of_mem present, resumed]
    · rw [Threads.wake_of_notMem present]
  rw [view, same running running_resume, same calling calling_resume]
  rfl

variable [Fintype ι]

/-- What the server sees of a step of the pool. -/
theorem viewMove_of_next
    (stepped : pool.act .wakeupInside (.next thread) = some after) :
    ViewMove pool thread (view after) ∧
      ∃ point, after.pc = Function.update pool.pc thread point := by
  have quiet {point before : ThreadPool.Point Task} {mtx : Option ι} {tq : List Task}
      {taken : List (ι × Task)}
      (here : pool.pc thread = before)
      (goes : some (⟨tq, mtx, Function.update pool.pc thread point, pool.pushed, taken,
        pool.ran⟩ : ThreadPool.State ι Task) = some after)
      (sameRunning : running point = running before)
      (sameCalling : calling point = calling before) :
      ViewMove pool thread (view after) ∧
        ∃ point, after.pc = Function.update pool.pc thread point := by
    obtain rfl := Option.some.inj goes
    rw [view_goto here sameRunning sameCalling]
    exact ⟨.quiet, point, rfl⟩
  cases here : pool.pc thread with
  | idle => simp [ThreadPool.State.act, here] at stepped
  | push task stage =>
      simp only [ThreadPool.State.act, here] at stepped
      cases stage with
      | lock =>
          rw [ThreadPool.State.pushStep] at stepped
          split at stepped
          · exact absurd stepped.symm (Option.some_ne_none _)
          · exact quiet here stepped rfl rfl
      | add =>
          obtain rfl := Option.some.inj stepped
          refine ⟨?_, _, rfl⟩
          have added := ViewMove.add here
          exact (view_update here ..) ▸ added
      | unlock => exact quiet here stepped rfl rfl
      | wakeup => exact absurd stepped.symm (Option.some_ne_none _)
  | routine stage =>
      simp only [ThreadPool.State.act, here] at stepped
      cases stage with
      | lock =>
          rw [ThreadPool.State.routineStep] at stepped
          split at stepped
          · exact absurd stepped.symm (Option.some_ne_none _)
          · exact quiet here stepped rfl rfl
      | woken =>
          rw [ThreadPool.State.routineStep] at stepped
          split at stepped
          · exact absurd stepped.symm (Option.some_ne_none _)
          · exact quiet here stepped rfl rfl
      | check =>
          rw [ThreadPool.State.routineStep] at stepped
          split at stepped
          · exact quiet here stepped rfl rfl
          · exact quiet here stepped rfl rfl
      | wait => exact quiet here stepped rfl rfl
      | blocked => exact absurd stepped.symm (Option.some_ne_none _)
      | front =>
          rw [ThreadPool.State.routineStep] at stepped
          split at stepped
          · exact absurd stepped.symm (Option.some_ne_none _)
          · exact quiet here stepped rfl rfl
      | erase task => exact quiet here stepped rfl rfl
      | unlock task =>
          obtain rfl := Option.some.inj stepped
          refine ⟨?_, _, rfl⟩
          have handed := ViewMove.hand here
          exact (view_update here ..) ▸ handed
      | run task =>
          obtain rfl := Option.some.inj stepped
          refine ⟨?_, _, rfl⟩
          have isBack := ViewMove.back here
          exact (view_update here ..) ▸ isBack

end Pool

/-! ## The invariant -/

/-- The task that the thread of `start` has not put into the queue yet. -/
def State.inHand {ι : Type} (main : ι) (s : State ι) : List Task :=
  match s.main with
  | .accept => []
  | .push task => [task]
  | .pushing => (calling (s.pool.pc main)).toList

/-- A call on a socket of a connection changes this connection. -/
theorem onLink_of_table
    {ι : Type}
    {s : State ι}
    {sock : Fd}
    {number : Nat}
    {change : Link → Link}
    (refers : s.table sock = some (.link number)) :
    s.onLink sock change =
      { s with link := Function.update s.link number (change (s.link number)) } := by
  rw [State.onLink, Table.onLink_of_link refers]

/-- What `start` holds depends on its own place in the pool. -/
theorem inHand_of_calling
    {ι : Type}
    {main : ι}
    {s : State ι}
    {after : ThreadPool.State ι Task}
    (same : (view after).calling = (view s.pool).calling) :
    State.inHand main { s with pool := after } = s.inHand main := by
  cases atStart : s.main with
  | accept => simp only [State.inHand, atStart]
  | push task => simp only [State.inHand, atStart]
  | pushing =>
      simp only [State.inHand, atStart]
      exact congrArg Option.toList (congrFun same main)

section Sound

variable {ι : Type} [DecidableEq ι]

/-- Every accepted connection is on its way to a worker, with a worker, or closed, and its
descriptor is open until then. -/
structure Sound (f : Service) (main : ι) (listensock : Fd) (s : State ι) : Prop where
  order : s.pool.InOrder .wakeupInside
  workers : ∀ thread, thread ≠ main → s.pool.IsWorker thread
  caller : s.main = .pushing ∨ s.pool.pc main = .idle
  pushed : s.pool.pushed ++ s.inHand main = s.accepted
  numbered : s.accepted.map Task.number = List.range s.accepted.length
  listening : s.table listensock = some .listen
  table : ∀ sock number, s.table sock = some (.link number) ↔
    ⟨sock, number⟩ ∈ s.accepted ∧ (s.link number).closed = 0
  runs : ∀ worker task, running (s.pool.pc worker) = some task →
    Served f (s.serving worker) (s.link task.number)
  rests : ∀ worker, running (s.pool.pc worker) = none → s.serving worker = .read
  ran : ∀ worker task, (worker, task) ∈ s.pool.ran →
    Served f .closed (s.link task.number)
  untouched : ∀ number,
    (∀ worker task, running (s.pool.pc worker) = some task → task.number ≠ number) →
    (∀ worker task, (worker, task) ∈ s.pool.ran → task.number ≠ number) →
    s.link number = .new

variable {f : Service} {main thread worker other : ι} {listensock : Fd}
  {task otherTask : Task} {s : State ι}

/-- The tasks of a worker in a log. -/
theorem mem_tasksOf_iff {log : List (ι × Task)} :
    task ∈ ThreadPool.tasksOf worker log ↔ (worker, task) ∈ log := by
  simp [ThreadPool.tasksOf]

/-- A worker holds the task that it runs. -/
theorem held_of_running
    {point : ThreadPool.Point Task}
    (runs : running point = some task) :
    task ∈ ThreadPool.held point := by
  cases point with
  | routine stage =>
      cases stage with
      | run other =>
          obtain rfl := Option.some.inj runs
          exact List.mem_cons_self
      | _ => exact absurd runs.symm (Option.some_ne_none task)
  | _ => exact absurd runs.symm (Option.some_ne_none task)

namespace Sound

/-- A task that a worker holds was taken by it. -/
theorem mem_taken_of_held
    (sound : Sound f main listensock s)
    (held : task ∈ ThreadPool.held (s.pool.pc worker)) :
    (worker, task) ∈ s.pool.taken := by
  rw [← mem_tasksOf_iff, sound.order.runs worker]
  exact List.mem_append_right _ held

/-- A task that a worker has run was taken by it. -/
theorem mem_taken_of_ran
    (sound : Sound f main listensock s)
    (present : (worker, task) ∈ s.pool.ran) :
    (worker, task) ∈ s.pool.taken := by
  rw [← mem_tasksOf_iff, sound.order.runs worker]
  exact List.mem_append_left _ (mem_tasksOf_iff.mpr present)

/-- No two connections have the same number. -/
theorem numbers_nodup (sound : Sound f main listensock s) :
    (s.accepted.map Task.number).Nodup := by
  rw [sound.numbered]
  exact List.nodup_range

/-- A number stands for one task. -/
theorem task_unique
    (sound : Sound f main listensock s)
    (accepted : task ∈ s.accepted)
    (acceptedToo : otherTask ∈ s.accepted)
    (same : task.number = otherTask.number) :
    task = otherTask :=
  List.inj_on_of_nodup_map sound.numbers_nodup accepted acceptedToo same

/-- The numbers are those of the connections accepted so far. -/
theorem number_lt
    (sound : Sound f main listensock s)
    (accepted : task ∈ s.accepted) :
    task.number < s.accepted.length := by
  have present := List.mem_map_of_mem (f := Task.number) accepted
  rw [sound.numbered] at present
  exact List.mem_range.mp present

/-- Every accepted connection was taken, or is in the queue or in the hands of `start`. -/
theorem taken_map (sound : Sound f main listensock s) :
    s.pool.taken.map Prod.snd ++ (s.pool.tq ++ s.inHand main) = s.accepted := by
  rw [← List.append_assoc, ← sound.order.fifo, sound.pushed]

/-- Only accepted connections are taken. -/
theorem mem_accepted_of_taken
    (sound : Sound f main listensock s)
    (present : (worker, task) ∈ s.pool.taken) :
    task ∈ s.accepted := by
  rw [← sound.taken_map]
  exact List.mem_append_left _ (List.mem_map_of_mem (f := Prod.snd) present)

/-- A number is taken once. -/
theorem taken_unique
    (sound : Sound f main listensock s)
    (taken : (worker, task) ∈ s.pool.taken)
    (takenToo : (other, otherTask) ∈ s.pool.taken)
    (same : task.number = otherTask.number) :
    worker = other ∧ task = otherTask := by
  have nodup := sound.numbers_nodup
  rw [← sound.taken_map, List.map_append, List.map_map] at nodup
  exact Prod.mk.inj (List.inj_on_of_nodup_map nodup.of_append_left taken takenToo same)

/-- A task that a worker holds was not run before. -/
theorem not_ran_of_held
    (sound : Sound f main listensock s)
    (held : task ∈ ThreadPool.held (s.pool.pc worker))
    (present : (other, otherTask) ∈ s.pool.ran) :
    otherTask.number ≠ task.number := by
  intro same
  obtain ⟨rfl, rfl⟩ := sound.taken_unique (sound.mem_taken_of_ran present)
    (sound.mem_taken_of_held held) same
  have nodup := sound.numbers_nodup
  rw [← sound.taken_map, List.map_append, List.map_map] at nodup
  have entries : s.pool.taken.Nodup := nodup.of_append_left.of_map _
  have own : (ThreadPool.tasksOf other s.pool.taken).Nodup := by
    apply List.Nodup.map_on _ (entries.filter _)
    rintro first inFirst second inSecond same
    rw [List.mem_filter] at inFirst inSecond
    exact Prod.ext ((of_decide_eq_true inFirst.2).trans (of_decide_eq_true inSecond.2).symm) same
  rw [sound.order.runs other] at own
  exact (List.nodup_append.mp own).2.2 _ (mem_tasksOf_iff.mpr present) _ held rfl

/-- Two workers hold different connections. -/
theorem number_ne_of_held
    (sound : Sound f main listensock s)
    (held : task ∈ ThreadPool.held (s.pool.pc worker))
    (heldToo : otherTask ∈ ThreadPool.held (s.pool.pc other))
    (different : other ≠ worker) :
    otherTask.number ≠ task.number := by
  intro same
  exact different (sound.taken_unique (sound.mem_taken_of_held heldToo)
    (sound.mem_taken_of_held held) same).1

/-- The socket of a task that is being served is open. -/
theorem table_of_running
    (sound : Sound f main listensock s)
    (runs : running (s.pool.pc worker) = some task)
    (opened : (s.serving worker).hasClosed = false) :
    s.table task.sock = some (.link task.number) := by
  refine (sound.table _ _).mpr ⟨?_, ?_⟩
  · exact sound.mem_accepted_of_taken (sound.mem_taken_of_held (held_of_running runs))
  · rw [(sound.runs worker task runs).closed_eq, opened]
    rfl

end Sound

/-- A step of a service on the connection of its task. -/
def State.turn (worker : ι) (task : Task) (point : Serving) (link : Link) (s : State ι) :
    State ι :=
  { s with
    table :=
      if point.hasClosed = true then s.table.close task.sock else s.table
    serving := Function.update s.serving worker point
    link := Function.update s.link task.number link }

/-- The descriptor stays open until its service closes it. -/
theorem Sound.table_turn
    {point : Serving}
    {link : Link}
    (sound : Sound f main listensock s)
    (runs : running (s.pool.pc worker) = some task)
    (turned : Turn f (s.serving worker, s.link task.number) (point, link))
    (sock : Fd)
    (number : Nat) :
    (s.turn worker task point link).table sock = some (.link number) ↔
      ⟨sock, number⟩ ∈ s.accepted ∧
        (Function.update s.link task.number link number).closed = 0 := by
  have served := (sound.runs worker task runs).turn turned
  have here := sound.table_of_running runs (opened_of_turn turned)
  have isAccepted := ((sound.table _ _).mp here).1
  cases closed : point.hasClosed with
  | false =>
      have before : (s.link task.number).closed = 0 := ((sound.table _ _).mp here).2
      have after : link.closed = 0 := by
        rw [served.closed_eq, closed]
        rfl
      have same : (Function.update s.link task.number link number).closed =
          (s.link number).closed := by
        by_cases own : number = task.number
        · rw [own, Function.update_self, before, after]
        · rw [Function.update_of_ne own]
      rw [same, ← sound.table]
      simp [State.turn, closed]
  | true =>
      have after : link.closed = 1 := by
        rw [served.closed_eq, closed]
        rfl
      have now : (s.turn worker task point link).table = s.table.close task.sock := by
        simp [State.turn, closed]
      rw [now, Table.close_eq_some_iff, sound.table]
      constructor
      · rintro ⟨different, accepted, opened⟩
        have other : number ≠ task.number := fun same =>
          different (congrArg Task.sock (sound.task_unique accepted isAccepted same))
        rw [Function.update_of_ne other]
        exact ⟨accepted, opened⟩
      · rintro ⟨accepted, opened⟩
        have other : number ≠ task.number := by
          rintro rfl
          rw [Function.update_self, after] at opened
          exact Nat.one_ne_zero opened
        rw [Function.update_of_ne other] at opened
        refine ⟨?_, accepted, opened⟩
        rintro rfl
        have refers := (sound.table _ _).mpr ⟨accepted, opened⟩
        rw [here] at refers
        exact other (File.link.inj (Option.some.inj refers)).symm

/-- A step of a service leaves the other connections alone. -/
theorem Sound.turn
    {point : Serving}
    {link : Link}
    (sound : Sound f main listensock s)
    (runs : running (s.pool.pc worker) = some task)
    (turned : Turn f (s.serving worker, s.link task.number) (point, link)) :
    Sound f main listensock (s.turn worker task point link) where
  order := sound.order
  workers := sound.workers
  caller := sound.caller
  pushed := sound.pushed
  numbered := sound.numbered
  listening := by
    have here := sound.table_of_running runs (opened_of_turn turned)
    cases closed : point.hasClosed with
    | false => simp [State.turn, closed, sound.listening]
    | true => simp [State.turn, closed, Table.close_eq_listen_iff here, sound.listening]
  table := sound.table_turn runs turned
  runs other otherTask otherRuns := by
    change Served f (Function.update s.serving worker point other)
      (Function.update s.link task.number link otherTask.number)
    by_cases same : other = worker
    · subst same
      obtain rfl : otherTask = task := Option.some.inj (otherRuns.symm.trans runs)
      rw [Function.update_self, Function.update_self]
      exact (sound.runs other otherTask runs).turn turned
    · have elsewhere := sound.number_ne_of_held (held_of_running runs)
        (held_of_running otherRuns) same
      rw [Function.update_of_ne same, Function.update_of_ne elsewhere]
      exact sound.runs other otherTask otherRuns
  rests other rests := by
    have different : other ≠ worker := by
      rintro rfl
      exact Option.some_ne_none task (runs.symm.trans rests)
    exact (Function.update_of_ne different ..).trans (sound.rests other rests)
  ran other otherTask present := by
    have elsewhere := sound.not_ran_of_held (held_of_running runs) present
    change Served f .closed (Function.update s.link task.number link otherTask.number)
    rw [Function.update_of_ne elsewhere]
    exact sound.ran other otherTask present
  untouched number nobodyRuns nobodyRan := by
    have elsewhere : number ≠ task.number := (nobodyRuns worker task runs).symm
    exact (Function.update_of_ne elsewhere ..).trans
      (sound.untouched number nobodyRuns nobodyRan)

/-- Nothing has been done to a connection that is still to come. -/
theorem Sound.fresh
    (sound : Sound f main listensock s) :
    s.link s.accepted.length = .new := by
  apply sound.untouched
  · intro worker task runs
    exact Nat.ne_of_lt (sound.number_lt
      (sound.mem_accepted_of_taken (sound.mem_taken_of_held (held_of_running runs))))
  · intro worker task present
    exact Nat.ne_of_lt (sound.number_lt
      (sound.mem_accepted_of_taken (sound.mem_taken_of_ran present)))

/-- A new connection is in the hands of `start`. -/
theorem Sound.accept
    {sock : Fd}
    (sound : Sound f main listensock s)
    (atAccept : s.main = .accept)
    (free : s.table sock = none) :
    Sound f main listensock { s with
      table := s.table.accept sock s.accepted.length
      accepted := s.accepted ++ [⟨sock, s.accepted.length⟩]
      main := .push ⟨sock, s.accepted.length⟩ } where
  order := sound.order
  workers := sound.workers
  caller := by
    have caller := sound.caller
    rw [atAccept] at caller
    exact .inr (caller.resolve_left (by simp))
  pushed := by
    have pushed := sound.pushed
    rw [State.inHand, atAccept, List.append_nil] at pushed
    rw [State.inHand, pushed]
  numbered := by
    rw [List.map_append, sound.numbered, List.length_append, List.length_singleton,
      List.range_succ]
    rfl
  listening := (Table.accept_eq_listen_iff free).mpr sound.listening
  table other number := by
    rw [Table.accept_eq_link_iff, sound.table, List.mem_append, List.mem_singleton]
    constructor
    · rintro (⟨rfl, rfl⟩ | ⟨-, accepted, opened⟩)
      · refine ⟨.inr rfl, ?_⟩
        change (s.link s.accepted.length).closed = 0
        rw [sound.fresh]
        rfl
      · exact ⟨.inl accepted, opened⟩
    · rintro ⟨accepted | isNew, opened⟩
      · refine .inr ⟨?_, accepted, opened⟩
        rintro rfl
        rw [(sound.table _ _).mpr ⟨accepted, opened⟩] at free
        exact Option.some_ne_none _ free
      · obtain ⟨rfl, rfl⟩ := Task.mk.inj isNew
        exact .inl ⟨rfl, rfl⟩
  runs := sound.runs
  rests := sound.rests
  ran := sound.ran
  untouched := sound.untouched

variable {after : ThreadPool.State ι Task} {atStart : StartAt}

/-- The pool or the thread of `start` goes on, and the services do not see it. -/
theorem Sound.quiet
    (sound : Sound f main listensock s)
    (order : after.InOrder .wakeupInside)
    (workers : ∀ thread, thread ≠ main → after.IsWorker thread)
    (caller : atStart = .pushing ∨ after.pc main = .idle)
    (pushed : after.pushed ++ State.inHand main { s with pool := after, main := atStart } =
      s.accepted)
    (running : (view after).running = (view s.pool).running)
    (ran : after.ran = s.pool.ran) :
    Sound f main listensock { s with pool := after, main := atStart } where
  order := order
  workers := workers
  caller := caller
  pushed := pushed
  numbered := sound.numbered
  listening := sound.listening
  table := sound.table
  runs worker task runs := sound.runs worker task ((congrFun running worker).symm.trans runs)
  rests worker rests := sound.rests worker ((congrFun running worker).symm.trans rests)
  ran worker task present := sound.ran worker task (ran ▸ present)
  untouched number nobodyRuns nobodyRan := by
    apply sound.untouched number
    · intro worker task runs
      exact nobodyRuns worker task ((congrFun running worker).trans runs)
    · intro worker task present
      exact nobodyRan worker task (ran.symm ▸ present)

/-- A worker has left the mutex with a task and calls the service. -/
theorem Sound.hand
    (sound : Sound f main listensock s)
    (order : after.InOrder .wakeupInside)
    (workers : ∀ thread, thread ≠ main → after.IsWorker thread)
    (caller : s.main = .pushing ∨ after.pc main = .idle)
    (here : s.pool.pc worker = .routine (.unlock task))
    (handed : view after =
      { view s.pool with
        running := Function.update (view s.pool).running worker (some task) }) :
    Sound f main listensock { s with pool := after } := by
  have nowRuns (other : ι) : running (after.pc other) =
      Function.update (view s.pool).running worker (some task) other :=
    congrFun (congrArg View.running handed) other
  have held : task ∈ ThreadPool.held (s.pool.pc worker) := by
    rw [here]
    exact List.mem_cons_self
  have notBefore : running (s.pool.pc worker) = none := by
    rw [here]
    rfl
  have ran : after.ran = s.pool.ran := congrArg View.ran handed
  have pushed : after.pushed = s.pool.pushed := congrArg View.pushed handed
  have calling : (view after).calling = (view s.pool).calling := by rw [handed]
  have isNew : s.link task.number = .new := by
    apply sound.untouched
    · intro other otherTask runs
      refine sound.number_ne_of_held held (held_of_running runs) ?_
      rintro rfl
      exact Option.some_ne_none otherTask (runs.symm.trans notBefore)
    · exact fun other otherTask present => sound.not_ran_of_held held present
  exact
    { order := order
      workers := workers
      caller := caller
      pushed := by
        change after.pushed ++ State.inHand main { s with pool := after } = s.accepted
        rw [inHand_of_calling calling, pushed, sound.pushed]
      numbered := sound.numbered
      listening := sound.listening
      table := sound.table
      runs := by
        intro other otherTask runs
        rw [nowRuns other] at runs
        rcases Transition.update_some_eq_some_iff.mp runs with ⟨rfl, rfl⟩ | ⟨-, before⟩
        · change Served f (s.serving other) (s.link task.number)
          rw [sound.rests other notBefore, isNew]
          exact @Served.read f [] [] (fun _ => rfl) rfl
        · exact sound.runs other otherTask before
      rests := by
        intro other rests
        rw [nowRuns other] at rests
        exact sound.rests other (Transition.update_some_eq_none_iff.mp rests).2
      ran := fun other otherTask present => sound.ran other otherTask (ran ▸ present)
      untouched := by
        intro number nobodyRuns nobodyRan
        apply sound.untouched number
        · intro other otherTask runs
          apply nobodyRuns other
          have different : other ≠ worker := by
            rintro rfl
            exact Option.some_ne_none otherTask (runs.symm.trans notBefore)
          rw [nowRuns other, Function.update_of_ne different]
          exact runs
        · exact fun other otherTask present => nobodyRan other otherTask (ran ▸ present) }

/-- The service has returned, and the worker goes for its next task. -/
theorem Sound.back
    (sound : Sound f main listensock s)
    (order : after.InOrder .wakeupInside)
    (workers : ∀ thread, thread ≠ main → after.IsWorker thread)
    (caller : s.main = .pushing ∨ after.pc main = .idle)
    (runs : running (s.pool.pc worker) = some task)
    (closed : s.serving worker = .closed)
    (isBack : view after =
      { view s.pool with
        ran := s.pool.ran ++ [(worker, task)]
        running := Function.update (view s.pool).running worker none }) :
    Sound f main listensock ({ s with pool := after }.goto worker .read) := by
  have nowRuns (other : ι) : running (after.pc other) =
      Function.update (view s.pool).running worker none other :=
    congrFun (congrArg View.running isBack) other
  have ran : after.ran = s.pool.ran ++ [(worker, task)] := congrArg View.ran isBack
  have pushed : after.pushed = s.pool.pushed := congrArg View.pushed isBack
  have calling : (view after).calling = (view s.pool).calling := by rw [isBack]
  exact
    { order := order
      workers := workers
      caller := caller
      pushed := by
        change after.pushed ++ State.inHand main { s with pool := after } = s.accepted
        rw [inHand_of_calling calling, pushed, sound.pushed]
      numbered := sound.numbered
      listening := sound.listening
      table := sound.table
      runs := by
        intro other otherTask otherRuns
        obtain ⟨different, before⟩ :=
          Transition.update_none_eq_some_iff.mp ((nowRuns other).symm.trans otherRuns)
        change Served f (Function.update s.serving worker .read other) _
        rw [Function.update_of_ne different]
        exact sound.runs other otherTask before
      rests := by
        intro other rests
        by_cases same : other = worker
        · rw [same]
          exact Function.update_self ..
        · have before : running (s.pool.pc other) = none := by
            refine Eq.trans ?_ ((nowRuns other).symm.trans rests)
            rw [Function.update_of_ne same]
            rfl
          exact (Function.update_of_ne same ..).trans (sound.rests other before)
      ran := by
        intro other otherTask present
        change (other, otherTask) ∈ after.ran at present
        rw [ran, List.mem_append, List.mem_singleton] at present
        rcases present with before | isNow
        · exact sound.ran other otherTask before
        · obtain ⟨rfl, rfl⟩ := Prod.mk.inj isNow
          have served := sound.runs other otherTask runs
          rw [closed] at served
          exact served
      untouched := by
        intro number nobodyRuns nobodyRan
        have inLog {entry : ι × Task} (present : entry ∈ s.pool.ran ++ [(worker, task)]) :
            entry ∈ after.ran := ran.symm ▸ present
        apply sound.untouched number
        · intro other otherTask otherRuns
          by_cases same : other = worker
          · subst same
            obtain rfl : otherTask = task := Option.some.inj (otherRuns.symm.trans runs)
            exact nobodyRan other otherTask (inLog (by simp))
          · apply nobodyRuns other
            refine Eq.trans ?_ otherRuns
            refine (nowRuns other).trans ?_
            rw [Function.update_of_ne same]
            rfl
        · exact fun other otherTask present =>
            nobodyRan other otherTask (inLog (List.mem_append_left _ present)) }

/-! ## Every step keeps it -/

/-- `read` of a worker. -/
theorem Sound.read
    {result : Option Chunk}
    {next : State ι}
    (sound : Sound f main listensock s)
    (stepped : s.read f worker result = some next) :
    Sound f main listensock next := by
  unfold State.read at stepped
  cases runs : running (s.pool.pc worker) with
  | none => simp [runs] at stepped
  | some task =>
      cases here : s.serving worker with
      | read =>
          have refers := sound.table_of_running runs (by rw [here]; rfl)
          simp only [runs, here, onLink_of_table refers] at stepped
          cases result with
          | none =>
              obtain rfl := Option.some.inj stepped
              exact sound.turn runs (by rw [here]; exact .stop)
          | some chunk =>
              have stillLink : s.table.linkOf task.sock = some task.number :=
                Table.linkOf_eq_some_iff.mpr refers
              simp only [stillLink, Option.some.injEq] at stepped
              rw [← stepped]
              have turned : Turn f (s.serving worker, s.link task.number)
                  (.write (f.reply chunk),
                    { s.link task.number with
                      received := (s.link task.number).received ++ [some chunk] }) := by
                rw [here]
                exact .read
              exact sound.turn runs turned
      | _ => simp [runs, here] at stepped

/-- A `write` that has returned, whatever it has sent. -/
theorem Sound.behindWrite
    {message : Bytes}
    (sound : Sound f main listensock s)
    (runs : running (s.pool.pc worker) = some task)
    (here : s.serving worker = .write message)
    (sent : Bool) :
    Sound f main listensock (s.behindWrite f worker task.sock message sent) := by
  have refers := sound.table_of_running runs (by rw [here]; rfl)
  have turned := sound.turn runs (by rw [here]; exact @Turn.write f _ message sent)
  have opened : (if f.loops = true then Serving.read else .close).hasClosed = false := by
    split
    · rfl
    · rfl
  rw [State.turn, opened] at turned
  rw [State.behindWrite, onLink_of_table refers]
  exact turned

/-- `write` of a worker. -/
theorem Sound.write
    {written : Written}
    {next : State ι}
    (sound : Sound f main listensock s)
    (stepped : s.write f worker written = some next) :
    Sound f main listensock next := by
  unfold State.write at stepped
  cases runs : running (s.pool.pc worker) with
  | none => simp [runs] at stepped
  | some task =>
      cases here : s.serving worker with
      | write message =>
          simp only [runs, here] at stepped
          cases written with
          | all =>
              obtain rfl := Option.some.inj stepped
              exact sound.behindWrite runs here true
          | failed =>
              obtain rfl := Option.some.inj stepped
              exact sound.behindWrite runs here false
          | sigpipe =>
              obtain rfl := Option.some.inj stepped
              exact { sound with }
      | _ => simp [runs, here] at stepped

/-- `close` of a worker. -/
theorem Sound.closeSock
    {next : State ι}
    (sound : Sound f main listensock s)
    (stepped : s.closeSock worker = some next) :
    Sound f main listensock next := by
  unfold State.closeSock at stepped
  cases runs : running (s.pool.pc worker) with
  | none => simp [runs] at stepped
  | some task =>
      cases here : s.serving worker with
      | close =>
          have refers := sound.table_of_running runs (by rw [here]; rfl)
          simp only [runs, here, State.close, onLink_of_table refers, Option.some.injEq]
            at stepped
          rw [← stepped]
          exact sound.turn runs (by rw [here]; exact .close)
      | _ => simp [runs, here] at stepped

/-- `accept` of `start`. -/
theorem Sound.accepted
    {result : Option Fd}
    {next : State ι}
    (sound : Sound f main listensock s)
    (stepped : s.accept listensock result = some next) :
    Sound f main listensock next := by
  unfold State.accept at stepped
  cases atStart : s.main with
  | accept =>
      cases result with
      | none =>
          simp only [atStart, Option.some.injEq] at stepped
          rw [← stepped]
          exact sound
      | some sock =>
          simp only [atStart, Option.ite_none_right_eq_some, Option.some.injEq] at stepped
          rw [← stepped.2]
          exact sound.accept atStart stepped.1.2
  | _ => simp [atStart] at stepped

/-- A worker runs a task at one point of its routine. -/
theorem eq_run_of_running
    {point : ThreadPool.Point Task}
    (runs : running point = some task) :
    point = .routine (.run task) := by
  cases point with
  | routine stage =>
      cases stage with
      | run other =>
          rw [Option.some.inj runs]
      | _ => exact absurd runs.symm (Option.some_ne_none task)
  | _ => exact absurd runs.symm (Option.some_ne_none task)

/-- The thread of `start` stays outside of the pool while others take their steps. -/
theorem Sound.caller_of_move
    {point : ThreadPool.Point Task}
    (sound : Sound f main listensock s)
    (outside : s.pool.pc thread ≠ .idle)
    (goes : after.pc = Function.update s.pool.pc thread point) :
    s.main = .pushing ∨ after.pc main = .idle := by
  refine sound.caller.imp_right fun idle => ?_
  have different : main ≠ thread := by
    rintro rfl
    exact outside idle
  rw [goes, Function.update_of_ne different, idle]

/-- Only the thread of `start` calls `pushTask`. -/
theorem Sound.eq_main_of_push
    {stage : ThreadPool.PushStage}
    (sound : Sound f main listensock s)
    (here : s.pool.pc thread = .push task stage) :
    thread = main := by
  by_contra other
  obtain ⟨stage, isRoutine⟩ := sound.workers thread other
  rw [here] at isRoutine
  exact absurd isRoutine (by simp)

/-- The task of a new connection goes into the queue. -/
theorem Sound.add
    (sound : Sound f main listensock s)
    (order : after.InOrder .wakeupInside)
    (workers : ∀ thread, thread ≠ main → after.IsWorker thread)
    (here : s.pool.pc main = .push task .add)
    (added : view after =
      { view s.pool with
        pushed := s.pool.pushed ++ [task]
        calling := Function.update (view s.pool).calling main none }) :
    Sound f main listensock { s with pool := after } := by
  have atStart : s.main = .pushing := by
    refine sound.caller.resolve_right fun idle => ?_
    rw [here] at idle
    exact absurd idle (by simp)
  have inQueue : after.pushed = s.pool.pushed ++ [task] := congrArg View.pushed added
  have calls : calling (after.pc main) = none := by
    refine (congrFun (congrArg View.calling added) main).trans ?_
    exact Function.update_self ..
  have pushed := sound.pushed
  simp only [State.inHand, atStart, here] at pushed
  have sameRunning : (view after).running = (view s.pool).running := by rw [added]
  refine sound.quiet order workers (.inl atStart) ?_ sameRunning (congrArg View.ran added)
  simp only [State.inHand, atStart, calls, inQueue]
  rw [Option.toList_none, List.append_nil]
  exact pushed

/-- `pushTask` has returned. -/
theorem Sound.returned
    (sound : Sound f main listensock s)
    (atStart : s.main = .pushing)
    (idle : s.pool.pc main = .idle) :
    Sound f main listensock { s with main := .accept } := by
  have pushed := sound.pushed
  simp only [State.inHand, atStart, idle] at pushed
  exact sound.quiet sound.order sound.workers (.inr idle) pushed rfl rfl

/-- In the beginning the workers are in front of their first round. -/
theorem idle_or_lock_of_starts (starts : Starts main listensock s) (thread : ι) :
    s.pool.pc thread = .idle ∨ s.pool.pc thread = .routine .lock := by
  rw [starts.pool]
  by_cases isMain : thread = main
  · exact .inl (if_pos isMain)
  · exact .inr (if_neg isMain)

/-- The pool begins in order. -/
theorem inOrder_of_starts (starts : Starts main listensock s) :
    s.pool.InOrder .wakeupInside where
  guarded thread := by
    have unlocked : s.pool.mtx = none := by rw [starts.pool]; rfl
    rw [unlocked]
    rcases idle_or_lock_of_starts starts thread with here | here
    · rw [here]
      exact iff_of_false Bool.false_ne_true (Option.some_ne_none thread).symm
    · rw [here]
      exact iff_of_false Bool.false_ne_true (Option.some_ne_none thread).symm
  assured thread := by
    rcases idle_or_lock_of_starts starts thread with here | here
    · rw [here]
      trivial
    · rw [here]
      trivial
  fifo := by
    rw [starts.pool]
    rfl
  runs thread := by
    rw [ThreadPool.State.Runs]
    rcases idle_or_lock_of_starts starts thread with here | here
    · rw [here, starts.pool]
      rfl
    · rw [here, starts.pool]
      rfl

/-- In front of the first `accept` there is no connection. -/
theorem sound_of_starts (starts : Starts main listensock s) : Sound f main listensock s where
  order := inOrder_of_starts starts
  workers thread different := by
    refine ⟨.lock, ?_⟩
    rw [starts.pool]
    exact if_neg different
  caller := by
    rw [starts.pool]
    exact .inr (if_pos rfl)
  pushed := by
    rw [State.inHand, starts.main, starts.pool, starts.accepted]
    rfl
  numbered := by
    rw [starts.accepted]
    rfl
  listening := starts.listening
  table sock number := by
    apply iff_of_false (starts.noLink sock number)
    rw [starts.accepted]
    exact fun present => List.not_mem_nil present.1
  runs worker task runs := by
    rcases idle_or_lock_of_starts starts worker with here | here
    · rw [here] at runs
      exact absurd runs.symm (Option.some_ne_none task)
    · rw [here] at runs
      exact absurd runs.symm (Option.some_ne_none task)
  rests worker _ := congrFun starts.serving worker
  ran worker task present := by
    rw [starts.pool] at present
    exact absurd present List.not_mem_nil
  untouched number _ _ := congrFun starts.link number

variable [Fintype ι]

/-- A step of a thread inside the pool. -/
theorem Sound.next
    {next : State ι}
    (sound : Sound f main listensock s)
    (stepped : s.next thread = some next) :
    Sound f main listensock next := by
  unfold State.next at stepped
  cases runs : running (s.pool.pc thread) with
  | none =>
      simp only [runs] at stepped
      obtain ⟨after, acted, rfl⟩ := Option.map_eq_some_iff.mp stepped
      obtain ⟨viewMove, point, goes⟩ := viewMove_of_next acted
      have moved := ThreadPool.State.move_of_act acted
      have order := sound.order.move moved
      have workers : ∀ other, other ≠ main → after.IsWorker other :=
        fun other isWorker => moved.isWorker (sound.workers other isWorker)
      have outside : s.pool.pc thread ≠ .idle := by
        intro idle
        simp [ThreadPool.State.act, idle] at acted
      have caller := sound.caller_of_move outside goes
      generalize seen : view after = now at viewMove
      cases viewMove with
      | quiet =>
          refine sound.quiet order workers caller ?_ (congrArg View.running seen)
            (congrArg View.ran seen)
          have pushed : after.pushed = s.pool.pushed := congrArg View.pushed seen
          have same : State.inHand main { s with pool := after } = s.inHand main :=
            inHand_of_calling (congrArg View.calling seen)
          rw [pushed]
          exact (congrArg (s.pool.pushed ++ ·) same).trans sound.pushed
      | add here =>
          obtain rfl := sound.eq_main_of_push here
          exact sound.add order workers here seen
      | hand here =>
          exact sound.hand order workers caller here seen
      | back here =>
          rw [here] at runs
          exact absurd runs (Option.some_ne_none _)
  | some task =>
      cases here : s.serving thread with
      | closed =>
          simp only [runs, here] at stepped
          obtain ⟨before, goes, rfl⟩ := Option.map_eq_some_iff.mp stepped
          obtain ⟨after, acted, rfl⟩ := Option.map_eq_some_iff.mp goes
          have atRun := eq_run_of_running runs
          have moved := ThreadPool.State.move_of_act acted
          have order := sound.order.move moved
          have workers : ∀ other, other ≠ main → after.IsWorker other :=
            fun other isWorker => moved.isWorker (sound.workers other isWorker)
          simp only [ThreadPool.State.act, atRun] at acted
          obtain rfl := Option.some.inj acted
          refine sound.back order workers ?_ runs here (view_update atRun ..)
          exact sound.caller_of_move (by rw [atRun]; simp) rfl
      | _ => simp [runs, here] at stepped

/-- `start` calls `pushTask`. -/
theorem Sound.push
    {next : State ι}
    (sound : Sound f main listensock s)
    (atStart : s.main = .push task)
    (stepped : s.poolAct (.push main task) = some next) :
    Sound f main listensock { next with main := .pushing } := by
  obtain ⟨after, acted, rfl⟩ := Option.map_eq_some_iff.mp stepped
  have idle : s.pool.pc main = .idle := by
    have caller := sound.caller
    rw [atStart] at caller
    exact caller.resolve_left (by simp)
  have moved := ThreadPool.State.move_of_act acted
  have order := sound.order.move moved
  have workers : ∀ other, other ≠ main → after.IsWorker other :=
    fun other isWorker => moved.isWorker (sound.workers other isWorker)
  simp only [ThreadPool.State.act, idle] at acted
  obtain rfl := Option.some.inj acted
  have seen : view (s.pool.goto main (.push task .lock)) =
      { view s.pool with
        calling := Function.update (view s.pool).calling main (some task) } :=
    view_update idle ..
  have sameRunning : (view (s.pool.goto main (.push task .lock))).running =
      (view s.pool).running := by
    rw [seen]
  have pushed := sound.pushed
  simp only [State.inHand, atStart] at pushed
  refine sound.quiet order workers (.inl rfl) ?_ sameRunning rfl
  simp only [State.inHand, ThreadPool.State.goto, Function.update_self]
  exact pushed

/-- A wakeup and a signal leave the view of the pool as it is. -/
theorem Sound.unseen
    {action : ThreadPool.Action ι Task}
    {next : State ι}
    (sound : Sound f main listensock s)
    (stepped : s.poolAct action = some next)
    (unseen : ∀ after, s.pool.act .wakeupInside action = some after →
      view after = view s.pool ∧ (s.pool.pc main = .idle → after.pc main = .idle)) :
    Sound f main listensock next := by
  obtain ⟨after, acted, rfl⟩ := Option.map_eq_some_iff.mp stepped
  obtain ⟨seen, staysIdle⟩ := unseen after acted
  have moved := ThreadPool.State.move_of_act acted
  refine sound.quiet (sound.order.move moved)
    (fun other isWorker => moved.isWorker (sound.workers other isWorker))
    (sound.caller.imp_right staysIdle) ?_ (congrArg View.running seen) (congrArg View.ran seen)
  have pushed : after.pushed = s.pool.pushed := congrArg View.pushed seen
  have same : State.inHand main { s with pool := after } = s.inHand main :=
    inHand_of_calling (congrArg View.calling seen)
  rw [pushed]
  exact (congrArg (s.pool.pushed ++ ·) same).trans sound.pushed

/-- The server does not see a signal. -/
theorem unseen_signal
    {woken : Finset ι}
    {pool : ThreadPool.State ι Task}
    (acted : pool.act .wakeupInside (.signal thread woken) = some after) :
    view after = view pool ∧ (pool.pc main = .idle → after.pc main = .idle) := by
  cases here : pool.pc thread with
  | idle => simp [ThreadPool.State.act, here] at acted
  | routine stage => simp [ThreadPool.State.act, here] at acted
  | push task stage =>
      cases stage with
      | wakeup =>
          simp only [ThreadPool.State.act, here, Option.ite_none_right_eq_some,
            Option.some.injEq] at acted
          obtain ⟨signals, rfl⟩ := acted
          have still := ThreadPool.State.still_signalling here signals
          have goes : view ((pool.Wakeup woken).goto thread (.push task .unlock)) =
              view (pool.Wakeup woken) :=
            view_goto still rfl rfl
          refine ⟨goes.trans (view_wakeup woken pool), fun idle => ?_⟩
          have different : main ≠ thread := by
            rintro rfl
            rw [here] at idle
            exact absurd idle (by simp)
          refine (Function.update_of_ne different ..).trans ?_
          change Threads.wake ThreadPool.resume woken pool.pc main = .idle
          by_cases present : main ∈ woken
          · rw [Threads.wake_of_mem present, idle]
            rfl
          · rw [Threads.wake_of_notMem present, idle]
      | _ => simp [ThreadPool.State.act, here] at acted

/-- The server does not see a spurious wakeup. -/
theorem unseen_wakeup
    {pool : ThreadPool.State ι Task}
    (acted : pool.act .wakeupInside (.wakeup worker) = some after) :
    view after = view pool ∧ (pool.pc main = .idle → after.pc main = .idle) := by
  cases here : pool.pc worker with
  | routine stage =>
      cases stage with
      | blocked =>
          simp only [ThreadPool.State.act, here, Option.some.injEq] at acted
          rw [← acted]
          refine ⟨view_goto here rfl rfl, fun idle => ?_⟩
          have different : main ≠ worker := by
            rintro rfl
            rw [here] at idle
            exact absurd idle (by simp)
          exact (Function.update_of_ne different ..).trans idle
      | _ => simp [ThreadPool.State.act, here] at acted
  | _ => simp [ThreadPool.State.act, here] at acted

/-- Every step of the process. -/
theorem Sound.act
    {action : Action ι}
    {next : State ι}
    (sound : Sound f main listensock s)
    (acted : s.act f main listensock action = some next) :
    Sound f main listensock next := by
  obtain ⟨-, stepped⟩ := Option.ite_none_right_eq_some.mp acted
  cases action with
  | accept result => exact sound.accepted stepped
  | push =>
      cases atStart : s.main with
      | push task =>
          simp only [State.step, atStart] at stepped
          obtain ⟨before, pushes, rfl⟩ := Option.map_eq_some_iff.mp stepped
          exact sound.push atStart pushes
      | _ => simp [State.step, atStart] at stepped
  | pushed =>
      cases atStart : s.main with
      | pushing =>
          cases idle : s.pool.pc main with
          | idle =>
              simp only [State.step, atStart, idle, Option.some.injEq] at stepped
              rw [← stepped]
              exact sound.returned atStart idle
          | _ => simp [State.step, atStart, idle] at stepped
      | _ => simp [State.step, atStart] at stepped
  | next thread => exact sound.next stepped
  | signal thread woken => exact sound.unseen stepped fun _ acted => unseen_signal acted
  | wakeup worker => exact sound.unseen stepped fun _ acted => unseen_wakeup acted
  | read worker result => exact sound.read stepped
  | write worker written => exact sound.write stepped
  | close worker => exact sound.closeSock stepped

end Sound

/-- All runs of the server. -/
theorem sound
    (ι : Type) [Fintype ι] [DecidableEq ι]
    (f : Service) (main : ι) (listensock : Fd) :
    (machine ι f main listensock).Invariant (Sound f main listensock) := by
  apply Transition.Machine.invariant_of_actions
  · exact fun s starts => sound_of_starts starts
  · exact fun action s next sound stepped => sound.act stepped

/-! ## The server at rest -/

section Rest

variable {ι : Type} [Fintype ι] [DecidableEq ι] {f : Service} {main worker : ι}
  {listensock : Fd} {s t : State ι}

/-- A step of the server on its pool is one of the pool. -/
theorem act_of_poolAct
    {action : ThreadPool.Action ι Task}
    (stepped : s.poolAct action = some t) :
    s.pool.act .wakeupInside action = some t.pool := by
  obtain ⟨pool, acted, rfl⟩ := Option.map_eq_some_iff.mp stepped
  exact acted

/-- A step of the server is a step of the pool, or the pool does not see it. -/
theorem pool_of_act
    {action : Action ι}
    (acted : s.act f main listensock action = some t) :
    t.pool = s.pool ∨ ∃ action, s.pool.act .wakeupInside action = some t.pool := by
  obtain ⟨-, stepped⟩ := Option.ite_none_right_eq_some.mp acted
  cases action with
  | accept result =>
      simp only [State.step, State.accept] at stepped
      left
      split at stepped
      · obtain rfl := Option.some.inj stepped
        rfl
      · obtain ⟨-, goes⟩ := Option.ite_none_right_eq_some.mp stepped
        obtain rfl := Option.some.inj goes
        rfl
      · exact absurd stepped.symm (Option.some_ne_none t)
  | push =>
      simp only [State.step] at stepped
      split at stepped
      · obtain ⟨before, pushes, rfl⟩ := Option.map_eq_some_iff.mp stepped
        have moved := act_of_poolAct pushes
        exact .inr ⟨_, moved⟩
      · exact absurd stepped.symm (Option.some_ne_none t)
  | pushed =>
      simp only [State.step] at stepped
      split at stepped
      · obtain rfl := Option.some.inj stepped
        exact .inl rfl
      · exact absurd stepped.symm (Option.some_ne_none t)
  | next thread =>
      simp only [State.step, State.next] at stepped
      split at stepped
      · exact .inr ⟨_, act_of_poolAct stepped⟩
      · obtain ⟨before, goes, rfl⟩ := Option.map_eq_some_iff.mp stepped
        have moved := act_of_poolAct goes
        exact .inr ⟨_, moved⟩
      · exact absurd stepped.symm (Option.some_ne_none t)
  | signal thread woken => exact .inr ⟨_, act_of_poolAct stepped⟩
  | wakeup worker => exact .inr ⟨_, act_of_poolAct stepped⟩
  | read worker result =>
      simp only [State.step, State.read] at stepped
      left
      split at stepped
      · split at stepped
        · obtain rfl := Option.some.inj stepped
          rfl
        · exact absurd stepped.symm (Option.some_ne_none t)
        · obtain rfl := Option.some.inj stepped
          rfl
      · exact absurd stepped.symm (Option.some_ne_none t)
  | write worker written =>
      simp only [State.step, State.write] at stepped
      left
      split at stepped
      · cases written with
        | _ =>
            obtain rfl := Option.some.inj stepped
            rfl
      · exact absurd stepped.symm (Option.some_ne_none t)
  | close worker =>
      simp only [State.step, State.closeSock] at stepped
      left
      split at stepped
      · obtain rfl := Option.some.inj stepped
        rfl
      · exact absurd stepped.symm (Option.some_ne_none t)

/-- The pool begins with all workers but the thread of `start`. -/
theorem pool_of_starts (starts : Starts main listensock s) :
    s.pool = ThreadPool.launched Task (Finset.univ.erase main) := by
  rw [starts.pool, ThreadPool.launched]
  simp only [Finset.mem_erase, Finset.mem_univ, and_true, ne_eq, ite_not]

/-- The pool of the server is a pool. -/
theorem reachable_pool (reached : (machine ι f main listensock).Reachable s) :
    (ThreadPool.machine ι Task .wakeupInside).Reachable s.pool := by
  induction reached with
  | start initial =>
      rw [pool_of_starts initial]
      exact ThreadPool.reachable_launched _
  | step reached moved inductionHypothesis =>
      obtain ⟨action, acted⟩ := moved
      rcases pool_of_act acted with same | step
      · rw [same]
        exact inductionHypothesis
      · exact inductionHypothesis.step step

variable (alive : s.alive = true)
  (settled : Transition.Settled (State.act f main listensock) Action.Own s)

include alive settled

/-- A process that lives and rests can take no step of its own. -/
theorem step_of_settled
    (action : Action ι)
    (own : action.Own) :
    s.step f main listensock action = none := by
  have stuck := settled action own
  rw [State.act, if_pos alive] at stuck
  exact stuck

/-- A worker in a service can go on. -/
theorem running_of_settled (worker : ι) :
    running (s.pool.pc worker) = none := by
  cases runs : running (s.pool.pc worker) with
  | none => rfl
  | some task =>
      exfalso
      cases here : s.serving worker with
      | read =>
          have stuck : s.read f worker none = none :=
            step_of_settled alive settled (.read worker none) trivial
          simp [State.read, runs, here] at stuck
      | write message =>
          have stuck : s.write f worker .all = none :=
            step_of_settled alive settled (.write worker .all) trivial
          simp [State.write, runs, here] at stuck
      | close =>
          have stuck : s.closeSock worker = none :=
            step_of_settled alive settled (.close worker) trivial
          simp [State.closeSock, runs, here] at stuck
      | closed =>
          have stuck : s.next worker = none :=
            step_of_settled alive settled (.next worker) trivial
          have atRun := eq_run_of_running runs
          simp [State.next, running, here, State.poolAct, ThreadPool.State.act,
            ThreadPool.State.routineStep, atRun] at stuck

/-- With the server its pool is at rest. -/
theorem pool_settled :
    Transition.Settled (ThreadPool.State.act .wakeupInside) ThreadPool.Action.Own s.pool := by
  intro action own
  cases action with
  | next thread =>
      have stuck : s.next thread = none :=
        step_of_settled alive settled (.next thread) trivial
      rw [State.next, running_of_settled alive settled thread] at stuck
      exact Option.map_eq_none_iff.mp stuck
  | signal thread woken =>
      have stuck : s.poolAct (.signal thread woken) = none :=
        step_of_settled alive settled (.signal thread woken) trivial
      exact Option.map_eq_none_iff.mp stuck
  | _ => exact absurd own id

/-- At rest every task is in the queue or taken. -/
theorem Sound.inHand_of_settled (sound : Sound f main listensock s) :
    s.inHand main = [] := by
  cases atStart : s.main with
  | accept => rw [State.inHand, atStart]
  | push task =>
      have idle : s.pool.pc main = .idle := by
        refine sound.caller.resolve_left fun pushing => ?_
        rw [atStart] at pushing
        exact StartAt.noConfusion pushing
      have stuck := step_of_settled alive settled .push trivial
      simp [State.step, atStart, State.poolAct, ThreadPool.State.act, idle] at stuck
  | pushing =>
      simp only [State.inHand, atStart]
      have resting := ThreadPool.State.idle_or_blocked_of_settled
        (pool_settled alive settled) sound.order main
      rcases resting with idle | blocked
      · rw [idle]
        rfl
      · rw [blocked]
        rfl

/-- At rest a server with a worker is through with every connection. -/
theorem Sound.closed_of_settled
    {task : Task}
    (sound : Sound f main listensock s)
    (reached : (machine ι f main listensock).Reachable s)
    (isWorker : worker ≠ main)
    (accepted : task ∈ s.accepted) :
    Served f .closed (s.link task.number) := by
  have rest := pool_settled alive settled
  obtain ⟨empty, -⟩ := ThreadPool.ran_of_settled (reachable_pool reached)
    (sound.workers worker isWorker) rest
  have taken := sound.taken_map
  rw [empty, sound.inHand_of_settled alive settled, List.append_nil, List.append_nil] at taken
  rw [← taken] at accepted
  obtain ⟨⟨taker, other⟩, isTaken, rfl⟩ := List.mem_map.mp accepted
  have ran : (taker, other) ∈ s.pool.ran :=
    (ThreadPool.taken_perm_of_settled rest sound.order).mem_iff.mp isTaken
  exact sound.ran taker other ran

end Rest

/-- However the thread of `start`, the workers and the kernel interleave, an accepted
connection is untouched, in the hands of one worker, or through: answered as the service
says and closed once. Its descriptor is open just until then, so that no worker ever reads,
writes or closes a connection that has got the same descriptor later. A server with a worker
that is not killed comes to rest only when it is through with every connection. -/
theorem sockets_closed_once
    (ι : Type) [Fintype ι] [DecidableEq ι]
    (f : Service) (main : ι) (listensock : Fd) :
    (machine ι f main listensock).Invariant fun s =>
      s.accepted.map Task.number = List.range s.accepted.length ∧
      s.table listensock = some .listen ∧
      (∀ sock number, s.table sock = some (.link number) ↔
        ⟨sock, number⟩ ∈ s.accepted ∧ (s.link number).closed = 0) ∧
      (∀ task ∈ s.accepted,
        s.link task.number = .new ∨
        (∃ worker, running (s.pool.pc worker) = some task ∧
          Served f (s.serving worker) (s.link task.number)) ∨
        ∃ worker, (worker, task) ∈ s.pool.ran ∧
          Served f .closed (s.link task.number)) ∧
      (s.alive = true → (∃ worker, worker ≠ main) →
        Transition.Settled (State.act f main listensock) Action.Own s →
        ∀ task ∈ s.accepted, Served f .closed (s.link task.number)) := by
  intro s reached
  have sound := sound ι f main listensock s reached
  refine ⟨sound.numbered, sound.listening, sound.table, ?_, ?_⟩
  · intro task accepted
    by_cases runs : ∃ worker, running (s.pool.pc worker) = some task
    · obtain ⟨worker, isRunning⟩ := runs
      exact .inr (.inl ⟨worker, isRunning, sound.runs worker task isRunning⟩)
    by_cases ran : ∃ worker, (worker, task) ∈ s.pool.ran
    · obtain ⟨worker, present⟩ := ran
      exact .inr (.inr ⟨worker, present, sound.ran worker task present⟩)
    · left
      apply sound.untouched
      · intro worker other isRunning same
        have isAccepted := sound.mem_accepted_of_taken
          (sound.mem_taken_of_held (held_of_running isRunning))
        obtain rfl := sound.task_unique isAccepted accepted same
        exact runs ⟨worker, isRunning⟩
      · intro worker other present same
        have isAccepted := sound.mem_accepted_of_taken (sound.mem_taken_of_ran present)
        obtain rfl := sound.task_unique isAccepted accepted same
        exact ran ⟨worker, present⟩
  · rintro alive ⟨worker, isWorker⟩ settled task accepted
    exact sound.closed_of_settled alive settled reached isWorker accepted

end TcpPool
end LearnInLinux
