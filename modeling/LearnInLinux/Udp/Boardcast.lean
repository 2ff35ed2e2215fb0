import LearnInLinux.Library.Transition
import LearnInLinux.Udp.Endpoint
import Mathlib.Tactic

/-!
# The chat server of two threads

One thread receives datagrams, enters their senders into the table of users and puts
the messages into a ring queue. The other one takes the messages out, copies the table
and sends the message to every user of the copy. This is the server while its object
lives: the table has its mutex, so that each of its two uses is one step. The queue is a
bounded FIFO. What the destructor makes of it is in `Udp.Destructor`.
-/

namespace LearnInLinux
namespace Udp
namespace Boardcast

/-- Capacity of the ring queue. -/
def N : Nat := 50

/-- A datagram that is not empty, as `recvfrom` delivers it into the buffer. -/
structure Datagram where
  peer : Endpoint
  chunk : Chunk

/-- `name + ">>" + buffer` -/
def Datagram.message (datagram : Datagram) : Bytes :=
  key datagram.peer ++ [62, 62] ++ datagram.chunk.text

/-- One turn of the sending thread: a message, how many datagrams had been received when
the table was copied, and the users that the message was sent to so far. -/
structure Broadcast where
  text : Bytes
  heard : Nat
  sends : List Endpoint

/-- Where the thread of `Recv` is. -/
inductive RecvAt
  | recvfrom
  | addUser (datagram : Datagram)
  /-- `_rq.push(message)` -/
  | push (message : Bytes)

/-- Where the thread of `Boardcast` is. -/
inductive CastAt
  | pop
  /-- In front of the block that fills `v`. -/
  | copy (sendstring : Bytes)
  /-- In the loop over `v`, with the users that are still to come. -/
  | sendto (current : Broadcast) (v : List Endpoint)

/-- The table and the queue of the server, where its two threads are, and what they have
done. -/
structure State where
  onlineuser : Users
  rq : List Bytes
  recvAt : RecvAt
  castAt : CastAt
  /-- The datagrams received so far. -/
  received : List Datagram
  /-- The turns of the sending thread that are over. -/
  finished : List Broadcast

/-- A step of one of the threads: what `recvfrom` returns, where an error and an empty
datagram are `none`, and the order in which the hash table lists its users are up to the
environment. -/
inductive Action
  | recvfrom (datagram : Option Datagram)
  | addUser
  | push
  | pop
  | copy (order : List Endpoint)
  | sendto

namespace State

/-- In front of the first call of either thread. -/
def create : State where
  onlineuser := []
  rq := []
  recvAt := .recvfrom
  castAt := .pop
  received := []
  finished := []

/-- `none` while the step is not the next one of its thread, or has to wait. -/
def act (action : Action) (s : State) : Option State :=
  match action with
  | .recvfrom datagram =>
      match s.recvAt with
      | .recvfrom =>
          match datagram with
          | none => some s
          | some datagram =>
              some { s with
                recvAt := .addUser datagram
                received := s.received ++ [datagram] }
      | _ => none
  | .addUser =>
      match s.recvAt with
      | .addUser datagram =>
          some { s with
            onlineuser := s.onlineuser.assign (key datagram.peer) datagram.peer
            recvAt := .push datagram.message }
      | _ => none
  | .push =>
      match s.recvAt with
      | .push message =>
          if s.rq.length < N then
            some { s with rq := s.rq ++ [message], recvAt := .recvfrom }
          else none
      | _ => none
  | .pop =>
      match s.castAt with
      | .pop =>
          match s.rq with
          | [] => none
          | message :: rq => some { s with rq := rq, castAt := .copy message }
      | _ => none
  | .copy order =>
      match s.castAt with
      | .copy sendstring =>
          if order.Perm (s.onlineuser.map Prod.snd) then
            some { s with castAt := .sendto ⟨sendstring, s.received.length, []⟩ order }
          else none
      | _ => none
  | .sendto =>
      match s.castAt with
      | .sendto current [] =>
          some { s with castAt := .pop, finished := s.finished ++ [current] }
      | .sendto current (e :: v) =>
          some { s with castAt := .sendto { current with sends := current.sends ++ [e] } v }
      | _ => none

end State

/-- All interleavings of the two threads. -/
def machine : Transition.Machine State :=
  .ofStep (fun s => s = State.create) State.act

/-! ## Where a message is -/

/-- The message in the hands of the receiving thread. -/
def RecvAt.held : RecvAt → List Bytes
  | .recvfrom => []
  | .addUser datagram => [datagram.message]
  | .push message => [message]

/-- The datagram whose sender is still to be entered. -/
def RecvAt.pending : RecvAt → List Datagram
  | .addUser datagram => [datagram]
  | _ => []

/-- The message in the hands of the sending thread. -/
def CastAt.held : CastAt → List Bytes
  | .pop => []
  | .copy sendstring => [sendstring]
  | .sendto current _ => [current.text]

/-- A datagram that is still to be entered has a message that is still to be pushed. -/
theorem RecvAt.length_pending_le (recvAt : RecvAt) :
    recvAt.pending.length ≤ recvAt.held.length := by
  cases recvAt with
  | recvfrom => exact Nat.le_refl 0
  | addUser datagram => exact Nat.le_refl 1
  | push message => exact Nat.zero_le 1

/-- A copy of the table holds everybody that the message of this number has to go to,
and nobody who has not been heard of. -/
structure Addressed
    (received : List Datagram) (number heard : Nat) (users : List Endpoint) : Prop where
  wasReceived : number < received.length
  heardReceived : heard ≤ received.length
  once : users.Nodup
  everybody : ∀ datagram ∈ received.take (number + 1), datagram.peer ∈ users
  nobodyElse : ∀ e ∈ users, ∃ datagram ∈ received.take heard, datagram.peer = e

/-- Later datagrams do not change whom a copy had to hold. -/
theorem Addressed.receive
    {received : List Datagram}
    {number heard : Nat}
    {users : List Endpoint}
    (addressed : Addressed received number heard users)
    (datagram : Datagram) :
    Addressed (received ++ [datagram]) number heard users := by
  have wasReceived := addressed.wasReceived
  have longer : (received ++ [datagram]).length = received.length + 1 :=
    List.length_append
  constructor
  · omega
  · exact Nat.le_trans addressed.heardReceived (by omega)
  · exact addressed.once
  · rw [List.take_append_of_le_length wasReceived]
    exact addressed.everybody
  · rw [List.take_append_of_le_length addressed.heardReceived]
    exact addressed.nobodyElse

namespace State

/-- What the current turn of the sending thread is about. -/
def CurrentAddressed (s : State) : Prop :=
  match s.castAt with
  | .sendto current v =>
      Addressed s.received s.finished.length current.heard (current.sends ++ v)
  | _ => True

/-- The table holds the senders entered so far, every message is in one place, and the
copies taken from the table were the right ones. -/
structure InOrder (s : State) : Prop where
  distinct : s.onlineuser.Distinct
  entered : ∃ added, s.received = added ++ s.recvAt.pending ∧
    ∀ e, e ∈ s.onlineuser.map Prod.snd ↔ e ∈ added.map Datagram.peer
  fifo : s.finished.map Broadcast.text ++ s.castAt.held ++ s.rq ++ s.recvAt.held =
    s.received.map Datagram.message
  current : s.CurrentAddressed
  finished : ∀ number broadcast, s.finished[number]? = some broadcast →
    Addressed s.received number broadcast.heard broadcast.sends

variable {s : State}

/-- Nothing has been received, and nothing is anywhere. -/
theorem inOrder_create : create.InOrder := by
  constructor
  · exact Users.distinct_nil
  · exact ⟨[], rfl, fun e => Iff.rfl⟩
  · rfl
  · trivial
  · intro number broadcast present
    exact absurd present (by simp [create])

/-- The turn in hand is not disturbed by a new datagram. -/
theorem CurrentAddressed.receive
    (current : s.CurrentAddressed)
    (datagram : Datagram)
    (recvAt : RecvAt) :
    ({ s with recvAt := recvAt, received := s.received ++ [datagram] } :
      State).CurrentAddressed := by
  rw [CurrentAddressed] at current ⊢
  cases castAt : s.castAt with
  | sendto broadcast v =>
      rw [castAt] at current
      exact Addressed.receive current datagram
  | _ => trivial

/-- A datagram is received: its sender is to be entered and its message to be pushed. -/
theorem InOrder.receive
    (order : s.InOrder)
    (here : s.recvAt = .recvfrom)
    (datagram : Datagram) :
    ({ s with recvAt := .addUser datagram, received := s.received ++ [datagram] } :
      State).InOrder := by
  obtain ⟨added, received, entered⟩ := order.entered
  have fifo := order.fifo
  rw [here] at received fifo
  constructor
  · exact order.distinct
  · refine ⟨added, ?_, entered⟩
    change s.received ++ [datagram] = added ++ [datagram]
    rw [received]
    exact congrArg (· ++ [datagram]) (List.append_nil added)
  · change _ ++ [datagram.message] = (s.received ++ [datagram]).map Datagram.message
    rw [List.map_append, ← fifo]
    exact congrArg (· ++ [datagram.message]) (List.append_nil _).symm
  · exact order.current.receive datagram (.addUser datagram)
  · intro number broadcast present
    exact (order.finished number broadcast present).receive datagram

/-- The sender is entered. An entry that is there stays as it is. -/
theorem InOrder.addUser
    {datagram : Datagram}
    (order : s.InOrder)
    (here : s.recvAt = .addUser datagram) :
    ({ s with
       onlineuser := s.onlineuser.assign (key datagram.peer) datagram.peer
       recvAt := .push datagram.message } : State).InOrder := by
  obtain ⟨added, received, entered⟩ := order.entered
  have fifo := order.fifo
  rw [here] at received fifo
  constructor
  · rw [order.distinct.assign_eq_insert]
    exact order.distinct.insert datagram.peer
  · refine ⟨s.received, (List.append_nil _).symm, ?_⟩
    intro e
    rw [order.distinct.assign_eq_insert, order.distinct.mem_insert, entered, received,
      List.map_append, List.mem_append]
    exact or_congr Iff.rfl List.mem_singleton.symm
  · exact fifo
  · exact order.current
  · exact order.finished

/-- The message moves from the receiving thread to the end of the queue. -/
theorem InOrder.push
    {message : Bytes}
    (order : s.InOrder)
    (here : s.recvAt = .push message) :
    ({ s with rq := s.rq ++ [message], recvAt := .recvfrom } : State).InOrder := by
  obtain ⟨added, received, entered⟩ := order.entered
  have fifo := order.fifo
  rw [here] at received fifo
  constructor
  · exact order.distinct
  · exact ⟨added, received, entered⟩
  · change _ ++ (s.rq ++ [message]) ++ [] = _
    rw [List.append_nil, ← List.append_assoc]
    exact fifo
  · exact order.current
  · exact order.finished

/-- The message moves from the front of the queue to the sending thread. -/
theorem InOrder.pop
    {message : Bytes}
    {rest : List Bytes}
    (order : s.InOrder)
    (here : s.castAt = .pop)
    (queue : s.rq = message :: rest) :
    ({ s with rq := rest, castAt := .copy message } : State).InOrder := by
  have fifo := order.fifo
  rw [here, queue] at fifo
  constructor
  · exact order.distinct
  · exact order.entered
  · rw [← fifo]
    change _ ++ [message] ++ rest ++ _ = _ ++ [] ++ (message :: rest) ++ _
    rw [List.append_nil, List.append_assoc _ [message] rest, List.singleton_append]
  · trivial
  · exact order.finished

/-- What is copied behind `pop` holds the sender of the message: it was entered in front
of `push`. -/
theorem InOrder.addressed
    {sendstring : Bytes}
    {users : List Endpoint}
    (order : s.InOrder)
    (here : s.castAt = .copy sendstring)
    (copied : users.Perm (s.onlineuser.map Prod.snd)) :
    Addressed s.received s.finished.length s.received.length users := by
  obtain ⟨added, received, entered⟩ := order.entered
  have lengths := congrArg List.length order.fifo
  have notMore := s.recvAt.length_pending_le
  have total := congrArg List.length received
  rw [here] at lengths
  simp only [List.length_append, List.length_map, CastAt.held, List.length_singleton]
    at lengths total
  have inAdded : s.finished.length + 1 ≤ added.length := by omega
  constructor
  · omega
  · exact Nat.le_refl _
  · exact copied.nodup_iff.mpr order.distinct.endpoints
  · intro datagram present
    rw [received, List.take_append_of_le_length inAdded] at present
    apply copied.mem_iff.mpr
    rw [entered]
    exact List.mem_map_of_mem (List.mem_of_mem_take present)
  · intro e present
    rw [List.take_length]
    have inTable := copied.mem_iff.mp present
    rw [entered] at inTable
    obtain ⟨datagram, wasAdded, same⟩ := List.mem_map.mp inTable
    refine ⟨datagram, ?_, same⟩
    rw [received]
    exact List.mem_append_left _ wasAdded

/-- A turn begins with the copy of the table. -/
theorem InOrder.copy
    {sendstring : Bytes}
    {users : List Endpoint}
    (order : s.InOrder)
    (here : s.castAt = .copy sendstring)
    (copied : users.Perm (s.onlineuser.map Prod.snd)) :
    ({ s with castAt := .sendto ⟨sendstring, s.received.length, []⟩ users } :
      State).InOrder := by
  have fifo := order.fifo
  rw [here] at fifo
  constructor
  · exact order.distinct
  · exact order.entered
  · exact fifo
  · exact order.addressed here copied
  · exact order.finished

/-- The message is sent to one more user of the copy. -/
theorem InOrder.sendto
    {current : Broadcast}
    {e : Endpoint}
    {v : List Endpoint}
    (order : s.InOrder)
    (here : s.castAt = .sendto current (e :: v)) :
    ({ s with castAt := .sendto { current with sends := current.sends ++ [e] } v } :
      State).InOrder := by
  have fifo := order.fifo
  have addressed := order.current
  rw [here] at fifo
  rw [CurrentAddressed, here] at addressed
  constructor
  · exact order.distinct
  · exact order.entered
  · exact fifo
  · change Addressed s.received s.finished.length current.heard (current.sends ++ [e] ++ v)
    rw [List.append_assoc, List.singleton_append]
    exact addressed
  · exact order.finished

/-- The copy has been gone through, and the turn is over. -/
theorem InOrder.finish
    {current : Broadcast}
    (order : s.InOrder)
    (here : s.castAt = .sendto current []) :
    ({ s with castAt := .pop, finished := s.finished ++ [current] } : State).InOrder := by
  have fifo := order.fifo
  have addressed := order.current
  rw [here] at fifo
  rw [CurrentAddressed, here] at addressed
  constructor
  · exact order.distinct
  · exact order.entered
  · rw [← fifo]
    change (s.finished ++ [current]).map Broadcast.text ++ [] ++ _ ++ _ = _
    rw [List.append_nil, List.map_append]
    rfl
  · trivial
  · intro number broadcast present
    rcases Transition.getElem?_concat_eq_some_iff.mp present with before | ⟨rfl, rfl⟩
    · exact order.finished number broadcast before
    · have same : current.sends ++ [] = current.sends := List.append_nil _
      rw [← same]
      exact addressed

/-- Every step of either thread. -/
theorem InOrder.act
    {action : Action}
    {s' : State}
    (order : s.InOrder)
    (acted : s.act action = some s') :
    s'.InOrder := by
  cases action with
  | recvfrom datagram =>
      simp only [State.act] at acted
      split at acted
      · rename_i here
        split at acted
        · obtain rfl := Option.some.inj acted
          exact order
        · obtain rfl := Option.some.inj acted
          exact order.receive here _
      · exact absurd acted (by simp)
  | addUser =>
      rw [State.act] at acted
      split at acted
      · rename_i here
        obtain rfl := Option.some.inj acted
        exact order.addUser here
      · exact absurd acted (by simp)
  | push =>
      rw [State.act] at acted
      split at acted
      · rename_i here
        split at acted
        · obtain rfl := Option.some.inj acted
          exact order.push here
        · exact absurd acted (by simp)
      · exact absurd acted (by simp)
  | pop =>
      rw [State.act] at acted
      split at acted
      · rename_i here
        split at acted
        · exact absurd acted (by simp)
        · rename_i queue
          obtain rfl := Option.some.inj acted
          exact order.pop here queue
      · exact absurd acted (by simp)
  | copy users =>
      rw [State.act] at acted
      split at acted
      · rename_i here
        split at acted
        · rename_i copied
          obtain rfl := Option.some.inj acted
          exact order.copy here copied
        · exact absurd acted (by simp)
      · exact absurd acted (by simp)
  | sendto =>
      rw [State.act] at acted
      split at acted
      · rename_i here
        obtain rfl := Option.some.inj acted
        exact order.finish here
      · rename_i here
        obtain rfl := Option.some.inj acted
        exact order.sendto here
      · exact absurd acted (by simp)

end State

/-- All interleavings of the two threads. -/
theorem inOrder : machine.Invariant State.InOrder := by
  apply Transition.Machine.invariant_of_actions
  · rintro s rfl
    exact State.inOrder_create
  · exact fun action s s' order acted => order.act acted

/-! ## The chat -/

/-- The turns of the sending thread, with the one that it is in. -/
def State.broadcasts (s : State) : List Broadcast :=
  match s.castAt with
  | .sendto current _ => s.finished ++ [current]
  | _ => s.finished

/-- What a chat is for. -/
structure State.Delivers (s : State) : Prop where
  /-- The messages leave in the order in which they came, and none is lost. -/
  order : s.finished.map Broadcast.text ++ s.castAt.held ++ s.rq ++ s.recvAt.held =
    s.received.map Datagram.message
  /-- Nobody is sent a message twice, or before having sent one. -/
  sound : ∀ (number : Nat) (broadcast : Broadcast),
    s.broadcasts[number]? = some broadcast →
    broadcast.sends.Nodup ∧ broadcast.heard ≤ s.received.length ∧
      ∀ e ∈ broadcast.sends,
        ∃ datagram ∈ s.received.take broadcast.heard, datagram.peer = e
  /-- Behind its turn a message has been sent to everybody heard of up to it. -/
  complete : ∀ (number : Nat) (broadcast : Broadcast),
    s.finished[number]? = some broadcast →
    ∀ datagram ∈ s.received.take (number + 1), datagram.peer ∈ broadcast.sends
  /-- Every user has an entry of its own. -/
  entries : (∀ user ∈ s.onlineuser, user.1 = key user.2) ∧
    (s.onlineuser.map Prod.fst).Nodup

/-- However the two threads take turns, every message goes once to everybody who has
written up to it, and different endpoints have different entries in the table. -/
theorem chat_delivers :
    machine.Invariant State.Delivers ∧ Function.Injective key := by
  refine ⟨?_, key_injective⟩
  intro s reached
  have order := inOrder s reached
  have ended (number : Nat) (broadcast : Broadcast)
      (present : s.finished[number]? = some broadcast) :
      broadcast.sends.Nodup ∧ broadcast.heard ≤ s.received.length ∧
        ∀ e ∈ broadcast.sends,
          ∃ datagram ∈ s.received.take broadcast.heard, datagram.peer = e := by
    have addressed := order.finished number broadcast present
    exact ⟨addressed.once, addressed.heardReceived, addressed.nobodyElse⟩
  constructor
  · exact order.fifo
  · intro number broadcast present
    rw [State.broadcasts] at present
    split at present
    · rename_i current v here
      have addressed := order.current
      rw [State.CurrentAddressed, here] at addressed
      rcases Transition.getElem?_concat_eq_some_iff.mp present with before | ⟨rfl, rfl⟩
      · exact ended number broadcast before
      · refine ⟨?_, addressed.heardReceived, ?_⟩
        · exact addressed.once.of_append_left
        · exact fun e sent => addressed.nobodyElse e (List.mem_append_left v sent)
    · exact ended number broadcast present
  · intro number broadcast present
    exact (order.finished number broadcast present).everybody
  · exact ⟨order.distinct.own, order.distinct.once⟩

end Boardcast
end Udp
end LearnInLinux
