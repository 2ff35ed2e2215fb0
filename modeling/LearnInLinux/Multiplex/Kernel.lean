import LearnInLinux.Library.Transition
import Mathlib.Data.List.Nodup
import Mathlib.Logic.Function.Basic

/-!
# Descriptors and the sockets behind them

A server of the repository sees sockets as small numbers, and the kernel gives a
number that has been closed to the next connection. What a number denotes is kept
here, together with the history of a run: the sockets that were reported ready, and
the calls of `accept`, `recv` and `close`, each with the socket that it was made on.
-/

namespace LearnInLinux
namespace Multiplex

/-- The `int` of a descriptor. -/
abbrev Fd := Int

/-- A slot without descriptor. -/
def FD_NONE : Fd := -1

/-- What a descriptor can denote. -/
inductive Socket
  | listening
  /-- A connection, by how many were accepted before it. -/
  | client (number : Nat)
  /-- A file that the server does not touch. -/
  | other
  deriving DecidableEq

/-- The descriptors of the process, and how many connections it has accepted. -/
structure Kernel where
  socket : Fd → Option Socket
  accepted : Nat

/-- The history of a run consists of these. -/
inductive Event
  /-- `select` or `poll` has returned, with the sockets it reports readable. -/
  | round (reported : Fd → Option Socket)
  /-- A call of `accept`. -/
  | accept (fd : Fd) (socket : Option Socket)
  /-- `accept` has returned the descriptor. -/
  | accepted (fd : Fd) (number : Nat)
  | recv (fd : Fd) (socket : Option Socket)
  | close (fd : Fd) (socket : Option Socket)

namespace Kernel

/-- A server has just called `listen`. -/
structure Initial (listensock : Fd) (kernel : Kernel) : Prop where
  nobody : kernel.accepted = 0
  listening : kernel.socket listensock = some .listening
  others : ∀ fd, fd ≠ listensock →
    kernel.socket fd = none ∨ kernel.socket fd = some .other

/-- `accept` opens a descriptor for the next client. -/
def accept (fd : Fd) (kernel : Kernel) : Kernel where
  socket := Function.update kernel.socket fd (some (.client kernel.accepted))
  accepted := kernel.accepted + 1

/-- `close(fd)` -/
def close (fd : Fd) (kernel : Kernel) : Kernel :=
  { kernel with socket := Function.update kernel.socket fd none }

variable {kernel : Kernel} {fd other : Fd}

@[simp] theorem accept_socket_self (fd : Fd) (kernel : Kernel) :
    (kernel.accept fd).socket fd = some (.client kernel.accepted) :=
  Function.update_self ..

@[simp] theorem close_socket_self (fd : Fd) (kernel : Kernel) :
    (kernel.close fd).socket fd = none :=
  Function.update_self ..

theorem accept_socket_of_ne (different : other ≠ fd) :
    (kernel.accept fd).socket other = kernel.socket other :=
  Function.update_of_ne different ..

theorem close_socket_of_ne (different : other ≠ fd) :
    (kernel.close fd).socket other = kernel.socket other :=
  Function.update_of_ne different ..

/-- A connection behind `accept` is the new one or was there before. -/
theorem client_of_accept
    {number : Nat}
    (client : (kernel.accept fd).socket other = some (.client number)) :
    (other = fd ∧ number = kernel.accepted) ∨
      kernel.socket other = some (.client number) := by
  rcases Transition.update_some_eq_some_iff.mp client with ⟨same, new⟩ | ⟨-, before⟩
  · exact .inl ⟨same, (Socket.client.inj new).symm⟩
  · exact .inr before

/-- Closing a new connection gives its number back. -/
theorem close_accept_socket (unused : kernel.socket fd = none) :
    ((kernel.accept fd).close fd).socket = kernel.socket := by
  funext other
  by_cases same : other = fd
  · rw [same, close_socket_self, unused]
  · rw [close_socket_of_ne same, accept_socket_of_ne same]

end Kernel

/-! ## Histories, with the newest event in front -/

/-- The sockets that the last round has reported readable. -/
def reported : List Event → Fd → Option Socket
  | [] => fun _ => none
  | .round ready :: _ => ready
  | _ :: history => reported history

/-- Every `accept` and `recv` was made on a socket that the round it belongs to has
reported readable. -/
def Backed : List Event → Prop
  | [] => True
  | .accept fd socket :: history =>
      (socket ≠ none ∧ reported history fd = socket) ∧ Backed history
  | .recv fd socket :: history =>
      (socket ≠ none ∧ reported history fd = socket) ∧ Backed history
  | _ :: history => Backed history

/-- What the descriptor of a `close` has referred to. -/
def Event.closed : Event → Option (Option Socket)
  | .close _ socket => some socket
  | _ => none

/-- The sockets closed so far. -/
def closes (history : List Event) : List (Option Socket) :=
  history.filterMap Event.closed

/-- An event that neither opens nor closes a connection. -/
def Event.neutral : Event → Bool
  | .accepted _ _ => false
  | .close _ _ => false
  | _ => true

theorem closes_cons_close (fd : Fd) (socket : Option Socket) (history : List Event) :
    closes (.close fd socket :: history) = socket :: closes history :=
  rfl

theorem closes_cons_of_neutral
    {event : Event}
    (neutral : event.neutral = true)
    (history : List Event) :
    closes (event :: history) = closes history := by
  cases event with
  | accepted fd number => exact absurd neutral Bool.false_ne_true
  | close fd socket => exact absurd neutral Bool.false_ne_true
  | _ => rfl

theorem accepted_mem_cons_of_neutral
    {event : Event}
    (neutral : event.neutral = true)
    {history : List Event}
    {fd : Fd}
    {number : Nat} :
    .accepted fd number ∈ event :: history ↔ .accepted fd number ∈ history := by
  rw [List.mem_cons, or_iff_right]
  rintro rfl
  exact Bool.false_ne_true neutral

/-- The kernel and the history agree on the connections. -/
structure Tracks (kernel : Kernel) (history : List Event) : Prop where
  numbered : ∀ fd number, .accepted fd number ∈ history → number < kernel.accepted
  open_iff : ∀ fd number, kernel.socket fd = some (.client number) ↔
    .accepted fd number ∈ history ∧ some (.client number) ∉ closes history
  injective : ∀ fd fd' number, kernel.socket fd = some (.client number) →
    kernel.socket fd' = some (.client number) → fd = fd'
  closedClients : ∀ socket ∈ closes history, ∃ fd number,
    socket = some (.client number) ∧ .accepted fd number ∈ history
  once : (closes history).Nodup

namespace Tracks

variable {kernel : Kernel} {history : List Event} {fd : Fd}

theorem initial
    {listensock : Fd}
    (start : kernel.Initial listensock) :
    Tracks kernel [] := by
  have noClient (fd : Fd) (number : Nat) :
      kernel.socket fd ≠ some (.client number) := by
    intro client
    by_cases same : fd = listensock
    · rw [same, start.listening] at client
      exact absurd client (by simp)
    · rcases start.others fd same with isNone | isOther
      · rw [isNone] at client
        exact absurd client (by simp)
      · rw [isOther] at client
        exact absurd client (by simp)
  constructor
  · intro fd number accepted
    exact absurd accepted List.not_mem_nil
  · intro fd number
    apply iff_of_false (noClient fd number)
    exact fun accepted => List.not_mem_nil accepted.1
  · intro fd fd' number client
    exact absurd client (noClient fd number)
  · intro socket closed
    exact absurd closed List.not_mem_nil
  · exact List.nodup_nil

theorem neutral
    {event : Event}
    (tracks : Tracks kernel history)
    (isNeutral : event.neutral = true) :
    Tracks kernel (event :: history) := by
  constructor
  · intro fd number accepted
    exact tracks.numbered fd number
      ((accepted_mem_cons_of_neutral isNeutral).mp accepted)
  · intro fd number
    rw [accepted_mem_cons_of_neutral isNeutral, closes_cons_of_neutral isNeutral]
    exact tracks.open_iff fd number
  · exact tracks.injective
  · intro socket closed
    rw [closes_cons_of_neutral isNeutral] at closed
    obtain ⟨fd, number, client, accepted⟩ := tracks.closedClients socket closed
    exact ⟨fd, number, client, List.mem_cons_of_mem _ accepted⟩
  · rw [closes_cons_of_neutral isNeutral]
    exact tracks.once

/-- The number of the next connection has not been closed. -/
theorem not_closed
    (tracks : Tracks kernel history) :
    some (.client kernel.accepted) ∉ closes history := by
  intro closed
  obtain ⟨fd, number, client, accepted⟩ := tracks.closedClients _ closed
  have same : kernel.accepted = number := Socket.client.inj (Option.some.inj client)
  exact absurd (tracks.numbered fd number accepted) (by omega)

/-- The connections are numbered in the order in which they come. -/
theorem client_lt
    {number : Nat}
    (tracks : Tracks kernel history)
    (client : kernel.socket fd = some (.client number)) :
    number < kernel.accepted :=
  tracks.numbered fd number ((tracks.open_iff fd number).mp client).1

theorem accept
    (tracks : Tracks kernel history)
    (unused : kernel.socket fd = none) :
    Tracks (kernel.accept fd) (.accepted fd kernel.accepted :: history) := by
  have older (other : Fd) (number : Nat) (different : other ≠ fd) :
      .accepted other number ∈ Event.accepted fd kernel.accepted :: history ↔
        .accepted other number ∈ history := by
    rw [List.mem_cons, or_iff_right]
    intro same
    exact different (Event.accepted.inj same).1
  constructor
  · intro other number accepted
    rcases List.mem_cons.mp accepted with same | before
    · rw [(Event.accepted.inj same).2]
      exact Nat.lt_succ_self _
    · exact Nat.lt_succ_of_lt (tracks.numbered other number before)
  · intro other number
    change _ ↔ _ ∧ some (.client number) ∉ closes history
    by_cases same : other = fd
    · rw [same, Kernel.accept_socket_self]
      constructor
      · intro client
        have number_eq : kernel.accepted = number :=
          Socket.client.inj (Option.some.inj client)
        rw [← number_eq]
        exact ⟨List.mem_cons_self, tracks.not_closed⟩
      · rintro ⟨accepted, stillOpen⟩
        rcases List.mem_cons.mp accepted with isNew | before
        · rw [(Event.accepted.inj isNew).2]
        · have client := (tracks.open_iff fd number).mpr ⟨before, stillOpen⟩
          rw [unused] at client
          exact absurd client.symm (Option.some_ne_none _)
    · rw [Kernel.accept_socket_of_ne same, older other number same]
      exact tracks.open_iff other number
  · intro first second number firstClient secondClient
    have notNew {other : Fd} (client : kernel.socket other = some (.client number)) :
        number ≠ kernel.accepted :=
      Nat.ne_of_lt (tracks.client_lt client)
    rcases Kernel.client_of_accept firstClient with ⟨rfl, isNew⟩ | firstBefore
    · rcases Kernel.client_of_accept secondClient with ⟨rfl, -⟩ | secondBefore
      · rfl
      · exact absurd isNew (notNew secondBefore)
    · rcases Kernel.client_of_accept secondClient with ⟨rfl, isNew⟩ | secondBefore
      · exact absurd isNew (notNew firstBefore)
      · exact tracks.injective first second number firstBefore secondBefore
  · intro socket closed
    obtain ⟨other, number, client, accepted⟩ := tracks.closedClients socket closed
    exact ⟨other, number, client, List.mem_cons_of_mem _ accepted⟩
  · exact tracks.once

theorem close
    {number : Nat}
    (tracks : Tracks kernel history)
    (client : kernel.socket fd = some (.client number)) :
    Tracks (kernel.close fd) (.close fd (kernel.socket fd) :: history) := by
  obtain ⟨accepted, stillOpen⟩ := (tracks.open_iff fd number).mp client
  have sameAccepted (other : Fd) (number : Nat) :
      .accepted other number ∈ Event.close fd (kernel.socket fd) :: history ↔
        .accepted other number ∈ history := by
    rw [List.mem_cons, or_iff_right]
    exact fun same => Event.noConfusion same
  constructor
  · intro other number' before
    exact tracks.numbered other number' ((sameAccepted other number').mp before)
  · intro other number'
    rw [sameAccepted, closes_cons_close, List.mem_cons, not_or, client]
    by_cases same : other = fd
    · rw [same, Kernel.close_socket_self]
      apply iff_of_false (Option.some_ne_none _).symm
      rintro ⟨before, different, notClosed⟩
      have again := (tracks.open_iff fd number').mpr ⟨before, notClosed⟩
      exact different (again.symm.trans client)
    · rw [Kernel.close_socket_of_ne same, tracks.open_iff]
      constructor
      · rintro ⟨before, notClosed⟩
        refine ⟨before, ?_, notClosed⟩
        intro sameClient
        have otherClient := (tracks.open_iff other number').mpr ⟨before, notClosed⟩
        rw [sameClient] at otherClient
        exact same (tracks.injective other fd number otherClient client)
      · rintro ⟨before, -, notClosed⟩
        exact ⟨before, notClosed⟩
  · have remains {other : Fd} {number : Nat}
        (otherClient : (kernel.close fd).socket other = some (.client number)) :
        kernel.socket other = some (.client number) := by
      by_cases same : other = fd
      · rw [same, Kernel.close_socket_self] at otherClient
        exact absurd otherClient.symm (Option.some_ne_none _)
      · rw [Kernel.close_socket_of_ne same] at otherClient
        exact otherClient
    intro first second number firstClient secondClient
    exact tracks.injective first second number (remains firstClient)
      (remains secondClient)
  · intro socket closed
    rw [closes_cons_close, List.mem_cons] at closed
    rcases closed with isNew | before
    · exact ⟨fd, number, isNew.trans client, (sameAccepted fd number).mpr accepted⟩
    · obtain ⟨other, number', isClient, otherAccepted⟩ :=
        tracks.closedClients socket before
      exact ⟨other, number', isClient, (sameAccepted other number').mpr otherAccepted⟩
  · rw [closes_cons_close, List.nodup_cons, client]
    exact ⟨stillOpen, tracks.once⟩

end Tracks

end Multiplex
end LearnInLinux
