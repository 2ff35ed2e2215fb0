import LearnInLinux.Multiplex.PollServer
import LearnInLinux.Multiplex.SelectServer

/-!
# The servers around `select` and `poll`

Both servers follow the server of slots, so that what holds of its tables and rounds
holds of theirs.
-/

namespace LearnInLinux
namespace Multiplex

open Slots (slot TableOk)

/-! ## Tables -/

namespace SelectServer

/-- The table of the server in a state of a run, and what `Accepter` does when there is
no free slot. -/
structure State.TableOk (listensock : Fd) (s : State) : Prop where
  listening : s.fdArray 0 = listensock
  slots : Slots.TableOk NUM listensock (slot s.fdArray) s.history
  full : ∀ sock, 0 ≤ sock → s.kernel.socket sock = none →
    (∀ pos, 1 ≤ pos → pos < NUM → s.fdArray pos ≠ FD_NONE) →
    ∃ t, s.Accepter listensock sock = some t ∧ t.fdArray = s.fdArray ∧
      t.kernel.socket = s.kernel.socket ∧
      t.history = .close sock (some (.client s.kernel.accepted)) ::
        .accepted sock s.kernel.accepted ::
        .accept listensock (s.kernel.socket listensock) :: s.history

theorem tableOk (select : Select) (listensock : Fd) :
    (machine select listensock).Invariant (State.TableOk listensock) := by
  intro s reached
  have order := Slots.inOrder (device select) listensock s.view (reachable_view reached)
  constructor
  · exact (Slots.slot_eq_some_iff.mp order.first).1
  · exact order.tableOk
  · intro sock notNegative unused full
    refine ⟨_, State.Accepter_full notNegative unused full, rfl, ?_, ?_⟩
    · exact Kernel.close_accept_socket unused
    · change Event.close sock ((s.kernel.accept sock).socket sock) :: _ = _
      rw [Kernel.accept_socket_self]
      rfl

end SelectServer

namespace PollServer

/-- The table of the server in a state of a run, and what `Accepter` does when there is
no free slot. -/
structure State.TableOk (listensock : Fd) (s : State) : Prop where
  listening : (s.fds 0).fd = listensock
  slots : Slots.TableOk nfds listensock (slot s.fdArray) s.history
  events : ∀ i, i < nfds → ((s.fds i).events = POLLIN ↔ (s.fds i).fd ≠ FD_NONE)
  full : ∀ sock, 0 ≤ sock → s.kernel.socket sock = none →
    (∀ pos, 1 ≤ pos → pos < nfds → (s.fds pos).fd ≠ FD_NONE) →
    ∃ t, s.Accepter listensock sock = some t ∧ t.fds = s.fds ∧
      t.kernel.socket = s.kernel.socket ∧
      t.history = .close sock (some (.client s.kernel.accepted)) ::
        .accepted sock s.kernel.accepted ::
        .accept listensock (s.kernel.socket listensock) :: s.history

theorem tableOk (poll : Poll) (listensock : Fd) :
    (machine poll listensock).Invariant (State.TableOk listensock) := by
  intro s reached
  have order := Slots.inOrder (device poll) listensock s.view (reachable_view reached)
  constructor
  · exact (Slots.slot_eq_some_iff.mp order.first).1
  · exact order.tableOk
  · intro i _
    exact (asks poll listensock s reached i).events_iff
  · intro sock notNegative unused full
    refine ⟨_, State.Accepter_full notNegative unused full, rfl, ?_, ?_⟩
    · exact Kernel.close_accept_socket unused
    · change Event.close sock ((s.kernel.accept sock).socket sock) :: _ = _
      rw [Kernel.accept_socket_self]
      rfl

end PollServer

/-- Whatever `select`, `poll`, `accept` and `recv` return, the tables of both servers
hold the listening socket and the connections that are still to be closed. -/
theorem slot_tables (listensock : Fd) :
    (∀ select, (SelectServer.machine select listensock).Invariant
      (SelectServer.State.TableOk listensock)) ∧
    (∀ poll, (PollServer.machine poll listensock).Invariant
      (PollServer.State.TableOk listensock)) :=
  ⟨fun select => SelectServer.tableOk select listensock,
    fun poll => PollServer.tableOk poll listensock⟩

/-! ## Rounds -/

/-- `select` returns a count or -1, and a count comes with descriptors of the set. -/
def SelectServer.Reports (select : SelectServer.Select) : Prop :=
  ∀ nfds set n result, select nfds set n result → -1 ≤ n ∧ (0 < n → result ⊆ set)

/-- `poll` returns a count or -1, and with a count it has cleared `revents` wherever
`fd` is negative. -/
def PollServer.Reports (poll : PollServer.Poll) : Prop :=
  ∀ fds nfds timeout n revents, poll fds nfds timeout n revents →
    -1 ≤ n ∧ (0 < n → ∀ i, i < nfds → (fds i).fd = FD_NONE → revents i = 0)

theorem SelectServer.truthful
    {select : Select}
    (reports : Reports select) :
    (device select).Truthful := by
  rintro slot result ⟨nfds, set, n, returned, notZero, notFailed, fromTable⟩ i fd - -
    absent
  apply decide_eq_false
  intro present
  obtain ⟨bound, subset⟩ := reports nfds set n result returned
  obtain ⟨j, inside, atJ⟩ := fromTable fd (subset (by omega) present)
  exact absent j inside atJ

theorem PollServer.truthful
    {poll : Poll}
    (reports : Reports poll) :
    (device poll).Truthful := by
  rintro slot report ⟨fds, n, revents, returned, notZero, notFailed, fromTable⟩ i fd
    inside free -
  apply decide_eq_false
  obtain ⟨bound, cleared⟩ := reports fds nfds timeout n revents returned
  obtain ⟨same, none⟩ := fromTable i inside
  rw [same, cleared (by omega) i inside (none free)]
  decide

/-- Every `accept` and every `recv` of a pass is made on a socket that the `select` or
`poll` in front of the pass has reported readable, whatever is closed and accepted
meanwhile. -/
theorem calls_backed
    (select : SelectServer.Select) (poll : PollServer.Poll) (listensock : Fd)
    (selectReports : SelectServer.Reports select)
    (pollReports : PollServer.Reports poll) :
    ((SelectServer.machine select listensock).Invariant fun s => Backed s.history) ∧
      (PollServer.machine poll listensock).Invariant fun s => Backed s.history := by
  constructor
  · intro s reached
    have current := Slots.current (SelectServer.truthful selectReports) listensock s.view
      (SelectServer.reachable_view reached)
    exact current.backed
  · intro s reached
    have current := Slots.current (PollServer.truthful pollReports) listensock s.view
      (PollServer.reachable_view reached)
    exact current.backed

/-- Both calls of the kernel may report everything that was asked for. -/
theorem calls_backed_everything :
    ((SelectServer.machine (fun _ set n result => n = 1 ∧ result = set) 3).Invariant
      fun s => Backed s.history) ∧
    (PollServer.machine (fun fds _ _ n revents => n = 1 ∧
      revents = fun i => if (fds i).fd = FD_NONE then 0 else PollServer.POLLIN)
      3).Invariant fun s => Backed s.history := by
  apply calls_backed
  · rintro nfds set n result ⟨rfl, rfl⟩
    exact ⟨by decide, fun _ => Finset.Subset.refl result⟩
  · rintro fds nfds timeout n revents ⟨rfl, rfl⟩
    exact ⟨by decide, fun _ i _ free => if_pos free⟩

end Multiplex
end LearnInLinux
