import LearnInLinux.Library.Transition

/-!
# The sockets of a server

The table of descriptors of a process that accepts connections. A descriptor is a number
that is given out again once it is closed, so what matters about a table is which
connection a number refers to now.
-/

namespace Descriptors

/-- The number of a descriptor. -/
abbrev Fd := Nat

/-- What a descriptor refers to; connections are numbered in the order in which they are
accepted. -/
inductive File
  | listen
  | link (number : Nat)
  | other
  deriving DecidableEq

/-- What a call of `write` on a connection does. -/
inductive Written
  | all
  /-- It returns -1. -/
  | failed
  /-- The signal ends the process. -/
  | sigpipe

/-- The descriptors of a process. -/
abbrev Table := Fd → Option File

namespace Table

/-- The descriptor of a new connection. -/
def accept (sock : Fd) (number : Nat) (table : Table) : Table :=
  Function.update table sock (some (.link number))

/-- `close(sock)` -/
def close (sock : Fd) (table : Table) : Table :=
  Function.update table sock none

/-- The connection behind a descriptor. -/
def linkOf (sock : Fd) (table : Table) : Option Nat :=
  match table sock with
  | some (.link number) => some number
  | _ => none

/-- A call on a descriptor changes the connection behind it. -/
def onLink {Λ : Type} (sock : Fd) (change : Λ → Λ) (links : Nat → Λ) (table : Table) :
    Nat → Λ :=
  match table.linkOf sock with
  | none => links
  | some number => Function.update links number (change (links number))

variable {table : Table} {sock other : Fd} {number entry : Nat} {file : File}

theorem close_eq_some_iff :
    table.close sock other = some file ↔ other ≠ sock ∧ table other = some file :=
  Transition.update_none_eq_some_iff

theorem accept_eq_link_iff :
    table.accept sock number other = some (.link entry) ↔
      (other = sock ∧ entry = number) ∨ (other ≠ sock ∧ table other = some (.link entry)) := by
  rw [accept, Transition.update_some_eq_some_iff, File.link.injEq, @eq_comm _ number entry]

/-- A new connection is not the listening socket. -/
theorem accept_eq_listen_iff (free : table sock = none) :
    table.accept sock number other = some .listen ↔ table other = some .listen := by
  rw [accept, Transition.update_some_eq_some_iff]
  constructor
  · rintro (⟨-, isListen⟩ | ⟨-, before⟩)
    · exact File.noConfusion isListen
    · exact before
  · intro before
    refine .inr ⟨?_, before⟩
    rintro rfl
    exact Option.some_ne_none _ (before.symm.trans free)

/-- Closing a connection leaves the listening socket open. -/
theorem close_eq_listen_iff (refers : table sock = some (.link number)) :
    table.close sock other = some .listen ↔ table other = some .listen := by
  rw [close_eq_some_iff, and_iff_right_iff_imp]
  rintro before rfl
  exact File.noConfusion (Option.some.inj (before.symm.trans refers))

theorem linkOf_eq_some_iff :
    table.linkOf sock = some number ↔ table sock = some (.link number) := by
  rw [linkOf]
  split
  · rename_i other found
    rw [found]
    simp
  · rename_i noLink
    constructor
    · exact fun impossible => absurd impossible.symm (Option.some_ne_none number)
    · exact fun found => absurd found (noLink number)

theorem onLink_of_link
    {Λ : Type}
    {change : Λ → Λ}
    {links : Nat → Λ}
    (refers : table sock = some (.link number)) :
    table.onLink sock change links = Function.update links number (change (links number)) := by
  rw [onLink, linkOf_eq_some_iff.mpr refers]

end Table

end Descriptors
