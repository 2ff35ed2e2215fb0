import LearnInLinux.Basic
import LearnInLinux.Library.Transition
import Mathlib.Tactic

/-!
# The channel of shared memory

The client stores a line in shared memory and writes a token into a FIFO; the server
waits for a token and prints what is in the memory. There is one cell and any number of
tokens, and nothing tells the client that a line has been printed.
-/

namespace LearnInLinux
namespace Shm

/-- "quit" -/
def quit : Bytes := [113, 117, 105, 116]

/-- A line typed into the client, without its newline. -/
structure Line where
  bytes : Bytes
  nonempty : bytes ≠ []
  bounded : bytes.length ≤ 4094
  textOnly : 0 ∉ bytes

/-- Where the client is in its loop. -/
inductive Client
  | read
  | signal
  /-- `strcmp(shmaddr, "quit")` -/
  | check
  | done

/-- Where the server is in its loop. -/
inductive Server
  | wait
  | print
  /-- `strcmp(shmaddr, "quit")` -/
  | check
  | done

/-- The memory and the FIFO between the two programs, and where these are. -/
structure State where
  /-- The shared memory. -/
  shmaddr : Bytes
  /-- Tokens in the FIFO. -/
  tokens : Nat
  client : Client
  server : Server
  /-- The lines that the client has stored. -/
  stored : List Bytes
  /-- The lines that the server has printed. -/
  printed : List Bytes

/-- A step of one of the programs. -/
inductive Action
  | read (line : Line)
  | signal
  | clientCheck
  | wait
  | print
  | serverCheck

namespace State

/-- `shmget` gives memory that is cleared. -/
def create : State where
  shmaddr := []
  tokens := 0
  client := .read
  server := .wait
  stored := []
  printed := []

/-- `strcmp(shmaddr, "quit") == 0` -/
def isQuit (s : State) : Bool :=
  Text.cString 0 s.shmaddr == quit

/-- `none` while the step is not the next one of its process, or has to wait. -/
def act (action : Action) (s : State) : Option State :=
  match action with
  | .read line =>
      match s.client with
      | .read =>
          some { s with
            shmaddr := line.bytes ++ 0 :: s.shmaddr.drop (line.bytes.length + 1)
            client := .signal
            stored := s.stored ++ [line.bytes] }
      | _ => none
  | .signal =>
      match s.client with
      | .signal => some { s with tokens := s.tokens + 1, client := .check }
      | _ => none
  | .clientCheck =>
      match s.client with
      | .check => some { s with client := if s.isQuit then .done else .read }
      | _ => none
  | .wait =>
      match s.server, s.tokens with
      | .wait, tokens + 1 => some { s with tokens := tokens, server := .print }
      | _, _ => none
  | .print =>
      match s.server with
      | .print =>
          some { s with
            server := .check
            printed := s.printed ++ [Text.cString 0 s.shmaddr] }
      | _ => none
  | .serverCheck =>
      match s.server with
      | .check => some { s with server := if s.isQuit then .done else .wait }
      | _ => none

end State

/-- All interleavings of the two processes. -/
def machine : Transition.Machine State :=
  .ofStep (fun s => s = State.create) State.act

/-! ## Tokens -/

/-- The line whose token is still to be written. -/
def Client.owes : Client → Nat
  | .signal => 1
  | _ => 0

/-- The token that was read for the next print. -/
def Server.holds : Server → Nat
  | .print => 1
  | _ => 0

/-- What was printed, by the number of the store. -/
structure Shown (stored printed : List Bytes) (numbers : List Nat) : Prop where
  length : numbers.length = printed.length
  ascending : numbers.Pairwise (· ≤ ·)
  shows : ∀ k number, numbers[k]? = some number →
    k ≤ number ∧ number < stored.length ∧ printed[k]? = stored[number]?

theorem Shown.store
    {stored printed : List Bytes}
    {numbers : List Nat}
    (shown : Shown stored printed numbers)
    (line : Bytes) :
    Shown (stored ++ [line]) printed numbers := by
  refine ⟨shown.length, shown.ascending, ?_⟩
  intro k number present
  obtain ⟨notBefore, inside, same⟩ := shown.shows k number present
  refine ⟨notBefore, ?_, ?_⟩
  · rw [List.length_append]
    exact Nat.lt_add_right 1 inside
  · rw [List.getElem?_append_left inside]
    exact same

/-- The last store is printed. -/
theorem Shown.print
    {stored printed : List Bytes}
    {numbers : List Nat}
    {line : Bytes}
    (shown : Shown (stored ++ [line]) printed numbers)
    (behind : printed.length ≤ stored.length) :
    Shown (stored ++ [line]) (printed ++ [line]) (numbers ++ [stored.length]) := by
  constructor
  · rw [List.length_append, List.length_append, shown.length]
    rfl
  · rw [List.pairwise_append]
    refine ⟨shown.ascending, List.pairwise_singleton _ _, ?_⟩
    intro earlier present later isLast
    obtain ⟨k, inside, rfl⟩ := List.getElem_of_mem present
    have bounded := (shown.shows k _ (List.getElem?_eq_getElem inside)).2.1
    rw [List.length_append, List.length_singleton] at bounded
    rw [List.mem_singleton.mp isLast]
    exact Nat.le_of_lt_succ bounded
  · intro k number present
    rcases Transition.getElem?_concat_eq_some_iff.mp present with before | ⟨rfl, rfl⟩
    · obtain ⟨notBefore, inside, same⟩ := shown.shows k number before
      have earlier : k < printed.length := by
        rw [← shown.length]
        exact (List.getElem?_eq_some_iff.mp before).1
      refine ⟨notBefore, inside, ?_⟩
      rw [List.getElem?_append_left earlier]
      exact same
    · rw [shown.length]
      refine ⟨behind, ?_, ?_⟩
      · rw [List.length_append]
        exact Nat.lt_succ_self _
      · rw [List.getElem?_concat_length, List.getElem?_concat_length]

namespace State

/-- The memory holds the last line, and no more is printed than was signalled. -/
structure InOrder (s : State) : Prop where
  latest : s.stored = [] ∨ ∃ before, s.stored = before ++ [Text.cString 0 s.shmaddr]
  balance : s.printed.length + s.server.holds + s.tokens + s.client.owes = s.stored.length
  shown : ∃ numbers, Shown s.stored s.printed numbers

variable {s s' : State}

theorem inOrder_create : create.InOrder := by
  refine ⟨.inl rfl, rfl, [], rfl, List.Pairwise.nil, ?_⟩
  intro k number present
  exact absurd present (by simp)

theorem cString_store (line : Line) (rest : Bytes) :
    Text.cString 0 (line.bytes ++ 0 :: rest) = line.bytes := by
  rw [Text.cString_append_terminator_cons]
  exact Text.cString_eq_self line.textOnly

/-- A token stands for a line that has been stored. -/
theorem InOrder.stored_of_print
    (order : s.InOrder)
    (here : s.server = .print) :
    ∃ before, s.stored = before ++ [Text.cString 0 s.shmaddr] ∧
      s.printed.length ≤ before.length := by
  have balance := order.balance
  rw [here] at balance
  rcases order.latest with nothing | ⟨before, stored⟩
  · rw [nothing] at balance
    change s.printed.length + 1 + s.tokens + s.client.owes = 0 at balance
    omega
  · refine ⟨before, stored, ?_⟩
    have lengths := congrArg List.length stored
    rw [List.length_append, List.length_singleton] at lengths
    change s.printed.length + 1 + s.tokens + s.client.owes = s.stored.length at balance
    omega

/-- A new line is behind all that is printed. -/
theorem InOrder.read
    (order : s.InOrder)
    (here : s.client = .read)
    (line : Line) :
    ({ s with
       shmaddr := line.bytes ++ 0 :: s.shmaddr.drop (line.bytes.length + 1)
       client := .signal
       stored := s.stored ++ [line.bytes] } : State).InOrder := by
  have balance := order.balance
  rw [here] at balance
  obtain ⟨numbers, shown⟩ := order.shown
  refine ⟨.inr ⟨s.stored, ?_⟩, ?_, numbers, shown.store line.bytes⟩
  · rw [cString_store]
  · change s.printed.length + s.server.holds + s.tokens + 1 =
      (s.stored ++ [line.bytes]).length
    rw [List.length_append, ← balance]
    rfl

/-- A token goes from the channel to the server. -/
theorem InOrder.wait
    {tokens : Nat}
    (order : s.InOrder)
    (here : s.server = .wait)
    (remaining : s.tokens = tokens + 1) :
    ({ s with tokens := tokens, server := .print } : State).InOrder := by
  have balance := order.balance
  rw [here, remaining] at balance
  refine ⟨order.latest, ?_, order.shown⟩
  change s.printed.length + 1 + tokens + s.client.owes = s.stored.length
  change s.printed.length + 0 + (tokens + 1) + s.client.owes = s.stored.length at balance
  omega

/-- What is printed is the last store. -/
theorem InOrder.print
    (order : s.InOrder)
    (here : s.server = .print) :
    ({ s with
       server := .check
       printed := s.printed ++ [Text.cString 0 s.shmaddr] } : State).InOrder := by
  have balance := order.balance
  rw [here] at balance
  obtain ⟨before, stored, behind⟩ := order.stored_of_print here
  obtain ⟨numbers, shown⟩ := order.shown
  refine ⟨order.latest, ?_, numbers ++ [before.length], ?_⟩
  · change (s.printed ++ [_]).length + 0 + s.tokens + s.client.owes = s.stored.length
    rw [List.length_append]
    exact balance
  · change Shown s.stored (s.printed ++ [_]) _
    rw [stored] at shown ⊢
    exact shown.print behind

/-- A process goes on without touching a token. -/
theorem InOrder.goto
    {client : Client}
    {server : Server}
    (order : s.InOrder)
    (owes : client.owes = s.client.owes)
    (holds : server.holds = s.server.holds) :
    ({ s with client := client, server := server } : State).InOrder := by
  refine ⟨order.latest, ?_, order.shown⟩
  change s.printed.length + server.holds + s.tokens + client.owes = s.stored.length
  rw [owes, holds]
  exact order.balance

theorem InOrder.act
    {action : Action}
    (order : s.InOrder)
    (acted : s.act action = some s') :
    s'.InOrder := by
  cases action with
  | read line =>
      rw [State.act] at acted
      split at acted
      · rename_i here
        obtain rfl := Option.some.inj acted
        exact order.read here line
      · exact absurd acted (by simp)
  | signal =>
      rw [State.act] at acted
      split at acted
      · rename_i here
        obtain rfl := Option.some.inj acted
        have balance := order.balance
        rw [here] at balance
        refine ⟨order.latest, ?_, order.shown⟩
        change s.printed.length + s.server.holds + (s.tokens + 1) + 0 = s.stored.length
        exact balance
      · exact absurd acted (by simp)
  | clientCheck =>
      rw [State.act] at acted
      split at acted
      · rename_i here
        obtain rfl := Option.some.inj acted
        refine order.goto ?_ rfl
        rw [here]
        split <;> rfl
      · exact absurd acted (by simp)
  | wait =>
      rw [State.act] at acted
      split at acted
      · rename_i tokens here remaining
        obtain rfl := Option.some.inj acted
        exact order.wait here remaining
      · exact absurd acted (by simp)
  | print =>
      rw [State.act] at acted
      split at acted
      · rename_i here
        obtain rfl := Option.some.inj acted
        exact order.print here
      · exact absurd acted (by simp)
  | serverCheck =>
      rw [State.act] at acted
      split at acted
      · rename_i here
        obtain rfl := Option.some.inj acted
        refine order.goto rfl ?_
        rw [here]
        split <;> rfl
      · exact absurd acted (by simp)

end State

theorem inOrder : machine.Invariant State.InOrder := by
  apply Transition.Machine.invariant_of_actions
  · rintro s rfl
    exact State.inOrder_create
  · exact fun action s s' order acted => order.act acted

/-! ## The channel -/

/-- Everything that is stored, in order, as far as the server has come. -/
def Channel (s : State) : Prop :=
  s.printed <+: s.stored

/-- What is printed was stored, no line in front of an earlier one, and none in front of
its turn. -/
def Follows (s : State) : Prop :=
  ∃ numbers, Shown s.stored s.printed numbers

/-- The client stores a line when all lines before have been printed. -/
def Paced (s s' : State) : Prop :=
  s'.stored = s.stored ∨ s.printed.length = s.stored.length

/-- "a" and "b" are stored before the server has printed anything. -/
theorem first_line_lost : ¬ machine.Invariant Channel := by
  intro channel
  have ran : Transition.run State.act
      [.read ⟨[97], by decide, by decide, by decide⟩, .signal, .clientCheck,
        .read ⟨[98], by decide, by decide, by decide⟩, .wait, .print]
      State.create = some _ := rfl
  have isPrefix := channel _ (Transition.reachable_of_run (.start rfl) ran)
  change [[98]] <+: [[97], [98]] at isPrefix
  exact absurd isPrefix (by decide)

/-- What a step does to the lines. -/
theorem State.lines_of_act
    {action : Action}
    {s s' : State}
    (acted : s.act action = some s') :
    (∃ line, s'.stored = s.stored ++ [line] ∧ s'.printed = s.printed) ∨
      (s.server = .print ∧ s'.stored = s.stored ∧
        s'.printed = s.printed ++ [Text.cString 0 s.shmaddr]) ∨
      (s'.stored = s.stored ∧ s'.printed = s.printed) := by
  cases action with
  | read line =>
      rw [State.act] at acted
      split at acted
      · obtain rfl := Option.some.inj acted
        exact .inl ⟨line.bytes, rfl, rfl⟩
      · exact absurd acted (by simp)
  | print =>
      rw [State.act] at acted
      split at acted
      · rename_i here
        obtain rfl := Option.some.inj acted
        exact .inr (.inl ⟨here, rfl, rfl⟩)
      · exact absurd acted (by simp)
  | _ =>
      rw [State.act] at acted
      split at acted
      · obtain rfl := Option.some.inj acted
        exact .inr (.inr ⟨rfl, rfl⟩)
      · exact absurd acted (by simp)

/-- A client that waits for the server is at most one line ahead of it. -/
theorem channel_of_paced :
    (machine.restrict Paced).Invariant fun s =>
      Channel s ∧ s.stored.length ≤ s.printed.length + 1 := by
  apply Transition.Machine.invariant_of_steps
  · rintro s rfl
    exact ⟨List.nil_prefix, Nat.zero_le _⟩
  · rintro s s' reached ⟨channel, ahead⟩ ⟨⟨action, acted⟩, paced⟩
    have order := inOrder s (Transition.Machine.reachable_of_restrict reached)
    rw [Channel] at channel ⊢
    rcases State.lines_of_act acted with
      ⟨line, stored, printed⟩ | ⟨here, stored, printed⟩ | ⟨stored, printed⟩
    · rw [stored, printed]
      refine ⟨channel.trans (List.prefix_append _ _), ?_⟩
      rcases paced with unchanged | caughtUp
      · rw [stored] at unchanged
        exact absurd unchanged (by simp)
      · rw [List.length_append, caughtUp]
        exact Nat.le_refl _
    · obtain ⟨before, last, behind⟩ := order.stored_of_print here
      rw [stored, printed]
      rw [last, List.length_append, List.length_singleton] at ahead
      have all : s.printed = before := by
        rw [last] at channel
        apply List.IsPrefix.eq_of_length
        · exact List.prefix_of_prefix_length_le channel (List.prefix_append _ _) behind
        · omega
      rw [last, all]
      refine ⟨List.prefix_refl _, ?_⟩
      exact Nat.le_succ _
    · rw [stored, printed]
      exact ⟨channel, ahead⟩

/-- What the server prints, the client has stored, in this order and as often at most;
and the server prints all of it, in every run in which the client waits with the next
line until the server has printed the last one. -/
theorem prints_follow_stores :
    machine.Invariant Follows ∧ (machine.restrict Paced).Invariant Channel := by
  constructor
  · intro s reached
    exact (inOrder s reached).shown
  · intro s reached
    exact (channel_of_paced s reached).1

end Shm
end LearnInLinux
