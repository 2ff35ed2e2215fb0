import LearnInLinux.Basic
import LearnInLinux.Library.Transition
import Mathlib.Tactic

/-!
# The upper-casing service

A client sends a line and waits for the echo of it, and the server sends every line
back in upper case. The server writes the whole of its buffer, and the client reads into
a buffer of the same length with one byte left for the terminator.
-/

namespace LearnInLinux
namespace TcpUpper

/-! ## Characters in the C locale -/

/-- `isupper` -/
def isupper (byte : UInt8) : Bool :=
  65 ≤ byte && byte ≤ 90

/-- `islower` -/
def islower (byte : UInt8) : Bool :=
  97 ≤ byte && byte ≤ 122

/-- `isalpha` -/
def isalpha (byte : UInt8) : Bool :=
  isupper byte || islower byte

/-- `toupper` -/
def toupper (byte : UInt8) : UInt8 :=
  if islower byte then byte - 32 else byte

/-- `tolower` -/
def tolower (byte : UInt8) : UInt8 :=
  if isupper byte then byte + 32 else byte

/-- The body of the loop over the bytes of a request. -/
def upper (byte : UInt8) : UInt8 :=
  if isalpha byte && islower byte then toupper byte else byte

/-- `strcasecmp(first, second) == 0` on the text in a buffer. -/
def strcasecmp (first second : Bytes) : Bool :=
  (Text.cString 0 first).map tolower == (Text.cString 0 second).map tolower

/-- "quit" -/
def quit : Bytes := [113, 117, 105, 116]

/-- A line that a client sends. -/
structure Line where
  bytes : Bytes
  nonempty : bytes ≠ []
  bounded : bytes.length ≤ 1023
  textOnly : 0 ∉ bytes
  notQuit : strcasecmp bytes quit = false

/-! ## The service -/

/-- The loop `for (int i = 0; i < s; i++)`. -/
def transform (s : Nat) (inbuffer : Buffer) : Buffer :=
  ⟨(inbuffer.val.take s).map upper ++ inbuffer.val.drop s, by
    rw [List.length_append, List.length_map, ← List.length_append, List.take_append_drop]
    exact inbuffer.property⟩

/-- One turn of the loop of `transervice` on the bytes of a `read`: the buffer behind it,
of which all bytes are written, or the end of the service. -/
def transervice (data : Bytes) (small : data.length ≤ 1023) (inbuffer : Buffer) :
    Option Buffer :=
  let inbuffer := (inbuffer.fill data small).set data.length 0
  if strcasecmp inbuffer.val quit then none
  else some (transform data.length inbuffer)

/-- Where the client is. -/
inductive Client
  | getline
  /-- In front of `recv`. -/
  | recv

/-- The client and the service of its connection, and what is on the way between them. -/
structure State where
  /-- The lines that are still to be typed. -/
  lines : List Line
  client : Client
  inbuffer : Buffer
  /-- Requests on their way to the server. -/
  requests : List Line
  /-- Bytes on their way to the client. -/
  replies : Bytes
  /-- The texts printed behind `server 回显# `. -/
  printed : List Bytes

/-- A step of the client or of the server. -/
inductive Action
  | send
  | serve
  | recv

namespace State

/-- A step of the client or of the service; `none` while it is not the next one. -/
def act (action : Action) (s : State) : Option State :=
  match action with
  | .send =>
      match s.client, s.lines with
      | .getline, line :: lines =>
          if line.bytes = quit then none
          else
            some { s with
              lines := lines
              client := .recv
              requests := s.requests ++ [line] }
      | _, _ => none
  | .serve =>
      match s.requests with
      | [] => none
      | line :: requests =>
          match transervice line.bytes line.bounded s.inbuffer with
          | none => none
          | some inbuffer =>
              some { s with
                inbuffer := inbuffer
                requests := requests
                replies := s.replies ++ inbuffer.val }
  | .recv =>
      match s.client with
      | .getline => none
      | .recv =>
          if s.replies = [] then none
          else
            some { s with
              client := .getline
              replies := s.replies.drop 1023
              printed := s.printed ++ [Text.cString 0 (s.replies.take 1023 ++ [0])] }

/-- A new connection; the buffer of the server holds anything. -/
def create (lines : List Line) (inbuffer : Buffer) : State where
  lines := lines
  client := .getline
  inbuffer := inbuffer
  requests := []
  replies := []
  printed := []

end State

/-- All interleavings of a client that is given the lines and of the server. -/
def machine (lines : List Line) : Transition.Machine State :=
  .ofStep (fun s => ∃ inbuffer, s = State.create lines inbuffer) State.act

/-- The client prints the lines in upper case, in order. -/
def Echoes (lines : List Line) (s : State) : Prop :=
  s.printed <+: lines.map fun line => line.bytes.map upper

/-! ## One exchange -/

theorem upper_ne_zero
    {byte : UInt8}
    (nonzero : byte ≠ 0) :
    upper byte ≠ 0 := by
  rw [upper]
  split
  · rename_i isLower
    have bounds := (Bool.and_eq_true_iff.mp isLower).2
    rw [toupper, if_pos bounds]
    rw [islower, Bool.and_eq_true, decide_eq_true_eq, decide_eq_true_eq,
      UInt8.le_iff_toNat_le, UInt8.le_iff_toNat_le] at bounds
    intro same
    have asNat := congrArg UInt8.toNat same
    rw [UInt8.toNat_sub_of_le _ _ (UInt8.le_iff_toNat_le.mpr (by
      change 32 ≤ byte.toNat
      exact Nat.le_trans (by decide) bounds.1))] at asNat
    change byte.toNat - 32 = 0 at asNat
    have low : 97 ≤ byte.toNat := bounds.1
    omega
  · exact nonzero

theorem Line.upper_textOnly (line : Line) : 0 ∉ line.bytes.map upper := by
  intro present
  obtain ⟨byte, inLine, isZero⟩ := List.mem_map.mp present
  refine upper_ne_zero ?_ isZero
  rintro rfl
  exact line.textOnly inLine

/-- The reply to a line: the line in upper case, a terminator, and what the buffer held
behind it. -/
theorem transervice_line (line : Line) (inbuffer : Buffer) :
    ∃ reply, transervice line.bytes line.bounded inbuffer = some reply ∧
      reply.val = line.bytes.map upper ++ 0 :: inbuffer.val.drop (line.bytes.length + 1) := by
  have content := Buffer.val_set_fill line.bounded inbuffer
  have sameText : Text.cString 0 ((inbuffer.fill line.bytes line.bounded).set
      line.bytes.length 0).val = Text.cString 0 line.bytes := by
    rw [content, Text.cString_append_terminator_cons]
  have goesOn : strcasecmp ((inbuffer.fill line.bytes line.bounded).set
      line.bytes.length 0).val quit = false := by
    rw [strcasecmp, sameText]
    exact line.notQuit
  refine ⟨_, (if_neg (Bool.eq_false_iff.mp goesOn)), ?_⟩
  rw [transform]
  change List.map upper (List.take _ _) ++ List.drop _ _ = _
  rw [content, List.take_left' rfl, List.drop_left' rfl]

theorem Line.bytes_ne_quit (line : Line) : line.bytes ≠ quit := by
  intro same
  have notQuit := line.notQuit
  rw [same] at notQuit
  exact absurd notQuit (by decide)

/-- One `recv` on a fresh reply prints the line. -/
theorem printed_reply (line : Line) (rest : Bytes) :
    Text.cString 0 ((line.bytes.map upper ++ 0 :: rest).take 1023 ++ [0]) =
      line.bytes.map upper := by
  have bounded : (line.bytes.map upper).length ≤ 1023 := by
    rw [List.length_map]
    exact line.bounded
  rw [Text.cString_append_terminator, List.take_append, List.take_of_length_le bounded]
  cases remaining : 1023 - (line.bytes.map upper).length with
  | zero =>
      rw [List.take_zero, List.append_nil]
      exact Text.cString_eq_self line.upper_textOnly
  | succ more =>
      rw [List.take_succ_cons, Text.cString_append_terminator_cons]
      exact Text.cString_eq_self line.upper_textOnly

/-! ## One line -/

/-- The states of a connection with one line. -/
inductive Exchange (line : Line) : State → Prop
  | typing {inbuffer : Buffer} :
      Exchange line ⟨[line], .getline, inbuffer, [], [], []⟩
  | sent {inbuffer : Buffer} :
      Exchange line ⟨[], .recv, inbuffer, [line], [], []⟩
  | served {inbuffer : Buffer} {rest : Bytes} :
      Exchange line ⟨[], .recv, inbuffer, [], line.bytes.map upper ++ 0 :: rest, []⟩
  | echoed {inbuffer : Buffer} {rest : Bytes} :
      Exchange line ⟨[], .getline, inbuffer, [], rest, [line.bytes.map upper]⟩

theorem Exchange.act
    {line : Line}
    {action : Action}
    {s s' : State}
    (exchange : Exchange line s)
    (acted : s.act action = some s') :
    Exchange line s' := by
  cases exchange with
  | @typing inbuffer =>
      cases action with
      | send =>
          have sent := (if_neg line.bytes_ne_quit).symm.trans acted
          obtain rfl := Option.some.inj sent
          exact .sent
      | serve => exact absurd acted (by simp [State.act])
      | recv => exact absurd acted (by simp [State.act])
  | @sent inbuffer =>
      cases action with
      | send => exact absurd acted (by simp [State.act])
      | serve =>
          obtain ⟨reply, served, content⟩ := transervice_line line inbuffer
          simp only [State.act, served] at acted
          obtain rfl := Option.some.inj acted
          rw [List.nil_append, content]
          exact .served
      | recv => exact absurd acted (by simp [State.act])
  | @served inbuffer rest =>
      cases action with
      | send => exact absurd acted (by simp [State.act])
      | serve => exact absurd acted (by simp [State.act])
      | recv =>
          have nonempty : line.bytes.map upper ++ 0 :: rest ≠ [] := by simp
          have received := (if_neg nonempty).symm.trans acted
          obtain rfl := Option.some.inj received
          rw [printed_reply]
          exact .echoed
  | @echoed inbuffer rest =>
      cases action with
      | send => exact absurd acted (by simp [State.act])
      | serve => exact absurd acted (by simp [State.act])
      | recv => exact absurd acted (by simp [State.act])

theorem echoes_of_one (line : Line) : (machine [line]).Invariant (Echoes [line]) := by
  have exchange : (machine [line]).Invariant (Exchange line) := by
    apply Transition.Machine.invariant_of_actions
    · rintro s ⟨inbuffer, rfl⟩
      exact .typing
    · exact fun action s s' exchange acted => exchange.act acted
  intro s reached
  rw [Echoes, List.map_singleton]
  cases exchange s reached with
  | typing => exact List.nil_prefix
  | sent => exact List.nil_prefix
  | served => exact List.nil_prefix
  | echoed => exact List.prefix_refl _

theorem echoes_of_none : (machine []).Invariant (Echoes []) := by
  have idle : (machine []).Invariant fun s =>
      s.lines = [] ∧ s.client = .getline ∧ s.requests = [] ∧ s.printed = [] := by
    apply Transition.Machine.invariant_of_actions
    · rintro s ⟨inbuffer, rfl⟩
      exact ⟨rfl, rfl, rfl, rfl⟩
    · rintro action s s' ⟨noLines, typing, noRequests, -⟩ acted
      cases action with
      | send => exact absurd acted (by simp [State.act, noLines, typing])
      | serve => exact absurd acted (by simp [State.act, noRequests])
      | recv => exact absurd acted (by simp [State.act, typing])
  intro s reached
  rw [Echoes, (idle s reached).2.2.2]
  exact List.nil_prefix

/-! ## More than one line -/

/-- A buffer that was never written to. -/
def zeros : Buffer :=
  ⟨List.replicate 1024 0, List.length_replicate⟩

/-- The reply is one byte longer than what the client reads of it. -/
theorem leftover (line : Line) :
    (line.bytes.map upper ++ 0 :: zeros.val.drop (line.bytes.length + 1)).drop 1023 =
      [0] := by
  have bounded : (line.bytes.map upper).length ≤ 1023 := by
    rw [List.length_map]
    exact line.bounded
  have behind : 0 :: zeros.val.drop (line.bytes.length + 1) =
      List.replicate (1024 - line.bytes.length) (0 : UInt8) := by
    rw [zeros, List.drop_replicate, ← List.replicate_succ]
    congr 1
    have small := line.bounded
    omega
  rw [behind, List.drop_append, List.drop_of_length_le bounded, List.nil_append,
    List.drop_replicate, List.length_map]
  have one : 1024 - line.bytes.length - (1023 - line.bytes.length) = 1 := by
    have small := line.bounded
    omega
  rw [one]
  rfl

/-- The second `recv` may find nothing but the byte that the first one has left. -/
theorem second_echo_empty (first second : Line) (lines : List Line) :
    ∃ s, (machine (first :: second :: lines)).Reachable s ∧
      s.printed = [first.bytes.map upper, []] := by
  obtain ⟨reply, served, content⟩ := transervice_line first zeros
  let s₀ := State.create (first :: second :: lines) zeros
  let s₁ : State := ⟨second :: lines, .recv, zeros, [first], [], []⟩
  let s₂ : State := ⟨second :: lines, .recv, reply, [], reply.val, []⟩
  let s₃ : State :=
    ⟨second :: lines, .getline, reply, [], [0], [first.bytes.map upper]⟩
  let s₄ : State := ⟨lines, .recv, reply, [second], [0], [first.bytes.map upper]⟩
  let s₅ : State :=
    ⟨lines, .getline, reply, [second], [], [first.bytes.map upper, []]⟩
  have nonempty : reply.val ≠ [] := by
    rw [content]
    simp
  have sent : s₀.act .send = some s₁ := if_neg first.bytes_ne_quit
  have replied : s₁.act .serve = some s₂ := by
    simp only [State.act, s₁, s₂, served, List.nil_append]
  have received : s₂.act .recv = some s₃ := by
    refine (if_neg nonempty).trans ?_
    change some (State.mk _ _ _ _ (reply.val.drop 1023)
      ([] ++ [Text.cString 0 (reply.val.take 1023 ++ [0])])) = _
    rw [content, leftover, printed_reply, List.nil_append]
  have sentAgain : s₃.act .send = some s₄ := if_neg second.bytes_ne_quit
  have receivedAgain : s₄.act .recv = some s₅ := rfl
  have start : (machine (first :: second :: lines)).Reachable s₀ := .start ⟨zeros, rfl⟩
  have served := (start.step ⟨.send, sent⟩).step ⟨.serve, replied⟩
  have again := (served.step ⟨.recv, received⟩).step ⟨.send, sentAgain⟩
  exact ⟨s₅, again.step ⟨.recv, receivedAgain⟩, rfl⟩

theorem not_echoes_of_two (first second : Line) (lines : List Line) :
    ¬ (machine (first :: second :: lines)).Invariant
      (Echoes (first :: second :: lines)) := by
  intro echoes
  obtain ⟨s, reached, printed⟩ := second_echo_empty first second lines
  have isPrefix := echoes s reached
  rw [Echoes, printed, List.map_cons, List.map_cons, List.cons_prefix_cons,
    List.cons_prefix_cons] at isPrefix
  exact second.nonempty (List.map_eq_nil_iff.mp isPrefix.2.1.symm)

/-- "a" and "b": the second text that the client prints is empty. -/
theorem two_lines_not_echoed :
    ¬ (machine
        [⟨[97], by decide, by decide, by decide, by decide⟩,
          ⟨[98], by decide, by decide, by decide, by decide⟩]).Invariant
      (Echoes
        [⟨[97], by decide, by decide, by decide, by decide⟩,
          ⟨[98], by decide, by decide, by decide, by decide⟩]) :=
  not_echoes_of_two _ _ []

/-- The client prints the lines in upper case in every run exactly when there is at most
one: every reply leaves a byte in the stream. -/
theorem echoes_iff (lines : List Line) :
    (machine lines).Invariant (Echoes lines) ↔ lines.length ≤ 1 := by
  match lines with
  | [] => exact iff_of_true echoes_of_none (Nat.zero_le 1)
  | [line] => exact iff_of_true (echoes_of_one line) (Nat.le_refl 1)
  | first :: second :: lines =>
      apply iff_of_false (not_echoes_of_two first second lines)
      rw [List.length_cons, List.length_cons]
      omega

end TcpUpper
end LearnInLinux
