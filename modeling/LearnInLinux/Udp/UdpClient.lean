import LearnInLinux.Udp.UdpServer

/-!
# The receiving thread of the chat client

`udprecv` receives a datagram into the whole of its buffer, and writes a NUL byte behind
what has come. The server receives texts of up to 1023 bytes and puts the key of their
sender in front, so its messages can be longer than the buffer of a client.
-/

namespace LearnInLinux
namespace Udp
namespace UdpClient

/-- The length of `buffer`. -/
def SIZE : Nat := 1014

/-- What `recvfrom` does. -/
inductive Outcome
  | failed
  | datagram (message : Bytes)

/-- What `recvfrom(sock, buffer, sizeof buffer, ...)` writes to the buffer; the rest of a
datagram is dropped. -/
def Outcome.received : Outcome → Bytes
  | .failed => []
  | .datagram message => message.take SIZE

/-- `ssize_t s = recvfrom(...)` -/
def Outcome.s : Outcome → Int
  | .failed => -1
  | .datagram message => (message.take SIZE).length

/-- What one turn of the loop does. -/
structure Turn where
  /-- The index at which the terminating NUL byte is written. -/
  terminator : Option Nat
  /-- The line that is printed. -/
  printed : Option Bytes

/-- The body of the loop. It prints nothing that is known after a write outside of the
buffer. -/
def udprecv (outcome : Outcome) : Turn :=
  -- the buffer was cleared before
  let buffer := outcome.received ++ List.replicate (SIZE - outcome.received.length) 0
  if 0 < outcome.s then
    let s := outcome.s.toNat
    if s < SIZE then
      { terminator := some s, printed := some (Text.cString 0 (buffer.set s 0)) }
    else { terminator := some s, printed := none }
  else { terminator := none, printed := none }

/-- The terminating NUL byte is written into the buffer. -/
def Turn.Inside (turn : Turn) : Prop :=
  ∀ s, turn.terminator = some s → s < SIZE

section Client

variable {message : Bytes}

theorem udprecv_datagram
    (nonempty : message ≠ []) :
    (udprecv (.datagram message)).terminator = some (min SIZE message.length) := by
  have length : (Outcome.datagram message).s = (min SIZE message.length : Nat) := by
    rw [Outcome.s, List.length_take]
  have positive : 0 < (Outcome.datagram message).s := by
    have here := List.length_pos_iff.mpr nonempty
    rw [length, SIZE]
    omega
  have sameNat : (Outcome.datagram message).s.toNat = min SIZE message.length := by
    rw [length, Int.toNat_natCast]
  rw [udprecv, if_pos positive]
  dsimp only
  split
  · rw [sameNat]
  · rw [sameNat]

/-- Only a message shorter than the buffer leaves room behind it. -/
theorem inside_iff
    (nonempty : message ≠ []) :
    (udprecv (.datagram message)).Inside ↔ message.length < SIZE := by
  rw [Turn.Inside, udprecv_datagram nonempty]
  constructor
  · intro inside
    have below := inside _ rfl
    omega
  · intro short s isTerminator
    obtain rfl := Option.some.inj isTerminator
    omega

/-- A message that leaves room is printed as a C string. -/
theorem printed_of_short
    (nonempty : message ≠ [])
    (short : message.length < SIZE) :
    (udprecv (.datagram message)).printed = some (Text.cString 0 message) := by
  have whole : message.take SIZE = message :=
    List.take_of_length_le (Nat.le_of_lt short)
  have positive : (0 : Int) < message.length :=
    Int.natCast_pos.mpr (List.length_pos_iff.mpr nonempty)
  rw [udprecv]
  simp only [Outcome.s, Outcome.received, whole, if_pos positive, Int.toNat_natCast,
    if_pos short]
  have more : List.replicate (SIZE - message.length) (0 : UInt8) =
      0 :: List.replicate (SIZE - message.length - 1) 0 := by
    rw [← List.replicate_succ]
    congr 1
    omega
  rw [more, List.set_append_right _ _ (Nat.le_refl _), Nat.sub_self, List.set_cons_zero,
    Text.cString_append_terminator_cons]

end Client

/-! ## The messages of the server -/

open UdpServer (Env State Iteration Payload plainEnv iteration run start
  iteration_datagram)

variable {env : Env} {i : Nat} {s : State}

theorem iteration_outcome
    (env : Env) (i : Nat) (s : State) (outcome : UdpServer.Outcome) :
    (iteration env i s outcome).1.outcome = outcome := by
  rw [iteration]
  split
  · split
    · rfl
    · rfl
  · rfl

theorem exists_iteration_of_mem_run
    {outcomes : List UdpServer.Outcome}
    {done : Iteration}
    (present : done ∈ run env i s outcomes) :
    ∃ j t, done = (iteration env j t done.outcome).1 := by
  induction outcomes generalizing i s with
  | nil => exact absurd present List.not_mem_nil
  | cons outcome outcomes inductionHypothesis =>
      have first : (iteration env i s outcome).1 =
          (iteration env i s (iteration env i s outcome).1.outcome).1 := by
        rw [iteration_outcome]
      rw [run] at present
      split at present
      · rename_i result isResult
        obtain rfl := List.mem_singleton.mp present
        rw [isResult] at first
        exact ⟨i, s, first⟩
      · rename_i result next isResult
        rcases List.mem_cons.mp present with rfl | later
        · rw [isResult] at first
          exact ⟨i, s, first⟩
        · exact inductionHypothesis later

/-- What the server sends for a datagram is built from its sender and its text. -/
theorem message_of_sent
    {outcomes : List UdpServer.Outcome}
    {buffer : Buffer}
    {done : Iteration}
    {peer : Endpoint}
    {payload : Payload}
    {send : Endpoint × Bytes}
    (served : done ∈ start env buffer outcomes)
    (received : done.outcome = .datagram peer payload)
    (nonempty : payload.val ≠ [])
    (sent : send ∈ done.sends) :
    send.2 = key peer ++ [35, 32] ++ Text.cString 0 payload.val := by
  obtain ⟨j, t, isDone⟩ := exists_iteration_of_mem_run served
  obtain ⟨after, sameText, same⟩ := iteration_datagram env j t peer nonempty
  rw [isDone, received, same] at sent
  obtain ⟨user, -, rfl⟩ := List.mem_map.mp sent
  rw [← sameText]
  rfl

/-- For what the server sends for a datagram with some text, the client writes its NUL
byte into the buffer exactly when the key and the text leave room for it. -/
theorem terminator_inside_iff
    {outcomes : List UdpServer.Outcome}
    {buffer : Buffer}
    {done : Iteration}
    {peer : Endpoint}
    {payload : Payload}
    {send : Endpoint × Bytes}
    (served : done ∈ start env buffer outcomes)
    (received : done.outcome = .datagram peer payload)
    (nonempty : payload.val ≠ [])
    (sent : send ∈ done.sends) :
    (udprecv (.datagram send.2)).Inside ↔
      (key peer).length + 2 + (Text.cString 0 payload.val).length < 1014 := by
  rw [message_of_sent served received nonempty sent, inside_iff (by simp), SIZE,
    List.length_append, List.length_append]
  rfl

/-- The sender of a first datagram gets its message back. -/
theorem exists_sent
    (buffer : Buffer)
    (peer : Endpoint)
    (payload : Payload)
    (nonempty : payload.val ≠ []) :
    ∃ done ∈ start plainEnv buffer [.datagram peer payload],
      done.outcome = .datagram peer payload ∧ ∃ send, send ∈ done.sends := by
  obtain ⟨after, -, same⟩ :=
    iteration_datagram plainEnv 0 ⟨buffer, []⟩ peer nonempty
  have served : (iteration plainEnv 0 ⟨buffer, []⟩ (.datagram peer payload)).1 ∈
      start plainEnv buffer [.datagram peer payload] := by
    rw [start, run, same]
    exact List.mem_cons_self
  refine ⟨_, served, iteration_outcome _ _ _ _, ?_⟩
  rw [same]
  exact ⟨_, List.mem_cons_self⟩

theorem length_blank : (List.replicate 1024 (0 : UInt8)).length = 1024 :=
  List.length_replicate

/-- A buffer of the server. -/
def blank : Buffer :=
  ⟨List.replicate 1024 0, length_blank⟩

theorem terminator_inside_iff_hi :
    ∃ done ∈ start plainEnv blank [.datagram ⟨⟨10, 0, 0, 1⟩, 5000⟩ ⟨[104, 105], by decide⟩],
      ∃ send ∈ done.sends, (udprecv (.datagram send.2)).Inside := by
  have short : (key ⟨⟨10, 0, 0, 1⟩, 5000⟩).length + 2 + 2 < 1014 := by
    have bound := length_key_le ⟨⟨10, 0, 0, 1⟩, 5000⟩
    omega
  obtain ⟨done, served, received, send, sent⟩ :=
    exists_sent blank ⟨⟨10, 0, 0, 1⟩, 5000⟩ ⟨[104, 105], by decide⟩ (by simp)
  refine ⟨done, served, send, sent, ?_⟩
  exact (terminator_inside_iff served received (by simp) sent).mpr short

/-- The longest text that the server takes. -/
def longest : Payload :=
  ⟨List.replicate 1023 97, Nat.le_of_eq List.length_replicate⟩

theorem longest_ne_nil : longest.val ≠ [] :=
  List.ne_nil_of_length_pos (Nat.lt_of_lt_of_eq (by decide) List.length_replicate.symm)

theorem cString_longest : Text.cString 0 longest.val = longest.val := by
  apply Text.cString_eq_self
  intro present
  exact absurd (List.eq_of_mem_replicate present) (by decide)

/-- It is longer than the buffer of the client. -/
theorem terminator_outside :
    ∃ done ∈ start plainEnv blank [.datagram ⟨⟨10, 0, 0, 1⟩, 5000⟩ longest],
      ∃ send ∈ done.sends, (udprecv (.datagram send.2)).terminator = some 1014 ∧
        ¬ (udprecv (.datagram send.2)).Inside := by
  obtain ⟨done, served, received, send, sent⟩ :=
    exists_sent blank ⟨⟨10, 0, 0, 1⟩, 5000⟩ longest longest_ne_nil
  have message := message_of_sent served received longest_ne_nil sent
  have long : SIZE ≤ send.2.length := by
    have inText : longest.val.length = 1023 := List.length_replicate
    rw [message, cString_longest, List.length_append, inText, SIZE]
    omega
  have nonempty : send.2 ≠ [] :=
    List.ne_nil_of_length_pos (Nat.lt_of_lt_of_le (by decide) long)
  refine ⟨done, served, send, sent, ?_, ?_⟩
  · rw [udprecv_datagram nonempty, Nat.min_eq_left long, SIZE]
  · rw [inside_iff nonempty]
    exact Nat.not_lt.mpr long

end UdpClient
end Udp
end LearnInLinux
