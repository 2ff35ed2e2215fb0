import LearnInLinux.Udp.Endpoint
import Mathlib.Tactic

/-!
# The chat server of one loop

Every iteration receives a datagram into a buffer, enters its sender into the table of
users and sends `key# text` to all of them. The buffer and the table outlive the
iteration, the key does not: the array for it is declared in the body of the loop. What
`recvfrom` returns is kept in a `size_t`.
-/

namespace LearnInLinux
namespace Udp
namespace UdpServer

/-- The length of `buffer`. -/
def SIZE : Nat := 1024

/-- The bytes of a datagram that `recvfrom` takes for `sizeof(buffer) - 1`. -/
abbrev Payload := { bytes : Bytes // bytes.length ≤ 1023 }

/-- What `recvfrom` does. -/
inductive Outcome
  | failed
  | datagram (peer : Endpoint) (payload : Payload)

/-- The number that `recvfrom` returns. -/
def Outcome.result : Outcome → Int
  | .failed => -1
  | .datagram _ payload => payload.val.length

/-- `size_t s = recvfrom(...)` -/
def Outcome.size (outcome : Outcome) : Nat :=
  (BitVec.ofInt 64 outcome.result).toNat

/-- `peer` behind `recvfrom`; it was cleared before. -/
def Outcome.peer : Outcome → Endpoint
  | .failed => ⟨⟨0, 0, 0, 0⟩, 0⟩
  | .datagram peer _ => peer

/-- A datagram without payload. -/
def Outcome.isEmpty : Outcome → Bool
  | .failed => false
  | .datagram _ payload => payload.val.isEmpty

/-- What `recvfrom` writes to the front of the buffer. -/
def Outcome.fill (outcome : Outcome) (buffer : Buffer) : Buffer :=
  match outcome with
  | .failed => buffer
  | .datagram _ payload => buffer.fill payload.val payload.property

/-- The indices that `recvfrom` writes. -/
def Outcome.filled : Outcome → List Nat
  | .failed => []
  | .datagram _ payload => List.range payload.val.length

/-- `snprintf(key, sizeof key, "%s-%u", ...)` on an array of 64 bytes. -/
def printKey (peer : Endpoint) : Bytes :=
  (key peer).take (64 - 1)

/-- What the program does not decide: the text in the array of `key` where nothing is
printed into it, and the order in which the hash table lists its users. -/
structure Env where
  key : Nat → Bytes
  order : Nat → Users → Users
  permutes : ∀ i users, (order i users).Perm users

/-- What outlives an iteration of `Start`. -/
structure State where
  buffer : Buffer
  users : Users

/-- What one iteration does. -/
structure Iteration where
  outcome : Outcome
  /-- The indices of `buffer` that are written. -/
  written : List Nat
  /-- The calls of `sendto`, each with its user and message. -/
  sends : List (Endpoint × Bytes)
  before : Users
  after : Users

/-- `sendmessage = key; sendmessage += "# "; sendmessage += buffer;` -/
def sendmessage (key : Bytes) (buffer : Buffer) : Bytes :=
  key ++ [35, 32] ++ Text.cString 0 buffer.val

/-- The loop that writes back. -/
def push (users : Users) (message : Bytes) : List (Endpoint × Bytes) :=
  users.map fun user => (user.2, message)

/-- The body of the loop; there is no next state when it writes outside of the buffer. -/
def iteration (env : Env) (i : Nat) (s : State) (outcome : Outcome) :
    Iteration × Option State :=
  let buffer := outcome.fill s.buffer
  let written := outcome.filled
  if 0 < outcome.size then
    let written := written ++ [outcome.size]
    if outcome.size < SIZE then
      let buffer := buffer.set outcome.size 0
      let key := printKey outcome.peer
      let users := s.users.insert key outcome.peer
      ({ outcome, written, sends := push (env.order i users) (sendmessage key buffer),
         before := s.users, after := users },
        some { buffer, users })
    else ({ outcome, written, sends := [], before := s.users, after := s.users }, none)
  else
    ({ outcome, written,
       sends := push (env.order i s.users) (sendmessage (env.key i) buffer),
       before := s.users, after := s.users },
      some { buffer, users := s.users })

/-- The iterations from the `i`-th on. -/
def run (env : Env) : (i : Nat) → State → List Outcome → List Iteration
  | _, _, [] => []
  | i, s, outcome :: outcomes =>
      match iteration env i s outcome with
      | (done, none) => [done]
      | (done, some s) => done :: run env (i + 1) s outcomes

/-- `start()` on a buffer that holds anything. -/
def start (env : Env) (buffer : Buffer) (outcomes : List Outcome) : List Iteration :=
  run env 0 ⟨buffer, []⟩ outcomes

/-- An iteration keeps to what it is for, where `text` says what of a payload is the
text of a message. -/
structure Iteration.Good (text : Bytes → Bytes) (done : Iteration) : Prop where
  messages : ∀ send ∈ done.sends, ∃ peer payload,
    done.outcome = .datagram peer payload ∧
      send.2 = key peer ++ [35, 32] ++ text payload.val
  once : (done.sends.map Prod.fst).Nodup
  inside : ∀ i ∈ done.written, i < SIZE
  silent : done.outcome = .failed ∨ done.outcome.isEmpty = true →
    done.sends = [] ∧ done.after = done.before

/-! ## One iteration -/

theorem size_datagram (peer : Endpoint) (payload : Payload) :
    (Outcome.datagram peer payload).size = payload.val.length := by
  have small := payload.property
  change (BitVec.ofInt 64 (payload.val.length : Int)).toNat = payload.val.length
  rw [BitVec.ofInt_natCast, BitVec.toNat_ofNat, Nat.mod_eq_of_lt (by omega)]

theorem printKey_eq (peer : Endpoint) : printKey peer = key peer := by
  apply List.take_of_length_le
  exact Nat.le_trans (length_key_le peer) (by decide)

/-- The buffer of a datagram holds its text. -/
theorem cString_fill
    (peer : Endpoint) (payload : Payload) (buffer : Buffer) :
    Text.cString 0 (((Outcome.datagram peer payload).fill buffer).set
        payload.val.length 0).val =
      Text.cString 0 payload.val := by
  change Text.cString 0 ((buffer.fill payload.val payload.property).set
    payload.val.length 0).val = _
  rw [Buffer.val_set_fill, Text.cString_append_terminator_cons]

variable {env : Env} {i : Nat} {s : State} {text : Bytes → Bytes}

/-- A failed `recvfrom` becomes the largest `size_t`. -/
theorem not_good_failed (env : Env) (i : Nat) (s : State) (text : Bytes → Bytes) :
    ¬ (iteration env i s .failed).1.Good text := by
  intro good
  have written : 2 ^ 64 - 1 ∈ (iteration env i s .failed).1.written :=
    List.mem_singleton_self _
  exact absurd (good.inside _ written) (by decide)

theorem iteration_empty
    {peer : Endpoint}
    {payload : Payload}
    (empty : payload.val = []) :
    iteration env i s (.datagram peer payload) =
      ({ outcome := .datagram peer payload, written := [],
         sends := push (env.order i s.users) (sendmessage (env.key i) s.buffer),
         before := s.users, after := s.users },
        some s) := by
  have noSize : (Outcome.datagram peer payload).size = 0 := by
    rw [size_datagram, empty]
    rfl
  have sameBuffer : (Outcome.datagram peer payload).fill s.buffer = s.buffer := by
    apply Subtype.ext
    change payload.val ++ s.buffer.val.drop payload.val.length = s.buffer.val
    rw [empty]
    rfl
  have noneFilled : (Outcome.datagram peer payload).filled = [] := by
    change List.range payload.val.length = []
    rw [empty]
    rfl
  rw [iteration, sameBuffer, noneFilled, noSize, if_neg (Nat.lt_irrefl 0)]

theorem iteration_datagram
    (env : Env) (i : Nat) (s : State) (peer : Endpoint)
    {payload : Payload}
    (nonempty : payload.val ≠ []) :
    ∃ buffer, Text.cString 0 buffer.val = Text.cString 0 payload.val ∧
      iteration env i s (.datagram peer payload) =
        ({ outcome := .datagram peer payload
           written := List.range payload.val.length ++ [payload.val.length]
           sends := push (env.order i (s.users.insert (key peer) peer))
             (sendmessage (key peer) buffer)
           before := s.users
           after := s.users.insert (key peer) peer },
          some ⟨buffer, s.users.insert (key peer) peer⟩) := by
  have positive := List.length_pos_iff.mpr nonempty
  have small := payload.property
  have inside : payload.val.length < SIZE := by
    rw [SIZE]
    omega
  refine ⟨_, cString_fill peer payload s.buffer, ?_⟩
  rw [iteration, size_datagram, if_pos positive, if_pos inside]
  rw [show (Outcome.datagram peer payload).peer = peer from rfl, printKey_eq]
  rfl

/-- Every user is sent the message once. -/
theorem once_of_push
    {users : Users}
    {message : Bytes}
    (distinct : users.Distinct) :
    ((push (env.order i users) message).map Prod.fst).Nodup := by
  have permuted := (env.permutes i users).map Prod.snd
  rw [push, List.map_map]
  exact permuted.nodup_iff.mpr distinct.endpoints

theorem mem_insert_self (users : Users) (peer : Endpoint) :
    users.insert (key peer) peer ≠ [] := by
  rw [Users.insert]
  split
  · rename_i present
    rintro rfl
    exact List.not_mem_nil present
  · simp

theorem good_empty_iff
    (env : Env) (i : Nat) (s : State) (text : Bytes → Bytes) (peer : Endpoint)
    {payload : Payload}
    (empty : payload.val = []) :
    (iteration env i s (.datagram peer payload)).1.Good text ↔ s.users = [] := by
  rw [iteration_empty empty]
  constructor
  · intro good
    obtain ⟨nothing, -⟩ := good.silent (.inr (List.isEmpty_iff.mpr empty))
    have noUsers : env.order i s.users = [] := List.map_eq_nil_iff.mp nothing
    exact (noUsers ▸ env.permutes i s.users).nil_eq.symm
  · intro noUsers
    have nothing : push (env.order i s.users) (sendmessage (env.key i) s.buffer) = [] := by
      rw [noUsers, (env.permutes i []).eq_nil]
      rfl
    rw [nothing]
    constructor
    · exact fun send sent => absurd sent List.not_mem_nil
    · exact List.nodup_nil
    · exact fun index written => absurd written List.not_mem_nil
    · exact fun _ => ⟨rfl, rfl⟩

theorem good_datagram_iff
    (env : Env) (i : Nat) (text : Bytes → Bytes) (peer : Endpoint)
    {payload : Payload}
    (distinct : s.users.Distinct)
    (nonempty : payload.val ≠ []) :
    (iteration env i s (.datagram peer payload)).1.Good text ↔
      text payload.val = Text.cString 0 payload.val := by
  obtain ⟨buffer, sameText, done⟩ := iteration_datagram env i s peer nonempty
  rw [done]
  constructor
  · intro good
    obtain ⟨user, present⟩ := List.exists_mem_of_ne_nil _ (mem_insert_self s.users peer)
    have sent : (user.2, sendmessage (key peer) buffer) ∈
        push (env.order i (s.users.insert (key peer) peer))
          (sendmessage (key peer) buffer) := by
      apply List.mem_map_of_mem
      exact (env.permutes i _).mem_iff.mpr present
    obtain ⟨peer', payload', same, message⟩ := good.messages _ sent
    obtain ⟨rfl, rfl⟩ := Outcome.datagram.inj same
    rw [← sameText]
    exact (List.append_cancel_left message).symm
  · intro sameAsText
    constructor
    · intro send sent
      obtain ⟨user, -, rfl⟩ := List.mem_map.mp sent
      refine ⟨peer, payload, rfl, ?_⟩
      rw [sameAsText, ← sameText]
      rfl
    · exact once_of_push (distinct.insert peer)
    · intro index written
      have small := payload.property
      change index < 1024
      rcases List.mem_append.mp written with filled | last
      · have inFront := List.mem_range.mp filled
        omega
      · have atEnd := List.mem_singleton.mp last
        omega
    · rintro (isFailed | isEmpty)
      · exact absurd isFailed (by simp)
      · exact absurd (List.isEmpty_iff.mp isEmpty) nonempty

/-! ## All iterations -/

/-- What the server can cope with, when it has users or not: no receive fails, no empty
datagram comes behind one that is not, and the texts are C strings. -/
structure Usable (text : Bytes → Bytes) (users : Users) (outcomes : List Outcome) :
    Prop where
  received : .failed ∉ outcomes
  unknown : users ≠ [] → ∀ outcome ∈ outcomes, outcome.isEmpty = false
  first : outcomes.Pairwise fun earlier later =>
    later.isEmpty = true → earlier.isEmpty = true
  plain : ∀ peer payload, .datagram peer payload ∈ outcomes → payload.val ≠ [] →
    text payload.val = Text.cString 0 payload.val

theorem usable_nil {users : Users} : Usable text users [] := by
  constructor
  · exact List.not_mem_nil
  · exact fun _ outcome present => absurd present List.not_mem_nil
  · exact List.Pairwise.nil
  · exact fun _ _ present => absurd present List.not_mem_nil

theorem not_usable_failed
    {users : Users}
    {outcomes : List Outcome} :
    ¬ Usable text users (.failed :: outcomes) :=
  fun usable => usable.received List.mem_cons_self

theorem usable_empty_iff
    {users : Users}
    {outcomes : List Outcome}
    {peer : Endpoint}
    {payload : Payload}
    (empty : payload.val = []) :
    Usable text users (.datagram peer payload :: outcomes) ↔
      users = [] ∧ Usable text users outcomes := by
  have isEmpty : (Outcome.datagram peer payload).isEmpty = true :=
    List.isEmpty_iff.mpr empty
  constructor
  · intro usable
    refine ⟨?_, ?_, ?_, ?_, ?_⟩
    · by_contra known
      have notEmpty := usable.unknown known _ List.mem_cons_self
      rw [isEmpty] at notEmpty
      exact Bool.false_ne_true notEmpty.symm
    · exact fun present => usable.received (List.mem_cons_of_mem _ present)
    · exact fun known outcome present =>
        usable.unknown known outcome (List.mem_cons_of_mem _ present)
    · exact (List.pairwise_cons.mp usable.first).2
    · exact fun peer payload present =>
        usable.plain peer payload (List.mem_cons_of_mem _ present)
  · rintro ⟨noUsers, usable⟩
    constructor
    · intro present
      rcases List.mem_cons.mp present with same | later
      · exact absurd same (by simp)
      · exact usable.received later
    · exact fun known => absurd noUsers known
    · apply List.pairwise_cons.mpr
      exact ⟨fun later _ _ => isEmpty, usable.first⟩
    · intro peer' payload' present nonempty
      rcases List.mem_cons.mp present with same | later
      · obtain ⟨-, rfl⟩ := Outcome.datagram.inj same
        exact absurd empty nonempty
      · exact usable.plain peer' payload' later nonempty

theorem usable_datagram_iff
    {users after : Users}
    {outcomes : List Outcome}
    {peer : Endpoint}
    {payload : Payload}
    (nonempty : payload.val ≠ [])
    (known : after ≠ []) :
    Usable text users (.datagram peer payload :: outcomes) ↔
      text payload.val = Text.cString 0 payload.val ∧ Usable text after outcomes := by
  have notEmpty : (Outcome.datagram peer payload).isEmpty = false :=
    Bool.eq_false_iff.mpr fun isEmpty => nonempty (List.isEmpty_iff.mp isEmpty)
  constructor
  · intro usable
    refine ⟨?_, ?_, ?_, ?_, ?_⟩
    · exact usable.plain peer payload List.mem_cons_self nonempty
    · exact fun present => usable.received (List.mem_cons_of_mem _ present)
    · intro _ outcome present
      apply Bool.eq_false_iff.mpr
      intro isEmpty
      have earlier := (List.pairwise_cons.mp usable.first).1 outcome present isEmpty
      rw [notEmpty] at earlier
      exact Bool.false_ne_true earlier
    · exact (List.pairwise_cons.mp usable.first).2
    · exact fun peer payload present =>
        usable.plain peer payload (List.mem_cons_of_mem _ present)
  · rintro ⟨sameText, usable⟩
    have laterNotEmpty := usable.unknown known
    constructor
    · intro present
      rcases List.mem_cons.mp present with same | later
      · exact absurd same (by simp)
      · exact usable.received later
    · intro _ outcome present
      rcases List.mem_cons.mp present with rfl | later
      · exact notEmpty
      · exact laterNotEmpty outcome later
    · apply List.pairwise_cons.mpr
      refine ⟨?_, usable.first⟩
      intro later present isEmpty
      rw [laterNotEmpty later present] at isEmpty
      exact absurd isEmpty Bool.false_ne_true
    · intro peer' payload' present nonempty'
      rcases List.mem_cons.mp present with same | later
      · obtain ⟨-, rfl⟩ := Outcome.datagram.inj same
        exact sameText
      · exact usable.plain peer' payload' later nonempty'

theorem run_good_iff
    {outcomes : List Outcome}
    (distinct : s.users.Distinct) :
    (∀ done ∈ run env i s outcomes, done.Good text) ↔ Usable text s.users outcomes := by
  induction outcomes generalizing i s with
  | nil => exact iff_of_true (fun done present => absurd present List.not_mem_nil) usable_nil
  | cons outcome outcomes inductionHypothesis =>
      cases outcome with
      | failed =>
          apply iff_of_false _ not_usable_failed
          intro allGood
          exact not_good_failed env i s text (allGood _ List.mem_cons_self)
      | datagram peer payload =>
          by_cases empty : payload.val = []
          · have goodIff := good_empty_iff env i s text peer empty
            have others := inductionHypothesis (i := i + 1) distinct
            rw [usable_empty_iff empty, ← goodIff, ← others, run, iteration_empty empty]
            exact List.forall_mem_cons
          · have goodIff := good_datagram_iff env i text peer distinct empty
            obtain ⟨buffer, -, done⟩ := iteration_datagram env i s peer empty
            have others := inductionHypothesis (i := i + 1)
              (s := ⟨buffer, s.users.insert (key peer) peer⟩) (distinct.insert peer)
            rw [usable_datagram_iff empty (mem_insert_self s.users peer), ← goodIff,
              ← others, run, done]
            exact List.forall_mem_cons

theorem start_good_iff
    (env : Env) (buffer : Buffer) (outcomes : List Outcome) (text : Bytes → Bytes) :
    (∀ done ∈ start env buffer outcomes, done.Good text) ↔ Usable text [] outcomes :=
  run_good_iff Users.distinct_nil

/-- The table in its own order, and a key that happens to be empty. -/
def plainEnv : Env where
  key _ := []
  order _ users := users
  permutes _ users := .refl users

/-- Behind a message, an empty datagram sends it again under a key that nobody has
printed, and a failed receive writes outside of the buffer. -/
theorem stale_and_outside :
    ¬ (∀ done ∈ start plainEnv ⟨List.replicate SIZE 0, List.length_replicate⟩
        [.datagram ⟨⟨10, 0, 0, 1⟩, 5000⟩ ⟨[104, 105], by decide⟩,
          .datagram ⟨⟨10, 0, 0, 2⟩, 5000⟩ ⟨[], by decide⟩],
        done.Good (Text.cString 0)) ∧
      ¬ (∀ done ∈ start plainEnv ⟨List.replicate SIZE 0, List.length_replicate⟩ [.failed],
        done.Good (Text.cString 0)) := by
  constructor
  · rw [start_good_iff]
    intro usable
    have earlier := (List.pairwise_cons.mp usable.first).1 _ List.mem_cons_self rfl
    exact Bool.false_ne_true earlier
  · rw [start_good_iff]
    exact not_usable_failed

/-- Exactly when no receive fails and no empty datagram comes behind one that is not, an
iteration sends the text of its own datagram and nothing else; and when no payload has a
NUL byte, the text is the payload. -/
theorem iterations_good_iff (env : Env) (buffer : Buffer) (outcomes : List Outcome) :
    ((∀ done ∈ start env buffer outcomes, done.Good (Text.cString 0)) ↔
      .failed ∉ outcomes ∧ outcomes.Pairwise fun earlier later =>
        later.isEmpty = true → earlier.isEmpty = true) ∧
    ((∀ done ∈ start env buffer outcomes, done.Good id) ↔
      (.failed ∉ outcomes ∧ outcomes.Pairwise fun earlier later =>
        later.isEmpty = true → earlier.isEmpty = true) ∧
        ∀ peer payload, .datagram peer payload ∈ outcomes → 0 ∉ payload.val) := by
  rw [start_good_iff, start_good_iff]
  constructor
  · constructor
    · exact fun usable => ⟨usable.received, usable.first⟩
    · rintro ⟨received, first⟩
      exact ⟨received, fun known => absurd rfl known, first, fun _ _ _ _ => rfl⟩
  · constructor
    · intro usable
      refine ⟨⟨usable.received, usable.first⟩, ?_⟩
      intro peer payload present
      by_cases empty : payload.val = []
      · rw [empty]
        exact List.not_mem_nil
      · exact Text.cString_eq_self_iff.mp (usable.plain peer payload present empty).symm
    · rintro ⟨⟨received, first⟩, textOnly⟩
      refine ⟨received, fun known => absurd rfl known, first, ?_⟩
      intro peer payload present _
      exact (Text.cString_eq_self (textOnly peer payload present)).symm

end UdpServer
end Udp
end LearnInLinux
