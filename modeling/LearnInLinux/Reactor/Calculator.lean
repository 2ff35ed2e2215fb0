import LearnInLinux.Arithmetic
import LearnInLinux.Reactor.Protocol

/-!
# The calculator behind the reactor server

The business callback parses a message, calculates and frames the answer.
`replies` is what a whole list of messages is answered with.
-/

namespace LearnInLinux
namespace Reactor

/-- Business logic of the server; `none` is the trap of a division. -/
def calculator (req : Request) : Option Response :=
  (switchOp req.op req.x req.y).map fun (result, code) => { result, code }

/-- The request a message is parsed to, if it is accepted. The object starts
with indeterminate fields; an accepted message overwrites all of them. -/
def requestOf (message : Bytes) : Option Request :=
  match (default : Request).deserialized message with
  | (false, _) => none
  | (true, req) => some req

/-- Framed answer to one message; a rejected message has none. -/
def reply (message : Bytes) : Bytes :=
  match (requestOf message).bind calculator with
  | none => []
  | some resp => encode resp.serialize

/-- Framed answers to a list of messages, in order. -/
def replies (received : List Bytes) : Bytes :=
  received.flatMap reply

@[simp] theorem replies_nil : replies [] = [] := rfl

@[simp] theorem replies_cons (message : Bytes) (others : List Bytes) :
    replies (message :: others) = reply message ++ replies others := rfl

@[simp] theorem replies_append (front back : List Bytes) :
    replies (front ++ back) = replies front ++ replies back := by
  simp [replies]

theorem encode_ne_nil (s : Bytes) : encode s ≠ [] := by
  simp [encode, sep]

/-- The calculator has no result exactly on the trapping divisions. -/
theorem calculator_eq_none_iff (req : Request) :
    calculator req = none ↔
      (req.op = 47 ∨ req.op = 37) ∧ Traps req.x req.y := by
  rw [calculator, Option.map_eq_none_iff, switchOp_eq_none_iff]

end Reactor
end LearnInLinux
