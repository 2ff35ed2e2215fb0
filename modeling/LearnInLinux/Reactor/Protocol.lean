import LearnInLinux.Basic
import LearnInLinux.Library.Decimal
import LearnInLinux.Library.Delimited

/-!
# Text protocol of the reactor server

Messages on the wire are separated by the character `X`. A request is
`x_ op_ y_` and a response `code_ result_`, with decimal numbers and single
spaces. The splitter takes every complete message out of a connection's input
buffer and leaves the unfinished rest; the last section shows that it is the
incremental inverse of the framing.
-/

namespace LearnInLinux
namespace Reactor

open Text Decimal
open Delimited (messages remainder)

/-- The character `X`. -/
def sepChar : UInt8 := 88

/-- `SEP`. -/
def sep : Bytes := [sepChar]

/-- `SPACE`. -/
def space : Bytes := [32]

/-- Cut complete messages off the buffer and append them to `out`. Result:
the buffer that is left and the new `out`. -/
def spliteMessage (buffer : Bytes) (out : List Bytes) : Bytes × List Bytes :=
  match _found : find sep buffer with
  | none => (buffer, out)
  | some pos =>
      let message := substr buffer 0 pos
      let buffer := erase buffer 0 (pos + sep.length)
      spliteMessage buffer (out ++ [message])
termination_by buffer.length
decreasing_by
  have bound := find_le_length _found
  simp only [erase_zero, List.length_drop, sep, List.length_singleton] at bound ⊢
  omega

/-- Close one message with the separator. -/
def encode (s : Bytes) : Bytes :=
  s ++ sep

/-- A calculation sent by a client. -/
structure Request where
  x : Int32
  y : Int32
  op : UInt8
  deriving DecidableEq, Inhabited

namespace Request

/-- `Request::Serialize` -/
def serialize (self : Request) : Bytes :=
  toText self.x.toInt ++ space ++ [self.op] ++ space ++ toText self.y.toInt

/-- Parse `str` into the fields. Result: the verdict and the fields
afterwards. -/
def deserialized (self : Request) (str : Bytes) : Bool × Request :=
  match find space str with
  | none => (false, self)
  | some left =>
      match rfind space str with
      | none => (false, self)
      | some right =>
          let self := { self with x := atoi (substr str 0 left) }
          let self := { self with
            y := atoi (substr str (right + space.length) str.length) }
          if left + space.length > str.length then (false, self)
          else
            -- one past the last character reads as the terminating NUL
            (true, { self with op := str.getD (left + space.length) 0 })

end Request

/-- The answer to a calculation. -/
structure Response where
  result : Int32
  code : Int32
  deriving DecidableEq, Inhabited

namespace Response

/-- `Response::Serialize` -/
def serialize (self : Response) : Bytes :=
  toText self.code.toInt ++ space ++ toText self.result.toInt

/-- Parse `s` into the fields. Result: the verdict and the fields
afterwards. -/
def deserialized (self : Response) (s : Bytes) : Bool × Response :=
  match find space s with
  | none => (false, self)
  | some pos =>
      let self := { self with code := atoi (substr s 0 pos) }
      (true, { self with
        result := atoi (substr s (pos + space.length) s.length) })

end Response

/-- An accepted request does not depend on what the object held before. -/
theorem Request.deserialized_accepted
    {self : Request}
    {str : Bytes}
    (accepted : (self.deserialized str).1 = true)
    (other : Request) :
    other.deserialized str = self.deserialized str := by
  unfold deserialized at accepted ⊢
  cases leftFound : find space str with
  | none => simp [leftFound] at accepted
  | some left =>
      cases rightFound : rfind space str with
      | none => simp [leftFound, rightFound] at accepted
      | some right =>
          by_cases past : left + space.length > str.length
          · simp [leftFound, rightFound, past] at accepted
          · simp [past]

/-! ## The splitter inverts the framing -/

/-- One call of the splitter computes the cut of the buffer at `X`. -/
theorem spliteMessage_eq (buffer : Bytes) (out : List Bytes) :
    spliteMessage buffer out =
      (remainder sepChar buffer, out ++ messages sepChar buffer) := by
  induction buffer, out using spliteMessage.induct with
  | case1 buffer out found =>
      rw [spliteMessage]
      split
      · have clean : sepChar ∉ buffer := find_singleton_eq_none_iff.mp found
        rw [Delimited.messages_of_clean clean, Delimited.remainder_of_clean clean,
          List.append_nil]
      · rename_i position equal
        simp [found] at equal
  | case2 buffer out pos found message left inductionHypothesis =>
      rw [spliteMessage]
      split
      · rename_i equal
        simp [found] at equal
      · rename_i position equal
        rw [found, Option.some.injEq] at equal
        subst equal
        have clean : sepChar ∉ message := by
          simpa [message] using not_mem_take_of_find found
        have bufferSplit : buffer = message ++ sepChar :: left := by
          simpa [message, left, sep] using find_split found
        have cut : Delimited.Splits sepChar buffer
            (message :: messages sepChar left) (remainder sepChar left) := by
          rw [bufferSplit]
          exact (Delimited.splits_messages left).cons clean
        change spliteMessage left (out ++ [message]) = _
        rw [inductionHypothesis, ← cut.eq_messages.1, ← cut.eq_messages.2,
          List.append_assoc, List.singleton_append]

/-- Append one chunk to the buffer and split. -/
def feed (state : Bytes × List Bytes) (chunk : Bytes) : Bytes × List Bytes :=
  spliteMessage (state.1 ++ chunk) state.2

/-- Feeding chunk after chunk reaches the cut of everything fed. -/
theorem foldl_feed
    (chunks : List Bytes)
    (fed : Bytes) :
    chunks.foldl feed (remainder sepChar fed, messages sepChar fed) =
      (remainder sepChar (fed ++ chunks.flatten),
        messages sepChar (fed ++ chunks.flatten)) := by
  induction chunks generalizing fed with
  | nil => simp
  | cons chunk chunks inductionHypothesis =>
      have step : feed (remainder sepChar fed, messages sepChar fed) chunk =
          (remainder sepChar (fed ++ chunk), messages sepChar (fed ++ chunk)) := by
        rw [feed, spliteMessage_eq, Delimited.messages_append fed,
          Delimited.remainder_append fed]
      rw [List.foldl_cons, step, inductionHypothesis, List.flatten_cons,
        List.append_assoc]

/-- For every way of cutting a byte string into chunks, feeding the chunks one
by one yields the only messages and rest without `X` that frame to the string;
so the result does not depend on the cutting, and the splitter undoes the
framing of messages without `X`. -/
theorem spliteMessage_inverts_encode (chunks : List Bytes) :
    (∀ message ∈ (chunks.foldl feed ([], [])).2, sepChar ∉ message) ∧
    sepChar ∉ (chunks.foldl feed ([], [])).1 ∧
    chunks.flatten =
      ((chunks.foldl feed ([], [])).2.map encode).flatten ++
        (chunks.foldl feed ([], [])).1 ∧
    (∀ msgs rest, (∀ message ∈ msgs, sepChar ∉ message) → sepChar ∉ rest →
      chunks.flatten = (msgs.map encode).flatten ++ rest →
      chunks.foldl feed ([], []) = (rest, msgs)) ∧
    (∀ other : List Bytes, other.flatten = chunks.flatten →
      other.foldl feed ([], []) = chunks.foldl feed ([], [])) ∧
    (∀ msgs tail, (∀ message ∈ msgs, sepChar ∉ message) → sepChar ∉ tail →
      spliteMessage ((msgs.map encode).flatten ++ tail) [] = (tail, msgs)) := by
  have reached (pieces : List Bytes) : pieces.foldl feed ([], []) =
      (remainder sepChar pieces.flatten, messages sepChar pieces.flatten) :=
    foldl_feed pieces []
  have cut : Delimited.Splits sepChar chunks.flatten
      (messages sepChar chunks.flatten) (remainder sepChar chunks.flatten) :=
    Delimited.splits_messages chunks.flatten
  rw [reached chunks]
  refine ⟨cut.messages_clean, cut.rest_clean, cut.wire_eq.symm, ?_, ?_, ?_⟩
  · intro msgs rest msgsClean restClean framed
    have given : Delimited.Splits sepChar chunks.flatten msgs rest :=
      ⟨framed.symm, msgsClean, restClean⟩
    rw [given.eq_messages.1, given.eq_messages.2]
  · intro other equal
    rw [reached other, equal]
  · intro msgs tail msgsClean tailClean
    have given :
        Delimited.Splits sepChar ((msgs.map encode).flatten ++ tail) msgs tail :=
      ⟨rfl, msgsClean, tailClean⟩
    rw [spliteMessage_eq, ← given.eq_messages.1, ← given.eq_messages.2,
      List.nil_append]

end Reactor
end LearnInLinux
