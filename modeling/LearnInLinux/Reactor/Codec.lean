import LearnInLinux.Reactor.Calculator

/-!
# The text codecs of the reactor server

Numbers are printed without blanks, so the first blank of a request is the one
behind `x_` and the last one the one in front of `y_`, whatever the operator is.
The framing does not escape anything: an operator `X` is taken for a separator.
-/

namespace LearnInLinux
namespace Reactor

open Text Decimal
open Delimited (messages remainder)

/-- A character other than a sign or a digit is not part of a printed number. -/
theorem not_mem_toText
    {byte : UInt8}
    (notSign : byte ≠ 45)
    (notDigit : isDigit byte = false)
    (number : Int) :
    byte ∉ toText number := by
  intro present
  rcases mem_toText present with minus | digit
  · exact notSign minus
  · rw [notDigit] at digit
    exact absurd digit (by decide)

theorem space_not_mem_toText (number : Int) : 32 ∉ toText number :=
  not_mem_toText (by decide) (by decide) number

theorem sepChar_not_mem_toText (number : Int) : sepChar ∉ toText number :=
  not_mem_toText (by decide) (by decide) number

/-! ## Round trips -/

namespace Request

section Parts

variable {front back : Bytes} {op : UInt8}

theorem find_space_parts (clean : 32 ∉ front) :
    find space (front ++ space ++ [op] ++ space ++ back) = some front.length := by
  have split : front ++ space ++ [op] ++ space ++ back =
      front ++ space ++ (op :: (space ++ back)) := by
    simp
  rw [split]
  exact find_append clean

theorem rfind_space_parts (clean : 32 ∉ back) :
    rfind space (front ++ space ++ [op] ++ space ++ back) = some (front.length + 2) := by
  refine (rfind_append clean).trans ?_
  simp [space]

/-- Between numbers without blanks the parser finds any operator. -/
theorem deserialized_parts
    (self : Request)
    (frontClean : 32 ∉ front)
    (backClean : 32 ∉ back) :
    self.deserialized (front ++ space ++ [op] ++ space ++ back) =
      (true, { x := atoi front, y := atoi back, op }) := by
  have first : substr (front ++ space ++ [op] ++ space ++ back) 0 front.length =
      front := by
    simp
  have second : substr (front ++ space ++ [op] ++ space ++ back)
      (front.length + 2 + space.length)
      (front ++ space ++ [op] ++ space ++ back).length = back := by
    rw [substr, List.drop_left' (by simp [space])]
    apply List.take_of_length_le
    rw [List.length_append]
    exact Nat.le_add_left _ _
  have operator : (front ++ space ++ [op] ++ space ++ back).getD
      (front.length + space.length) 0 = op := by
    have split : front ++ space ++ [op] ++ space ++ back =
        (front ++ space) ++ (op :: (space ++ back)) := by
      simp
    rw [split, List.getD_eq_getElem?_getD, List.getElem?_append_right (by simp)]
    simp
  have inside : ¬front.length + space.length >
      (front ++ space ++ [op] ++ space ++ back).length := by
    simp
  simp only [deserialized, find_space_parts frontClean, rfind_space_parts backClean,
    first, second, operator, if_neg inside]

end Parts

theorem deserialized_serialize (self other : Request) :
    other.deserialized self.serialize = (true, self) := by
  rw [serialize, deserialized_parts other (space_not_mem_toText _) (space_not_mem_toText _),
    atoi_toText, atoi_toText]

end Request

theorem Response.deserialized_serialize (self other : Response) :
    other.deserialized self.serialize = (true, self) := by
  have found : find space self.serialize = some (toText self.code.toInt).length :=
    find_append (space_not_mem_toText _)
  have first : substr self.serialize 0 (toText self.code.toInt).length =
      toText self.code.toInt := by
    simp [serialize]
  have second : substr self.serialize
      ((toText self.code.toInt).length + space.length) self.serialize.length =
        toText self.result.toInt := by
    rw [substr, serialize, List.drop_left' (by simp)]
    apply List.take_of_length_le
    rw [List.length_append]
    exact Nat.le_add_left _ _
  simp only [deserialized, found, first, second, atoi_toText]

/-- Parsing what was printed succeeds and restores every field, whatever the object
held before. -/
theorem deserialized_inverts_serialize :
    (∀ req other : Request, other.deserialized req.serialize = (true, req)) ∧
    ∀ resp other : Response, other.deserialized resp.serialize = (true, resp) :=
  ⟨Request.deserialized_serialize, Response.deserialized_serialize⟩

/-! ## Transparency of the framing -/

/-- The stream of framed requests. -/
def requestStream (requests : List Request) : Bytes :=
  (requests.map fun req => encode req.serialize).flatten

/-- The splitter gives the requests back one by one, and each is answered by exactly
one reply. -/
structure Transparent (requests : List Request) : Prop where
  splits : spliteMessage (requestStream requests) [] =
    ([], requests.map Request.serialize)
  answered : ∃ responses : List Response, requests.map calculator = responses.map some ∧
    (spliteMessage (requestStream requests) []).2.map reply =
      responses.map fun resp => encode resp.serialize

/-- The request is neither taken apart by the splitter nor a trap of the calculator. -/
def Request.Plain (req : Request) : Prop :=
  req.op ≠ sepChar ∧ ¬((req.op = 47 ∨ req.op = 37) ∧ Traps req.x req.y)

theorem requestOf_serialize (req : Request) :
    requestOf req.serialize = some req := by
  rw [requestOf, Request.deserialized_serialize]

theorem sepChar_mem_serialize_iff (req : Request) :
    sepChar ∈ req.serialize ↔ req.op = sepChar := by
  have inSpace : sepChar ∉ space := by decide
  simp only [Request.serialize, List.mem_append, sepChar_not_mem_toText, inSpace,
    List.mem_singleton, false_or, or_false]
  exact eq_comm

theorem spliteMessage_requestStream
    {requests : List Request}
    (unmarked : ∀ req ∈ requests, req.op ≠ sepChar) :
    spliteMessage (requestStream requests) [] =
      ([], requests.map Request.serialize) := by
  have clean : ∀ message ∈ requests.map Request.serialize, sepChar ∉ message := by
    intro message present marked
    obtain ⟨req, isRequest, rfl⟩ := List.mem_map.mp present
    exact unmarked req isRequest ((sepChar_mem_serialize_iff req).mp marked)
  have stream : requestStream requests =
      Delimited.wire sepChar (requests.map Request.serialize) [] := by
    rw [requestStream, Delimited.wire, List.append_nil, List.map_map]
    rfl
  have cut : Delimited.Splits sepChar (requestStream requests)
      (requests.map Request.serialize) [] :=
    ⟨stream.symm, clean, List.not_mem_nil⟩
  rw [spliteMessage_eq, ← cut.eq_messages.1, ← cut.eq_messages.2, List.nil_append]

theorem exists_responses
    {requests : List Request}
    (computed : ∀ req ∈ requests, calculator req ≠ none) :
    ∃ responses : List Response, requests.map calculator = responses.map some := by
  induction requests with
  | nil => exact ⟨[], rfl⟩
  | cons req others inductionHypothesis =>
      obtain ⟨resp, first⟩ := Option.ne_none_iff_exists'.mp (computed req (by simp))
      obtain ⟨responses, rest⟩ := inductionHypothesis fun other present =>
        computed other (by simp [present])
      refine ⟨resp :: responses, ?_⟩
      rw [List.map_cons, List.map_cons, first, rest]

theorem reply_serialize
    {req : Request}
    {resp : Response}
    (computed : calculator req = some resp) :
    reply req.serialize = encode resp.serialize := by
  rw [reply, requestOf_serialize, Option.bind_some, computed]

theorem map_reply_serialize
    {requests : List Request}
    {responses : List Response}
    (computed : requests.map calculator = responses.map some) :
    (requests.map Request.serialize).map reply =
      responses.map fun resp => encode resp.serialize := by
  induction requests generalizing responses with
  | nil =>
      have empty : responses = [] := List.map_eq_nil_iff.mp computed.symm
      rw [empty]
      rfl
  | cons req others inductionHypothesis =>
      cases responses with
      | nil => exact absurd computed (List.cons_ne_nil _ _)
      | cons resp more =>
          rw [List.map_cons, List.map_cons, List.cons.injEq] at computed
          rw [List.map_cons, List.map_cons, List.map_cons, reply_serialize computed.1,
            inductionHypothesis computed.2]

/-- The framing is transparent for exactly the lists of plain requests. -/
theorem transparent_iff (requests : List Request) :
    Transparent requests ↔ ∀ req ∈ requests, req.Plain := by
  constructor
  · intro transparent req present
    constructor
    · intro marked
      have cut : Delimited.Splits sepChar (requestStream requests)
          (messages sepChar (requestStream requests))
          (remainder sepChar (requestStream requests)) :=
        Delimited.splits_messages _
      have split := transparent.splits
      rw [spliteMessage_eq, List.nil_append, Prod.mk.injEq] at split
      apply cut.messages_clean req.serialize
      · rw [split.2]
        exact List.mem_map_of_mem present
      · exact (sepChar_mem_serialize_iff req).mpr marked
    · intro traps
      obtain ⟨responses, computed, _⟩ := transparent.answered
      have answered : calculator req ∈ responses.map some := by
        rw [← computed]
        exact List.mem_map_of_mem present
      obtain ⟨resp, _, equal⟩ := List.mem_map.mp answered
      rw [(calculator_eq_none_iff req).mpr traps] at equal
      exact absurd equal (Option.some_ne_none resp)
  · intro plain
    have split := spliteMessage_requestStream fun req present => (plain req present).1
    obtain ⟨responses, computed⟩ := exists_responses fun req present trapped =>
      (plain req present).2 ((calculator_eq_none_iff req).mp trapped)
    refine ⟨split, responses, computed, ?_⟩
    rw [split]
    exact map_reply_serialize computed

/-- `1 X 2` is taken for two messages. -/
theorem not_transparent_separator :
    spliteMessage (requestStream [{ x := 1, y := 2, op := sepChar }]) [] =
      ([], [[49, 32], [32, 50]]) ∧
    ¬Transparent [{ x := 1, y := 2, op := sepChar }] := by
  have split : spliteMessage (requestStream [{ x := 1, y := 2, op := sepChar }]) [] =
      ([], [[49, 32], [32, 50]]) := by
    rw [spliteMessage_eq]
    decide +kernel
  refine ⟨split, fun transparent => ?_⟩
  have one : (spliteMessage (requestStream
      [{ x := 1, y := 2, op := sepChar }]) []).2.length = 1 := by
    rw [transparent.splits]
    rfl
  rw [split] at one
  exact absurd one (by decide)

end Reactor
end LearnInLinux
