import Mathlib.Data.List.Basic

/-!
# Messages closed by a mark

A stream over any alphabet is cut at every occurrence of one marking character.
`Splits` says what the cut is: messages without the mark, each closed by one
mark, and a rest without the mark. Every stream has exactly one such cut, and
the cut of a longer stream is found by cutting the rest together with the new
characters, so it does not matter in which pieces the stream arrives.
-/

namespace Delimited

variable {α : Type}

/-- The stream that carries `messages` and an unfinished `rest`. -/
def wire (mark : α) (messages : List (List α)) (rest : List α) : List α :=
  (messages.map (· ++ [mark])).flatten ++ rest

/-- `messages` and `rest` are the cut of `stream` at `mark`. -/
structure Splits
    (mark : α)
    (stream : List α)
    (messages : List (List α))
    (rest : List α) : Prop where
  wire_eq : wire mark messages rest = stream
  messages_clean : ∀ message ∈ messages, mark ∉ message
  rest_clean : mark ∉ rest

@[simp] theorem wire_nil (mark : α) (rest : List α) :
    wire mark [] rest = rest := rfl

@[simp] theorem wire_cons
    (mark : α)
    (message : List α)
    (messages : List (List α))
    (rest : List α) :
    wire mark (message :: messages) rest =
      message ++ mark :: wire mark messages rest := by
  simp [wire]

theorem wire_append
    (mark : α)
    (messages more : List (List α))
    (rest : List α) :
    wire mark (messages ++ more) rest =
      wire mark messages (wire mark more rest) := by
  simp [wire]

theorem wire_append_rest
    (mark : α)
    (messages : List (List α))
    (rest tail : List α) :
    wire mark messages rest ++ tail = wire mark messages (rest ++ tail) := by
  simp [wire]

theorem length_wire_le
    {mark : α}
    {messages : List (List α)}
    {bound : Nat}
    (short : ∀ message ∈ messages, message.length ≤ bound) :
    (wire mark messages []).length ≤ messages.length * (bound + 1) := by
  induction messages with
  | nil => simp
  | cons message others inductionHypothesis =>
      have first := short message (by simp)
      have tail := inductionHypothesis fun other present =>
        short other (by simp [present])
      rw [wire_cons, List.length_append, List.length_cons, List.length_cons,
        Nat.succ_mul]
      omega

namespace Splits

variable {mark : α} {stream tail rest rest' : List α}
  {messages messages' : List (List α)}

theorem of_clean (clean : mark ∉ stream) :
    Splits mark stream [] stream :=
  ⟨rfl, by simp, clean⟩

/-- Closing one more message in front. -/
theorem cons
    {message : List α}
    (clean : mark ∉ message)
    (splits : Splits mark stream messages rest) :
    Splits mark (message ++ mark :: stream) (message :: messages) rest := by
  refine ⟨?_, ?_, splits.rest_clean⟩
  · rw [wire_cons, splits.wire_eq]
  · intro other present
    rcases List.mem_cons.mp present with rfl | inTail
    · exact clean
    · exact splits.messages_clean other inTail

/-- The first mark of two equal streams stands at the same place. -/
private theorem first_mark
    {left right before after : List α}
    (leftClean : mark ∉ left)
    (beforeClean : mark ∉ before)
    (equal : left ++ mark :: right = before ++ mark :: after) :
    left = before ∧ right = after := by
  induction left generalizing before with
  | nil =>
      cases before with
      | nil => simpa using equal
      | cons head others =>
          simp only [List.nil_append, List.cons_append, List.cons.injEq] at equal
          exact absurd (by simp [equal.1]) beforeClean
  | cons head others inductionHypothesis =>
      cases before with
      | nil =>
          simp only [List.nil_append, List.cons_append, List.cons.injEq] at equal
          exact absurd (by simp [equal.1]) leftClean
      | cons first more =>
          simp only [List.cons_append, List.cons.injEq] at equal
          simp only [List.mem_cons, not_or] at leftClean beforeClean
          obtain ⟨rfl, others_eq⟩ :=
            And.intro equal.1 (inductionHypothesis leftClean.2 beforeClean.2 equal.2)
          exact ⟨by rw [others_eq.1], others_eq.2⟩

/-- A stream has at most one cut. -/
theorem unique
    (splits : Splits mark stream messages rest)
    (other : Splits mark stream messages' rest') :
    messages = messages' ∧ rest = rest' := by
  induction messages generalizing stream messages' with
  | nil =>
      cases messages' with
      | nil => exact ⟨rfl, splits.wire_eq.trans other.wire_eq.symm⟩
      | cons message others =>
          have equal := splits.wire_eq.trans other.wire_eq.symm
          rw [wire_nil, wire_cons] at equal
          exact absurd (by rw [equal]; simp) splits.rest_clean
  | cons message others inductionHypothesis =>
      cases messages' with
      | nil =>
          have equal := other.wire_eq.trans splits.wire_eq.symm
          rw [wire_nil, wire_cons] at equal
          exact absurd (by rw [equal]; simp) other.rest_clean
      | cons message' others' =>
          have equal := splits.wire_eq.trans other.wire_eq.symm
          rw [wire_cons, wire_cons] at equal
          obtain ⟨rfl, tails⟩ := first_mark
            (splits.messages_clean message (by simp))
            (other.messages_clean message' (by simp)) equal
          have tailSplits : Splits mark (wire mark others rest) others rest :=
            ⟨rfl, fun m present => splits.messages_clean m (by simp [present]),
              splits.rest_clean⟩
          have tailOther : Splits mark (wire mark others rest) others' rest' :=
            ⟨tails.symm, fun m present => other.messages_clean m (by simp [present]),
              other.rest_clean⟩
          obtain ⟨rfl, restEqual⟩ := inductionHypothesis tailSplits tailOther
          exact ⟨rfl, restEqual⟩

/-- The cut of a longer stream continues from the rest of the shorter one. -/
theorem append
    (splits : Splits mark stream messages rest)
    (continued : Splits mark (rest ++ tail) messages' rest') :
    Splits mark (stream ++ tail) (messages ++ messages') rest' := by
  refine ⟨?_, ?_, continued.rest_clean⟩
  · rw [wire_append, continued.wire_eq, ← wire_append_rest, splits.wire_eq]
  · intro message present
    rcases List.mem_append.mp present with inFirst | inSecond
    · exact splits.messages_clean message inFirst
    · exact continued.messages_clean message inSecond

/-- There are as many messages as marks. -/
theorem length_messages
    [DecidableEq α]
    (splits : Splits mark stream messages rest) :
    messages.length = stream.count mark := by
  rw [← splits.wire_eq]
  have clean := splits.messages_clean
  induction messages generalizing stream with
  | nil => simp [List.count_eq_zero.mpr splits.rest_clean]
  | cons message others inductionHypothesis =>
      have tailSplits : Splits mark (wire mark others rest) others rest :=
        ⟨rfl, fun m present => clean m (by simp [present]), splits.rest_clean⟩
      rw [wire_cons, List.count_append, List.count_cons_self,
        ← inductionHypothesis tailSplits tailSplits.messages_clean,
        List.count_eq_zero.mpr (clean message (by simp))]
      simp

/-- Every message is a part of the stream. -/
theorem mem_stream
    (splits : Splits mark stream messages rest)
    {message : List α}
    (present : message ∈ messages)
    {character : α}
    (inMessage : character ∈ message) :
    character ∈ stream := by
  rw [← splits.wire_eq, wire, List.mem_append]
  left
  rw [List.mem_flatten]
  exact ⟨message ++ [mark], List.mem_map_of_mem present, by simp [inMessage]⟩

end Splits

/-! ## The cut as a function -/

/-- Complete messages and rest of a stream. -/
def split [DecidableEq α] (mark : α) : List α → List (List α) × List α
  | [] => ([], [])
  | head :: tail =>
      if head = mark then ([] :: (split mark tail).1, (split mark tail).2)
      else
        match split mark tail with
        | ([], rest) => ([], head :: rest)
        | (message :: messages, rest) => ((head :: message) :: messages, rest)

/-- Complete messages of a stream, in order. -/
def messages [DecidableEq α] (mark : α) (stream : List α) : List (List α) :=
  (split mark stream).1

/-- What stands behind the last mark of a stream. -/
def remainder [DecidableEq α] (mark : α) (stream : List α) : List α :=
  (split mark stream).2

variable [DecidableEq α] {mark : α}

theorem splits_split (stream : List α) :
    Splits mark stream (split mark stream).1 (split mark stream).2 := by
  induction stream with
  | nil => exact Splits.of_clean (by simp)
  | cons head tail inductionHypothesis =>
      rw [split]
      split
      · rename_i isMark
        subst isMark
        have empty : head ∉ ([] : List α) := by simp
        simpa using Splits.cons empty inductionHypothesis
      · rename_i notMark
        cases tailSplit : Delimited.split mark tail with
        | mk front rest =>
            rw [tailSplit] at inductionHypothesis
            obtain ⟨wire_eq, messages_clean, rest_clean⟩ := inductionHypothesis
            cases front with
            | nil =>
                refine ⟨by simpa using wire_eq, by simp, ?_⟩
                simpa using ⟨Ne.symm notMark, rest_clean⟩
            | cons message others =>
                refine ⟨by simpa using wire_eq, ?_, rest_clean⟩
                simp only [List.forall_mem_cons] at messages_clean ⊢
                refine ⟨?_, messages_clean.2⟩
                simpa using ⟨Ne.symm notMark, messages_clean.1⟩

theorem splits_messages (stream : List α) :
    Splits mark stream (messages mark stream) (remainder mark stream) :=
  splits_split stream

/-- Any cut of a stream is the computed one. -/
theorem Splits.eq_messages
    {stream rest : List α}
    {found : List (List α)}
    (splits : Splits mark stream found rest) :
    found = messages mark stream ∧ rest = remainder mark stream :=
  splits.unique (splits_messages stream)

theorem messages_append (stream tail : List α) :
    messages mark (stream ++ tail) =
      messages mark stream ++ messages mark (remainder mark stream ++ tail) :=
  ((splits_messages stream).append (splits_messages _)).eq_messages.1.symm

theorem remainder_append (stream tail : List α) :
    remainder mark (stream ++ tail) =
      remainder mark (remainder mark stream ++ tail) :=
  ((splits_messages stream).append (splits_messages _)).eq_messages.2.symm

theorem messages_of_clean
    {stream : List α}
    (clean : mark ∉ stream) :
    messages mark stream = [] :=
  (Splits.of_clean clean).eq_messages.1.symm

theorem remainder_of_clean
    {stream : List α}
    (clean : mark ∉ stream) :
    remainder mark stream = stream :=
  (Splits.of_clean clean).eq_messages.2.symm

@[simp] theorem messages_nil : messages mark [] = [] :=
  messages_of_clean (by simp)

@[simp] theorem remainder_nil : remainder mark [] = [] :=
  remainder_of_clean (by simp)

/-- Characters without a mark close no message. -/
theorem messages_append_of_clean
    (stream : List α)
    {tail : List α}
    (clean : mark ∉ tail) :
    messages mark (stream ++ tail) = messages mark stream := by
  have unfinished : mark ∉ remainder mark stream ++ tail := by
    rw [List.mem_append, not_or]
    exact ⟨(splits_messages stream).rest_clean, clean⟩
  rw [messages_append, messages_of_clean unfinished, List.append_nil]

theorem length_messages (stream : List α) :
    (messages mark stream).length = stream.count mark :=
  (splits_messages stream).length_messages

end Delimited
