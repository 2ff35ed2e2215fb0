import LearnInLinux.Reactor.Codec

/-!
# What the parser of the reactor server accepts

`Request::Deserialized` looks for the first and the last blank and takes what stands in
front of, between and behind them as it is. The texts of requests have a grammar of their
own; here the parser is compared with it.
-/

namespace LearnInLinux
namespace Reactor

open Text Decimal

/-- A number, a blank, a character, a blank and a number. -/
inductive RequestText : Bytes → Request → Prop
  | intro {a b : Bytes} {req : Request}
      (isX : IntText a req.x)
      (isY : IntText b req.y) :
      RequestText (a ++ space ++ [req.op] ++ space ++ b) req

/-- The parser takes the texts of requests and leaves everything else alone, so that
there is no reply to anything else. -/
structure ParsesExactly (before : Request) (str : Bytes) : Prop where
  accepts : ∀ req, RequestText str req → before.deserialized str = (true, req)
  rejects : (∀ req, ¬ RequestText str req) → before.deserialized str = (false, before)
  unanswered : (∀ req, ¬ RequestText str req) → requestOf str = none

namespace Request

variable {str : Bytes} {req : Request}

theorem space_not_mem_intText
    {text : Bytes}
    {number : Int32}
    (isInt : IntText text number) :
    32 ∉ text := by
  intro present
  rcases isInt.mem_cases present with plus | minus | digit
  · exact absurd plus (by decide)
  · exact absurd minus (by decide)
  · exact absurd digit (by decide)

theorem space_mem_of_requestText (isRequest : RequestText str req) : 32 ∈ str := by
  cases isRequest with
  | intro isX isY => simp [space]

/-- A request begins with a sign or a digit. -/
theorem head_of_requestText
    {first : UInt8}
    (isRequest : RequestText str req)
    (head : str.head? = some first) :
    first = 43 ∨ first = 45 ∨ isDigit first = true := by
  cases isRequest with
  | @intro a b _ isX isY =>
      have inA : a.head? = some first := by
        cases a with
        | nil => exact absurd rfl isX.ne_nil
        | cons byte a => exact head
      exact isX.mem_cases (List.mem_of_head? inA)

theorem deserialized_of_requestText
    (before : Request)
    (isRequest : RequestText str req) :
    before.deserialized str = (true, req) := by
  cases isRequest with
  | intro isX isY =>
      rw [deserialized_parts before (space_not_mem_intText isX) (space_not_mem_intText isY),
        atoi_of_intText isX, atoi_of_intText isY]

theorem deserialized_of_unspaced
    (self : Request)
    (unspaced : 32 ∉ str) :
    self.deserialized str = (false, self) := by
  rw [deserialized, space, find_singleton_eq_none_iff.mpr unspaced]

/-- One blank is enough: the first one is never behind the last character. -/
theorem deserialized_accepts
    (self : Request)
    (spaced : 32 ∈ str) :
    (self.deserialized str).1 = true := by
  obtain ⟨left, leftFound⟩ : ∃ left, find space str = some left := by
    apply Option.ne_none_iff_exists'.mp
    rw [space, Ne, find_singleton_eq_none_iff, not_not]
    exact spaced
  obtain ⟨right, rightFound⟩ : ∃ right, rfind space str = some right := by
    apply Option.ne_none_iff_exists'.mp
    rw [space, Ne, rfind_singleton_eq_none_iff, not_not]
    exact spaced
  have inside : ¬ left + space.length > str.length :=
    Nat.not_lt.mpr (find_le_length leftFound)
  rw [deserialized, leftFound, rightFound]
  dsimp only
  rw [if_neg inside]

end Request

theorem requestOf_of_unspaced
    {str : Bytes}
    (unspaced : 32 ∉ str) :
    requestOf str = none := by
  rw [requestOf, Request.deserialized_of_unspaced default unspaced]

/-- The parser keeps to the grammar exactly on texts without a blank and on the texts of
the grammar: it never rejects a text with a blank. -/
theorem parsesExactly_iff (before : Request) (str : Bytes) :
    ParsesExactly before str ↔ 32 ∉ str ∨ ∃ req, RequestText str req := by
  constructor
  · intro exactly
    by_contra neither
    rw [not_or, not_not, not_exists] at neither
    obtain ⟨spaced, malformed⟩ := neither
    have accepted := before.deserialized_accepts spaced
    rw [exactly.rejects malformed] at accepted
    exact absurd accepted Bool.false_ne_true
  · rintro (unspaced | ⟨req, isRequest⟩)
    · constructor
      · intro req isRequest
        exact absurd (Request.space_mem_of_requestText isRequest) unspaced
      · exact fun _ => before.deserialized_of_unspaced unspaced
      · exact fun _ => requestOf_of_unspaced unspaced
    · constructor
      · exact fun req isRequest => Request.deserialized_of_requestText before isRequest
      · exact fun malformed => absurd isRequest (malformed req)
      · exact fun malformed => absurd isRequest (malformed req)

/-- "a + b" -/
def letters : Bytes := [97, 32, 43, 32, 98]

/-- Letters are added up to zero, and the sum is answered with code 0. -/
theorem not_parsesExactly_letters :
    ¬ ParsesExactly default letters ∧
      reply letters = encode (Response.serialize { result := 0, code := 0 }) := by
  have accepted : (default : Request).deserialized letters = (true, ⟨0, 0, 43⟩) := by
    decide +kernel
  constructor
  · intro exactly
    have malformed : ∀ req, ¬ RequestText letters req := by
      intro req isRequest
      rcases Request.head_of_requestText isRequest rfl with plus | minus | digit
      · exact absurd plus (by decide)
      · exact absurd minus (by decide)
      · exact absurd digit (by decide)
    have rejected := exactly.rejects malformed
    rw [accepted] at rejected
    exact absurd (congrArg Prod.fst rejected) (by decide)
  · rw [reply, requestOf, accepted]
    rfl

end Reactor
end LearnInLinux
