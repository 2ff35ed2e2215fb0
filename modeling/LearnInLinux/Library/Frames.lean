import Mathlib.Data.List.Infix

/-!
# Frames in a stream

A stream is a list of frames one behind the other. These are the frames that
have arrived completely when a front part of the stream has arrived, and how the
arrival of one more piece completes them. Nothing is assumed about the frames.
-/

namespace Frames

variable {α β : Type} (encode : α → List β)

/-- The frames of the payloads, one behind the other. -/
def stream (payloads : List α) : List β :=
  (payloads.map encode).flatten

/-- The payloads whose frames lie in the first `count` characters. -/
def complete : List α → Nat → List α
  | [], _ => []
  | payload :: payloads, count =>
      if (encode payload).length ≤ count then
        payload :: complete payloads (count - (encode payload).length)
      else []

/-- How many of the first `count` characters lie behind the complete frames. -/
def leftover : List α → Nat → Nat
  | [], count => count
  | payload :: payloads, count =>
      if (encode payload).length ≤ count then
        leftover payloads (count - (encode payload).length)
      else count

@[simp] theorem stream_nil : stream encode [] = [] := rfl

@[simp] theorem stream_cons (payload : α) (payloads : List α) :
    stream encode (payload :: payloads) =
      encode payload ++ stream encode payloads := rfl

@[simp] theorem stream_append (front back : List α) :
    stream encode (front ++ back) = stream encode front ++ stream encode back := by
  simp [stream]

theorem complete_append (done todo : List α) (extra : Nat) :
    complete encode (done ++ todo) ((stream encode done).length + extra) =
      done ++ complete encode todo extra := by
  induction done with
  | nil => simp
  | cons payload done inductionHypothesis =>
      rw [List.cons_append, stream_cons, List.length_append, complete,
        if_pos (by omega), List.cons_append, ← inductionHypothesis]
      congr 2
      omega

theorem leftover_append (done todo : List α) (extra : Nat) :
    leftover encode (done ++ todo) ((stream encode done).length + extra) =
      leftover encode todo extra := by
  induction done with
  | nil => simp
  | cons payload done inductionHypothesis =>
      rw [List.cons_append, stream_cons, List.length_append, leftover,
        if_pos (by omega), ← inductionHypothesis]
      congr 1
      omega

/-- The complete frames are the first ones. -/
theorem complete_isPrefix (payloads : List α) (count : Nat) :
    complete encode payloads count <+: payloads := by
  induction payloads generalizing count with
  | nil => exact List.prefix_rfl
  | cons payload payloads inductionHypothesis =>
      rw [complete]
      split
      · exact (List.prefix_cons_inj payload).mpr (inductionHypothesis _)
      · exact List.nil_prefix

theorem leftover_le (payloads : List α) (count : Nat) :
    leftover encode payloads count ≤ count := by
  induction payloads generalizing count with
  | nil => exact Nat.le_refl count
  | cons payload payloads inductionHypothesis =>
      rw [leftover]
      split
      · exact Nat.le_trans (inductionHypothesis _) (Nat.sub_le _ _)
      · exact Nat.le_refl count

/-- A front part of `first ++ second` ends in `first` or goes past it. -/
theorem prefix_append_cases
    {front first second : List β}
    (isPrefix : front <+: first ++ second) :
    (front <+: first ∧ front ≠ first) ∨
      ∃ behind, front = first ++ behind ∧ behind <+: second := by
  rcases List.prefix_or_prefix_of_prefix isPrefix (List.prefix_append first second) with
    inside | ⟨behind, rfl⟩
  · by_cases equal : front = first
    · exact Or.inr ⟨[], by rw [equal, List.append_nil], List.nil_prefix⟩
    · exact Or.inl ⟨inside, equal⟩
  · exact Or.inr ⟨behind, rfl, (List.prefix_append_right_inj first).mp isPrefix⟩

/-- The payloads are cut into those whose frames are received and those still to
come, and `rest` is what is received of the next frame. -/
structure Cut
    (payloads : List α) (received : List β) (done todo : List α)
    (rest : List β) : Prop where
  payloads_eq : payloads = done ++ todo
  received_eq : received = stream encode done ++ rest
  isPrefix : rest <+: stream encode todo
  short : ∀ payload ∈ todo.head?, rest.length < (encode payload).length

namespace Cut

variable {encode} {payloads done todo : List α} {received rest piece : List β}

theorem complete_eq (cut : Cut encode payloads received done todo rest) :
    complete encode payloads received.length = done := by
  rw [cut.payloads_eq, cut.received_eq, List.length_append, complete_append]
  cases remaining : todo with
  | nil => simp [complete]
  | cons payload others =>
      have short := cut.short payload (by simp [remaining])
      rw [complete, if_neg (by omega), List.append_nil]

theorem leftover_eq (cut : Cut encode payloads received done todo rest) :
    leftover encode payloads received.length = rest.length := by
  rw [cut.payloads_eq, cut.received_eq, List.length_append, leftover_append]
  cases remaining : todo with
  | nil => rfl
  | cons payload others =>
      have short := cut.short payload (by simp [remaining])
      rw [leftover, if_neg (by omega)]

theorem start (nonempty : ∀ payload, encode payload ≠ []) :
    Cut encode payloads [] [] payloads [] where
  payloads_eq := rfl
  received_eq := rfl
  isPrefix := List.nil_prefix
  short payload _ := List.length_pos_iff.mpr (nonempty payload)

/-- One more piece either stays inside the next frame or completes it. -/
theorem extend
    (cut : Cut encode payloads received done todo rest)
    (nonempty : piece ≠ [])
    (arrives : received ++ piece <+: stream encode payloads) :
    ∃ payload others, todo = payload :: others ∧
      ((rest ++ piece <+: encode payload ∧ rest ++ piece ≠ encode payload ∧
          Cut encode payloads (received ++ piece) done todo (rest ++ piece)) ∨
        ∃ behind, rest ++ piece = encode payload ++ behind ∧
          behind <+: stream encode others) := by
  have inTodo : rest ++ piece <+: stream encode todo := by
    rw [cut.payloads_eq, cut.received_eq, stream_append, List.append_assoc,
      List.prefix_append_right_inj] at arrives
    exact arrives
  cases remaining : todo with
  | nil =>
      rw [remaining] at inTodo
      have empty := List.prefix_nil.mp inTodo
      exact absurd (List.append_eq_nil_iff.mp empty).2 nonempty
  | cons payload others =>
      refine ⟨payload, others, rfl, ?_⟩
      rw [remaining, stream_cons] at inTodo
      rcases prefix_append_cases inTodo with ⟨inside, proper⟩ | past
      · left
        refine ⟨inside, proper, ?_, ?_, inTodo, ?_⟩
        · rw [cut.payloads_eq, remaining]
        · rw [cut.received_eq, List.append_assoc]
        · intro payload' isHead
          obtain rfl := Option.some.inj isHead
          exact Nat.lt_of_le_of_ne inside.length_le fun equal =>
            proper (inside.eq_of_length equal)
      · exact Or.inr past

/-- A piece that completes one frame and no second one. -/
theorem next
    {payload : α}
    {others : List α}
    {behind : List β}
    (cut : Cut encode payloads received done (payload :: others) rest)
    (completes : rest ++ piece = encode payload ++ behind)
    (isPrefix : behind <+: stream encode others)
    (single : (complete encode payloads (received ++ piece).length).length ≤
      done.length + 1) :
    Cut encode payloads (received ++ piece) (done ++ [payload]) others behind := by
  have payloads_eq : payloads = (done ++ [payload]) ++ others := by
    rw [cut.payloads_eq, List.append_assoc, List.singleton_append]
  have received_eq : received ++ piece =
      stream encode (done ++ [payload]) ++ behind := by
    rw [cut.received_eq, List.append_assoc, completes, stream_append, stream_cons,
      stream_nil, List.append_nil, List.append_assoc]
  refine ⟨payloads_eq, received_eq, isPrefix, ?_⟩
  rw [payloads_eq, received_eq, List.length_append, complete_append,
    List.length_append, List.length_append, List.length_singleton] at single
  intro payload' isHead
  cases remaining : others with
  | nil =>
      rw [remaining] at isHead
      exact absurd isHead (by simp)
  | cons head tail =>
      rw [remaining] at isHead single
      obtain rfl := Option.some.inj isHead
      by_contra long
      rw [complete, if_pos (by omega), List.length_cons] at single
      omega

end Cut

end Frames
