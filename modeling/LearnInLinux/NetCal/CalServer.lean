import LearnInLinux.Arithmetic
import LearnInLinux.Library.Frames
import LearnInLinux.NetCal.Json

/-!
# The loop of the network calculator

One `Recv`, at most one `Decode` and at most one answer in every round. So a
chunk that completes two frames leaves the second one in the buffer until more
bytes arrive.
-/

namespace LearnInLinux
namespace NetCal

open Frames

/-- Business logic; `none` is the trap of a division. -/
def calculatorHelper (req : Request) : Option Response :=
  (switchOp req.op req.x req.y).map fun (result, code) =>
    { result, code, x := req.x, y := req.y, op := req.op }

/-- The answer to a package; `none` when an exception or a trap ends the
process. -/
def respond (json : JsonCpp) (package : Bytes) : Option Bytes := do
  let req ← Request.deserialized json package
  let resp ← calculatorHelper req
  some (encode (resp.serialize json))

/-- One round of the loop in `calculator` after a chunk was received. Result: the
buffer and what is sent. -/
def round (json : JsonCpp) (inbuffer : Bytes) (chunk : Chunk) :
    Option (Bytes × List Bytes) :=
  let inbuffer := recv chunk inbuffer
  let (package, inbuffer) := decode inbuffer
  if package = [] then some (inbuffer, [])
  else (respond json package).map fun respString => (inbuffer, [respString])

/-- The loop of `calculator` over the chunks that `Recv` returns, up to the next
`Recv`. Result: the buffer and everything sent. -/
def calculator (json : JsonCpp) :
    List Chunk → Bytes → List Bytes → Option (Bytes × List Bytes)
  | [], inbuffer, sent => some (inbuffer, sent)
  | chunk :: chunks, inbuffer, sent => do
      let (inbuffer, responses) ← round json inbuffer chunk
      calculator json chunks inbuffer (sent ++ responses)

/-- The frames completely received. -/
def completeFrames (payloads : List Bytes) (chunks : List Chunk) : List Bytes :=
  complete encode payloads (chunkBytes chunks).length

/-- When the loop is about to call `Recv` again, every complete frame has been
answered, in order, and the buffer holds no complete frame. -/
def UpToDate
    (json : JsonCpp) (payloads : List Bytes) (chunks : List Chunk) : Prop :=
  ∀ inbuffer sent, calculator json chunks [] [] = some (inbuffer, sent) →
    sent.map some = (completeFrames payloads chunks).map (respond json) ∧
    ∀ s tail, inbuffer ≠ encode s ++ tail

/-- No chunk completes two frames. -/
def OneByOne (payloads : List Bytes) (chunks : List Chunk) : Prop :=
  ∀ front chunk, front ++ [chunk] <+: chunks →
    (completeFrames payloads (front ++ [chunk])).length ≤
      (completeFrames payloads front).length + 1

/-- A payload and what the chunk that completes its frame has behind that frame
are together shorter than the numbers of `int`. -/
def FitsInt (payloads : List Bytes) (chunks : List Chunk) : Prop :=
  (∀ s ∈ payloads, s.length < 2 ^ 31) ∧
  ∀ front chunk s, front ++ [chunk] <+: chunks →
    completeFrames payloads (front ++ [chunk]) = completeFrames payloads front ++ [s] →
    s.length + leftover encode payloads (chunkBytes (front ++ [chunk])).length < 2 ^ 31

/-- The condition under which the loop keeps up with its client. -/
structure KeepsUp (payloads : List Bytes) (chunks : List Chunk) : Prop where
  textOnly : ∀ s ∈ payloads, 0 ∉ s
  fitsInt : FitsInt payloads chunks
  oneByOne : OneByOne payloads chunks

/-! ## Frames as bytes -/

theorem encode_ne_nil (s : Bytes) : encode s ≠ [] := by
  simp [encode, sep]

theorem nul_not_mem_encode
    {s : Bytes}
    (textOnly : 0 ∉ s) :
    0 ∉ encode s := by
  have digits : (0 : UInt8) ∉ Decimal.natText s.length := fun present =>
    absurd ((Decimal.natText_numeral s.length).2 0 present) (by decide)
  simp [encode, sep, digits, textOnly]

theorem nul_not_mem_stream
    {payloads : List Bytes}
    (textOnly : ∀ s ∈ payloads, 0 ∉ s) :
    0 ∉ stream encode payloads := by
  rw [stream, List.mem_flatten]
  rintro ⟨frame, isFrame, present⟩
  obtain ⟨s, isPayload, rfl⟩ := List.mem_map.mp isFrame
  exact nul_not_mem_encode (textOnly s isPayload) present

/-- A frame in front of another one has its length. -/
theorem length_eq_of_encode_isPrefix
    {s other : Bytes}
    (isPrefix : encode s <+: encode other) :
    s.length = other.length := by
  obtain ⟨behind, equal⟩ := isPrefix
  rw [encode_append, ← List.append_nil (encode other), encode_append] at equal
  have clean (number : Nat) : 13 ∉ Decimal.natText number :=
    cr_not_mem_numeral (Decimal.natText_numeral number)
  have found := find_sep_header (clean s.length) (s ++ sep ++ behind)
  rw [equal, find_sep_header (clean other.length), Option.some.injEq] at found
  have headers := (header_unique equal found.symm).1
  rw [← Decimal.value_natText s.length, headers, Decimal.value_natText]

theorem length_encode_congr
    {s other : Bytes}
    (equal : s.length = other.length) :
    (encode s).length = (encode other).length := by
  simp only [encode, List.length_append, equal]

/-- What is left of a cut holds no complete frame. -/
theorem not_encode_of_cut
    {payloads done todo : List Bytes}
    {received rest : Bytes}
    (cut : Cut encode payloads received done todo rest)
    (s tail : Bytes) :
    rest ≠ encode s ++ tail := by
  rintro rfl
  have inTodo := cut.isPrefix
  cases remaining : todo with
  | nil =>
      rw [remaining, stream_nil, List.prefix_nil, List.append_eq_nil_iff] at inTodo
      exact encode_ne_nil s inTodo.1
  | cons next others =>
      have short := cut.short next (by simp [remaining])
      rw [remaining, stream_cons] at inTodo
      have inNext : encode s ++ tail <+: encode next :=
        List.prefix_of_prefix_length_le inTodo (List.prefix_append _ _) (by omega)
      have lengths := length_encode_congr
        (length_eq_of_encode_isPrefix ((List.prefix_append _ tail).trans inNext))
      rw [List.length_append] at short
      omega

/-! ## One round, and all rounds -/

theorem calculator_append
    (json : JsonCpp)
    (front back : List Chunk)
    (inbuffer : Bytes)
    (sent : List Bytes) :
    calculator json (front ++ back) inbuffer sent =
      (calculator json front inbuffer sent).bind fun (inbuffer, sent) =>
        calculator json back inbuffer sent := by
  induction front generalizing inbuffer sent with
  | nil => rfl
  | cons chunk front inductionHypothesis =>
      rw [List.cons_append, calculator, calculator]
      cases round json inbuffer chunk with
      | none => rfl
      | some result => exact inductionHypothesis result.1 (sent ++ result.2)

/-- The last round of a run. -/
theorem calculator_concat
    {json : JsonCpp}
    {chunks : List Chunk}
    {chunk : Chunk}
    {inbuffer : Bytes}
    {sent : List Bytes}
    (ran : calculator json (chunks ++ [chunk]) [] [] = some (inbuffer, sent)) :
    ∃ before earlier responses,
      calculator json chunks [] [] = some (before, earlier) ∧
      round json before chunk = some (inbuffer, responses) ∧
      sent = earlier ++ responses := by
  rw [calculator_append] at ran
  obtain ⟨⟨before, earlier⟩, first, last⟩ := Option.bind_eq_some_iff.mp ran
  simp only [calculator, Option.bind_eq_bind] at last
  obtain ⟨⟨buffer, responses⟩, served, result⟩ := Option.bind_eq_some_iff.mp last
  simp only [Option.some.injEq, Prod.mk.injEq] at result
  obtain ⟨rfl, rfl⟩ := result
  exact ⟨before, earlier, responses, first, served, rfl⟩

/-- A round sends at most one answer. -/
theorem length_responses_le
    {json : JsonCpp}
    {inbuffer after : Bytes}
    {chunk : Chunk}
    {responses : List Bytes}
    (served : round json inbuffer chunk = some (after, responses)) :
    responses.length ≤ 1 := by
  simp only [round] at served
  split at served
  · simp only [Option.some.injEq, Prod.mk.injEq] at served
    simp [← served.2]
  · obtain ⟨respString, _, result⟩ := Option.map_eq_some_iff.mp served
    simp only [Prod.mk.injEq] at result
    simp [← result.2]

theorem recv_of_textOnly
    {chunk : Chunk}
    (textOnly : 0 ∉ chunk.bytes)
    (out : Bytes) :
    recv chunk out = out ++ chunk.bytes := by
  rw [recv, Chunk.text_eq, Text.cString_eq_self textOnly]

theorem round_of_unfinished
    (json : JsonCpp)
    {inbuffer s : Bytes}
    {chunk : Chunk}
    (textOnly : 0 ∉ chunk.bytes)
    (small : s.length < 2 ^ 31)
    (isPrefix : inbuffer ++ chunk.bytes <+: encode s)
    (proper : inbuffer ++ chunk.bytes ≠ encode s) :
    round json inbuffer chunk = some (inbuffer ++ chunk.bytes, []) := by
  simp only [round, recv_of_textOnly textOnly,
    decode_unfinished small isPrefix proper, if_true]

theorem round_of_frame
    (json : JsonCpp)
    {inbuffer s behind : Bytes}
    {chunk : Chunk}
    (textOnly : 0 ∉ chunk.bytes)
    (nonempty : s ≠ [])
    (small : s.length + behind.length < 2 ^ 31)
    (completes : inbuffer ++ chunk.bytes = encode s ++ behind) :
    round json inbuffer chunk =
      (respond json s).map fun respString => (behind, [respString]) := by
  simp only [round, recv_of_textOnly textOnly, completes, decode_encode small,
    if_neg nonempty]

/-! ## The server keeps up with one frame at a time -/

variable {json : JsonCpp} {payloads : List Bytes} {chunks front : List Chunk}

theorem KeepsUp.of_prefix
    (keepsUp : KeepsUp payloads chunks)
    (isPrefix : front <+: chunks) :
    KeepsUp payloads front where
  textOnly := keepsUp.textOnly
  fitsInt := ⟨keepsUp.fitsInt.1, fun earlier chunk s inside =>
    keepsUp.fitsInt.2 earlier chunk s (inside.trans isPrefix)⟩
  oneByOne earlier chunk inside :=
    keepsUp.oneByOne earlier chunk (inside.trans isPrefix)

theorem chunkBytes_isPrefix (isPrefix : front <+: chunks) :
    chunkBytes front <+: chunkBytes chunks := by
  obtain ⟨back, rfl⟩ := isPrefix
  rw [chunkBytes_append]
  exact List.prefix_append _ _

/-- In a short stream of text it is enough to count the frames. -/
theorem keepsUp_of_takes
    (textOnly : ∀ s ∈ payloads, 0 ∉ s)
    (small : ∀ s ∈ payloads, s.length + (chunkBytes chunks).length < 2 ^ 31)
    (oneByOne : ∀ i < chunks.length,
      (completeFrames payloads (chunks.take (i + 1))).length ≤
        (completeFrames payloads (chunks.take i)).length + 1) :
    KeepsUp payloads chunks where
  textOnly := textOnly
  fitsInt := by
    refine ⟨fun s present => Nat.lt_of_le_of_lt (Nat.le_add_right _ _) (small s present), ?_⟩
    intro front chunk s isPrefix completes
    have completed : s ∈ completeFrames payloads (front ++ [chunk]) := by
      rw [completes]
      exact List.mem_append_right _ List.mem_cons_self
    have present := (complete_isPrefix encode payloads _).subset completed
    have rest := leftover_le encode payloads (chunkBytes (front ++ [chunk])).length
    have received := (chunkBytes_isPrefix isPrefix).length_le
    have bound := small s present
    omega
  oneByOne front chunk isPrefix := by
    have inside := isPrefix.length_le
    rw [List.length_append, List.length_singleton] at inside
    have earlier : front = chunks.take front.length :=
      List.prefix_iff_eq_take.mp ((List.prefix_append front [chunk]).trans isPrefix)
    have now : front ++ [chunk] = chunks.take (front.length + 1) := by
      have taken := List.prefix_iff_eq_take.mp isPrefix
      rwa [List.length_append, List.length_singleton] at taken
    have counted := oneByOne front.length inside
    rw [now]
    rw [← earlier] at counted
    exact counted

/-- When the loop is about to call `Recv` again, the buffer is what is left of the
cut of the received bytes, and the frames in front are answered. -/
theorem cut_of_calculator
    (keepsUp : KeepsUp payloads chunks)
    (nonempty : ∀ s ∈ payloads, s ≠ [])
    (received : chunkBytes chunks <+: stream encode payloads)
    {inbuffer : Bytes}
    {sent : List Bytes}
    (ran : calculator json chunks [] [] = some (inbuffer, sent)) :
    ∃ done todo, Cut encode payloads (chunkBytes chunks) done todo inbuffer ∧
      sent.map some = done.map (respond json) := by
  induction chunks using List.reverseRecOn generalizing inbuffer sent with
  | nil =>
      simp only [calculator, Option.some.injEq, Prod.mk.injEq] at ran
      rw [← ran.1, ← ran.2]
      exact ⟨[], payloads, Cut.start encode_ne_nil, rfl⟩
  | append_singleton chunks chunk inductionHypothesis =>
      obtain ⟨before, earlier, responses, first, served, rfl⟩ := calculator_concat ran
      have inside := List.prefix_append chunks [chunk]
      obtain ⟨done, todo, cut, answered⟩ :=
        inductionHypothesis (keepsUp.of_prefix inside)
          ((chunkBytes_isPrefix inside).trans received) first
      have bytes :
          chunkBytes (chunks ++ [chunk]) = chunkBytes chunks ++ chunk.bytes := by
        simp
      have textOnly : 0 ∉ chunk.bytes := by
        intro present
        have inChunks : 0 ∈ chunkBytes (chunks ++ [chunk]) := by
          rw [bytes]
          exact List.mem_append_right _ present
        exact nul_not_mem_stream keepsUp.textOnly (received.subset inChunks)
      rw [bytes] at received ⊢
      obtain ⟨s, others, rfl, outcome⟩ := cut.extend chunk.nonempty received
      have isPayload : s ∈ payloads := by
        rw [cut.payloads_eq]
        simp
      rcases outcome with ⟨isPrefix, proper, extended⟩ | ⟨behind, completes, isPrefix⟩
      · rw [round_of_unfinished json textOnly (keepsUp.fitsInt.1 s isPayload) isPrefix
          proper, Option.some.injEq, Prod.mk.injEq] at served
        rw [← served.1, ← served.2, List.append_nil]
        exact ⟨done, s :: others, extended, answered⟩
      · have single := keepsUp.oneByOne chunks chunk (List.prefix_refl _)
        rw [completeFrames, completeFrames, cut.complete_eq, bytes] at single
        have advanced := cut.next completes isPrefix single
        have small : s.length + behind.length < 2 ^ 31 := by
          have fits := keepsUp.fitsInt.2 chunks chunk s (List.prefix_refl _)
          rw [completeFrames, completeFrames, bytes, advanced.complete_eq,
            cut.complete_eq, advanced.leftover_eq] at fits
          exact fits rfl
        rw [round_of_frame json textOnly (nonempty s isPayload) small completes]
          at served
        obtain ⟨respString, answer, result⟩ := Option.map_eq_some_iff.mp served
        rw [Prod.mk.injEq] at result
        rw [← result.1, ← result.2]
        refine ⟨done ++ [s], others, advanced, ?_⟩
        rw [List.map_append, List.map_append, answered, List.map_singleton,
          List.map_singleton, answer]

/-- While a run goes on, all the runs before it have gone on. -/
theorem calculator_isSome_of_prefix
    (alive : (calculator json chunks [] []).isSome = true)
    (isPrefix : front <+: chunks) :
    (calculator json front [] []).isSome = true := by
  obtain ⟨back, rfl⟩ := isPrefix
  rw [calculator_append] at alive
  exact Option.isSome_of_isSome_bind alive

/-- If no chunk completes two frames, every complete request is answered before the
next `Recv`. Conversely, a loop that is alive at the end and was always up to date
has received its frames one by one. -/
theorem upToDate_of_keepsUp
    (json : JsonCpp)
    (payloads : List Bytes)
    (chunks : List Chunk)
    (nonempty : ∀ s ∈ payloads, s ≠ [])
    (segmented : chunkBytes chunks = stream encode payloads) :
    (KeepsUp payloads chunks →
      ∀ front, front <+: chunks → UpToDate json payloads front) ∧
    ((calculator json chunks [] []).isSome = true →
      (∀ front, front <+: chunks → UpToDate json payloads front) →
      OneByOne payloads chunks) := by
  constructor
  · intro keepsUp front isPrefix inbuffer sent ran
    have received : chunkBytes front <+: stream encode payloads := by
      rw [← segmented]
      exact chunkBytes_isPrefix isPrefix
    obtain ⟨done, todo, cut, answered⟩ :=
      cut_of_calculator (keepsUp.of_prefix isPrefix) nonempty received ran
    refine ⟨?_, not_encode_of_cut cut⟩
    rw [completeFrames, cut.complete_eq, answered]
  · intro alive upToDate front chunk isPrefix
    have reached := calculator_isSome_of_prefix alive isPrefix
    obtain ⟨⟨inbuffer, sent⟩, ran⟩ := Option.isSome_iff_exists.mp reached
    obtain ⟨before, earlier, responses, first, served, rfl⟩ := calculator_concat ran
    have now := congrArg List.length (upToDate _ isPrefix _ _ ran).1
    have previous := congrArg List.length
      (upToDate front ((List.prefix_append _ _).trans isPrefix) _ _ first).1
    have single := length_responses_le served
    simp only [List.length_map, List.length_append] at now previous
    omega

/-- The request `1 + 2` as the client writes it. -/
def sumText : Bytes :=
  Request.serialize fastJson { x := 1, y := 2, op := 43 }

/-- Its answer as the server writes it. -/
def sumAnswer : Bytes :=
  encode (Response.serialize fastJson
    { result := 3, code := 0, x := 1, y := 2, op := 43 })

/-- A chunk that is one frame. -/
def oneAtOnce : Chunk :=
  ⟨encode sumText, by decide +kernel, by decide +kernel⟩

/-- A chunk of two frames. -/
def twoAtOnce : Chunk :=
  ⟨encode sumText ++ encode sumText, by decide +kernel, by decide +kernel⟩

/-- The request `5 - 3`. -/
def differenceText : Bytes :=
  Request.serialize fastJson { x := 5, y := 3, op := 45 }

/-- Two requests in three chunks: the first chunk ends inside the first frame, and the
second one completes it and ends inside the other. -/
def inPieces : List Chunk :=
  [⟨(encode sumText).take 7, by decide +kernel, by decide +kernel⟩,
    ⟨(encode sumText).drop 7 ++ (encode differenceText).take 2, by decide +kernel,
      by decide +kernel⟩,
    ⟨(encode differenceText).drop 2, by decide +kernel, by decide +kernel⟩]

/-- Every request is answered as soon as its last byte is there. -/
theorem upToDate_inPieces :
    UpToDate fastJson [sumText, differenceText] (inPieces.take 1) ∧
      UpToDate fastJson [sumText, differenceText] (inPieces.take 2) ∧
      UpToDate fastJson [sumText, differenceText] inPieces := by
  have keepsUp : KeepsUp [sumText, differenceText] inPieces :=
    keepsUp_of_takes (by decide +kernel) (by decide +kernel) (by decide +kernel)
  have upToDate := (upToDate_of_keepsUp fastJson [sumText, differenceText] inPieces
    (by decide +kernel) (by decide +kernel)).1 keepsUp
  refine ⟨upToDate _ ?_, upToDate _ ?_, upToDate _ ?_⟩
  · exact List.take_prefix 1 inPieces
  · exact List.take_prefix 2 inPieces
  · exact List.prefix_refl inPieces

/-- Of two requests in one chunk the second is left in the buffer. -/
theorem second_request_waits :
    chunkBytes [twoAtOnce] = stream encode [sumText, sumText] ∧
      calculator fastJson [twoAtOnce] [] [] = some (encode sumText, [sumAnswer]) ∧
      ¬UpToDate fastJson [sumText, sumText] [twoAtOnce] := by
  have ran : calculator fastJson [twoAtOnce] [] [] =
      some (encode sumText, [sumAnswer]) := by
    decide +kernel
  refine ⟨by decide +kernel, ran, fun upToDate => ?_⟩
  exact (upToDate _ _ ran).2 sumText [] (List.append_nil _).symm

end NetCal
end LearnInLinux
