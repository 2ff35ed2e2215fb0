import LearnInLinux.Library.Transition
import LearnInLinux.NetCal.CalServer

/-!
# A client and the server loop

The client sends a request and reads until it has decoded a response; the server
loop answers what it decodes. Between them run two byte streams that may be cut
anywhere. `Lockstep` says what the two sides, their buffers and the streams look
like at any time: at most one frame is under way.
-/

namespace LearnInLinux
namespace NetCal

/-- The two programs and the bytes between them. -/
structure Session where
  /-- Requests entered so far. -/
  typed : List Request
  /-- Responses that the client has decoded. -/
  decoded : List Response
  /-- The client is in its reading loop. -/
  waiting : Bool
  clientBuffer : Bytes
  serverBuffer : Bytes
  toServer : Bytes
  toClient : Bytes
  deriving DecidableEq

/-- One round of the reading loop of the client after a chunk was received.
Result: the buffer and the response, if there is one. -/
def clientRound (json : JsonCpp) (buffer : Bytes) (chunk : Chunk) :
    Option (Bytes × Option Response) :=
  let buffer := recv chunk buffer
  let (package, buffer) := decode buffer
  if package = [] then some (buffer, none)
  else (Response.deserialized json package).map fun resp => (buffer, some resp)

namespace Session

/-- Both programs at their start. -/
def initial : Session where
  typed := []
  decoded := []
  waiting := false
  clientBuffer := []
  serverBuffer := []
  toServer := []
  toClient := []

/-- The client sends a request, or one side receives a chunk and does its round.
`send` delivers all its bytes. -/
inductive Step (json : JsonCpp) : Session → Session → Prop
  | request {s : Session} (req : Request)
      (idle : s.waiting = false) :
      Step json s { s with
        typed := s.typed ++ [req]
        waiting := true
        toServer := s.toServer ++ encode (req.serialize json) }
  | serve {s : Session} {chunk : Chunk} {rest inbuffer : Bytes}
      {responses : List Bytes}
      (arrives : s.toServer = chunk.bytes ++ rest)
      (served : round json s.serverBuffer chunk = some (inbuffer, responses)) :
      Step json s { s with
        serverBuffer := inbuffer
        toServer := rest
        toClient := s.toClient ++ responses.flatten }
  | read {s : Session} {chunk : Chunk} {rest buffer : Bytes}
      {resp : Option Response}
      (waiting : s.waiting = true)
      (arrives : s.toClient = chunk.bytes ++ rest)
      (result : clientRound json s.clientBuffer chunk = some (buffer, resp)) :
      Step json s { s with
        decoded := s.decoded ++ resp.toList
        waiting := resp.isNone
        clientBuffer := buffer
        toClient := rest }

/-- All runs of a session. -/
def machine (json : JsonCpp) : Transition.Machine Session where
  start s := s = initial
  step := Step json

/-- The request does not divide the smallest integer by `-1`. -/
def Harmless (req : Request) : Prop :=
  ¬((req.op = 47 ∨ req.op = 37) ∧ Traps req.x req.y)

/-- At most one frame is under way: none, a request, or its response. -/
inductive Lockstep (json : JsonCpp) : Session → Prop
  | idle {done : List Request} {answers : List Response}
      (answered : done.map calculatorHelper = answers.map some) :
      Lockstep json
        { typed := done, decoded := answers, waiting := false, clientBuffer := [],
          serverBuffer := [], toServer := [], toClient := [] }
  | asking {done : List Request} {answers : List Response} {req : Request}
      {inbuffer toServer : Bytes}
      (answered : done.map calculatorHelper = answers.map some)
      (frame : inbuffer ++ toServer = encode (req.serialize json))
      (underWay : toServer ≠ []) :
      Lockstep json
        { typed := done ++ [req], decoded := answers, waiting := true,
          clientBuffer := [], serverBuffer := inbuffer, toServer, toClient := [] }
  | answering {done : List Request} {answers : List Response} {req : Request}
      {resp : Response} {buffer toClient : Bytes}
      (answered : done.map calculatorHelper = answers.map some)
      (computed : calculatorHelper req = some resp)
      (frame : buffer ++ toClient = encode (resp.serialize json))
      (underWay : toClient ≠ []) :
      Lockstep json
        { typed := done ++ [req], decoded := answers, waiting := true,
          clientBuffer := buffer, serverBuffer := [], toServer := [], toClient }

/-- The `i`-th decoded response is the result of the `i`-th request. -/
def AnswersAgree (s : Session) : Prop :=
  ∀ (i : Nat) resp, s.decoded[i]? = some resp →
    ∃ req, s.typed[i]? = some req ∧ calculatorHelper req = some resp

/-- All requests are answered, both buffers are empty, and nothing is in flight. -/
def Quiet (s : Session) : Prop :=
  s.decoded.length = s.typed.length ∧
    s.clientBuffer = [] ∧ s.serverBuffer = [] ∧ s.toServer = [] ∧ s.toClient = []

/-- Whatever arrives next, the side that receives it gets through its round; and
while the client waits, something is on its way. -/
structure Alive (json : JsonCpp) (s : Session) : Prop where
  server : ∀ (chunk : Chunk) rest, s.toServer = chunk.bytes ++ rest →
    (round json s.serverBuffer chunk).isSome = true
  client : ∀ (chunk : Chunk) rest, s.toClient = chunk.bytes ++ rest →
    (clientRound json s.clientBuffer chunk).isSome = true
  underWay : s.waiting = true → s.toServer ≠ [] ∨ s.toClient ≠ []

/-! ## One round of each side on a single frame -/

variable {json : JsonCpp}

theorem respond_serialize
    (laws : json.RoundTrips)
    {req : Request}
    {resp : Response}
    (computed : calculatorHelper req = some resp) :
    respond json (req.serialize json) = some (encode (resp.serialize json)) := by
  simp [respond, laws.request req, computed]

theorem clientRound_of_unfinished
    (json : JsonCpp)
    {buffer s : Bytes}
    {chunk : Chunk}
    (textOnly : 0 ∉ chunk.bytes)
    (small : s.length < 2 ^ 31)
    (isPrefix : buffer ++ chunk.bytes <+: encode s)
    (proper : buffer ++ chunk.bytes ≠ encode s) :
    clientRound json buffer chunk = some (buffer ++ chunk.bytes, none) := by
  simp only [clientRound, recv_of_textOnly textOnly,
    decode_unfinished small isPrefix proper, if_true]

theorem clientRound_of_frame
    (json : JsonCpp)
    {buffer s : Bytes}
    {chunk : Chunk}
    (textOnly : 0 ∉ chunk.bytes)
    (nonempty : s ≠ [])
    (small : s.length < 2 ^ 31)
    (completes : buffer ++ chunk.bytes = encode s) :
    clientRound json buffer chunk =
      (Response.deserialized json s).map fun resp => ([], some resp) := by
  have decoded : decode (encode s) = (s, []) := by
    have whole : decode (encode s ++ []) = (s, []) :=
      decode_encode (by simpa using small)
    rwa [List.append_nil] at whole
  simp only [clientRound, recv_of_textOnly textOnly, completes, decoded,
    if_neg nonempty]

/-! ## The sides stay in lockstep -/

theorem calculatorHelper_isSome
    {req : Request}
    (harmless : Harmless req) :
    ∃ resp, calculatorHelper req = some resp := by
  rw [← Option.ne_none_iff_exists']
  intro trap
  rw [calculatorHelper, Option.map_eq_none_iff, switchOp_eq_none_iff] at trap
  exact harmless trap

/-- A chunk of a frame of text is text. -/
theorem textOnly_of_frame
    {s buffer rest : Bytes}
    {chunk : Chunk}
    (textOnly : 0 ∉ s)
    (frame : buffer ++ (chunk.bytes ++ rest) = encode s) :
    0 ∉ chunk.bytes := by
  have clean := nul_not_mem_encode textOnly
  rw [← frame] at clean
  simp only [List.mem_append, not_or] at clean
  exact clean.2.1

/-- More of the frame is to come. -/
theorem prefix_of_frame
    {s buffer rest : Bytes}
    {chunk : Chunk}
    (frame : buffer ++ (chunk.bytes ++ rest) = encode s)
    (more : rest ≠ []) :
    buffer ++ chunk.bytes <+: encode s ∧ buffer ++ chunk.bytes ≠ encode s := by
  rw [← List.append_assoc] at frame
  refine ⟨⟨rest, frame⟩, fun whole => more ?_⟩
  rw [← whole] at frame
  exact List.append_right_eq_self.mp frame

theorem Lockstep.request
    {s : Session}
    (lockstep : Lockstep json s)
    (req : Request)
    (idle : s.waiting = false) :
    Lockstep json { s with
      typed := s.typed ++ [req]
      waiting := true
      toServer := s.toServer ++ encode (req.serialize json) } := by
  cases lockstep with
  | idle answered =>
      exact .asking answered (List.nil_append _) (encode_ne_nil _)
  | asking answered frame underWay => exact absurd idle (by simp)
  | answering answered computed frame underWay => exact absurd idle (by simp)

theorem Lockstep.serve
    {s : Session}
    (laws : json.RoundTrips)
    (lockstep : Lockstep json s)
    (harmless : ∀ req ∈ s.typed, Harmless req)
    {chunk : Chunk}
    {rest : Bytes}
    (arrives : s.toServer = chunk.bytes ++ rest) :
    ∃ inbuffer responses,
      round json s.serverBuffer chunk = some (inbuffer, responses) ∧
      Lockstep json { s with
        serverBuffer := inbuffer
        toServer := rest
        toClient := s.toClient ++ responses.flatten } := by
  cases lockstep with
  | idle answered => exact absurd arrives.symm (by simp [chunk.nonempty])
  | answering answered computed frame underWay =>
      exact absurd arrives.symm (by simp [chunk.nonempty])
  | @asking done answers req inbuffer toServer answered frame underWay =>
      subst arrives
      have textOnly : 0 ∉ chunk.bytes :=
        textOnly_of_frame (laws.nul_not_mem_write _ req.plainKeys) frame
      have small : (req.serialize json).length < 2 ^ 31 :=
        laws.write_short _ req.plainKeys
      by_cases more : rest = []
      · subst more
        have nonempty : req.serialize json ≠ [] :=
          laws.write_ne_nil _ req.plainKeys
        have completes :
            inbuffer ++ chunk.bytes = encode (req.serialize json) ++ [] := by
          simpa using frame
        obtain ⟨resp, computed⟩ :=
          calculatorHelper_isSome (harmless req (by simp))
        have served := round_of_frame json textOnly nonempty (by simpa using small)
          completes
        rw [respond_serialize laws computed] at served
        refine ⟨_, _, served, .answering answered computed ?_ ?_⟩
        · simp
        · simp [encode_ne_nil]
      · obtain ⟨isPrefix, proper⟩ := prefix_of_frame frame more
        refine ⟨_, _, round_of_unfinished json textOnly small isPrefix proper, ?_⟩
        refine .asking answered ?_ more
        rw [List.append_assoc, frame]

theorem Lockstep.read
    {s : Session}
    (laws : json.RoundTrips)
    (lockstep : Lockstep json s)
    {chunk : Chunk}
    {rest : Bytes}
    (arrives : s.toClient = chunk.bytes ++ rest) :
    ∃ buffer resp,
      clientRound json s.clientBuffer chunk = some (buffer, resp) ∧
      Lockstep json { s with
        decoded := s.decoded ++ resp.toList
        waiting := resp.isNone
        clientBuffer := buffer
        toClient := rest } := by
  cases lockstep with
  | idle answered => exact absurd arrives.symm (by simp [chunk.nonempty])
  | asking answered frame underWay =>
      exact absurd arrives.symm (by simp [chunk.nonempty])
  | @answering done answers req resp buffer toClient answered computed frame underWay =>
      subst arrives
      have textOnly : 0 ∉ chunk.bytes :=
        textOnly_of_frame (laws.nul_not_mem_write _ resp.plainKeys) frame
      have small : (resp.serialize json).length < 2 ^ 31 :=
        laws.write_short _ resp.plainKeys
      by_cases more : rest = []
      · subst more
        have nonempty : resp.serialize json ≠ [] :=
          laws.write_ne_nil _ resp.plainKeys
        have completes : buffer ++ chunk.bytes = encode (resp.serialize json) := by
          simpa using frame
        have result := clientRound_of_frame json textOnly nonempty small completes
        rw [laws.response resp] at result
        refine ⟨_, _, result, .idle ?_⟩
        simp [answered, computed]
      · obtain ⟨isPrefix, proper⟩ := prefix_of_frame frame more
        refine ⟨_, _, clientRound_of_unfinished json textOnly small isPrefix proper, ?_⟩
        rw [Option.toList_none, List.append_nil]
        refine .answering answered computed ?_ more
        rw [List.append_assoc, frame]

/-- As long as no request traps, every reached session is in lockstep. -/
theorem lockstep
    (laws : json.RoundTrips) :
    (machine json).Invariant fun s =>
      (∀ req ∈ s.typed, Harmless req) → Lockstep json s := by
  apply Transition.Machine.invariant_of_steps
  · rintro s rfl _
    exact .idle rfl
  · rintro s next _ holds moved harmless
    cases moved with
    | request req idle =>
        exact (holds fun earlier present =>
          harmless earlier (List.mem_append_left _ present)).request req idle
    | serve arrives served =>
        obtain ⟨inbuffer, responses, served', after⟩ :=
          (holds harmless).serve laws harmless arrives
        rw [served, Option.some.injEq, Prod.mk.injEq] at served'
        obtain ⟨rfl, rfl⟩ := served'
        exact after
    | read waiting arrives result =>
        obtain ⟨buffer, resp, result', after⟩ := (holds harmless).read laws arrives
        rw [result, Option.some.injEq, Prod.mk.injEq] at result'
        obtain ⟨rfl, rfl⟩ := result'
        exact after

/-! ## What the client sees -/

theorem exists_request
    {done pending : List Request}
    {answers : List Response}
    (answered : done.map calculatorHelper = answers.map some)
    {i : Nat}
    {resp : Response}
    (found : answers[i]? = some resp) :
    ∃ req, (done ++ pending)[i]? = some req ∧ calculatorHelper req = some resp := by
  have result : (done.map calculatorHelper)[i]? = some (some resp) := by
    rw [answered, List.getElem?_map, found]
    rfl
  rw [List.getElem?_map] at result
  obtain ⟨req, inDone, computed⟩ := Option.map_eq_some_iff.mp result
  refine ⟨req, ?_, computed⟩
  rw [List.getElem?_append_left (List.getElem?_eq_some_iff.mp inDone).1, inDone]

variable {s : Session}

theorem Lockstep.answersAgree (lockstep : Lockstep json s) : AnswersAgree s := by
  intro i resp found
  cases lockstep with
  | @idle done answers answered =>
      rw [← List.append_nil done]
      exact exists_request answered found
  | asking answered frame underWay => exact exists_request answered found
  | answering answered computed frame underWay => exact exists_request answered found

theorem Lockstep.quiet
    (lockstep : Lockstep json s)
    (idle : s.waiting = false) :
    Quiet s := by
  cases lockstep with
  | idle answered =>
      have lengths := congrArg List.length answered
      rw [List.length_map, List.length_map] at lengths
      exact ⟨lengths.symm, rfl, rfl, rfl, rfl⟩
  | asking answered frame underWay => exact absurd idle (by simp)
  | answering answered computed frame underWay => exact absurd idle (by simp)

theorem Lockstep.alive
    (laws : json.RoundTrips)
    (lockstep : Lockstep json s)
    (harmless : ∀ req ∈ s.typed, Harmless req) :
    Alive json s where
  server chunk rest arrives := by
    obtain ⟨inbuffer, responses, served, _⟩ := lockstep.serve laws harmless arrives
    rw [served]
    rfl
  client chunk rest arrives := by
    obtain ⟨buffer, resp, result, _⟩ := lockstep.read laws arrives
    rw [result]
    rfl
  underWay waiting := by
    cases lockstep with
    | idle answered => exact absurd waiting (by simp)
    | asking answered frame underWay => exact Or.inl underWay
    | answering answered computed frame underWay => exact Or.inr underWay

/-- However the two streams are cut, the client decodes the result of each of its
requests, and it enters the next one only when everything before it is done. -/
theorem responses_agree
    (laws : json.RoundTrips)
    (reached : (machine json).Reachable s)
    (harmless : ∀ req ∈ s.typed, Harmless req) :
    AnswersAgree s ∧ (s.waiting = false → Quiet s) ∧ Alive json s := by
  have inLockstep := lockstep laws s reached harmless
  exact ⟨inLockstep.answersAgree, inLockstep.quiet, inLockstep.alive laws harmless⟩

/-- The request `1 + 2` is under way. -/
def sumAsked : Session where
  typed := [{ x := 1, y := 2, op := 43 }]
  decoded := []
  waiting := true
  clientBuffer := []
  serverBuffer := []
  toServer := encode sumText
  toClient := []

/-- The first byte of an answer. -/
def firstOfAnswer : Chunk :=
  ⟨sumAnswer.take 1, by decide +kernel, by decide +kernel⟩

/-- The client has received the first byte of the answer. -/
def sumComesBack : Session where
  typed := [{ x := 1, y := 2, op := 43 }]
  decoded := []
  waiting := true
  clientBuffer := firstOfAnswer.bytes
  serverBuffer := []
  toServer := []
  toClient := sumAnswer.drop 1

theorem sumComesBack_reachable : (machine fastJson).Reachable sumComesBack := by
  have asked : (machine fastJson).Reachable sumAsked :=
    .step (.start rfl) (.request { x := 1, y := 2, op := 43 } rfl)
  have served : round fastJson [] oneAtOnce = some ([], [sumAnswer]) := by
    decide +kernel
  have read : clientRound fastJson [] firstOfAnswer =
      some (firstOfAnswer.bytes, none) := by
    decide +kernel
  have arrives : sumAsked.toServer = oneAtOnce.bytes ++ [] :=
    (List.append_nil _).symm
  have comes : [] ++ [sumAnswer].flatten = firstOfAnswer.bytes ++ sumAnswer.drop 1 := by
    decide +kernel
  have answered := asked.step (.serve arrives served)
  exact answered.step (@Step.read _ _ firstOfAnswer _ _ none rfl comes read)

theorem responses_agree_sumComesBack :
    AnswersAgree sumComesBack ∧
      (sumComesBack.waiting = false → Quiet sumComesBack) ∧
      Alive fastJson sumComesBack := by
  refine responses_agree fastJson_roundTrips sumComesBack_reachable ?_
  intro req typed
  obtain rfl := List.mem_singleton.mp typed
  unfold Harmless
  decide

end Session

end NetCal
end LearnInLinux
