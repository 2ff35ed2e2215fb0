import LearnInLinux.Reactor.Codec
import LearnInLinux.Reactor.Service

/-!
# The protocol from the client's side

A client frames its requests with `encode`, and cuts what it gets back with
`spliteMessage`. What a socket was sent is at any time the beginning of the answers to
the messages that came in on it, also when the connection has been closed meanwhile; so
the client reads the right answers, in the order of its requests, and no others.
-/

namespace LearnInLinux
namespace Reactor

open Delimited (messages remainder)

/-! ## What a socket was sent -/

/-- The messages passed on are the first complete ones, none of them has killed the
server, and what was sent is the beginning of their answers. -/
structure Answered (events : List Event) : Prop where
  inOrder : delivered events <+: messages sepChar (text events)
  survived : ∀ message ∈ delivered events, Survives message
  sent : sentBytes events <+: replies (delivered events)

theorem Answered.initial : Answered [] :=
  ⟨List.nil_prefix, fun _ present => absurd present List.not_mem_nil, List.nil_prefix⟩

theorem Answered.of_balanced
    {c : Connection}
    {events : List Event}
    (balanced : Balanced c events)
    (survived : ∀ message ∈ delivered events, Survives message) :
    Answered events := by
  refine ⟨balanced.delivered ▸ List.prefix_rfl, survived, c.outbuffer, ?_⟩
  rw [balanced.outbuffer, balanced.delivered]

/-- More text may come in, as long as nothing more is passed on or sent. -/
theorem Answered.append
    {front back : List Event}
    (answered : Answered front)
    (nothingPassed : delivered back = [])
    (nothingSent : sentBytes back = []) :
    Answered (front ++ back) := by
  have passed : delivered (front ++ back) = delivered front := by
    rw [delivered_append, nothingPassed, List.append_nil]
  constructor
  · rw [passed, text_append, Delimited.messages_append]
    exact answered.inOrder.trans (List.prefix_append _ _)
  · rw [passed]
    exact answered.survived
  · rw [passed, sentBytes_append, nothingSent, List.append_nil]
    exact answered.sent

namespace System

variable {s s' : System} {conn : Ptr}

/-- Connections that arrive leave the histories of the sockets alone. -/
theorem history_arrivals
    (arrivals : Arrivals conn s s')
    (sock : SockId) :
    s'.history sock = s.history sock := by
  induction arrivals with
  | done s => rfl
  | failed errno later inductionHypothesis =>
      rw [inductionHypothesis, history_failedAccept]
  | arrived fd added closed later inductionHypothesis =>
      rw [inductionHypothesis, history_afterArrive]

theorem history_entered (fd : Fd) (conn : Ptr) (sock : SockId) :
    (s.entered fd conn).history sock = s.history sock := by
  rw [history_of_log (entered_log s fd conn), about_cons_of_none rfl, about_nil,
    List.append_nil]

/-- A move of a running server keeps what every socket was sent in order. -/
theorem Move.answered
    (moved : s.Move (.running s'))
    (tables : s.Tables)
    (serving : s.Serving)
    (answered : ∀ sock, Answered (s.history sock))
    (sock : SockId) :
    Answered (s'.history sock) := by
  have serving' := moved.serving tables serving
  cases moved with
  | wait batch idle possible => exact answered sock
  | skip busy =>
      have same : s.advance.history sock = s.history sock := by
        rw [history, advance_log]
        rfl
      rw [same]
      exact answered sock
  | accept called arrivals =>
      rw [history_arrivals arrivals, history_entered]
      exact answered sock
  | @read fd conn served rounds last called registered continued drained survived =>
      by_cases own : sock = served
      · subst own
        have same := SameTables.afterRead registered (rounds ++ [last])
        have entry : (s.afterRead fd conn sock (rounds ++ [last])).connections fd =
            some conn := by
          rw [same.connections, registered.entry]
        have opened : (s.afterRead fd conn sock (rounds ++ [last])).socket fd =
            some sock := by
          rw [same.socket, registered.opened]
        apply Answered.of_balanced (serving'.balanced fd conn sock entry opened)
        intro message present
        rw [history_afterRead, delivered_append, delivered_append, delivered_recvs,
          delivered_messages, List.nil_append, List.mem_append] at present
        rcases present with before | new
        · exact (answered sock).survived message before
        · exact survived message new
      · rw [(Frame.afterRead _).history sock own]
        exact answered sock
  | @close fd conn released rounds last called registered continued closes =>
      by_cases own : sock = released
      · subst own
        rw [history_afterClose]
        apply (answered sock).append
        · rw [delivered_append, delivered_recvs]
          rfl
        · rw [sentBytes_append, sentBytes_recvs]
          rfl
      · rw [(Frame.afterClose _).history sock own]
        exact answered sock
  | @write fd conn written outbuffer events called registered soft conserved =>
      by_cases own : sock = written
      · subst own
        have same := SameTables.afterWrite registered outbuffer events
        have entry : (s.afterWrite fd conn outbuffer events).connections fd =
            some conn := by
          rw [same.connections, registered.entry]
        have opened : (s.afterWrite fd conn outbuffer events).socket fd =
            some sock := by
          rw [same.socket, registered.opened]
        apply Answered.of_balanced (serving'.balanced fd conn sock entry opened)
        intro message present
        rw [history_afterWrite outbuffer soft, delivered_append, delivered_soft soft,
          List.append_nil] at present
        exact (answered sock).survived message present
      · rw [(Frame.afterWrite outbuffer soft).history sock own]
        exact answered sock

end System

namespace Process

theorem answered : machine.Invariant fun process =>
    ∀ s, process = .running s → ∀ sock, Answered (s.history sock) := by
  apply invariant_of_moves
  · rintro listensock added s equal sock
    obtain rfl := Process.running.inj equal
    rw [System.history_create]
    exact Answered.initial
  · rintro s _ reached tables pending holds moved s' rfl sock
    exact moved.answered tables (serving _ reached s rfl) (holds s rfl) sock

end Process

/-! ## What a client reads -/

/-- The answers in a byte stream, each with the verdict of the parser. -/
def answersIn (resp : Response) (stream : Bytes) : List (Bool × Response) :=
  (spliteMessage stream []).2.map resp.deserialized

theorem answersIn_eq (resp : Response) (stream : Bytes) :
    answersIn resp stream = (messages sepChar stream).map resp.deserialized := by
  rw [answersIn, spliteMessage_eq, List.nil_append]

/-- The complete messages at the beginning of a stream come first. -/
theorem messages_prefix
    {front stream : Bytes}
    (isPrefix : front <+: stream) :
    messages sepChar front <+: messages sepChar stream := by
  obtain ⟨behind, rfl⟩ := isPrefix
  rw [Delimited.messages_append]
  exact List.prefix_append _ _

theorem sepChar_not_mem_response (resp : Response) : sepChar ∉ resp.serialize := by
  have inSpace : sepChar ∉ space := by decide
  simp only [Response.serialize, List.mem_append, sepChar_not_mem_toText, inSpace,
    or_self, not_false_eq_true]

/-- The stream of framed responses. -/
def responseStream (responses : List Response) : Bytes :=
  (responses.map fun resp => encode resp.serialize).flatten

theorem messages_responseStream (responses : List Response) :
    messages sepChar (responseStream responses) = responses.map Response.serialize := by
  have clean : ∀ message ∈ responses.map Response.serialize, sepChar ∉ message := by
    intro message present
    obtain ⟨resp, -, rfl⟩ := List.mem_map.mp present
    exact sepChar_not_mem_response resp
  have stream : responseStream responses =
      Delimited.wire sepChar (responses.map Response.serialize) [] := by
    rw [responseStream, Delimited.wire, List.append_nil, List.map_map]
    rfl
  have cut : Delimited.Splits sepChar (responseStream responses)
      (responses.map Response.serialize) [] :=
    ⟨stream.symm, clean, List.not_mem_nil⟩
  exact cut.eq_messages.1.symm

/-- A framed request can be told from its neighbours and is text. -/
def Request.Legible (req : Request) : Prop :=
  req.op ≠ sepChar ∧ req.op ≠ 0

theorem nul_not_mem_requestStream
    {requests : List Request}
    (legible : ∀ req ∈ requests, req.Legible) :
    0 ∉ requestStream requests := by
  intro present
  obtain ⟨framed, isFramed, inFramed⟩ := List.mem_flatten.mp present
  obtain ⟨req, isRequest, rfl⟩ := List.mem_map.mp isFramed
  have inSpace : (0 : UInt8) ∉ space := by decide
  have inSep : (0 : UInt8) ∉ sep := by decide
  have inText (number : Int) : 0 ∉ Decimal.toText number :=
    not_mem_toText (by decide) (by decide) number
  simp only [encode, Request.serialize, List.mem_append, inText, inSpace, inSep,
    List.mem_singleton, false_or, or_false] at inFramed
  exact (legible req isRequest).2 inFramed.symm

/-- The first requests of a client have got all their answers. -/
theorem exists_responses_of_prefix
    {requests : List Request}
    {served : List Bytes}
    (first : served <+: requests.map Request.serialize)
    (survived : ∀ message ∈ served, Survives message) :
    ∃ responses : List Response,
      responses.map some = (requests.take served.length).map calculator ∧
        replies served = responseStream responses := by
  have isServed : served = (requests.take served.length).map Request.serialize := by
    rw [List.map_take]
    exact List.prefix_iff_eq_take.mp first
  have computable : ∀ req ∈ requests.take served.length, calculator req ≠ none := by
    intro req present
    have survives : Survives req.serialize := by
      apply survived
      rw [isServed]
      exact List.mem_map_of_mem present
    exact survives req (requestOf_serialize req)
  obtain ⟨responses, computed⟩ := exists_responses computable
  refine ⟨responses, computed.symm, ?_⟩
  have answers := map_reply_serialize computed
  rw [← isServed] at answers
  rw [replies, List.flatMap_def, answers, responseStream]

namespace Process

/-- A client that frames its requests reads from what the server has sent it the right
answers to the first of them, in their order, whatever the other clients do and in
whatever pieces the bytes arrive. It has read all of them when its requests have
arrived and nothing is queued for it. -/
theorem client_reads_right_answers
    {s : System}
    (reached : machine.Reachable (.running s))
    (sock : SockId)
    (requests : List Request)
    (legible : ∀ req ∈ requests, req.Legible)
    (sends : receivedBytes (s.history sock) <+: requestStream requests)
    (resp : Response) :
    ∃ responses : List Response,
      answersIn resp (sentBytes (s.history sock)) = responses.map (true, ·) ∧
      responses.map some <+: requests.map calculator ∧
      ∀ fd conn, s.connections fd = some conn → s.socket fd = some sock →
        receivedBytes (s.history sock) = requestStream requests →
        (s.memory conn).outbuffer = [] →
        responses.map some = requests.map calculator := by
  have answered := answered _ reached s rfl sock
  have textOnly : 0 ∉ receivedBytes (s.history sock) := fun present =>
    nul_not_mem_requestStream legible (sends.subset present)
  have sameText : text (s.history sock) = receivedBytes (s.history sock) :=
    chunkText_eq_chunkBytes textOnly
  have cut : messages sepChar (requestStream requests) =
      requests.map Request.serialize := by
    have split := spliteMessage_requestStream fun req present => (legible req present).1
    rw [spliteMessage_eq, List.nil_append] at split
    exact (Prod.mk.inj split).2
  have first : delivered (s.history sock) <+: requests.map Request.serialize := by
    rw [← cut]
    apply answered.inOrder.trans
    rw [sameText]
    exact messages_prefix sends
  obtain ⟨responses, computed, sentStream⟩ :=
    exists_responses_of_prefix first answered.survived
  have got : messages sepChar (sentBytes (s.history sock)) <+:
      responses.map Response.serialize := by
    rw [← messages_responseStream, ← sentStream]
    exact messages_prefix answered.sent
  have read := List.prefix_iff_eq_take.mp got
  rw [← List.map_take] at read
  generalize counted : (messages sepChar (sentBytes (s.history sock))).length = count at read
  refine ⟨responses.take count, ?_, ?_, ?_⟩
  · rw [answersIn_eq, read, List.map_map]
    apply List.map_congr_left
    intro response _
    exact Response.deserialized_serialize response resp
  · have shorter := (List.take_prefix count responses).map some
    rw [computed] at shorter
    exact shorter.trans ((List.take_prefix _ _).map calculator)
  · intro fd conn entry opened arrived drained
    have balanced := (serving _ reached s rfl).balanced fd conn sock entry opened
    have allServed : delivered (s.history sock) = requests.map Request.serialize := by
      rw [balanced.delivered, sameText, arrived, cut]
    have allSent : sentBytes (s.history sock) = responseStream responses := by
      have sent := balanced.outbuffer
      rw [drained, List.append_nil, ← balanced.delivered, sentStream] at sent
      exact sent
    rw [allServed, List.length_map, List.take_length] at computed
    rw [← counted, allSent, messages_responseStream, List.length_map, List.take_length,
      computed]

/-- The whole answer to `1 + 2` is sent. -/
def answersWhole : List System.Label :=
  asks ++ [.next ⟨[], [], [.sent 4]⟩]

theorem client_reads_right_answers_answersWhole :
    ∃ s, ∃ responses : List Response,
      run answersWhole (.running (System.create 3 true)) = some (.running s) ∧
      answersIn default (sentBytes (s.history 1)) = responses.map (true, ·) ∧
      responses.map some = [calculator { x := 1, y := 2, op := 43 }] := by
  have ended : (run answersWhole (.running (System.create 3 true))).map
      (fun process => (process.reason, process.state.connections 5,
        process.state.socket 5, decide (receivedBytes (process.state.history 1) =
            requestStream [{ x := 1, y := 2, op := 43 }] ∧
          (process.state.memory 1).outbuffer = []))) =
        some (none, some 1, some 1, true) := by
    decide +kernel
  obtain ⟨process, ran, outcome⟩ := Option.map_eq_some_iff.mp ended
  simp only [Prod.mk.injEq, decide_eq_true_eq] at outcome
  obtain ⟨alive, entry, opened, bytes, drained⟩ := outcome
  rw [eq_running_of_reason alive] at ran
  have legible : ∀ req ∈ [({ x := 1, y := 2, op := 43 } : Request)], req.Legible := by
    intro req present
    obtain rfl := List.mem_singleton.mp present
    exact ⟨by decide, by decide⟩
  obtain ⟨responses, read, -, all⟩ := client_reads_right_answers
    (reachable_of_run (reachable_create 3 true) ran) 1 [{ x := 1, y := 2, op := 43 }]
    legible (bytes ▸ List.prefix_rfl) default
  exact ⟨process.state, responses, ran, read, all 5 1 entry opened bytes drained⟩

end Process

end Reactor
end LearnInLinux
