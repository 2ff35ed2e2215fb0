import LearnInLinux.Library.Istream
import LearnInLinux.NetCal.Json
import LearnInLinux.NetCal.Session

/-!
# The input of the client

The client reads a calculation from standard input in every turn of its loop and sends
what it has then, whether the extraction succeeded or not. Here its loop is followed
on a text and on what the server sends, and compared with the calculations that the text
begins with.
-/

namespace LearnInLinux
namespace NetCal

/-! ## The loop of the client -/

/-- `std::cin >> req.x_ >> req.op_ >> req.y_` -/
def extract (is : Istream) (req : Request) : Request × Istream :=
  let (x, is) := is.extractInt req.x
  let (op, is) := is.extractChar req.op
  let (y, is) := is.extractInt req.y
  ({ x, y, op }, is)

/-- What is handed to `Send` for a request. -/
def packed (json : JsonCpp) (req : Request) : Bytes :=
  encode (req.serialize json)

/-- The client between two turns of its loop. -/
structure CalClient where
  cin : Istream
  buffer : Bytes
  sent : List Bytes
  /-- The requests whose extraction succeeded. -/
  extracted : List Request

namespace CalClient

/-- The client in front of its loop. -/
def start (text : Bytes) : CalClient where
  cin := ⟨text, false⟩
  buffer := []
  sent := []
  extracted := []

/-- The first half of a turn, from the prompt to `Send`. `Request req;` has no values of
its own: `stale` are those of the memory that it gets in each turn. -/
def ask (json : JsonCpp) (stale : Nat → Request) (c : CalClient) : CalClient :=
  let (req, cin) := extract c.cin (stale c.sent.length)
  { c with
    cin
    sent := c.sent ++ [packed json req]
    extracted := if cin.fail then c.extracted else c.extracted ++ [req] }

/-- The rest of the turn, and all later turns, on what is received. The chunks end where
`Recv` fails or waits. -/
def run (json : JsonCpp) (stale : Nat → Request) (c : CalClient) :
    List Chunk → CalClient
  | [] => c
  | chunk :: chunks =>
      match clientRound json c.buffer chunk with
      -- an exception
      | none => c
      | some (buffer, none) => run json stale { c with buffer } chunks
      | some (buffer, some _) => run json stale (ask json stale { c with buffer }) chunks

end CalClient

/-- `main` of the client on its standard input and on what the server sends. -/
def clientMain
    (json : JsonCpp)
    (stale : Nat → Request)
    (text : Bytes)
    (chunks : List Chunk) : CalClient :=
  ((CalClient.start text).ask json stale).run json stale chunks

/-- The number of responses in what the server sends. -/
def answers (json : JsonCpp) : Bytes → List Chunk → Nat
  | _, [] => 0
  | buffer, chunk :: chunks =>
      match clientRound json buffer chunk with
      | none => 0
      | some (buffer, none) => answers json buffer chunks
      | some (buffer, some _) => answers json buffer chunks + 1

/-! ## Calculations in a text -/

/-- A calculation as it is typed. -/
inductive RequestAt : Bytes → Request → Bytes → Prop
  | intro {text behindX behindOp rest : Bytes} {req : Request}
      (x : Istream.IntAt text req.x behindX)
      (op : Istream.CharAt behindX req.op behindOp)
      (y : Istream.IntAt behindOp req.y rest) :
      RequestAt text req rest

/-- The text begins with calculations, one behind the other. -/
inductive BeginsWith : Bytes → List Request → Prop
  | nil {text : Bytes} : BeginsWith text []
  | cons {text rest : Bytes} {req : Request} {requests : List Request}
      (first : RequestAt text req rest)
      (others : BeginsWith rest requests) :
      BeginsWith text (req :: requests)

/-- One frame was sent for every request that was extracted, and nothing more. -/
def OneFrameEach (json : JsonCpp) (c : CalClient) : Prop :=
  c.sent = c.extracted.map (packed json)

/-! ## One extraction -/

variable {json : JsonCpp} {stale : Nat → Request}

@[simp] theorem extract_of_fail
    {is : Istream}
    (fail : is.fail = true)
    (req : Request) :
    extract is req = (req, is) := by
  simp [extract, fail]

/-- What is extracted is a calculation of the text. -/
theorem extract_eq_iff
    {text rest : Bytes}
    {old req : Request} :
    extract ⟨text, false⟩ old = (req, ⟨rest, false⟩) ↔ RequestAt text req rest := by
  constructor
  · intro extracted
    rcases atX : (Istream.mk text false).extractInt old.x with ⟨x, behindX, failX⟩
    cases failX with
    | true => simp [extract, atX] at extracted
    | false =>
        rcases atOp : (Istream.mk behindX false).extractChar old.op with
          ⟨op, behindOp, failOp⟩
        cases failOp with
        | true => simp [extract, atX, atOp] at extracted
        | false =>
            simp only [extract, atX, atOp, Prod.mk.injEq] at extracted
            obtain ⟨rfl, behindY⟩ := extracted
            refine .intro (Istream.extractInt_eq_iff.mp atX)
              (Istream.extractChar_eq_iff.mp atOp) ?_
            exact Istream.extractInt_eq_iff.mp (Prod.ext rfl behindY)
  · rintro ⟨x, op, y⟩
    rw [extract, Istream.extractInt_eq_iff.mpr x]
    dsimp only
    rw [Istream.extractChar_eq_iff.mpr op]
    dsimp only
    rw [Istream.extractInt_eq_iff.mpr y]

/-- A text has one calculation at its start. -/
theorem RequestAt.unique
    {text rest rest' : Bytes}
    {req req' : Request}
    (first : RequestAt text req rest)
    (second : RequestAt text req' rest') :
    req = req' ∧ rest = rest' := by
  have same : extract ⟨text, false⟩ req = (req, ⟨rest, false⟩) :=
    extract_eq_iff.mpr first
  rw [extract_eq_iff.mpr second] at same
  simp only [Prod.mk.injEq, Istream.mk.injEq, and_true] at same
  exact ⟨same.1.symm, same.2.symm⟩

/-! ## One turn -/

namespace CalClient

variable {c : CalClient}

@[simp] theorem buffer_ask (json : JsonCpp) (stale : Nat → Request) (c : CalClient) :
    (c.ask json stale).buffer = c.buffer := rfl

/-- What a turn does: it extracts a calculation of the text and sends it, or there is
none, and it sends a request all the same. -/
theorem ask_cases (json : JsonCpp) (stale : Nat → Request) (c : CalClient) :
    (c.cin.fail = false ∧ ∃ req rest, RequestAt c.cin.rest req rest ∧
      c.ask json stale =
        { c with
          cin := ⟨rest, false⟩
          sent := c.sent ++ [packed json req]
          extracted := c.extracted ++ [req] }) ∨
    ((c.cin.fail = false → ∀ req rest, ¬ RequestAt c.cin.rest req rest) ∧
      ∃ req rest, c.ask json stale =
        { c with
          cin := ⟨rest, true⟩
          sent := c.sent ++ [packed json req] }) := by
  rcases extracted : extract c.cin (stale c.sent.length) with ⟨req, rest, fail⟩
  cases fail with
  | true =>
      right
      refine ⟨fun success old behind typed => ?_, req, rest, ?_⟩
      · have cin : c.cin = ⟨c.cin.rest, false⟩ := by
          rw [← success]
        rw [cin, extract_eq_iff.mpr typed] at extracted
        exact absurd extracted (by simp)
      · rw [ask, extracted]
        rfl
  | false =>
      left
      have success : c.cin.fail = false := by
        by_contra failed
        rw [extract_of_fail (Bool.not_eq_false _ ▸ failed)] at extracted
        exact failed (by rw [(Prod.mk.inj extracted).2])
      have cin : c.cin = ⟨c.cin.rest, false⟩ := by
        rw [← success]
      have typed := extracted
      rw [cin] at typed
      refine ⟨success, req, rest, extract_eq_iff.mp typed, ?_⟩
      rw [ask, extracted]
      rfl

/-- What holds of a client holds after all its turns, if sending and receiving keep it. -/
theorem run_preserves
    {P : CalClient → Prop}
    (asks : ∀ c, P c → P (c.ask json stale))
    (reads : ∀ c buffer, P c → P { c with buffer })
    (before : P c)
    (chunks : List Chunk) :
    P (c.run json stale chunks) := by
  fun_induction CalClient.run json stale c chunks with
  | case1 c => exact before
  | case2 c chunk chunks exception => exact before
  | case3 c chunk chunks buffer unfinished inductionHypothesis =>
      exact inductionHypothesis (reads c buffer before)
  | case4 c chunk chunks buffer resp answered inductionHypothesis =>
      exact inductionHypothesis (asks _ (reads c buffer before))

/-- What was sent is right as long as the stream has not failed; then it is too much. -/
structure Balanced (json : JsonCpp) (c : CalClient) : Prop where
  each : c.cin.fail = false → OneFrameEach json c
  tooMany : c.cin.fail = true → c.extracted.length < c.sent.length

theorem Balanced.extracted_le
    (balanced : c.Balanced json) :
    c.extracted.length ≤ c.sent.length := by
  cases fail : c.cin.fail with
  | true => exact (balanced.tooMany fail).le
  | false => rw [balanced.each fail, List.length_map]

theorem Balanced.oneFrameEach_iff
    (balanced : c.Balanced json) :
    OneFrameEach json c ↔ c.cin.fail = false := by
  constructor
  · intro frames
    by_contra failed
    have more := balanced.tooMany (Bool.not_eq_false _ ▸ failed)
    rw [frames, List.length_map] at more
    exact absurd more (Nat.lt_irrefl _)
  · exact balanced.each

theorem Balanced.ask
    (balanced : c.Balanced json) :
    (c.ask json stale).Balanced json := by
  rcases ask_cases json stale c with
    ⟨success, req, rest, -, asked⟩ | ⟨-, req, rest, asked⟩
  · rw [asked]
    refine ⟨fun _ => ?_, fun failed => absurd failed Bool.false_ne_true⟩
    rw [OneFrameEach, balanced.each success, List.map_append]
    rfl
  · rw [asked]
    refine ⟨fun success => absurd success.symm Bool.false_ne_true, fun _ => ?_⟩
    rw [List.length_append]
    exact Nat.lt_succ_of_le balanced.extracted_le

theorem Balanced.run
    (balanced : c.Balanced json)
    (chunks : List Chunk) :
    (c.run json stale chunks).Balanced json :=
  run_preserves (P := Balanced json) (fun _ => Balanced.ask)
    (fun _ _ before => ⟨before.each, before.tooMany⟩) balanced chunks

/-! ## Turns and answers -/

/-- The input gives the client `n` more calculations. -/
def Supplied (c : CalClient) (n : Nat) : Prop :=
  c.cin.fail = false ∧
    ∃ requests, BeginsWith c.cin.rest requests ∧ n ≤ requests.length

theorem supplied_zero : c.Supplied 0 ↔ c.cin.fail = false := by
  constructor
  · exact And.left
  · intro success
    exact ⟨success, [], .nil, Nat.le_refl 0⟩

/-- A turn uses up one of them. -/
theorem supplied_ask {n : Nat} :
    (c.ask json stale).Supplied n ↔ c.Supplied (n + 1) := by
  rcases ask_cases json stale c with
    ⟨success, req, rest, typed, asked⟩ | ⟨nothing, req, rest, asked⟩
  · rw [asked, Supplied, Supplied]
    refine and_congr (iff_of_true rfl success) ⟨?_, ?_⟩
    · rintro ⟨requests, begins, enough⟩
      exact ⟨req :: requests, .cons typed begins, Nat.succ_le_succ enough⟩
    · rintro ⟨requests, begins, enough⟩
      cases begins with
      | nil => exact absurd enough (Nat.not_succ_le_zero n)
      | cons first others =>
          obtain ⟨-, rfl⟩ := first.unique typed
          exact ⟨_, others, Nat.le_of_succ_le_succ enough⟩
  · refine iff_of_false ?_ ?_
    · rw [asked]
      exact fun supplied => absurd supplied.1.symm Bool.false_ne_true
    · rintro ⟨success, requests, begins, enough⟩
      cases begins with
      | nil => exact absurd enough (Nat.not_succ_le_zero n)
      | cons first others => exact nothing success _ _ first

/-- At the end the stream has not failed if the input had a calculation for every
answer. -/
theorem fail_run_iff (chunks : List Chunk) :
    (c.run json stale chunks).cin.fail = false ↔
      c.Supplied (answers json c.buffer chunks) := by
  fun_induction CalClient.run json stale c chunks with
  | case1 c =>
      rw [answers]
      exact supplied_zero.symm
  | case2 c chunk chunks exception =>
      rw [answers, exception]
      exact supplied_zero.symm
  | case3 c chunk chunks buffer unfinished inductionHypothesis =>
      rw [answers, unfinished]
      exact inductionHypothesis
  | case4 c chunk chunks buffer resp answered inductionHypothesis =>
      rw [answers, answered, inductionHypothesis, supplied_ask, buffer_ask]
      rfl

/-- Each answer is followed by one more request. -/
theorem length_sent_run (chunks : List Chunk) :
    (c.run json stale chunks).sent.length =
      c.sent.length + answers json c.buffer chunks := by
  fun_induction CalClient.run json stale c chunks with
  | case1 c => rfl
  | case2 c chunk chunks exception =>
      rw [answers, exception]
      rfl
  | case3 c chunk chunks buffer unfinished inductionHypothesis =>
      rw [answers, unfinished]
      exact inductionHypothesis
  | case4 c chunk chunks buffer resp answered inductionHypothesis =>
      have sent : ((ask json stale { c with buffer }).sent).length = c.sent.length + 1 :=
        List.length_append
      rw [answers, answered, inductionHypothesis, sent, buffer_ask]
      dsimp only
      omega

/-- What was extracted is at the start of the input, and a stream that has not failed
is right behind it. -/
structure Reads (text : Bytes) (c : CalClient) : Prop where
  begun : BeginsWith text c.extracted
  behind : c.cin.fail = false → ∀ requests, BeginsWith c.cin.rest requests →
    BeginsWith text (c.extracted ++ requests)

theorem Reads.ask
    {text : Bytes}
    (reads : c.Reads text) :
    (c.ask json stale).Reads text := by
  rcases ask_cases json stale c with
    ⟨success, req, rest, typed, asked⟩ | ⟨-, req, rest, asked⟩
  · rw [asked]
    refine ⟨reads.behind success _ (.cons typed .nil), fun _ requests begins => ?_⟩
    rw [List.append_assoc]
    exact reads.behind success _ (.cons typed begins)
  · rw [asked]
    exact ⟨reads.begun, fun success => absurd success.symm Bool.false_ne_true⟩

theorem Reads.run
    {text : Bytes}
    (reads : c.Reads text)
    (chunks : List Chunk) :
    (c.run json stale chunks).Reads text :=
  run_preserves (P := Reads text) (fun _ => Reads.ask)
    (fun _ _ before => ⟨before.begun, before.behind⟩) reads chunks

end CalClient

/-! ## The whole run -/

variable (json : JsonCpp) (stale : Nat → Request) (text : Bytes) (chunks : List Chunk)

/-- Every answer, right or wrong, makes the client send once more. -/
theorem length_sent_clientMain :
    (clientMain json stale text chunks).sent.length = answers json [] chunks + 1 := by
  rw [clientMain, CalClient.length_sent_run, CalClient.buffer_ask]
  exact Nat.add_comm _ _

/-- What the client extracts are the calculations at the start of its input. -/
theorem beginsWith_extracted :
    BeginsWith text (clientMain json stale text chunks).extracted := by
  have start : (CalClient.start text).Reads text := ⟨.nil, fun _ _ => id⟩
  have asked : ((CalClient.start text).ask json stale).Reads text := start.ask
  have reads : (clientMain json stale text chunks).Reads text := asked.run chunks
  exact reads.begun

/-- The client sends one frame for every calculation that it extracts and nothing more,
exactly as long as the server answers fewer times than the input has calculations at its
start. -/
theorem oneFrameEach_clientMain_iff
    (json : JsonCpp)
    (stale : Nat → Request)
    (text : Bytes)
    (chunks : List Chunk) :
    OneFrameEach json (clientMain json stale text chunks) ↔
      ∃ requests, BeginsWith text requests ∧ answers json [] chunks < requests.length := by
  have start : (CalClient.start text).Balanced json := ⟨fun _ => rfl, fun failed =>
    absurd failed Bool.false_ne_true⟩
  have asked : ((CalClient.start text).ask json stale).Balanced json := start.ask
  have balanced : (clientMain json stale text chunks).Balanced json := asked.run chunks
  rw [balanced.oneFrameEach_iff, clientMain, CalClient.fail_run_iff,
    CalClient.supplied_ask]
  exact and_iff_right rfl

/-- "2147483648+1" -/
def tooLarge : Bytes := [50, 49, 52, 55, 52, 56, 51, 54, 52, 56, 43, 49]

/-- Of a number that is no `int` the client sends the largest one, with the operator and
the second number that were in memory. -/
theorem oneFrameEach_tooLarge :
    ¬ OneFrameEach fastJson (clientMain fastJson (fun _ => ⟨7, 1, 43⟩) tooLarge []) ∧
      (clientMain fastJson (fun _ => ⟨7, 1, 43⟩) tooLarge []).sent =
        [packed fastJson ⟨2147483647, 1, 43⟩] := by
  have extracted : extract ⟨tooLarge, false⟩ ⟨7, 1, 43⟩ =
      (⟨2147483647, 1, 43⟩, ⟨[43, 49], true⟩) := by
    decide +kernel
  constructor
  · intro frames
    have lengths := congrArg List.length frames
    simp [clientMain, CalClient.run, CalClient.ask, CalClient.start, extracted] at lengths
  · simp [clientMain, CalClient.run, CalClient.ask, CalClient.start, extracted]

end NetCal
end LearnInLinux
