import LearnInLinux.NetCal.Json
import LearnInLinux.Reactor.Codec

/-!
# The two builds of the network calculator

With `MYSELF` defined, requests and responses travel as numbers between blanks instead
of JSON objects. Both builds share the client, which prints what a response holds. A
response in JSON repeats the calculation; the hand-written one is a code and a result.
-/

namespace LearnInLinux
namespace NetCal

open Text Decimal

/-- `SPACE` -/
def space : Bytes := [32]

namespace Myself

/-! ## The hand-written codec -/

namespace Request

/-- `Request::Serialize` under `MYSELF` -/
def serialize (self : Request) : Bytes :=
  toText self.x.toInt ++ space ++ [self.op] ++ space ++ toText self.y.toInt

/-- Parse `str` into the fields. Result: the verdict and the fields afterwards. -/
def deserialized (self : Request) (str : Bytes) : Bool × Request :=
  match find space str with
  | none => (false, self)
  | some left =>
      match rfind space str with
      | none => (false, self)
      | some right =>
          let self := { self with x := atoi (substr str 0 left) }
          let self := { self with
            y := atoi (substr str (right + space.length) str.length) }
          if left + space.length > str.length then (false, self)
          else (true, { self with op := str.getD (left + space.length) 0 })

end Request

namespace Response

/-- `Response::Serialize` under `MYSELF` -/
def serialize (self : Response) : Bytes :=
  toText self.code.toInt ++ space ++ toText self.result.toInt

/-- Parse `s` into the fields. Result: the verdict and the fields afterwards. -/
def deserialized (self : Response) (s : Bytes) : Bool × Response :=
  match find space s with
  | none => (false, self)
  | some pos =>
      let self := { self with code := atoi (substr s 0 pos) }
      (true, { self with
        result := atoi (substr s (pos + space.length) s.length) })

end Response

/-! ## The codec of the reactor server -/

/-- The request as the reactor server holds it. -/
def toReactor (req : NetCal.Request) : Reactor.Request where
  x := req.x
  y := req.y
  op := req.op

/-- The request of the other server, with the same fields. -/
def ofReactor (req : Reactor.Request) : NetCal.Request where
  x := req.x
  y := req.y
  op := req.op

/-- The parser is a copy of the one of the reactor server. -/
theorem Request.deserialized_eq (self : NetCal.Request) (str : Bytes) :
    Request.deserialized self str =
      (((toReactor self).deserialized str).1,
        ofReactor ((toReactor self).deserialized str).2) := by
  rw [Request.deserialized, Reactor.Request.deserialized, show Reactor.space = space from rfl]
  cases find space str with
  | none => rfl
  | some left =>
      cases rfind space str with
      | none => rfl
      | some right =>
          dsimp only
          split
          · rfl
          · rfl

theorem Request.deserialized_serialize (req stale : NetCal.Request) :
    Request.deserialized stale (Request.serialize req) = (true, req) := by
  have copied : Request.serialize req = (toReactor req).serialize := rfl
  rw [Request.deserialized_eq, copied, Reactor.Request.deserialized_serialize]
  rfl

/-- And so is the parser of responses, which knows nothing of the calculation. -/
theorem Response.deserialized_eq (self : NetCal.Response) (s : Bytes) :
    Response.deserialized self s =
      let parsed := ({ result := self.result, code := self.code } :
        Reactor.Response).deserialized s
      (parsed.1, { self with code := parsed.2.code, result := parsed.2.result }) := by
  rw [Response.deserialized, Reactor.Response.deserialized,
    show Reactor.space = space from rfl]
  cases find space s with
  | none => rfl
  | some pos => rfl

/-- A response is restored up to the calculation, which is left as it was. -/
theorem Response.deserialized_serialize (resp stale : NetCal.Response) :
    Response.deserialized stale (Response.serialize resp) =
      (true, { stale with code := resp.code, result := resp.result }) := by
  have copied : Response.serialize resp =
      ({ result := resp.result, code := resp.code } : Reactor.Response).serialize := rfl
  rw [Response.deserialized_eq, copied, Reactor.Response.deserialized_serialize]

end Myself

/-! ## What the client prints -/

/-- A line of the client. -/
inductive Line
  | cout (text : Bytes)
  | cerr (text : Bytes)
  deriving DecidableEq

/-- "除0错误" -/
def divideError : Bytes := [233, 153, 164, 48, 233, 148, 153, 232, 175, 175]

/-- "模0错误" -/
def moduloError : Bytes := [230, 168, 161, 48, 233, 148, 153, 232, 175, 175]

/-- "非法操作" -/
def illegalOperation : Bytes := [233, 157, 158, 230, 179, 149, 230, 147, 141, 228, 189, 156]

/-- " = " -/
def equalSign : Bytes := [32, 61, 32]

/-- " [success]" -/
def successMark : Bytes := [32, 91, 115, 117, 99, 99, 101, 115, 115, 93]

/-- The `switch` of the client over `resp.code_`. -/
def Response.line (resp : Response) : Line :=
  if resp.code = 1 then .cerr (divideError ++ [10])
  else if resp.code = 2 then .cerr (moduloError ++ [10])
  else if resp.code = 3 then .cerr (illegalOperation ++ [10])
  else
    .cout (toText resp.x.toInt ++ [resp.op] ++ toText resp.y.toInt ++ equalSign ++
      toText resp.result.toInt ++ successMark ++ [10])

/-! ## Agreement -/

/-- Both builds restore the request and the response, and the client prints the same
line. The objects hold the `stale` values before they are filled. -/
structure BuildsAgree
    (json : JsonCpp)
    (req staleReq : Request)
    (resp staleResp : Response) : Prop where
  request_json : Request.deserialized json (req.serialize json) = some req
  request_myself : Myself.Request.deserialized staleReq (Myself.Request.serialize req) =
    (true, req)
  response_json : Response.deserialized json (resp.serialize json) = some resp
  response_myself :
    Myself.Response.deserialized staleResp (Myself.Response.serialize resp) = (true, resp)
  line : (Myself.Response.deserialized staleResp (Myself.Response.serialize resp)).2.line =
    resp.line

/-- The builds agree exactly on responses whose calculation is already in the object that
is filled. -/
theorem buildsAgree_iff
    (json : JsonCpp)
    (laws : json.RoundTrips)
    (req staleReq : Request)
    (resp staleResp : Response) :
    BuildsAgree json req staleReq resp staleResp ↔
      staleResp.x = resp.x ∧ staleResp.y = resp.y ∧ staleResp.op = resp.op := by
  constructor
  · intro agree
    have restored := agree.response_myself
    rw [Myself.Response.deserialized_serialize, Prod.mk.injEq] at restored
    rw [← restored.2]
    exact ⟨rfl, rfl, rfl⟩
  · rintro ⟨sameX, sameY, sameOp⟩
    have restored :
        Myself.Response.deserialized staleResp (Myself.Response.serialize resp) =
          (true, resp) := by
      rw [Myself.Response.deserialized_serialize, sameX, sameY, sameOp]
    constructor
    · exact laws.request req
    · exact Myself.Request.deserialized_serialize req staleReq
    · exact laws.response resp
    · exact restored
    · rw [restored]

/-- `1 + 2 = 3`, filled into the object of the same calculation. -/
theorem buildsAgree_repeated :
    BuildsAgree fastJson ⟨1, 2, 43⟩ ⟨0, 0, 0⟩ ⟨3, 0, 1, 2, 43⟩ ⟨9, 9, 1, 2, 43⟩ :=
  (buildsAgree_iff fastJson fastJson_roundTrips _ _ _ _).mpr ⟨rfl, rfl, rfl⟩

/-- Filled into an object of zeros, the same response is printed as another
calculation. -/
theorem builds_differ :
    ¬ BuildsAgree fastJson ⟨1, 2, 43⟩ ⟨0, 0, 0⟩ ⟨3, 0, 1, 2, 43⟩ ⟨0, 0, 0, 0, 0⟩ ∧
      (Myself.Response.deserialized ⟨0, 0, 0, 0, 0⟩
        (Myself.Response.serialize ⟨3, 0, 1, 2, 43⟩)).2.line ≠
          Response.line ⟨3, 0, 1, 2, 43⟩ := by
  have line : (Myself.Response.deserialized ⟨0, 0, 0, 0, 0⟩
      (Myself.Response.serialize ⟨3, 0, 1, 2, 43⟩)).2.line ≠
        Response.line ⟨3, 0, 1, 2, 43⟩ := by
    decide +kernel
  exact ⟨fun agree => line agree.line, line⟩

end NetCal
end LearnInLinux
