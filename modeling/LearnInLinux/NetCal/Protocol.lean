import LearnInLinux.NetCal.Framing

/-!
# Requests and responses of the network calculator

Requests and responses travel as JSON objects of numbers. The JSON library is
not part of the repository: `JsonCpp` holds the two things the program asks of
it, and `RoundTrips` what it promises about the objects the program writes.
-/

namespace LearnInLinux
namespace NetCal

/-- The JSON library as the program uses it. -/
structure JsonCpp where
  /-- `FastWriter::write` of an object with number members. -/
  write : List (Bytes × Int32) → Bytes
  /-- `Reader::parse(text, root)` and then `root[key].asInt()`; `none` is a thrown
  exception. -/
  readInt : Bytes → Bytes → Option Int32

/-- At most five different keys, short words of lower-case letters. -/
def PlainKeys (keys : List Bytes) : Prop :=
  keys.Nodup ∧ keys.length ≤ 5 ∧
    ∀ key ∈ keys, key.length ≤ 6 ∧ ∀ byte ∈ key, 97 ≤ byte ∧ byte ≤ 122

instance (keys : List Bytes) : Decidable (PlainKeys keys) :=
  decidable_of_iff
    (keys.Nodup ∧ keys.length ≤ 5 ∧ ∀ key ∈ keys,
      key.length ≤ 6 ∧ key.all (fun byte => 97 ≤ byte ∧ byte ≤ 122) = true)
    (by simp [PlainKeys])

/-- Small objects of numbers are written as short nonempty text without NUL bytes,
and every member is read back from it. -/
structure JsonCpp.RoundTrips (json : JsonCpp) : Prop where
  readInt_write : ∀ members key number, PlainKeys (members.map Prod.fst) →
    (key, number) ∈ members → json.readInt (json.write members) key = some number
  write_ne_nil : ∀ members, PlainKeys (members.map Prod.fst) →
    json.write members ≠ []
  nul_not_mem_write : ∀ members, PlainKeys (members.map Prod.fst) →
    0 ∉ json.write members
  write_short : ∀ members, PlainKeys (members.map Prod.fst) →
    (json.write members).length < 2 ^ 31

/-- Promotion of a (signed) `char` to `int`. -/
def intOfChar (op : UInt8) : Int32 :=
  op.toInt8.toInt32

/-- Conversion of an `int` to `char`. -/
def charOfInt (number : Int32) : UInt8 :=
  number.toInt8.toUInt8

@[simp] theorem charOfInt_intOfChar (op : UInt8) :
    charOfInt (intOfChar op) = op := by
  simp [charOfInt, intOfChar]

/-- A calculation typed at a client. -/
structure Request where
  x : Int32
  y : Int32
  op : UInt8
  deriving DecidableEq

namespace Request

/-- Members of the JSON object: `x`, `y` and `op`. -/
def members (self : Request) : List (Bytes × Int32) :=
  [([120], self.x), ([121], self.y), ([111, 112], intOfChar self.op)]

/-- `Request::Serialize` -/
def serialize (json : JsonCpp) (self : Request) : Bytes :=
  json.write self.members

/-- Read the members of `str`; `none` is a thrown exception. -/
def deserialized (json : JsonCpp) (str : Bytes) : Option Request := do
  let x ← json.readInt str [120]
  let y ← json.readInt str [121]
  let op ← json.readInt str [111, 112]
  some { x, y, op := charOfInt op }

end Request

/-- The answer, which repeats the calculation. -/
structure Response where
  result : Int32
  code : Int32
  x : Int32
  y : Int32
  op : UInt8
  deriving DecidableEq

namespace Response

/-- Members of the JSON object: `code`, `result`, `xx`, `yy` and `zz`. -/
def members (self : Response) : List (Bytes × Int32) :=
  [([99, 111, 100, 101], self.code), ([114, 101, 115, 117, 108, 116], self.result),
    ([120, 120], self.x), ([121, 121], self.y), ([122, 122], intOfChar self.op)]

/-- `Response::Serialize` -/
def serialize (json : JsonCpp) (self : Response) : Bytes :=
  json.write self.members

/-- Read the members of `s`; `none` is a thrown exception. -/
def deserialized (json : JsonCpp) (s : Bytes) : Option Response := do
  let code ← json.readInt s [99, 111, 100, 101]
  let result ← json.readInt s [114, 101, 115, 117, 108, 116]
  let x ← json.readInt s [120, 120]
  let y ← json.readInt s [121, 121]
  let op ← json.readInt s [122, 122]
  some { result, code, x, y, op := charOfInt op }

end Response

/-- `Recv`: one chunk is appended as a C string. -/
def recv (chunk : Chunk) (out : Bytes) : Bytes :=
  out ++ chunk.text

/-! ## Round trips -/

theorem Request.plainKeys (self : Request) :
    PlainKeys (self.members.map Prod.fst) := by
  change PlainKeys [[120], [121], [111, 112]]
  decide +kernel

theorem Response.plainKeys (self : Response) :
    PlainKeys (self.members.map Prod.fst) := by
  change PlainKeys [[99, 111, 100, 101], [114, 101, 115, 117, 108, 116], [120, 120],
    [121, 121], [122, 122]]
  decide +kernel

namespace JsonCpp.RoundTrips

variable {json : JsonCpp}

theorem request
    (laws : json.RoundTrips)
    (req : Request) :
    Request.deserialized json (req.serialize json) = some req := by
  have member (key : Bytes) (number : Int32)
      (present : (key, number) ∈ req.members) :=
    laws.readInt_write req.members key number req.plainKeys present
  rw [Request.deserialized, Request.serialize,
    member [120] req.x (by simp [Request.members]),
    member [121] req.y (by simp [Request.members]),
    member [111, 112] (intOfChar req.op) (by simp [Request.members])]
  simp

theorem response
    (laws : json.RoundTrips)
    (resp : Response) :
    Response.deserialized json (resp.serialize json) = some resp := by
  have member (key : Bytes) (number : Int32)
      (present : (key, number) ∈ resp.members) :=
    laws.readInt_write resp.members key number resp.plainKeys present
  rw [Response.deserialized, Response.serialize,
    member [99, 111, 100, 101] resp.code (by simp [Response.members]),
    member [114, 101, 115, 117, 108, 116] resp.result (by simp [Response.members]),
    member [120, 120] resp.x (by simp [Response.members]),
    member [121, 121] resp.y (by simp [Response.members]),
    member [122, 122] (intOfChar resp.op) (by simp [Response.members])]
  simp

end JsonCpp.RoundTrips

end NetCal
end LearnInLinux
