import LearnInLinux.Calculators

/-!
# Malformed packages

`Request::Deserialized` does not report whether a package was one of its requests. What
the JSON library makes of a package that is no request goes on to the `switch` of the
server. Here the library reads values, so that a member can be missing or no integer.
-/

namespace LearnInLinux
namespace NetCal

/-! ## The library with its values -/

/-- `Json::Value` -/
inductive JsonValue
  | null
  | int (number : Int)
  | real (number : ℚ)
  | bool (value : Bool)
  | string (text : Bytes)
  | array (items : List JsonValue)
  | object (members : List (Bytes × JsonValue))

/-- The JSON library with the steps of a `Deserialized`. -/
structure Jsoncpp where
  write : List (Bytes × Int32) → Bytes
  /-- The value of a JSON text. -/
  denotes : Bytes → Option JsonValue
  /-- `root` behind `reader.parse(text, root)`. -/
  parse : Bytes → JsonValue
  /-- `root[key]`; `none` is a thrown exception. -/
  index : JsonValue → Bytes → Option JsonValue
  /-- `value.asInt()`; `none` is a thrown exception. -/
  asInt : JsonValue → Option Int32

/-- What the library documents: text that is not JSON leaves a null value, a missing
member reads as null, and null as 0. -/
structure Jsoncpp.Documented (lib : Jsoncpp) : Prop where
  parse_json : ∀ text value, lib.denotes text = some value → lib.parse text = value
  parse_other : ∀ text, lib.denotes text = none → lib.parse text = .null
  index_member : ∀ members key value, members.lookup key = some value →
    lib.index (.object members) key = some value
  index_missing : ∀ members key, members.lookup key = none →
    lib.index (.object members) key = some .null
  index_null : ∀ key, lib.index .null key = some .null
  asInt_null : lib.asInt .null = some 0
  asInt_int : ∀ number : Int32, lib.asInt (.int number.toInt) = some number

/-- The library as the program uses it. -/
def Jsoncpp.toJsonCpp (lib : Jsoncpp) : JsonCpp where
  write := lib.write
  readInt text key := (lib.index (lib.parse text) key).bind lib.asInt

/-- "x" -/
def keyX : Bytes := [120]

/-- "y" -/
def keyY : Bytes := [121]

/-- "op" -/
def keyOp : Bytes := [111, 112]

/-- The response of the server to a package. -/
def answer (json : JsonCpp) (package : Bytes) : Option Response :=
  (Request.deserialized json package).bind calculatorHelper

theorem respond_eq (json : JsonCpp) (package : Bytes) :
    respond json package =
      (answer json package).map fun resp => encode (resp.serialize json) := by
  rw [respond, answer]
  cases Request.deserialized json package with
  | none => rfl
  | some req =>
      cases calculated : calculatorHelper req with
      | none => simp [calculated]
      | some resp => simp [calculated]

/-! ## Requests and other packages -/

/-- The operators of the `switch`. -/
def operators : List UInt8 := [43, 45, 42, 47, 37]

/-- The package is a JSON object with the integers of the request. -/
def IsRequest (lib : Jsoncpp) (package : Bytes) (req : Request) : Prop :=
  ∃ members, lib.denotes package = some (.object members) ∧
    members.lookup keyX = some (.int req.x.toInt) ∧
    members.lookup keyY = some (.int req.y.toInt) ∧
    members.lookup keyOp = some (.int req.op.toNat) ∧
    req.op ∈ operators

/-- Code 0 is for requests, with the result of their operation. -/
def RejectsMalformed (lib : Jsoncpp) (package : Bytes) : Prop :=
  ∀ resp, answer lib.toJsonCpp package = some resp → resp.code = 0 →
    ∃ req operation, IsRequest lib package req ∧
      requested req.op req.x req.y = some operation ∧
      operation.run = some resp.result

/-- The `switch` has no success for these operands. -/
def Refused (op : UInt8) (x y : Int32) : Prop :=
  op ∉ operators ∨ (op = 47 ∨ op = 37) ∧ (y = 0 ∨ Traps x y)

theorem refused_iff {op : UInt8} {x y : Int32} :
    Refused op x y ↔ ∀ result, switchOp op x y ≠ some (result, 0) := by
  unfold Refused operators switchOp
  split
  case h_4 =>
      rw [guarded_refused_iff (by decide)]
      simp
  case h_5 =>
      rw [guarded_refused_iff (by decide)]
      simp
  all_goals simp_all

/-- A success is the result of an operation. -/
theorem requested_of_success
    {op : UInt8}
    {x y result : Int32}
    (success : switchOp op x y = some (result, 0)) :
    ∃ operation, requested op x y = some operation ∧ operation.run = some result := by
  rcases switchOp_cases op x y with
    ⟨operation, isRequested, _, _, runs⟩ | ⟨_, code, failed, answered⟩
  · rw [runs, Option.map_eq_some_iff] at success
    obtain ⟨computed, ran, equal⟩ := success
    rw [Prod.mk.injEq] at equal
    exact ⟨operation, isRequested, by rw [ran, equal.1]⟩
  · rw [answered, Option.some.injEq, Prod.mk.injEq] at success
    exact absurd success.2 failed

/-! ## What the server reads -/

theorem deserialized_eq_some_iff
    {json : JsonCpp}
    {package : Bytes}
    {req : Request} :
    Request.deserialized json package = some req ↔
      ∃ op, json.readInt package keyX = some req.x ∧
        json.readInt package keyY = some req.y ∧
        json.readInt package keyOp = some op ∧ charOfInt op = req.op := by
  simp only [Request.deserialized, Option.bind_eq_bind, Option.bind_eq_some_iff,
    Option.some.injEq]
  constructor
  · rintro ⟨x, readX, y, readY, op, readOp, rfl⟩
    exact ⟨op, readX, readY, readOp, rfl⟩
  · rintro ⟨op, readX, readY, readOp, narrowed⟩
    refine ⟨req.x, readX, req.y, readY, op, readOp, ?_⟩
    rw [narrowed]

/-- The responses with code 0 and their results. -/
theorem answer_success_iff
    {json : JsonCpp}
    {package : Bytes}
    {result : Int32} :
    (∃ resp, answer json package = some resp ∧ resp.code = 0 ∧ resp.result = result) ↔
      ∃ req, Request.deserialized json package = some req ∧
        switchOp req.op req.x req.y = some (result, 0) := by
  simp only [answer, calculatorHelper, Option.bind_eq_some_iff, Option.map_eq_some_iff]
  constructor
  · rintro ⟨resp, ⟨req, parsed, ⟨computed, code⟩, switched, rfl⟩, success, equal⟩
    refine ⟨req, parsed, ?_⟩
    rw [switched, ← equal, ← success]
  · rintro ⟨req, parsed, switched⟩
    exact ⟨_, ⟨req, parsed, (result, 0), switched, rfl⟩, rfl, rfl⟩

section

variable {lib : Jsoncpp} {package : Bytes} {req : Request}

/-- The operators are characters below 128, so that the sign of `char` does not
matter. -/
theorem toInt_intOfChar
    {op : UInt8}
    (isOperator : op ∈ operators) :
    (intOfChar op).toInt = op.toNat := by
  simp only [operators, List.mem_cons, List.not_mem_nil, or_false] at isOperator
  rcases isOperator with rfl | rfl | rfl | rfl | rfl <;> decide

theorem Jsoncpp.Documented.readInt_member
    (documented : lib.Documented)
    {members : List (Bytes × JsonValue)}
    (isObject : lib.denotes package = some (.object members))
    {key : Bytes}
    {number : Int32}
    (member : members.lookup key = some (.int number.toInt)) :
    lib.toJsonCpp.readInt package key = some number := by
  change (lib.index (lib.parse package) key).bind lib.asInt = _
  rw [documented.parse_json package _ isObject, documented.index_member _ _ _ member,
    Option.bind_some, documented.asInt_int]

/-- A missing member is read as 0. -/
theorem Jsoncpp.Documented.readInt_missing
    (documented : lib.Documented)
    {members : List (Bytes × JsonValue)}
    (isObject : lib.denotes package = some (.object members))
    {key : Bytes}
    (missing : members.lookup key = none) :
    lib.toJsonCpp.readInt package key = some 0 := by
  change (lib.index (lib.parse package) key).bind lib.asInt = _
  rw [documented.parse_json package _ isObject, documented.index_missing _ _ missing,
    Option.bind_some, documented.asInt_null]

/-- And so is every member of a text that is not JSON. -/
theorem Jsoncpp.Documented.readInt_other
    (documented : lib.Documented)
    (other : lib.denotes package = none)
    (key : Bytes) :
    lib.toJsonCpp.readInt package key = some 0 := by
  change (lib.index (lib.parse package) key).bind lib.asInt = _
  rw [documented.parse_other package other, documented.index_null,
    Option.bind_some, documented.asInt_null]

/-- A request is read as it is written. -/
theorem IsRequest.deserialized
    (documented : lib.Documented)
    (isRequest : IsRequest lib package req) :
    Request.deserialized lib.toJsonCpp package = some req := by
  obtain ⟨members, isObject, memberX, memberY, memberOp, isOperator⟩ := isRequest
  rw [← toInt_intOfChar isOperator] at memberOp
  rw [deserialized_eq_some_iff]
  refine ⟨intOfChar req.op, ?_, ?_, ?_, charOfInt_intOfChar req.op⟩
  · exact documented.readInt_member isObject memberX
  · exact documented.readInt_member isObject memberY
  · exact documented.readInt_member isObject memberOp

theorem rejectsMalformed_of_isRequest
    (documented : lib.Documented)
    (isRequest : IsRequest lib package req) :
    RejectsMalformed lib package := by
  intro resp answered code
  obtain ⟨read, parsed, success⟩ := answer_success_iff.mp ⟨resp, answered, code, rfl⟩
  have asWritten := isRequest.deserialized documented
  rw [parsed, Option.some.injEq] at asWritten
  subst asWritten
  obtain ⟨operation, isRequested, ran⟩ := requested_of_success success
  exact ⟨read, operation, isRequest, isRequested, ran⟩

theorem rejectsMalformed_of_refused
    (refused : ∀ x y op, lib.toJsonCpp.readInt package keyX = some x →
      lib.toJsonCpp.readInt package keyY = some y →
      lib.toJsonCpp.readInt package keyOp = some op →
      Refused (charOfInt op) x y) :
    RejectsMalformed lib package := by
  intro resp answered code
  obtain ⟨read, parsed, success⟩ := answer_success_iff.mp ⟨resp, answered, code, rfl⟩
  obtain ⟨op, readX, readY, readOp, narrowed⟩ := deserialized_eq_some_iff.mp parsed
  have noSuccess := refused read.x read.y op readX readY readOp
  rw [narrowed, refused_iff] at noSuccess
  exact absurd success (noSuccess resp.result)

/-- A success for something that is no request is what the server must not send. -/
theorem not_rejectsMalformed_of_success
    {result : Int32}
    (parsed : Request.deserialized lib.toJsonCpp package = some req)
    (success : switchOp req.op req.x req.y = some (result, 0))
    (malformed : ∀ req, ¬IsRequest lib package req) :
    ¬RejectsMalformed lib package := by
  intro rejects
  obtain ⟨resp, answered, code, -⟩ := answer_success_iff.mpr ⟨req, parsed, success⟩
  obtain ⟨written, -, isRequest, -⟩ := rejects resp answered code
  exact malformed written isRequest

/-- Without an operator there is no success. -/
theorem rejectsMalformed_of_readOp_zero
    (readZero : lib.toJsonCpp.readInt package keyOp = some 0) :
    RejectsMalformed lib package := by
  apply rejectsMalformed_of_refused
  intro x y op _ _ readOp
  rw [readZero, Option.some.injEq] at readOp
  left
  rw [← readOp]
  decide

theorem rejectsMalformed_of_other
    (documented : lib.Documented)
    (other : lib.denotes package = none) :
    RejectsMalformed lib package :=
  rejectsMalformed_of_readOp_zero (documented.readInt_other other keyOp)

theorem rejectsMalformed_of_missing_op
    (documented : lib.Documented)
    {members : List (Bytes × JsonValue)}
    (isObject : lib.denotes package = some (.object members))
    (missing : members.lookup keyOp = none) :
    RejectsMalformed lib package :=
  rejectsMalformed_of_readOp_zero (documented.readInt_missing isObject missing)

end

/-- The server rejects a package exactly if it is a request or the `switch` refuses what
its members are read as. An exception of the library ends the process. -/
theorem rejectsMalformed_iff
    (lib : Jsoncpp)
    (documented : lib.Documented)
    (package : Bytes) :
    RejectsMalformed lib package ↔
      (∃ req, IsRequest lib package req) ∨
        ∀ x y op, lib.toJsonCpp.readInt package keyX = some x →
          lib.toJsonCpp.readInt package keyY = some y →
          lib.toJsonCpp.readInt package keyOp = some op →
          Refused (charOfInt op) x y := by
  constructor
  · intro rejects
    by_cases isRequest : ∃ req, IsRequest lib package req
    · exact Or.inl isRequest
    · right
      intro x y op readX readY readOp
      rw [refused_iff]
      intro result success
      have parsed : Request.deserialized lib.toJsonCpp package =
          some ⟨x, y, charOfInt op⟩ :=
        deserialized_eq_some_iff.mpr ⟨op, readX, readY, readOp, rfl⟩
      exact not_rejectsMalformed_of_success parsed success (not_exists.mp isRequest) rejects
  · rintro (⟨req, isRequest⟩ | refused)
    · exact rejectsMalformed_of_isRequest documented isRequest
    · exact rejectsMalformed_of_refused refused

/-! ## A library for objects of integers -/

/-- A value as `int`: numbers are truncated, an object or a text is an exception. -/
def JsonValue.asInt : JsonValue → Option Int32
  | null => some 0
  | int number => if Fits number then some (Int32.ofInt number) else none
  | real number =>
      if Fits ⌈number⌉ ∧ Fits ⌊number⌋ then
        some (Int32.ofInt (number.num.tdiv number.den))
      else none
  | bool value => some (if value then 1 else 0)
  | _ => none

/-- The member of an object under a key; a null is read as an empty object. -/
def JsonValue.index : JsonValue → Bytes → Option JsonValue
  | null, _ => some null
  | object members, key => some ((members.lookup key).getD null)
  | _, _ => none

/-- The members of a text as the writer of the library makes it. -/
def integers (text : Bytes) : Option JsonValue :=
  if objectText (readObject text) = text then
    some (.object ((readObject text).map fun member => (member.1, .int member.2.toInt)))
  else none

/-- The library restricted to the texts it writes itself. -/
def integerJson : Jsoncpp where
  write := objectText
  denotes := integers
  parse text := (integers text).getD .null
  index := JsonValue.index
  asInt := JsonValue.asInt

theorem integerJson_documented : integerJson.Documented where
  parse_json text value isJson := by
    change (integers text).getD .null = value
    rw [show integers text = some value from isJson, Option.getD_some]
  parse_other text other := by
    change (integers text).getD .null = .null
    rw [show integers text = none from other, Option.getD_none]
  index_member members key value member := by
    change some ((members.lookup key).getD .null) = some value
    rw [member, Option.getD_some]
  index_missing members key missing := by
    change some ((members.lookup key).getD .null) = some .null
    rw [missing, Option.getD_none]
  index_null key := rfl
  asInt_null := rfl
  asInt_int number := by
    change (if Fits number.toInt then some (Int32.ofInt number.toInt) else none) = _
    rw [if_pos (fits_toInt number), Int32.ofInt_toInt]

theorem denotes_objectText
    {members : List (Bytes × Int32)}
    (nonempty : members ≠ [])
    (words : ∀ member ∈ members, Word member.1)
    (inOrder : sorted members = members) :
    integerJson.denotes (objectText members) =
      some (.object (members.map fun member => (member.1, .int member.2.toInt))) := by
  have parsed : readObject (objectText members) = members := by
    rw [readObject_objectText nonempty words, inOrder]
  have reader : integerJson.denotes = integers := rfl
  rw [reader, integers, parsed, if_pos rfl]

/-- `{"op":op,"x":1,"y":2}` -/
def onePlusTwo (op : Int32) : Bytes :=
  objectText [(keyOp, op), (keyX, 1), (keyY, 2)]

/-- `{"op":43}` -/
def onlyPlus : Bytes :=
  objectText [(keyOp, 43)]

theorem denotes_onePlusTwo (op : Int32) :
    integerJson.denotes (onePlusTwo op) =
      some (.object [(keyOp, .int op.toInt), (keyX, .int (1 : Int32).toInt),
        (keyY, .int (2 : Int32).toInt)]) := by
  rw [onePlusTwo, denotes_objectText (List.cons_ne_nil _ _)]
  · rfl
  · simp [Word, keyOp, keyX, keyY]
  · rfl

theorem denotes_onlyPlus :
    integerJson.denotes onlyPlus =
      some (.object [(keyOp, .int (43 : Int32).toInt)]) := by
  rw [onlyPlus, denotes_objectText (List.cons_ne_nil _ _)]
  · rfl
  · simp [Word, keyOp]
  · rfl

/-- `1 + 2` is a request and is answered. -/
theorem rejectsMalformed_onePlusTwo :
    integerJson.Documented ∧ RejectsMalformed integerJson (onePlusTwo 43) := by
  refine ⟨integerJson_documented, ?_⟩
  rw [rejectsMalformed_iff integerJson integerJson_documented]
  left
  exact ⟨⟨1, 2, 43⟩, _, denotes_onePlusTwo 43, rfl, rfl, rfl, by decide⟩

/-- The code 299 is `+` once it is a `char`, and operands that are missing are 0: neither
package is a request, and both get a success. -/
theorem not_rejectsMalformed_integerJson :
    integerJson.Documented ∧
      ¬RejectsMalformed integerJson (onePlusTwo 299) ∧
      ¬RejectsMalformed integerJson onlyPlus := by
  refine ⟨integerJson_documented, ?_, ?_⟩
  · have parsed : Request.deserialized integerJson.toJsonCpp (onePlusTwo 299) =
        some ⟨1, 2, 43⟩ := by
      rw [deserialized_eq_some_iff]
      refine ⟨299, ?_, ?_, ?_, by decide⟩
      · exact integerJson_documented.readInt_member (denotes_onePlusTwo 299) rfl
      · exact integerJson_documented.readInt_member (denotes_onePlusTwo 299) rfl
      · exact integerJson_documented.readInt_member (denotes_onePlusTwo 299) rfl
    apply not_rejectsMalformed_of_success parsed rfl
    -- no `char` has the code 299
    rintro req ⟨members, isObject, -, -, memberOp, -⟩
    rw [denotes_onePlusTwo, Option.some.injEq, JsonValue.object.injEq] at isObject
    rw [← isObject, List.lookup_cons_self, Option.some.injEq, JsonValue.int.injEq]
      at memberOp
    have bound := req.op.toNat_lt
    have code299 : (299 : Int32).toInt = 299 := by decide
    omega
  · have parsed : Request.deserialized integerJson.toJsonCpp onlyPlus =
        some ⟨0, 0, 43⟩ := by
      rw [deserialized_eq_some_iff]
      refine ⟨43, ?_, ?_, ?_, by decide⟩
      · exact integerJson_documented.readInt_missing denotes_onlyPlus rfl
      · exact integerJson_documented.readInt_missing denotes_onlyPlus rfl
      · exact integerJson_documented.readInt_member denotes_onlyPlus rfl
    apply not_rejectsMalformed_of_success parsed rfl
    rintro req ⟨members, isObject, memberX, -⟩
    rw [denotes_onlyPlus, Option.some.injEq, JsonValue.object.injEq] at isObject
    have missing : [(keyOp, JsonValue.int (43 : Int32).toInt)].lookup keyX = none := rfl
    rw [← isObject, missing] at memberX
    cases memberX

end NetCal
end LearnInLinux
