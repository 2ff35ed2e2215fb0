import LearnInLinux.Library.Delimited
import LearnInLinux.NetCal.Protocol
import Mathlib.Data.List.Sort

/-!
# Objects of numbers in JSON

The text that the JSON library writes for an object of numbers, members in the
order of their keys, no blanks, a line feed at the end; and a reader for such
text. It keeps the promises of `RoundTrips`, so they can be kept.
-/

namespace LearnInLinux
namespace NetCal

open Text Decimal
open Delimited (wire messages)

/-- `"key":number`. -/
def memberText (member : Bytes × Int32) : Bytes :=
  [34] ++ member.1 ++ [34, 58] ++ toText member.2.toInt

/-- The members in the order of their keys. -/
def sorted (members : List (Bytes × Int32)) : List (Bytes × Int32) :=
  members.insertionSort fun first second => first.1 ≤ second.1

/-- The members, separated by commas. -/
def objectBody (members : List (Bytes × Int32)) : Bytes :=
  (wire 44 (members.map memberText) []).dropLast

/-- The object in braces. -/
def objectText (members : List (Bytes × Int32)) : Bytes :=
  [123] ++ objectBody (sorted members) ++ [125, 10]

/-- A member of the object: its key, and the number behind the colon. -/
def readMember (text : Bytes) : Bytes × Int32 :=
  let key := cString 34 (text.drop 1)
  (key, atoi (text.drop (key.length + 3)))

/-- The members of an object text. -/
def readObject (text : Bytes) : List (Bytes × Int32) :=
  (messages 44 (cString 125 (text.drop 1) ++ [44])).map readMember

/-- Writer and reader; a member that is not there is null, and null reads as 0. -/
def fastJson : JsonCpp where
  write := objectText
  readInt text key := some (((readObject text).lookup key).getD 0)

/-! ## Bytes of the text -/

/-- A byte of a member's text is a quote, a colon, a minus sign, a digit or a
letter of the key. -/
theorem mem_memberText
    {member : Bytes × Int32}
    {byte : UInt8}
    (present : byte ∈ memberText member) :
    byte ∈ member.1 ∨ byte = 34 ∨ byte = 58 ∨ byte = 45 ∨ isDigit byte = true := by
  simp only [memberText, List.mem_append, List.mem_cons, List.not_mem_nil, or_false]
    at present
  rcases present with ((quote | key) | quote | colon) | number
  · exact Or.inr (Or.inl quote)
  · exact Or.inl key
  · exact Or.inr (Or.inl quote)
  · exact Or.inr (Or.inr (Or.inl colon))
  · exact Or.inr (Or.inr (Or.inr (mem_toText number)))

/-- A key of lower-case letters. -/
def Word (key : Bytes) : Prop :=
  ∀ byte ∈ key, 97 ≤ byte ∧ byte ≤ 122

/-- Bytes that no member's text contains. -/
theorem not_mem_memberText
    {member : Bytes × Int32}
    (word : Word member.1)
    {byte : UInt8}
    (foreign : byte = 0 ∨ byte = 44 ∨ byte = 125) :
    byte ∉ memberText member := by
  intro present
  rcases mem_memberText present with inKey | others
  · have letter := word byte inKey
    rcases foreign with rfl | rfl | rfl <;> exact absurd letter (by decide)
  · rcases foreign with rfl | rfl | rfl <;> exact absurd others (by decide)

theorem readMember_memberText
    {member : Bytes × Int32}
    (word : Word member.1) :
    readMember (memberText member) = member := by
  have noQuote : 34 ∉ member.1 := fun present =>
    absurd (word 34 present) (by decide)
  have key : cString 34 ((memberText member).drop 1) = member.1 := by
    have text : (memberText member).drop 1 =
        member.1 ++ (34 :: 58 :: toText member.2.toInt) := by
      simp [memberText]
    rw [text, cString_append noQuote]
    simp [cString]
  have number : (memberText member).drop (member.1.length + 3) =
      toText member.2.toInt :=
    List.drop_left' (by simp)
  rw [readMember, key, number, atoi_toText]

/-! ## The text of an object -/

variable {members : List (Bytes × Int32)}

/-- With the missing comma back at the end, the body is the separated stream. -/
theorem objectBody_append_comma (nonempty : members ≠ []) :
    objectBody members ++ [44] = wire 44 (members.map memberText) [] := by
  obtain ⟨front, last, rfl⟩ :=
    (List.eq_nil_or_concat' members).resolve_left nonempty
  have ends : wire 44 ((front ++ [last]).map memberText) [] =
      wire 44 (front.map memberText) (memberText last) ++ [44] := by
    rw [List.map_append, Delimited.wire_append, Delimited.wire_append_rest,
      List.map_singleton, Delimited.wire_cons, Delimited.wire_nil]
  rw [objectBody, ends, List.dropLast_concat]

theorem not_mem_objectBody
    (words : ∀ member ∈ members, Word member.1)
    {byte : UInt8}
    (foreign : byte = 0 ∨ byte = 125) :
    byte ∉ objectBody members := by
  intro present
  have inWire := List.mem_of_mem_dropLast present
  rw [wire, List.append_nil, List.mem_flatten] at inWire
  obtain ⟨piece, isPiece, inPiece⟩ := inWire
  obtain ⟨text, isText, rfl⟩ := List.mem_map.mp isPiece
  obtain ⟨member, isMember, rfl⟩ := List.mem_map.mp isText
  rcases List.mem_append.mp inPiece with inText | isComma
  · refine not_mem_memberText (words member isMember) ?_ inText
    exact foreign.imp_right Or.inr
  · rcases foreign with rfl | rfl <;> exact absurd isComma (by decide)

theorem mem_sorted {member : Bytes × Int32} :
    member ∈ sorted members ↔ member ∈ members :=
  List.mem_insertionSort _

/-- Reading gives the members back in the order of their keys. -/
theorem readObject_objectText
    (nonempty : members ≠ [])
    (words : ∀ member ∈ members, Word member.1) :
    readObject (objectText members) = sorted members := by
  have sortedWords : ∀ member ∈ sorted members, Word member.1 :=
    fun member present => words member (mem_sorted.mp present)
  have sortedNonempty : sorted members ≠ [] := by
    intro empty
    obtain ⟨member, present⟩ := List.exists_mem_of_ne_nil members nonempty
    rw [← mem_sorted, empty] at present
    exact absurd present List.not_mem_nil
  have body : cString 125 ((objectText members).drop 1) =
      objectBody (sorted members) := by
    change cString 125 (objectBody (sorted members) ++ [125, 10]) = _
    rw [cString_append (not_mem_objectBody sortedWords (Or.inr rfl))]
    simp [cString]
  have cut : Delimited.Splits 44 (objectBody (sorted members) ++ [44])
      ((sorted members).map memberText) [] := by
    refine ⟨(objectBody_append_comma sortedNonempty).symm, ?_, List.not_mem_nil⟩
    intro text isText
    obtain ⟨member, isMember, rfl⟩ := List.mem_map.mp isText
    exact not_mem_memberText (sortedWords member isMember) (Or.inr (Or.inl rfl))
  rw [readObject, body, ← cut.eq_messages.1, List.map_map]
  calc (sorted members).map (readMember ∘ memberText)
      = (sorted members).map id :=
        List.map_congr_left fun member present =>
          readMember_memberText (sortedWords member present)
    _ = sorted members := List.map_id _

theorem lookup_of_mem
    {key : Bytes}
    {number : Int32}
    (distinct : (members.map Prod.fst).Nodup)
    (present : (key, number) ∈ members) :
    members.lookup key = some number := by
  obtain ⟨front, back, rfl⟩ := List.append_of_mem present
  rw [List.lookup_eq_some_iff]
  refine ⟨front, back, rfl, ?_⟩
  intro member inFront
  rw [List.map_append, List.map_cons, List.nodup_append] at distinct
  have different := distinct.2.2 member.1 (List.mem_map_of_mem inFront) key (by simp)
  simpa using Ne.symm different

theorem length_memberText_le
    {member : Bytes × Int32}
    (short : member.1.length ≤ 6) :
    (memberText member).length ≤ 20 := by
  have low := member.2.le_toInt
  have high := member.2.toInt_lt
  have digits : (natText member.2.toInt.natAbs).length ≤ 9 + 1 :=
    length_natText_le (by omega)
  have number : (toText member.2.toInt).length ≤ 11 := by
    unfold toText
    split
    · rw [List.length_cons]
      omega
    · omega
  simp only [memberText, List.length_append, List.length_cons, List.length_nil]
  omega

theorem fastJson_roundTrips : fastJson.RoundTrips where
  readInt_write members key number plain present := by
    have words : ∀ member ∈ members, Word member.1 := fun member isMember =>
      (plain.2.2 member.1 (List.mem_map_of_mem isMember)).2
    have distinct : ((sorted members).map Prod.fst).Nodup :=
      ((List.perm_insertionSort _ members).map Prod.fst).nodup_iff.mpr plain.1
    have found := lookup_of_mem distinct (mem_sorted.mpr present)
    change some (((readObject (objectText members)).lookup key).getD 0) = _
    rw [readObject_objectText (List.ne_nil_of_mem present) words, found]
    rfl
  write_ne_nil members plain := by
    simp [fastJson, objectText]
  nul_not_mem_write members plain := by
    have words : ∀ member ∈ sorted members, Word member.1 := fun member isMember =>
      (plain.2.2 member.1 (List.mem_map_of_mem (mem_sorted.mp isMember))).2
    have body := not_mem_objectBody words (Or.inl rfl)
    change 0 ∉ objectText members
    simpa [objectText] using body
  write_short members plain := by
    have count : (sorted members).length ≤ 5 := by
      rw [sorted, List.length_insertionSort]
      simpa using plain.2.1
    have pieces : ∀ text ∈ (sorted members).map memberText, text.length ≤ 20 := by
      intro text isText
      obtain ⟨member, isMember, rfl⟩ := List.mem_map.mp isText
      exact length_memberText_le
        (plain.2.2 member.1 (List.mem_map_of_mem (mem_sorted.mp isMember))).1
    have whole : (wire 44 ((sorted members).map memberText) []).length ≤
        ((sorted members).map memberText).length * 21 :=
      Delimited.length_wire_le pieces
    have body : (objectBody (sorted members)).length ≤
        (wire 44 ((sorted members).map memberText) []).length := by
      rw [objectBody, List.length_dropLast]
      exact Nat.sub_le _ _
    rw [List.length_map] at whole
    change (objectText members).length < 2 ^ 31
    rw [objectText, List.length_append, List.length_append]
    simp only [List.length_cons, List.length_nil]
    omega

end NetCal
end LearnInLinux
