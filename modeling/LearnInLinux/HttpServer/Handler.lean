import LearnInLinux.HttpServer.Util

/-!
# The handler on any input and any file

The handler goes on after a failed `recv`, reads its buffer as a C string, and takes
`vline[0]` and `vblock[1]` without a look at the sizes of the vectors. The file that it
answers with is put together from its lines, and an answer without a byte is taken for a
file that could not be opened.
-/

namespace LearnInLinux
namespace HttpServer

/-! ## What is parsed -/

/-- What `recv(sockfd, buffer, sizeof(buffer) - 1, 0)` does. -/
inductive Received
  | failed
  /-- `recv` has returned 0. -/
  | ended
  | data (request : Request)

/-- The bytes received in the call. -/
def Received.bytes : Received → Bytes
  | .failed => []
  | .ended => []
  | .data request => request.bytes

/-- What the array of the handler holds before; nobody has written to it. -/
abbrev Stale := { bytes : Bytes // bytes.length = 10240 }

/-- `buffer` where it is parsed. -/
def Received.buffer (stale : Stale) : Received → Bytes
  | .failed => stale.val
  | .ended => stale.val
  | .data request =>
      (request.bytes ++ stale.val.drop request.bytes.length).set request.bytes.length 0

/-- The string that is made of `buffer`. -/
def Received.parsed (stale : Stale) (received : Received) : Bytes :=
  Text.cString 0 (received.buffer stale)

/-- The lines of the request. -/
def Received.vline (stale : Stale) (received : Received) : List Bytes :=
  Util.cutString (received.parsed stale) newline []

/-- Only bytes of this call are parsed, and both accesses are within range. -/
structure Safe (stale : Stale) (received : Received) : Prop where
  onlyReceived : received.parsed stale <+: received.bytes
  vline0 : 0 < (received.vline stale).length
  vblock1 : ∀ line, (received.vline stale)[0]? = some line →
    1 < (Util.cutString line blank []).length

/-- What stands in front of the first NUL byte and of the first newline. -/
def firstLine (request : Request) : Bytes :=
  Text.cString 10 (Text.cString 0 request.bytes)

/-! ## Numbers of pieces -/

section Pieces

variable {mark : UInt8} {rest : Bytes}

theorem cutString_eq_nil_iff {sep : Separator} :
    cutString rest sep = [] ↔ rest = [] := by
  constructor
  · intro noPiece
    by_contra nonempty
    rw [cutString, if_neg nonempty] at noPiece
    split at noPiece
    · exact absurd noPiece (by simp)
    · exact absurd noPiece (by simp)
  · rintro rfl
    rw [cutString, if_pos rfl]

/-- The first piece ends at the first mark, or with the text. -/
theorem cutString_head (nonempty : rest ≠ []) :
    (cutString rest ⟨[mark], by simp⟩)[0]? = some (Text.cString mark rest) := by
  rw [cutString, if_neg nonempty]
  cases found : Text.find [mark] rest with
  | none =>
      have clean := Text.find_singleton_eq_none_iff.mp found
      rw [Text.cString_eq_self clean]
      rfl
  | some position =>
      have clean := Text.not_mem_take_of_find found
      have split := Text.find_split found
      rw [List.append_assoc, List.singleton_append] at split
      have front : Text.cString mark rest = rest.take position := by
        calc
          Text.cString mark rest = Text.cString mark
              (rest.take position ++ mark :: rest.drop (position + [mark].length)) :=
            congrArg _ split
          _ = Text.cString mark (rest.take position) :=
            Text.cString_append_terminator_cons _ _ _
          _ = rest.take position := Text.cString_eq_self clean
      rw [front]
      rfl

/-- There is a second piece when something stands behind a mark. -/
theorem two_pieces_iff :
    1 < (cutString rest ⟨[mark], by simp⟩).length ↔
      ∃ front back, rest = front ++ mark :: back ∧ back ≠ [] := by
  by_cases nonempty : rest = []
  · rw [cutString, if_pos nonempty, nonempty]
    simp
  · rw [cutString, if_neg nonempty]
    cases found : Text.find [mark] rest with
    | none =>
        have clean := Text.find_singleton_eq_none_iff.mp found
        apply iff_of_false (by simp)
        rintro ⟨front, back, rfl, -⟩
        exact clean (by simp)
    | some position =>
        have split := Text.find_split found
        have bound := Text.find_le_length found
        have behind : 1 < (rest.take position ::
            cutString (rest.drop (position + 1)) ⟨[mark], by simp⟩).length ↔
              rest.drop (position + 1) ≠ [] := by
          rw [List.length_cons, Nat.lt_add_left_iff_pos, List.length_pos_iff, Ne,
            cutString_eq_nil_iff]
        refine behind.trans ?_
        constructor
        · intro some_back
          refine ⟨rest.take position, rest.drop (position + 1), ?_, some_back⟩
          rw [List.append_assoc, List.singleton_append] at split
          exact split
        · rintro ⟨front, back, rfl, some_back⟩
          have foundHere : Text.find [mark] (front ++ [mark] ++ back) = some position := by
            rw [List.append_assoc]
            exact found
          have earliest := Text.find_le_of_append foundHere
          have some_length := List.length_pos_of_ne_nil some_back
          rw [Ne, List.drop_eq_nil_iff, List.length_append, List.length_cons]
          omega

end Pieces

/-! ## Which input is safe -/

section Inputs

variable {stale : Stale} {request : Request}

theorem vline_eq (stale : Stale) (received : Received) :
    received.vline stale = cutString (received.parsed stale) newline := by
  rw [Received.vline, Util.cutString_eq_append, List.nil_append]

/-- Without a byte received there is no line, or one of foreign bytes. -/
theorem not_safe_of_nothing
    {received : Received}
    (nothing : received.bytes = []) :
    ¬ Safe stale received := by
  intro safe
  have noText : received.parsed stale = [] := by
    have prefixed := safe.onlyReceived
    rw [nothing] at prefixed
    exact List.prefix_nil.mp prefixed
  have lines := safe.vline0
  rw [vline_eq, noText, cutString_eq_nil_iff.mpr rfl] at lines
  exact Nat.lt_irrefl 0 lines

theorem parsed_data (stale : Stale) (request : Request) :
    (Received.data request).parsed stale = Text.cString 0 request.bytes := by
  have small := request.bounded
  have more : request.bytes.length < stale.val.length := by
    rw [stale.property]
    omega
  rw [Received.parsed, Received.buffer, List.set_append_right _ _ (Nat.le_refl _),
    Nat.sub_self, List.drop_eq_getElem_cons more, List.set_cons_zero,
    Text.cString_append_terminator_cons]

theorem firstLine_eq_nil (noText : Text.cString 0 request.bytes = []) :
    firstLine request = [] := by
  rw [firstLine, noText, Text.cString_nil]

theorem safe_data_iff :
    Safe stale (.data request) ↔
      ∃ front back, firstLine request = front ++ 32 :: back ∧ back ≠ [] := by
  by_cases noText : Text.cString 0 request.bytes = []
  · apply iff_of_false
    · intro safe
      have lines := safe.vline0
      rw [vline_eq, parsed_data, noText, cutString_eq_nil_iff.mpr rfl] at lines
      exact Nat.lt_irrefl 0 lines
    · rintro ⟨front, back, line, -⟩
      rw [firstLine_eq_nil noText] at line
      exact absurd line (by simp)
  · have first : ((Received.data request).vline stale)[0]? = some (firstLine request) := by
      rw [vline_eq, parsed_data]
      exact cutString_head noText
    rw [← two_pieces_iff]
    constructor
    · intro safe
      have blocks := safe.vblock1 _ first
      rw [Util.cutString_eq_append, List.nil_append] at blocks
      exact blocks
    · intro blocks
      constructor
      · rw [parsed_data]
        exact List.takeWhile_prefix _
      · rw [vline_eq, parsed_data, List.length_pos_iff, Ne, cutString_eq_nil_iff]
        exact noText
      · intro line isFirst
        obtain rfl := Option.some.inj (first.symm.trans isFirst)
        rw [Util.cutString_eq_append, List.nil_append]
        exact blocks

end Inputs

/-- The handler copes with what it has received exactly when that is a request whose
first line has a byte behind a space. -/
theorem safe_iff (stale : Stale) (received : Received) :
    Safe stale received ↔
      ∃ request, received = .data request ∧
        ∃ front back, firstLine request = front ++ 32 :: back ∧ back ≠ [] := by
  cases received with
  | failed =>
      apply iff_of_false (not_safe_of_nothing rfl)
      rintro ⟨request, isData, -⟩
      exact absurd isData (by simp)
  | ended =>
      apply iff_of_false (not_safe_of_nothing rfl)
      rintro ⟨request, isData, -⟩
      exact absurd isData (by simp)
  | data request =>
      rw [safe_data_iff]
      constructor
      · exact fun blocks => ⟨request, rfl, blocks⟩
      · rintro ⟨request', isData, blocks⟩
        rw [Received.data.inj isData]
        exact blocks

/-- An array of zeros. -/
def zeros : Stale :=
  ⟨List.replicate 10240 0, List.length_replicate⟩

/-- "GET\n" -/
def getNothing : Request where
  bytes := [71, 69, 84, 10]
  nonempty := by decide
  bounded := by decide

/-- A client that closes its connection without a request is enough, and so is a line
without a space. -/
theorem ended_not_safe :
    ¬ Safe zeros .ended ∧ ¬ Safe zeros (.data getNothing) := by
  constructor
  · exact not_safe_of_nothing rfl
  · rw [safe_data_iff]
    rintro ⟨front, back, line, -⟩
    have present : (32 : UInt8) ∈ firstLine getNothing := by
      rw [line]
      simp
    revert present
    decide

/-! ## The file in the answer -/

/-- The answer to a request for a file with these bytes. -/
def Serves (data : Bytes) (outcome : Outcome) : Prop :=
  outcome.response = ok ++ crlf ++ data ∧ ¬ notFound <+: outcome.response

/-- The lines of a file are the file when it is a single line without an end. -/
theorem getlines_eq_self_iff {data : Bytes} : getlines data = data ↔ 10 ∉ data := by
  have splits : Delimited.Splits 10 data _ _ := Delimited.splits_messages data
  constructor
  · intro same present
    rw [← same, getlines] at present
    rcases List.mem_append.mp present with inLines | inRest
    · obtain ⟨line, isLine, inLine⟩ := List.mem_flatten.mp inLines
      exact splits.messages_clean line isLine inLine
    · exact splits.rest_clean inRest
  · intro clean
    rw [getlines, Delimited.messages_of_clean clean, Delimited.remainder_of_clean clean]
    rfl

theorem not_notFound_prefix (content : Bytes) : ¬ notFound <+: ok ++ crlf ++ content := by
  simp [notFound, ok, crlf]

/-- What is sent for a file that can be opened. -/
theorem response_eq
    {files : Bytes -> Option Bytes}
    {request : Request}
    {outcome : Outcome}
    {data : Bytes}
    (handled : handlerHttpRequest files request = some outcome)
    (readable : files outcome.target = some data) :
    outcome.response =
      (if getlines data = [] then notFound else ok) ++ crlf ++ getlines data := by
  rw [handlerHttpRequest] at handled
  obtain ⟨file, -, result⟩ := Option.bind_eq_some_iff.mp handled
  obtain rfl := Option.some.inj result
  dsimp only at readable ⊢
  rw [readable]

/-- A readable file is sent as it is exactly when it has bytes and no newline. -/
theorem serves_iff
    {files : Bytes -> Option Bytes}
    {request : Request}
    {outcome : Outcome}
    {data : Bytes}
    (handled : handlerHttpRequest files request = some outcome)
    (readable : files outcome.target = some data) :
    Serves data outcome ↔ data ≠ [] ∧ 10 ∉ data := by
  rw [Serves, response_eq handled readable]
  constructor
  · rintro ⟨response, found⟩
    split at response
    · rename_i empty
      rw [if_pos empty, List.append_assoc] at found
      exact absurd (List.prefix_append _ _) found
    · rename_i nonempty
      have same : getlines data = data := List.append_cancel_left response
      rw [same] at nonempty
      exact ⟨nonempty, getlines_eq_self_iff.mp same⟩
  · rintro ⟨nonempty, clean⟩
    rw [getlines_eq_self_iff.mpr clean, if_neg nonempty]
    exact ⟨rfl, not_notFound_prefix data⟩

/-- The home page with the given bytes. -/
theorem handled_getHomepage (data : Bytes) :
    ∃ outcome : Outcome,
      handlerHttpRequest (fun _ => some data) getHomepage = some outcome := by
  obtain ⟨outcome, handled, -⟩ := target_eq (fun _ => some data) vblock1_getHomepage
  exact ⟨outcome, handled⟩

theorem serves_iff_getHomepage :
    ∃ outcome : Outcome,
      handlerHttpRequest (fun _ => some [104, 105]) getHomepage = some outcome ∧
        Serves [104, 105] outcome := by
  obtain ⟨outcome, handled⟩ := handled_getHomepage [104, 105]
  exact ⟨outcome, handled, (serves_iff handled rfl).mpr ⟨by decide, by decide⟩⟩

/-- A page of one line that ends with a newline is cut, and an empty one is not found. -/
theorem getHomepage_not_served :
    ∃ outcome empty : Outcome,
      handlerHttpRequest (fun _ => some [104, 105, 10]) getHomepage = some outcome ∧
        ¬ Serves [104, 105, 10] outcome ∧
        handlerHttpRequest (fun _ => some []) getHomepage = some empty ∧
        empty.response = notFound ++ crlf := by
  obtain ⟨outcome, handled⟩ := handled_getHomepage [104, 105, 10]
  obtain ⟨empty, handledEmpty⟩ := handled_getHomepage []
  refine ⟨outcome, empty, handled, ?_, handledEmpty, ?_⟩
  · rintro ⟨response, -⟩
    rw [response_eq handled rfl] at response
    revert response
    decide
  · exact response_eq handledEmpty rfl

end HttpServer
end LearnInLinux
