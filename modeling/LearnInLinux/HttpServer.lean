import LearnInLinux.Basic
import LearnInLinux.Library.Delimited
import LearnInLinux.Library.Path
import Mathlib.Tactic

/-!
# The HTTP handler and its web root

The handler reads one request, takes the second block of its first line as the name of
a file and glues it to the path of the web root. Nothing is checked in between, so the
name decides where the opened path leads.
-/

namespace LearnInLinux
namespace HttpServer

/-- Data of `recv(sockfd, buffer, sizeof(buffer) - 1, 0)` on the `char buffer[10240]` of
the handler. -/
structure Request where
  bytes : Bytes
  nonempty : bytes ≠ []
  bounded : bytes.length ≤ 10239

/-- A separator; with an empty one `cutString` would not return. -/
abbrev Separator := { sep : Bytes // sep ≠ [] }

/-- `Util::cutString` on what is left of the string behind `start`. -/
def cutString (rest : Bytes) (sep : Separator) : List Bytes :=
  if rest = [] then []
  else
    match Text.find sep.val rest with
    | none => [rest]
    | some pos => rest.take pos :: cutString (rest.drop (pos + sep.val.length)) sep
termination_by rest.length
decreasing_by
  have some_sep := List.length_pos_of_ne_nil sep.property
  have some_rest := List.length_pos_of_ne_nil (by assumption)
  rw [List.length_drop]
  omega

/-- "\n" -/
def newline : Separator := ⟨[10], by simp⟩

/-- " " -/
def blank : Separator := ⟨[32], by simp⟩

/-- "wwwroot" -/
def wwwroot : Bytes := [119, 119, 119, 114, 111, 111, 116]

/-- `ROOT`, "./wwwroot" -/
def root : Bytes := [46, 47] ++ wwwroot

/-- "/" -/
def slash : Bytes := [47]

/-- "/index.html" -/
def homepage : Bytes := [47, 105, 110, 100, 101, 120, 46, 104, 116, 109, 108]

/-- "\r\n" -/
def crlf : Bytes := [13, 10]

/-- "HTTP/1.1 404 NotFound\r\n" -/
def notFound : Bytes :=
  [72, 84, 84, 80, 47, 49, 46, 49, 32, 52, 48, 52, 32,
    78, 111, 116, 70, 111, 117, 110, 100] ++ crlf

/-- "HTTP/1.1 200 OK\r\n" -/
def ok : Bytes :=
  [72, 84, 84, 80, 47, 49, 46, 49, 32, 50, 48, 48, 32, 79, 75] ++ crlf

/-- `vline`: the lines of the request, read as a C string. -/
def vline (request : Request) : List Bytes :=
  cutString (Text.cString 0 (request.bytes ++ [0])) newline

/-- `vblock[1]` of the first line; there is none when the line or the block is missing. -/
def vblock1 (request : Request) : Option Bytes := do
  let line ← (vline request)[0]?
  (cutString line blank)[1]?

/-- The lines of a file as `std::getline` returns them, one behind the other. -/
def getlines (data : Bytes) : Bytes :=
  (Delimited.messages 10 data).flatten ++ Delimited.remainder 10 data

/-- What the handler does with a request. -/
structure Outcome where
  /-- The path that is opened. -/
  target : Bytes
  /-- `HttpResponse` -/
  response : Bytes

/-- `HandlerHttpRequest`, with the readable files by their paths. -/
def handlerHttpRequest (files : Bytes -> Option Bytes) (request : Request) :
    Option Outcome := do
  let file ← vblock1 request
  let file := if file = slash then homepage else file
  let target := root ++ file
  let content :=
    match files target with
    | none => []
    | some data => getlines data
  let status := if content = [] then notFound else ok
  return { target := target, response := status ++ crlf ++ content }

/-- The opened path is in the web root or below it, by its text. -/
def Confined (files : Bytes -> Option Bytes) (request : Request) : Prop :=
  ∃ outcome : Outcome,
    handlerHttpRequest files request = some outcome ∧
      (Path.resolve 47 46 outcome.target).Inside wwwroot

/-! ## Cutting the request -/

/-- The pieces of a one-character separator, without an empty last one. -/
theorem cutString_eq (mark : UInt8) (rest : Bytes) :
    cutString rest ⟨[mark], by simp⟩ =
      Delimited.messages mark rest ++
        if Delimited.remainder mark rest = [] then []
        else [Delimited.remainder mark rest] := by
  induction size_eq : rest.length using Nat.strong_induction_on generalizing rest with
  | _ size inductionHypothesis =>
      rw [cutString]
      split
      · rename_i empty
        simp [empty]
      · rename_i some_rest
        cases found : Text.find [mark] rest with
        | none =>
            have clean := Text.find_singleton_eq_none_iff.mp found
            rw [Delimited.messages_of_clean clean, Delimited.remainder_of_clean clean,
              if_neg some_rest, List.nil_append]
        | some position =>
            have split_rest := Text.find_split found
            have clean := Text.not_mem_take_of_find found
            have bound := Text.find_le_length found
            rw [List.length_singleton] at bound split_rest
            have tail : Delimited.Splits mark (rest.drop (position + 1)) _ _ :=
              Delimited.splits_messages (rest.drop (position + 1))
            have whole := Delimited.Splits.cons clean tail
            rw [List.append_cons, ← split_rest] at whole
            obtain ⟨messages_eq, remainder_eq⟩ := whole.eq_messages
            have shorter : (rest.drop (position + 1)).length < size := by
              rw [List.length_drop]
              omega
            rw [← messages_eq, ← remainder_eq, List.cons_append]
            change rest.take position ::
              cutString (rest.drop (position + 1)) ⟨[mark], by simp⟩ = _
            rw [inductionHypothesis _ shorter _ rfl]

/-! ## Where the opened path leads -/

/-- Either nothing stands in front of the first slash of the name, and the components
behind it never lead further up than down; or they lead one directory up, out of the one
that the root and the beginning of the name make together, and into the root again. -/
def StaysInRoot (file : Bytes) : Prop :=
  ∃ (first : Bytes) (rest : List Bytes),
    file.splitOn 47 = first :: rest ∧
      ((first = [] ∧ Path.Climbs 0 (rest.map (Path.step 46))) ∨
        Path.Enters 1 wwwroot (rest.map (Path.step 46)))

/-- The name of the root and what stands in front of the first slash are one component. -/
theorem steps_root_append
    {file first : Bytes}
    {rest : List Bytes}
    (pieces : file.splitOn 47 = first :: rest) :
    Path.steps 47 46 (root ++ file) =
      .stay :: .down (wwwroot ++ first) :: rest.map (Path.step 46) := by
  have clean : 47 ∉ wwwroot := by decide
  have glued := Path.splitOn_append clean pieces
  have dot : (47 : UInt8) ∉ [46] := by decide
  have named : wwwroot ++ first ≠ [] ∧ wwwroot ++ first ≠ [46] ∧
      wwwroot ++ first ≠ [46, 46] := by
    simp [wwwroot]
  unfold Path.steps
  rw [show root ++ file = [46] ++ 47 :: (wwwroot ++ file) from rfl,
    List.splitOn_append_cons_self_of_not_mem dot, glued, List.map_cons, List.map_cons,
    Path.step_eq_down named]
  rfl

theorem resolve_root_append_inside_iff (file : Bytes) :
    (Path.resolve 47 46 (root ++ file)).Inside wwwroot ↔ StaysInRoot file := by
  rcases pieces : file.splitOn 47 with _ | ⟨first, rest⟩
  · exact absurd pieces (List.splitOn_ne_nil 47 file)
  · unfold Path.resolve StaysInRoot
    rw [Path.inside_iff, steps_root_append pieces, Path.Enters.cons_stay_iff,
      Path.Enters.cons_down_iff, pieces]
    simp

theorem staysInRoot_slash : StaysInRoot slash :=
  ⟨[], [[]], rfl, .inl ⟨rfl, Path.Climbs.cons_stay_iff.mpr (Path.Climbs.nil 0)⟩⟩

theorem staysInRoot_homepage : StaysInRoot homepage :=
  ⟨[], [homepage.tail], rfl,
    .inl ⟨rfl, (Path.Climbs.cons_down_iff homepage.tail).mpr (Path.Climbs.nil 1)⟩⟩

/-- The home page is where the bare slash stays. -/
theorem staysInRoot_default (file : Bytes) :
    StaysInRoot (if file = slash then homepage else file) ↔ StaysInRoot file := by
  split
  · rename_i bare
    rw [bare]
    exact iff_of_true staysInRoot_homepage staysInRoot_slash
  · rfl

/-- What the handler opens is decided by the second block alone. -/
theorem target_eq
    (files : Bytes -> Option Bytes)
    {request : Request}
    {file : Bytes}
    (second : vblock1 request = some file) :
    ∃ outcome : Outcome,
      handlerHttpRequest files request = some outcome ∧
        outcome.target = root ++ if file = slash then homepage else file := by
  unfold handlerHttpRequest
  rw [second]
  exact ⟨_, rfl, rfl⟩

/-- The opened path is in the web root or below it exactly when the second block of the
first line stays in the root. -/
theorem confined_iff
    (files : Bytes -> Option Bytes)
    (request : Request)
    (file : Bytes)
    (second : vblock1 request = some file) :
    Confined files request ↔ StaysInRoot file := by
  obtain ⟨outcome, handled, target⟩ := target_eq files second
  rw [← staysInRoot_default, ← resolve_root_append_inside_iff, ← target]
  constructor
  · rintro ⟨other, handledOther, inside⟩
    rw [handled, Option.some.injEq] at handledOther
    rw [handledOther]
    exact inside
  · intro inside
    exact ⟨outcome, handled, inside⟩

/-- "GET /index.html HTTP/1.1\r\n" -/
def getHomepage : Request where
  bytes := [71, 69, 84, 32] ++ homepage ++ [32, 72, 84, 84, 80, 47, 49, 46, 49] ++ crlf
  nonempty := by decide
  bounded := by decide

theorem vblock1_getHomepage : vblock1 getHomepage = some homepage := by
  simp only [vblock1, vline, newline, blank, cutString_eq]
  decide +kernel

theorem confined_iff_getHomepage : Confined (fun _ => none) getHomepage :=
  (confined_iff (fun _ => none) getHomepage homepage vblock1_getHomepage).mpr
    staysInRoot_homepage

/-- "GET /../x HTTP/1.1\r\n" -/
def getParent : Request where
  bytes := [71, 69, 84, 32, 47, 46, 46, 47, 120, 32, 72, 84, 84, 80, 47, 49, 46, 49] ++ crlf
  nonempty := by decide
  bounded := by decide

/-- A request for the file next to the root opens it. -/
theorem opens_above_root :
    vblock1 getParent = some [47, 46, 46, 47, 120] ∧
      ¬ Confined (fun _ => none) getParent := by
  have second : vblock1 getParent = some [47, 46, 46, 47, 120] := by
    simp only [vblock1, vline, newline, blank, cutString_eq]
    decide +kernel
  refine ⟨second, ?_⟩
  rintro ⟨outcome, handled, inside⟩
  obtain ⟨same, handledSame, target⟩ := target_eq (fun _ => none) second
  rw [handledSame, Option.some.injEq] at handled
  rw [← handled, target] at inside
  revert inside
  decide +kernel

end HttpServer
end LearnInLinux
