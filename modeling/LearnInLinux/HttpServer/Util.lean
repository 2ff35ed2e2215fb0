import LearnInLinux.HttpServer
import LearnInLinux.Library.Separated

/-!
# The line splitter

`Util::cutString` moves an index over the string, from one separator that `find` returns
to the next, and appends the pieces in between to a vector that may hold something
already. What stands behind the last separator is appended too, unless it is empty.
-/

namespace LearnInLinux
namespace HttpServer
namespace Util

open Separated (Splits)

/-- The `while` loop: `start` and `out` where it ends. -/
def cutLoop (s : Bytes) (sep : Separator) (start : Nat) (out : List Bytes) :
    Nat × List Bytes :=
  if start < s.length then
    -- `s.find(sep, start)`
    match (Text.find sep.val (s.drop start)).map (start + ·) with
    | none => (start, out)
    | some pos =>
        let sub := Text.substr s start (pos - start)
        cutLoop s sep (start + sub.length + sep.val.length) (out ++ [sub])
  else (start, out)
termination_by s.length - start
decreasing_by
  have some_sep := List.length_pos_of_ne_nil sep.property
  omega

/-- `Util::cutString` -/
def cutString (s : Bytes) (sep : Separator) (out : List Bytes) : List Bytes :=
  let (start, out) := cutLoop s sep 0 out
  if start < s.length then out ++ [s.drop start] else out

/-- What is left, as long as the index is inside. -/
theorem cutString_drop_of_find
    {s : Bytes}
    {sep : Separator}
    {start position : Nat}
    (found : Text.find sep.val (s.drop start) = some position)
    (inside : start < s.length) :
    HttpServer.cutString (s.drop start) sep =
      (s.drop start).take position ::
        HttpServer.cutString (s.drop (start + position + sep.val.length)) sep := by
  have some_rest : s.drop start ≠ [] := by
    rw [Ne, List.drop_eq_nil_iff]
    exact Nat.not_le.mpr inside
  rw [HttpServer.cutString, if_neg some_rest, found, Nat.add_assoc start, ← List.drop_drop]

/-- The loop and the step behind it append the pieces of what is left behind `start`. -/
theorem cutLoop_eq
    (s : Bytes) (sep : Separator) (start : Nat) (out : List Bytes) :
    (if (cutLoop s sep start out).1 < s.length
      then (cutLoop s sep start out).2 ++ [s.drop (cutLoop s sep start out).1]
      else (cutLoop s sep start out).2) =
      out ++ HttpServer.cutString (s.drop start) sep := by
  fun_induction cutLoop s sep start out with
  | case1 start out inside missing =>
      rw [Option.map_eq_none_iff] at missing
      have some_rest : s.drop start ≠ [] := by
        rw [Ne, List.drop_eq_nil_iff]
        exact Nat.not_le.mpr inside
      rw [if_pos inside, HttpServer.cutString, if_neg some_rest, missing]
  | case2 start out inside pos found sub inductionHypothesis =>
      obtain ⟨position, foundHere, rfl⟩ := Option.map_eq_some_iff.mp found
      have bound := Text.find_le_length foundHere
      have isSub : sub = (s.drop start).take position := by
        change (s.drop start).take (start + position - start) = _
        rw [Nat.add_sub_cancel_left]
      have length : sub.length = position := by
        rw [isSub, List.length_take]
        omega
      rw [inductionHypothesis, cutString_drop_of_find foundHere inside, length, isSub,
        List.append_assoc, List.singleton_append]
  | case3 start out outside =>
      have no_rest : s.drop start = [] := List.drop_eq_nil_iff.mpr (Nat.not_lt.mp outside)
      rw [if_neg outside, HttpServer.cutString, if_pos no_rest, List.append_nil]

/-- Elements that are in the vector already stay in front. -/
theorem cutString_eq_append
    (s : Bytes) (sep : Separator) (out : List Bytes) :
    cutString s sep out = out ++ HttpServer.cutString s sep :=
  cutLoop_eq s sep 0 out

theorem clean_nil (sep : Separator) : ¬ sep.val <:+: [] := by
  rw [List.infix_nil]
  exact sep.property

/-- The pieces are the cut of the string, with the rest behind it unless it is empty. -/
theorem exists_splits (s : Bytes) (sep : Separator) :
    ∃ closed rest, Splits sep.val s closed rest ∧
      HttpServer.cutString s sep = closed ++ if rest = [] then [] else [rest] := by
  fun_induction HttpServer.cutString s sep with
  | case1 => exact ⟨[], [], Splits.of_clean (clean_nil sep), rfl⟩
  | case2 s nonempty missing =>
      refine ⟨[], s, Splits.of_clean (Text.not_infix_of_find missing), ?_⟩
      rw [if_neg nonempty, List.nil_append]
  | case3 s nonempty position found inductionHypothesis =>
      obtain ⟨closed, rest, splits, pieces⟩ := inductionHypothesis
      refine ⟨s.take position :: closed, rest, Splits.of_find found splits, ?_⟩
      rw [pieces, List.cons_append]

/-- Any cut of the string is the one that is made. -/
theorem cutString_of_splits
    {s rest : Bytes}
    {sep : Separator}
    {closed : List Bytes}
    (splits : Splits sep.val s closed rest) :
    HttpServer.cutString s sep = closed ++ if rest = [] then [] else [rest] := by
  obtain ⟨closed', rest', splits', pieces⟩ := exists_splits s sep
  obtain ⟨rfl, rfl⟩ := splits.unique splits'
  exact pieces

/-- What a cut says of the pieces that are appended. -/
theorem pieces_clean
    {s rest : Bytes}
    {sep : Separator}
    {closed : List Bytes}
    (splits : Splits sep.val s closed rest) :
    ∀ piece ∈ closed ++ (if rest = [] then [] else [rest]), ¬ sep.val <:+: piece := by
  intro piece present
  rcases List.mem_append.mp present with isClosed | last
  · exact (splits.pieces_first piece isClosed).clean sep.property
  · split at last
    · exact absurd last List.not_mem_nil
    · obtain rfl := List.mem_singleton.mp last
      exact splits.rest_clean

theorem pieces_joined
    {s rest : Bytes}
    {sep : Separator}
    {closed : List Bytes}
    (splits : Splits sep.val s closed rest) :
    s = sep.val.intercalate (closed ++ if rest = [] then [] else [rest]) ∨
      rest = [] ∧
        s = sep.val.intercalate (closed ++ if rest = [] then [] else [rest]) ++ sep.val := by
  by_cases finished : rest = []
  · rw [if_pos finished, List.append_nil, ← splits.wire_eq, finished]
    by_cases noPiece : closed = []
    · left
      rw [noPiece, Separated.wire_nil, List.intercalate_nil]
    · right
      exact ⟨rfl, Separated.wire_eq_intercalate_append sep.val noPiece⟩
  · left
    rw [if_neg finished, ← splits.wire_eq]
    exact Separated.wire_eq_intercalate sep.val closed rest

/-- `cutString` returns for every string and every separator that is not empty, leaves
what was in the vector, and appends the cut of the string: pieces without the separator
that are the string when they are joined, but for one separator at its end. -/
theorem cutString_spec (s : Bytes) (sep : Separator) (out : List Bytes) :
    ∃ closed rest pieces,
      Splits sep.val s closed rest ∧
      pieces = closed ++ (if rest = [] then [] else [rest]) ∧
      cutString s sep out = out ++ pieces ∧
      (∀ piece ∈ pieces, ¬ sep.val <:+: piece) ∧
      (s = sep.val.intercalate pieces ∨
        rest = [] ∧ s = sep.val.intercalate pieces ++ sep.val) := by
  obtain ⟨closed, rest, splits, pieces⟩ := exists_splits s sep
  refine ⟨closed, rest, _, splits, rfl, ?_, pieces_clean splits, pieces_joined splits⟩
  rw [cutString_eq_append, pieces]

end Util
end HttpServer
end LearnInLinux
