import LearnInLinux.Library.Text

/-!
# Pieces between separators

A text over any alphabet is cut from left to right at the occurrences of a separator of
any length. `Splits` says what the cut is: pieces that are closed by the first occurrence
of the separator behind their beginning, and a rest without the separator. Occurrences
of a separator may overlap, so that it is not enough that no piece contains one; closed
by the first occurrence, a text has one cut.
-/

namespace Separated

variable {α : Type}

/-- `pieces`, each closed by the separator, and an unfinished `rest`. -/
def wire (sep : List α) (pieces : List (List α)) (rest : List α) : List α :=
  (pieces.map (· ++ sep)).flatten ++ rest

/-- Behind `piece` stands the first occurrence of the separator. -/
def First (sep piece : List α) : Prop :=
  ∀ before after, before ++ sep ++ after = piece ++ sep → after = []

/-- `pieces` and `rest` are the cut of `text` at `sep`. -/
structure Splits
    (sep text : List α)
    (pieces : List (List α))
    (rest : List α) : Prop where
  wire_eq : wire sep pieces rest = text
  pieces_first : ∀ piece ∈ pieces, First sep piece
  rest_clean : ¬ sep <:+: rest

@[simp] theorem wire_nil (sep rest : List α) : wire sep [] rest = rest := rfl

@[simp] theorem wire_cons
    (sep piece : List α)
    (pieces : List (List α))
    (rest : List α) :
    wire sep (piece :: pieces) rest = piece ++ sep ++ wire sep pieces rest := by
  simp [wire]

/-- With an unfinished rest the text is made of all pieces joined. -/
theorem wire_eq_intercalate
    (sep : List α)
    (pieces : List (List α))
    (rest : List α) :
    wire sep pieces rest = sep.intercalate (pieces ++ [rest]) := by
  induction pieces with
  | nil => rw [wire_nil, List.nil_append, List.intercalate_singleton]
  | cons piece pieces inductionHypothesis =>
      rw [wire_cons, inductionHypothesis, List.cons_append,
        List.intercalate_cons_of_ne_nil (by simp)]

/-- Without a rest one separator stands at the end. -/
theorem wire_eq_intercalate_append
    (sep : List α)
    {pieces : List (List α)}
    (nonempty : pieces ≠ []) :
    wire sep pieces [] = sep.intercalate pieces ++ sep := by
  induction pieces with
  | nil => exact absurd rfl nonempty
  | cons piece pieces inductionHypothesis =>
      rw [wire_cons]
      by_cases last : pieces = []
      · rw [last, wire_nil, List.intercalate_singleton, List.append_nil]
      · rw [inductionHypothesis last, List.intercalate_cons_of_ne_nil last]
        simp only [List.append_assoc]

/-- A piece does not contain the separator that closes it. -/
theorem First.clean
    {sep piece : List α}
    (first : First sep piece)
    (nonempty : sep ≠ []) :
    ¬ sep <:+: piece := by
  rintro ⟨before, after, rfl⟩
  have nothing := first before (after ++ sep) (by simp only [List.append_assoc])
  exact nonempty (List.append_eq_nil_iff.mp nothing).2

/-- Pieces closed by first occurrences end at the same place. -/
theorem First.unique
    {sep piece piece' rest rest' : List α}
    (first : First sep piece)
    (first' : First sep piece')
    (same : piece ++ sep ++ rest = piece' ++ sep ++ rest') :
    piece = piece' ∧ rest = rest' := by
  rcases List.append_eq_append_iff.mp same with ⟨between, longer, rfl⟩ | ⟨between, longer, rfl⟩
  · obtain rfl := first' piece between longer.symm
    rw [List.append_nil] at longer
    exact ⟨List.append_cancel_right longer.symm, rfl⟩
  · obtain rfl := first piece' between longer.symm
    rw [List.append_nil] at longer
    exact ⟨List.append_cancel_right longer, rfl⟩

namespace Splits

variable {sep text rest rest' : List α} {pieces pieces' : List (List α)}

theorem of_clean (clean : ¬ sep <:+: text) : Splits sep text [] text :=
  ⟨rfl, by simp, clean⟩

/-- Closing one more piece in front. -/
theorem cons
    {piece : List α}
    (first : First sep piece)
    (splits : Splits sep text pieces rest) :
    Splits sep (piece ++ sep ++ text) (piece :: pieces) rest := by
  refine ⟨?_, ?_, splits.rest_clean⟩
  · rw [wire_cons, splits.wire_eq]
  · exact List.forall_mem_cons.mpr ⟨first, splits.pieces_first⟩

/-- A text has at most one cut. -/
theorem unique
    (splits : Splits sep text pieces rest)
    (other : Splits sep text pieces' rest') :
    pieces = pieces' ∧ rest = rest' := by
  induction pieces generalizing text pieces' with
  | nil =>
      cases pieces' with
      | nil => exact ⟨rfl, splits.wire_eq.trans other.wire_eq.symm⟩
      | cons piece others =>
          have same := splits.wire_eq.trans other.wire_eq.symm
          rw [wire_nil, wire_cons] at same
          exact absurd ⟨piece, _, same.symm⟩ splits.rest_clean
  | cons piece others inductionHypothesis =>
      cases pieces' with
      | nil =>
          have same := splits.wire_eq.trans other.wire_eq.symm
          rw [wire_nil, wire_cons] at same
          exact absurd ⟨piece, _, same⟩ other.rest_clean
      | cons piece' others' =>
          have same := splits.wire_eq.trans other.wire_eq.symm
          rw [wire_cons, wire_cons] at same
          obtain ⟨first, firsts⟩ := List.forall_mem_cons.mp splits.pieces_first
          obtain ⟨first', firsts'⟩ := List.forall_mem_cons.mp other.pieces_first
          obtain ⟨rfl, tails⟩ := first.unique first' same
          obtain ⟨rfl, rests⟩ := inductionHypothesis
            ⟨rfl, firsts, splits.rest_clean⟩ ⟨tails.symm, firsts', other.rest_clean⟩
          exact ⟨rfl, rests⟩

end Splits

/-! ## The cut by searching -/

section Search

variable [DecidableEq α] {sep text : List α} {position : Nat}

theorem first_of_find (found : Text.find sep text = some position) :
    First sep (text.take position) := by
  intro before after same
  have whole : text = before ++ sep ++ (after ++ text.drop (position + sep.length)) := by
    rw [← List.append_assoc, same]
    exact Text.find_split found
  have bound := Text.find_le_length found
  have earliest : position ≤ before.length := by
    rw [whole] at found
    exact Text.find_le_of_append found
  have lengths := congrArg List.length same
  simp only [List.length_append, List.length_take] at lengths
  apply List.eq_nil_of_length_eq_zero
  omega

/-- Searching in what is left cuts the text. -/
theorem Splits.of_find
    {pieces : List (List α)}
    {rest : List α}
    (found : Text.find sep text = some position)
    (splits : Splits sep (text.drop (position + sep.length)) pieces rest) :
    Splits sep text (text.take position :: pieces) rest := by
  have whole := splits.cons (first_of_find found)
  rw [← Text.find_split found] at whole
  exact whole

end Search

end Separated
