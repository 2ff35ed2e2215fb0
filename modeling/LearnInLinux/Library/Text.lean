import Mathlib.Data.List.Infix
import Mathlib.Data.List.TakeWhile

/-!
# Searching and cutting character sequences

List forms of the string operations `find`, `rfind`, `substr` and `erase`, over
any character type. A position is the number of characters in front of it, and
a failed search is `none`. `substr` and `erase` clip a count that runs past the
end; their start is never past the end in the uses below.
-/

namespace Text

variable {α : Type} [DecidableEq α]

/-- Position of the first occurrence of `pattern`. -/
def find (pattern : List α) : List α → Option Nat
  | [] => if pattern = [] then some 0 else none
  | head :: tail =>
      if pattern <+: head :: tail then some 0
      else (find pattern tail).map (· + 1)

/-- Position of the last occurrence of `pattern`. -/
def rfind (pattern : List α) : List α → Option Nat
  | [] => if pattern = [] then some 0 else none
  | head :: tail =>
      match rfind pattern tail with
      | some position => some (position + 1)
      | none => if pattern <+: head :: tail then some 0 else none

/-- The `count` characters from `start` on. -/
def substr (text : List α) (start count : Nat) : List α :=
  (text.drop start).take count

/-- What is left when the `count` characters from `start` on are removed. -/
def erase (text : List α) (start count : Nat) : List α :=
  text.take start ++ text.drop (start + count)

/-- The characters in front of the first `terminator`, as a C string reads
them. -/
def cString (terminator : α) (text : List α) : List α :=
  text.takeWhile fun character => !decide (character = terminator)

omit [DecidableEq α] in
@[simp] theorem substr_zero (text : List α) (count : Nat) :
    substr text 0 count = text.take count := by
  simp [substr]

omit [DecidableEq α] in
@[simp] theorem erase_zero (text : List α) (count : Nat) :
    erase text 0 count = text.drop count := by
  simp [erase]

/-! ## The first occurrence -/

/-- A found position splits the text around the pattern. -/
theorem find_split
    {pattern text : List α}
    {position : Nat}
    (found : find pattern text = some position) :
    text = text.take position ++ pattern ++
      text.drop (position + pattern.length) := by
  induction text generalizing position with
  | nil =>
      simp only [find] at found
      split at found
      · rename_i empty
        simp [empty]
      · simp at found
  | cons head tail inductionHypothesis =>
      simp only [find] at found
      split at found
      · rename_i isPrefix
        obtain ⟨rest, equal⟩ := isPrefix
        simp only [Option.some.injEq] at found
        subst found
        simp [← equal]
      · simp only [Option.map_eq_some_iff] at found
        obtain ⟨previous, foundTail, rfl⟩ := found
        have tailSplit := inductionHypothesis foundTail
        rw [show previous + 1 + pattern.length =
          previous + pattern.length + 1 by omega]
        simpa using tailSplit

theorem find_le_length
    {pattern text : List α}
    {position : Nat}
    (found : find pattern text = some position) :
    position + pattern.length ≤ text.length := by
  induction text generalizing position with
  | nil =>
      simp only [find] at found
      split at found
      · rename_i empty
        simp only [Option.some.injEq] at found
        simp [empty, ← found]
      · simp at found
  | cons head tail inductionHypothesis =>
      simp only [find] at found
      split at found
      · rename_i isPrefix
        simp only [Option.some.injEq] at found
        simpa [← found] using isPrefix.length_le
      · simp only [Option.map_eq_some_iff] at found
        obtain ⟨previous, foundTail, rfl⟩ := found
        have bound := inductionHypothesis foundTail
        simp only [List.length_cons]
        omega

/-- A text with no occurrence of the pattern's first character in front of an
occurrence has its first occurrence there. -/
theorem find_append
    {first : α}
    {pattern before after : List α}
    (absent : first ∉ before) :
    find (first :: pattern) (before ++ (first :: pattern) ++ after) =
      some before.length := by
  induction before with
  | nil => simp [find]
  | cons head tail inductionHypothesis =>
      simp only [List.mem_cons, not_or] at absent
      simp only [List.cons_append, find, List.cons_prefix_cons]
      rw [if_neg (by simp [absent.1])]
      rw [inductionHypothesis absent.2]
      simp

/-- Every occurrence of the pattern makes the search succeed. -/
theorem find_ne_none_of_append
    (before pattern after : List α) :
    find pattern (before ++ pattern ++ after) ≠ none := by
  induction before with
  | nil =>
      cases pattern with
      | nil => cases after <;> simp [find]
      | cons first rest => simp [find]
  | cons head tail inductionHypothesis =>
      simp only [List.cons_append, find]
      split
      · simp
      · simpa using inductionHypothesis

/-- No occurrence stands in front of the first one. -/
theorem find_le_of_append
    {before pattern after : List α}
    {position : Nat}
    (found : find pattern (before ++ pattern ++ after) = some position) :
    position ≤ before.length := by
  induction before generalizing position with
  | nil =>
      cases pattern with
      | nil => cases after <;> simp [find] at found <;> simp [← found]
      | cons first rest => simp [find] at found; simp [← found]
  | cons head tail inductionHypothesis =>
      simp only [List.cons_append, find] at found
      split at found
      · obtain rfl := Option.some.inj found
        exact Nat.zero_le _
      · obtain ⟨previous, foundTail, rfl⟩ := Option.map_eq_some_iff.mp found
        exact Nat.succ_le_succ (inductionHypothesis foundTail)

/-- The search fails on texts without an occurrence. -/
theorem not_infix_of_find
    {pattern text : List α}
    (missing : find pattern text = none) :
    ¬ pattern <:+: text := by
  rintro ⟨before, after, rfl⟩
  exact find_ne_none_of_append before pattern after missing

theorem find_singleton_eq_none_iff
    {mark : α}
    {text : List α} :
    find [mark] text = none ↔ mark ∉ text := by
  constructor
  · intro missing present
    obtain ⟨before, after, rfl⟩ := List.append_of_mem present
    exact find_ne_none_of_append before [mark] after (by simpa using missing)
  · intro absent
    cases found : find [mark] text with
    | none => rfl
    | some position =>
        have split := find_split found
        exact absurd (by rw [split]; simp) absent

/-- The text in front of a found mark does not contain the mark. -/
theorem not_mem_take_of_find
    {mark : α}
    {text : List α}
    {position : Nat}
    (found : find [mark] text = some position) :
    mark ∉ text.take position := by
  induction text generalizing position with
  | nil => simp
  | cons head tail inductionHypothesis =>
      simp only [find] at found
      split at found
      · simp only [Option.some.injEq] at found
        simp [← found]
      · rename_i notHead
        simp only [Option.map_eq_some_iff] at found
        obtain ⟨previous, foundTail, rfl⟩ := found
        simp only [List.take_succ_cons, List.mem_cons, not_or]
        refine ⟨?_, inductionHypothesis foundTail⟩
        intro equal
        exact notHead (by simp [equal])

/-! ## The last occurrence -/

/-- A search for a mark from the back fails exactly on texts without it. -/
theorem rfind_singleton_eq_none_iff
    {mark : α}
    {text : List α} :
    rfind [mark] text = none ↔ mark ∉ text := by
  induction text with
  | nil => simp [rfind]
  | cons head tail inductionHypothesis =>
      rw [rfind, List.mem_cons, not_or]
      cases found : rfind [mark] tail with
      | some position =>
          have present : mark ∈ tail := by
            by_contra absent
            rw [inductionHypothesis.mpr absent] at found
            exact absurd found (by simp)
          simp [present]
      | none =>
          have absent := inductionHypothesis.mp found
          by_cases equal : mark = head <;> simp [equal, absent]

/-- A text with no mark behind an occurrence has its last occurrence there. -/
theorem rfind_append
    {mark : α}
    {before after : List α}
    (absent : mark ∉ after) :
    rfind [mark] (before ++ [mark] ++ after) = some before.length := by
  induction before with
  | nil =>
      have missing := rfind_singleton_eq_none_iff.mpr absent
      simp [rfind, missing]
  | cons head tail inductionHypothesis =>
      rw [List.cons_append, List.cons_append, rfind, inductionHypothesis]
      rfl

/-! ## Pieces -/

/-- A piece between two marks is made of characters of the text. -/
theorem mem_of_mem_splitOn
    {mark : α}
    {text piece : List α}
    (isPiece : piece ∈ text.splitOn mark)
    {character : α}
    (present : character ∈ piece) :
    character ∈ text := by
  induction text generalizing piece with
  | nil =>
      rw [List.splitOn_nil, List.mem_singleton] at isPiece
      rwa [isPiece] at present
  | cons head tail inductionHypothesis =>
      rw [List.splitOn_cons_eq_if_modifyHead] at isPiece
      split at isPiece
      · rcases List.mem_cons.mp isPiece with rfl | later
        · exact absurd present (by simp)
        · exact List.mem_cons_of_mem _ (inductionHypothesis later present)
      · rcases pieces : tail.splitOn mark with _ | ⟨first, rest⟩
        · exact absurd pieces (List.splitOn_ne_nil mark tail)
        · rw [pieces] at isPiece inductionHypothesis
          rcases List.mem_cons.mp isPiece with rfl | later
          · rcases List.mem_cons.mp present with rfl | inFirst
            · simp
            · exact List.mem_cons_of_mem _ (inductionHypothesis (by simp) inFirst)
          · have inTail : piece ∈ first :: rest := List.mem_cons_of_mem _ later
            exact List.mem_cons_of_mem _ (inductionHypothesis inTail present)

/-! ## C strings -/

@[simp] theorem cString_nil (terminator : α) :
    cString terminator [] = [] := rfl

/-- What is behind a terminator does not belong to the C string. -/
theorem cString_append_terminator_cons
    (terminator : α)
    (text rest : List α) :
    cString terminator (text ++ terminator :: rest) = cString terminator text := by
  induction text with
  | nil => simp [cString]
  | cons head tail inductionHypothesis =>
      simp only [cString] at inductionHypothesis ⊢
      by_cases equal : head = terminator
      · simp [equal]
      · simp [equal, inductionHypothesis]

/-- The terminator written behind the data ends the C string. -/
@[simp] theorem cString_append_terminator
    (terminator : α)
    (text : List α) :
    cString terminator (text ++ [terminator]) = cString terminator text :=
  cString_append_terminator_cons terminator text []

theorem cString_eq_self
    {terminator : α}
    {text : List α}
    (absent : terminator ∉ text) :
    cString terminator text = text := by
  unfold cString
  rw [List.takeWhile_eq_self_iff]
  intro character present
  have different : character ≠ terminator := by
    rintro rfl
    exact absent present
  simp [different]

theorem terminator_not_mem_cString
    (terminator : α)
    (text : List α) :
    terminator ∉ cString terminator text := by
  intro present
  have := List.mem_takeWhile_imp present
  simp at this

theorem cString_eq_self_iff
    {terminator : α}
    {text : List α} :
    cString terminator text = text ↔ terminator ∉ text := by
  constructor
  · intro same
    rw [← same]
    exact terminator_not_mem_cString terminator text
  · exact cString_eq_self

/-- A clean front part survives in the C string of the whole. -/
theorem cString_append
    {terminator : α}
    {front : List α}
    (absent : terminator ∉ front)
    (back : List α) :
    cString terminator (front ++ back) = front ++ cString terminator back := by
  induction front with
  | nil => rfl
  | cons head tail inductionHypothesis =>
      simp only [List.mem_cons, not_or] at absent
      have keep : head ≠ terminator := fun equal => absent.1 equal.symm
      have tailEqual := inductionHypothesis absent.2
      simp only [cString] at tailEqual ⊢
      simp [keep, tailEqual]

/-- The text ends with its C string, or a terminator stands behind it. -/
theorem cString_cases (terminator : α) (text : List α) :
    cString terminator text = text ∨
      ∃ rest, text = cString terminator text ++ terminator :: rest := by
  induction text with
  | nil => exact Or.inl rfl
  | cons head tail inductionHypothesis =>
      by_cases equal : head = terminator
      · refine Or.inr ⟨tail, ?_⟩
        simp [cString, equal]
      · have keep : cString terminator (head :: tail) = head :: cString terminator tail := by
          simp [cString, equal]
        rw [keep]
        rcases inductionHypothesis with whole | ⟨rest, cut⟩
        · exact Or.inl (congrArg (head :: ·) whole)
        · refine Or.inr ⟨rest, ?_⟩
          rw [List.cons_append, ← cut]

theorem cString_sublist (terminator : α) (text : List α) :
    (cString terminator text).Sublist text :=
  List.takeWhile_sublist _

end Text
