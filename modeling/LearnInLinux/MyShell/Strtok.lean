import LearnInLinux.MyShell.CheckRedir

/-!
# Tokens in place

`strtok` does not copy the words of a line. It writes a NUL byte over the blank behind
each of them and keeps a pointer to what is left. Here its calls are modelled on the
memory of the line, with the positions that they write; the tokens are the words of
the text.
-/

namespace LearnInLinux
namespace MyShell

/-! ## One call -/

/-- What a call of `strtok` does. -/
structure Tokenized where
  memory : Memory
  /-- The position of the token; none is `NULL`. -/
  token : Option Nat
  /-- The positions that are written. -/
  stores : List Nat
  /-- The static pointer, where the next call begins. -/
  saved : Nat

/-- `strtok` with `SEP`, from the position that was saved. -/
def Memory.strtok (m : Memory) (saved : Nat) : Tokenized :=
  let start := saved + ((m.string saved).takeWhile fun byte => byte = 32).length
  let word := Text.cString 32 (m.string start)
  let behind := start + word.length
  if word = [] then { memory := m, token := none, stores := [], saved := start }
  else if m.read behind = 32 then
    { memory := m.write 0 behind, token := some start, stores := [behind]
      saved := behind + 1 }
  else { memory := m, token := some start, stores := [], saved := behind }

/-- A call that returns a token leaves less of the memory for the next one. -/
theorem Memory.strtok_progress
    {m : Memory}
    {saved position : Nat}
    (token : (m.strtok saved).token = some position) :
    saved < m.cells.length ∧ saved < (m.strtok saved).saved ∧
      (m.strtok saved).memory.cells.length = m.cells.length := by
  unfold Memory.strtok at token ⊢
  dsimp only at token ⊢
  have skipped : saved ≤
      saved + ((m.string saved).takeWhile fun byte => byte = 32).length :=
    Nat.le_add_right _ _
  generalize saved + ((m.string saved).takeWhile fun byte => byte = 32).length = start
    at token skipped ⊢
  by_cases noWord : Text.cString 32 (m.string start) = []
  · rw [if_pos noWord] at token
    cases token
  · have longer := List.length_pos_of_ne_nil noWord
    have inside : start < m.cells.length := by
      by_contra outside
      apply noWord
      rw [Memory.string, List.drop_eq_nil_of_le (by omega)]
      rfl
    rw [if_neg noWord]
    split
    · refine ⟨by omega, ?_, ?_⟩
      · change saved < start + _ + 1
        omega
      · rw [Memory.write_natCast, List.length_set]
    · refine ⟨by omega, ?_, rfl⟩
      change saved < start + _
      omega

/-! ## Words of a text -/

theorem strtok_nil : strtok [] = [] := rfl

theorem strtok_blanks (n : Nat) (text : Bytes) :
    strtok (List.replicate n 32 ++ text) = strtok text := by
  induction n with
  | zero => rfl
  | succ n inductionHypothesis =>
      rw [← inductionHypothesis, List.replicate_succ, List.cons_append, strtok,
        List.splitOn_cons_eq_if_modifyHead]
      simp [strtok]

/-- A word with a blank behind it. -/
theorem strtok_word
    {word : Bytes}
    (nonempty : word ≠ [])
    (oneWord : 32 ∉ word)
    (rest : Bytes) :
    strtok (word ++ 32 :: rest) = word :: strtok rest := by
  have pieces : word.splitOn 32 = [word] := List.splitOn_eq_singleton oneWord
  rw [strtok, List.splitOn_append_cons_self, pieces, List.singleton_append,
    List.filter_cons_of_pos (by simp [nonempty])]
  rfl

theorem strtok_last
    {word : Bytes}
    (nonempty : word ≠ [])
    (oneWord : 32 ∉ word) :
    strtok word = [word] := by
  rw [strtok, List.splitOn_eq_singleton oneWord,
    List.filter_cons_of_pos (by simp [nonempty])]
  rfl

/-- The blanks at the front of a text. -/
theorem leading_blanks (text : Bytes) :
    ∃ n rest, text = List.replicate n 32 ++ rest ∧ rest.head? ≠ some 32 ∧
      (text.takeWhile fun byte => byte = 32).length = n := by
  induction text with
  | nil => exact ⟨0, [], rfl, by simp, rfl⟩
  | cons head tail inductionHypothesis =>
      by_cases isBlank : head = 32
      · obtain ⟨n, rest, equal, front, length⟩ := inductionHypothesis
        refine ⟨n + 1, rest, ?_, front, ?_⟩
        · rw [List.replicate_succ, List.cons_append, isBlank, ← equal]
        · rw [List.takeWhile_cons_of_pos (by simp [isBlank]), List.length_cons, length]
      · refine ⟨0, head :: tail, rfl, by simpa using isBlank, ?_⟩
        rw [List.takeWhile_cons_of_neg (by simp [isBlank]), List.length_nil]

/-! ## Texts in memory -/

/-- The C string at the position is `text`, with its NUL byte in memory. -/
structure Holds (m : Memory) (position : Nat) (text : Bytes) : Prop where
  cells : ∃ front more, m.cells = front ++ (text ++ 0 :: more) ∧ front.length = position
  clean : 0 ∉ text

namespace Holds

variable {m : Memory} {position : Nat} {text first rest : Bytes} {byte : UInt8}

theorem string (holds : Holds m position text) : m.string position = text := by
  obtain ⟨⟨front, more, cells, rfl⟩, clean⟩ := holds
  rw [Memory.string, cells, List.drop_left, Text.cString_append_terminator_cons,
    Text.cString_eq_self clean]

/-- The rest of a text is behind its first part. -/
theorem behind (holds : Holds m position (first ++ rest)) :
    Holds m (position + first.length) rest := by
  obtain ⟨⟨front, more, cells, rfl⟩, clean⟩ := holds
  refine ⟨⟨front ++ first, more, ?_, List.length_append⟩, ?_⟩
  · rw [cells, List.append_assoc, List.append_assoc]
  · exact fun present => clean (List.mem_append_right _ present)

theorem read_cons (holds : Holds m position (byte :: rest)) :
    m.read position = byte := by
  obtain ⟨⟨front, more, cells, rfl⟩, -⟩ := holds
  exact Memory.read_of_cells cells

theorem read_nil (holds : Holds m position []) :
    m.read position = 0 := by
  obtain ⟨⟨front, more, cells, rfl⟩, -⟩ := holds
  exact Memory.read_of_cells cells

theorem length_lt (holds : Holds m position text) :
    position + text.length < m.cells.length := by
  obtain ⟨⟨front, more, cells, rfl⟩, -⟩ := holds
  rw [cells, List.length_append, List.length_append, List.length_cons]
  omega

/-- A NUL byte over a character cuts the text. -/
theorem cut (holds : Holds m position (first ++ byte :: rest)) :
    Holds (m.write 0 (position + first.length : Nat)) position first ∧
      Holds (m.write 0 (position + first.length : Nat))
        (position + first.length + 1) rest := by
  obtain ⟨⟨front, more, cells, rfl⟩, clean⟩ := holds
  simp only [List.mem_append, List.mem_cons, not_or] at clean
  have written : (m.write 0 (front.length + first.length : Nat)).cells =
      front ++ (first ++ 0 :: (rest ++ 0 :: more)) := by
    have split : m.cells = (front ++ first) ++ byte :: (rest ++ 0 :: more) := by
      rw [cells]
      simp
    rw [Memory.write_natCast, split, ← List.length_append,
      List.set_append_right _ _ (Nat.le_refl _), Nat.sub_self, List.set_cons_zero,
      List.append_assoc]
  constructor
  · exact ⟨⟨front, _, written, rfl⟩, clean.1⟩
  · refine ⟨⟨front ++ first ++ [0], more, ?_, ?_⟩, clean.2.2⟩
    · rw [written]
      simp
    · simp only [List.length_append, List.length_singleton]

end Holds

/-- A byte is left as it is, or was a blank and is NUL now. -/
def Overwritten (old new : UInt8) : Prop :=
  new = old ∨ (old = 32 ∧ new = 0)

/-- Some blanks of the memory are NUL bytes now. -/
def Blanked (m after : Memory) : Prop :=
  List.Forall₂ Overwritten m.cells after.cells

namespace Blanked

variable {m after : Memory}

theorem refl (m : Memory) : Blanked m m :=
  List.forall₂_same.mpr fun _ _ => Or.inl rfl

theorem write
    {position : Nat}
    (isBlank : m.read position = 32) :
    Blanked m (m.write 0 position) := by
  rw [Memory.read_natCast] at isBlank
  rw [Blanked, Memory.write_natCast]
  generalize m.cells = cells at isBlank
  induction cells generalizing position with
  | nil => exact .nil
  | cons head tail inductionHypothesis =>
      cases position with
      | zero => exact .cons (Or.inr ⟨isBlank, rfl⟩) (refl ⟨0, tail⟩)
      | succ position => exact .cons (Or.inl rfl) (inductionHypothesis isBlank)

theorem length_eq (blanked : Blanked m after) :
    after.cells.length = m.cells.length :=
  (List.Forall₂.length_eq blanked).symm

/-- A text without blanks is still there. -/
theorem string_eq
    (blanked : Blanked m after)
    {position : Nat}
    (noBlank : 32 ∉ m.string position) :
    after.string position = m.string position := by
  have behind := List.forall₂_drop position blanked
  unfold Memory.string at noBlank ⊢
  generalize m.cells.drop position = old at behind noBlank
  generalize after.cells.drop position = new at behind
  induction behind with
  | nil => rfl
  | @cons byte newByte oldTail newTail head tail inductionHypothesis =>
      by_cases isNul : byte = 0
      · rcases head with rfl | ⟨isBlank, _⟩
        · simp [Text.cString, isNul]
        · exact absurd (isBlank.symm.trans isNul) (by decide)
      · have kept (rest : Bytes) :
            Text.cString 0 (byte :: rest) = byte :: Text.cString 0 rest := by
          simp [Text.cString, isNul]
        rw [kept, List.mem_cons, not_or] at noBlank
        rcases head with rfl | ⟨isBlank, _⟩
        · rw [kept, kept, inductionHypothesis noBlank.2]
        · exact absurd isBlank.symm noBlank.1

end Blanked

/-! ## What a call returns -/

/-- The call returns the next word and cuts it off from the rest. -/
structure Takes (m : Memory) (called : Tokenized) (word rest : Bytes) : Prop where
  returned : ∃ start, called.token = some start ∧ called.memory.string start = word
  oneWord : 32 ∉ word
  saved : Holds called.memory called.saved rest
  blanked : Blanked m called.memory
  inside : ∀ position ∈ called.stores, position < m.cells.length

section

variable {m : Memory} {start saved : Nat} {text word rest : Bytes}

/-- A word with a blank behind it. -/
theorem takes_word
    (holds : Holds m start (word ++ 32 :: rest))
    (oneWord : 32 ∉ word) :
    Takes m
      { memory := m.write 0 (start + word.length : Nat), token := some start
        stores := [start + word.length], saved := start + word.length + 1 }
      word rest where
  returned := ⟨start, rfl, holds.cut.1.string⟩
  oneWord := oneWord
  saved := holds.cut.2
  blanked := Blanked.write holds.behind.read_cons
  inside position present := by
    rw [List.mem_singleton] at present
    have bound := holds.length_lt
    rw [List.length_append, List.length_cons] at bound
    omega

/-- The last word, with the NUL byte of the line behind it. -/
theorem takes_last
    (holds : Holds m start word)
    (oneWord : 32 ∉ word) :
    Takes m
      { memory := m, token := some start, stores := [], saved := start + word.length }
      word [] where
  returned := ⟨start, rfl, holds.string⟩
  oneWord := oneWord
  saved := by
    rw [← List.append_nil word] at holds
    exact holds.behind
  blanked := Blanked.refl m
  inside position present := absurd present List.not_mem_nil

/-- A call returns the next word, or `NULL` and writes nothing when there is none. -/
theorem strtok_cases (holds : Holds m saved text) :
    (strtok text = [] ∧ (m.strtok saved).token = none ∧
      (m.strtok saved).stores = [] ∧ (m.strtok saved).memory = m) ∨
    ∃ word rest, strtok text = word :: strtok rest ∧
      Takes m (m.strtok saved) word rest := by
  obtain ⟨n, behind, rfl, front, blanks⟩ := leading_blanks text
  have holdsBehind := holds.behind
  rw [List.length_replicate] at holdsBehind
  rw [strtok_blanks]
  unfold Memory.strtok
  rw [holds.string, blanks]
  dsimp only
  rw [holdsBehind.string]
  have oneWord := Text.terminator_not_mem_cString 32 behind
  by_cases nonempty : Text.cString 32 behind = []
  · left
    have nothing : behind = [] := by
      rcases Text.cString_cases 32 behind with whole | ⟨rest, cut⟩
      · rw [← whole, nonempty]
      · rw [cut, nonempty] at front
        exact absurd rfl front
    rw [if_pos nonempty, nothing]
    exact ⟨rfl, rfl, rfl, rfl⟩
  · right
    rw [if_neg nonempty]
    rcases Text.cString_cases 32 behind with whole | ⟨rest, cut⟩
    · rw [whole] at nonempty oneWord ⊢
      have atEnd : Holds m (saved + n + behind.length) [] := by
        rw [← List.append_nil behind] at holdsBehind
        exact holdsBehind.behind
      rw [atEnd.read_nil, if_neg (by decide)]
      refine ⟨behind, [], ?_, takes_last holdsBehind oneWord⟩
      rw [strtok_last nonempty oneWord, strtok_nil]
    · generalize Text.cString 32 behind = word at nonempty oneWord cut
      subst cut
      rw [holdsBehind.behind.read_cons, if_pos rfl]
      exact ⟨word, rest, strtok_word nonempty oneWord rest, takes_word holdsBehind oneWord⟩

end

end MyShell
end LearnInLinux
