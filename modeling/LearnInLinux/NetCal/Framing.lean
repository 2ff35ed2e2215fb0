import LearnInLinux.Basic
import LearnInLinux.Library.Decimal

/-!
# Length-prefixed frames

A frame is the length of its payload in decimal, CRLF, the payload, CRLF.
`Decode` takes the first frame out of a buffer. It computes with `size_t` and
`int` side by side, so a header that is no length, or a length that does not fit,
is met by conversions only. The last section says for which buffers it takes out
a frame or nothing.
-/

namespace LearnInLinux
namespace NetCal

open Text Decimal

/-- `SEP`, carriage return and line feed. -/
def sep : Bytes := [13, 10]

/-- Conversion of an integer to the 64-bit `size_t`. -/
def sizeT (number : Int) : Nat :=
  (number % 2 ^ 64).toNat

/-- Take the first frame out of the buffer. Result: the payload, empty when there
is no frame, and the buffer that is left. -/
def decode (buffer : Bytes) : Bytes × Bytes :=
  match find sep buffer with
  | none => ([], buffer)
  | some pos =>
      let size := atoi (substr buffer 0 pos)
      let surplus := Int32.ofInt (sizeT (buffer.length - pos - 2 * sep.length))
      if surplus ≥ size then
        let buffer := erase buffer 0 (pos + sep.length)
        let s := substr buffer 0 (sizeT size.toInt)
        let buffer := erase buffer 0 (sizeT (size.toInt + sep.length))
        (s, buffer)
      else ([], buffer)

/-- Put the length in front of the payload. -/
def encode (s : Bytes) : Bytes :=
  natText s.length ++ sep ++ s ++ sep

/-! ## Narrowing -/

/-- The conversions agree on numbers that fit. -/
theorem toInt_ofInt_sizeT
    {number : Int}
    (low : -2 ^ 31 ≤ number)
    (high : number < 2 ^ 31) :
    (Int32.ofInt (sizeT number)).toInt = number := by
  have size : (Int32.size : Int) = 2 ^ 32 := rfl
  rw [Int32.toInt_ofInt, Int.bmod_def, size]
  unfold sizeT
  omega

theorem sizeT_of_nonneg
    {number : Nat}
    (small : number < 2 ^ 64) :
    sizeT number = number := by
  unfold sizeT
  omega

/-! ## Headers -/

/-- Carriage returns are no digits. -/
theorem cr_not_mem_numeral
    {header : Bytes}
    (numeral : Numeral header) :
    13 ∉ header := by
  intro present
  exact absurd (numeral.2 13 present) (by decide)

/-- A header without a carriage return ends at the first separator. -/
theorem find_sep_header
    {header : Bytes}
    (clean : 13 ∉ header)
    (rest : Bytes) :
    find sep (header ++ sep ++ rest) = some header.length :=
  find_append clean

/-- Without a line feed there is no separator. -/
theorem find_sep_eq_none
    {buffer : Bytes}
    (clean : 10 ∉ buffer) :
    find sep buffer = none := by
  cases found : find sep buffer with
  | none => rfl
  | some pos =>
      have split := find_split found
      exact absurd (by rw [split]; simp [sep]) clean

/-- The parts around the first separator. -/
theorem exists_of_find_sep
    {buffer : Bytes}
    {pos : Nat}
    (found : find sep buffer = some pos) :
    ∃ header rest, buffer = header ++ sep ++ rest ∧ header.length = pos := by
  refine ⟨buffer.take pos, buffer.drop (pos + sep.length), find_split found, ?_⟩
  have bound := find_le_length found
  rw [List.length_take]
  omega

/-- What `Decode` does behind the first separator. -/
theorem decode_of_find
    {header rest : Bytes}
    (found : find sep (header ++ sep ++ rest) = some header.length)
    (small : rest.length < 2 ^ 31 + 2) :
    decode (header ++ sep ++ rest) =
      if (atoi header).toInt ≤ (rest.length : Int) - 2 then
        (rest.take (sizeT (atoi header).toInt),
          rest.drop (sizeT ((atoi header).toInt + 2)))
      else ([], header ++ sep ++ rest) := by
  have behind : ((header ++ sep ++ rest).length : Int) - header.length -
      2 * sep.length = rest.length - 2 := by
    simp only [List.length_append, sep, List.length_cons, List.length_nil]
    omega
  have front : substr (header ++ sep ++ rest) 0 header.length = header := by
    simp
  have cut : erase (header ++ sep ++ rest) 0 (header.length + sep.length) = rest := by
    rw [erase_zero, List.drop_left' (by simp)]
  have surplus : (Int32.ofInt (sizeT ((rest.length : Int) - 2))).toInt =
      rest.length - 2 :=
    toInt_ofInt_sizeT (by omega) (by omega)
  simp only [decode, found, front, cut, behind]
  simp only [ge_iff_le, Int32.le_iff_toInt_le, surplus]
  rw [substr_zero, erase_zero]
  rfl

/-- The same behind a header that is the numeral of a small length. -/
theorem decode_of_numeral
    {header rest : Bytes}
    (numeral : Numeral header)
    (fits : value header < 2 ^ 31)
    (small : rest.length < 2 ^ 31 + 2) :
    decode (header ++ sep ++ rest) =
      if value header + 2 ≤ rest.length then
        (rest.take (value header), rest.drop (value header + 2))
      else ([], header ++ sep ++ rest) := by
  rw [decode_of_find (find_sep_header (cr_not_mem_numeral numeral) rest) small,
    atoi_numeral numeral fits]
  have keep : sizeT (value header : Int) = value header :=
    sizeT_of_nonneg (by omega)
  have skip : sizeT ((value header : Int) + 2) = value header + 2 := by
    rw [show (value header : Int) + 2 = (value header + 2 : Nat) by push_cast; rfl]
    exact sizeT_of_nonneg (by omega)
  rw [keep, skip]
  split <;> split <;> first | rfl | omega

/-! ## Frames and their prefixes -/

theorem encode_append (s tail : Bytes) :
    encode s ++ tail = natText s.length ++ sep ++ (s ++ sep ++ tail) := by
  simp [encode]

theorem decode_encode
    {s tail : Bytes}
    (small : s.length + tail.length < 2 ^ 31) :
    decode (encode s ++ tail) = (s, tail) := by
  have length : (s ++ sep ++ tail).length = s.length + 2 + tail.length := by
    rw [List.length_append, List.length_append]
    rfl
  have payload : (s ++ sep ++ tail).take s.length = s := by
    rw [List.append_assoc, List.take_left]
  have behind : (s ++ sep ++ tail).drop (s.length + 2) = tail :=
    List.drop_left' (by simp [sep])
  rw [encode_append, decode_of_numeral (natText_numeral _) (by simp; omega)
    (by omega), value_natText, if_pos (by omega), payload, behind]

theorem decode_unfinished
    {s front : Bytes}
    (small : s.length < 2 ^ 31)
    (isPrefix : front <+: encode s)
    (proper : front ≠ encode s) :
    decode front = ([], front) := by
  have whole : encode s = natText s.length ++ sep ++ (s ++ sep) := by
    simp [encode]
  have header : natText s.length ++ sep <+: encode s :=
    ⟨s ++ sep, whole.symm⟩
  by_cases complete : natText s.length ++ sep <+: front
  · -- the header is there, but not everything it announces
    obtain ⟨rest, rfl⟩ := complete
    rw [whole, List.prefix_append_right_inj] at isPrefix
    have shorter : rest.length < (s ++ sep).length := by
      refine Nat.lt_of_le_of_ne isPrefix.length_le fun equal => proper ?_
      rw [whole, isPrefix.eq_of_length equal]
    rw [List.length_append] at shorter
    change rest.length < s.length + 2 at shorter
    rw [decode_of_numeral (natText_numeral _) (by simpa using small) (by omega),
      value_natText, if_neg (by omega)]
  · -- the header is cut off in front of its line feed
    have inHeader := (List.prefix_or_prefix_of_prefix header isPrefix).resolve_left
      complete
    rw [show sep = [13] ++ [10] from rfl, ← List.append_assoc] at inHeader complete
    have cut : front <+: natText s.length ++ [13] := by
      rcases List.prefix_concat_iff.mp inHeader with equal | cut
      · exact absurd (by rw [equal]) complete
      · exact cut
    have noLineFeed : 10 ∉ front := by
      intro present
      rcases List.mem_append.mp (cut.subset present) with inDigits | inEnd
      · exact absurd ((natText_numeral s.length).2 10 inDigits) (by decide)
      · exact absurd inEnd (by decide)
    rw [decode, find_sep_eq_none noLineFeed]

/-- `Decode` undoes `Encode` whatever follows, and leaves an unfinished frame
alone. -/
theorem decode_inverts_encode
    (s tail : Bytes)
    (small : (encode s ++ tail).length < 2 ^ 31) :
    decode (encode s ++ tail) = (s, tail) ∧
      ∀ front, front <+: encode s → front ≠ encode s →
        decode front = ([], front) := by
  have length : (encode s ++ tail).length =
      (natText s.length).length + 4 + s.length + tail.length := by
    simp [encode, sep]
    omega
  exact ⟨decode_encode (by omega), fun front => decode_unfinished (by omega)⟩

theorem decode_inverts_encode_crlf :
    decode (encode [13, 10, 0, 52] ++ [49, 13]) = ([13, 10, 0, 52], [49, 13]) ∧
      ∀ front, front <+: encode [13, 10, 0, 52] → front ≠ encode [13, 10, 0, 52] →
        decode front = ([], front) :=
  decode_inverts_encode [13, 10, 0, 52] [49, 13] (by decide +kernel)

/-! ## Arbitrary buffers -/

/-- A whole frame stands in front of `left`: its header is the numeral of the
length of the payload. -/
def WholeFrame (buffer s left : Bytes) : Prop :=
  ∃ header, buffer = header ++ sep ++ s ++ sep ++ left ∧
    Numeral header ∧ value header = s.length

/-- `Decode` takes out one whole frame or does nothing. -/
def SoundOn (buffer : Bytes) : Prop :=
  decode buffer = ([], buffer) ∨
    WholeFrame buffer (decode buffer).1 (decode buffer).2

/-- If what `atoi` makes of the header is not more than what is there for the
payload, then the header is a numeral and CRLF follows the payload it announces. -/
def HeaderHonest (buffer : Bytes) : Prop :=
  ∀ header rest, buffer = header ++ sep ++ rest →
    find sep buffer = some header.length →
    (atoi header).toInt ≤ (rest.length : Int) - 2 →
    Numeral header ∧ sep <+: rest.drop (value header)

/-- The header ends where the search says. -/
theorem header_unique
    {header rest header' rest' : Bytes}
    (equal : header ++ sep ++ rest = header' ++ sep ++ rest')
    (length : header.length = header'.length) :
    header = header' ∧ rest = rest' := by
  rw [List.append_assoc, List.append_assoc] at equal
  obtain ⟨headers, rests⟩ := List.append_inj equal length
  exact ⟨headers, List.append_cancel_left rests⟩

theorem headerHonest_iff
    {header rest : Bytes}
    (found : find sep (header ++ sep ++ rest) = some header.length) :
    HeaderHonest (header ++ sep ++ rest) ↔
      ((atoi header).toInt ≤ (rest.length : Int) - 2 →
        Numeral header ∧ sep <+: rest.drop (value header)) := by
  constructor
  · exact fun honest => honest header rest rfl found
  · intro honest header' rest' equal found' taken
    rw [found, Option.some.injEq] at found'
    obtain ⟨rfl, rfl⟩ := header_unique equal found'
    exact honest taken

theorem wholeFrame_iff
    {header rest s left : Bytes}
    (found : find sep (header ++ sep ++ rest) = some header.length) :
    WholeFrame (header ++ sep ++ rest) s left ↔
      rest = s ++ sep ++ left ∧ Numeral header ∧ value header = s.length := by
  constructor
  · rintro ⟨header', equal, numeral, length⟩
    have split : header ++ sep ++ rest = header' ++ sep ++ (s ++ sep ++ left) := by
      rw [equal]
      simp
    rw [split, find_sep_header (cr_not_mem_numeral numeral), Option.some.injEq] at found
    obtain ⟨rfl, rests⟩ := header_unique split found.symm
    exact ⟨rests, numeral, length⟩
  · rintro ⟨rfl, numeral, length⟩
    exact ⟨header, by simp, numeral, length⟩

/-- Behind a numeral, the cut that `Decode` makes is a whole frame exactly if CRLF
follows the payload. -/
theorem wholeFrame_decode_iff
    {header rest : Bytes}
    (numeral : Numeral header)
    (small : rest.length < 2 ^ 31)
    (room : value header + 2 ≤ rest.length) :
    WholeFrame (header ++ sep ++ rest) (decode (header ++ sep ++ rest)).1
        (decode (header ++ sep ++ rest)).2 ↔
      sep <+: rest.drop (value header) := by
  have payload : (rest.take (value header)).length = value header := by
    rw [List.length_take]
    omega
  rw [wholeFrame_iff (find_sep_header (cr_not_mem_numeral numeral) rest),
    decode_of_numeral numeral (by omega) (by omega), if_pos room]
  constructor
  · rintro ⟨split, _⟩
    refine ⟨rest.drop (value header + 2), ?_⟩
    have whole : rest.take (value header) ++ (sep ++ rest.drop (value header + 2)) =
        rest.take (value header) ++ rest.drop (value header) := by
      rw [← List.append_assoc, ← split, List.take_append_drop]
    exact List.append_cancel_left whole
  · rintro ⟨left, behind⟩
    have skipped : rest.drop (value header + 2) = left := by
      rw [← List.drop_drop, ← behind]
      rfl
    refine ⟨?_, numeral, payload.symm⟩
    rw [skipped, List.append_assoc, behind, List.take_append_drop]

/-- When `Decode` takes something out, it is sound if and only if the header is a
numeral and CRLF follows the payload. -/
theorem soundOn_iff_of_taken
    {header rest : Bytes}
    (found : find sep (header ++ sep ++ rest) = some header.length)
    (small : rest.length < 2 ^ 31)
    (taken : (atoi header).toInt ≤ (rest.length : Int) - 2) :
    SoundOn (header ++ sep ++ rest) ↔
      Numeral header ∧ sep <+: rest.drop (value header) := by
  have changed : decode (header ++ sep ++ rest) ≠ ([], header ++ sep ++ rest) := by
    intro equal
    have lengths := congrArg (fun result => result.2.length) equal
    rw [decode_of_find found (by omega), if_pos taken] at lengths
    simp only [List.length_drop, List.length_append, sep, List.length_cons] at lengths
    omega
  constructor
  · intro sound
    have whole := sound.resolve_left changed
    obtain ⟨split, numeral, length⟩ := (wholeFrame_iff found).mp whole
    have room : value header + 2 ≤ rest.length := by
      have lengths := congrArg List.length split
      rw [List.length_append, List.length_append, ← length] at lengths
      change rest.length = value header + 2 + _ at lengths
      omega
    exact ⟨numeral, (wholeFrame_decode_iff numeral small room).mp whole⟩
  · rintro ⟨numeral, behind⟩
    have room : value header + 2 ≤ rest.length := by
      have lengths := behind.length_le
      rw [List.length_drop] at lengths
      change 2 ≤ _ at lengths
      omega
    exact Or.inr ((wholeFrame_decode_iff numeral small room).mpr behind)

/-- `Decode` is sound on exactly the buffers whose header is honest. -/
theorem soundOn_iff
    (buffer : Bytes)
    (small : buffer.length < 2 ^ 31) :
    SoundOn buffer ↔ HeaderHonest buffer := by
  cases found : find sep buffer with
  | none =>
      have nothing : decode buffer = ([], buffer) := by
        rw [decode, found]
      have honest : HeaderHonest buffer := by
        intro header rest _ found'
        rw [found] at found'
        exact absurd found' (by simp)
      exact iff_of_true (Or.inl nothing) honest
  | some pos =>
      obtain ⟨header, rest, rfl, rfl⟩ := exists_of_find_sep found
      have shorter : rest.length < 2 ^ 31 := by
        simp only [List.length_append] at small
        omega
      rw [headerHonest_iff found]
      by_cases taken : (atoi header).toInt ≤ (rest.length : Int) - 2
      · rw [soundOn_iff_of_taken found shorter taken]
        exact ⟨fun sound _ => sound, fun honest => honest taken⟩
      · have nothing := decode_of_find found (by omega)
        rw [if_neg taken] at nothing
        exact iff_of_true (Or.inl nothing) fun taken' => absurd taken' taken

theorem soundOn_frame : SoundOn [50, 13, 10, 65, 66, 13, 10, 57] := by
  have found : find sep ([50] ++ sep ++ [65, 66, 13, 10, 57]) =
      some ([50] : Bytes).length := by
    decide +kernel
  refine (soundOn_iff _ (by decide)).mpr ((headerHonest_iff found).mpr fun _ => ?_)
  decide +kernel

/-- The header `-2` makes `Decode` return the two bytes behind it and keep them. -/
theorem not_soundOn_negative :
    decode [45, 50, 13, 10, 65, 66] = ([65, 66], [65, 66]) ∧
      ¬SoundOn [45, 50, 13, 10, 65, 66] := by
  have decoded : decode [45, 50, 13, 10, 65, 66] = ([65, 66], [65, 66]) := by
    decide +kernel
  have found : find sep ([45, 50] ++ sep ++ [65, 66]) =
      some ([45, 50] : Bytes).length := by
    decide +kernel
  refine ⟨decoded, ?_⟩
  rintro (nothing | whole)
  · rw [decoded] at nothing
    exact absurd nothing (by decide)
  · exact absurd ((wholeFrame_iff found).mp whole).2.1 (by decide)

end NetCal
end LearnInLinux
