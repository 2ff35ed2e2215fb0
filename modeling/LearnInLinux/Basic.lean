import LearnInLinux.Library.Text

/-!
# Bytes and system-call results

What the servers of this repository share: byte strings, the error numbers
their loops look at, and the data of one `recv` into a 1024-byte buffer.
-/

namespace LearnInLinux

/-- A `std::string` or a piece of a byte stream. -/
abbrev Bytes := List UInt8

/-- A value of `errno`. -/
abbrev Errno := Nat

/-- `EINTR`: the call was interrupted by a signal. -/
def eintr : Errno := 4

/-- `EAGAIN`: the call would have to wait. -/
def eagain : Errno := 11

/-- `EWOULDBLOCK`, the same number as `EAGAIN` on Linux. -/
def ewouldblock : Errno := 11

/-- Data returned by one `recv(sock, buffer, sizeof(buffer) - 1, 0)` on a
`char buffer[1024]`: at least one byte and at most 1023. -/
structure Chunk where
  bytes : Bytes
  nonempty : bytes ≠ []
  bounded : bytes.length ≤ 1023
  deriving DecidableEq

/-- What `buffer[n] = 0; text += buffer;` appends for a chunk. -/
def Chunk.text (chunk : Chunk) : Bytes :=
  Text.cString 0 (chunk.bytes ++ [0])

@[simp] theorem Chunk.text_eq (chunk : Chunk) :
    chunk.text = Text.cString 0 chunk.bytes :=
  Text.cString_append_terminator 0 chunk.bytes

/-- Bytes of a run of chunks. -/
def chunkBytes (chunks : List Chunk) : Bytes :=
  (chunks.map Chunk.bytes).flatten

/-- What a run of chunks appends as C strings. -/
def chunkText (chunks : List Chunk) : Bytes :=
  (chunks.map Chunk.text).flatten

@[simp] theorem chunkBytes_nil : chunkBytes [] = [] := rfl

@[simp] theorem chunkBytes_cons (chunk : Chunk) (chunks : List Chunk) :
    chunkBytes (chunk :: chunks) = chunk.bytes ++ chunkBytes chunks := rfl

@[simp] theorem chunkBytes_append (front back : List Chunk) :
    chunkBytes (front ++ back) = chunkBytes front ++ chunkBytes back := by
  simp [chunkBytes]

@[simp] theorem chunkText_nil : chunkText [] = [] := rfl

@[simp] theorem chunkText_cons (chunk : Chunk) (chunks : List Chunk) :
    chunkText (chunk :: chunks) = chunk.text ++ chunkText chunks := rfl

@[simp] theorem chunkText_append (front back : List Chunk) :
    chunkText (front ++ back) = chunkText front ++ chunkText back := by
  simp [chunkText]

/-- Without NUL bytes the text of the chunks is their bytes. -/
theorem chunkText_eq_chunkBytes
    {chunks : List Chunk}
    (textOnly : 0 ∉ chunkBytes chunks) :
    chunkText chunks = chunkBytes chunks := by
  induction chunks with
  | nil => rfl
  | cons chunk chunks inductionHypothesis =>
      rw [chunkBytes_cons, List.mem_append, not_or] at textOnly
      rw [chunkText_cons, chunkBytes_cons, inductionHypothesis textOnly.2,
        Chunk.text_eq, Text.cString_eq_self textOnly.1]

/-- The text never contains a NUL byte. -/
theorem nul_not_mem_chunkText (chunks : List Chunk) :
    0 ∉ chunkText chunks := by
  induction chunks with
  | nil => simp
  | cons chunk chunks inductionHypothesis =>
      rw [chunkText_cons, List.mem_append, not_or, Chunk.text_eq]
      exact ⟨Text.terminator_not_mem_cString 0 chunk.bytes, inductionHypothesis⟩

/-- Only bytes are lost, none is changed or moved. -/
theorem chunkText_sublist (chunks : List Chunk) :
    (chunkText chunks).Sublist (chunkBytes chunks) := by
  induction chunks with
  | nil => simp
  | cons chunk chunks inductionHypothesis =>
      rw [chunkText_cons, chunkBytes_cons, Chunk.text_eq]
      exact (Text.cString_sublist 0 chunk.bytes).append inductionHypothesis

/-- Bytes in front of the first NUL are kept wherever the chunks end. -/
theorem chunkText_of_clean_front
    {chunks : List Chunk}
    {front back : Bytes}
    (equal : chunkBytes chunks = front ++ back)
    (textOnly : 0 ∉ front) :
    ∃ kept : Bytes, chunkText chunks = front ++ kept ∧ kept.Sublist back := by
  induction chunks generalizing front with
  | nil =>
      rw [chunkBytes_nil] at equal
      obtain ⟨rfl, rfl⟩ := List.append_eq_nil_iff.mp equal.symm
      exact ⟨[], rfl, List.Sublist.refl _⟩
  | cons chunk chunks inductionHypothesis =>
      rw [chunkBytes_cons] at equal
      rw [chunkText_cons, Chunk.text_eq]
      rcases List.append_eq_append_iff.mp equal with
        ⟨middle, rfl, others⟩ | ⟨middle, chunkEqual, rfl⟩
      · -- the clean front runs past this chunk
        rw [List.mem_append, not_or] at textOnly
        obtain ⟨kept, tailEqual, sublist⟩ := inductionHypothesis others textOnly.2
        refine ⟨kept, ?_, sublist⟩
        rw [Text.cString_eq_self textOnly.1, tailEqual, List.append_assoc]
      · -- the clean front ends inside this chunk
        refine ⟨Text.cString 0 middle ++ chunkText chunks, ?_, ?_⟩
        · rw [chunkEqual, Text.cString_append textOnly, List.append_assoc]
        · exact (Text.cString_sublist 0 middle).append (chunkText_sublist chunks)

/-! ## Buffers -/

/-- The content of a `char buffer[1024]`. -/
abbrev Buffer := { bytes : Bytes // bytes.length = 1024 }

namespace Buffer

/-- A system call writes data to the front of the buffer. -/
def fill (data : Bytes) (small : data.length ≤ 1023) (buffer : Buffer) : Buffer :=
  ⟨data ++ buffer.val.drop data.length, by
    rw [List.length_append, List.length_drop, buffer.property]
    omega⟩

/-- `buffer[i] = byte` -/
def set (i : Nat) (byte : UInt8) (buffer : Buffer) : Buffer :=
  ⟨buffer.val.set i byte, by
    rw [List.length_set]
    exact buffer.property⟩

/-- `buffer[n] = 0` behind the data of a system call. -/
theorem val_set_fill
    {data : Bytes}
    (small : data.length ≤ 1023)
    (buffer : Buffer) :
    ((buffer.fill data small).set data.length 0).val =
      data ++ 0 :: buffer.val.drop (data.length + 1) := by
  have more : data.length < buffer.val.length := by
    rw [buffer.property]
    omega
  change (data ++ buffer.val.drop data.length).set data.length 0 = _
  rw [List.set_append_right _ _ (Nat.le_refl _), Nat.sub_self,
    List.drop_eq_getElem_cons more, List.set_cons_zero]

end Buffer

end LearnInLinux
