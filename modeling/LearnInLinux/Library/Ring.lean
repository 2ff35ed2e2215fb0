import Mathlib.Data.List.TakeDrop
import Mathlib.Logic.Function.Basic
import Mathlib.Order.Interval.Finset.Nat

/-!
# Rings of slots

A queue in a ring of `num` slots: the value that is written at a place of the whole
history lies in the slot of the place modulo `num` until it has been read. The two
histories say which places that are, and a mark at every slot says whether it holds
such a value.
-/

namespace Ring

variable {T : Type}

/-- Places less than `num` apart lie in different slots. -/
theorem mod_ne_of_lt
    {num place later : Nat}
    (before : place < later)
    (near : later < place + num) :
    place % num ≠ later % num := by
  intro same
  have first : place ∈ Finset.Ico place (place + num) :=
    Finset.mem_Ico.mpr ⟨Nat.le_refl _, Nat.lt_trans before near⟩
  have second : later ∈ Finset.Ico place (place + num) :=
    Finset.mem_Ico.mpr ⟨Nat.le_of_lt before, near⟩
  have equal : place = later := Nat.mod_injOn_Ico place num first second same
  exact Nat.ne_of_lt before equal

/-- The places between the two sides lie in their slots, and only these are unread. -/
structure Stored
    (num : Nat) (rq : Nat → T) (unread : Nat → Bool) (written read : List T) : Prop where
  slots : ∀ place, read.length ≤ place → place < written.length →
    written[place]? = some (rq (place % num))
  unread : ∀ index, unread index = true ↔
    ∃ place, read.length ≤ place ∧ place < written.length ∧ place % num = index
  copied : read = written.take read.length

namespace Stored

variable {num : Nat} {rq : Nat → T} {unread : Nat → Bool} {written read : List T}

/-- Nothing is written yet; the slots hold anything. -/
theorem empty (num : Nat) (rq : Nat → T) : Stored num rq (fun _ => false) [] [] := by
  refine ⟨?_, ?_, rfl⟩
  · intro place _ isWritten
    exact absurd isWritten (Nat.not_lt_zero place)
  · intro index
    apply iff_of_false Bool.false_ne_true
    rintro ⟨place, -, isWritten, -⟩
    exact Nat.not_lt_zero place isWritten

theorem read_le_written
    (stored : Stored num rq unread written read) :
    read.length ≤ written.length := by
  rw [stored.copied, List.length_take]
  exact Nat.min_le_right _ _

theorem push
    (stored : Stored num rq unread written read)
    (room : written.length < read.length + num)
    (value : T) :
    Stored num (Function.update rq (written.length % num) value)
      (Function.update unread (written.length % num) true) (written ++ [value]) read := by
  constructor
  · intro place notRead isWritten
    rw [List.length_append, List.length_singleton] at isWritten
    rcases Nat.lt_or_eq_of_le (Nat.le_of_lt_succ isWritten) with earlier | rfl
    · have apart : place % num ≠ written.length % num :=
        mod_ne_of_lt earlier (Nat.lt_of_lt_of_le room (Nat.add_le_add_right notRead _))
      rw [Function.update_of_ne apart, List.getElem?_append_left earlier]
      exact stored.slots place notRead earlier
    · rw [Function.update_self, List.getElem?_append_right (Nat.le_refl _), Nat.sub_self]
      rfl
  · intro slot
    rw [List.length_append, List.length_singleton]
    by_cases isSlot : slot = written.length % num
    · rw [isSlot, Function.update_self]
      apply iff_of_true rfl
      exact ⟨written.length, stored.read_le_written, Nat.lt_succ_self _, rfl⟩
    · rw [Function.update_of_ne isSlot, stored.unread slot]
      constructor
      · rintro ⟨place, notRead, isWritten, inSlot⟩
        exact ⟨place, notRead, Nat.lt_succ_of_lt isWritten, inSlot⟩
      · rintro ⟨place, notRead, isWritten, inSlot⟩
        refine ⟨place, notRead, ?_, inSlot⟩
        rcases Nat.lt_or_eq_of_le (Nat.le_of_lt_succ isWritten) with earlier | rfl
        · exact earlier
        · exact absurd inSlot.symm isSlot
  · rw [List.take_append_of_le_length stored.read_le_written]
    exact stored.copied

theorem pop
    (stored : Stored num rq unread written read)
    (present : read.length < written.length)
    (bounded : written.length ≤ read.length + num) :
    Stored num rq (Function.update unread (read.length % num) false) written
      (read ++ [rq (read.length % num)]) := by
  constructor
  · intro place notRead isWritten
    rw [List.length_append] at notRead
    exact stored.slots place (Nat.le_of_succ_le notRead) isWritten
  · intro slot
    rw [List.length_append, List.length_singleton]
    by_cases isSlot : slot = read.length % num
    · rw [isSlot, Function.update_self]
      apply iff_of_false Bool.false_ne_true
      rintro ⟨place, notRead, isWritten, inSlot⟩
      have near := Nat.lt_of_lt_of_le isWritten bounded
      exact mod_ne_of_lt notRead near inSlot.symm
    · rw [Function.update_of_ne isSlot, stored.unread slot]
      constructor
      · rintro ⟨place, notRead, isWritten, inSlot⟩
        refine ⟨place, ?_, isWritten, inSlot⟩
        rcases Nat.lt_or_eq_of_le notRead with later | rfl
        · exact later
        · exact absurd inSlot.symm isSlot
      · rintro ⟨place, notRead, isWritten, inSlot⟩
        exact ⟨place, Nat.le_of_succ_le notRead, isWritten, inSlot⟩
  · rw [List.length_append, List.length_singleton, List.take_add_one,
      stored.slots read.length (Nat.le_refl _) present, ← stored.copied]
    rfl

/-- While there is room, the slot of the next write holds nothing unread. -/
theorem next_write_free
    (stored : Stored num rq unread written read)
    (room : written.length < read.length + num) :
    unread (written.length % num) = false := by
  rw [Bool.eq_false_iff]
  intro isUnread
  obtain ⟨place, notRead, isWritten, inSlot⟩ := (stored.unread _).mp isUnread
  have near : written.length < place + num :=
    Nat.lt_of_lt_of_le room (Nat.add_le_add_right notRead num)
  exact mod_ne_of_lt isWritten near inSlot

/-- While something is left, the slot of the next read holds it. -/
theorem next_read_unread
    (stored : Stored num rq unread written read)
    (present : read.length < written.length) :
    unread (read.length % num) = true := by
  apply (stored.unread _).mpr
  exact ⟨read.length, Nat.le_refl _, present, rfl⟩

end Stored

end Ring
