import Mathlib.Data.Nat.Notation
import Mathlib.Data.List.Infix

/-!
# Streams without boundaries

A stream is written and read in pieces. A reader obtains the elements in order, but its pieces
need not be those that were written: one read may return a part of a piece or parts of several.
Elements are then kept, pieces only if every read stops where the next piece ends.
-/

namespace Foundations

variable {α : Type*} {written read : List (List α)} {n : ℕ}

/-- The elements that were written and not yet read, however writes and reads were cut. -/
def unread (written read : List (List α)) : List α := written.flatten.drop read.flatten.length

/-- What a read of `n` elements returns: the oldest ones that are unread. -/
def nextRead (written read : List (List α)) (n : ℕ) : List α := (unread written read).take n

/-- A read may return `n` elements: at least one, and no more than are there. -/
def Readable (written read : List (List α)) (n : ℕ) : Prop :=
  0 < n ∧ n ≤ (unread written read).length

instance (written read : List (List α)) (n : ℕ) : Decidable (Readable written read n) :=
  inferInstanceAs (Decidable (_ ∧ _))

/-- A read of `n` elements stops where the next piece ends. -/
def ReadsPiece (written read : List (List α)) (n : ℕ) : Prop :=
  (written[read.length]?).map List.length = some n

instance (written read : List (List α)) (n : ℕ) : Decidable (ReadsPiece written read n) :=
  inferInstanceAs (Decidable (_ = _))

/-- What was read, with the rest of the stream. -/
theorem append_unread (h : read.flatten <+: written.flatten) :
    read.flatten ++ unread written read = written.flatten := by
  obtain ⟨rest, hrest⟩ := h
  rw [unread, ← hrest, List.drop_left]

/-- A read returns the elements in order. -/
theorem flatten_nextRead (h : read.flatten <+: written.flatten) (n : ℕ) :
    (read ++ [nextRead written read n]).flatten <+: written.flatten := by
  rw [← append_unread h, List.flatten_append, List.flatten_singleton]
  exact (List.prefix_append_right_inj _).mpr (List.take_prefix _ _)

/-- A read that stops where the next piece ends returns this piece. -/
theorem append_nextRead (h : read <+: written) (hpiece : ReadsPiece written read n) :
    read ++ [nextRead written read n] <+: written := by
  obtain ⟨rest, rfl⟩ := h
  rw [ReadsPiece, List.getElem?_append_right le_rfl, Nat.sub_self] at hpiece
  obtain ⟨piece, hget, rfl⟩ := Option.map_eq_some_iff.mp hpiece
  cases rest with
  | nil => cases hget
  | cons next rest =>
    cases hget
    have hnext : nextRead (read ++ piece :: rest) read piece.length = piece := by
      rw [nextRead, unread, List.flatten_append, List.drop_left, List.flatten_cons, List.take_left]
    rw [hnext]
    exact ⟨rest, by rw [List.append_assoc, List.singleton_append]⟩

end Foundations
