import Mathlib.Data.List.Infix

/-!
# The first occurrence of a pattern

A list splits at the leftmost place where a pattern occurs in it, and in one way only.
-/

namespace Foundations

variable {α : Type*} {pattern s before after : List α}

/-- A list consists of what stands before the leftmost occurrence of a pattern, the pattern,
and what stands after it. -/
structure SplitsAt (pattern s before after : List α) : Prop where
  split : s = before ++ pattern ++ after
  leftmost : ∀ before' after', s = before' ++ pattern ++ after' → before.length ≤ before'.length

/-- The leftmost occurrence is unique, and so are the parts before and behind it. -/
theorem SplitsAt.unique {before' after' : List α} (h : SplitsAt pattern s before after)
    (h' : SplitsAt pattern s before' after') : before = before' ∧ after = after' := by
  have hlength : before.length = before'.length :=
    Nat.le_antisymm (h.leftmost _ _ h'.split) (h'.leftmost _ _ h.split)
  have hsplit := h.split.symm.trans h'.split
  rw [List.append_assoc, List.append_assoc] at hsplit
  obtain ⟨hbefore, hrest⟩ := List.append_inj hsplit hlength
  exact ⟨hbefore, List.append_cancel_left hrest⟩

/-- A pattern at the front of a list occurs nowhere further left. -/
theorem SplitsAt.front (pattern after : List α) : SplitsAt pattern (pattern ++ after) [] after :=
  ⟨rfl, fun _ _ _ => Nat.zero_le _⟩

/-- An entry at which the pattern does not start moves the leftmost occurrence. -/
theorem SplitsAt.cons {x : α} (h : SplitsAt pattern s before after)
    (hfront : ¬pattern <+: x :: s) : SplitsAt pattern (x :: s) (x :: before) after := by
  refine ⟨by rw [h.split]; rfl, fun before' after' hsplit => ?_⟩
  cases before' with
  | nil => exact absurd (hsplit ▸ List.prefix_append pattern after') hfront
  | cons y before' =>
    obtain ⟨rfl, hrest⟩ := List.cons.inj hsplit
    exact Nat.succ_le_succ (h.leftmost before' after' hrest)

/-- A list that splits contains the pattern. -/
theorem SplitsAt.occurs (h : SplitsAt pattern s before after) : pattern <:+: s :=
  ⟨before, after, h.split.symm⟩

end Foundations
