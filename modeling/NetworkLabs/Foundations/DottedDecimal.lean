import Mathlib.Data.List.Basic
import NetworkLabs.Foundations.LittleEndian

/-!
# Dotted decimal notation

Bytes written as decimal numbers with dots between them. The notation determines the bytes.
-/

namespace Foundations

/-- The decimal digits of a byte, without leading zeros. -/
def decimal (b : Byte) : List Char := Nat.toDigits 10 b.toNat

/-- Dotted decimal notation, with a dot between any two bytes. -/
def dottedDecimal (bs : List Byte) : List Char := ['.'].intercalate (bs.map decimal)

/-- The digits of a byte are digits. -/
theorem isDigit_of_mem_decimal {b : Byte} {c : Char} (hc : c ∈ decimal b) : c.isDigit :=
  Nat.isDigit_of_mem_toDigits (by decide) (by decide) hc

/-- A byte has at most three digits. -/
theorem length_decimal_le (b : Byte) : (decimal b).length ≤ 3 :=
  (Nat.length_toDigits_le_iff (by decide) (by decide)).mpr (by have := b.isLt; omega)

/-- The digits determine the byte. -/
theorem decimal_injective {b c : Byte} (h : decimal b = decimal c) : b = c := by
  have hvalue := congrArg (fun digits => Nat.ofDigitChars 10 digits 0) h
  simp only [decimal, Nat.ofDigitChars_ten_toDigits] at hvalue
  exact BitVec.eq_of_toNat_eq hvalue

/-- Dotted decimal notation determines the bytes, since the digits of a byte hold no dot. -/
theorem dottedDecimal_injective {bs cs : List Byte} (hbs : bs ≠ []) (hcs : cs ≠ [])
    (h : dottedDecimal bs = dottedDecimal cs) : bs = cs := by
  have hdot : ∀ (ds : List Byte), ∀ digits ∈ ds.map decimal, '.' ∉ digits := by
    intro ds digits hdigits hmem
    obtain ⟨d, -, rfl⟩ := List.mem_map.mp hdigits
    exact absurd (isDigit_of_mem_decimal hmem) (by decide)
  have hsplit := congrArg (List.splitOn '.') h
  rw [dottedDecimal, dottedDecimal, List.splitOn_intercalate _ (hdot bs) (by simpa using hbs),
    List.splitOn_intercalate _ (hdot cs) (by simpa using hcs)] at hsplit
  exact List.map_injective_iff.mpr (fun _ _ => decimal_injective) hsplit

/-- A single byte has no dot and is written by its digits alone. -/
@[simp] theorem dottedDecimal_singleton (b : Byte) : dottedDecimal [b] = decimal b :=
  List.intercalate_singleton

/-- The first byte, a dot, and the other bytes. -/
theorem dottedDecimal_cons_cons (b c : Byte) (bs : List Byte) :
    dottedDecimal (b :: c :: bs) = decimal b ++ '.' :: dottedDecimal (c :: bs) := by
  simp [dottedDecimal, List.intercalate_cons_cons]

/-- The characters are digits and dots, so that none of them ends a string. -/
theorem of_mem_dottedDecimal {bs : List Byte} {c : Char} (hc : c ∈ dottedDecimal bs) :
    c = '.' ∨ c.isDigit := by
  induction bs with
  | nil => cases hc
  | cons b bs ih =>
    cases bs with
    | nil =>
      rw [dottedDecimal_singleton] at hc
      exact Or.inr (isDigit_of_mem_decimal hc)
    | cons b' bs =>
      rw [dottedDecimal_cons_cons, List.mem_append, List.mem_cons] at hc
      rcases hc with hc | hc | hc
      · exact Or.inr (isDigit_of_mem_decimal hc)
      · exact Or.inl hc
      · exact ih hc

/-- Each byte takes at most three digits, and all but the last a dot. -/
theorem length_dottedDecimal_le (b : Byte) (bs : List Byte) :
    (dottedDecimal (b :: bs)).length ≤ 3 + 4 * bs.length := by
  induction bs generalizing b with
  | nil =>
    rw [dottedDecimal_singleton]
    exact length_decimal_le b
  | cons c bs ih =>
    have hb := length_decimal_le b
    have hrest := ih c
    rw [dottedDecimal_cons_cons, List.length_append, List.length_cons, List.length_cons]
    omega

/-- There is at least one digit, so that the notation is not the empty string. -/
theorem dottedDecimal_ne_nil (b : Byte) (bs : List Byte) : dottedDecimal (b :: bs) ≠ [] := by
  cases bs with
  | nil =>
    rw [dottedDecimal_singleton]
    exact Nat.toDigits_ne_nil
  | cons c bs =>
    rw [dottedDecimal_cons_cons]
    exact List.append_ne_nil_of_right_ne_nil _ (List.cons_ne_nil _ _)

end Foundations
