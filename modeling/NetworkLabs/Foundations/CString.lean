import Mathlib.Data.List.TakeWhile
import NetworkLabs.Foundations.Memory

/-!
# Strings in memory

A C string is what stands before the first `nul` of a memory; what stands behind it does
not matter, so a string survives a copy of at least its own length and its `nul`.
-/

namespace Foundations

variable {α : Type*} [DecidableEq α] {nul : α}

/-- Whether `strncmp` finds two arrays equal in their first `n` characters. -/
def sameText (nul : α) : ℕ → List α → List α → Bool
  | n + 1, x :: xs, y :: ys => x == y && (x == nul || sameText nul n xs ys)
  | _, _, _ => true

/-- The memory begins with a text and its `nul`, which does not occur in the text. -/
structure HoldsText (nul : α) (m : Memory α) (text : List α) : Prop where
  read : m.read 0 (text.length + 1) = text ++ [nul]
  nul_notMem : nul ∉ text

/-- `strncmp` compares the texts and not what stands behind their terminators, when `n` goes
beyond the first text. -/
theorem sameText_append {text text' : List α} (hnul : nul ∉ text) (hnul' : nul ∉ text')
    {n : ℕ} (hn : text.length < n) (rest rest' : List α) :
    sameText nul n (text ++ nul :: rest) (text' ++ nul :: rest') = true ↔ text = text' := by
  induction text generalizing n text' with
  | nil =>
    obtain ⟨n, rfl⟩ := Nat.exists_eq_succ_of_ne_zero (Nat.ne_zero_of_lt hn)
    cases text' with
    | nil => simp [sameText]
    | cons y text' =>
      have hy : nul ≠ y := fun h => hnul' (h ▸ List.mem_cons_self)
      simp [sameText, hy]
  | cons x text ih =>
    obtain ⟨n, rfl⟩ := Nat.exists_eq_succ_of_ne_zero (Nat.ne_zero_of_lt hn)
    have hx : x ≠ nul := fun h => hnul (h ▸ List.mem_cons_self)
    cases text' with
    | nil => simp [sameText, hx]
    | cons y text' =>
      have hrest := ih (fun h => hnul (List.mem_cons_of_mem x h))
        (fun h => hnul' (List.mem_cons_of_mem y h)) (Nat.lt_of_succ_lt_succ hn)
      simp [sameText, hx, hrest]

omit [DecidableEq α] in
/-- The beginning of a memory that holds a text. -/
theorem HoldsText.read_eq {m : Memory α} {text : List α} (h : HoldsText nul m text) {n : ℕ}
    (hn : text.length < n) : ∃ rest, m.read 0 n = text ++ nul :: rest := by
  obtain ⟨k, rfl⟩ := Nat.exists_eq_add_of_lt hn
  refine ⟨m.read (0 + (text.length + 1)) k, ?_⟩
  have hsplit := Memory.read_add m 0 (text.length + 1) k
  rw [h.read, List.append_assoc, List.singleton_append] at hsplit
  rwa [Nat.add_right_comm]

/-- Two arrays that hold texts are equal to `strncmp` exactly when the texts are. -/
theorem HoldsText.sameText_iff {m m' : Memory α} {text text' : List α}
    (h : HoldsText nul m text) (h' : HoldsText nul m' text') {n : ℕ} (hn : text.length < n)
    (hn' : text'.length < n) :
    sameText nul n (m.read 0 n) (m'.read 0 n) = true ↔ text = text' := by
  obtain ⟨rest, hread⟩ := h.read_eq hn
  obtain ⟨rest', hread'⟩ := h'.read_eq hn'
  rw [hread, hread']
  exact sameText_append h.nul_notMem h'.nul_notMem hn rest rest'

omit [DecidableEq α] in
/-- A text that is written with its `nul` is held. -/
theorem holdsText_write (m : Memory α) {text : List α} (hnul : nul ∉ text) :
    HoldsText nul (m.write 0 (text ++ [nul])) text :=
  ⟨Memory.read_write m 0 (by simp), hnul⟩

omit [DecidableEq α] in
/-- A copy of more characters than the text has holds the text. -/
theorem HoldsText.copy {m : Memory α} {text : List α} (h : HoldsText nul m text) (m' : Memory α)
    {n : ℕ} (hn : text.length < n) : HoldsText nul (m'.write 0 (m.read 0 n)) text := by
  refine ⟨?_, h.nul_notMem⟩
  have hlength : 0 + (text.length + 1) ≤ (m.read 0 n).length := by
    rw [Memory.length_read]
    omega
  have hinside := @Memory.read_write_inside _ m' 0 0 _ _ hlength
  rw [Nat.add_zero, List.drop_zero, Memory.take_read m hn] at hinside
  rw [hinside, h.read]

omit [DecidableEq α] in
/-- A memory that holds a nonempty text does not begin with `nul`. -/
theorem HoldsText.head_ne {m : Memory α} {text : List α} (h : HoldsText nul m text)
    (hne : text ≠ []) : m 0 ≠ nul := by
  cases text with
  | nil => exact absurd rfl hne
  | cons x text =>
    have hhead := h.read
    rw [Memory.read, List.cons_append, List.cons.injEq] at hhead
    rw [hhead.1]
    rintro rfl
    exact h.nul_notMem List.mem_cons_self

/-! ### Strings inside a memory -/

/-- From an offset on the memory holds a text and its `nul`. -/
structure HoldsTextAt (nul : α) (m : Memory α) (offset : ℕ) (text : List α) : Prop where
  read : m.read offset (text.length + 1) = text ++ [nul]
  nul_notMem : nul ∉ text

/-- The text at an offset of an array of `size` characters, if it ends inside the array. -/
def textAt (nul : α) (m : Memory α) (size offset : ℕ) : Option (List α) :=
  let rest := m.read offset (size - offset)
  if nul ∈ rest then some (rest.takeWhile (· ≠ nul)) else none

/-- What stands before a `nul` is read up to it. -/
theorem takeWhile_append_nul {text : List α} (hnul : nul ∉ text) (rest : List α) :
    (text ++ nul :: rest).takeWhile (· ≠ nul) = text := by
  induction text with
  | nil => simp
  | cons x text ih =>
    have hx : x ≠ nul := fun h => hnul (h ▸ List.mem_cons_self)
    simp only [ne_eq, List.cons_append] at ih ⊢
    rw [List.takeWhile_cons_of_pos (by simpa using hx),
      ih fun h => hnul (List.mem_cons_of_mem x h)]

/-- A text that is held inside an array is the one found there. -/
theorem HoldsTextAt.textAt_eq {m : Memory α} {offset size : ℕ} {text : List α}
    (h : HoldsTextAt nul m offset text) (hsize : offset + text.length < size) :
    textAt nul m size offset = some text := by
  have hrest : m.read offset (size - offset) =
      text ++ nul :: m.read (offset + (text.length + 1)) (size - offset - (text.length + 1)) := by
    have hsplit := Memory.read_add m offset (text.length + 1) (size - offset - (text.length + 1))
    rw [h.read, List.append_assoc, List.singleton_append] at hsplit
    rw [← hsplit]
    congr 1
    omega
  rw [textAt, hrest, if_pos (List.mem_append_right _ List.mem_cons_self),
    takeWhile_append_nul h.nul_notMem]

omit [DecidableEq α] in
/-- A character that is written elsewhere leaves the text alone. -/
theorem HoldsTextAt.write {m : Memory α} {offset place : ℕ} {text : List α}
    (h : HoldsTextAt nul m offset text) (x : α)
    (hplace : place < offset ∨ offset + text.length < place) :
    HoldsTextAt nul (m.write place [x]) offset text := by
  refine ⟨?_, h.nul_notMem⟩
  rw [Memory.read_write_disjoint m (by rw [List.length_singleton]; omega), h.read]

omit [DecidableEq α] in
/-- A `nul` that is written over the first character of a separator cuts a text in two. -/
theorem HoldsTextAt.cut {m : Memory α} {offset : ℕ} {first separator second : List α}
    (h : HoldsTextAt nul m offset (first ++ separator ++ second)) (hseparator : separator ≠ []) :
    HoldsTextAt nul (m.write (offset + first.length) [nul]) offset first ∧
      HoldsTextAt nul (m.write (offset + first.length) [nul])
        (offset + first.length + separator.length) second := by
  have hpos : 0 < separator.length := List.length_pos_of_ne_nil hseparator
  have hnul : nul ∉ first ∧ nul ∉ second := by
    have hnot := h.nul_notMem
    simp only [List.mem_append, not_or] at hnot
    exact ⟨hnot.1.1, hnot.2⟩
  have hread : m.read offset (first ++ (separator ++ (second ++ [nul]))).length =
      first ++ (separator ++ (second ++ [nul])) := by
    have hall := h.read
    simp only [List.append_assoc, List.length_append, List.length_singleton,
      Nat.add_assoc] at hall ⊢
    exact hall
  obtain ⟨hfirst, hrest⟩ := Memory.read_eq_append hread
  obtain ⟨-, hsecond⟩ := Memory.read_eq_append hrest
  rw [List.length_append, List.length_singleton] at hsecond
  refine ⟨⟨?_, hnul.1⟩, ⟨?_, hnul.2⟩⟩
  · rw [Memory.read_add, Memory.read_write_disjoint m (Or.inl (Nat.le_refl _)), hfirst]
    exact congrArg _ (Memory.read_write m _ rfl)
  · rw [Memory.read_write_disjoint m (Or.inr (by rw [List.length_singleton]; omega)), hsecond]

omit [DecidableEq α] in
/-- The terminated bytes are what was there and the `nul`. -/
theorem read_terminated (m : Memory α) (offset n : ℕ) :
    (m.write (offset + n) [nul]).read offset (n + 1) = m.read offset n ++ [nul] := by
  rw [Memory.read_add, Memory.read_write_disjoint m (Or.inl (Nat.le_refl _))]
  exact congrArg _ (Memory.read_write m _ rfl)

/-- A list up to its first `nul` begins the list with a `nul` behind it. -/
theorem take_terminated (bytes : List α) :
    (bytes ++ [nul]).take ((bytes.takeWhile (· ≠ nul)).length + 1) =
      bytes.takeWhile (· ≠ nul) ++ [nul] := by
  induction bytes with
  | nil => rfl
  | cons x bytes ih =>
    by_cases hx : x = nul
    · simp [hx]
    · rw [List.takeWhile_cons_of_pos (by simpa using hx), List.length_cons, List.cons_append,
        List.take_succ_cons, ih, List.cons_append]

/-- The bytes before a `nul` that is written behind them begin with a text. -/
theorem holdsTextAt_terminated (m : Memory α) (offset n : ℕ) :
    HoldsTextAt nul (m.write (offset + n) [nul]) offset
      ((m.read offset n).takeWhile (· ≠ nul)) := by
  refine ⟨?_, fun hmem => by simpa using List.mem_takeWhile_imp hmem⟩
  have hlength : ((m.read offset n).takeWhile (· ≠ nul)).length ≤ n :=
    Nat.le_trans (List.takeWhile_prefix _).length_le (Nat.le_of_eq (Memory.length_read m offset n))
  rw [← Memory.take_read _ (Nat.succ_le_succ hlength), read_terminated]
  exact take_terminated _

end Foundations
