import Mathlib.Data.List.Basic
import Mathlib.Data.Int.Notation

/-!
# Flat memory

A block of memory cells is a function from offsets to contents. Reading a range
gives a list, writing a list overwrites a range, and moving a range copies it as
`memmove` does, so that overlapping source and destination are allowed. Bounds
are a separate predicate, because the operations themselves do not check them.
-/

namespace Foundations

/-- Behaviour that the language leaves undefined; it ends a run. -/
inductive Fault
  /-- A copy of negative length or across the end of an array. -/
  | outOfBounds
  /-- An access to memory that was freed. -/
  | useAfterFree
  deriving DecidableEq

/-- The cells of one block of memory, addressed by their offset from its start. -/
def Memory (α : Type*) := ℕ → α

namespace Memory

variable {α : Type*}

/-- A block all of whose cells hold the same value. -/
def fill (x : α) : Memory α := fun _ => x

/-- The contents of `length` consecutive cells, from `offset` on. -/
def read (m : Memory α) (offset : ℕ) : ℕ → List α
  | 0 => []
  | length + 1 => m offset :: read m (offset + 1) length

/-- Overwrite consecutive cells with the entries of a list, and leave all others as they are. -/
def write (m : Memory α) (offset : ℕ) (xs : List α) : Memory α := fun i =>
  if i < offset then m i else (xs[i - offset]?).getD (m i)

/-- Copy a range of cells to another place of the same block. -/
def move (m : Memory α) (target source length : ℕ) : Memory α :=
  m.write target (m.read source length)

/-- A range given by machine integers lies inside a block of `size` cells. -/
def InBounds (size : ℕ) (offset length : ℤ) : Prop :=
  0 ≤ offset ∧ 0 ≤ length ∧ offset + length ≤ size

instance (size : ℕ) (offset length : ℤ) : Decidable (InBounds size offset length) :=
  inferInstanceAs (Decidable (_ ∧ _))

/-- Reading a range produces one entry for each cell. -/
@[simp] theorem length_read (m : Memory α) (offset length : ℕ) :
    (m.read offset length).length = length := by
  induction length generalizing offset with
  | zero => rfl
  | succ length ih => simp [read, ih]

/-- An entry of a range is the content of the corresponding cell. -/
theorem getElem?_read (m : Memory α) {offset length i : ℕ} (hi : i < length) :
    (m.read offset length)[i]? = some (m (offset + i)) := by
  induction length generalizing offset i with
  | zero => omega
  | succ length ih =>
    cases i with
    | zero => simp [read]
    | succ i =>
      have h := @ih (offset + 1) i (by omega)
      simpa [read, Nat.add_assoc, Nat.add_comm 1 i] using h

/-- Two ranges with equal cells are read as equal lists. -/
theorem read_congr {m m' : Memory α} {offset offset' length : ℕ}
    (h : ∀ i < length, m (offset + i) = m' (offset' + i)) :
    m.read offset length = m'.read offset' length := by
  apply List.ext_getElem?
  intro i
  by_cases hi : i < length
  · rw [getElem?_read m hi, getElem?_read m' hi, h i hi]
  · rw [List.getElem?_eq_none (by simpa using hi), List.getElem?_eq_none (by simpa using hi)]

/-- A range is the concatenation of its two parts. -/
theorem read_add (m : Memory α) (offset first second : ℕ) :
    m.read offset (first + second) = m.read offset first ++ m.read (offset + first) second := by
  induction first generalizing offset with
  | zero => simp [read]
  | succ first ih =>
    rw [Nat.add_right_comm first 1 second, read, read, ih, List.cons_append,
      Nat.add_right_comm offset 1 first, Nat.add_assoc offset first 1]

/-- A range that holds two lists one after the other. -/
theorem read_eq_append {m : Memory α} {offset : ℕ} {xs ys : List α}
    (h : m.read offset (xs ++ ys).length = xs ++ ys) :
    m.read offset xs.length = xs ∧ m.read (offset + xs.length) ys.length = ys := by
  rw [List.length_append, read_add] at h
  exact List.append_inj h (length_read m offset xs.length)

/-- A range that holds blocks of equal length, one after the other. -/
theorem read_flatten {m : Memory α} {offset width : ℕ} {blocks : List (List α)}
    (hwidth : ∀ block ∈ blocks, block.length = width)
    (h : m.read offset blocks.flatten.length = blocks.flatten) {k : ℕ} (hk : k < blocks.length) :
    m.read (offset + width * k) width = blocks[k] := by
  induction blocks generalizing offset k with
  | nil => cases hk
  | cons block blocks ih =>
    rw [List.flatten_cons] at h
    obtain ⟨hblock, hblocks⟩ := read_eq_append h
    rw [hwidth block List.mem_cons_self] at hblock hblocks
    cases k with
    | zero => exact hblock
    | succ k =>
      have hrest := ih (fun b hb => hwidth b (List.mem_cons_of_mem block hb)) hblocks
        (Nat.lt_of_succ_lt_succ hk)
      rw [Nat.mul_succ, Nat.add_comm (width * k), ← Nat.add_assoc]
      exact hrest

/-- The first cells of a range are a shorter range. -/
theorem take_read (m : Memory α) {offset length n : ℕ} (hn : n ≤ length) :
    (m.read offset length).take n = m.read offset n := by
  obtain ⟨k, rfl⟩ := Nat.exists_eq_add_of_le hn
  rw [read_add, List.take_left' (length_read m offset n)]

/-- The remaining cells of a range are a later range. -/
theorem drop_read (m : Memory α) {offset length n : ℕ} (hn : n ≤ length) :
    (m.read offset length).drop n = m.read (offset + n) (length - n) := by
  obtain ⟨k, rfl⟩ := Nat.exists_eq_add_of_le hn
  rw [read_add, List.drop_left' (length_read m offset n), Nat.add_sub_cancel_left]

/-- A cell before the written range keeps its content. -/
theorem write_of_lt (m : Memory α) {offset i : ℕ} (xs : List α) (hi : i < offset) :
    m.write offset xs i = m i := if_pos hi

/-- A cell after the written range keeps its content. -/
theorem write_of_ge (m : Memory α) {offset i : ℕ} {xs : List α} (hi : offset + xs.length ≤ i) :
    m.write offset xs i = m i := by
  rw [write, if_neg (by omega), List.getElem?_eq_none (by omega)]
  rfl

/-- A cell of the written range holds the corresponding entry. -/
theorem write_add (m : Memory α) (offset : ℕ) {xs : List α} {i : ℕ} (hi : i < xs.length) :
    m.write offset xs (offset + i) = xs[i] := by
  rw [write, if_neg (by omega), Nat.add_sub_cancel_left, List.getElem?_eq_getElem hi]
  rfl

/-- What was written is read back, when the whole of it is read. -/
theorem read_write (m : Memory α) (offset : ℕ) {xs : List α} {length : ℕ}
    (hlen : xs.length = length) : (m.write offset xs).read offset length = xs := by
  subst hlen
  apply List.ext_getElem?
  intro i
  by_cases hi : i < xs.length
  · rw [getElem?_read _ hi, write_add m offset hi, List.getElem?_eq_getElem hi]
  · rw [List.getElem?_eq_none (by simpa using hi), List.getElem?_eq_none (by omega)]

/-- Reading inside the written range gives the corresponding part of the list. -/
theorem read_write_inside (m : Memory α) {offset n length : ℕ} {xs : List α}
    (h : n + length ≤ xs.length) :
    (m.write offset xs).read (offset + n) length = (xs.drop n).take length := by
  have hsplit := congrArg (fun ys => (ys.drop n).take length) (@read_write _ m offset xs _ rfl)
  rw [drop_read _ (by omega), take_read _ (by omega)] at hsplit
  exact hsplit

/-- Frame rule: a range disjoint from the written one is unchanged. -/
theorem read_write_disjoint (m : Memory α) {offset offset' length : ℕ} {xs : List α}
    (h : offset' + length ≤ offset ∨ offset + xs.length ≤ offset') :
    (m.write offset xs).read offset' length = m.read offset' length := by
  apply read_congr
  intro i hi
  rcases h with h | h
  · exact write_of_lt m xs (by omega)
  · exact write_of_ge m (by omega)

/-- Writing the beginning of a list again changes nothing. -/
theorem write_write_append (m : Memory α) (offset : ℕ) (xs ys : List α) :
    (m.write offset (xs ++ ys)).write offset xs = m.write offset (xs ++ ys) := by
  funext i
  by_cases hbefore : i < offset
  · exact write_of_lt _ xs hbefore
  · obtain ⟨i, rfl⟩ := Nat.exists_eq_add_of_le (Nat.le_of_not_lt hbefore)
    by_cases hi : i < xs.length
    · rw [write_add _ offset hi, write_add m offset (by simp; omega), List.getElem_append_left hi]
    · exact write_of_ge _ (by omega)

/-- Reading inside a moved range gives the corresponding part of the source. -/
theorem read_move (m : Memory α) {target source length n k : ℕ} (h : n + k ≤ length) :
    (m.move target source length).read (target + n) k = m.read (source + n) k := by
  rw [move, read_write_inside m (by simpa using h), drop_read m (by omega),
    take_read m (by omega)]

end Memory

end Foundations
