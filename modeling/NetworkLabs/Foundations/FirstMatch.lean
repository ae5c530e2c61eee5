import Mathlib.Data.List.Basic

/-!
# Searching and updating the first match in a list

A search that returns a pointer lets its caller change the entry it found in
place. On lists that is an update of the first entry satisfying the predicate.
The lemmas say what such an update does to later searches.
-/

namespace Foundations

variable {α β : Type*}

/-- Apply a function to the first entry that satisfies a predicate. -/
def updateFirst (p : α → Bool) (f : α → α) : List α → List α
  | [] => []
  | x :: xs => if p x then f x :: xs else x :: updateFirst p f xs

/-- An update that keeps the predicate is seen by the same search. -/
theorem find?_updateFirst {p : α → Bool} {f : α → α} (hf : ∀ x, p x = true → p (f x) = true)
    (xs : List α) : (updateFirst p f xs).find? p = (xs.find? p).map f := by
  induction xs with
  | nil => rfl
  | cons x xs ih =>
    by_cases hx : p x = true
    · simp [updateFirst, hx, hf x hx]
    · simp [updateFirst, hx, ih]

/-- Frame rule: a search for entries the update does not concern is unaffected. -/
theorem find?_updateFirst_of_disjoint {p q : α → Bool} {f : α → α}
    (hq : ∀ x, p x = true → q x = false ∧ q (f x) = false) (xs : List α) :
    (updateFirst p f xs).find? q = xs.find? q := by
  induction xs with
  | nil => rfl
  | cons x xs ih =>
    by_cases hx : p x = true
    · obtain ⟨h, hf⟩ := hq x hx
      simp [updateFirst, hx, h, hf]
    · simp only [updateFirst, hx, Bool.false_eq_true, if_false, List.find?_cons, ih]

/-- Frame rule: an update keeps the list of all entries it does not concern. -/
theorem filter_updateFirst_of_disjoint {p q : α → Bool} {f : α → α}
    (hq : ∀ x, p x = true → q x = false ∧ q (f x) = false) (xs : List α) :
    (updateFirst p f xs).filter q = xs.filter q := by
  induction xs with
  | nil => rfl
  | cons x xs ih =>
    by_cases hx : p x = true
    · obtain ⟨h, hf⟩ := hq x hx
      simp [updateFirst, hx, h, hf]
    · simp only [updateFirst, hx, Bool.false_eq_true, if_false, List.filter_cons, ih]

/-- Frame rule: removing an entry keeps the list of all entries that differ from it. -/
theorem filter_eraseP_of_disjoint {p q : α → Bool} (hq : ∀ x, p x = true → q x = false)
    (xs : List α) : (xs.eraseP p).filter q = xs.filter q := by
  induction xs with
  | nil => rfl
  | cons x xs ih =>
    by_cases hx : p x = true
    · simp [hx, hq x hx]
    · simp only [List.eraseP_cons, hx, cond_false, List.filter_cons, ih]

/-- An update keeps every projection that the function keeps. -/
theorem map_updateFirst {p : α → Bool} {f : α → α} {g : α → β} (hg : ∀ x, g (f x) = g x)
    (xs : List α) : (updateFirst p f xs).map g = xs.map g := by
  induction xs with
  | nil => rfl
  | cons x xs ih =>
    by_cases hx : p x = true
    · simp [updateFirst, hx, hg]
    · simp [updateFirst, hx, ih]

/-- An entry of the updated list is an old entry or the updated match. -/
theorem mem_updateFirst {p : α → Bool} {f : α → α} {y : α} {xs : List α}
    (hy : y ∈ updateFirst p f xs) : y ∈ xs ∨ ∃ x, xs.find? p = some x ∧ y = f x := by
  induction xs with
  | nil => simp [updateFirst] at hy
  | cons x xs ih =>
    by_cases hx : p x = true
    · simp only [updateFirst, hx, if_true, List.mem_cons] at hy
      rcases hy with rfl | hy
      · exact Or.inr ⟨x, by simp [hx], rfl⟩
      · exact Or.inl (List.mem_cons_of_mem x hy)
    · simp only [updateFirst, hx, Bool.false_eq_true, if_false, List.mem_cons] at hy
      rcases hy with rfl | hy
      · exact Or.inl List.mem_cons_self
      · rcases ih hy with hmem | ⟨z, hz, rfl⟩
        · exact Or.inl (List.mem_cons_of_mem x hmem)
        · exact Or.inr ⟨z, by simp [hx, hz], rfl⟩

/-- An update keeps a relation between the entries when it concerns no pair whose first entry
lies before the match and keeps those of the match with later entries. -/
theorem pairwise_updateFirst {R : α → α → Prop} {p : α → Bool} {f : α → α}
    (hbefore : ∀ x y, p x = false → p y = true → R x (f y))
    (hmatch : ∀ x y, p x = true → R x y → R (f x) y) {xs : List α} (h : xs.Pairwise R) :
    (updateFirst p f xs).Pairwise R := by
  induction xs with
  | nil => exact h
  | cons x xs ih =>
    obtain ⟨hx, hxs⟩ := List.pairwise_cons.mp h
    by_cases hp : p x = true
    · rw [updateFirst, if_pos hp]
      exact List.pairwise_cons.mpr ⟨fun y hy => hmatch x y hp (hx y hy), hxs⟩
    · rw [updateFirst, if_neg hp]
      refine List.pairwise_cons.mpr ⟨fun y hy => ?_, ih hxs⟩
      rcases mem_updateFirst hy with hmem | ⟨z, hz, rfl⟩
      · exact hx y hmem
      · exact hbefore x z (by simpa using hp) (List.find?_some hz)

/-- A change of one position that keeps the predicate is seen by the search when
that position is the match, and otherwise not at all. -/
theorem find?_modify {p : α → Bool} {f : α → α} (hf : ∀ x, p (f x) = p x) (xs : List α)
    (i : ℕ) : (xs.modify i f).find? p = xs.find? p ∨
      (xs.modify i f).find? p = (xs.find? p).map f := by
  induction xs generalizing i with
  | nil => exact Or.inl (by simp)
  | cons x xs ih =>
    cases i with
    | zero =>
      by_cases hx : p x = true
      · exact Or.inr (by simp [hf, hx])
      · exact Or.inl (by simp [hf, hx])
    | succ i =>
      by_cases hx : p x = true
      · exact Or.inl (by simp [hx])
      · simpa [hx] using ih i

/-- Some position is that of the match. -/
theorem exists_find?_modify {p : α → Bool} {f : α → α} (hf : ∀ x, p (f x) = p x) (xs : List α) :
    ∃ i, (xs.modify i f).find? p = (xs.find? p).map f := by
  induction xs with
  | nil => exact ⟨0, rfl⟩
  | cons x xs ih =>
    by_cases hx : p x = true
    · exact ⟨0, by simp [hf, hx]⟩
    · obtain ⟨i, hi⟩ := ih
      exact ⟨i + 1, by simpa [hx] using hi⟩

/-- An entry after a change of one position is an old entry or a changed one. -/
theorem mem_modify {f : α → α} {y : α} {xs : List α} {i : ℕ} (hy : y ∈ xs.modify i f) :
    y ∈ xs ∨ ∃ x ∈ xs, y = f x := by
  induction xs generalizing i with
  | nil => simp at hy
  | cons x xs ih =>
    cases i with
    | zero =>
      rcases List.mem_cons.mp (by simpa using hy) with rfl | hy
      · exact Or.inr ⟨x, List.mem_cons_self, rfl⟩
      · exact Or.inl (List.mem_cons_of_mem x hy)
    | succ i =>
      rcases List.mem_cons.mp (by simpa using hy) with rfl | hy
      · exact Or.inl List.mem_cons_self
      · rcases ih hy with h | ⟨z, hz, rfl⟩
        · exact Or.inl (List.mem_cons_of_mem x h)
        · exact Or.inr ⟨z, List.mem_cons_of_mem x hz, rfl⟩

/-- A change of one position keeps every relation that does not see the change. -/
theorem pairwise_modify {R : α → α → Prop} {f : α → α} (hleft : ∀ x y, R x y → R (f x) y)
    (hright : ∀ x y, R x y → R x (f y)) {xs : List α} (h : xs.Pairwise R) (i : ℕ) :
    (xs.modify i f).Pairwise R := by
  induction xs generalizing i with
  | nil => simp
  | cons x xs ih =>
    obtain ⟨hx, hxs⟩ := List.pairwise_cons.mp h
    cases i with
    | zero => exact List.pairwise_cons.mpr ⟨fun y hy => hleft x y (hx y hy), hxs⟩
    | succ i =>
      rw [List.modify_succ_cons]
      refine List.pairwise_cons.mpr ⟨fun y hy => ?_, ih hxs i⟩
      rcases mem_modify hy with hmem | ⟨z, hz, rfl⟩
      · exact hx y hmem
      · exact hright x z (hx z hz)

/-- A search finds the only entry that satisfies the predicate. -/
theorem find?_eq_some_of_unique {p : α → Bool} {x : α} {xs : List α} (hx : x ∈ xs)
    (hp : p x = true) (hunique : ∀ y ∈ xs, p y = true → y = x) : xs.find? p = some x := by
  cases hfind : xs.find? p with
  | none => exact absurd hp (List.find?_eq_none.mp hfind x hx)
  | some y =>
    rw [hunique y (List.mem_of_find?_eq_some hfind) (List.find?_some hfind)]

/-- Erasing the only entry that satisfies the predicate. -/
theorem eraseP_eq_erase_of_unique [DecidableEq α] {p : α → Bool} {x : α} {xs : List α}
    (hp : p x = true) (hunique : ∀ y ∈ xs, p y = true → y = x) : xs.eraseP p = xs.erase x := by
  induction xs with
  | nil => rfl
  | cons y xs ih =>
    have hrest := ih fun z hz => hunique z (List.mem_cons_of_mem y hz)
    by_cases hy : p y = true
    · obtain rfl := hunique y List.mem_cons_self hy
      simp [hp]
    · have hne : y ≠ x := by
        rintro rfl
        exact hy hp
      simp [hy, hne, hrest]

end Foundations
