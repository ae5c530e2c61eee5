import Mathlib.Data.List.Perm.Basic

/-!
# Comparing with what was seen first

Values arrive one after another; the first is kept, and every later one is compared with
it. This finds out whether any two of the values differ, whatever their order.
-/

namespace Foundations

variable {α : Type*} [DecidableEq α]

/-- The first value seen, and whether a later one was different. -/
structure FirstSeen (α : Type*) where
  first : Option α
  differs : Bool

/-- Nothing has been seen, which no value differs from. -/
def FirstSeen.nothing : FirstSeen α := { first := none, differs := false }

/-- See one more value. The first one is kept, and a later one is only compared with it. -/
def FirstSeen.see (s : FirstSeen α) (a : α) : FirstSeen α :=
  match s.first with
  | none => { s with first := some a }
  | some b => if a = b then s else { s with differs := true }

/-- Some two of the values differ, wherever in the list they stand. -/
def Disagree (as : List α) : Prop := ∃ a ∈ as, ∃ b ∈ as, a ≠ b

omit [DecidableEq α] in
/-- The order of the values does not matter. -/
theorem disagree_perm {as bs : List α} (hperm : as.Perm bs) : Disagree as ↔ Disagree bs := by
  simp [Disagree, hperm.mem_iff]

omit [DecidableEq α] in
/-- It is enough to compare with the first value. -/
theorem disagree_cons {a : α} {as : List α} : Disagree (a :: as) ↔ ∃ b ∈ as, b ≠ a := by
  constructor
  · rintro ⟨b, hb, c, hc, hne⟩
    by_cases hba : b = a
    · subst hba
      rcases List.mem_cons.mp hc with rfl | hc
      · exact absurd rfl hne
      · exact ⟨c, hc, Ne.symm hne⟩
    · rcases List.mem_cons.mp hb with rfl | hb
      · exact absurd rfl hba
      · exact ⟨b, hb, hba⟩
  · rintro ⟨b, hb, hne⟩
    exact ⟨b, List.mem_cons_of_mem a hb, a, List.mem_cons_self, hne⟩

/-- Once a value has been seen, every later one is compared with it. -/
theorem foldl_see_of_first {s : FirstSeen α} {a : α} (hfirst : s.first = some a) (as : List α) :
    (as.foldl FirstSeen.see s).differs = true ↔ s.differs = true ∨ ∃ b ∈ as, b ≠ a := by
  induction as generalizing s with
  | nil => simp
  | cons b as ih =>
    rw [List.foldl_cons]
    by_cases hb : b = a
    · have hsee : s.see b = s := by
        rw [FirstSeen.see, hfirst]
        exact if_pos hb
      rw [hsee, ih hfirst]
      simp [hb]
    · have hsee : s.see b = { s with differs := true } := by
        rw [FirstSeen.see, hfirst]
        exact if_neg hb
      have hrest := ih (s := { s with differs := true }) hfirst
      rw [hsee, hrest]
      simp [hb]

/-- In the end some value was different exactly when some two of them are. -/
theorem foldl_see_differs (as : List α) :
    (as.foldl FirstSeen.see FirstSeen.nothing).differs = true ↔ Disagree as := by
  cases as with
  | nil => simp [FirstSeen.nothing, Disagree]
  | cons a as =>
    have hsee : FirstSeen.nothing.see a = { first := some a, differs := false } := rfl
    rw [List.foldl_cons, hsee, foldl_see_of_first rfl, disagree_cons]
    simp

end Foundations
